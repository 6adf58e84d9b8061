import LanguageClient.Proofs.Delivery

namespace LanguageClient.Workspace

open Server Wire

namespace Notice

/-- The file that something happens to. -/
def path : Notice → Path
  | opened p _ => p
  | changed p _ _ => p
  | saved p _ => p
  | closed p => p

def call (languageId : String) : Notice → Call
  | opened p content => DocumentSync.openCall p languageId content
  | changed p version content => DocumentSync.changeCall p version content
  | saved p content => DocumentSync.saveCall p content
  | closed p => DocumentSync.closeCall p

end Notice

theorem Registry.servers_of_languageFor? {σ : Type} {r : Registry σ} {p : Path}
    {language : Language} (h : r.languageFor? p = some language) :
    Language.ofPath? p = some language ∧ ∃ server, r.servers language = some server := by
  rw [languageFor?, Option.filter_eq_some_iff] at h
  exact ⟨h.1, Option.isSome_iff_exists.1 h.2⟩

section

variable {σ : Type} [Adapter σ]

structure ReadyOnceStarted (σ : Type) [Adapter σ] : Prop where
  isReady_of_start {root : Path} {server started : σ} {a after : Ambient}
    (h : Adapter.start root server a = (.ok (), started, after)) : Adapter.isReady started = true

/-- The server of a file once it is ready: it is so already, or a start makes it so. -/
def Registry.readied? (r : Registry σ) (p : Path) (a : Ambient) : Option (Language × σ) := do
  let language ← r.languageFor? p
  let server ← r.servers language
  let root := r.root.getD p.directory
  if Adapter.isReady server then some (language, server)
  else if root.isEmpty then none
  else match Adapter.start root server a with
    | (.ok (), server, _) => some (language, server)
    | (.error _, _, _) => none

namespace DocumentSync

/-- What getting the server of a file ready finds, and what it leaves behind. -/
inductive Prepares (p : Path) (r : Registry σ) (a : Ambient) :
    Option (Language × σ) → Registry σ → Ambient → Prop where
  | unknown (hlanguage : r.languageFor? p = none) : Prepares p r a none r a
  | ready {language : Language} {server : σ} (hlanguage : r.languageFor? p = some language)
      (hserver : r.servers language = some server) (hready : Adapter.isReady server = true) :
      Prepares p r a (some (language, server)) { r with active := some language } a
  | rootless {language : Language} {server : σ} (hlanguage : r.languageFor? p = some language)
      (hserver : r.servers language = some server) (hready : Adapter.isReady server = false)
      (hroot : (r.root.getD p.directory).isEmpty = true) :
      Prepares p r a none { r with active := some language } a
  | started {language : Language} {server started : σ} {after : Ambient}
      (hlanguage : r.languageFor? p = some language)
      (hserver : r.servers language = some server) (hready : Adapter.isReady server = false)
      (hroot : (r.root.getD p.directory).isEmpty = false)
      (hstart : Adapter.start (r.root.getD p.directory) server a = (.ok (), started, after)) :
      Prepares p r a (some (language, started))
        ({ r with active := some language, root := some (r.root.getD p.directory) }.putAfter
          (after.since a) language started) after
  | failed {language : Language} {server failed : σ} {after : Ambient} {fault : Server.Fault}
      (hlanguage : r.languageFor? p = some language)
      (hserver : r.servers language = some server) (hready : Adapter.isReady server = false)
      (hroot : (r.root.getD p.directory).isEmpty = false)
      (hstart : Adapter.start (r.root.getD p.directory) server a = (.error fault, failed, after)) :
      Prepares p r a none
        ({ r with active := some language, root := some (r.root.getD p.directory) }.putAfter
          (after.since a) language failed) after

variable {p : Path} {r r' : Registry σ} {a a' : Ambient} {found : Option (Language × σ)}

theorem exists_prepares (p : Path) (r : Registry σ) (a : Ambient) :
    ∃ found r' a', Prepares p r a found r' a' := by
  cases hlanguage : r.languageFor? p with
  | none => exact ⟨_, _, _, .unknown hlanguage⟩
  | some language =>
    obtain ⟨_, server, hserver⟩ := Registry.servers_of_languageFor? hlanguage
    cases hready : Adapter.isReady server with
    | true => exact ⟨_, _, _, .ready hlanguage hserver hready⟩
    | false =>
      cases hroot : (r.root.getD p.directory).isEmpty with
      | true => exact ⟨_, _, _, .rootless hlanguage hserver hready hroot⟩
      | false =>
        rcases hstart : Adapter.start (r.root.getD p.directory) server a with ⟨result, after, a'⟩
        cases result with
        | ok => exact ⟨_, _, _, .started hlanguage hserver hready hroot hstart⟩
        | error fault => exact ⟨_, _, _, .failed hlanguage hserver hready hroot hstart⟩

theorem prepare_of_languageFor? {language : Language} {server : σ}
    (hlanguage : r.languageFor? p = some language) (hserver : r.servers language = some server) :
    prepare p r a =
      if Adapter.isReady server then (true, { r with active := some language }, a)
      else { r with active := some language }.start (r.root.getD p.directory) a := by
  rw [prepare, Registry.select, hlanguage]
  simp only [Registry.isActiveReady, Registry.activeServer?, hserver, Option.bind_eq_bind,
    Option.bind_some, Option.pure_def]

theorem start_active {language : Language} {server : σ} {root : Path}
    (hserver : r.servers language = some server) (hready : Adapter.isReady server = false)
    (hroot : root.isEmpty = false) :
    { r with active := some language }.start root a =
      let (result, after, a') := Adapter.start root server a
      (result.isOk,
        { r with active := some language, root := some root }.putAfter (a'.since a) language after,
        a') := by
  simp only [Registry.start, hroot, if_neg Bool.false_ne_true, Registry.activeServer?, hserver,
    Option.bind_eq_bind, Option.bind_some, Option.pure_def, hready]

theorem Prepares.prepare_eq (h : Prepares p r a found r' a') :
    prepare p r a = (found.isSome, r', a') := by
  cases h with
  | unknown hlanguage =>
    rw [prepare, Registry.select, hlanguage]
    rfl
  | ready hlanguage hserver hready =>
    rw [prepare_of_languageFor? hlanguage hserver, hready]
    rfl
  | rootless hlanguage hserver hready hroot =>
    rw [prepare_of_languageFor? hlanguage hserver, hready, if_neg Bool.false_ne_true,
      Registry.start, if_pos hroot]
    rfl
  | started hlanguage hserver hready hroot hstart =>
    rw [prepare_of_languageFor? hlanguage hserver, hready, if_neg Bool.false_ne_true,
      start_active hserver hready hroot, hstart]
    rfl
  | failed hlanguage hserver hready hroot hstart =>
    rw [prepare_of_languageFor? hlanguage hserver, hready, if_neg Bool.false_ne_true,
      start_active hserver hready hroot, hstart]
    rfl

theorem Prepares.readied?_eq (h : Prepares p r a found r' a') : r.readied? p a = found := by
  cases h with
  | unknown hlanguage => simp [Registry.readied?, hlanguage]
  | ready hlanguage hserver hready => simp [Registry.readied?, hlanguage, hserver, hready]
  | rootless hlanguage hserver hready hroot =>
    simp [Registry.readied?, hlanguage, hserver, hready, hroot]
  | started hlanguage hserver hready hroot hstart =>
    simp [Registry.readied?, hlanguage, hserver, hready, hroot, hstart]
  | failed hlanguage hserver hready hroot hstart =>
    simp [Registry.readied?, hlanguage, hserver, hready, hroot, hstart]

theorem exists_prepares_of_readied? (h : r.readied? p a = found) :
    ∃ r' a', Prepares p r a found r' a' := by
  obtain ⟨found', r', a', hprepares⟩ := exists_prepares p r a
  rw [hprepares.readied?_eq] at h
  exact ⟨r', a', h ▸ hprepares⟩

theorem Prepares.languageFor?_eq {language : Language} {server : σ}
    (h : Prepares p r a (some (language, server)) r' a') : r.languageFor? p = some language := by
  cases h with
  | ready hlanguage hserver hready => exact hlanguage
  | started hlanguage hserver hready hroot hstart => exact hlanguage

theorem Prepares.isReady_eq {language : Language} {server : σ} (hstarts : ReadyOnceStarted σ)
    (h : Prepares p r a (some (language, server)) r' a') : Adapter.isReady server = true := by
  cases h with
  | ready hlanguage hserver hready => exact hready
  | started hlanguage hserver hready hroot hstart => exact hstarts.isReady_of_start hstart

/-- The server that is found ready is the active one. -/
theorem Prepares.activeServer?_eq {language : Language} {server : σ}
    (h : Prepares p r a (some (language, server)) r' a') :
    r'.active = some language ∧ r'.servers language = some server := by
  cases h with
  | ready hlanguage hserver hready => exact ⟨rfl, hserver⟩
  | started hlanguage hserver hready hroot hstart => exact ⟨rfl, if_pos rfl⟩

theorem Prepares.notify_eq_of_none (h : Prepares p r a none r' a') (call : Registry σ → Call) :
    notify p call r a = (false, r', a') := by
  rw [notify, h.prepare_eq]
  rfl

/-- A server that is found ready is handed the body whatever server was active before. -/
theorem Prepares.notify_eq_of_some {language : Language} {server : σ}
    (h : Prepares p r a (some (language, server)) r' a') (n : String → Call) :
    notify p (fun r => n (r.languageId p)) r a =
      let (result, sent) := Adapter.send (n (Adapter.languageId server p)).body server
      (result.isOk, r'.put language sent, a') := by
  obtain ⟨hactive, hserver⟩ := h.activeServer?_eq
  have hid : r'.languageId p = Adapter.languageId server p := by
    simp only [Registry.languageId, Registry.activeServer?, hactive, hserver,
      Option.bind_eq_bind, Option.bind_some, Option.pure_def]
  rw [notify, h.prepare_eq]
  simp only [Option.isSome_some, hid, Registry.send, hactive, Registry.sendTo, hserver]
  rcases Adapter.send (n (Adapter.languageId server p)).body server with ⟨result, sent⟩
  cases result with
  | ok => rfl
  | error fault => rfl

/-- Whether a notice is a change that is suppressed at a time. -/
def mutes (s : DocumentSync) (n : Notice) (now : Nat) : Bool :=
  match n with
  | .changed p _ content => s.suppresses p content now
  | _ => false

/-- What is remembered of a notice that is not suppressed. -/
def remember (s : DocumentSync) (n : Notice) (now : Nat) : DocumentSync :=
  match n with
  | .changed p _ content => { s with last := some ⟨p, content, now⟩ }
  | _ => s

def announce (s : DocumentSync) (n : Notice) (r : Registry σ) (a : Ambient) :
    Bool × DocumentSync × Registry σ × Ambient :=
  match n with
  | .opened p content =>
    let (sent, r, a) := didOpen p content r a
    (sent, s, r, a)
  | .changed p version content => s.didChange p version content r a
  | .saved p content =>
    let (sent, r, a) := didSave p content r a
    (sent, s, r, a)
  | .closed p =>
    let (sent, r, a) := didClose p r a
    (sent, s, r, a)

theorem announce_eq (s : DocumentSync) (n : Notice) (r : Registry σ) (a : Ambient) :
    s.announce n r a =
      if s.mutes n a.now then (false, s, r, a)
      else
        let (sent, r, a') := notify n.path (fun r => n.call (r.languageId n.path)) r a
        (sent, s.remember n a.now, r, a') := by
  cases n with
  | opened p content => rfl
  | changed p version content => rfl
  | saved p content => rfl
  | closed p => rfl

/-- What becomes of a notice: it is suppressed, or no server gets ready for it, or the server that
is ready is handed the body. -/
inductive Announces (s : DocumentSync) (n : Notice) (r : Registry σ) (a : Ambient) :
    Bool → DocumentSync → Registry σ → Ambient → Prop where
  | muted (hmutes : s.mutes n a.now = true) : Announces s n r a false s r a
  | lost {r' : Registry σ} {a' : Ambient} (hmutes : s.mutes n a.now = false)
      (hprepares : Prepares n.path r a none r' a') :
      Announces s n r a false (s.remember n a.now) r' a'
  | told {r' : Registry σ} {a' : Ambient} {language : Language} {server sent : σ}
      {result : Except Server.Fault Unit} (hmutes : s.mutes n a.now = false)
      (hprepares : Prepares n.path r a (some (language, server)) r' a')
      (hsend : Adapter.send (n.call (Adapter.languageId server n.path)).body server =
        (result, sent)) :
      Announces s n r a result.isOk (s.remember n a.now) (r'.put language sent) a'

theorem exists_announces (s : DocumentSync) (n : Notice) (r : Registry σ) (a : Ambient) :
    ∃ told s' r' a', Announces s n r a told s' r' a' := by
  cases hmutes : s.mutes n a.now with
  | true => exact ⟨_, _, _, _, .muted hmutes⟩
  | false =>
    obtain ⟨found, r', a', hprepares⟩ := exists_prepares n.path r a
    cases found with
    | none => exact ⟨_, _, _, _, .lost hmutes hprepares⟩
    | some found => exact ⟨_, _, _, _, .told hmutes hprepares rfl⟩

theorem Announces.announce_eq {s s' : DocumentSync} {n : Notice} {told : Bool}
    (h : Announces s n r a told s' r' a') : s.announce n r a = (told, s', r', a') := by
  rw [DocumentSync.announce_eq]
  cases h with
  | muted hmutes => rw [if_pos hmutes]
  | lost hmutes hprepares => rw [hmutes, if_neg Bool.false_ne_true, hprepares.notify_eq_of_none]
  | told hmutes hprepares hsend =>
    rw [hmutes, if_neg Bool.false_ne_true,
      hprepares.notify_eq_of_some fun languageId => n.call languageId, hsend]

end DocumentSync

end

end LanguageClient.Workspace
