import LanguageClient.Proofs.Registering
import LanguageClient.Proofs.Routing

namespace LanguageClient

theorem Path.isEmpty_directory (p : Path) : p.directory.isEmpty = false := by
  rw [Path.directory]
  cases p.parent? with
  | none => rfl
  | some dir =>
    dsimp only
    split
    case isTrue => rfl
    case isFalse hdir => exact Bool.eq_false_iff.2 hdir

end LanguageClient

namespace LanguageClient.Workspace

open Document Server Wire

/-- An attempt to start a server for a workspace, and whether there was a server to start. -/
structure Attempt where
  root : Path
  reached : Bool

/-- Something that a client is asked to do, directly or by what happens to its documents. -/
inductive Act (σ : Type) where
  | errand (e : Errand σ)
  | turn (t : Turn)

theorem Registry.root_select {σ : Type} (r : Registry σ) (p : Path) :
    (r.select p).2.root = r.root := by
  rw [select]
  cases r.languageFor? p with
  | none => rfl
  | some language => rfl

/-- The newest attempt names the workspace of the newest that found a server to start exactly if it
found one itself, or happens to name the same workspace. -/
theorem Attempt.map_root_find?_iff (log : List Attempt) :
    log.head?.map root = (log.find? reached).map root ↔
      ∀ newest ∈ log.head?, newest.reached = true ∨
        ∃ last ∈ log.find? reached, last.root = newest.root := by
  cases log with
  | nil => simp
  | cons newest rest =>
    cases hreached : newest.reached with
    | true => simp [hreached]
    | false =>
      have hfind : (newest :: rest).find? reached = rest.find? reached :=
        List.find?_cons_of_neg (Bool.eq_false_iff.1 hreached)
      rw [hfind, List.head?_cons, Option.map_some, eq_comm, Option.map_eq_some_iff]
      simp [hreached]

/-- The workspace is that of the newest attempt. -/
structure Session.Follows {σ : Type} (s : Session σ) (log : List Attempt) : Prop where
  nonempty : ∀ e ∈ log, e.root.isEmpty = false
  root_eq : s.registry.root = log.head?.map Attempt.root

theorem Session.Follows.isEmpty_getD {σ : Type} {s : Session σ} {log : List Attempt}
    (h : s.Follows log) (p : Path) :
    (s.registry.root.getD p.directory).isEmpty = false := by
  rw [h.root_eq]
  cases log with
  | nil => exact p.isEmpty_directory
  | cons newest rest => exact h.nonempty newest (.head _)

section

variable {σ : Type} [Adapter σ]

namespace Registry

/-- The workspace that the server of a file would have to be started for. -/
def wanted? (r : Registry σ) (p : Path) : Option Path := do
  let language ← r.languageFor? p
  let server ← r.servers language
  let root := r.root.getD p.directory
  if Adapter.isReady server || root.isEmpty then none else some root

variable {r : Registry σ} {root p : Path} {language : Language} {server : σ}

theorem isActiveReady_of_some (h : r.activeServer? = some (language, server)) :
    r.isActiveReady = Adapter.isReady server := by
  rw [isActiveReady, h]

theorem isActiveReady_of_none (h : r.activeServer? = none) : r.isActiveReady = false := by
  rw [isActiveReady, h]

theorem start_of_isEmpty (h : root.isEmpty = true) (a : Ambient) :
    r.start root a = (false, r, a) := by
  rw [start, if_pos h]

theorem start_of_idle (hroot : root.isEmpty = false)
    (hidle : r.activeServer? = none ∨ r.isActiveReady = true) (a : Ambient) :
    r.start root a = (r.isActiveReady, { r with root := some root }, a) := by
  have hactive : { r with root := some root }.activeServer? = r.activeServer? := rfl
  rw [start, hroot, if_neg Bool.false_ne_true]
  dsimp only
  rw [hactive]
  cases hserver : r.activeServer? with
  | none => rw [isActiveReady_of_none hserver]
  | some found =>
    obtain ⟨language, server⟩ := found
    rw [isActiveReady_of_some hserver] at hidle ⊢
    have hready : Adapter.isReady server = true := by
      rcases hidle with hnone | hready
      · rw [hserver] at hnone
        cases hnone
      · exact hready
    simp only [hready, if_true]

theorem servers_start (hroot : root.isEmpty = false)
    (hactive : r.activeServer? = some (language, server)) (hready : Adapter.isReady server = false)
    (a : Ambient) :
    r.contact? (.start root) = some (language, .start root) ∧
      (r.start root a).2.1.servers language = some (Adapter.start root server a).2.1 := by
  have hcontact : r.contact? (.start root) = some (language, .start root) := by
    simp only [contact?, hroot, if_neg Bool.false_ne_true, hactive, Option.filter_some, hready,
      Bool.not_false, if_true, Option.map_some]
  refine ⟨hcontact, ?_⟩
  have htouches := r.touches_start a root
  rw [hcontact] at htouches
  generalize (r.start root a).2.1 = r', (r.start root a).2.2 = a' at htouches ⊢
  cases htouches with
  | one hserver hplace =>
    rw [(activeServer?_eq_some_iff.1 hactive).2] at hserver
    cases hserver
    exact hplace

theorem root_start (hroot : root.isEmpty = false) (a : Ambient) :
    (r.start root a).2.1.root = some root := by
  rw [start, hroot, if_neg Bool.false_ne_true]
  dsimp only
  split
  · rfl
  · split
    · rfl
    · rfl

theorem root_sendTo (r : Registry σ) (language : Language) (body : Bytes) :
    (r.sendTo language body).2.root = r.root := by
  rw [sendTo]
  cases r.servers language with
  | none => rfl
  | some server =>
    dsimp only
    split
    · rfl
    · rfl

theorem root_perform (r : Registry σ) (a : Ambient) {errand : Errand σ}
    (h : ∀ root, errand ≠ .start root) : (r.perform a errand).1.root = r.root := by
  cases errand with
  | register new =>
    cases hold : r.servers (Adapter.language new) with
    | some old => rw [perform_register_of_some hold]
    | none =>
      rw [perform_register_of_none hold]
      rfl
  | select p => exact r.root_select p
  | start root => exact absurd rfl (h root)
  | send body =>
    rw [perform, send]
    cases r.active with
    | none => rfl
    | some language => exact r.root_sendTo language body
  | sendTo language body => exact r.root_sendTo language body
  | receive wait =>
    rw [perform, receive]
    cases r.activeServer? with
    | none => rfl
    | some found => rfl
  | inbox language => rfl
  | languageId p => rfl
  | shutdown => exact (r.stops_shutdown a).root
  | rest nanos => rfl

theorem wanted?_eq_some (hlanguage : r.languageFor? p = some language)
    (hserver : r.servers language = some server) (hready : Adapter.isReady server = false)
    (hroot : (r.root.getD p.directory).isEmpty = false) :
    r.wanted? p = some (r.root.getD p.directory) := by
  simp only [wanted?, hlanguage, hserver, hready, hroot, Option.bind_eq_bind, Option.bind_some,
    Bool.or_self, if_neg Bool.false_ne_true]

theorem isEmpty_of_wanted? (h : r.wanted? p = some root) : root.isEmpty = false := by
  simp only [wanted?, Option.bind_eq_bind, Option.bind_eq_some_iff,
    Option.ite_none_left_eq_some] at h
  obtain ⟨_, _, server, _, hidle, ⟨⟩⟩ := h
  rw [Bool.or_eq_true, not_or] at hidle
  exact Bool.eq_false_iff.2 hidle.2

end Registry

namespace DocumentSync

variable {r r' : Registry σ} {a a' : Ambient} {p : Path} {found : Option (Language × σ)}

theorem Prepares.root_eq (h : Prepares p r a found r' a') :
    r'.root = (r.wanted? p).or r.root := by
  cases h with
  | unknown hlanguage => simp [Registry.wanted?, hlanguage]
  | ready hlanguage hserver hready => simp [Registry.wanted?, hlanguage, hserver, hready]
  | rootless hlanguage hserver hready hroot => simp [Registry.wanted?, hlanguage, hroot]
  | started hlanguage hserver hready hroot hstart =>
    rw [Registry.wanted?_eq_some hlanguage hserver hready hroot]
    rfl
  | failed hlanguage hserver hready hroot hstart =>
    rw [Registry.wanted?_eq_some hlanguage hserver hready hroot]
    rfl

theorem Announces.root_eq {s s' : DocumentSync} {n : Notice} {told : Bool}
    (h : Announces s n r a told s' r' a') :
    r'.root = (if s.mutes n a.now then none else r.wanted? n.path).or r.root := by
  cases h with
  | muted hmutes => rw [if_pos hmutes, Option.none_or]
  | lost hmutes hprepares =>
    rw [hmutes, if_neg Bool.false_ne_true]
    exact hprepares.root_eq
  | told hmutes hprepares hsend =>
    rw [hmutes, if_neg Bool.false_ne_true]
    exact hprepares.root_eq

/-- A server that is not ready is started for the workspace of the client, if it has one. -/
theorem servers_prepare {language : Language} {server : σ}
    (hlanguage : r.languageFor? p = some language) (hserver : r.servers language = some server)
    (hready : Adapter.isReady server = false)
    (hroot : (r.root.getD p.directory).isEmpty = false) (a : Ambient) :
    (prepare p r a).2.1.servers language =
      some (Adapter.start (r.root.getD p.directory) server a).2.1 := by
  rw [prepare_of_languageFor? hlanguage hserver, hready, if_neg Bool.false_ne_true,
    start_active hserver hready hroot]
  exact if_pos rfl

end DocumentSync

theorem Completion.root_awaitReply (c : Completion) (request : CompletionRequest)
    (language : Language) (document : Snapshot) (r : Registry σ) (a : Ambient) :
    (c.awaitReply request language document r a).2.2.1.root = r.root := by
  cases hserver : r.servers language with
  | none =>
    rw [awaitReply, hserver]
  | some server =>
    rcases hwait : Mailbox.await (answer? request.id) c.budget server with ⟨awaited, nanos, after⟩
    rw [awaitReply_eq document a hserver hwait]
    rfl

namespace Session

def act (s : Session σ) : Act σ → Session σ
  | .errand e =>
    let (registry, ambient) := s.registry.perform s.ambient e
    { s with registry, ambient }
  | .turn t => s.turn t

/-- The attempt to start a server that an act comes to. -/
def attempt? (s : Session σ) : Act σ → Option Attempt
  | .errand (.start root) =>
    if root.isEmpty then none
    else some ⟨root, (s.registry.contact? (.start root)).isSome⟩
  | .turn (.notice n) =>
    (if s.sync.mutes n s.ambient.now then none else s.registry.wanted? n.path).map (⟨·, true⟩)
  | _ => none

/-- The session after some acts, and the attempts of it, the newest first. -/
def attempted (s : Session σ) (log : List Attempt) : List (Act σ) → Session σ × List Attempt
  | [] => (s, log)
  | act :: rest => (s.act act).attempted ((s.attempt? act).toList ++ log) rest

theorem root_turn (s : Session σ) (t : Turn) :
    (s.turn t).registry.root = ((s.attempt? (.turn t)).map Attempt.root).or s.registry.root := by
  cases t with
  | select p => exact s.registry.root_select p
  | notice n =>
    obtain ⟨told, sync, r', a', hannounces⟩ :=
      DocumentSync.exists_announces s.sync n s.registry s.ambient
    have hroot := hannounces.root_eq
    rw [turn, hannounces.announce_eq, attempt?, Option.map_map]
    exact hroot.trans (congrArg (Option.or · s.registry.root) Option.map_id'.symm)
  | ask request document =>
    obtain ⟨taken, c', r', hsends⟩ :=
      Completion.exists_sends s.completion request (request.call document).body s.registry
    rw [turn, hsends.send_eq]
    cases taken with
    | none => exact hsends.place_eq.2
    | some language => exact hsends.place_eq.2
  | hear request language document =>
    have hroot := s.completion.root_awaitReply request language document s.registry s.ambient
    rw [turn]
    rcases hreply : s.completion.awaitReply request language document s.registry s.ambient with
      ⟨outcome, c', r', a'⟩
    rw [hreply] at hroot
    exact hroot
  | rest nanos => rfl

theorem root_act (s : Session σ) (act : Act σ) :
    (s.act act).registry.root = ((s.attempt? act).map Attempt.root).or s.registry.root := by
  cases act with
  | turn t => exact s.root_turn t
  | errand e =>
    change (s.registry.perform s.ambient e).1.root = _
    cases e with
    | start root =>
      change (s.registry.start root s.ambient).2.1.root = _
      rw [attempt?]
      cases hroot : root.isEmpty with
      | true => rw [Registry.start_of_isEmpty hroot, if_pos rfl, Option.map_none, Option.none_or]
      | false =>
        rw [Registry.root_start hroot, if_neg Bool.false_ne_true]
        rfl
    | _ => exact s.registry.root_perform s.ambient fun root h => by cases h

theorem isEmpty_of_attempt? {s : Session σ} {act : Act σ} {e : Attempt}
    (h : s.attempt? act = some e) : e.root.isEmpty = false := by
  cases act with
  | errand errand =>
    cases errand with
    | start root =>
      rw [attempt?, Option.ite_none_left_eq_some] at h
      obtain ⟨hroot, ⟨⟩⟩ := h
      exact Bool.eq_false_iff.2 hroot
    | _ => cases h
  | turn t =>
    cases t with
    | notice n =>
      obtain ⟨root, hwanted, ⟨⟩⟩ := Option.map_eq_some_iff.1 h
      rw [Option.ite_none_left_eq_some] at hwanted
      exact Registry.isEmpty_of_wanted? hwanted.2
    | _ => cases h

namespace Follows

variable {s : Session σ} {log : List Attempt}

theorem act (h : s.Follows log) (act : Act σ) :
    (s.act act).Follows ((s.attempt? act).toList ++ log) := by
  constructor
  case nonempty =>
    intro e he
    rcases List.mem_append.1 he with hnew | hold
    · exact isEmpty_of_attempt? (Option.mem_toList.1 hnew)
    · exact h.nonempty e hold
  case root_eq =>
    rw [s.root_act, h.root_eq]
    cases s.attempt? act with
    | none => rfl
    | some e => rfl

theorem attempted (h : s.Follows log) (acts : List (Act σ)) :
    (s.attempted log acts).1.Follows (s.attempted log acts).2 := by
  induction acts generalizing s log with
  | nil => exact h
  | cons act rest ih => exact ih (h.act act)

end Follows

/-- What holds of a client's workspace after some attempts to start servers. -/
structure Rooted (s : Session σ) (log : List Attempt) : Prop where
  root_eq : s.registry.root = log.head?.map Attempt.root
  /-- When that is the workspace of the newest attempt with a server to start. -/
  meant_iff : s.registry.root = (log.find? Attempt.reached).map Attempt.root ↔
    ∀ newest ∈ log.head?, newest.reached = true ∨
      ∃ last ∈ log.find? Attempt.reached, last.root = newest.root
  starts {root : Path} {language : Language} {server : σ} (hroot : root.isEmpty = false)
    (hactive : s.registry.activeServer? = some (language, server))
    (hready : Adapter.isReady server = false) :
    s.registry.contact? (.start root) = some (language, .start root) ∧
      (s.registry.start root s.ambient).2.1.servers language =
        some (Adapter.start root server s.ambient).2.1
  /-- A start tells of a server that is ready already, and sets nothing but the workspace. -/
  ready {root : Path} (hroot : root.isEmpty = false) (hready : s.registry.isActiveReady = true) :
    s.registry.start root s.ambient = (true, { s.registry with root := some root }, s.ambient)
  inactive {root : Path} (hroot : root.isEmpty = false) (hnone : s.registry.activeServer? = none) :
    s.registry.start root s.ambient = (false, { s.registry with root := some root }, s.ambient)
  /-- Either leaves the client as it is exactly if it names the workspace that is served. -/
  keeps_iff {root : Path} (hroot : root.isEmpty = false)
    (hidle : s.registry.activeServer? = none ∨ s.registry.isActiveReady = true) :
    (s.registry.start root s.ambient).2 = (s.registry, s.ambient) ↔ s.registry.root = some root
  inherits {p : Path} {language : Language} {server : σ}
    (hlanguage : s.registry.languageFor? p = some language)
    (hserver : s.registry.servers language = some server)
    (hready : Adapter.isReady server = false) :
    (DocumentSync.prepare p s.registry s.ambient).2.1.servers language =
      some (Adapter.start ((log.head?.map Attempt.root).getD p.directory) server s.ambient).2.1

theorem Follows.rooted {s : Session σ} {log : List Attempt} (h : s.Follows log) :
    s.Rooted log where
  root_eq := h.root_eq
  meant_iff := by
    rw [h.root_eq]
    exact Attempt.map_root_find?_iff log
  starts hroot hactive hready := Registry.servers_start hroot hactive hready s.ambient
  ready hroot hready := by
    rw [Registry.start_of_idle hroot (.inr hready), hready]
  inactive hroot hnone := by
    rw [Registry.start_of_idle hroot (.inl hnone), Registry.isActiveReady_of_none hnone]
  keeps_iff {root} hroot hidle := by
    rw [Registry.start_of_idle hroot hidle]
    constructor
    · intro hsame
      exact (congrArg (fun kept => kept.1.root) hsame).symm
    · intro hsame
      rw [← hsame]
  inherits {p} _ _ hlanguage hserver hready := by
    rw [← h.root_eq]
    exact DocumentSync.servers_prepare hlanguage hserver hready (h.isEmpty_getD p) s.ambient

/-- Whatever a client is asked to do, it serves the workspace of the newest attempt to start a
server. -/
theorem rooted_run (sync : DocumentSync) (completion : Completion)
    (servers : Language → Option σ) (active : Option Language) (ambient : Ambient)
    (acts : List (Act σ)) :
    let s : Session σ := { sync, completion, registry := { servers, active }, ambient }
    (s.attempted [] acts).1.Rooted (s.attempted [] acts).2 := by
  intro s
  have hfollows : s.Follows [] := ⟨fun _ hmem => absurd hmem List.not_mem_nil, rfl⟩
  exact (hfollows.attempted acts).rooted

end Session

end

/-- A client of two servers that are not started yet. -/
def unstarted : Session Scripted where
  sync := ⟨.ofMillis 50, none⟩
  completion := defaultCompletion
  registry := { servers := fun language =>
    match language with
    | .go | .python => some { language, inbox := .ofCapacity 8 }
    | _ => none }
  ambient := {}

def halfStarted : Session Scripted :=
  (unstarted.attempted [] [.errand (.select ⟨"/w/one/a.go"⟩), .errand (.start ⟨"/w/one"⟩)]).1

/-- A start that finds a ready server, or none, changes the workspace all the same, and a server
that is started for a file of the old one is started for the new one. -/
theorem root_changed_by_idle_start :
    let twice := halfStarted.registry.start ⟨"/w/two"⟩ halfStarted.ambient
    let never := unstarted.registry.start ⟨"/w/two"⟩ unstarted.ambient
    halfStarted.registry.isActiveReady = true ∧
      halfStarted.registry.root.map Path.text = some "/w/one" ∧
      twice.1 = true ∧ twice.2.1.root.map Path.text = some "/w/two" ∧
      ((DocumentSync.prepare ⟨"/w/one/b.py"⟩ twice.2.1 twice.2.2).2.1.servers .python).map
        (fun server => server.roots.map Path.text) = some ["/w/two"] ∧
      unstarted.registry.active = none ∧ unstarted.registry.root.map Path.text = none ∧
      never.1 = false ∧ never.2.1.root.map Path.text = some "/w/two" := by
  decide +kernel

end LanguageClient.Workspace
