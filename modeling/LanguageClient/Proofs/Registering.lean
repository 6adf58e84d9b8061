import LanguageClient.Proofs.Announcing
import LanguageClient.Proofs.Requesting
import LanguageClient.Proofs.Supervising

namespace LanguageClient.Server

open Wire

section

variable {σ : Type} [Adapter σ]

/-- What becomes of a server while nobody turns to it. -/
inductive Aged (server : σ) : σ → Prop where
  | refl : Aged server server
  | pass {after : σ} (h : Aged server after) (nanos : Nat) :
      Aged server (Mailbox.pass nanos after)

/-- What becomes of a server that is stopped once, some time before or after. -/
def Stopped (server last : σ) : Prop :=
  ∃ met a, Aged server met ∧ Aged (Adapter.stop met a).1 last

/-- What becomes of a server whatever is asked of it. -/
inductive Evolves (server : σ) : σ → Prop where
  | refl : Evolves server server
  | start {after : σ} (h : Evolves server after) (root : Path) (a : Ambient) :
      Evolves server (Adapter.start root after a).2.1
  | attended {after last : σ} (h : Evolves server after) (hattended : Attended after last) :
      Evolves server last
  | stop {after : σ} (h : Evolves server after) (a : Ambient) :
      Evolves server (Adapter.stop after a).1

structure KeepsLanguage (σ : Type) [Adapter σ] : Prop where
  start (root : Path) (server : σ) (a : Ambient) :
    Adapter.language (Adapter.start root server a).2.1 = Adapter.language server
  send (body : Bytes) (server : σ) :
    Adapter.language (Adapter.send body server).2 = Adapter.language server
  setInbox (inbox : Inbox) (server : σ) :
    Adapter.language (Mailbox.setInbox inbox server) = Adapter.language server
  pass (nanos : Nat) (server : σ) :
    Adapter.language (Mailbox.pass nanos server) = Adapter.language server
  stop (server : σ) (a : Ambient) :
    Adapter.language (Adapter.stop server a).1 = Adapter.language server

/-- Servers that a stop puts out of service until someone starts them. -/
structure StaysStopped (σ : Type) [Adapter σ] : Prop where
  isReady_of_aged {server last : σ} {a : Ambient} (h : Aged (Adapter.stop server a).1 last) :
    Adapter.isReady last = false

variable {server after last : σ}

namespace Aged

theorem trans (h : Aged server after) (h' : Aged after last) : Aged server last := by
  induction h' with
  | refl => exact h
  | pass h' nanos ih => exact ih.pass nanos

theorem attended (h : Aged server after) : Attended server after := by
  induction h with
  | refl => exact .refl
  | pass h nanos ih => exact ih.pass nanos

end Aged

namespace Stopped

theorem of_aged (h : Aged server after) (h' : Stopped after last) : Stopped server last := by
  obtain ⟨met, a, hbefore, hlast⟩ := h'
  exact ⟨met, a, h.trans hbefore, hlast⟩

theorem aged (h : Stopped server after) (h' : Aged after last) : Stopped server last := by
  obtain ⟨met, a, hbefore, hafter⟩ := h
  exact ⟨met, a, hbefore, hafter.trans h'⟩

theorem evolves (h : Stopped server last) : Evolves server last := by
  obtain ⟨met, a, hbefore, hlast⟩ := h
  exact ((Evolves.refl.attended hbefore.attended).stop a).attended hlast.attended

theorem isReady_eq_false (hstays : StaysStopped σ) (h : Stopped server last) :
    Adapter.isReady last = false := by
  obtain ⟨met, a, _, hlast⟩ := h
  exact hstays.isReady_of_aged hlast

end Stopped

theorem Attended.language_eq (hkeeps : KeepsLanguage σ) (h : Attended server after) :
    Adapter.language after = Adapter.language server := by
  induction h with
  | refl => rfl
  | send h body ih => exact (hkeeps.send body _).trans ih
  | read h hclosed ih => exact (hkeeps.setInbox _ _).trans ih
  | pass h nanos ih => exact (hkeeps.pass nanos _).trans ih

namespace Evolves

theorem trans (h : Evolves server after) (h' : Evolves after last) : Evolves server last := by
  induction h' with
  | refl => exact h
  | start h' root a ih => exact ih.start root a
  | attended h' hattended ih => exact ih.attended hattended
  | stop h' a ih => exact ih.stop a

theorem language_eq (hkeeps : KeepsLanguage σ) (h : Evolves server after) :
    Adapter.language after = Adapter.language server := by
  induction h with
  | refl => rfl
  | start h root a ih => exact (hkeeps.start root _ a).trans ih
  | attended h hattended ih => exact (hattended.language_eq hkeeps).trans ih
  | stop h a ih => exact (hkeeps.stop _ a).trans ih

end Evolves

end

end LanguageClient.Server

namespace LanguageClient.Workspace

open Server Wire

/-- Something that a client has one of its servers do. -/
inductive Contact where
  | start (root : Path)
  | send (body : Bytes)
  | receive (wait : Duration)

/-- Something that is asked of a client, or time that passes in between. -/
inductive Errand (σ : Type) where
  | register (server : σ)
  | select (p : Path)
  | start (root : Path)
  | send (body : Bytes)
  | sendTo (language : Language) (body : Bytes)
  | receive (wait : Duration)
  | inbox (language : Language)
  | languageId (p : Path)
  | shutdown
  | rest (nanos : Nat)

/-- Whether an errand is for one server at most, and brings no new one. -/
def Errand.isLocal {σ : Type} : Errand σ → Bool
  | register _ | shutdown | rest _ => false
  | select _ | start _ | send _ | sendTo _ _ | receive _ | inbox _ | languageId _ => true

theorem Registry.select_of_some {σ : Type} {r : Registry σ} {p : Path} {language : Language}
    (h : r.languageFor? p = some language) :
    r.select p = (true, { r with active := some language }) := by
  rw [select, h]

theorem Registry.select_of_none {σ : Type} {r : Registry σ} {p : Path}
    (h : r.languageFor? p = none) : r.select p = (false, r) := by
  rw [select, h]

theorem Registry.select_fst_iff {σ : Type} {r : Registry σ} {p : Path} :
    (r.select p).1 = true ↔
      ∃ language server, Language.ofPath? p = some language ∧ r.servers language = some server := by
  cases hlanguage : r.languageFor? p with
  | some language =>
    obtain ⟨hpath, server, hserver⟩ := servers_of_languageFor? hlanguage
    rw [select_of_some hlanguage]
    exact iff_of_true rfl ⟨language, server, hpath, hserver⟩
  | none =>
    rw [select_of_none hlanguage]
    refine iff_of_false Bool.false_ne_true ?_
    rintro ⟨language, server, hpath, hserver⟩
    rw [languageFor?, hpath, Option.filter_some, hserver] at hlanguage
    cases hlanguage

theorem Registry.select_snd_of_true {σ : Type} {r : Registry σ} {p : Path}
    (h : (r.select p).1 = true) : (r.select p).2 = { r with active := Language.ofPath? p } := by
  cases hlanguage : r.languageFor? p with
  | some language => rw [select_of_some hlanguage, (servers_of_languageFor? hlanguage).1]
  | none =>
    rw [select_of_none hlanguage] at h
    cases h

theorem Registry.select_snd_of_false {σ : Type} {r : Registry σ} {p : Path}
    (h : (r.select p).1 = false) : (r.select p).2 = r := by
  cases hlanguage : r.languageFor? p with
  | some language =>
    rw [select_of_some hlanguage] at h
    cases h
  | none => rw [select_of_none hlanguage]

theorem Registry.activeServer?_eq {σ : Type} (r : Registry σ) :
    r.activeServer? = r.active.bind fun language => (r.servers language).map (language, ·) := by
  rw [activeServer?]
  cases r.active with
  | none => rfl
  | some language =>
    rw [Option.bind_some, Option.map_eq_bind]
    rfl

theorem Registry.activeServer?_eq_some_iff {σ : Type} {r : Registry σ} {language : Language}
    {server : σ} :
    r.activeServer? = some (language, server) ↔
      r.active = some language ∧ r.servers language = some server := by
  rw [activeServer?_eq, Option.bind_eq_some_iff]
  constructor
  · rintro ⟨_, hactive, hserver⟩
    obtain ⟨_, hserver, ⟨⟩⟩ := Option.map_eq_some_iff.1 hserver
    exact ⟨hactive, hserver⟩
  · rintro ⟨hactive, hserver⟩
    exact ⟨language, hactive, Option.map_eq_some_iff.2 ⟨server, hserver, rfl⟩⟩

section

variable {σ : Type} [Adapter σ]

namespace Contact

/-- The server that is left behind by a contact, and the time after it. -/
def result : Contact → σ → Ambient → σ × Ambient
  | start root, server, a => (Adapter.start root server a).2
  | send body, server, a => ((Adapter.send body server).2, a)
  | receive wait, server, a => (Adapter.receive wait server a).2

/-- What the contact with another server means to a server: that takes time, but for a body. -/
def elapse : Contact → Nat → σ → σ
  | start _, nanos, other | receive _, nanos, other => Mailbox.pass nanos other
  | send _, _, other => other

theorem aged_elapse (contact : Contact) (nanos : Nat) (other : σ) :
    Aged other (contact.elapse nanos other) := by
  cases contact with
  | start root => exact Aged.refl.pass nanos
  | send body => exact .refl
  | receive wait => exact Aged.refl.pass nanos

theorem evolves_result (contact : Contact) (server : σ) (a : Ambient) :
    Evolves server (contact.result server a).1 := by
  cases contact with
  | start root => exact Evolves.refl.start root a
  | send body => exact Evolves.refl.attended (Attended.refl.send body)
  | receive wait =>
    obtain ⟨result, nanos, after, hreceive, hlasting⟩ := Adapter.exists_receive wait server a
    rw [Contact.result, hreceive]
    exact Evolves.refl.attended (hlasting (Attended.lasting server) .refl)

end Contact

namespace Registry

def perform (r : Registry σ) (a : Ambient) : Errand σ → Registry σ × Ambient
  | .register server =>
    match r.register server with
    | .ok r => (r, a)
    | .error _ => (r, a)
  | .select p => ((r.select p).2, a)
  | .start root => (r.start root a).2
  | .send body => ((r.send body).2, a)
  | .sendTo language body => ((r.sendTo language body).2, a)
  | .receive wait => (r.receive wait a).2
  | .inbox _ | .languageId _ => (r, a)
  | .shutdown => r.shutdown a
  | .rest nanos => (r.pass nanos, a.pass nanos)

def run (r : Registry σ) (a : Ambient) : List (Errand σ) → Registry σ × Ambient
  | [] => (r, a)
  | errand :: rest =>
    let (r, a) := r.perform a errand
    r.run a rest

/-- The one server that an errand needs, and what that has to do. -/
def contact? (r : Registry σ) : Errand σ → Option (Language × Contact)
  | .start root =>
    if root.isEmpty then none
    else (r.activeServer?.filter fun (_, server) => !Adapter.isReady server).map
      fun (language, _) => (language, .start root)
  | .send body => r.activeServer?.map fun (language, _) => (language, .send body)
  | .sendTo language body => (r.servers language).map fun _ => (language, .send body)
  | .receive wait => r.activeServer?.map fun (language, _) => (language, .receive wait)
  | .register _ | .select _ | .inbox _ | .languageId _ | .shutdown | .rest _ => none

/-- What an errand does: one server is turned to, or none, and the others are left alone. -/
inductive Touches (r : Registry σ) (a : Ambient) :
    Option (Language × Contact) → Registry σ → Ambient → Prop where
  | nobody {r' : Registry σ} (hservers : r'.servers = r.servers) : Touches r a none r' a
  | one {r' : Registry σ} {language : Language} {contact : Contact} {server : σ}
      (hserver : r.servers language = some server)
      (hplace : r'.servers language = some (contact.result server a).1)
      (hothers : ∀ other ≠ language, r'.servers other =
        (r.servers other).map (contact.elapse ((contact.result server a).2.since a))) :
      Touches r a (some (language, contact)) r' (contact.result server a).2

variable {r r' : Registry σ} {a a' : Ambient} {language : Language} {server : σ}

namespace Touches

theorem put (hserver : r.servers language = some server) (body : Bytes) :
    Touches r a (some (language, .send body)) (r.put language (Adapter.send body server).2) a :=
  .one hserver (if_pos rfl) fun _ hother =>
    (if_neg hother).trans Option.map_id'.symm

end Touches

theorem touches_sendTo (r : Registry σ) (a : Ambient) (language : Language) (body : Bytes) :
    r.Touches a ((r.servers language).map fun _ => (language, .send body))
      (r.sendTo language body).2 a := by
  rw [sendTo]
  cases hserver : r.servers language with
  | none => exact .nobody rfl
  | some server =>
    have htouches := Touches.put (a := a) hserver body
    dsimp only
    rcases hsend : Adapter.send body server with ⟨result, after⟩
    rw [hsend] at htouches
    cases result with
    | ok => exact htouches
    | error fault => exact htouches

theorem touches_putAfter {contact : Contact} {after : σ} (root : Option Path)
    (hserver : r.servers language = some server)
    (hresult : contact.result server a = (after, a'))
    (helapse : contact.elapse = (Mailbox.pass : Nat → σ → σ)) :
    r.Touches a (some (language, contact))
      ({ r with root }.putAfter (a'.since a) language after) a' := by
  have htouches : r.Touches a (some (language, contact))
      ({ r with root }.putAfter ((contact.result server a).2.since a) language
        (contact.result server a).1) (contact.result server a).2 := by
    refine .one hserver (if_pos rfl) fun other hother => (if_neg hother).trans ?_
    rw [helapse]
  rwa [hresult] at htouches

theorem touches_start (r : Registry σ) (a : Ambient) (root : Path) :
    r.Touches a (r.contact? (.start root)) (r.start root a).2.1 (r.start root a).2.2 := by
  rw [start, contact?]
  by_cases hempty : root.isEmpty
  · rw [if_pos hempty, if_pos hempty]
    exact .nobody rfl
  · rw [if_neg hempty, if_neg hempty]
    have hactive : { r with root := some root }.activeServer? = r.activeServer? := rfl
    dsimp only
    rw [hactive]
    cases hactive : r.activeServer? with
    | none => exact .nobody rfl
    | some found =>
      obtain ⟨language, server⟩ := found
      obtain ⟨_, hserver⟩ := activeServer?_eq_some_iff.1 hactive
      dsimp only
      cases hready : Adapter.isReady server with
      | true =>
        rw [if_pos rfl, Option.filter_some, hready]
        exact .nobody rfl
      | false =>
        rw [if_neg Bool.false_ne_true, Option.filter_some, hready]
        rcases hstart : Adapter.start root server a with ⟨result, started, after⟩
        exact touches_putAfter (some root) hserver (congrArg Prod.snd hstart) rfl

theorem touches_receive (r : Registry σ) (a : Ambient) (wait : Duration) :
    r.Touches a (r.contact? (.receive wait)) (r.receive wait a).2.1 (r.receive wait a).2.2 := by
  rw [receive, contact?]
  cases hactive : r.activeServer? with
  | none => exact .nobody rfl
  | some found =>
    obtain ⟨language, server⟩ := found
    obtain ⟨_, hserver⟩ := activeServer?_eq_some_iff.1 hactive
    rcases hreceive : Adapter.receive wait server a with ⟨result, last, after⟩
    dsimp only
    rw [hreceive]
    exact touches_putAfter r.root hserver (congrArg Prod.snd hreceive) rfl

theorem touches_send (r : Registry σ) (a : Ambient) (body : Bytes) :
    r.Touches a (r.contact? (.send body)) (r.send body).2 a := by
  rw [send, contact?, activeServer?_eq]
  cases r.active with
  | none => exact .nobody rfl
  | some language =>
    rw [Option.bind_some, Option.map_map]
    exact r.touches_sendTo a language body

theorem register_of_none (h : r.servers (Adapter.language server) = none) :
    r.register server = .ok (r.put (Adapter.language server) server) := by
  rw [register, h]

theorem register_of_some {old : σ} (h : r.servers (Adapter.language server) = some old) :
    r.register server = .error (.duplicate (Adapter.language server)) := by
  rw [register, h]

theorem touches_perform (r : Registry σ) (a : Ambient) {errand : Errand σ}
    (h : errand.isLocal = true) :
    r.Touches a (r.contact? errand) (r.perform a errand).1 (r.perform a errand).2 := by
  cases errand with
  | select p =>
    rw [perform, select]
    cases r.languageFor? p with
    | none => exact .nobody rfl
    | some language => exact .nobody rfl
  | start root => exact r.touches_start a root
  | send body => exact r.touches_send a body
  | sendTo language body => exact r.touches_sendTo a language body
  | receive wait => exact r.touches_receive a wait
  | inbox language => exact .nobody rfl
  | languageId p => exact .nobody rfl
  | register server => cases h
  | shutdown => cases h
  | rest nanos => cases h

namespace Touches

variable {contact : Option (Language × Contact)}

theorem evolves (h : r.Touches a contact r' a') (hserver : r.servers language = some server) :
    ∃ after, r'.servers language = some after ∧ Evolves server after := by
  cases h with
  | nobody hservers => exact ⟨server, hservers ▸ hserver, .refl⟩
  | @one _ turned contact met hmet hplace hothers =>
    by_cases hturned : language = turned
    · subst hturned
      rw [hmet] at hserver
      cases hserver
      exact ⟨_, hplace, contact.evolves_result _ a⟩
    · refine ⟨_, (hothers language hturned).trans (congrArg _ hserver), ?_⟩
      exact Evolves.refl.attended (contact.aged_elapse _ _).attended

theorem servers_eq_none (h : r.Touches a contact r' a') (hnone : r.servers language = none) :
    r'.servers language = none := by
  cases h with
  | nobody hservers => exact hservers ▸ hnone
  | one hmet hplace hothers =>
    refine (hothers language ?_).trans (congrArg _ hnone)
    rintro rfl
    rw [hnone] at hmet
    cases hmet

end Touches

def stopOne : Registry σ × Ambient → Language → Registry σ × Ambient
  | (r, a), language =>
    match r.servers language with
    | some server =>
      let (server, after) := Adapter.stop server a
      (r.putAfter (after.since a) language server, after)
    | none => (r, a)

theorem shutdown_eq (r : Registry σ) (a : Ambient) :
    r.shutdown a = Language.all.foldl stopOne (r, a) := rfl

/-- The servers of some languages were stopped, and the others left alone. -/
structure Stops (languages : List Language) (r r' : Registry σ) : Prop where
  active : r'.active = r.active
  root : r'.root = r.root
  stopped : ∀ language ∈ languages,
    Option.Rel Stopped (r.servers language) (r'.servers language)
  others : ∀ language ∉ languages, Option.Rel Aged (r.servers language) (r'.servers language)

theorem stops_stopOne (r : Registry σ) (a : Ambient) (language : Language) :
    r.Stops [language] (stopOne (r, a) language).1 := by
  rw [stopOne]
  cases hserver : r.servers language with
  | none =>
    refine ⟨rfl, rfl, fun asked hasked => ?_, fun asked _ => ?_⟩
    · rw [List.mem_singleton.1 hasked, hserver]
      exact .none
    · exact rel_refl (fun _ => .refl) _
  | some server =>
    refine ⟨rfl, rfl, fun asked hasked => ?_, fun asked hasked => ?_⟩
    · rw [List.mem_singleton.1 hasked, hserver]
      dsimp only [putAfter]
      rw [if_pos rfl]
      exact .some ⟨server, a, .refl, .refl⟩
    · dsimp only [putAfter]
      rw [if_neg (List.mem_singleton.not.1 hasked)]
      cases r.servers asked with
      | none => exact .none
      | some other => exact .some (Aged.refl.pass _)

theorem stops_foldl (r : Registry σ) (a : Ambient) {languages : List Language}
    (hnodup : languages.Nodup) : r.Stops languages (languages.foldl stopOne (r, a)).1 := by
  induction languages generalizing r a with
  | nil =>
    refine ⟨rfl, rfl, fun _ hmem => absurd hmem List.not_mem_nil, fun asked _ => ?_⟩
    exact rel_refl (fun _ => .refl) _
  | cons language rest ih =>
    obtain ⟨hnew, hrest⟩ := List.nodup_cons.1 hnodup
    have hfirst := r.stops_stopOne a language
    have hlater := ih (stopOne (r, a) language).1 (stopOne (r, a) language).2 hrest
    rw [List.foldl_cons]
    constructor
    case active => exact hlater.active.trans hfirst.active
    case root => exact hlater.root.trans hfirst.root
    case stopped =>
      intro asked hasked
      rcases List.mem_cons.1 hasked with rfl | hmem
      · -- The server was stopped first, and no later step turns to it again.
        exact rel_trans (hfirst.stopped asked (.head _)) (hlater.others asked hnew) Stopped.aged
      · have hother : asked ∉ [language] := by
          rw [List.mem_singleton]
          rintro rfl
          exact hnew hmem
        exact rel_trans (hfirst.others asked hother) (hlater.stopped asked hmem) Stopped.of_aged
    case others =>
      intro asked hasked
      obtain ⟨hother, hmem⟩ := List.ne_and_not_mem_of_not_mem_cons hasked
      exact rel_trans (hfirst.others asked (List.mem_singleton.not.2 hother))
        (hlater.others asked hmem) Aged.trans

/-- A shutdown stops every server once. -/
theorem stops_shutdown (r : Registry σ) (a : Ambient) : r.Stops Language.all (r.shutdown a).1 := by
  rw [shutdown_eq]
  exact r.stops_foldl a (by decide)

theorem exists_stopped (h : r.servers language = some server) (a : Ambient) :
    ∃ last, (r.shutdown a).1.servers language = some last ∧ Stopped server last := by
  have hstopped := (r.stops_shutdown a).stopped language language.mem_all
  rw [h] at hstopped
  generalize (r.shutdown a).1.servers language = last at hstopped ⊢
  cases hstopped with
  | some hstopped => exact ⟨_, rfl, hstopped⟩

theorem shutdown_servers_eq_none (h : r.servers language = none) (a : Ambient) :
    (r.shutdown a).1.servers language = none := by
  have hstopped := (r.stops_shutdown a).stopped language language.mem_all
  rw [h] at hstopped
  generalize (r.shutdown a).1.servers language = last at hstopped ⊢
  cases hstopped with
  | none => rfl

theorem perform_register_of_none (h : r.servers (Adapter.language server) = none) (a : Ambient) :
    r.perform a (.register server) = (r.put (Adapter.language server) server, a) := by
  rw [perform, register_of_none h]

theorem perform_register_of_some {old : σ} (h : r.servers (Adapter.language server) = some old)
    (a : Ambient) : r.perform a (.register server) = (r, a) := by
  rw [perform, register_of_some h]

theorem evolves_perform (h : r.servers language = some server) (a : Ambient) (errand : Errand σ) :
    ∃ after, (r.perform a errand).1.servers language = some after ∧ Evolves server after := by
  cases errand with
  | register new =>
    refine ⟨server, ?_, .refl⟩
    cases hold : r.servers (Adapter.language new) with
    | some old =>
      rw [perform_register_of_some hold]
      exact h
    | none =>
      have hother : language ≠ Adapter.language new := by
        rintro rfl
        rw [hold] at h
        cases h
      rw [perform_register_of_none hold]
      exact (if_neg hother).trans h
  | shutdown =>
    obtain ⟨last, hlast, hstopped⟩ := exists_stopped h a
    exact ⟨last, hlast, hstopped.evolves⟩
  | rest nanos =>
    refine ⟨_, congrArg (Option.map (Mailbox.pass nanos)) h, ?_⟩
    exact Evolves.refl.attended (Server.Attended.refl.pass nanos)
  | _ => exact (r.touches_perform a rfl).evolves h

theorem newcomer_perform (h : r.servers language = none) (a : Ambient) (errand : Errand σ) :
    (r.perform a errand).1.servers language = none ∨
      ∃ new, errand = .register new ∧ Adapter.language new = language ∧
        (r.perform a errand).1.servers language = some new := by
  cases errand with
  | register new =>
    by_cases hlanguage : Adapter.language new = language
    · subst hlanguage
      rw [perform_register_of_none h]
      exact .inr ⟨new, rfl, rfl, if_pos rfl⟩
    · left
      cases hold : r.servers (Adapter.language new) with
      | some old =>
        rw [perform_register_of_some hold]
        exact h
      | none =>
        rw [perform_register_of_none hold]
        exact (if_neg (Ne.symm hlanguage)).trans h
  | shutdown => exact .inl (shutdown_servers_eq_none h a)
  | rest nanos => exact .inl (congrArg (Option.map (Mailbox.pass nanos)) h)
  | _ => exact .inl ((r.touches_perform a rfl).servers_eq_none h)

theorem active_sendTo (r : Registry σ) (language : Language) (body : Bytes) :
    (r.sendTo language body).2.active = r.active := by
  rw [sendTo]
  cases r.servers language with
  | none => rfl
  | some server =>
    dsimp only
    split
    · rfl
    · rfl

theorem active_start (r : Registry σ) (a : Ambient) (root : Path) :
    (r.start root a).2.1.active = r.active := by
  rw [start]
  split
  · rfl
  · dsimp only
    split
    · rfl
    · split
      · rfl
      · rfl

theorem active_perform (r : Registry σ) (a : Ambient) {errand : Errand σ}
    (h : ∀ p, errand ≠ .select p) : (r.perform a errand).1.active = r.active := by
  cases errand with
  | register new =>
    cases hold : r.servers (Adapter.language new) with
    | some old => rw [perform_register_of_some hold]
    | none =>
      rw [perform_register_of_none hold]
      rfl
  | select p => exact absurd rfl (h p)
  | start root => exact r.active_start a root
  | send body =>
    rw [perform, send]
    cases hactive : r.active with
    | none => exact hactive
    | some language => exact (r.active_sendTo language body).trans hactive
  | sendTo language body => exact r.active_sendTo language body
  | receive wait =>
    rw [perform, receive]
    cases r.activeServer? with
    | none => rfl
    | some found => rfl
  | inbox language => rfl
  | languageId p => rfl
  | shutdown => exact (r.stops_shutdown a).active
  | rest nanos => rfl

/-- A client that has no server yet, or one for each language. -/
inductive Fresh : Registry σ → Prop where
  | empty : Fresh {}
  | full {server : Language → σ} (h : ∀ language, Adapter.language (server language) = language) :
      Fresh { servers := fun language => some (server language) }

/-- Servers stand under the languages that they serve, and the active one is among them. -/
structure Sound (r : Registry σ) : Prop where
  placed {language : Language} {server : σ} (h : r.servers language = some server) :
    Adapter.language server = language
  active {language : Language} (h : r.active = some language) :
    ∃ server, r.servers language = some server

theorem Fresh.sound (h : r.Fresh) : r.Sound := by
  cases h with
  | empty => exact ⟨nofun, nofun⟩
  | full hlanguage =>
    refine ⟨fun {language _} h => ?_, nofun⟩
    cases h
    exact hlanguage language

namespace Sound

theorem perform (hkeeps : KeepsLanguage σ) (h : r.Sound) (a : Ambient) (errand : Errand σ) :
    (r.perform a errand).1.Sound := by
  constructor
  case placed =>
    intro language server hserver
    cases hbefore : r.servers language with
    | some before =>
      obtain ⟨after, hafter, hevolves⟩ := evolves_perform hbefore a errand
      rw [hserver] at hafter
      cases hafter
      exact (hevolves.language_eq hkeeps).trans (h.placed hbefore)
    | none =>
      rcases newcomer_perform hbefore a errand with hnone | ⟨new, _, hlanguage, hnew⟩
      · rw [hserver] at hnone
        cases hnone
      · rw [hserver] at hnew
        cases hnew
        exact hlanguage
  case active =>
    intro language hactive
    by_cases hselect : ∃ p, errand = .select p
    · obtain ⟨p, rfl⟩ := hselect
      rw [Registry.perform] at hactive ⊢
      cases hlanguage : r.languageFor? p with
      | none =>
        rw [select_of_none hlanguage] at hactive ⊢
        exact h.active hactive
      | some found =>
        rw [select_of_some hlanguage] at hactive ⊢
        cases hactive
        exact (servers_of_languageFor? hlanguage).2
    · rw [r.active_perform a fun p hp => hselect ⟨p, hp⟩] at hactive
      obtain ⟨server, hserver⟩ := h.active hactive
      obtain ⟨after, hafter, _⟩ := evolves_perform hserver a errand
      exact ⟨after, hafter⟩

theorem run (hkeeps : KeepsLanguage σ) (h : r.Sound) (a : Ambient) (errands : List (Errand σ)) :
    (r.run a errands).1.Sound := by
  induction errands generalizing r a with
  | nil => exact h
  | cons errand rest ih => exact ih (h.perform hkeeps a errand) _

end Sound

theorem evolves_run (h : r.servers language = some server) (a : Ambient)
    (errands : List (Errand σ)) :
    ∃ after, (r.run a errands).1.servers language = some after ∧ Evolves server after := by
  induction errands generalizing r a server with
  | nil => exact ⟨server, h, .refl⟩
  | cons errand rest ih =>
    obtain ⟨after, hafter, hevolves⟩ := evolves_perform h a errand
    obtain ⟨last, hlast, hlater⟩ := ih hafter _
    exact ⟨last, hlast, hevolves.trans hlater⟩

theorem contact?_addressee {errand : Errand σ} {contact : Contact}
    (h : r.contact? errand = some (language, contact)) :
    r.active = some language ∨ ∃ body, errand = .sendTo language body := by
  cases errand with
  | start root =>
    rw [contact?] at h
    split at h
    · cases h
    · obtain ⟨⟨_, server⟩, hfound, ⟨⟩⟩ := Option.map_eq_some_iff.1 h
      exact .inl (activeServer?_eq_some_iff.1 (Option.filter_eq_some_iff.1 hfound).1).1
  | send body =>
    obtain ⟨⟨_, server⟩, hfound, ⟨⟩⟩ := Option.map_eq_some_iff.1 h
    exact .inl (activeServer?_eq_some_iff.1 hfound).1
  | receive wait =>
    obtain ⟨⟨_, server⟩, hfound, ⟨⟩⟩ := Option.map_eq_some_iff.1 h
    exact .inl (activeServer?_eq_some_iff.1 hfound).1
  | sendTo named body =>
    obtain ⟨server, hfound, ⟨⟩⟩ := Option.map_eq_some_iff.1 h
    exact .inr ⟨body, rfl⟩
  | register | select | inbox | languageId | shutdown | rest => cases h

theorem hasReady_shutdown (hstays : StaysStopped σ) (r : Registry σ) (a : Ambient) :
    (r.shutdown a).1.hasReady = false := by
  rw [hasReady, List.any_eq_false]
  intro language _
  rw [isReady]
  cases hserver : r.servers language with
  | none =>
    rw [shutdown_servers_eq_none hserver a]
    exact Bool.false_ne_true
  | some server =>
    obtain ⟨last, hlast, hstopped⟩ := exists_stopped hserver a
    rw [hlast]
    exact ne_true_of_eq_false (hstopped.isReady_eq_false hstays)

/-- What holds of the servers of a client at any time, whatever is asked of it next. -/
structure Kept (r : Registry σ) (a : Ambient) : Prop where
  placed : ∀ {language server}, r.servers language = some server →
    Adapter.language server = language
  active : ∀ {language}, r.active = some language → ∃ server, r.servers language = some server
  lasting : ∀ errands {language server}, r.servers language = some server →
    ∃ after, (r.run a errands).1.servers language = some after ∧ Evolves server after
  registered : ∀ server, r.servers (Adapter.language server) = none →
    r.register server = .ok (r.put (Adapter.language server) server) ∧
      r.perform a (.register server) = (r.put (Adapter.language server) server, a)
  duplicate : ∀ server old, r.servers (Adapter.language server) = some old →
    r.register server = .error (.duplicate (Adapter.language server)) ∧
      r.perform a (.register server) = (r, a)
  newcomer : ∀ errand {language}, r.servers language = none →
    (r.perform a errand).1.servers language = none ∨
      ∃ new, errand = .register new ∧ Adapter.language new = language ∧
        (r.perform a errand).1.servers language = some new
  selects : ∀ p, (r.select p).1 = true ↔
    ∃ language server, Language.ofPath? p = some language ∧ r.servers language = some server
  selected : ∀ p, (r.select p).1 = true → r.perform a (.select p) =
    ({ r with active := Language.ofPath? p }, a)
  unselected : ∀ p, (r.select p).1 = false → r.perform a (.select p) = (r, a)
  active_eq : ∀ errand, (∀ p, errand ≠ .select p) →
    (r.perform a errand).1.active = r.active
  /-- An errand turns to the active server or to the one that it names. -/
  addressee : ∀ errand {language contact}, r.contact? errand = some (language, contact) →
    r.active = some language ∨ ∃ body, errand = .sendTo language body
  touches : ∀ errand, errand.isLocal = true →
    r.Touches a (r.contact? errand) (r.perform a errand).1 (r.perform a errand).2
  /-- A shutdown stops each server once and changes nothing else. -/
  stops : r.Stops Language.all (r.perform a .shutdown).1
  idle : StaysStopped σ → (r.perform a .shutdown).1.hasReady = false

theorem Sound.kept (h : r.Sound) (a : Ambient) : r.Kept a where
  placed := h.placed
  active := h.active
  lasting errands _ _ hserver := evolves_run hserver a errands
  registered _ hnone := ⟨register_of_none hnone, perform_register_of_none hnone a⟩
  duplicate _ _ hold := ⟨register_of_some hold, perform_register_of_some hold a⟩
  newcomer errand _ hnone := newcomer_perform hnone a errand
  selects _ := select_fst_iff
  selected _ hselected := congrArg (·, a) (select_snd_of_true hselected)
  unselected _ hunselected := congrArg (·, a) (select_snd_of_false hunselected)
  active_eq _ hselect := r.active_perform a hselect
  addressee _ _ _ hcontact := contact?_addressee hcontact
  touches _ hlocal := r.touches_perform a hlocal
  stops := r.stops_shutdown a
  idle hstays := hasReady_shutdown hstays r a

/-- Whatever was asked of a client, each server is still where it belongs, and what is asked next
concerns the one server that it is for. -/
theorem kept_run (hkeeps : KeepsLanguage σ) (hfresh : r.Fresh) (a : Ambient)
    (errands : List (Errand σ)) : (r.run a errands).1.Kept (r.run a errands).2 :=
  (hfresh.sound.run hkeeps a errands).kept _

end Registry

end

theorem keepsLanguage_supervised : KeepsLanguage Supervised where
  start root server a := by
    have hstarts := server.starts_start root a
    change (server.start root a).2.1.language = server.language
    generalize (server.start root a).1 = result, (server.start root a).2.1 = started,
      (server.start root a).2.2 = after at hstarts ⊢
    cases hstarts with
    | ready hrunning => rfl
    | refused hrunning hlaunch => rfl
    | connected hrunning hlaunch hhandshake => rfl
    | rejected hrunning hlaunch hhandshake => rfl
  send body server := by
    change (server.send body).2.language = server.language
    cases hrunning : server.running? with
    | none => rw [Supervised.send_of_not_running hrunning]
    | some child => rw [Supervised.send_of_running hrunning]
  setInbox inbox server := by
    rcases server with ⟨language, host, launch, budget, capacity, grace, phase⟩
    cases phase <;> rfl
  pass nanos server := by
    rcases server with ⟨language, host, launch, budget, capacity, grace, phase⟩
    cases phase <;> rfl
  stop server a := by
    change (server.stop a).1.language = server.language
    rw [server.stop_fst]

theorem staysStopped_supervised : StaysStopped Supervised where
  isReady_of_aged {server last a} h := by
    have hphase : last.phase = .uninitialized := by
      induction h with
      | refl => exact congrArg Supervised.phase (server.stop_fst a)
      | @pass after h nanos ih =>
        rcases after with ⟨language, host, launch, budget, capacity, grace, phase⟩
        cases ih
        rfl
    change last.running?.isSome = false
    rw [Supervised.running?, hphase]
    rfl

theorem fresh_supervised (host : Host) (config : Config) : (supervised host config).Fresh :=
  .full fun _ => rfl

theorem language_play (s : Scripted) (method : String) (id : Int) :
    (s.play method id).language = s.language := by
  rw [Scripted.play]
  split
  · rfl
  · rfl

theorem keepsLanguage_scripted : KeepsLanguage Scripted where
  start root server a := by
    change (if 0 < server.failingStarts then _ else _ : Except _ _ × Scripted × _).2.1.language = _
    split
    · rfl
    · rfl
  send body server := by
    change (Scripted.send body server).2.language = server.language
    rw [Scripted.send]
    split
    · rfl
    · dsimp only
      split
      · rfl
      · split
        · exact language_play _ _ _
        · rfl
  setInbox _ _ := rfl
  pass _ _ := rfl
  stop _ _ := rfl

theorem staysStopped_scripted : StaysStopped Scripted where
  isReady_of_aged {server last a} h := by
    induction h with
    | refl => rfl
    | pass h nanos ih => exact ih

/-- Servers are registered, one of them twice, and the client turns from one to the other. -/
def introductions : List (Errand Scripted) :=
  [.register { language := .go, inbox := .ofCapacity 8 },
    .register { language := .python, inbox := .ofCapacity 8, ready := true },
    .register { language := .go, inbox := .ofCapacity 4 }, .select ⟨"/w/a.go"⟩, .start ⟨"/w"⟩,
    .select ⟨"/w/b.zig"⟩, .select ⟨"/w/b.py"⟩, .sendTo .go []]

def introduced : Registry Scripted × Ambient := ({} : Registry Scripted).run {} introductions

theorem kept_introduced :
    KeepsLanguage Scripted ∧ ({} : Registry Scripted).Fresh ∧ introduced.1.Kept introduced.2 ∧
      introduced.1.active = some .python ∧
      Language.all.map introduced.1.isReady = [false, true, false, true, false] ∧
      (introduced.1.perform introduced.2 .shutdown).1.hasReady = false := by
  have hfresh : ({} : Registry Scripted).Fresh := .empty
  have hkept := Registry.kept_run keepsLanguage_scripted hfresh {} introductions
  exact ⟨keepsLanguage_scripted, hfresh, hkept, by decide +kernel, by decide +kernel,
    hkept.idle staysStopped_scripted⟩

end LanguageClient.Workspace
