import LanguageClient.Proofs.Members
import LanguageClient.Proofs.Noninterference

namespace LanguageClient.Server

open Wire

theorem isReady_emptied {σ : Type} [Adapter σ] [LawfulAdapter σ] (server : σ) :
    Adapter.isReady (Mailbox.emptied server) = Adapter.isReady server :=
  LawfulAdapter.isReady_setInbox rfl

section

variable {σ : Type} [Adapter σ]

/-- What becomes of a server while it is handed bodies, read from and left alone, but neither
started nor stopped. -/
inductive Attended (server : σ) : σ → Prop where
  | refl : Attended server server
  | send {after : σ} (h : Attended server after) (body : Bytes) :
      Attended server (Adapter.send body after).2
  | read {after : σ} {inbox : Inbox} (h : Attended server after)
      (hclosed : inbox.closed = (Mailbox.inbox after).closed) :
      Attended server (Mailbox.setInbox inbox after)
  | pass {after : σ} (h : Attended server after) (nanos : Nat) :
      Attended server (Mailbox.pass nanos after)

/-- Servers that neither bodies nor time put out of service or back into it. -/
structure SteadyAdapter (σ : Type) [Adapter σ] : Prop where
  isReady_send (body : Bytes) (server : σ) :
    Adapter.isReady (Adapter.send body server).2 = Adapter.isReady server
  isReady_pass (nanos : Nat) (server : σ) :
    Adapter.isReady (Mailbox.pass nanos server) = Adapter.isReady server

theorem steadyAdapter_scripted : SteadyAdapter Scripted where
  isReady_send body server := by
    change (server.send body).2.ready = server.ready
    rw [Scripted.send]
    split
    case isTrue => rfl
    case isFalse =>
      dsimp only
      split
      · rfl
      · split
        · rw [Scripted.play]
          split
          · rfl
          · rfl
        · rfl
  isReady_pass _ _ := rfl

namespace Attended

variable {server after last : σ}

theorem trans (h : Attended server after) (h' : Attended after last) : Attended server last := by
  induction h' with
  | refl => exact h
  | send h' body ih => exact ih.send body
  | read h' hclosed ih => exact ih.read hclosed
  | pass h' nanos ih => exact ih.pass nanos

theorem emptied (h : Attended server after) : Attended server (Mailbox.emptied after) :=
  h.read rfl

theorem isReady_eq [LawfulAdapter σ] (hsteady : SteadyAdapter σ) (h : Attended server after) :
    Adapter.isReady after = Adapter.isReady server := by
  induction h with
  | refl => rfl
  | send h body ih => exact (hsteady.isReady_send body _).trans ih
  | read h hclosed ih => exact (LawfulAdapter.isReady_setInbox hclosed).trans ih
  | pass h nanos ih => exact (hsteady.isReady_pass nanos _).trans ih

theorem lasting (server : σ) : Mailbox.Lasting (Attended server) where
  setInbox h hclosed := h.read hclosed
  pass h nanos := h.pass nanos

/-- Whoever waits for an answer of a server only attends to it. -/
theorem await {α : Type} {answer? : Bytes → Option α} {budget : PollBudget} {nanos : Nat}
    {awaited : Awaited α} (h : Mailbox.await answer? budget server = (awaited, nanos, after)) :
    Attended server after := by
  have hattended := (lasting server).await answer? budget refl
  rw [h] at hattended
  exact hattended

end Attended

end

end LanguageClient.Server

namespace LanguageClient.Workspace

open Document Server Wire

theorem Registry.put_put {σ : Type} (r : Registry σ) (language : Language) (first second : σ) :
    (r.put language first).put language second = r.put language second := by
  rw [put, put, put]
  congr 1
  funext asked
  split
  case isTrue hasked => rfl
  case isFalse hasked => exact if_neg hasked

namespace Registry

variable {σ : Type} [Adapter σ] {r r' r'' : Registry σ} {language : Language} {server after : σ}

theorem addressee?_eq_some_iff {p : Path} :
    r.addressee? p = some (language, server) ↔
      r.languageFor? p = some language ∧ r.servers language = some server ∧
        Adapter.isReady server = true ∧ Adapter.offersInbox server = true := by
  simp only [addressee?, Option.bind_eq_bind, Option.bind_eq_some_iff,
    Option.ite_none_right_eq_some, Option.some.injEq, Prod.mk.injEq, Bool.and_eq_true]
  constructor
  · rintro ⟨_, hlanguage, _, hserver, hserves, rfl, rfl⟩
    exact ⟨hlanguage, hserver, hserves⟩
  · rintro ⟨hlanguage, hserver, hserves⟩
    exact ⟨_, hlanguage, _, hserver, hserves, rfl, rfl⟩

/-- Every server is attended to at most. -/
def Attended (r r' : Registry σ) : Prop :=
  ∀ language, Option.Rel Server.Attended (r.servers language) (r'.servers language)

namespace Attended

theorem refl (r : Registry σ) : r.Attended r := fun _ => rel_refl (fun _ => .refl) _

theorem trans (h : r.Attended r') (h' : r'.Attended r'') : r.Attended r'' :=
  fun language => rel_trans (h language) (h' language) Server.Attended.trans

theorem put (hserver : r.servers language = some server) (h : Server.Attended server after) :
    r.Attended (r.put language after) := by
  intro asked
  rw [Registry.put]
  dsimp only
  split
  case isTrue hasked =>
    rw [hasked, hserver]
    exact .some h
  case isFalse => exact refl r asked

theorem putAfter (hserver : r.servers language = some server)
    (h : Server.Attended server after) (nanos : Nat) :
    r.Attended (r.putAfter nanos language after) := by
  intro asked
  rw [Registry.putAfter]
  dsimp only
  split
  case isTrue hasked =>
    rw [hasked, hserver]
    exact .some h
  case isFalse =>
    cases r.servers asked with
    | none => exact .none
    | some other => exact .some (Server.Attended.refl.pass nanos)

theorem isReady_eq [LawfulAdapter σ] (hsteady : SteadyAdapter σ) (h : r.Attended r')
    (language : Language) : r'.isReady language = r.isReady language := by
  have hrel := h language
  rw [isReady, isReady]
  generalize r.servers language = server, r'.servers language = server' at hrel ⊢
  cases hrel with
  | none => rfl
  | some hattended => exact hattended.isReady_eq hsteady

end Attended

end Registry

namespace Completion

def drop (c : Completion) (request : CompletionRequest) : Completion :=
  { c with menu := c.menu.settle request.id .dropped }

def conclude (c : Completion) (request : CompletionRequest) (document : Snapshot)
    (awaited : Awaited Json) : Completion :=
  let (outcome, c) :=
    { c with pending := (c.pending.take request.id).2 }.finish request document awaited
  { c with menu := c.menu.settle request.id outcome }

section

variable {σ : Type} [Adapter σ]

/-- What sending a request comes to: the language whose server took it, and what is left behind. -/
inductive Sends (c : Completion) (request : CompletionRequest) (body : Bytes) (r : Registry σ) :
    Option Language → Completion → Registry σ → Prop where
  | unaddressed (haddressee : r.addressee? request.path = none) : Sends c request body r none c r
  | refused {language : Language} {server sent : σ} {fault : Server.Fault}
      (haddressee : r.addressee? request.path = some (language, server))
      (hsend : Adapter.send body (Mailbox.emptied server) = (.error fault, sent)) :
      Sends c request body r none
        { c with pending := ((c.pending.insert request).take request.id).2 } (r.put language sent)
  | sent {language : Language} {server sent : σ}
      (haddressee : r.addressee? request.path = some (language, server))
      (hsend : Adapter.send body (Mailbox.emptied server) = (.ok (), sent)) :
      Sends c request body r (some language) { c with pending := c.pending.insert request }
        (r.put language sent)

/-- What a request comes to: it is dropped, or the server that took it is waited for. -/
inductive Completes (c : Completion) (request : CompletionRequest) (document : Snapshot)
    (r : Registry σ) (a : Ambient) : Completion → Registry σ → Ambient → Prop where
  | dropped {c' : Completion} {r' : Registry σ}
      (hsends : Sends c request (request.call document).body r none c' r') :
      Completes c request document r a (c'.drop request) r' a
  | awaited {c' : Completion} {r' : Registry σ} {language : Language} {server after : σ}
      {awaited : Awaited Json} {nanos : Nat}
      (hsends : Sends c request (request.call document).body r (some language) c' r')
      (hserver : r'.servers language = some server)
      (hwait : Mailbox.await (answer? request.id) c'.budget server = (awaited, nanos, after)) :
      Completes c request document r a (c'.conclude request document awaited)
        (r'.putAfter nanos language after) (a.pass nanos)

variable {c c' : Completion} {request : CompletionRequest} {body : Bytes} {document : Snapshot}
  {r r' : Registry σ} {a a' : Ambient} {language : Language} {taken : Option Language}

theorem exists_sends (c : Completion) (request : CompletionRequest) (body : Bytes)
    (r : Registry σ) : ∃ taken c' r', Sends c request body r taken c' r' := by
  cases haddressee : r.addressee? request.path with
  | none => exact ⟨_, _, _, .unaddressed haddressee⟩
  | some found =>
    obtain ⟨language, server⟩ := found
    rcases hsend : Adapter.send body (Mailbox.emptied server) with ⟨result, sent⟩
    cases result with
    | ok => exact ⟨_, _, _, .sent haddressee hsend⟩
    | error fault => exact ⟨_, _, _, .refused haddressee hsend⟩

theorem Sends.send_eq (h : Sends c request body r taken c' r') :
    c.send request body r = (taken, c', r') := by
  rw [Completion.send_eq]
  cases h with
  | unaddressed haddressee => rw [haddressee]
  | refused haddressee hsend => simp only [haddressee, hsend, Registry.put_put]
  | sent haddressee hsend => simp only [haddressee, hsend, Registry.put_put]

theorem Sends.servers_of_some (h : Sends c request body r (some language) c' r') :
    ∃ server, r'.servers language = some server := by
  cases h with
  | sent haddressee hsend => exact ⟨_, Registry.put_servers r language _⟩

theorem exists_completes (c : Completion) (request : CompletionRequest) (document : Snapshot)
    (r : Registry σ) (a : Ambient) : ∃ c' r' a', Completes c request document r a c' r' a' := by
  obtain ⟨taken, c', r', hsends⟩ := exists_sends c request (request.call document).body r
  cases taken with
  | none => exact ⟨_, _, _, .dropped hsends⟩
  | some language =>
    obtain ⟨server, hserver⟩ := hsends.servers_of_some
    rcases hwait : Mailbox.await (answer? request.id) c'.budget server with ⟨awaited, nanos, after⟩
    exact ⟨_, _, _, .awaited hsends hserver hwait⟩

theorem Completes.settle_eq (h : Completes c request document r a c' r' a') :
    c.settle request document r a = (c', r', a') := by
  cases h with
  | dropped hsends => exact settle_of_process (process_of_unsent a document hsends.send_eq)
  | awaited hsends hserver hwait =>
    have hprocess := process_of_sent a document hsends.send_eq
    rw [awaitReply_eq document a hserver hwait] at hprocess
    exact settle_of_process hprocess

theorem Sends.withActive (h : Sends c request body r taken c' r') (active : Option Language) :
    Sends c request body { r with active } taken c' { r' with active } := by
  cases h with
  | unaddressed haddressee => exact .unaddressed haddressee
  | refused haddressee hsend => exact .refused haddressee hsend
  | sent haddressee hsend => exact .sent haddressee hsend

theorem Completes.withActive (h : Completes c request document r a c' r' a')
    (active : Option Language) :
    Completes c request document { r with active } a c' { r' with active } a' := by
  cases h with
  | dropped hsends => exact .dropped (hsends.withActive active)
  | awaited hsends hserver hwait => exact .awaited (hsends.withActive active) hserver hwait

theorem Sends.place_eq (h : Sends c request body r taken c' r') :
    r'.active = r.active ∧ r'.root = r.root := by
  cases h with
  | unaddressed haddressee => exact ⟨rfl, rfl⟩
  | refused haddressee hsend => exact ⟨rfl, rfl⟩
  | sent haddressee hsend => exact ⟨rfl, rfl⟩

theorem Completes.place_eq (h : Completes c request document r a c' r' a') :
    r'.active = r.active ∧ r'.root = r.root := by
  cases h with
  | dropped hsends => exact hsends.place_eq
  | awaited hsends hserver hwait => exact hsends.place_eq

theorem attended_put_of_send {server sent : σ} {result : Except Server.Fault Unit}
    (haddressee : r.addressee? request.path = some (language, server))
    (hsend : Adapter.send body (Mailbox.emptied server) = (result, sent)) :
    r.Attended (r.put language sent) := by
  obtain ⟨_, hserver, _⟩ := Registry.addressee?_eq_some_iff.1 haddressee
  have hattended : Attended server (Adapter.send body (Mailbox.emptied server)).2 :=
    Attended.refl.emptied.send body
  rw [hsend] at hattended
  exact .put hserver hattended

theorem Sends.attended (h : Sends c request body r taken c' r') : r.Attended r' := by
  cases h with
  | unaddressed haddressee => exact .refl r
  | refused haddressee hsend => exact attended_put_of_send haddressee hsend
  | sent haddressee hsend => exact attended_put_of_send haddressee hsend

theorem Completes.attended (h : Completes c request document r a c' r' a') : r.Attended r' := by
  cases h with
  | dropped hsends => exact hsends.attended
  | awaited hsends hserver hwait =>
    exact hsends.attended.trans (.putAfter hserver (.await hwait) _)

end

end Completion

end LanguageClient.Workspace
