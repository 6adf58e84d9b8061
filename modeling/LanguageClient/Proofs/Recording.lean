import LanguageClient.Proofs.Noninterference

namespace LanguageClient.Server

open Wire

/-- A body that was handed to a server: whether the server was ready then, and whether it took the
body. -/
structure Handover where
  body : Bytes
  ready : Bool
  accepted : Bool
  deriving DecidableEq

/-- What handing a body to a server in this state is on record as. -/
def Handover.of {σ : Type} [Adapter σ] (server : σ) (body : Bytes) : Handover where
  body := body
  ready := Adapter.isReady server
  accepted := (Adapter.send body server).1.isOk

/-- A server and what it was handed, the oldest first. -/
structure Recorded (σ : Type) where
  server : σ
  handed : List Handover := []

namespace Recorded

section

variable {σ : Type} [Adapter σ]

instance : Mailbox (Recorded σ) where
  inbox s := Mailbox.inbox s.server
  setInbox inbox s := { s with server := Mailbox.setInbox inbox s.server }
  due s := Mailbox.due s.server
  pass nanos s := { s with server := Mailbox.pass nanos s.server }

instance : Adapter (Recorded σ) where
  language s := Adapter.language s.server
  start root s a :=
    let (result, server, a) := Adapter.start root s.server a
    (result, { s with server }, a)
  overruns root s a := Adapter.overruns root s.server a
  isReady s := Adapter.isReady s.server
  send body s :=
    let (result, server) := Adapter.send body s.server
    (result, ⟨server, s.handed ++ [.of s.server body]⟩)
  offersInbox s := Adapter.offersInbox s.server
  languageId s := Adapter.languageId s.server
  stop s a :=
    let (server, a) := Adapter.stop s.server a
    ({ s with server }, a)

theorem look_eq {α : Type} (answer? : Bytes → Option α) (left : Nat) (s : Recorded σ) :
    Mailbox.look answer? left s =
      match Mailbox.look answer? left s.server with
      | .ends awaited nanos server => .ends awaited nanos { s with server }
      | .waits nanos server => .waits nanos { s with server } := by
  have hinbox : Mailbox.inbox s = Mailbox.inbox s.server := rfl
  have hdue : Mailbox.due (Mailbox.emptied s) = Mailbox.due (Mailbox.emptied s.server) := rfl
  rw [Mailbox.look, Mailbox.look, hinbox, hdue]
  cases (Mailbox.inbox s.server).firstAnswer answer? with
  | some found => rfl
  | none =>
    dsimp only
    by_cases hclosed : (Mailbox.inbox s.server).closed
    · rw [if_pos hclosed, if_pos hclosed]
      rfl
    · rw [if_neg hclosed, if_neg hclosed]
      cases Mailbox.due (Mailbox.emptied s.server) with
      | none => rfl
      | some wait =>
        dsimp only
        by_cases hwait : 0 < wait ∧ wait ≤ left
        · rw [if_pos hwait, if_pos hwait]
          rfl
        · rw [if_neg hwait, if_neg hwait]
          rfl

theorem awaitWithin_eq {α : Type} (answer? : Bytes → Option α) (left : Nat) (s : Recorded σ) :
    Mailbox.awaitWithin answer? left s =
      let (awaited, nanos, server) := Mailbox.awaitWithin answer? left s.server
      (awaited, nanos, { s with server }) := by
  induction left using Nat.strongRecOn generalizing s with
  | ind left ih =>
    rw [Mailbox.awaitWithin_eq_look, Mailbox.awaitWithin_eq_look answer? left s.server, look_eq]
    cases hlook : Mailbox.look answer? left s.server with
    | ends awaited nanos server => rfl
    | waits wait server =>
      obtain ⟨hpos, hle⟩ := Mailbox.look_waits hlook
      dsimp only
      rw [ih (left - wait) (by omega)]

theorem await_eq {α : Type} (answer? : Bytes → Option α) (budget : PollBudget) (s : Recorded σ) :
    Mailbox.await answer? budget s =
      let (awaited, nanos, server) := Mailbox.await answer? budget s.server
      (awaited, nanos, { s with server }) := by
  rw [Mailbox.await, Mailbox.await]
  cases budget.total.isZero with
  | true => rfl
  | false =>
    rw [if_neg Bool.false_ne_true, if_neg Bool.false_ne_true]
    exact awaitWithin_eq answer? _ s

theorem server_of_await {α : Type} {answer? : Bytes → Option α} {budget : PollBudget}
    {s after : Recorded σ} {awaited : Awaited α} {nanos : Nat}
    (h : Mailbox.await answer? budget s = (awaited, nanos, after)) :
    Mailbox.await answer? budget s.server = (awaited, nanos, after.server) ∧
      after.handed = s.handed := by
  -- The results are named first, or a check would unfold the wait and compute with its budget.
  have hawait := await_eq answer? budget s
  rcases hwait : Mailbox.await answer? budget s.server with ⟨awaited', nanos', server⟩
  rw [h, hwait] at hawait
  cases hawait
  exact ⟨rfl, rfl⟩

theorem server_of_start {root : Path} {s started : Recorded σ} {a after : Ambient}
    {result : Except Server.Fault Unit} (h : Adapter.start root s a = (result, started, after)) :
    Adapter.start root s.server a = (result, started.server, after) ∧
      started.handed = s.handed := by
  cases h
  exact ⟨rfl, rfl⟩

theorem server_of_send {body : Bytes} {s sent : Recorded σ} {result : Except Server.Fault Unit}
    (h : Adapter.send body s = (result, sent)) :
    Adapter.send body s.server = (result, sent.server) ∧
      sent.handed = s.handed ++ [.of s.server body] := by
  cases h
  exact ⟨rfl, rfl⟩

instance [LawfulAdapter σ] : LawfulAdapter (Recorded σ) where
  inbox_setInbox inbox _ h := LawfulAdapter.inbox_setInbox (σ := σ) inbox h
  setInbox_setInbox first second s :=
    congrArg (Recorded.mk · s.handed) (LawfulAdapter.setInbox_setInbox first second s.server)
  isReady_setInbox h := LawfulAdapter.isReady_setInbox (σ := σ) h
  offersInbox_setInbox h := LawfulAdapter.offersInbox_setInbox (σ := σ) h

end

end Recorded

end LanguageClient.Server

namespace LanguageClient.Workspace

open Server Wire

def addressedTo (language : Language) (messages : List (Language × Handover)) : List Handover :=
  (messages.filter (·.1 = language)).map Prod.snd

theorem addressedTo_append (language : Language) (first second : List (Language × Handover)) :
    addressedTo language (first ++ second) =
      addressedTo language first ++ addressedTo language second := by
  rw [addressedTo, List.filter_append, List.map_append]
  rfl

theorem addressedTo_singleton (asked language : Language) (message : Handover) :
    addressedTo asked [(language, message)] = if asked = language then [message] else [] := by
  rw [addressedTo, List.filter_singleton]
  by_cases h : asked = language
  · simp [h]
  · simp [h, Ne.symm h]

namespace Registry

section

variable {σ : Type}

/-- What the server of a language was handed, the oldest first. -/
def handed (r : Registry (Recorded σ)) (language : Language) : List Handover :=
  ((r.servers language).map Recorded.handed).getD []

def recorded (r : Registry σ) : Registry (Recorded σ) :=
  { r with servers := fun language => (r.servers language).map fun server => { server } }

def unrecorded (r : Registry (Recorded σ)) : Registry σ :=
  { r with servers := fun language => (r.servers language).map Recorded.server }

theorem unrecorded_recorded (r : Registry σ) : r.recorded.unrecorded = r := by
  simp only [unrecorded, recorded, Option.map_map, Function.comp_def, Option.map_id']

theorem handed_recorded (r : Registry σ) (language : Language) :
    r.recorded.handed language = [] := by
  rw [handed, recorded]
  dsimp only
  cases r.servers language with
  | none => rfl
  | some server => rfl

theorem languageFor?_unrecorded (r : Registry (Recorded σ)) (p : Path) :
    r.unrecorded.languageFor? p = r.languageFor? p := by
  simp only [languageFor?, unrecorded, Option.isSome_map]

theorem servers_unrecorded {r : Registry (Recorded σ)} {language : Language} {s : Recorded σ}
    (h : r.servers language = some s) : r.unrecorded.servers language = some s.server :=
  congrArg (Option.map Recorded.server) h

theorem put_unrecorded (r : Registry (Recorded σ)) (language : Language) (s : Recorded σ) :
    (r.put language s).unrecorded = r.unrecorded.put language s.server := by
  rw [unrecorded, put, put]
  congr 1
  funext asked
  exact apply_ite _ _ _ _

theorem handed_put (r : Registry (Recorded σ)) (language asked : Language) (s : Recorded σ) :
    (r.put language s).handed asked = if asked = language then s.handed else r.handed asked := by
  rw [handed, put]
  dsimp only
  split <;> rfl

theorem handed_of_servers {r : Registry (Recorded σ)} {language : Language} {s : Recorded σ}
    (h : r.servers language = some s) : r.handed language = s.handed := by
  rw [handed, h]
  rfl

variable [Adapter σ]

theorem pass_unrecorded (r : Registry (Recorded σ)) (nanos : Nat) :
    (r.pass nanos).unrecorded = r.unrecorded.pass nanos := by
  simp only [unrecorded, pass, Option.map_map]
  rfl

theorem handed_pass (r : Registry (Recorded σ)) (nanos : Nat) (language : Language) :
    (r.pass nanos).handed language = r.handed language := by
  rw [handed, pass, Option.map_map]
  rfl

theorem putAfter_unrecorded (r : Registry (Recorded σ)) (nanos : Nat) (language : Language)
    (s : Recorded σ) :
    (r.putAfter nanos language s).unrecorded = r.unrecorded.putAfter nanos language s.server := by
  rw [unrecorded, putAfter, putAfter]
  congr 1
  funext asked
  dsimp only
  rw [apply_ite (Option.map Recorded.server), Option.map_map, unrecorded, Option.map_map]
  rfl

theorem handed_putAfter (r : Registry (Recorded σ)) (nanos : Nat) (language asked : Language)
    (s : Recorded σ) :
    (r.putAfter nanos language s).handed asked =
      if asked = language then s.handed else r.handed asked := by
  rw [handed, putAfter]
  dsimp only
  split
  · rfl
  · rw [Option.map_map]
    rfl

theorem handed_putAfter_of_handed_eq {r : Registry (Recorded σ)} {nanos : Nat}
    {language : Language} {s after : Recorded σ} (hs : r.servers language = some s)
    (h : after.handed = s.handed) (asked : Language) :
    (r.putAfter nanos language after).handed asked = r.handed asked := by
  rw [handed_putAfter]
  split
  case isTrue hasked => rw [h, hasked, handed_of_servers hs]
  case isFalse => rfl

/-- A body that is handed to a server goes on its record and on no other. -/
theorem handed_put_of_send {r : Registry (Recorded σ)} {language : Language}
    {s sent : Recorded σ} {body : Bytes} {result : Except Server.Fault Unit}
    (h : r.handed language = s.handed) (hsend : Adapter.send body s = (result, sent))
    (asked : Language) :
    (r.put language sent).handed asked =
      r.handed asked ++ addressedTo asked [(language, .of s.server body)] := by
  rw [handed_put, addressedTo_singleton, (Recorded.server_of_send hsend).2]
  split
  case isTrue hasked => rw [hasked, h]
  case isFalse => rw [List.append_nil]

end

end Registry

end LanguageClient.Workspace
