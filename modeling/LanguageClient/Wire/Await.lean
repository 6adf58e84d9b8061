import LanguageClient.Config
import LanguageClient.Wire.Inbox

namespace LanguageClient.Wire

/-- How a wait ended. -/
inductive Awaited (α : Type) where
  | found (answer : α)
  | timedOut
  | closed

namespace Inbox

def answerIn {α : Type} (answer? : Bytes → Option α) : List Bytes → Option (α × List Bytes)
  | [] => none
  | frame :: rest =>
    match answer? frame with
    | some answer => some (answer, rest)
    | none => answerIn answer? rest

/-- The first answer in an inbox, and the inbox without it and the frames before it. -/
def firstAnswer {α : Type} (inbox : Inbox) (answer? : Bytes → Option α) : Option (α × Inbox) :=
  (answerIn answer? inbox.frames).map fun (answer, rest) => (answer, { inbox with frames := rest })

end Inbox

/-- Something with an inbox in which frames may arrive while time passes. -/
class Mailbox (κ : Type) where
  inbox : κ → Inbox
  setInbox : Inbox → κ → κ
  /-- The nanoseconds until something may arrive, if that does not take an action of the client. -/
  due : κ → Option Nat
  pass : Nat → κ → κ

namespace Mailbox

variable {κ : Type} [Mailbox κ]

/-- Waits for an answer for some nanoseconds at most, and says how many of them passed. -/
def awaitWithin {α : Type} (answer? : Bytes → Option α) (left : Nat) (mailbox : κ) :
    Awaited α × Nat × κ :=
  let box := inbox mailbox
  match box.firstAnswer answer? with
  | some (answer, rest) => (.found answer, 0, setInbox rest mailbox)
  | none =>
    let emptied := setInbox box.drain.2 mailbox
    if box.closed then (.closed, 0, emptied)
    else match due emptied with
      | some wait =>
        if 0 < wait ∧ wait ≤ left then
          let (awaited, nanos, mailbox) := awaitWithin answer? (left - wait) (pass wait emptied)
          (awaited, wait + nanos, mailbox)
        else (.timedOut, left, pass left emptied)
      | none => (.timedOut, left, pass left emptied)
termination_by left

def receive (nanos : Nat) (mailbox : κ) : Received × Nat × κ :=
  match awaitWithin some nanos mailbox with
  | (.found frame, passed, mailbox) => (.frame frame, passed, mailbox)
  | (.timedOut, passed, mailbox) => (.timeout, passed, mailbox)
  | (.closed, passed, mailbox) => (.closed, passed, mailbox)

/-- Waits for an answer. Without any time to wait not even waiting frames are looked at. -/
def await {α : Type} (answer? : Bytes → Option α) (budget : PollBudget) (mailbox : κ) :
    Awaited α × Nat × κ :=
  if budget.total.isZero then (.timedOut, 0, mailbox)
  else awaitWithin answer? budget.total.toNanos mailbox

end Mailbox

end LanguageClient.Wire
