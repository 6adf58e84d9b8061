import LanguageClient.Duration
import LanguageClient.Language
import LanguageClient.Server.Fault
import LanguageClient.Wire.Await

namespace LanguageClient.Server

/-- Something that was done with a process. -/
inductive ProcessEvent where
  | launched (pid : Nat)
  | retired (pid : Nat)
  deriving DecidableEq

def ProcessEvent.pid : ProcessEvent → Nat
  | launched pid | retired pid => pid

/-- What all parts of a client share: the time, the next request id, and what was done with
processes so far, the newest first. -/
structure Ambient where
  /-- What the clock shows, in nanoseconds. -/
  now : Nat := 0
  nextId : Int := 1000
  journal : List ProcessEvent := []

namespace Ambient

def pass (a : Ambient) (nanos : Nat) : Ambient := { a with now := a.now + nanos }

def since (a earlier : Ambient) : Nat := a.now - earlier.now

/-- Where the clock ends, which counts seconds with 63 bits. -/
def clockEnd : Nat := (1 <<< 63) * 1000000000

/-- Whether the clock gets to show the end of a wait that begins now. -/
def canWait (a : Ambient) (wait : Duration) : Bool := a.now + wait.toNanos < clockEnd

def drawId (a : Ambient) : Int × Ambient := (a.nextId, { a with nextId := a.nextId + 1 })

def note (a : Ambient) (event : ProcessEvent) : Ambient :=
  { a with journal := event :: a.journal }

/-- A number that no process had before, if all had such numbers. -/
def freshPid (a : Ambient) : Nat := a.journal.length + 1

end Ambient

/-- The server of one language as the client sees it. Its inbox is the one that it gave out last,
even if it has closed it since. -/
class Adapter (σ : Type) extends Wire.Mailbox σ where
  language : σ → Language
  start : Path → σ → Ambient → Except Fault Unit × σ × Ambient
  /-- Whether a start breaks off, since a wait in it ends later than the clock can show. -/
  overruns : Path → σ → Ambient → Bool := fun _ _ _ => false
  isReady : σ → Bool
  send : Bytes → σ → Except Fault Unit × σ
  offersInbox : σ → Bool
  languageId : σ → Path → String
  stop : σ → Ambient → σ × Ambient

namespace Adapter

variable {σ : Type} [Adapter σ]

def inbox? (server : σ) : Option Wire.Inbox :=
  if offersInbox server then some (Wire.Mailbox.inbox server) else none

def receive (wait : Duration) (server : σ) (a : Ambient) :
    Except Fault (Option Bytes) × σ × Ambient :=
  match inbox? server with
  | none => (.error .notReady, server, a)
  | some _ =>
    match Wire.Mailbox.receive wait.toNanos server with
    | (.frame body, nanos, server) => (.ok (some body), server, a.pass nanos)
    | (.timeout, nanos, server) => (.ok none, server, a.pass nanos)
    | (.closed, nanos, server) => (.error .processExited, server, a.pass nanos)

end Adapter

end LanguageClient.Server
