import LanguageClient.Server.Handshake
import LanguageClient.Server.Program
import LanguageClient.Wire.Listener

namespace LanguageClient.Server

open Wire

structure Child where
  pid : Nat
  program : Program
  inbox : Inbox
  input : Shell.Input := { isOuter := true }
  /-- How many nanoseconds ago the program was started. -/
  age : Nat := 0
  activity : Activity := {}
  taken : Nat := 0
  /-- The part of it that is not a whole frame yet. -/
  unread : Bytes := []
  /-- Whether listening ended. -/
  deaf : Bool := false

namespace Child

/-- A program that was just launched has done nothing yet. After that it does all it can whenever it
is sent something or time passes. -/
def ofProgram (pid : Nat) (program : Program) (capacity : Nat) : Child :=
  { pid, program, inbox := .ofCapacity capacity }

/-- Takes in what the program does with its input so far. -/
def settle (c : Child) : Child :=
  let activity := c.program.respond c.input c.age
  let c := { c with activity }
  if c.deaf then c
  else
    let output := c.unread ++ activity.output.drop c.taken
    let heard := hear { pending := [.data output] } c.inbox
    let ended := heard.stopped || activity.outputEnded
    { c with
      taken := activity.output.length
      unread := heard.rest.remaining
      inbox := if ended then heard.inbox.close else heard.inbox
      deaf := ended }

def write (body : Bytes) (c : Child) : Except Wire.Fault Unit × Child :=
  if c.activity.inputClosed then (.error (.io "Broken pipe (os error 32)"), c)
  else
    let pieces := c.input.pieces ++ [⟨c.age, Frame.encode body⟩]
    (.ok (), settle { c with input := { c.input with pieces } })

/-- The nanoseconds until the program goes on by itself. -/
def due (c : Child) : Option Nat := c.activity.wake.map (· - c.age)

def pass (nanos : Nat) (c : Child) : Child :=
  let later := { c with age := c.age + nanos }
  if c.activity.wake.any (· ≤ later.age) then settle later else later

instance : Link Child where
  write := write
  inbox := inbox
  setInbox inbox c := { c with inbox }
  due := due
  pass := pass

def hangUp (c : Child) : Child := settle { c with input := { c.input with ended := some c.age } }

/-- The nanoseconds until the program has ended, but not more than a bound. -/
def ending (c : Child) (bound : Nat) : Nat :=
  match (c.pass bound).activity.exited with
  | some moment => moment - c.age
  | none => bound

/-- Whether the server can be talked to: its output has not ended. -/
def isListening (c : Child) : Bool := !c.inbox.closed

end Child

end LanguageClient.Server
