import LanguageClient.Shell.Field
import LanguageClient.Shell.Options
import LanguageClient.Shell.Script
import LanguageClient.Text.Decimal
import LanguageClient.Text.Utf8

namespace LanguageClient.Shell

structure Piece where
  moment : Nat
  bytes : Bytes

/-- What a script reads: the pieces that come, the earliest first, and when that ends. -/
structure Input where
  pieces : List Piece := []
  ended : Option Nat := none
  isOpen : Bool := true
  /-- Whether it is what the whole program is sent. -/
  isOuter : Bool := false

/-- Where what is written to a stream goes: to a pipe, or nowhere. The pipe at depth zero is that of
the whole program; each command whose output is caught within another one has a deeper pipe. -/
inductive Output where
  | pipe (depth : Nat)
  | discarded
  deriving DecidableEq

abbrev Streams := List (Nat × Output)

namespace Streams

/-- The streams of a script: what it says of errors goes elsewhere. -/
def ofScript : Streams := [(1, .pipe 0), (2, .discarded)]

def set (number : Nat) (output : Option Output) (s : Streams) : Streams :=
  (output.map fun o => (number, o)).toList ++ s.filter (·.1 ≠ number)

def hold (depth : Nat) (s : Streams) : Bool := s.any (·.2 = .pipe depth)

end Streams

structure Written where
  depth : Nat
  piece : Piece

/-- Why a script does not go on with its next command. -/
inductive Signal where
  | next
  /-- It waits for input that has not come, or for a moment that has not. -/
  | waiting
  | exited
  /-- It leaves this many loops. -/
  | broke (loops : Nat)
  /-- It goes on with the next round of a loop, after leaving the others of this many. -/
  | continued (loops : Nat)
  | returned
  deriving DecidableEq

/-- A script that runs in the background. -/
structure Job where
  pid : Nat
  ended : Option Nat
  /-- Whether it can write to the pipe of the script that started it. -/
  holdsOutput : Bool
  status : Nat

/-- Moments are counted in nanoseconds. -/
structure State where
  input : Input
  directory : Bytes
  /-- The present, after which nothing has happened yet. -/
  now : Nat
  /-- The moment that the script has come to. -/
  clock : Nat := 0
  /-- What was written, the newest piece first. -/
  written : List Written := []
  depth : Nat := 0
  streams : Streams := .ofScript
  vars : List (String × Bytes) := []
  /-- The parameters that keep their values. -/
  fixed : List String := []
  functions : List (String × Command) := []
  name : Bytes := Utf8.encode "sh".toList
  arguments : List Bytes := []
  status : Nat := 0
  caughtStatus : Nat := 0
  signal : Signal := .next
  /-- The first moment after the present at which something goes on by itself. -/
  wake : Option Nat := none
  jobs : List Job := []
  /-- What is done at the end. -/
  farewell : Bytes := []
  loops : Nat := 0
  isInside : Bool := false
  /-- The values that parameters of the function that runs had before, the newest first. -/
  shadowed : List (String × Option Bytes) := []
  options : Options := {}
  /-- Whether the status is only looked at, so that a failure is none. -/
  lenient : Bool := false

/-- What several writers wrote to a pipe, in the order of its moments. -/
def inOrder (depth : Nat) (written : List Written) : List Piece :=
  ((written.filter (·.depth = depth)).map (·.piece)).reverse.mergeSort fun p q => p.moment ≤ q.moment

def joinPieces (pieces : List Piece) : Bytes := (pieces.map (·.bytes)).flatten

def splitLine : Bytes → Option (Bytes × Bytes)
  | [] => none
  | b :: rest => if b = 10 then some ([], rest) else (splitLine rest).map fun p => (b :: p.1, p.2)

def takeLine : List Piece → Option (Bytes × Nat × List Piece)
  | [] => none
  | p :: rest => match splitLine p.bytes with
    | some (line, left) => some (line, p.moment, ⟨p.moment, left⟩ :: rest)
    | none => (takeLine rest).map fun (line, moment, left) => (p.bytes ++ line, moment, left)

def splitPieces : Nat → List Piece → List Piece × List Piece
  | 0, pieces => ([], pieces)
  | _ + 1, [] => ([], [])
  | count + 1, p :: rest =>
    if count + 1 < p.bytes.length then
      ([⟨p.moment, p.bytes.take (count + 1)⟩], ⟨p.moment, p.bytes.drop (count + 1)⟩ :: rest)
    else
      let (taken, left) := splitPieces (count + 1 - p.bytes.length) rest
      (p :: taken, left)

namespace State

def write (s : State) (bytes : Bytes) : State :=
  match s.streams.lookup 1 with
  | some (.pipe depth) =>
    if bytes.isEmpty then s else { s with written := ⟨depth, ⟨s.clock, bytes⟩⟩ :: s.written }
  | _ => s

def finish (s : State) (status : Nat) : State := { s with status }

def stop (s : State) (signal : Signal) : State := { s with signal }

def fail (s : State) : State := (s.finish 2).stop .exited

/-- Comes to a moment, unless that is over already. -/
def reach (s : State) (moment : Nat) : State := { s with clock := max s.clock moment }

def waitUntil (s : State) (moment : Nat) : State :=
  if moment ≤ s.now then (s.reach moment).finish 0
  else { s with wake := some ((s.wake.map (min moment)).getD moment) }.stop .waiting

def set (s : State) (name : String) (value : Bytes) : State :=
  if s.fixed.contains name then s.fail
  else { s with vars := (name, value) :: s.vars.filter (·.1 ≠ name) }

def unset (s : State) (name : String) : State :=
  if s.fixed.contains name then s.fail
  else { s with vars := s.vars.filter (·.1 ≠ name) }

/-- Remembers the value that a parameter has outside of the function that runs. -/
def shadow (s : State) (name : String) : State :=
  { s with shadowed := (name, s.vars.lookup name) :: s.shadowed }

def unshadow (s : State) : State :=
  s.shadowed.foldl (fun s (name, value) => match value with
    | some value => s.set name value
    | none => s.unset name) s

def decimal (n : Nat) : Bytes := Utf8.encode (Decimal.digits n)

def ownPid : Nat := 1

def separators (s : State) : Bytes := (s.vars.lookup "IFS").getD [32, 9, 10]

def get? (s : State) (name : String) : Option Bytes :=
  match Decimal.read? name.toList with
  | some 0 => some s.name
  | some (n + 1) => s.arguments[n]?
  | none =>
    if name = "#" then some (decimal s.arguments.length)
    else if name = "?" then some (decimal s.status)
    else if name = "$" then some (decimal ownPid)
    else if name = "!" then s.jobs.head?.map fun job => decimal job.pid
    else if name = "-" then some (Utf8.encode s.options.letters)
    else if name = "@" || name = "*" then some ((s.separators.take 1).intercalate s.arguments)
    else s.vars.lookup name

/-- Asks for the value of a parameter. One that is not set may end the script. -/
def demand (s : State) (name : String) : State :=
  if s.options.careful && (s.get? name).isNone then s.fail else s

def setPieces (s : State) (pieces : List Piece) : State := { s with input := { s.input with pieces } }

/-- Whether a line ends with a backslash that hides its end. -/
def goesOn (line : Bytes) : Bool := (line.reverse.takeWhile (· = 92)).length % 2 = 1

def bare : Bytes → Bytes
  | 92 :: b :: rest => b :: bare rest
  | b :: rest => b :: bare rest
  | [] => []

/-- The next line of input, whether it is whole, and the state after it. Unless it is `raw`, its
backslashes hide what follows them, which may be its end. -/
def nextLine (raw : Bool) : Nat → Bytes → State → Option (Bytes × Bool × State)
  | 0, _, _ => none
  | fuel + 1, seen, s =>
    match takeLine s.input.pieces, s.input.ended with
    | some (line, moment, rest), _ =>
      let s := (s.setPieces rest).reach moment
      if raw then some (seen ++ line, true, s)
      else if goesOn line then nextLine raw fuel (seen ++ bare line.dropLast) s
      else some (seen ++ bare line, true, s)
    | none, some moment =>
      let line := joinPieces s.input.pieces
      some (seen ++ if raw then line else bare line, false, (s.setPieces []).reach moment)
    | none, none => none

/-- The `read` command: a line of input goes to the named variables. -/
def readLine (s : State) (raw : Bool) (names : List String) : State :=
  if names.isEmpty then s.finish 2
  else if !s.input.isOpen then s.finish 1
  else match nextLine raw (joinPieces s.input.pieces).length.succ [] s with
    | some (line, whole, s) =>
      let line := line.filter (· ≠ 0)
      let s := (Field.assigned s.separators names line).foldl (fun s (name, v) => s.set name v) s
      s.finish (if whole then 0 else 1)
    | none => s.stop .waiting

def copyPieces (s : State) (pieces : List Piece) : State :=
  pieces.foldl (fun s p => (s.reach p.moment).write p.bytes) s

def copyInput (s : State) (count : Option Nat) : State :=
  if !s.input.isOpen then s.finish 1
  else
    let (taken, rest) := match count with
      | some n => splitPieces n s.input.pieces
      | none => (s.input.pieces, [])
    let enough := count.any (· ≤ (joinPieces s.input.pieces).length)
    let copied := (s.setPieces rest).copyPieces taken
    match s.input.ended with
    | some moment => (if enough then copied else copied.reach moment).finish 0
    | none => if enough then copied.finish 0 else copied.stop .waiting

def lineBytes? : Nat → Bytes → Option Nat
  | 0, _ => some 0
  | count + 1, bytes => do
    let (line, rest) ← splitLine bytes
    return line.length + 1 + (← lineBytes? count rest)

/-- Copies the first lines of the input to the output. Everything that has come by then is taken. -/
def copyLines (s : State) (count : Nat) : State :=
  match lineBytes? count (joinPieces s.input.pieces) with
  | some n =>
    let copied := s.copyInput (some n)
    copied.setPieces (copied.input.pieces.dropWhile (·.moment ≤ copied.clock))
  | none => s.copyInput none

/-- The state in which a script begins whose output is caught. -/
def catching (s : State) : State :=
  { s with depth := s.depth + 1, streams := s.streams.set 1 (some (.pipe (s.depth + 1))) }

def caught (s inner : State) : List Piece := inOrder (s.depth + 1) inner.written

def uncaught (s inner : State) : List Written := inner.written.filter (·.depth ≤ s.depth)

def fork (s : State) : State := { s with jobs := [], farewell := [] }

/-- What a shell of its own leaves behind in the one that it was started from. -/
def rejoin (outer inner : State) : State :=
  { outer with
    input := if inner.input.isOuter = outer.input.isOuter then inner.input else outer.input
    clock := inner.clock
    written := inner.written
    status := inner.status % 256
    wake := inner.wake
    jobs := outer.jobs ++ inner.jobs.map fun job => { job with pid := 0 }
    signal := if inner.signal = .waiting then .waiting else .next }

/-- The moment from which on nobody writes to the pipe of a script any more. -/
def hungUp? (s : State) : Option Nat :=
  if s.signal = .waiting then none
  else (s.jobs.filter (·.holdsOutput)).foldl
    (fun moment? job => do return max (← moment?) (← job.ended)) (some s.clock)

end State

end LanguageClient.Shell
