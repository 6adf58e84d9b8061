import LanguageClient.Shell.Run

namespace LanguageClient.Server

/-- What a program has done up to a moment. Moments are counted in nanoseconds from its start. -/
structure Activity where
  output : Bytes := []
  outputEnded : Bool := false
  inputClosed : Bool := false
  exited : Option Nat := none
  /-- The next moment at which it goes on by itself. -/
  wake : Option Nat := none

/-- A program, by what it has done at the present moment when it was sent some input. -/
structure Program where
  respond : (input : Shell.Input) → (now : Nat) → Activity

namespace Program

/-- A bound on the commands that a script runs. -/
def stepLimit : Nat := 100000

def activityOf (s : Shell.State) : Activity :=
  let exited := if s.signal = .waiting then none else some s.clock
  let released := s.jobs.all fun job => !job.holdsOutput || job.ended.isSome
  { output := Shell.joinPieces (Shell.inOrder 0 s.written)
    outputEnded := (exited.isSome || !s.streams.hold 0) && released
    inputClosed := exited.isSome || !s.input.isOpen || !s.input.isOuter
    exited
    wake := s.wake }

def failed : Program where
  respond _ _ := { outputEnded := true, inputClosed := true, exited := some 0 }

/-- A script that runs in a directory, called by a name, with options of the shell. It is run up to
the present against the input that has come so far, from its beginning each time: it writes the same
again, since it sees nothing else. -/
def ofScript (directory name : Bytes) (options : Shell.Options) (arguments : List Bytes)
    (text : Bytes) : Program where
  respond input now := activityOf (Shell.runFork stepLimit (Shell.Reader.script (Utf8.decodeLossy text))
    { input, directory, now, name, options, arguments, vars := [("PWD", directory)] })

def ofCommand (directory : Bytes) (command : List Bytes) : Program where
  respond input now := activityOf (Shell.invoke stepLimit command { input, directory, now })

def silent : Program where
  respond input _ :=
    match input.ended with
    | some moment => { outputEnded := true, inputClosed := true, exited := some moment }
    | none => {}

end Program

end LanguageClient.Server
