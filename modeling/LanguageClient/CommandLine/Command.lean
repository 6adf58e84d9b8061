import LanguageClient.CommandLine.Help
import LanguageClient.Options.Form

namespace LanguageClient.CommandLine

inductive Command where
  | complete (file : Path) (line character : UInt32) (workspace : Option Path)
  /-- Start the server of a file. -/
  | probe (file : Path) (workspace : Option Path)

/-- What arguments ask for. -/
inductive Call where
  | run (command : Command)
  | help (text : String)
  | misuse

namespace Call

def completeForm : Options.Form where
  options := [("--line", .word32), ("--character", .word32), ("--workspace", .path)]
  operands := 1

def probeForm : Options.Form where
  options := [("--workspace", .path)]
  operands := 1

def workspace? (given : Options.Given) : Option Path := (given.text? "--workspace").map Path.mk

/-- The command `complete`, if everything that it needs is given. -/
def complete? (given : Options.Given) : Option Command := do
  let file ← given.operands.head?
  let line ← given.number? "--line"
  let character ← given.number? "--character"
  return .complete ⟨file⟩ (UInt32.ofNat line) (UInt32.ofNat character) (workspace? given)

def probe? (given : Options.Given) : Option Command := do
  return .probe ⟨← given.operands.head?⟩ (workspace? given)

def ofForm (form : Options.Form) (command? : Options.Given → Option Command) (help : String)
    (arguments : List String) : Call :=
  match form.read arguments with
  | .ok given => match command? given with
    | some command => .run command
    | none => .misuse
  | .error .help => .help help
  | .error .misuse => .misuse

def ofArguments (arguments : List String) : Call :=
  let name := Help.programName? arguments
  match arguments.drop 1 with
  | "complete" :: rest => ofForm completeForm complete? (Help.complete name) rest
  | "probe" :: rest => ofForm probeForm probe? (Help.probe name) rest
  | argument :: _ =>
    if Options.asksForHelp argument then .help (Help.program name) else .misuse
  | [] => .misuse

end Call

end LanguageClient.CommandLine
