import LanguageClient.Options.Form
import LanguageClient.Settings.Layer

namespace LanguageClient.Settings

def fileFlag : String := "--config-path"

def flags : List String := fileFlag :: Key.all.map Key.flag

def isFlag (argument : String) : Bool := flags.contains (Options.flagOf argument)

section

variable {α : Type} (text : α → String)

/-- Parts arguments, each of which reads as a text, into the leading flags with their values and the
rest. A flag without an inline value takes the next argument, whatever it looks like. -/
def leading : List α → List α × List α
  | [] => ([], [])
  | argument :: rest =>
    if !isFlag (text argument) then ([], argument :: rest)
    else match Options.inlineValue? (text argument), rest with
      | some _, rest =>
        let (flags, command) := leading rest
        (argument :: flags, command)
      | none, [] => ([argument], [])
      | none, value :: rest =>
        let (flags, command) := leading rest
        (argument :: value :: flags, command)

/-- The arguments of the settings and those of the command. Each list starts with the program's
name, the first argument. -/
def split : List α → List α × List α
  | [] => ([], [])
  | program :: rest => (program :: (leading text rest).1, program :: (leading text rest).2)

end

def splitArguments : List String → List String × List String := split id

def form : Options.Form where
  options := (fileFlag, .path) :: Key.all.map fun k => (k.flag, k.kind)
  letters := Key.all.map fun k => (k.letter, k.flag)
  operands := 0

def optionJson : Options.Value → Json
  | .text s => .str s
  | .number n => .int n

def flagLayer (given : Options.Given) : Layer :=
  Key.all.filterMap fun k => (given.value? k.flag).map fun value => (k.name, optionJson value)

end LanguageClient.Settings
