import LanguageClient.Options.Value

namespace LanguageClient.Options

/-- An argument, or an option together with its value. -/
inductive Item where
  | option (name value : String)
  | operand (value : String)
  | help
  | malformed
  deriving DecidableEq

def flagOf (argument : String) : String :=
  String.ofList (argument.toList.takeWhile (· ≠ '='))

def inlineValue? (argument : String) : Option String :=
  match argument.toList.dropWhile (· ≠ '=') with
  | '=' :: value => some (String.ofList value)
  | _ => none

/-- Whether an argument cannot be the separate value of an option: it starts with a dash and is
more than that. -/
def isDashed (argument : String) : Bool :=
  match argument.toList with
  | '-' :: _ :: _ => true
  | _ => false

/-- The options of a command by name, those that a letter after one dash stands for too, and how
many operands it takes. Operands are paths. -/
structure Form where
  options : List (String × Kind)
  letters : List (Char × String) := []
  operands : Nat

/-- The option that an argument names in a form, and the value that it writes behind the name: after
an equals sign, which a letter needs not have. -/
def Form.named? (form : Form) (argument : String) : Option (String × Option String) :=
  match argument.toList with
  | '-' :: '-' :: _ =>
    if (form.options.lookup (flagOf argument)).isSome then
      some (flagOf argument, inlineValue? argument)
    else none
  | '-' :: letter :: rest => (form.letters.lookup letter).map fun name =>
      (name, match rest with
        | [] => none
        | '=' :: value | value => some (String.ofList value))
  | _ => none

def asksForHelp (argument : String) : Bool :=
  argument = "--help" || "-h".toList.isPrefixOf argument.toList

/-- The items that arguments write in a form. Nothing is read after a request for help or a
malformed argument; after `--` everything is an operand. -/
def items (form : Form) : List String → List Item
  | [] => []
  | argument :: rest =>
    match form.named? argument, rest with
    | some (name, some value), rest => .option name value :: items form rest
    | some (name, none), value :: rest =>
      if isDashed value then [.malformed] else .option name value :: items form rest
    | some (_, none), [] => [.malformed]
    | none, rest =>
      if argument = "--" then rest.map .operand
      else if asksForHelp argument then [.help]
      else if isDashed argument then [.malformed]
      else .operand argument :: items form rest

structure Given where
  options : List (String × Value) := []
  operands : List String := []

namespace Given

def value? (g : Given) (name : String) : Option Value := g.options.lookup name

def text? (g : Given) (name : String) : Option String :=
  match g.value? name with
  | some (.text s) => some s
  | _ => none

def number? (g : Given) (name : String) : Option Nat :=
  match g.value? name with
  | some (.number n) => some n
  | _ => none

end Given

inductive Refusal where
  | help
  | misuse
  deriving DecidableEq

namespace Form

/-- Adds items one after another. An option may be given once. -/
def collect (form : Form) : Given → List Item → Except Refusal Given
  | g, [] => .ok g
  | _, .help :: _ => .error .help
  | _, .malformed :: _ => .error .misuse
  | g, .option name text :: rest =>
    match (form.options.lookup name).bind (·.read? text), g.value? name with
    | some value, none => collect form { g with options := g.options ++ [(name, value)] } rest
    | _, _ => .error .misuse
  | g, .operand text :: rest =>
    if g.operands.length < form.operands && !text.isEmpty then
      collect form { g with operands := g.operands ++ [text] } rest
    else .error .misuse

def read (form : Form) (arguments : List String) : Except Refusal Given :=
  form.collect {} (items form arguments)

end Form

end LanguageClient.Options
