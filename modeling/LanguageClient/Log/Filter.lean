import LanguageClient.Log.Pattern.Reader
import LanguageClient.Log.Settings
import LanguageClient.Text.Decimal
import LanguageClient.Text.Utf8

namespace LanguageClient.Log.Filter

/-- Whether a text is a level: a number up to five or a name in any mixture of cases. The empty text
is one. -/
def isLevel (cs : List Char) : Bool :=
  match Decimal.readUnsigned? cs with
  | some n => n ≤ 5
  | none =>
    ["", "off", "error", "warn", "info", "debug", "trace"].contains
      (String.ofList (cs.map Char.toLower))

/-- Whether a text writes a number, with an optional sign, a point and an exponent, or one that is
not finite. -/
def isNumber (cs : List Char) : Bool :=
  let (_, body) := Toml.signed cs
  let mantissa := body.takeWhile fun c => c ≠ 'e' && c ≠ 'E'
  let isMantissa :=
    mantissa.any Decimal.isDigit && mantissa.all (fun c => Decimal.isDigit c || c = '.')
      && mantissa.count '.' ≤ 1
  ["inf", "infinity", "nan"].contains (String.ofList (body.map Char.toLower))
    || (isMantissa && (Json.NumberLiteral.exponent? (body.drop mantissa.length)).isSome)

def isValue (cs : List Char) : Bool := isNumber cs || (Pattern.ofChars? cs).any Pattern.isSound

/-- Whether a text may be a field: a name, and a value between the first two equals signs. -/
def isField (cs : List Char) : Bool :=
  !cs.isEmpty && match cs.splitOn '=' with
    | _ :: value :: _ => isValue value
    | _ => true

/-- What is being read of a directive, and at which byte it began. -/
inductive State where
  | start
  | levelOrTarget
  | span
  | field (begun : Nat)
  | fields
  | target
  | level (begun : Nat)
  deriving DecidableEq

def beginsTarget (c : Char) : Bool := c = '-' || c = ':' || c = '_' || Text.isAlphanumeric c

def between? (cs : List Char) (first last : Nat) : Option (List Char) := do
  return (← Utf8.cut? (← Utf8.cut? cs first).2 (last - first)).1

def State.feed? (directive : List Char) (offset : Nat) (state : State) (c : Char) : Option State :=
  match state with
  | .start => if c = '[' then some .span else if beginsTarget c then some .levelOrTarget else none
  | .levelOrTarget =>
    if c = '=' then some (.level (offset + 1)) else if c = '[' then some .span else some state
  | .span =>
    if c = ']' then some .target else if c = '{' then some (.field (offset + 1)) else some state
  | .field begun =>
    if c ≠ '}' then some state
    else if (between? directive begun offset).any isField then some .fields
    else none
  | .fields => if c = ']' then some .target else none
  | .target => if c = '=' then some (.level (offset + 1)) else none
  | .level _ => some state

def State.run? (directive : List Char) (offset : Nat) : State → List Char → Option State
  | state, [] => some state
  | state, c :: cs => do
    run? directive (offset + c.utf8Size) (← state.feed? directive offset c) cs

/-- Whether a directive is understood. The blanks around it do not count for offsets, but its field
and its level are what stands in the directive at their offsets, blanks included. -/
def isDirective (cs : List Char) : Bool :=
  match State.start.run? cs 0 (Text.trim cs) with
  | some .levelOrTarget | some .target => true
  | some (.level begun) => (Utf8.cut? cs begun).any fun p => isLevel p.2
  | _ => false

def isValid (expression : String) : Bool :=
  ((expression.toList.splitOn ',').filter (!·.isEmpty)).all isDirective

end LanguageClient.Log.Filter

namespace LanguageClient.Log

inductive Fault where
  | filter (expression : String)

def Fault.message : Fault → String
  | filter expression => "invalid log filter: " ++ expression

/-- Sets the log of a process up, unless that was done before. Says whether it is set up then. -/
def install (settings : Settings) (installed : Bool) : Except Fault Unit × Bool :=
  if installed then (.ok (), true)
  else if Filter.isValid settings.filter then (.ok (), true)
  else (.error (.filter settings.filter), false)

end LanguageClient.Log
