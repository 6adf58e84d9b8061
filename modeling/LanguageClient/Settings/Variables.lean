import LanguageClient.Json.Number
import LanguageClient.Settings.Layer
import LanguageClient.Text.Blank
import LanguageClient.Text.Utf8
import LanguageClient.Toml.Scalar

namespace LanguageClient.Settings.Variable

/-- What the name of every variable starts with, in any mixture of cases. -/
def namePrefix : List Char := "tether_".toList

def isSpace (c : Char) : Bool := c = ' ' || c = '\t' || c = '\n' || c = '\r' || c = '\x0c'

def isSeparator (c : Char) : Bool := c = ',' || c = '{' || c = '}' || c = '[' || c = ']'

/-- Reads a quoted text after its opening quote, up to its closing one: a text within a line of TOML.
When it has a backslash, as many bytes are kept of what stands before the first one as there are
characters. -/
def quoted? (cs : List Char) : Option (List Char × List Char) := do
  let isPlain (c : Char) : Bool := c ≠ '\\' && c ≠ '"'
  let (text, rest) ← Toml.basic? .line .plain [] cs
  match cs.dropWhile isPlain with
  | '\\' :: _ =>
    let plain := cs.takeWhile isPlain
    return ((← Utf8.cut? plain plain.length).1 ++ text.drop plain.length, rest)
  | _ => return (text, rest)

/-- The literal of a number with a point, which needs a digit on one side of it only. -/
def pointed? (cs : List Char) : Option Json.NumberLiteral :=
  let (negative, body) := Toml.signed cs
  let whole := body.takeWhile Decimal.isDigit
  match body.dropWhile Decimal.isDigit with
  | '.' :: rest => do
    let fraction := rest.takeWhile Decimal.isDigit
    if whole.isEmpty && fraction.isEmpty then none
    let exponent ← Json.NumberLiteral.exponent? (rest.dropWhile Decimal.isDigit)
    return { negative, whole, fraction, exponent, pointed := true }
  | _ => none

def plain (cs : List Char) : Json :=
  match pointed? cs, Decimal.readSigned? cs with
  | some l, _ => l.real
  | none, some n => if -(1 <<< 63) ≤ n && n < 1 <<< 64 then .int n else .str (String.ofList cs)
  | none, none => .str (String.ofList cs)

def afterWord? (word : String) (cs : List Char) : Option (List Char) :=
  if (cs.take word.length).map Char.toLower = word.toList then some (cs.drop word.length) else none

def truth? (cs : List Char) : Option (Json × List Char) :=
  ((afterWord? "true" cs).map fun rest => (.bool true, rest))
    <|> (afterWord? "false" cs).map fun rest => (.bool false, rest)

def scalar? (cs : List Char) : Option (Json × List Char) :=
  (truth? cs) <|> match cs with
    | '"' :: rest => (quoted? rest).map fun (text, rest) => (.str (String.ofList text), rest)
    | '\'' :: c :: '\'' :: rest => some (.str (String.ofList [c]), rest)
    | '\'' :: _ => none
    | cs => some (plain (Text.trim (cs.takeWhile (!isSeparator ·))), cs.dropWhile (!isSeparator ·))

def key? : List Char → Option (List Char × List Char)
  | '"' :: rest => quoted? rest
  | cs =>
    let isKeyChar (c : Char) : Bool := c.isAlphanum || c = '_' || c = '-'
    let key := cs.takeWhile isKeyChar
    if key.isEmpty then none else some (key, cs.dropWhile isKeyChar)

mutual

def value? : Nat → List Char → Option (Json × List Char)
  | 0, _ => none
  | fuel + 1, cs => do
    let (value, rest) ← match cs.dropWhile isSpace with
      | '[' :: rest => items? fuel [] rest
      | '{' :: rest => members? fuel [] rest
      | cs => scalar? cs
    return (value, rest.dropWhile isSpace)

/-- Reads the items of a list up to its closing bracket; a comma may stand before the bracket. -/
def items? : Nat → List Json → List Char → Option (Json × List Char)
  | 0, _, _ => none
  | _ + 1, seen, ']' :: rest => some (.arr seen.reverse, rest)
  | fuel + 1, seen, cs => do
    let (item, rest) ← value? fuel cs
    match rest with
    | ',' :: rest => items? fuel (item :: seen) rest
    | ']' :: rest => some (.arr (item :: seen).reverse, rest)
    | _ => none

def members? : Nat → List (String × Json) → List Char → Option (Json × List Char)
  | 0, _, _ => none
  | _ + 1, seen, '}' :: rest => some (.obj seen.reverse, rest)
  | fuel + 1, seen, cs => do
    let (key, rest) ← key? (cs.dropWhile isSpace)
    match rest.dropWhile isSpace with
    | '=' :: rest =>
      let (value, rest) ← value? fuel rest
      match rest with
      | ',' :: rest => members? fuel ((String.ofList key, value) :: seen) rest
      | '}' :: rest => some (.obj ((String.ofList key, value) :: seen).reverse, rest)
      | _ => none
    | _ => none

end

/-- Whether a text is a list without brackets: it has a comma, and does not start like a value that
could contain one. -/
def isBareList (cs : List Char) : Bool :=
  cs.contains ',' && match cs with
    | '[' :: _ | '{' :: _ | '"' :: _ | '\'' :: _ => false
    | _ => true

/-- The value that a variable's text writes. A text that is no whole value is itself. -/
def value (text : String) : Json :=
  let cs := Text.trim text.toList
  if isBareList cs then .arr ((cs.splitOn ',').map fun item => .str (String.ofList (Text.trim item)))
  else match value? (2 * cs.length + 2) cs with
    | some (value, []) => value
    | _ => .str (String.ofList cs)

/-- Splits a name at its dots and at two underscores. -/
def parts : List Char → List (List Char)
  | '_' :: '_' :: rest | '.' :: rest => [] :: parts rest
  | c :: rest => match parts rest with
    | part :: more => (c :: part) :: more
    | [] => [[c]]
  | [] => [[]]

/-- The names that lead to the value of a variable with this name: those of a setting and of members
within it. None of them is empty. -/
def path? (given : String) : Option (List String) :=
  let name := given.toList.map Char.toLower
  let path := parts (Text.trim (name.drop namePrefix.length))
  if namePrefix.isPrefixOf name && path.all (!·.isEmpty) then some (path.map String.ofList) else none

def within (value : Json) (names : List String) : Json :=
  names.foldr (fun name inner => .obj [(name, inner)]) value

def entry? (given : String × String) : Option (String × Json) := do
  match ← path? given.1 with
  | name :: names => some (name, within (value given.2) names)
  | [] => none

end LanguageClient.Settings.Variable

namespace LanguageClient.Settings

/-- The layer that an environment gives. Of variables that give one setting the last wins. -/
def variableLayer (environment : List (String × String)) : Layer :=
  Json.sortMembers (environment.filterMap Variable.entry?)

end LanguageClient.Settings
