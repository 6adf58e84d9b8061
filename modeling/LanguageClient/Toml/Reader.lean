import LanguageClient.Toml.Scalar
import LanguageClient.Toml.Table

namespace LanguageClient.Toml

def skipIdle? : Bool → List Char → Option (List Char)
  | _, [] => some []
  | _, '\n' :: rest | _, '\r' :: '\n' :: rest => skipIdle? false rest
  | true, c :: rest => if isPrintable c then skipIdle? true rest else none
  | false, '#' :: rest => skipIdle? true rest
  | false, c :: rest => if isSpace c then skipIdle? false rest else some (c :: rest)

def endLine? (cs : List Char) : Option (List Char) :=
  let rest := match cs.dropWhile isSpace with
    | '#' :: rest => rest.dropWhile isPrintable
    | rest => rest
  match rest with
  | [] => some []
  | '\n' :: rest | '\r' :: '\n' :: rest => some rest
  | _ => none

def isKeyChar (c : Char) : Bool := c.isAlphanum || c = '_' || c = '-'

def simpleKey? : List Char → Option (String × List Char)
  | '"' :: rest => (basic? .line .plain [] rest).map fun (key, rest) => (String.ofList key, rest)
  | '\'' :: rest => (literal? .line [] rest).map fun (key, rest) => (String.ofList key, rest)
  | cs =>
    let key := cs.takeWhile isKeyChar
    if key.isEmpty then none else some (String.ofList key, cs.dropWhile isKeyChar)

/-- How many keys there are fewer than in a dotted one, and how many brackets fewer than around a
value. -/
def depthLimit : Nat := 80

/-- Reads at most `limit` keys with a dot between two, and blanks around each, and says what follows
them. -/
def keys? : Nat → List Char → Option (List String × List Char)
  | 0, _ => none
  | limit + 1, cs => do
    let (key, rest) ← simpleKey? (cs.dropWhile isSpace)
    match rest.dropWhile isSpace with
    | '.' :: rest =>
      let (keys, rest) ← keys? limit rest
      return (key :: keys, rest)
    | rest => return ([key], rest)

def key? (cs : List Char) : Option (List String × List Char) := keys? (depthLimit - 1) cs

def isBareChar (c : Char) : Bool := isKeyChar c || c = '+' || c = '.' || c = ':'

/-- Parts off a value without quotes. A blank between a date and a time belongs to it. -/
def takeBare (cs : List Char) : List Char × List Char :=
  let first := cs.takeWhile isBareChar
  match date? first, cs.dropWhile isBareChar with
  | some [], ' ' :: d :: rest =>
    if Decimal.isDigit d then
      (first ++ ' ' :: (d :: rest).takeWhile isBareChar, (d :: rest).dropWhile isBareChar)
    else (first, ' ' :: d :: rest)
  | _, rest => (first, rest)

def scalar? : List Char → Option (Json × List Char)
  | '"' :: '"' :: '"' :: rest => do
    let (text, rest) ← basic? .lines .plain [] (dropLineEnd rest)
    return (.str (String.ofList text), rest)
  | '"' :: rest => do
    let (text, rest) ← basic? .line .plain [] rest
    return (.str (String.ofList text), rest)
  | '\'' :: '\'' :: '\'' :: rest => do
    let (text, rest) ← literal? .lines [] (dropLineEnd rest)
    return (.str (String.ofList text), rest)
  | '\'' :: rest => do
    let (text, rest) ← literal? .line [] rest
    return (.str (String.ofList text), rest)
  | cs => do
    let (text, rest) := takeBare cs
    return (← bare? text, rest)

mutual

def value? : Nat → Nat → List Char → Option (Json × List Char)
  | 0, _, _ => none
  | _ + 1, 0, '[' :: _ | _ + 1, 0, '{' :: _ => none
  | fuel + 1, depth + 1, '[' :: rest => items? fuel depth [] rest
  | fuel + 1, depth + 1, '{' :: rest => match rest.dropWhile isSpace with
    | '}' :: rest => some (.obj [], rest)
    | rest => members? fuel depth [] rest
  | _ + 1, _, cs => scalar? cs

/-- Reads the items of a list up to its closing bracket. Line ends may stand between them, and a
comma before the bracket. -/
def items? : Nat → Nat → List Json → List Char → Option (Json × List Char)
  | 0, _, _, _ => none
  | fuel + 1, depth, seen, cs => do
    match ← skipIdle? false cs with
    | ']' :: rest => some (.arr seen.reverse, rest)
    | cs =>
      let (item, rest) ← value? fuel depth cs
      match ← skipIdle? false rest with
      | ',' :: rest => items? fuel depth (item :: seen) rest
      | ']' :: rest => some (.arr (item :: seen).reverse, rest)
      | _ => none

def members? : Nat → Nat → Members → List Char → Option (Json × List Char)
  | 0, _, _, _ => none
  | fuel + 1, depth, seen, cs => do
    match ← key? cs with
    | (keys, '=' :: rest) =>
      let (v, rest) ← value? fuel depth (rest.dropWhile isSpace)
      let seen ← seen.assign? v true keys
      match rest.dropWhile isSpace with
      | ',' :: rest => members? fuel depth seen rest
      | '}' :: rest => some (.obj (membersJson seen), rest)
      | _ => none
    | _ => none

end

/-- The tables read so far, and the path of the one that is open. -/
structure Document where
  root : Members := []
  opened : List String := []

namespace Document

def open? (d : Document) (change : String → Members → Option Members) (keys : List String) :
    Option Document := do
  return { root := ← d.root.within? (change (← keys.getLast?)) keys.dropLast, opened := keys }

/-- Reads a line and says what follows it. -/
def line? (d : Document) (cs : List Char) : Option (Document × List Char) := do
  let fuel := 2 * cs.length + 2
  match cs.dropWhile isSpace with
  | [] | '#' :: _ | '\n' :: _ | '\r' :: _ => return (d, ← endLine? cs)
  | '[' :: '[' :: rest => match ← key? rest with
    | (keys, ']' :: ']' :: rest) => return (← d.open? Members.extend? keys, ← endLine? rest)
    | _ => none
  | '[' :: rest => match ← key? rest with
    | (keys, ']' :: rest) => return (← d.open? Members.state? keys, ← endLine? rest)
    | _ => none
  | cs => match ← key? cs with
    | (keys, '=' :: rest) =>
      let (v, rest) ← value? fuel (depthLimit - 1) (rest.dropWhile isSpace)
      return ({ d with root := ← d.root.within? (·.assign? v true keys) d.opened }, ← endLine? rest)
    | _ => none

def lines? : Nat → Document → List Char → Option Document
  | _, d, [] => some d
  | 0, _, _ :: _ => none
  | fuel + 1, d, cs => do
    let (d, rest) ← d.line? cs
    lines? fuel d rest

end Document

/-- The object that a document writes. A byte order mark before it is skipped. -/
def ofText? (text : String) : Option (List (String × Json)) := do
  let cs := match text.toList with
    | '\uFEFF' :: rest => rest
    | rest => rest
  return membersJson (← Document.lines? cs.length {} cs).root

end LanguageClient.Toml
