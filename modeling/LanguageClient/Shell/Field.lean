import LanguageClient.Shell.Pattern

namespace LanguageClient.Shell

inductive Fragment where
  /-- A piece of the script, or anything within quotes. -/
  | text (bytes : Bytes) (quoted : Bool)
  | value (bytes : Bytes)
  | gap

namespace Fragment

def loose : Fragment → Fragment
  | text bytes false => value bytes
  | fragment => fragment

def bytes (between : Bytes) : Fragment → Bytes
  | text bytes _ | value bytes => bytes
  | gap => between

def expanded (bytes : Bytes) (quoted : Bool) : Fragment :=
  if quoted then text bytes true else value bytes

/-- The text of fragments, with the first separator between fields. -/
def join (separators : Bytes) (fragments : List Fragment) : Bytes :=
  (fragments.map (bytes (separators.take 1))).flatten

/-- Fragments as a pattern, after a text without quotes: only what was not quoted holds pattern
characters. -/
def pattern (before : Bytes) : List Fragment → List Glob
  | [] => Glob.ofBytes (before.length + 1) before
  | text bytes true :: rest =>
    Glob.ofBytes (before.length + 1) before ++ bytes.map .byte ++ pattern [] rest
  | fragment :: rest => pattern (before ++ fragment.bytes [32]) rest

end Fragment

namespace Field

def isBlank (b : UInt8) : Bool := b = 32 || b = 9 || b = 10

/-- Fields read so far, the newest first, the one that is open, its last byte first, and whether the
last one was ended by a blank. -/
structure Fields where
  ended : List Bytes := []
  opened : Option Bytes := none
  afterBlank : Bool := false

namespace Fields

def close (f : Fields) (byBlank : Bool) : Fields :=
  match f.opened with
  | some field => ⟨field.reverse :: f.ended, none, byBlank⟩
  | none => f

def push (f : Fields) (b : UInt8) : Fields := { f with opened := some (b :: f.opened.getD []) }

def split (separators : Bytes) (f : Fields) (b : UInt8) : Fields :=
  if !separators.contains b then f.push b
  else if isBlank b then f.close true
  else match f.opened, f.afterBlank with
    | some _, _ => f.close false
    | none, true => { f with afterBlank := false }
    | none, false => { f with ended := [] :: f.ended }

def add (separators : Bytes) (f : Fields) : Fragment → Fields
  | .text bytes quoted =>
    let f := if quoted then { f with opened := some (f.opened.getD []) } else f
    bytes.foldl push f
  | .value bytes => bytes.foldl (split separators) f
  | .gap => f.close false

end Fields

/-- The fields that the fragments of a word fall into. -/
def ofFragments (separators : Bytes) (fragments : List Fragment) : List Bytes :=
  ((fragments.foldl (Fields.add separators) {}).close false).ended.reverse

def dropBlanks (separators text : Bytes) : Bytes :=
  text.dropWhile fun b => isBlank b && separators.contains b

/-- What follows a field: a separator that is no blank, and blanks around it. -/
def dropSeparator (separators text : Bytes) : Bytes :=
  match dropBlanks separators text with
  | b :: rest => if separators.contains b then dropBlanks separators rest else b :: rest
  | [] => []

/-- The fields of a line for names. The last name takes the rest of the line, but not the separator
that ends it where the rest is one field. -/
def assigned (separators : Bytes) : List String → Bytes → List (String × Bytes)
  | [], _ => []
  | [name], line =>
    let rest := dropBlanks separators line
    let field := rest.takeWhile (!separators.contains ·)
    if (dropSeparator separators (rest.drop field.length)).isEmpty then [(name, field)]
    else [(name, (dropBlanks separators rest.reverse).reverse)]
  | name :: names, line =>
    let line := dropBlanks separators line
    let field := line.takeWhile (!separators.contains ·)
    (name, field) :: assigned separators names (dropSeparator separators (line.drop field.length))

end Field

end LanguageClient.Shell
