import LanguageClient.Log.Pattern
import LanguageClient.Text.Alphanumeric
import LanguageClient.Text.Blank
import LanguageClient.Toml.Scalar

namespace LanguageClient.Log.Pattern

/-- What is known while a pattern is read: whether blanks and comments in it are skipped, and the
names of its groups. -/
structure Reading where
  spaced : Bool := false
  names : List (List Char) := []

def skipBlanks : Bool → List Char → List Char
  | _, [] => []
  | true, c :: rest => skipBlanks (c ≠ '\n') rest
  | false, c :: rest =>
    if c = '#' then skipBlanks true rest
    else if Text.isBlank c then skipBlanks false rest
    else c :: rest

def Reading.skip (r : Reading) (cs : List Char) : List Char :=
  if r.spaced then skipBlanks false cs else cs

def hexDigits? (r : Reading) : Nat → Nat → List Char → Option (Nat × List Char)
  | 0, value, cs => some (value, r.skip cs)
  | count + 1, value, cs => match r.skip cs with
    | c :: rest => do hexDigits? r count (value * 16 + (← Radix.digit? c)) rest
    | [] => none

def control? : Char → Option Char
  | 'a' => some '\x07'
  | 'f' => some '\x0c'
  | 't' => some '\t'
  | 'n' => some '\n'
  | 'r' => some '\r'
  | 'v' => some '\x0b'
  | _ => none

/-- Reads an escape after its backslash and says what follows it. Properties of characters, groups
matched before, and what has a meaning in no pattern are refused. -/
def escape? (r : Reading) : List Char → Option (Pattern × List Char)
  | [] => none
  | c :: rest =>
    let code (count : Nat) (isByte : Bool) : Option (Pattern × List Char) := do
      let (value, rest) ← hexDigits? r count 0 rest
      return (literal ⟨← Toml.charOf? value, isByte⟩, rest)
    match c with
    | 'x' => code 2 true
    | 'u' => code 4 false
    | 'U' => code 8 false
    | 'd' | 's' | 'w' => some (set (.kind false), rest)
    | 'D' | 'S' | 'W' => some (set (.kind true), rest)
    | 'A' | 'z' => some (edge, rest)
    | 'b' | 'B' | '<' | '>' => some (wordEdge, rest)
    | c => match control? c with
      | some d => some (literal ⟨d, false⟩, rest)
      | none => if c.isAlphanum || 0x80 ≤ c.toNat then none else some (literal ⟨c, false⟩, rest)

def classNames : List String :=
  ["alnum", "alpha", "ascii", "blank", "cntrl", "digit", "graph", "lower", "print", "punct", "space",
    "upper", "word", "xdigit"]

def className? : List Char → Option (CharSet × List Char)
  | ':' :: rest =>
    let (negated, rest) := match rest with
      | '^' :: rest => (true, rest)
      | rest => (false, rest)
    match rest.dropWhile (· ≠ ':') with
    | ':' :: ']' :: after =>
      if classNames.contains (String.ofList (rest.takeWhile (· ≠ ':'))) then
        some (.named negated, after)
      else none
    | _ => none
  | _ => none

def member? (r : Reading) : List Char → Option (Pattern × List Char)
  | '\\' :: rest => escape? r rest
  | c :: rest => some (literal ⟨c, false⟩, rest)
  | [] => none

def part? (r : Reading) (cs : List Char) : Option (CharSet × List Char) := do
  let (first, rest) ← member? r cs
  let rest := r.skip rest
  let isRange := match rest with
    | '-' :: rest => match r.skip rest with
      | ']' :: _ | '-' :: _ => false
      | _ => true
    | _ => false
  match first, isRange with
  | literal first, true =>
    match ← member? r (r.skip (rest.drop 1)) with
    | (literal last, rest) =>
      if first.char ≤ last.char then some (.range first last, rest) else none
    | _ => none
  | literal l, false => some (.range l l, rest)
  | set s, false => some (s, rest)
  | _, _ => none

/-- The characters right after an opening bracket that stand for themselves: dashes, or a closing
bracket. -/
def opening (r : Reading) : Nat → List CharSet → List Char → List CharSet × List Char
  | 0, seen, cs => (seen, cs)
  | fuel + 1, seen, cs => match r.skip cs, seen with
    | '-' :: rest, seen => opening r fuel (.range ⟨'-', false⟩ ⟨'-', false⟩ :: seen) rest
    | ']' :: rest, [] => ([.range ⟨']', false⟩ ⟨']', false⟩], rest)
    | rest, seen => (seen, rest)

mutual

def set? (r : Reading) : Nat → List Char → Option (CharSet × List Char)
  | 0, _ => none
  | fuel + 1, cs => do
    let (negated, rest) := match r.skip cs with
      | '^' :: rest => (true, rest)
      | rest => (false, rest)
    let (seen, rest) := opening r fuel [] rest
    let (inner, rest) ← parts? r fuel none seen rest
    return (.bracketed negated inner, rest)

/-- Reads the parts of a set, last first, and what they are combined with, up to the closing
bracket. -/
def parts? (r : Reading) :
    Nat → Option CharSet → List CharSet → List Char → Option (CharSet × List Char)
  | 0, _, _, _ => none
  | fuel + 1, left, seen, cs =>
    let whole := match left with
      | some left => .combined left (.ofParts seen.reverse)
      | none => .ofParts seen.reverse
    match r.skip cs with
    | [] => none
    | ']' :: rest => some (whole, rest)
    | '&' :: '&' :: rest | '-' :: '-' :: rest | '~' :: '~' :: rest => parts? r fuel (some whole) [] rest
    | '[' :: rest => do
      let (part, rest) ← (className? rest) <|> set? r fuel rest
      parts? r fuel left (part :: seen) rest
    | cs => do
      let (part, rest) ← part? r cs
      parts? r fuel left (part :: seen) rest

end

/-- The letters that change how a pattern is read, after a dash those that are switched off, without
one twice. -/
def isModes (cs : List Char) : Bool :=
  cs.all (fun c => "imsUuRx-".toList.contains c) && cs.eraseDups.length = cs.length
    && cs.getLast? ≠ some '-'

def switch? (letter : Char) (cs : List Char) : Option Bool :=
  if !cs.contains letter then none else some (!(cs.takeWhile (· ≠ letter)).contains '-')

def isGroupName : List Char → Bool
  | [] => false
  | c :: rest =>
    (c = '_' || Text.isAlphabetic c)
      && rest.all fun c => c = '_' || c = '.' || c = '[' || c = ']' || Text.isAlphanumeric c

inductive Opening where
  | group (c : ModeChange) (r : Reading)
  /-- No group, but a change for the rest of the one around it. -/
  | change (c : ModeChange) (r : Reading)

def name? (r : Reading) (cs : List Char) : Option (Opening × List Char) :=
  let name := cs.takeWhile (· ≠ '>')
  match cs.dropWhile (· ≠ '>') with
  | '>' :: rest =>
    if isGroupName name && !r.names.contains name then
      some (.group {} { r with names := name :: r.names }, rest)
    else none
  | _ => none

def modes? (r : Reading) (cs : List Char) : Option (Opening × List Char) :=
  let isEnd (c : Char) : Bool := c = ':' || c = ')'
  let letters := cs.takeWhile (!isEnd ·)
  let c : ModeChange := { caseless := switch? 'i' letters, unicode := switch? 'u' letters }
  let r := { r with spaced := (switch? 'x' letters).getD r.spaced }
  if !isModes letters then none
  else match cs.dropWhile (!isEnd ·) with
    | ':' :: rest => some (.group c r, rest)
    | ')' :: rest => if letters.isEmpty then none else some (.change c r, rest)
    | _ => none

/-- Reads what follows an opening parenthesis. Looking ahead or back is refused. -/
def opening? (r : Reading) (cs : List Char) : Option (Opening × List Char) :=
  match r.skip cs with
  | '?' :: 'P' :: '<' :: rest => name? r rest
  | '?' :: '<' :: '=' :: _ | '?' :: '<' :: '!' :: _ => none
  | '?' :: '<' :: rest => name? r rest
  | '?' :: rest => modes? r rest
  | rest => some (.group {} r, rest)

/-- The sequence with its last pattern repeated; the last comes first. There must be one, and it is
no change of mode. -/
def repeatLast? : List Pattern → Option (List Pattern)
  | [] | change _ :: _ => none
  | p :: seen => some (repeated p :: seen)

/-- Reads choices with bars between two, the patterns of the present one last first, up to a closing
parenthesis or the end. -/
def choices? : Nat → Reading → List Pattern → List Pattern → List Char →
    Option (Pattern × Reading × List Char)
  | 0, _, _, _, _ => none
  | fuel + 1, r, before, seen, cs =>
    let present := ofSequence seen.reverse
    let whole := ofChoices (before.reverse ++ [present])
    match r.skip cs with
    | [] => some (whole, r, [])
    | ')' :: rest => some (whole, r, ')' :: rest)
    | '|' :: rest => choices? fuel r (present :: before) [] rest
    | '(' :: rest => do
      match ← opening? r rest with
      | (.change c inner, rest) => choices? fuel inner before (change c :: seen) rest
      | (.group c inner, rest) => match ← choices? fuel inner [] [] rest with
        | (p, inner, ')' :: rest) =>
          choices? fuel { r with names := inner.names } before (group c p :: seen) rest
        | _ => none
    | '[' :: rest => do
      let (s, rest) ← set? r fuel rest
      choices? fuel r before (set s :: seen) rest
    | '*' :: rest | '+' :: rest | '?' :: rest => do
      let rest := match rest with
        | '?' :: rest => rest
        | rest => rest
      choices? fuel r before (← repeatLast? seen) rest
    | '{' :: _ => none
    | '\\' :: rest => do
      let (p, rest) ← escape? r rest
      choices? fuel r before (p :: seen) rest
    | '.' :: rest => choices? fuel r before (any :: seen) rest
    | '^' :: rest | '$' :: rest => choices? fuel r before (edge :: seen) rest
    | c :: rest => choices? fuel r before (literal ⟨c, false⟩ :: seen) rest

def ofChars? (cs : List Char) : Option Pattern :=
  match choices? (2 * cs.length + 2) {} [] [] cs with
  | some (p, _, []) => some p
  | _ => none

end LanguageClient.Log.Pattern
