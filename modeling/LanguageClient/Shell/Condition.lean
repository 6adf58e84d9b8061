import LanguageClient.Shell.Field
import LanguageClient.Text.Decimal
import LanguageClient.Text.Utf8

namespace LanguageClient.Shell

/-- The characters of a word, which name commands and options. -/
def nameOf (bytes : Bytes) : String := String.ofList (Utf8.decodeLossy bytes)

namespace Condition

inductive Sign where
  /-- It stands before a word, and says something about it, unless the word is not what it must be. -/
  | property (holds : Bytes → Option Bool)
  | relation (holds : Bytes → Bytes → Option Bool)
  | negation
  | conjunction
  | disjunction
  | opening
  | closing

def number? (word : Bytes) : Option Int :=
  let trimmed := ((word.dropWhile Field.isBlank).reverse.dropWhile Field.isBlank).reverse
  (Decimal.readSigned? (nameOf trimmed).toList).filter fun n =>
    -(1 <<< 63) ≤ n && n < 1 <<< 63

def numeric (holds : Int → Int → Bool) (x y : Bytes) : Option Bool := do
  return holds (← number? x) (← number? y)

/-- The sign that a word is. Nothing is known of files. -/
def sign? (word : Bytes) : Option Sign :=
  match nameOf word with
  | "=" => some (.relation fun x y => some (x = y))
  | "!=" => some (.relation fun x y => some (x ≠ y))
  | "<" => some (.relation fun x y => some (x < y))
  | ">" => some (.relation fun x y => some (y < x))
  | "-eq" => some (.relation (numeric (· = ·)))
  | "-ne" => some (.relation (numeric (· ≠ ·)))
  | "-lt" => some (.relation (numeric (· < ·)))
  | "-le" => some (.relation (numeric (· ≤ ·)))
  | "-gt" => some (.relation (numeric (· > ·)))
  | "-ge" => some (.relation (numeric (· ≥ ·)))
  | "-nt" | "-ot" | "-ef" => some (.relation fun _ _ => some false)
  | "-z" => some (.property fun x => some x.isEmpty)
  | "-n" => some (.property fun x => some !x.isEmpty)
  | "-t" => some (.property fun x => (number? x).map fun _ => false)
  | "-b" | "-c" | "-d" | "-e" | "-f" | "-g" | "-G" | "-h" | "-k" | "-L" | "-O" | "-p" | "-r" | "-s"
  | "-S" | "-u" | "-w" | "-x" => some (.property fun _ => some false)
  | "!" => some .negation
  | "-a" => some .conjunction
  | "-o" => some .disjunction
  | "(" => some .opening
  | ")" => some .closing
  | _ => none

def relation? (word : Bytes) : Option (Bytes → Bytes → Option Bool) :=
  match sign? word with
  | some (.relation holds) => some holds
  | _ => none

/-- The sign at the start of some words. The last word is no property, and neither is one before a
relation. -/
def lead? : List Bytes → Option Sign
  | [] => none
  | word :: rest => match sign? word, rest with
    | some (.property _), [] => none
    | some (.property holds), next :: _ :: _ =>
      if (relation? next).isSome then none else some (.property holds)
    | some .opening, [] => none
    | sign, _ => sign

mutual

def either : Nat → List Bytes → Option (Bool × List Bytes)
  | 0, _ => none
  | n + 1, words => do
    let (first, rest) ← both n words
    match lead? rest with
    | some .disjunction => (either n (rest.drop 1)).map fun (other, rest) => (first || other, rest)
    | _ => return (first, rest)

def both : Nat → List Bytes → Option (Bool × List Bytes)
  | 0, _ => none
  | n + 1, words => do
    let (first, rest) ← negated n words
    match lead? rest with
    | some .conjunction => (both n (rest.drop 1)).map fun (other, rest) => (first && other, rest)
    | _ => return (first, rest)

def negated : Nat → List Bytes → Option (Bool × List Bytes)
  | 0, _ => none
  | n + 1, words =>
    match lead? words with
    | some .negation => (negated n (words.drop 1)).map fun (holds, rest) => (!holds, rest)
    | _ => single n words

/-- Reads a word, a relation of two, a property of one, or what stands in parentheses. -/
def single : Nat → List Bytes → Option (Bool × List Bytes)
  | 0, _ => none
  | _ + 1, [] => some (false, [])
  | n + 1, word :: rest =>
    match lead? (word :: rest), rest with
    | some .opening, rest => match lead? rest with
      | some .closing => some (false, rest.drop 1)
      | _ => do
        let (holds, rest) ← either n rest
        match lead? rest with
        | some .closing => some (holds, rest.drop 1)
        | _ => none
    | some (.property holds), x :: rest => (holds x).map fun b => (b, rest)
    | _, rest => match lead? rest, rest with
      | some (.relation holds), _ :: y :: rest => (holds word y).map fun b => (b, rest)
      | some (.relation _), _ => none
      | _, _ => some (!word.isEmpty, rest)

end

def reading? (words : List Bytes) : Option Bool :=
  match either (4 * words.length + 4) words with
  | some (holds, []) => some holds
  | _ => none

/-- Whether a condition holds, if it is one. In one of three words the second is a relation if it
can be; otherwise, in one of three or four words a first sign of negation or parentheses around all
come first. -/
def holds? : List Bytes → Option Bool
  | [] => some false
  | word :: rest =>
    let words := word :: rest
    let related := match rest with
      | [sign, y] => (relation? sign).map fun holds => holds word y
      | _ => none
    match related with
    | some holds => holds
    | none =>
      if rest.length = 2 || rest.length = 3 then
        match sign? word, rest.getLast?.bind sign? with
        | some .opening, some .closing => reading? rest.dropLast
        | some .negation, _ => (holds? rest).map (!·)
        | _, _ => reading? words
      else reading? words

end Condition

end LanguageClient.Shell
