import LanguageClient.Text.Decimal
import LanguageClient.Text.Radix

namespace LanguageClient.Shell.Arithmetic

def isBlank (c : Char) : Bool := c = ' ' || c = '\t' || c = '\n'

def isNameStart (c : Char) : Bool := ('a' ≤ c && c ≤ 'z') || ('A' ≤ c && c ≤ 'Z') || c = '_'

def isNameChar (c : Char) : Bool := isNameStart c || Decimal.isDigit c

/-- The values that names were given, the newest first. -/
abbrev Names := List (String × Int)

/-- What an operator does to two numbers; a division by zero has no value. -/
abbrev Operation := Int → Int → Option Int

def truth (b : Bool) : Int := if b then 1 else 0

def wrap (n : Int) : Int := n.bmod (1 <<< 64)

def bits (n : Int) : Nat := (n % 1 <<< 64).toNat

def largest : Int := 1 <<< 63 - 1

/-- Reads an operator: its rank, what it does, and what follows it. Quotients are cut toward
zero. -/
def operator? : List Char → Option (Nat × Operation × List Char)
  | '*' :: rest => some (8, fun a b => some (a * b), rest)
  | '/' :: rest => some (8, fun a b => if b = 0 then none else some (a.tdiv b), rest)
  | '%' :: rest => some (8, fun a b => if b = 0 then none else some (a.tmod b), rest)
  | '+' :: rest => some (7, fun a b => some (a + b), rest)
  | '-' :: rest => some (7, fun a b => some (a - b), rest)
  | '<' :: '<' :: rest => some (6, fun a b => some (a * 1 <<< (bits b % 64)), rest)
  | '>' :: '>' :: rest => some (6, fun a b => some (a / 1 <<< (bits b % 64)), rest)
  | '<' :: '=' :: rest => some (5, fun a b => some (truth (a ≤ b)), rest)
  | '>' :: '=' :: rest => some (5, fun a b => some (truth (b ≤ a)), rest)
  | '<' :: rest => some (5, fun a b => some (truth (a < b)), rest)
  | '>' :: rest => some (5, fun a b => some (truth (b < a)), rest)
  | '=' :: '=' :: rest => some (4, fun a b => some (truth (a = b)), rest)
  | '!' :: '=' :: rest => some (4, fun a b => some (truth (a ≠ b)), rest)
  | '&' :: '&' :: _ | '|' :: '|' :: _ => none
  | '&' :: rest => some (3, fun a b => some (bits a &&& bits b), rest)
  | '^' :: rest => some (2, fun a b => some (bits a ^^^ bits b), rest)
  | '|' :: rest => some (1, fun a b => some (bits a ||| bits b), rest)
  | _ => none

/-- Reads the sign of an assignment: what is done to the old value and the new one, unless the old
one does not matter, and what follows it. -/
def assignment? : List Char → Option (Option Operation × List Char)
  | '=' :: '=' :: _ => none
  | '=' :: rest => some (none, rest)
  | cs => match operator? cs with
    | some (rank, operation, '=' :: rest) =>
      if rank = 4 || rank = 5 then none else some (some operation, rest)
    | _ => none

/-- Reads a number: hexadecimal after `0x`, octal after a zero. -/
def literal : List Char → Int × List Char
  | '0' :: c :: d :: cs =>
    if (c = 'x' || c = 'X') && Radix.isDigit 16 d then
      (Radix.value 16 (Radix.leading 16 (d :: cs)), (d :: cs).dropWhile (Radix.isDigit 16))
    else
      let cs := c :: d :: cs
      (Radix.value 8 (Radix.leading 8 cs), cs.dropWhile (Radix.isDigit 8))
  | '0' :: cs => (Radix.value 8 (Radix.leading 8 cs), cs.dropWhile (Radix.isDigit 8))
  | cs => (Radix.value 10 (Radix.leading 10 cs), cs.dropWhile (Radix.isDigit 10))

mutual

/-- Reads a number, a name, an operand with a sign before it or an expression in parentheses, and
gives its value, the names assigned so far and what follows it. The first argument bounds the depth
of the recursion by the length of the expression. What is idle is read, but it assigns nothing. -/
def operand (valueOf : String → Option Int) :
    Nat → Bool → Names → List Char → Option (Int × Names × List Char)
  | 0, _, _, _ => none
  | n + 1, idle, names, cs =>
    match cs.dropWhile isBlank with
    | '-' :: rest => (operand valueOf n idle names rest).map fun (v, r) => (wrap (-v), r)
    | '+' :: rest => operand valueOf n idle names rest
    | '!' :: rest => (operand valueOf n idle names rest).map fun (v, r) => (truth (v = 0), r)
    | '~' :: rest => (operand valueOf n idle names rest).map fun (v, r) => (-v - 1, r)
    | '(' :: rest => do
      let (v, names, rest) ← expression valueOf n idle names rest
      match rest.dropWhile isBlank with
      | ')' :: rest => some (v, names, rest)
      | _ => none
    | c :: rest =>
      let cs := c :: rest
      if Decimal.isDigit c then
        let (v, rest) := literal cs
        some (min v largest, names, rest)
      else if isNameStart c then
        let name := String.ofList (cs.takeWhile isNameChar)
        let rest := cs.dropWhile isNameChar
        if idle then some (0, names, rest)
        else ((names.lookup name) <|> valueOf name).map fun v => (v, names, rest)
      else none
    | [] => none

def applied (valueOf : String → Option Int) :
    Nat → Bool → Nat → Int → Names → List Char → Option (Int × Names × List Char)
  | 0, _, _, _, _, _ => none
  | n + 1, idle, least, left, names, cs =>
    match operator? (cs.dropWhile isBlank) with
    | some (rank, operation, rest) =>
      if rank < least then some (left, names, cs)
      else do
        let (first, names, rest) ← operand valueOf n idle names rest
        let (right, names, rest) ← applied valueOf n idle (rank + 1) first names rest
        let v ← if idle then some 0 else operation left right
        applied valueOf n idle least (wrap v) names rest
    | none => some (left, names, cs)

def both (valueOf : String → Option Int) :
    Nat → Bool → Names → List Char → Option (Int × Names × List Char)
  | 0, _, _, _ => none
  | n + 1, idle, names, cs => do
    let (first, names, rest) ← operand valueOf n idle names cs
    let (a, names, rest) ← applied valueOf n idle 1 first names rest
    match rest.dropWhile isBlank with
    | '&' :: '&' :: rest =>
      let (b, names, rest) ← both valueOf n (idle || a = 0) names rest
      some (truth (a ≠ 0 && b ≠ 0), names, rest)
    | _ => some (a, names, rest)

def either (valueOf : String → Option Int) :
    Nat → Bool → Names → List Char → Option (Int × Names × List Char)
  | 0, _, _, _ => none
  | n + 1, idle, names, cs => do
    let (a, names, rest) ← both valueOf n idle names cs
    match rest.dropWhile isBlank with
    | '|' :: '|' :: rest =>
      let (b, names, rest) ← either valueOf n (idle || a ≠ 0) names rest
      some (truth (a ≠ 0 || b ≠ 0), names, rest)
    | _ => some (a, names, rest)

def choice (valueOf : String → Option Int) :
    Nat → Bool → Names → List Char → Option (Int × Names × List Char)
  | 0, _, _, _ => none
  | n + 1, idle, names, cs => do
    let (v, names, rest) ← either valueOf n idle names cs
    match rest.dropWhile isBlank with
    | '?' :: rest =>
      let (yes, names, rest) ← expression valueOf n (idle || v = 0) names rest
      match rest.dropWhile isBlank with
      | ':' :: rest =>
        let (no, names, rest) ← choice valueOf n (idle || v ≠ 0) names rest
        some (if v ≠ 0 then yes else no, names, rest)
      | _ => none
    | rest => some (v, names, rest)

def expression (valueOf : String → Option Int) :
    Nat → Bool → Names → List Char → Option (Int × Names × List Char)
  | 0, _, _, _ => none
  | n + 1, idle, names, cs =>
    let cs := cs.dropWhile isBlank
    let name := if cs.head?.any isNameStart then cs.takeWhile isNameChar else []
    match if name.isEmpty then none else assignment? ((cs.drop name.length).dropWhile isBlank) with
    | some (operation?, rest) => do
      let (right, names, rest) ← expression valueOf n idle names rest
      if idle then some (right, names, rest)
      else
        let name := String.ofList name
        let v ← match operation? with
          | some operation => operation (← (names.lookup name) <|> valueOf name) right
          | none => some right
        some (wrap v, (name, wrap v) :: names, rest)
    | none => choice valueOf n idle names cs

end

/-- The value of a whole expression, with the values of its names, and the names that it assigns. -/
def value? (valueOf : String → Option Int) (cs : List Char) : Option (Int × Names) := do
  let (v, names, rest) ← expression valueOf (cs.length * 6 + 6) false [] cs
  if (rest.dropWhile isBlank).isEmpty then some (v, names) else none

end LanguageClient.Shell.Arithmetic
