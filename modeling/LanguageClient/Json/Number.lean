import LanguageClient.Json.Basic
import LanguageClient.Text.Decimal

namespace LanguageClient.Json

structure NumberLiteral where
  negative : Bool
  whole : List Char
  fraction : List Char
  /-- The sign (true for minus) and the digits of an exponent. -/
  exponent : Option (Bool × List Char)
  pointed : Bool

namespace NumberLiteral

/-- Splits off an exponent: nothing, or `e` with an optional sign and at least one digit. -/
def exponent? : List Char → Option (Option (Bool × List Char))
  | [] => some none
  | e :: rest =>
    if e = 'e' || e = 'E' then
      let (minus, ds) := match rest with
        | '-' :: ds => (true, ds)
        | '+' :: ds => (false, ds)
        | ds => (false, ds)
      if ds.isEmpty || !ds.all Decimal.isDigit then none else some (some (minus, ds))
    else none

/-- Reads a whole literal: no leading zeros, digits on both sides of a point. -/
def ofChars? (cs : List Char) : Option NumberLiteral := do
  let (negative, cs) := match cs with
    | '-' :: rest => (true, rest)
    | rest => (false, rest)
  let whole := cs.takeWhile Decimal.isDigit
  let rest := cs.dropWhile Decimal.isDigit
  if whole.isEmpty || (whole.head? = some '0' && whole.length > 1) then none
  match rest with
  | '.' :: rest =>
    let fraction := rest.takeWhile Decimal.isDigit
    if fraction.isEmpty then none
    let exponent ← exponent? (rest.dropWhile Decimal.isDigit)
    some { negative, whole, fraction, exponent, pointed := true }
  | rest =>
    let exponent ← exponent? rest
    some { negative, whole, fraction := [], exponent, pointed := false }

/-- The nearest number with 53 significant bits, a tie going to the even one. -/
def roundTo53 (n : Nat) : Nat :=
  if n < 1 <<< 53 then n
  else
    let unit := 1 <<< (n.log2 - 52)
    let q := n / unit
    let r := n % unit
    if 2 * r < unit || (2 * r = unit && q % 2 = 0) then q * unit else (q + 1) * unit

/-- The digits that fit 64 bits, as a number, and how many digits follow them. -/
def significand : Nat → List Char → Nat × Nat
  | n, [] => (n, 0)
  | n, c :: cs =>
    let next := n * 10 + Decimal.digitValue c
    if next < 1 <<< 64 then significand next cs else (n, (c :: cs).length)

def exponentValue (l : NumberLiteral) : Int :=
  match l.exponent with
  | none => 0
  | some (minus, ds) => if minus then -(Decimal.value ds : Int) else Decimal.value ds

/-- Whether the double nearest to the literal is infinite: the significand that fits 64 bits and
the power of ten are each rounded to 53 bits, and so is their product. -/
def overflows (l : NumberLiteral) : Bool :=
  let (n, dropped) := significand 0 (l.whole ++ l.fraction)
  let e := l.exponentValue + dropped - l.fraction.length
  n ≠ 0 && 0 ≤ e &&
    (308 < e || 1 <<< 1024 - 1 <<< 970 ≤ roundTo53 n * roundTo53 (Nat.pow 10 e.toNat))

/-- Whether the double nearest to the literal is infinite: halfway between the largest double and
the next power of two, and from there on. -/
def roundsToInfinity (l : NumberLiteral) : Bool :=
  let n := Decimal.value (l.whole ++ l.fraction)
  let e := l.exponentValue - l.fraction.length
  let halfway := 1 <<< 1024 - 1 <<< 970
  if n = 0 then false
  else if 0 ≤ e then 308 < e || halfway ≤ n * Nat.pow 10 e.toNat
  else (l.whole.length + l.fraction.length : Int) + e > 308 &&
    halfway * Nat.pow 10 (-e).toNat ≤ n

/-- The literal as a real number, or `null` when the nearest double is not finite. -/
def real (l : NumberLiteral) : Json :=
  let n := Decimal.value (l.whole ++ l.fraction)
  if l.roundsToInfinity then .null
  else .real (if l.negative then -(n : Int) else n) (l.exponentValue - l.fraction.length)

def value? (l : NumberLiteral) : Option Json :=
  let n := Decimal.value (l.whole ++ l.fraction)
  let signed : Int := if l.negative then -(n : Int) else n
  let isWhole := !l.pointed && l.exponent.isNone
  if isWhole && (if l.negative then n ≠ 0 && n ≤ 1 <<< 63 else n < 1 <<< 64) then some (.int signed)
  else if l.overflows then none
  else some (.real signed (l.exponentValue - l.fraction.length))

end NumberLiteral

end LanguageClient.Json
