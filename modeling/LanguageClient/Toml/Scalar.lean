import LanguageClient.Json.Number
import LanguageClient.Text.Radix

namespace LanguageClient.Toml

/-- Whether a character may stand in a text or a comment: a tab, or none that controls. -/
def isPrintable (c : Char) : Bool := c = '\t' || (0x20 ≤ c.toNat && c.toNat ≠ 0x7F)

def isSpace (c : Char) : Bool := c = ' ' || c = '\t'

/-- A text over several lines, opened by three quotes, or one within a line. -/
inductive Extent where
  | line
  | lines
  deriving DecidableEq

inductive Mode where
  | plain
  | escape
  /-- The digits of a code point: how many are left, and their value so far. -/
  | code (left value : Nat)
  /-- The blanks around a line's end that a backslash hides; whether the end was passed. -/
  | skip (passed : Bool)

/-- A text of several lines ends with three quotes, and up to two more before them belong to it. -/
def closeLines (quote : Char) (seen rest : List Char) : List Char × List Char :=
  match rest with
  | a :: b :: after =>
    if a = quote && b = quote then ((quote :: quote :: seen).reverse, after)
    else if a = quote then ((quote :: seen).reverse, b :: after)
    else (seen.reverse, rest)
  | [a] => if a = quote then ((quote :: seen).reverse, []) else (seen.reverse, rest)
  | [] => (seen.reverse, [])

def unescape? : Char → Option Char
  | 'b' => some '\x08'
  | 't' => some '\t'
  | 'n' => some '\n'
  | 'f' => some '\x0c'
  | 'r' => some '\r'
  | '"' => some '"'
  | '\\' => some '\\'
  | _ => none

def charOf? (code : Nat) : Option Char :=
  if code < 0xD800 || (0xE000 ≤ code && code < 0x110000) then some (Char.ofNat code) else none

def basic? (extent : Extent) : Mode → List Char → List Char → Option (List Char × List Char)
  | _, _, [] => none
  | .plain, seen, c :: rest =>
    if c = '"' then match extent, rest with
      | .line, rest => some (seen.reverse, rest)
      | .lines, '"' :: '"' :: after => some (closeLines '"' seen after)
      | .lines, rest => basic? extent .plain ('"' :: seen) rest
    else if c = '\\' then basic? extent .escape seen rest
    else if isPrintable c then basic? extent .plain (c :: seen) rest
    else match extent, c, rest with
      | .lines, '\n', rest => basic? extent .plain ('\n' :: seen) rest
      | .lines, '\r', '\n' :: rest => basic? extent .plain ('\n' :: seen) rest
      | _, _, _ => none
  | .escape, seen, c :: rest =>
    match c with
    | 'u' => basic? extent (.code 4 0) seen rest
    | 'U' => basic? extent (.code 8 0) seen rest
    | _ => match unescape? c, extent, c, rest with
      | some d, _, _, rest => basic? extent .plain (d :: seen) rest
      | none, .lines, ' ', rest | none, .lines, '\t', rest => basic? extent (.skip false) seen rest
      | none, .lines, '\n', rest | none, .lines, '\r', '\n' :: rest =>
        basic? extent (.skip true) seen rest
      | _, _, _, _ => none
  | .code left value, seen, c :: rest => do
    let value := value * 16 + (← Radix.digit? c)
    if left ≤ 1 then basic? extent .plain ((← charOf? value) :: seen) rest
    else basic? extent (.code (left - 1) value) seen rest
  | .skip passed, seen, c :: rest =>
    match c, rest with
    | ' ', rest | '\t', rest => basic? extent (.skip passed) seen rest
    | '\n', rest | '\r', '\n' :: rest => basic? extent (.skip true) seen rest
    | '"', rest => if !passed then none else match rest with
      | '"' :: '"' :: after => some (closeLines '"' seen after)
      | rest => basic? extent .plain ('"' :: seen) rest
    | '\\', rest => if passed then basic? extent .escape seen rest else none
    | c, rest => if passed && isPrintable c then basic? extent .plain (c :: seen) rest else none

def literal? (extent : Extent) : List Char → List Char → Option (List Char × List Char)
  | _, [] => none
  | seen, c :: rest =>
    if c = '\'' then match extent, rest with
      | .line, rest => some (seen.reverse, rest)
      | .lines, '\'' :: '\'' :: after => some (closeLines '\'' seen after)
      | .lines, rest => literal? extent ('\'' :: seen) rest
    else if isPrintable c then literal? extent (c :: seen) rest
    else match extent, c, rest with
      | .lines, '\n', rest | .lines, '\r', '\n' :: rest => literal? extent ('\n' :: seen) rest
      | _, _, _ => none

def dropLineEnd : List Char → List Char
  | '\n' :: rest | '\r' :: '\n' :: rest => rest
  | rest => rest

/-- The digits of a group whose digits may be parted by single underscores. -/
def ungroup? (isDigit : Char → Bool) : List Char → Option (List Char)
  | [] => none
  | [c] => if isDigit c then some [c] else none
  | c :: '_' :: rest => if isDigit c then (ungroup? isDigit rest).map (c :: ·) else none
  | c :: rest => if isDigit c then (ungroup? isDigit rest).map (c :: ·) else none

/-- The sign (true for minus) and what follows it. -/
def signed : List Char → Bool × List Char
  | '-' :: rest => (true, rest)
  | '+' :: rest => (false, rest)
  | rest => (false, rest)

def decimal? (cs : List Char) : Option (List Char) := do
  let ds ← ungroup? Decimal.isDigit cs
  if ds.head? = some '0' && 1 < ds.length then none else some ds

/-- A whole number of 64 bits, decimal with an optional sign or in another base. -/
def whole? (cs : List Char) : Option Int :=
  let other (base : Nat) (cs : List Char) : Option Int :=
    (ungroup? (Radix.isDigit base) cs).map fun ds => (Radix.value base ds : Int)
  let number := match cs with
    | '0' :: 'x' :: rest => other 16 rest
    | '0' :: 'o' :: rest => other 8 rest
    | '0' :: 'b' :: rest => other 2 rest
    | cs =>
      let (minus, body) := signed cs
      (decimal? body).map fun ds => if minus then -(Decimal.value ds : Int) else Decimal.value ds
  number.filter fun n => -(1 <<< 63) ≤ n && n < 1 <<< 63

def isUnbounded (cs : List Char) : Bool := cs = "inf".toList || cs = "nan".toList

def realLiteral? (cs : List Char) : Option Json.NumberLiteral := do
  let (negative, body) := signed cs
  let isMark (c : Char) : Bool := c = 'e' || c = 'E'
  let mantissa := body.takeWhile (!isMark ·)
  let whole ← decimal? (mantissa.takeWhile (· ≠ '.'))
  let fraction ← match mantissa.dropWhile (· ≠ '.') with
    | '.' :: ds => ungroup? Decimal.isDigit ds
    | _ => some []
  let exponent ← match body.dropWhile (!isMark ·) with
    | _ :: rest =>
      let (minus, ds) := signed rest
      (ungroup? Decimal.isDigit ds).map fun ds => some (minus, ds)
    | [] => some none
  let pointed := !fraction.isEmpty
  if pointed || exponent.isSome then some { negative, whole, fraction, exponent, pointed } else none

/-- A number with a point or an exponent. One that is not finite is `null`, but a number above zero
may not be written that is too large. -/
def real? (cs : List Char) : Option Json :=
  if isUnbounded (signed cs).2 then some .null
  else (realLiteral? cs).bind fun l =>
    if l.roundsToInfinity && !l.negative then none else some l.real

def fixed? (count : Nat) (cs : List Char) : Option (Nat × List Char) :=
  let ds := cs.take count
  if ds.length = count && ds.all Decimal.isDigit then some (Decimal.value ds, cs.drop count) else none

def daysIn (year month : Nat) : Nat :=
  if month = 2 then
    if year % 4 = 0 && (year % 100 ≠ 0 || year % 400 = 0) then 29 else 28
  else if month = 4 || month = 6 || month = 9 || month = 11 then 30 else 31

def date? (cs : List Char) : Option (List Char) := do
  match ← fixed? 4 cs with
  | (year, '-' :: rest) => match ← fixed? 2 rest with
    | (month, '-' :: rest) =>
      let (day, rest) ← fixed? 2 rest
      if 1 ≤ month && month ≤ 12 && 1 ≤ day && day ≤ daysIn year month then some rest else none
    | _ => none
  | _ => none

def time? (cs : List Char) : Option (List Char) := do
  match ← fixed? 2 cs with
  | (hour, ':' :: rest) => match ← fixed? 2 rest with
    | (minute, ':' :: rest) =>
      let (second, rest) ← fixed? 2 rest
      if !(hour ≤ 23 && minute ≤ 59 && second ≤ 60) then none
      else match rest with
        | '.' :: rest =>
          if (rest.takeWhile Decimal.isDigit).isEmpty then none
          else some (rest.dropWhile Decimal.isDigit)
        | rest => some rest
    | _ => none
  | _ => none

def isOffset : List Char → Bool
  | [] | ['Z'] | ['z'] => true
  | sign :: rest =>
    (sign = '+' || sign = '-') && match fixed? 2 rest with
      | some (hours, ':' :: rest) => match fixed? 2 rest with
        | some (minutes, []) => hours ≤ 23 && minutes ≤ 59
        | _ => false
      | _ => false

def isMoment (cs : List Char) : Bool :=
  match date? cs with
  | some [] => true
  | some (c :: rest) =>
    (c = 'T' || c = 't' || c = ' ') && match time? rest with
      | some rest => isOffset rest
      | none => false
  | none => time? cs = some []

/-- The value of a scalar without quotes. A date or time is an object that holds its text. -/
def bare? (cs : List Char) : Option Json :=
  if cs = "true".toList then some (.bool true)
  else if cs = "false".toList then some (.bool false)
  else match whole? cs with
    | some n => some (.int n)
    | none =>
      if isMoment cs then some (.obj [("moment", .str (String.ofList cs))]) else real? cs

end LanguageClient.Toml
