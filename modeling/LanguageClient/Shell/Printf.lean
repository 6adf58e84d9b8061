import LanguageClient.Text.Decimal
import LanguageClient.Text.Radix
import LanguageClient.Text.Utf8

namespace LanguageClient.Shell.Printf

def isOctal (b : UInt8) : Bool := 48 ≤ b && b ≤ 55

def escape (bytes : Bytes) : Bytes × Bytes :=
  match bytes with
  | 110 :: rest => ([10], rest)
  | 114 :: rest => ([13], rest)
  | 116 :: rest => ([9], rest)
  | 97 :: rest => ([7], rest)
  | 98 :: rest => ([8], rest)
  | 102 :: rest => ([12], rest)
  | 118 :: rest => ([11], rest)
  | 101 :: rest => ([27], rest)
  | 92 :: rest => ([92], rest)
  | _ =>
    let ds := (bytes.take 3).takeWhile isOctal
    if ds.isEmpty then ([92], bytes)
    else
      let value := ds.foldl (fun (n : Nat) (d : UInt8) => n * 8 + (d.toNat - 48)) 0
      ([value.toUInt8], bytes.drop ds.length)

theorem length_escape_le (bytes : Bytes) : (escape bytes).2.length ≤ bytes.length := by
  unfold escape
  split <;> try (simp; done)
  dsimp only
  split
  · exact Nat.le_refl _
  · simp

/-- The digits that follow a backslash and a zero. The zero is one of them if it stands alone. -/
def afterZero (rest : Bytes) : Bytes := if rest.head?.any isOctal then rest else 48 :: rest

theorem length_afterZero_le (rest : Bytes) : (afterZero rest).length ≤ rest.length + 1 := by
  unfold afterZero
  split <;> simp

/-- Text with its escapes replaced, and whether it goes on after them. A zero may stand before the
digits of a byte, and `\c` ends everything. -/
def unescape : Bytes → Bytes × Bool
  | [] => ([], true)
  | 92 :: 99 :: _ => ([], false)
  | 92 :: 48 :: rest =>
    let (more, whole) := unescape (escape (afterZero rest)).2
    ((escape (afterZero rest)).1 ++ more, whole)
  | b :: rest =>
    if b = 92 then
      let (more, whole) := unescape (escape rest).2
      ((escape rest).1 ++ more, whole)
    else
      let (more, whole) := unescape rest
      (b :: more, whole)
termination_by bytes => bytes.length
decreasing_by
  · have := length_escape_le (afterZero rest)
    have := length_afterZero_le rest
    simp only [List.length_cons]
    omega
  · have := length_escape_le rest
    simp only [List.length_cons]
    omega
  · simp

/-- The number at the start of a text, after blanks: hexadecimal after `0x` and octal after a zero; and
whether it is the whole text. -/
def integer (text : Bytes) : Int × Bool :=
  let isSpace (b : UInt8) : Bool := b = 32 || (9 ≤ b && b ≤ 13)
  let (minus, rest) := match Utf8.decodeLossy (text.dropWhile isSpace) with
    | '-' :: rest => (true, rest)
    | '+' :: rest => (false, rest)
    | rest => (false, rest)
  let read (base : Nat) (cs : List Char) : Nat × List Char :=
    (Radix.value base (Radix.leading base cs), cs.dropWhile (Radix.isDigit base))
  let (n, rest) := match rest with
    | '0' :: c :: d :: cs =>
      if (c = 'x' || c = 'X') && Radix.isDigit 16 d then read 16 (d :: cs)
      else read 8 ('0' :: c :: d :: cs)
    | '0' :: cs => read 8 ('0' :: cs)
    | cs => read 10 cs
  (if minus then -(n : Int) else n, rest.isEmpty)

/-- The number at the start of an argument, and whether it is the whole argument. After a quote it is
the next byte. -/
def number : Bytes → Int × Bool
  | 34 :: rest | 39 :: rest => ((rest.headD 0).toNat, true)
  | argument => integer argument

structure Conversion where
  flags : Bytes
  width : Nat
  precision : Option Nat
  kind : UInt8

namespace Conversion

def isFlag (b : UInt8) : Bool := b = 45 || b = 43 || b = 32 || b = 35 || b = 48

def digitsValue (ds : Bytes) : Nat := Decimal.value (ds.map fun b => Char.ofNat b.toNat)

def size (bytes : Bytes) (arguments : List Bytes) : Int × Bytes × List Bytes :=
  match bytes with
  | 42 :: rest => ((number (arguments.headD [])).1, rest, arguments.drop 1)
  | _ =>
    let ds := bytes.takeWhile Bytes.isDigit
    (digitsValue ds, bytes.drop ds.length, arguments)

/-- Reads a conversion after its percent sign, and says what follows it and the arguments left. A
width below zero fills up on the right. -/
def read? (bytes : Bytes) (arguments : List Bytes) : Option (Conversion × Bytes × List Bytes) := do
  let flags := bytes.takeWhile isFlag
  let (width, rest, arguments) := size (bytes.drop flags.length) arguments
  let flags := if width < 0 then 45 :: flags else flags
  let (precision, rest, arguments) := match rest with
    | 46 :: rest =>
      let (n, rest, arguments) := size rest arguments
      (if n < 0 then none else some n.toNat, rest, arguments)
    | rest => (none, rest, arguments)
  match rest with
  | kind :: rest => some (⟨flags, width.natAbs, precision, kind⟩, rest, arguments)
  | [] => none

def pad (c : Conversion) (body : Bytes) : Bytes :=
  let blanks := List.replicate (c.width - body.length) 32
  if c.flags.contains 45 then body ++ blanks else blanks ++ body

def padNumber (c : Conversion) (sign digits : Bytes) : Bytes :=
  let least := match c.precision with
    | some n => n
    | none => if c.flags.contains 48 && !c.flags.contains 45 then c.width - sign.length else 0
  c.pad (sign ++ List.replicate (least - digits.length) 48 ++ digits)

def digits (base n : Nat) : Bytes := Utf8.encode (Nat.toDigits base n)

/-- The digits of a number. With a precision of zero, zero has none. -/
def shown (c : Conversion) (base n : Nat) : Bytes :=
  if n = 0 && c.precision = some 0 then [] else digits base n

def signed (c : Conversion) (n : Int) : Bytes :=
  let sign := if n < 0 then [45] else if c.flags.contains 43 then [43]
    else if c.flags.contains 32 then [32] else []
  c.padNumber sign (c.shown 10 n.natAbs)

def unsigned (c : Conversion) (base : Nat) (mark : Bytes) (n : Int) : Bytes :=
  let sign := if c.flags.contains 35 && n ≠ 0 then mark else []
  c.padNumber sign (c.shown base (n % 1 <<< 64).toNat)

def upper (bytes : Bytes) : Bytes := bytes.map fun b => if 97 ≤ b && b ≤ 122 then b - 32 else b

/-- What a conversion made of an argument: what is written, whether the argument was a right one, and
whether anything may follow. -/
structure Converted where
  text : Bytes
  isRight : Bool := true
  goesOn : Bool := true

def convert? (c : Conversion) (argument : Bytes) : Option Converted :=
  let cut (bytes : Bytes) : Bytes := (c.precision.map bytes.take).getD bytes
  let numeric (least most : Int) (write : Int → Bytes) : Option Converted :=
    let (n, whole) := number argument
    some { text := write (max least (min n most)), isRight := whole && least ≤ n && n ≤ most }
  let unsigned (base : Nat) (mark : Bytes) : Option Converted :=
    numeric (-(1 <<< 64 - 1)) (1 <<< 64 - 1) (c.unsigned base mark)
  match Char.ofNat c.kind.toNat with
  | 's' => some { text := c.pad (cut argument) }
  | 'b' =>
    let (text, whole) := unescape argument
    some { text := c.pad (cut text), goesOn := whole }
  | 'c' => some { text := c.pad [argument.headD 0] }
  | 'd' | 'i' => numeric (-(1 <<< 63)) (1 <<< 63 - 1) c.signed
  | 'u' => unsigned 10 []
  | 'o' => unsigned 8 [48]
  | 'x' => unsigned 16 [48, 120]
  | 'X' => (unsigned 16 [48, 120]).map fun r => { r with text := upper r.text }
  | _ => none

end Conversion

/-- What the uses of a format made so far: what is written, the newest bytes last, the arguments left,
the status, and whether anything may follow. -/
structure Printed where
  text : Bytes := []
  left : List Bytes
  status : Nat := 0
  goesOn : Bool := true

namespace Printed

def add (p : Printed) (text : Bytes) : Printed := { p with text := p.text ++ text }

def refuse (p : Printed) : Printed := { p with status := 2, goesOn := false }

def convert (rest : Bytes) (p : Printed) : Printed × Bytes :=
  match Conversion.read? rest p.left with
  | none => (p.refuse, [])
  | some (conversion, rest, left) =>
    match conversion.convert? (left.headD []) with
    | none => (p.refuse, [])
    | some made =>
      ({ text := p.text ++ made.text, left := left.drop 1
         status := if made.isRight then p.status else 1, goesOn := made.goesOn }, rest)

def once : Nat → Bytes → Printed → Printed
  | 0, _, p | _, [], p => p
  | fuel + 1, 92 :: rest, p => once fuel (escape rest).2 (p.add (escape rest).1)
  | fuel + 1, 37 :: 37 :: rest, p => once fuel rest (p.add [37])
  | fuel + 1, 37 :: rest, p =>
    let (p, rest) := p.convert rest
    if p.goesOn then once fuel rest p else p
  | fuel + 1, b :: rest, p => once fuel rest (p.add [b])

/-- Uses the format as long as it takes arguments and some are left. -/
def again : Nat → Bytes → Printed → Printed
  | 0, _, p => p
  | n + 1, template, p =>
    let used := once (template.length + 1) template p
    if used.left.isEmpty || used.left.length = p.left.length || !used.goesOn then used
    else again n template used

end Printed

def format (template : Bytes) (arguments : List Bytes) : Bytes × Nat :=
  let p := Printed.again (arguments.length + 1) template { left := arguments }
  (p.text, p.status)

end LanguageClient.Shell.Printf
