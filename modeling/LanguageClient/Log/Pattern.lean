namespace LanguageClient.Log

/-- A character of a pattern, and whether it is written as a byte by two hexadecimal digits. -/
structure Literal where
  char : Char
  isByte : Bool := false

inductive CharSet where
  | range (first last : Literal)
  /-- A class of ASCII characters by its name, or all others. -/
  | named (negated : Bool)
  /-- Digits, blanks or word characters, or all others. -/
  | kind (negated : Bool)
  | bracketed (negated : Bool) (inner : CharSet)
  | union (parts : List CharSet)
  /-- An intersection or a difference. -/
  | combined (left right : CharSet)

/-- How a part of a pattern changes what it is read for; whether blanks in it count is settled while
it is read. -/
structure ModeChange where
  caseless : Option Bool := none
  unicode : Option Bool := none

inductive Pattern where
  | empty
  | change (c : ModeChange)
  | literal (l : Literal)
  | any
  /-- The start or the end of a line or of the text. -/
  | edge
  /-- The boundary of a word, or any other place. -/
  | wordEdge
  | set (s : CharSet)
  | repeated (p : Pattern)
  | group (c : ModeChange) (p : Pattern)
  | either (ps : List Pattern)
  | sequence (ps : List Pattern)

structure Mode where
  caseless : Bool := false
  unicode : Bool := true

def Mode.change (m : Mode) (c : ModeChange) : Mode :=
  ⟨c.caseless.getD m.caseless, c.unicode.getD m.unicode⟩

/-- Whether the cases of letters outside ASCII are to be known, for which there is no table. -/
def Mode.folds (m : Mode) : Bool := m.caseless && m.unicode

namespace Literal

def isAscii (l : Literal) : Bool := l.char.toNat < 0x80

/-- Whether a character may stand in a pattern: a byte is no text unless it is ASCII. -/
def isSound (m : Mode) (l : Literal) : Bool :=
  if m.unicode then !m.caseless else !l.isByte || l.isAscii

end Literal

namespace CharSet

mutual

/-- Whether a set can be told in a mode, and if so whether it is inhabited as far as cases are
concerned: in sets without characters there is nothing to fold. A set of bytes holds ASCII only. -/
def inhabited? (m : Mode) : CharSet → Option Bool
  | range first last => if m.unicode || (first.isAscii && last.isAscii) then some true else none
  | named negated => if m.folds || (!m.unicode && negated) then none else some true
  | kind negated => if m.unicode || negated then none else some true
  | bracketed negated inner => do
    let inhabited ← inner.inhabited? m
    if (m.folds && inhabited) || (!m.unicode && negated) then none else some (inhabited || negated)
  | union parts => anyInhabited? m parts
  | combined left right => do
    let inhabited := (← left.inhabited? m) || (← right.inhabited? m)
    if m.folds && inhabited then none else some inhabited

def anyInhabited? (m : Mode) : List CharSet → Option Bool
  | [] => some false
  | part :: parts => do return (← part.inhabited? m) || (← anyInhabited? m parts)

end

mutual

/-- How many brackets, unions and combinations are around the innermost part. -/
def depth : CharSet → Nat
  | bracketed _ inner => inner.depth + 1
  | union parts => depthOfParts parts + 1
  | combined left right => max left.depth right.depth + 1
  | _ => 0

def depthOfParts : List CharSet → Nat
  | [] => 0
  | part :: parts => max part.depth (depthOfParts parts)

end

def ofParts : List CharSet → CharSet
  | [part] => part
  | parts => union parts

end CharSet

namespace Pattern

mutual

/-- The mode after a pattern that is sound in a mode. A change of mode holds up to the end of the
group that it is in. -/
def after? (m : Mode) : Pattern → Option Mode
  | empty | edge => some m
  | change c => some (m.change c)
  | literal l => if l.isSound m then some m else none
  | any => if m.unicode then some m else none
  | wordEdge => if m.unicode then none else some m
  | set s => (s.inhabited? m).map fun _ => m
  | repeated p => p.after? m
  | group c p => (p.after? (m.change c)).map fun _ => m
  | either ps | sequence ps => afterAll? m ps

def afterAll? (m : Mode) : List Pattern → Option Mode
  | [] => some m
  | p :: ps => do afterAll? (← p.after? m) ps

end

mutual

/-- How many groups, repetitions, choices, sequences and brackets are around the innermost part. -/
def depth : Pattern → Nat
  | set s => s.depth
  | repeated p | group _ p => p.depth + 1
  | either ps | sequence ps => depthOfAll ps + 1
  | _ => 0

def depthOfAll : List Pattern → Nat
  | [] => 0
  | p :: ps => max p.depth (depthOfAll ps)

end

def depthLimit : Nat := 250

def isSound (p : Pattern) : Bool := p.depth ≤ depthLimit && (p.after? {}).isSome

def ofSequence : List Pattern → Pattern
  | [] => empty
  | [p] => p
  | ps => sequence ps

def ofChoices : List Pattern → Pattern
  | [p] => p
  | ps => either ps

end Pattern

end LanguageClient.Log
