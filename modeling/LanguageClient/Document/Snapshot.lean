import LanguageClient.Text.Utf8

namespace LanguageClient

/-- A zero-based line and a byte column in it. -/
structure Position where
  line : UInt32
  character : UInt32
  deriving DecidableEq, Inhabited

namespace Document

/-- A text, a cursor, and the offsets at which lines are taken to start. -/
structure Snapshot where
  text : String
  cursor : Nat
  lineStarts : List Nat

/-- The offsets just after line feeds, for bytes that begin at `offset`. -/
def startsAfterFeeds (offset : Nat) : Bytes → List Nat
  | [] => []
  | b :: rest =>
    if b = 10 then (offset + 1) :: startsAfterFeeds (offset + 1) rest
    else startsAfterFeeds (offset + 1) rest

def lineStarts (bytes : Bytes) : List Nat := 0 :: startsAfterFeeds 0 bytes

theorem mem_startsAfterFeeds {offset n : Nat} {bytes : Bytes} :
    n ∈ startsAfterFeeds offset bytes ↔ ∃ i, bytes[i]? = some 10 ∧ n = offset + i + 1 := by
  induction bytes generalizing offset with
  | nil => simp [startsAfterFeeds]
  | cons b rest ih =>
    have step : (∃ i, (b :: rest)[i]? = some 10 ∧ n = offset + i + 1) ↔
        (b = 10 ∧ n = offset + 1) ∨ ∃ i, rest[i]? = some 10 ∧ n = offset + 1 + i + 1 := by
      constructor
      · rintro ⟨i, hi, hn⟩
        cases i with
        | zero => exact .inl ⟨by simpa using hi, hn⟩
        | succ i => exact .inr ⟨i, by simpa using hi, by omega⟩
      · rintro (⟨hb, hn⟩ | ⟨i, hi, hn⟩)
        · exact ⟨0, by simp [hb], by omega⟩
        · exact ⟨i + 1, by simpa using hi, by omega⟩
    rw [step, startsAfterFeeds]
    split <;> simp_all

theorem mem_lineStarts {n : Nat} {bytes : Bytes} :
    n ∈ lineStarts bytes ↔ n = 0 ∨ ∃ i, bytes[i]? = some 10 ∧ n = i + 1 := by
  simp [lineStarts, mem_startsAfterFeeds]

/-- The number of entries before the first that fails the test, found by halving. On a list whose
passing entries all come first that is their number; on any other it is the end of one search. -/
def partitionPoint (starts : Array Nat) (test : Nat → Bool) : Nat :=
  if starts.size = 0 then 0 else go starts.size 0
where
  go (size base : Nat) : Nat :=
    if 1 < size then
      let half := size / 2
      let middle := base + half
      go (size - half) (if test (starts.getD middle 0) then middle else base)
    else if test (starts.getD base 0) then base + 1 else base
  termination_by size

/-- A count in 32 bits; what does not fit is the largest. -/
def clamp32 (n : Nat) : UInt32 :=
  if n < 1 <<< 32 then UInt32.ofNat n else UInt32.ofNat (1 <<< 32 - 1)

namespace Snapshot

def ofText (text : String) (cursor : Nat) : Snapshot :=
  ⟨text, cursor, Document.lineStarts (Utf8.encode text.toList)⟩

def bytes (s : Snapshot) : Bytes := Utf8.encode s.text.toList

def size (s : Snapshot) : Nat := s.text.utf8ByteSize

/-- The cursor, or the end of the text when the cursor lies behind it. -/
def clampedCursor (s : Snapshot) : Nat := min s.cursor s.size

/-- The offset of a position. The column is counted on from the start of the line and may run past
its end, but not past the end of the text. -/
def offsetOf? (s : Snapshot) (line character : UInt32) : Option Nat := do
  let start ← s.lineStarts[line.toNat]?
  let offset := start + character.toNat
  if offset ≤ s.size then some offset else none

def positionOf (s : Snapshot) (offset : Nat) : Position :=
  if s.lineStarts.isEmpty then ⟨0, 0⟩
  else
    let line := partitionPoint s.lineStarts.toArray (· ≤ offset) - 1
    let start := s.lineStarts[line]?.getD 0
    ⟨clamp32 line, clamp32 (offset - start)⟩

def byteBefore? (s : Snapshot) : Nat → Option UInt8
  | 0 => none
  | offset + 1 => s.bytes[offset]?

end Snapshot

end Document

end LanguageClient
