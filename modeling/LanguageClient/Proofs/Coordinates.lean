import LanguageClient.Proofs.Positions
import Mathlib.Data.Prod.Lex

namespace LanguageClient

def Position.coordinates (p : Position) : UInt32 ×ₗ UInt32 := toLex (p.line, p.character)

namespace Document

namespace LineAt

variable {starts : List Nat} {offset other line line' start start' : Nat}

theorem line_le (hstarts : starts.Pairwise (· < ·)) (h : LineAt starts offset line start)
    (h' : LineAt starts other line' start') (hle : offset ≤ other) : line ≤ line' := by
  rw [← Nat.not_lt]
  intro hlt
  obtain ⟨hline, hstart⟩ := List.getElem?_eq_some_iff.1 h.start_eq
  have hnext : line' + 1 < starts.length := Nat.lt_of_le_of_lt hlt hline
  have hends : starts[line' + 1] ≤ starts[line] := by
    rcases Nat.lt_or_eq_of_le (Nat.succ_le_of_lt hlt) with hbefore | rfl
    · exact Nat.le_of_lt (List.pairwise_iff_getElem.1 hstarts _ _ hnext hline hbefore)
    · exact Nat.le_refl _
  have hother := h'.lt_next _ (List.getElem?_eq_getElem hnext)
  have hstart_le := h.start_le
  omega

theorem line_eq (hstarts : starts.Pairwise (· < ·)) (h : LineAt starts offset line start)
    (h' : LineAt starts offset line' start') : line = line' :=
  Nat.le_antisymm (h.line_le hstarts h' (Nat.le_refl _)) (h'.line_le hstarts h (Nat.le_refl _))

theorem start_eq_of_line (h : LineAt starts offset line start)
    (h' : LineAt starts other line start') : start = start' := by
  have hstart := h.start_eq
  rw [h'.start_eq] at hstart
  exact (Option.some.inj hstart).symm

end LineAt

namespace Snapshot

variable {text : String}

/-- Whether a line is the last one or an offset is before the start of the line after it. -/
def EndsBehind (s : Snapshot) (line offset : Nat) : Prop :=
  line + 1 = s.lineStarts.length ∨ ∃ next, s.lineStarts[line + 1]? = some next ∧ offset < next

theorem endsBehind_iff {s : Snapshot} {line offset start : Nat}
    (hstart : s.lineStarts[line]? = some start) :
    s.EndsBehind line offset ↔ ∀ next, s.lineStarts[line + 1]? = some next → offset < next := by
  have hline : line < s.lineStarts.length := (List.getElem?_eq_some_iff.1 hstart).1
  rw [EndsBehind]
  cases hnext : s.lineStarts[line + 1]? with
  | none =>
    rw [List.getElem?_eq_none_iff] at hnext
    have hlast : line + 1 = s.lineStarts.length := by omega
    simp [hlast]
  | some next =>
    have hlast : line + 1 < s.lineStarts.length := (List.getElem?_eq_some_iff.1 hnext).1
    simp [Nat.ne_of_lt hlast]

/-- A text on which offsets and positions are two ways of saying the same. -/
structure Charted (s : Snapshot) : Prop where
  mem_lineStarts (n : Nat) : n ∈ s.lineStarts ↔ n = 0 ∨ ∃ i, s.bytes[i]? = some 10 ∧ n = i + 1
  increasing : s.lineStarts.Pairwise (· < ·)
  offsetOf? {offset : Nat} (h : offset ≤ s.size) :
    s.offsetOf? (s.positionOf offset).line (s.positionOf offset).character = some offset
  /-- A position is the one found for its offset unless its column runs into the next line. -/
  positionOf_eq_iff {line character : UInt32} {offset : Nat}
    (h : s.offsetOf? line character = some offset) :
    s.positionOf offset = ⟨line, character⟩ ↔ s.EndsBehind line.toNat offset
  lt {offset other : Nat} (h : offset < other) (hother : other ≤ s.size) :
    (s.positionOf offset).coordinates < (s.positionOf other).coordinates

theorem positionOf_eq_iff (htext : text.utf8ByteSize < 1 <<< 32) (cursor : Nat)
    {line character : UInt32} {offset : Nat}
    (h : (ofText text cursor).offsetOf? line character = some offset) :
    (ofText text cursor).positionOf offset = ⟨line, character⟩ ↔
      (ofText text cursor).EndsBehind line.toNat offset := by
  obtain ⟨start, hstart, hoffset, hle⟩ := offsetOf?_eq_some_iff.1 h
  obtain ⟨start', hline', hoffset'⟩ := exists_lineAt htext cursor hle
  rw [endsBehind_iff hstart]
  constructor
  · intro hposition
    rw [hposition] at hline'
    exact hline'.lt_next
  · intro hnext
    have hline : LineAt (ofText text cursor).lineStarts offset line.toNat start :=
      ⟨hstart, by omega, hnext⟩
    have hsame := hline.line_eq (lineStarts_pairwise _) hline'
    rw [← hsame] at hline'
    have hstarts := hline.start_eq_of_line hline'
    have hcharacter : ((ofText text cursor).positionOf offset).character = character :=
      UInt32.toNat_inj.1 (by omega)
    rw [← hcharacter, UInt32.toNat_inj.1 hsame]

theorem coordinates_lt (htext : text.utf8ByteSize < 1 <<< 32) (cursor : Nat) {offset other : Nat}
    (h : offset < other) (hother : other ≤ text.utf8ByteSize) :
    ((ofText text cursor).positionOf offset).coordinates <
      ((ofText text cursor).positionOf other).coordinates := by
  have hoffset_le := Nat.le_trans (Nat.le_of_lt h) hother
  obtain ⟨start, hline, hoffset⟩ := exists_lineAt htext cursor hoffset_le
  obtain ⟨start', hline', hoffset'⟩ := exists_lineAt htext cursor hother
  have hle := hline.line_le (lineStarts_pairwise _) hline' (Nat.le_of_lt h)
  rw [Position.coordinates, Position.coordinates, Prod.Lex.toLex_lt_toLex]
  rcases Nat.lt_or_eq_of_le hle with hlt | hsame
  · exact .inl (UInt32.lt_iff_toNat_lt.2 hlt)
  · rw [← hsame] at hline'
    have hstarts := hline.start_eq_of_line hline'
    have hcharacter : ((ofText text cursor).positionOf offset).character <
        ((ofText text cursor).positionOf other).character :=
      UInt32.lt_iff_toNat_lt.2 (by omega)
    exact .inr ⟨UInt32.toNat_inj.1 hsame, hcharacter⟩

/-- Every text that is shorter than positions can count is charted by its positions. -/
theorem charted_ofText (htext : text.utf8ByteSize < 1 <<< 32) (cursor : Nat) :
    Charted (ofText text cursor) where
  mem_lineStarts _ := Document.mem_lineStarts
  increasing := lineStarts_pairwise _
  offsetOf? h := offsetOf?_positionOf htext cursor h
  positionOf_eq_iff h := positionOf_eq_iff htext cursor h
  lt h hother := coordinates_lt htext cursor h hother

/-- A column that runs into the next line, past a character of two bytes in the line before. -/
theorem charted_overrun :
    "\u00e9\nfoo".utf8ByteSize < 1 <<< 32 ∧ Charted (ofText "\u00e9\nfoo" 0) ∧
      (ofText "\u00e9\nfoo" 0).offsetOf? 0 4 = some 4 ∧
      (ofText "\u00e9\nfoo" 0).positionOf 4 = ⟨1, 1⟩ := by
  have hsize : "\u00e9\nfoo".utf8ByteSize < 1 <<< 32 := by decide
  exact ⟨hsize, charted_ofText hsize 0, by decide +kernel, by decide +kernel⟩

end Snapshot

end Document

end LanguageClient
