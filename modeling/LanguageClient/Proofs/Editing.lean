import LanguageClient.Proofs.Positions
import LanguageClient.Workspace.Completion

namespace LanguageClient

theorem Utf8.encode_of_cut? {cs before after : List Char} {offset : Nat}
    (h : cut? cs offset = some (before, after)) :
    encode before = (encode cs).take offset ∧
      encode after = (encode cs).drop offset := by
  have hlength := Utf8.encode_take_of_cut? h
  rw [← Utf8.cut?_append h, Utf8.encode_append]
  exact ⟨(List.take_left' hlength).symm, (List.drop_left' hlength).symm⟩

namespace Document

/-- An offset that lies on a character boundary of a text. -/
def IsBoundary (text : String) (offset : Nat) : Prop := String.Pos.Raw.IsValid text ⟨offset⟩

instance (text : String) (offset : Nat) : Decidable (IsBoundary text offset) :=
  inferInstanceAs (Decidable (String.Pos.Raw.IsValid text ⟨offset⟩))

theorem IsBoundary.le {text : String} {offset : Nat} (h : IsBoundary text offset) :
    offset ≤ text.utf8ByteSize :=
  String.Pos.Raw.IsValid.le_utf8ByteSize h

/-- Boundaries are where a text can be cut. -/
theorem isBoundary_iff_exists_cut? {text : String} {offset : Nat} :
    IsBoundary text offset ↔
      ∃ before after, Utf8.cut? text.toList offset = some (before, after) := by
  rw [IsBoundary, String.Pos.Raw.isValid_iff_exists_append]
  constructor
  · rintro ⟨before, after, rfl, hoffset⟩
    have hlength : (Utf8.encode before.toList).length = offset := by
      rw [Utf8.length_encode, String.ofList_toList]
      exact (congrArg String.Pos.Raw.byteIdx hoffset).symm
    refine ⟨before.toList, after.toList, ?_⟩
    rw [String.toList_append, ← hlength]
    exact Utf8.cut?_length_encode _ _
  · rintro ⟨before, after, hcut⟩
    refine ⟨String.ofList before, String.ofList after, ?_, ?_⟩
    · rw [← String.ofList_append, Utf8.cut?_append hcut, String.ofList_toList]
    · have hlength := Utf8.encode_take_of_cut? hcut
      rw [Utf8.length_encode] at hlength
      rw [String.Pos.Raw.ext_iff, String.byteIdx_rawEndPos, hlength]

namespace Snapshot

open Workspace.Completion (Edit)

/-- A range of whole characters of a document. -/
structure IsWhole (s : Snapshot) (start stop : Nat) : Prop where
  le : start ≤ stop
  isBoundary_start : IsBoundary s.text start
  isBoundary_stop : IsBoundary s.text stop

variable {s : Snapshot} {start stop : Nat}

theorem around?_of_isWhole (h : s.IsWhole start stop) :
    ∃ before after, around? s.text start stop = some (before, after) ∧
      Utf8.encode before = s.bytes.take start ∧ Utf8.encode after = s.bytes.drop stop := by
  obtain ⟨before, _, hbefore⟩ := isBoundary_iff_exists_cut?.1 h.isBoundary_start
  obtain ⟨_, after, hafter⟩ := isBoundary_iff_exists_cut?.1 h.isBoundary_stop
  refine ⟨before, after, ?_, (Utf8.encode_of_cut? hbefore).1, (Utf8.encode_of_cut? hafter).2⟩
  rw [around?, if_pos h.le, hbefore, hafter]
  rfl

theorem around?_of_not_isWhole (h : ¬ s.IsWhole start stop) :
    around? s.text start stop = none := by
  rw [Option.eq_none_iff_forall_ne_some]
  intro parts hparts
  rw [around?, Option.ite_none_right_eq_some] at hparts
  obtain ⟨hle, hparts⟩ := hparts
  simp only [Option.bind_eq_bind, Option.bind_eq_some_iff] at hparts
  obtain ⟨first, hfirst, second, hsecond, _⟩ := hparts
  exact h ⟨hle, isBoundary_iff_exists_cut?.2 ⟨_, _, hfirst⟩,
    isBoundary_iff_exists_cut?.2 ⟨_, _, hsecond⟩⟩

theorem isSome_around?_iff : (around? s.text start stop).isSome ↔ s.IsWhole start stop := by
  by_cases h : s.IsWhole start stop
  · obtain ⟨before, after, hparts, _, _⟩ := around?_of_isWhole h
    simp [hparts, h]
  · simp [around?_of_not_isWhole h, h]

theorem replace_of_isWhole (h : s.IsWhole start stop) (text : String) :
    (s.replace start stop text).bytes =
        s.bytes.take start ++ Utf8.encode text.toList ++ s.bytes.drop stop ∧
      (s.replace start stop text).cursor = start + text.utf8ByteSize := by
  obtain ⟨before, after, hparts, hbefore, hafter⟩ := around?_of_isWhole h
  rw [replace, hparts]
  refine ⟨?_, rfl⟩
  change Utf8.encode (String.ofList (before ++ text.toList ++ after)).toList = _
  rw [String.toList_ofList, Utf8.encode_append, Utf8.encode_append, hbefore, hafter]

theorem replace_of_not_isWhole (h : ¬ s.IsWhole start stop) (text : String) :
    s.replace start stop text = s := by
  rw [replace, around?_of_not_isWhole h]

/-- A document whose lines are those of its text and whose cursor lies in the text. -/
structure Consistent (s : Snapshot) : Prop where
  lineStarts_eq : s.lineStarts = Document.lineStarts s.bytes
  cursor_le : s.cursor ≤ s.size

theorem consistent_openAt (text : String) (line character : UInt32) :
    Consistent (openAt text line character) where
  lineStarts_eq := rfl
  cursor_le := by
    rw [openAt]
    dsimp only
    cases hoffset : (ofText text 0).offsetOf? line character with
    | none => exact Nat.le_refl _
    | some offset => exact le_of_offsetOf? hoffset

theorem Consistent.replace (h : s.Consistent) (start stop : Nat) (text : String) :
    (s.replace start stop text).Consistent := by
  by_cases hwhole : s.IsWhole start stop
  · obtain ⟨hbytes, hcursor⟩ := replace_of_isWhole hwhole text
    have hstart : start ≤ s.bytes.length := by
      rw [length_bytes]
      exact hwhole.isBoundary_start.le
    constructor
    · obtain ⟨before, after, hparts, _, _⟩ := around?_of_isWhole hwhole
      rw [Snapshot.replace, hparts]
      rfl
    · rw [hcursor, ← length_bytes, hbytes, List.length_append, List.length_append,
        List.length_take_of_le hstart, Utf8.length_encode, String.ofList_toList]
      exact Nat.le_add_right _ _
  · rw [replace_of_not_isWhole hwhole]
    exact h

/-- The document after edits that follow each other. -/
def replaceAll (s : Snapshot) : List Edit → Snapshot
  | [] => s
  | e :: rest => (s.replace e.start e.stop e.text).replaceAll rest

theorem Consistent.replaceAll (h : s.Consistent) (edits : List Edit) :
    (s.replaceAll edits).Consistent := by
  induction edits generalizing s with
  | nil => exact h
  | cons e rest ih => exact ih (h.replace e.start e.stop e.text)

/-- A document that is edited whole or not at all. -/
structure EditsWhole (s : Snapshot) : Prop where
  consistent : s.Consistent
  parts_iff {start stop : Nat} : (around? s.text start stop).isSome ↔ s.IsWhole start stop
  replaces {start stop : Nat} (h : s.IsWhole start stop) (text : String) :
    (s.replace start stop text).bytes =
        s.bytes.take start ++ Utf8.encode text.toList ++ s.bytes.drop stop ∧
      (s.replace start stop text).cursor = start + text.utf8ByteSize
  keeps {start stop : Nat} (h : ¬ s.IsWhole start stop) (text : String) :
    s.replace start stop text = s

/-- Wherever a document is opened and whatever edits follow, it is edited whole or not at all, and
its lines are those of its text. -/
theorem editsWhole_run (text : String) (line character : UInt32) (edits : List Edit) :
    EditsWhole ((openAt text line character).replaceAll edits) where
  consistent := (consistent_openAt text line character).replaceAll edits
  parts_iff := isSome_around?_iff
  replaces := replace_of_isWhole
  keeps := replace_of_not_isWhole

end Snapshot

end Document

end LanguageClient
