import LanguageClient.Proofs.Positions
import LanguageClient.Workspace.Completion

namespace LanguageClient

namespace Document

theorem wordStart_le (bytes : Bytes) (cursor : Nat) : wordStart bytes cursor ≤ cursor :=
  Nat.le_trans (Nat.sub_le _ _) (Nat.min_le_left _ _)

namespace Cursor

variable {text : String}

/-- The position at which a cursor is put leads back to its offset, whether it is the one asked for
or that of the document's own cursor. -/
theorem offsetOf?_locate (htext : text.utf8ByteSize < 1 <<< 32) (cursor : Nat)
    (line character : UInt32) :
    let s := Snapshot.ofText text cursor
    let (offset, position) := locate s line character
    s.offsetOf? position.line position.character = some offset := by
  intro s
  rw [locate]
  cases hasked : s.offsetOf? line character with
  | some offset => exact hasked
  | none => exact Snapshot.offsetOf?_positionOf htext cursor (Nat.min_le_right _ _)

theorem offsetOf?_position (htext : text.utf8ByteSize < 1 <<< 32) (cursor : Nat)
    (line character : UInt32) :
    let s := Snapshot.ofText text cursor
    let c := resolve s line character
    s.offsetOf? c.position.line c.position.character = some c.offset :=
  offsetOf?_locate htext cursor line character

theorem wordStart_le_offset (s : Snapshot) (line character : UInt32) :
    (resolve s line character).wordStart ≤ (resolve s line character).offset :=
  wordStart_le _ _

end Cursor

end Document

namespace Suggest.Item

open Document (Cursor)

/-- An entry's edit that can be used: an object with a new text and a complete range. -/
def BringsEdit (entry : Json) : Prop :=
  ∃ edit text range, entry.get? "textEdit" = some edit ∧ edit.isObject = true ∧
    stringMember? edit "newText" = some text ∧ (edit.get? "range").bind range? = some range

theorem bringsEdit_of_edit? {entry : Json} {edit : String × Range} (h : edit? entry = some edit) :
    BringsEdit entry := by
  simp only [edit?, Option.bind_eq_bind, Option.bind_eq_some_iff] at h
  obtain ⟨value, hvalue, h⟩ := h
  split at h
  · cases h
  · rename_i hobject
    obtain ⟨text, htext, h⟩ := Option.bind_eq_some_iff.1 h
    obtain ⟨given, hgiven, h⟩ := Option.bind_eq_some_iff.1 h
    obtain ⟨range, hrange, _⟩ := Option.bind_eq_some_iff.1 h
    refine ⟨value, text, range, hvalue, by simpa using hobject, htext, ?_⟩
    exact Option.bind_eq_some_iff.2 ⟨given, hgiven, hrange⟩

theorem range_ofEntry_of_no_edit {entry : Json} (h : ¬ BringsEdit entry) (cursor : Cursor) :
    (ofEntry entry cursor).range = ⟨cursor.wordStartPosition, cursor.position⟩ := by
  have hnone : edit? entry = none := by
    rw [Option.eq_none_iff_forall_ne_some]
    intro edit hedit
    exact h (bringsEdit_of_edit? hedit)
  rw [ofEntry, hnone]
  rfl

end Suggest.Item

namespace Workspace.Completion

open Document Suggest

theorem span_of_le {document : Snapshot} {range : Range} {start stop : Nat}
    (hstart : document.offsetOf? range.start.line range.start.character = some start)
    (hstop : document.offsetOf? range.stop.line range.stop.character = some stop)
    (h : start ≤ stop) : span document range = (start, stop) := by
  rw [span, hstart, hstop]
  exact if_pos h

/-- An item without a usable edit replaces exactly the word before the cursor. -/
theorem span_range_of_no_edit {text : String} (htext : text.utf8ByteSize < 1 <<< 32) (cursor : Nat)
    (line character : UInt32) {entry : Json} (hentry : ¬ Item.BringsEdit entry) :
    let document := Snapshot.ofText text cursor
    let c := Cursor.resolve document line character
    span document (Item.ofEntry entry c).range = (c.wordStart, c.offset) ∧
      c.wordStart ≤ c.offset ∧ c.offset ≤ text.utf8ByteSize := by
  intro document c
  have hstop := Cursor.offsetOf?_position htext cursor line character
  have hle : c.wordStart ≤ c.offset := Cursor.wordStart_le_offset document line character
  have hsize : c.offset ≤ text.utf8ByteSize := Snapshot.le_of_offsetOf? hstop
  have hstart := Snapshot.offsetOf?_positionOf htext cursor (Nat.le_trans hle hsize)
  refine ⟨?_, hle, hsize⟩
  rw [Item.range_ofEntry_of_no_edit hentry]
  exact span_of_le hstart hstop hle

def barEntry : Json :=
  .obj [("label", .str "bar"), ("textEdit", .obj [("newText", .str "bar")])]

theorem not_bringsEdit_barEntry : ¬ Item.BringsEdit barEntry := by
  rintro ⟨edit, text, range, hedit, _, _, hrange⟩
  cases hedit
  cases hrange

/-- The word is found behind the end of the line that the position names. -/
theorem span_range_behind_line :
    "ab\nfoo.bar".utf8ByteSize < 1 <<< 32 ∧ ¬ Item.BringsEdit barEntry ∧
      let document := Snapshot.ofText "ab\nfoo.bar" 0
      span document (Item.ofEntry barEntry (Cursor.resolve document 0 9)).range = (7, 9) := by
  have hsize : "ab\nfoo.bar".utf8ByteSize < 1 <<< 32 := by decide
  obtain ⟨hspan, _, _⟩ := span_range_of_no_edit hsize 0 0 9 not_bringsEdit_barEntry
  refine ⟨hsize, not_bringsEdit_barEntry, hspan.trans ?_⟩
  decide +kernel

end Workspace.Completion

end LanguageClient
