import LanguageClient.Proofs.Acceptance
import LanguageClient.Proofs.Editing
import LanguageClient.Proofs.Replacing

namespace LanguageClient.Workspace.Completion

open Document Suggest

/-- Does to a document what was asked of it. -/
def Demand.perform (document : Snapshot) : Demand → Snapshot
  | .replace e => document.replace e.start e.stop e.text
  | .markChanged => document

/-- A range whose ends a document has, at these offsets and in this order. -/
structure Spans (document : Snapshot) (range : Range) (start stop : Nat) : Prop where
  offset_start : document.offsetOf? range.start.line range.start.character = some start
  offset_stop : document.offsetOf? range.stop.line range.stop.character = some stop
  le : start ≤ stop

/-- A range whose ends a document has, though not both on character boundaries. -/
def SplitsCharacter (document : Snapshot) (range : Range) : Prop :=
  ∃ start stop, Spans document range start stop ∧
    ¬ (IsBoundary document.text start ∧ IsBoundary document.text stop)

section

variable {document : Snapshot} {range : Range} {start stop : Nat}

theorem span_of_spans (h : Spans document range start stop) :
    span document range = (start, stop) :=
  span_of_le h.offset_start h.offset_stop h.le

theorem span_of_not_spans (h : ∀ start stop, ¬ Spans document range start stop) :
    span document range = (document.clampedCursor, document.clampedCursor) := by
  rw [span]
  cases hstart : document.offsetOf? range.start.line range.start.character with
  | none => rfl
  | some start =>
    cases hstop : document.offsetOf? range.stop.line range.stop.character with
    | none => rfl
    | some stop => exact if_neg fun hle => h start stop ⟨hstart, hstop, hle⟩

theorem clampedCursor_of_isBoundary (h : IsBoundary document.text document.cursor) :
    document.clampedCursor = document.cursor :=
  Nat.min_eq_left h.le

theorem span_le (document : Snapshot) (range : Range) :
    (span document range).1 ≤ (span document range).2 ∧
      (span document range).2 ≤ document.size := by
  by_cases h : ∃ start stop, Spans document range start stop
  · obtain ⟨start, stop, hspans⟩ := h
    rw [span_of_spans hspans]
    exact ⟨hspans.le, Snapshot.le_of_offsetOf? hspans.offset_stop⟩
  · simp only [not_exists] at h
    rw [span_of_not_spans h]
    exact ⟨Nat.le_refl _, Nat.min_le_right _ _⟩

theorem isWhole_span_iff (hcursor : IsBoundary document.text document.cursor) (range : Range) :
    document.IsWhole (span document range).1 (span document range).2 ↔
      ¬ SplitsCharacter document range := by
  by_cases h : ∃ start stop, Spans document range start stop
  · obtain ⟨start, stop, hspans⟩ := h
    rw [span_of_spans hspans]
    constructor
    · rintro hwhole ⟨start', stop', hspans', hsplits⟩
      have hsame := (span_of_spans hspans).symm.trans (span_of_spans hspans')
      cases hsame
      exact hsplits ⟨hwhole.isBoundary_start, hwhole.isBoundary_stop⟩
    · intro hsplits
      have hboundaries := Classical.byContradiction fun hnot => hsplits ⟨start, stop, hspans, hnot⟩
      exact ⟨hspans.le, hboundaries.1, hboundaries.2⟩
  · simp only [not_exists] at h
    rw [span_of_not_spans h, clampedCursor_of_isBoundary hcursor]
    constructor
    · rintro _ ⟨start, stop, hspans, _⟩
      exact h start stop hspans
    · intro _
      exact ⟨Nat.le_refl _, hcursor, hcursor⟩

end

/-- What comes of putting an item into a document. -/
structure Lands (document : Snapshot) (item : Item) (after : Snapshot) : Prop where
  ordered : (span document item.range).1 ≤ (span document item.range).2
  within : (span document item.range).2 ≤ document.size
  /-- A range whose ends the document does not have stands for the cursor. -/
  fallsBack : (∀ start stop, ¬ Spans document item.range start stop) →
    span document item.range = (document.cursor, document.cursor)
  isWhole_iff : document.IsWhole (span document item.range).1 (span document item.range).2 ↔
    ¬ SplitsCharacter document item.range
  edits : ¬ SplitsCharacter document item.range →
    after.bytes = document.bytes.take (span document item.range).1 ++
      Utf8.encode item.insertText.toList ++ document.bytes.drop (span document item.range).2
  skips : SplitsCharacter document item.range → after = document

/-- The selected item takes the place of the bytes that its range stands for. One whose range splits
a character is accepted as well, but the document stays as it is. -/
theorem lands_acceptSelected {c : Completion} {item : Item} (h : c.menu.selected? = some item)
    {document : Snapshot} (hcursor : IsBoundary document.text document.cursor) :
    (c.acceptSelected document).1 = true ∧
      Lands document item
        ((c.acceptSelected document).2.1.foldl Demand.perform document) := by
  rw [acceptSelected_of_selected h]
  refine ⟨rfl, ?_⟩
  have hwhole := isWhole_span_iff hcursor item.range
  constructor
  case ordered => exact (span_le document item.range).1
  case within => exact (span_le document item.range).2
  case fallsBack =>
    intro hspans
    rw [span_of_not_spans hspans, clampedCursor_of_isBoundary hcursor]
  case isWhole_iff => exact hwhole
  case edits =>
    intro hsplits
    exact (Snapshot.replace_of_isWhole (hwhole.2 hsplits) item.insertText).1
  case skips =>
    intro hsplits
    exact Snapshot.replace_of_not_isWhole (fun h => hwhole.1 h hsplits) item.insertText

/-- An entry whose edit puts a word between two columns of the first line. -/
def wordEntry (start stop : Int) : Json :=
  .obj [("label", .str "print"), ("textEdit", .obj [("newText", .str "print"),
    ("range", .obj [
      ("start", .obj [("line", .int 0), ("character", .int start)]),
      ("end", .obj [("line", .int 0), ("character", .int stop)])])])]

/-- A document of one character, which takes two bytes. -/
def accented : Snapshot := .ofText "\u00e9" 2

/-- A client that was offered such an entry behind that character. -/
def offered (start stop : Int) : Completion :=
  ((ofConfig {}).respond
    (.publish [wordEntry start stop] (Cursor.resolve accented 0 2) 25)).2

def shown (start stop : Int) : Item :=
  { Item.ofEntry (wordEntry start stop) (Cursor.resolve accented 0 2) with sortKey := "Cprint" }

def edited (start stop : Int) : Snapshot :=
  ((offered start stop).acceptSelected accented).2.1.foldl Demand.perform accented

theorem lands_over_accent :
    (offered 0 2).menu.selected? = some (shown 0 2) ∧
      IsBoundary accented.text accented.cursor ∧
      Lands accented (shown 0 2) (edited 0 2) ∧ (edited 0 2).text = "print" := by
  have hselected : (offered 0 2).menu.selected? = some (shown 0 2) := by decide +kernel
  have hcursor : IsBoundary accented.text accented.cursor := by decide +kernel
  exact ⟨hselected, hcursor, (lands_acceptSelected hselected hcursor).2, by decide +kernel⟩

/-- An item whose range lies inside the character is accepted, but the document stays as it is. -/
theorem acceptSelected_inside :
    (offered 1 1).menu.selected? = some (shown 1 1) ∧
      IsBoundary accented.text accented.cursor ∧
      span accented (shown 1 1).range = (1, 1) ∧ ¬ IsBoundary accented.text 1 ∧
      ((offered 1 1).acceptSelected accented).1 = true ∧
      (edited 1 1).text = accented.text ∧
      (edited 1 1).bytes ≠ accented.bytes.take 1 ++ Utf8.encode (shown 1 1).insertText.toList ++
        accented.bytes.drop 1 := by
  decide +kernel

end LanguageClient.Workspace.Completion
