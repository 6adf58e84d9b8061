import LanguageClient.Suggest.Item

namespace LanguageClient.Suggest

open Document (Cursor)

/-- Where a range begins and ends as it is written, with numbers of any size. -/
structure Corners where
  startLine : Int
  startCharacter : Int
  stopLine : Int
  stopCharacter : Int

def Corners.Fits (c : Corners) : Prop :=
  ∀ n ∈ [c.startLine, c.startCharacter, c.stopLine, c.stopCharacter], 0 ≤ n ∧ n < UInt32.size

def Range.corners (r : Range) : Corners where
  startLine := r.start.line.toNat
  startCharacter := r.start.character.toNat
  stopLine := r.stop.line.toNat
  stopCharacter := r.stop.character.toNat

/-- A position as a value writes it. -/
structure WritesPosition (value : Json) (line character : Int) : Prop where
  line_eq : value.get? "line" = some (.int line)
  character_eq : value.get? "character" = some (.int character)

def WritesRange (value : Json) (c : Corners) : Prop :=
  ∃ start stop, value.get? "start" = some start ∧ value.get? "end" = some stop ∧
    WritesPosition start c.startLine c.startCharacter ∧
    WritesPosition stop c.stopLine c.stopCharacter

/-- An edit as an entry writes it: an object with a new text and a range. -/
def WritesEdit (entry : Json) (text : String) (c : Corners) : Prop :=
  ∃ members range, entry.get? "textEdit" = some (.obj members) ∧
    members.lookup "newText" = some (.str text) ∧ members.lookup "range" = some range ∧
    WritesRange range c

/-- What an entry without a usable edit has inserted. -/
inductive Inserts (entry : Json) (label : String) : String → Prop where
  | cleaned {text : String} (h : entry.get? "insertText" = some (.str text)) :
      Inserts entry label (Snippet.plain text)
  | label (h : ∀ text, entry.get? "insertText" ≠ some (.str text)) : Inserts entry label label

theorem coordinate?_eq_some_iff {value : Json} {n : UInt32} :
    coordinate? value = some n ↔ value = .int n.toNat := by
  constructor
  · intro h
    obtain ⟨m, hm, h⟩ := Option.bind_eq_some_iff.1 h
    obtain ⟨hlt, h⟩ := Option.ite_none_right_eq_some.1 h
    cases h
    cases value with
    | int whole =>
      obtain ⟨hnonneg, h⟩ := Option.ite_none_right_eq_some.1 hm
      cases h
      rw [UInt32.toNat_ofNat_of_lt' hlt, Int.toNat_of_nonneg hnonneg]
    | _ => cases hm
  · rintro rfl
    have hlt : n.toNat < 1 <<< 32 := n.toNat_lt
    simp only [coordinate?, Json.asNat?, Int.natCast_nonneg, if_true, Int.toNat_natCast,
      Option.bind_eq_bind, Option.bind_some, if_pos hlt, UInt32.ofNat_toNat]

theorem position?_eq_some_iff {value : Json} {p : Position} :
    position? value = some p ↔ WritesPosition value p.line.toNat p.character.toNat := by
  simp only [position?, Option.bind_eq_bind, Option.bind_eq_some_iff, Option.pure_def,
    coordinate?_eq_some_iff]
  constructor
  · rintro ⟨_, hline, _, rfl, _, hcharacter, _, rfl, ⟨⟩⟩
    exact ⟨hline, hcharacter⟩
  · rintro ⟨hline, hcharacter⟩
    exact ⟨_, hline, _, rfl, _, hcharacter, _, rfl, rfl⟩

theorem range?_eq_some_iff {value : Json} {r : Range} :
    range? value = some r ↔ WritesRange value r.corners := by
  simp only [range?, Option.bind_eq_bind, Option.bind_eq_some_iff, Option.pure_def,
    position?_eq_some_iff]
  constructor
  · rintro ⟨start, hstart, _, hbegins, stop, hstop, _, hends, ⟨⟩⟩
    exact ⟨start, stop, hstart, hstop, hbegins, hends⟩
  · rintro ⟨start, stop, hstart, hstop, hbegins, hends⟩
    exact ⟨start, hstart, r.start, hbegins, stop, hstop, r.stop, hends, rfl⟩

theorem stringMember?_eq_some_iff {entry : Json} {key text : String} :
    stringMember? entry key = some text ↔ entry.get? key = some (.str text) := by
  rw [stringMember?, Option.bind_eq_some_iff]
  constructor
  · rintro ⟨value, hvalue, htext⟩
    cases value with
    | str given =>
      cases htext
      exact hvalue
    | _ => cases htext
  · intro hvalue
    exact ⟨_, hvalue, rfl⟩

theorem stringMember?_eq_none_iff {entry : Json} {key : String} :
    stringMember? entry key = none ↔ ∀ text, entry.get? key ≠ some (.str text) := by
  simp only [Option.eq_none_iff_forall_ne_some, ne_eq, stringMember?_eq_some_iff]

theorem Corners.fits_iff {c : Corners} : c.Fits ↔ ∃ r : Range, r.corners = c := by
  constructor
  · intro h
    simp only [Fits, List.forall_mem_cons] at h
    obtain ⟨hstartLine, hstartCharacter, hstopLine, hstopCharacter, _⟩ := h
    have hread {n : Int} (hn : 0 ≤ n ∧ n < UInt32.size) :
        ((UInt32.ofNat n.toNat).toNat : Int) = n := by
      rw [UInt32.toNat_ofNat_of_lt' ((Int.toNat_lt hn.1).2 hn.2)]
      exact Int.toNat_of_nonneg hn.1
    refine ⟨⟨⟨.ofNat c.startLine.toNat, .ofNat c.startCharacter.toNat⟩,
      ⟨.ofNat c.stopLine.toNat, .ofNat c.stopCharacter.toNat⟩⟩, ?_⟩
    rw [Range.corners]
    simp only [hread hstartLine, hread hstartCharacter, hread hstopLine, hread hstopCharacter]
  · rintro ⟨r, rfl⟩
    have hread (n : UInt32) : 0 ≤ (n.toNat : Int) ∧ (n.toNat : Int) < UInt32.size :=
      ⟨Int.natCast_nonneg _, Int.ofNat_lt.2 n.toNat_lt⟩
    simp only [Fits, List.forall_mem_cons]
    exact ⟨hread _, hread _, hread _, hread _, fun _ hmem => absurd hmem List.not_mem_nil⟩

namespace Item

variable {entry : Json}

theorem edit?_of_writesEdit {text : String} {r : Range} (h : WritesEdit entry text r.corners) :
    edit? entry = some (Snippet.plain text, r) := by
  obtain ⟨members, range, hedit, htext, hrange, hcorners⟩ := h
  have htext : stringMember? (.obj members) "newText" = some text :=
    stringMember?_eq_some_iff.2 htext
  have hrange : (Json.obj members).get? "range" = some range := hrange
  simp only [edit?, hedit, Json.isObject, htext, hrange, range?_eq_some_iff.2 hcorners,
    Option.bind_eq_bind, Option.bind_some, Bool.not_true, if_neg Bool.false_ne_true,
    Option.pure_def]

theorem exists_writesEdit_of_edit? {edit : String × Range} (h : edit? entry = some edit) :
    ∃ text, WritesEdit entry text edit.2.corners ∧ edit.1 = Snippet.plain text := by
  simp only [edit?, Option.bind_eq_bind, Option.bind_eq_some_iff] at h
  obtain ⟨value, hvalue, h⟩ := h
  cases value with
  | obj members =>
    rw [Json.isObject, Bool.not_true, if_neg Bool.false_ne_true] at h
    simp only [Option.bind_eq_some_iff] at h
    obtain ⟨text, htext, range, hrange, r, hread, ⟨⟩⟩ := h
    exact ⟨text, ⟨members, range, hvalue, stringMember?_eq_some_iff.1 htext, hrange,
      range?_eq_some_iff.1 hread⟩, rfl⟩
  | _ => cases h

/-- An edit is used exactly if one is written whose corners fit. -/
theorem edit?_eq_none_iff :
    edit? entry = none ↔ ∀ text c, WritesEdit entry text c → ¬ c.Fits := by
  constructor
  · intro hnone text c hwrites hfits
    obtain ⟨r, rfl⟩ := Corners.fits_iff.1 hfits
    rw [edit?_of_writesEdit hwrites] at hnone
    cases hnone
  · intro h
    rw [Option.eq_none_iff_forall_ne_some]
    intro edit hedit
    obtain ⟨text, hwrites, _⟩ := exists_writesEdit_of_edit? hedit
    exact h text _ hwrites (Corners.fits_iff.2 ⟨edit.2, rfl⟩)

/-- An item with the text and the range of its entry's edit, or with neither of them. -/
structure TakenWhole (entry : Json) (cursor : Cursor) (item : Item) : Prop where
  edited {text : String} {c : Corners} (h : WritesEdit entry text c) (hfits : c.Fits) :
    item.insertText = Snippet.plain text ∧ item.range.corners = c
  unedited (h : ∀ text c, WritesEdit entry text c → ¬ c.Fits) :
    Inserts entry item.label item.insertText ∧
      item.range = ⟨cursor.wordStartPosition, cursor.position⟩
  label_of_str {label : String} (h : entry.get? "label" = some (.str label)) : item.label = label
  label_of_not_str (h : ∀ label, entry.get? "label" ≠ some (.str label)) : item.label = noLabel

theorem ofEntry_of_edit? {edit : String × Range} (h : edit? entry = some edit) (cursor : Cursor) :
    (ofEntry entry cursor).insertText = edit.1 ∧ (ofEntry entry cursor).range = edit.2 := by
  rw [ofEntry, h]
  exact ⟨rfl, rfl⟩

theorem ofEntry_of_no_edit (h : edit? entry = none) (cursor : Cursor) :
    Inserts entry (ofEntry entry cursor).label (ofEntry entry cursor).insertText ∧
      (ofEntry entry cursor).range = ⟨cursor.wordStartPosition, cursor.position⟩ := by
  rw [ofEntry, h]
  refine ⟨?_, rfl⟩
  change Inserts entry _ (((stringMember? entry "insertText").map Snippet.plain).getD _)
  cases htext : stringMember? entry "insertText" with
  | some text => exact .cleaned (stringMember?_eq_some_iff.1 htext)
  | none => exact .label (stringMember?_eq_none_iff.1 htext)

theorem label_ofEntry (entry : Json) (cursor : Cursor) :
    (ofEntry entry cursor).label = (stringMember? entry "label").getD noLabel := rfl

/-- A server's edit is used whole or not at all, whatever an entry looks like. -/
theorem takenWhole_ofEntry (entry : Json) (cursor : Cursor) :
    TakenWhole entry cursor (ofEntry entry cursor) where
  edited hwrites hfits := by
    obtain ⟨r, rfl⟩ := Corners.fits_iff.1 hfits
    obtain ⟨htext, hrange⟩ := ofEntry_of_edit? (edit?_of_writesEdit hwrites) cursor
    exact ⟨htext, congrArg Range.corners hrange⟩
  unedited h := ofEntry_of_no_edit (edit?_eq_none_iff.2 h) cursor
  label_of_str h := by
    rw [label_ofEntry, stringMember?_eq_some_iff.2 h, Option.getD_some]
  label_of_not_str h := by
    rw [label_ofEntry, stringMember?_eq_none_iff.2 h, Option.getD_none]

end Item

end LanguageClient.Suggest
