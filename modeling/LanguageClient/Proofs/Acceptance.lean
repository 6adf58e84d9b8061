import LanguageClient.Workspace.Completion

namespace LanguageClient.Suggest

theorem firstMatch_lt (word : String) {items : List Item} (h : items ≠ []) :
    firstMatch word items < items.length := by
  rw [firstMatch]
  cases hfound : items.findIdx? fun item => beginsWith item.label word with
  | none => exact List.length_pos_iff.2 h
  | some index =>
    obtain ⟨hlt, -⟩ := List.findIdx?_eq_some_iff_getElem.1 hfound
    exact hlt

namespace Menu

theorem wellFormed_publish (m : Menu) (entries : List Json) (cursor : Document.Cursor)
    (limit : Nat) : (m.publish (rank entries cursor limit)).WellFormed := by
  intro hvisible
  have hitems : (rank entries cursor limit).items ≠ [] := by
    rwa [publish, Bool.not_eq_true', List.isEmpty_eq_false_iff] at hvisible
  exact firstMatch_lt cursor.word hitems

theorem wellFormed_of_hidden {m : Menu} (h : m.visible = false) : m.WellFormed := by
  intro hvisible
  rw [h] at hvisible
  cases hvisible

theorem WellFormed.select {m : Menu} (h : m.WellFormed) (index : Nat) :
    (m.select index).2.WellFormed := by
  rw [Menu.select]
  split
  case isTrue hlt =>
    intro _
    exact hlt
  case isFalse => exact h

theorem visible_select (m : Menu) (index : Nat) : (m.select index).2.visible = m.visible := by
  rw [Menu.select]
  split <;> rfl

end Menu

end LanguageClient.Suggest

namespace LanguageClient.Workspace

open Document Suggest

/-- What happens to a menu: the worker publishes a result, or the user acts on what is shown. -/
inductive Incident where
  | publish (entries : List Json) (cursor : Cursor) (limit : Nat)
  | clear
  | settle (id : Int) (outcome : Outcome)
  | select (index : Nat)
  | dismiss
  | accept (document : Snapshot)

/-- Whether a result with items is published. -/
def Incident.offersItems : Incident → Bool
  | publish entries cursor limit => !(rank entries cursor limit).items.isEmpty
  | clear | settle _ _ | select _ | dismiss | accept _ => false

namespace Completion

/-- What is asked of the document when something happens, and the client after that. -/
def respond (c : Completion) : Incident → List Demand × Completion
  | .publish entries cursor limit =>
    ([], { c with menu := c.menu.publish (rank entries cursor limit) })
  | .clear => ([], { c with menu := c.menu.clear })
  | .settle id outcome => ([], { c with menu := c.menu.settle id outcome })
  | .select index => ([], (c.select index).2)
  | .dismiss => ([], c.dismiss)
  | .accept document => (c.acceptSelected document).2

/-- What is asked of the document while incidents follow each other, and the client after them. -/
def undergo (c : Completion) : List Incident → List Demand × Completion
  | [] => ([], c)
  | incident :: rest =>
    let (demands, c) := c.respond incident
    let (later, c) := c.undergo rest
    (demands ++ later, c)

theorem undergo_cons (c : Completion) (incident : Incident) (rest : List Incident) :
    c.undergo (incident :: rest) =
      ((c.respond incident).1 ++ ((c.respond incident).2.undergo rest).1,
        ((c.respond incident).2.undergo rest).2) := rfl

theorem acceptSelected_of_hidden {c : Completion} (h : c.menu.visible = false)
    (document : Snapshot) : c.acceptSelected document = (false, [], c) := by
  have hselected : c.menu.selected? = none := by
    rw [Menu.selected?, h]
    rfl
  rw [acceptSelected, accept, hselected]
  rfl

theorem acceptSelected_of_selected {c : Completion} {item : Item}
    (h : c.menu.selected? = some item) (document : Snapshot) :
    c.acceptSelected document =
      (true, [.replace ⟨(span document item.range).1, (span document item.range).2,
        item.insertText⟩, .markChanged], { c with menu := c.menu.dismiss }) := by
  rw [acceptSelected, accept, h]
  rfl

theorem hidden_acceptSelected {c : Completion} (h : c.menu.WellFormed) (document : Snapshot) :
    (c.acceptSelected document).2.2.menu.visible = false := by
  cases hvisible : c.menu.visible with
  | false =>
    rw [acceptSelected_of_hidden hvisible]
    exact hvisible
  | true =>
    have hsome := h.selected?_isSome
    rw [hvisible] at hsome
    obtain ⟨item, hitem⟩ := Option.isSome_iff_exists.1 hsome
    rw [acceptSelected_of_selected hitem]
    rfl

theorem wellFormed_respond {c : Completion} (h : c.menu.WellFormed) (incident : Incident) :
    (c.respond incident).2.menu.WellFormed := by
  cases incident with
  | publish entries cursor limit => exact c.menu.wellFormed_publish entries cursor limit
  | clear => exact Menu.wellFormed_of_hidden rfl
  | settle id outcome => exact h
  | select index => exact h.select index
  | dismiss => exact Menu.wellFormed_of_hidden rfl
  | accept document => exact Menu.wellFormed_of_hidden (hidden_acceptSelected h document)

theorem wellFormed_undergo {c : Completion} (h : c.menu.WellFormed) (incidents : List Incident) :
    (c.undergo incidents).2.menu.WellFormed := by
  induction incidents generalizing c with
  | nil => exact h
  | cons incident rest ih => exact ih (wellFormed_respond h incident)

theorem visible_respond (c : Completion) {incident : Incident}
    (h : incident.offersItems = true) : (c.respond incident).2.menu.visible = true := by
  cases incident with
  | publish entries cursor limit => exact h
  | clear => cases h
  | settle id outcome => cases h
  | select index => cases h
  | dismiss => cases h
  | accept document => cases h

/-- Only a published item brings a hidden list back, and until then nothing is asked. -/
theorem respond_of_hidden {c : Completion} (h : c.menu.visible = false) {incident : Incident}
    (hquiet : incident.offersItems = false) :
    (c.respond incident).1 = [] ∧ (c.respond incident).2.menu.visible = false := by
  cases incident with
  | publish entries cursor limit => exact ⟨rfl, hquiet⟩
  | clear => exact ⟨rfl, rfl⟩
  | settle id outcome => exact ⟨rfl, h⟩
  | select index => exact ⟨rfl, (c.menu.visible_select index).trans h⟩
  | dismiss => exact ⟨rfl, rfl⟩
  | accept document =>
    rw [respond, acceptSelected_of_hidden h]
    exact ⟨rfl, h⟩

theorem undergo_of_hidden {c : Completion} (h : c.menu.visible = false)
    {incidents : List Incident} (hquiet : ∀ i ∈ incidents, i.offersItems = false) :
    (c.undergo incidents).1 = [] ∧ (c.undergo incidents).2.menu.visible = false := by
  induction incidents generalizing c with
  | nil => exact ⟨rfl, h⟩
  | cons incident rest ih =>
    obtain ⟨hfirst, hrest⟩ := List.forall_mem_cons.1 hquiet
    obtain ⟨hdemands, hhidden⟩ := respond_of_hidden h hfirst
    obtain ⟨hlater, hlast⟩ := ih hhidden hrest
    rw [undergo_cons, hdemands, hlater]
    exact ⟨rfl, hlast⟩

/-- A client that shows a list only with a selected item, and asks for that item to be put into the
document once. -/
structure AcceptsOnce (c : Completion) : Prop where
  shows : c.menu.visible = true →
    c.menu.items ≠ [] ∧ c.menu.selectedIndex < c.menu.items.length
  selected : c.menu.selected?.isSome = c.menu.visible
  answers : ∀ document, (c.acceptSelected document).1 = c.menu.visible
  asks : c.menu.visible = true → ∃ item, c.menu.items[c.menu.selectedIndex]? = some item ∧
    ∀ document, (c.acceptSelected document).2.1 =
      [.replace ⟨(span document item.range).1, (span document item.range).2, item.insertText⟩,
        .markChanged]
  hides : ∀ document, (c.acceptSelected document).2.2.menu.visible = false
  returns : ∀ incident, incident.offersItems = true → (c.respond incident).2.menu.visible = true
  /-- Until items are published again nothing more is asked and nothing more is accepted. -/
  once : ∀ document incidents, (∀ i ∈ incidents, i.offersItems = false) →
    ((c.acceptSelected document).2.2.undergo incidents).1 = [] ∧
      ∀ other, (((c.acceptSelected document).2.2.undergo incidents).2.acceptSelected other) =
        (false, [], ((c.acceptSelected document).2.2.undergo incidents).2)

theorem acceptsOnce_of_wellFormed {c : Completion} (h : c.menu.WellFormed) : AcceptsOnce c := by
  have hselected := h.selected?_isSome
  constructor
  case shows =>
    intro hvisible
    exact ⟨List.ne_nil_of_length_pos (Nat.zero_lt_of_lt (h hvisible)), h hvisible⟩
  case selected => exact hselected
  case answers =>
    intro document
    cases hitem : c.menu.selected? with
    | none =>
      rw [hitem] at hselected
      rw [acceptSelected_of_hidden hselected.symm]
      exact hselected
    | some item =>
      rw [hitem] at hselected
      rw [acceptSelected_of_selected hitem]
      exact hselected
  case asks =>
    intro hvisible
    rw [hvisible] at hselected
    obtain ⟨item, hitem⟩ := Option.isSome_iff_exists.1 hselected
    refine ⟨item, ?_, fun document => by rw [acceptSelected_of_selected hitem]⟩
    rwa [Menu.selected?, if_pos hvisible] at hitem
  case hides => exact hidden_acceptSelected h
  case returns => exact fun incident => visible_respond c
  case once =>
    intro document incidents hquiet
    obtain ⟨hdemands, hhidden⟩ := undergo_of_hidden (hidden_acceptSelected h document) hquiet
    exact ⟨hdemands, acceptSelected_of_hidden hhidden⟩

/-- Whatever the worker publishes and the user does to the menu of a new client, in whatever order,
the client accepts what it shows once. -/
theorem acceptsOnce_run (config : Config) (incidents : List Incident) :
    AcceptsOnce ((ofConfig config).undergo incidents).2 := by
  have hfresh : (ofConfig config).menu.WellFormed := Menu.wellFormed_of_hidden rfl
  exact acceptsOnce_of_wellFormed (wellFormed_undergo hfresh incidents)

end Completion

end LanguageClient.Workspace
