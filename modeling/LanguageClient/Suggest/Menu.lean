import LanguageClient.Suggest.Ranking

namespace LanguageClient.Suggest

/-- How a request ended. -/
inductive Outcome where
  | resolved (count : Nat)
  | timedOut
  | failed
  | dropped
  deriving DecidableEq

def Outcome.name : Outcome → String
  | resolved _ => "resolved"
  | timedOut => "timed_out"
  | failed => "failed"
  | dropped => "dropped"

def Outcome.json : Outcome → Json
  | resolved count => .obj [("outcome", .str "resolved"), ("count", .int count)]
  | outcome => .obj [("outcome", .str outcome.name)]

/-- The offered items, the selected one, whether the list is shown, and how requests ended. -/
structure Menu where
  items : List Item := []
  selectedIndex : Nat := 0
  visible : Bool := false
  settledRequest : Option Int := none
  lastOutcome : Option Outcome := none

namespace Menu

def selected? (m : Menu) : Option Item :=
  if m.visible then m.items[m.selectedIndex]? else none

/-- Whether a request has ended. Requests end in the order of their ids. -/
def hasSettled (m : Menu) (id : Int) : Bool :=
  match m.settledRequest with
  | some settled => id ≤ settled
  | none => false

/-- Shows ranked items; an empty list stays hidden. -/
def publish (m : Menu) (ranked : Ranked) : Menu :=
  { m with items := ranked.items, selectedIndex := ranked.selected
           visible := !ranked.items.isEmpty }

def clear (m : Menu) : Menu := { m with items := [], selectedIndex := 0, visible := false }

def settle (m : Menu) (id : Int) (outcome : Outcome) : Menu :=
  { m with
    settledRequest := if m.hasSettled id then m.settledRequest else some id
    lastOutcome := some outcome }

def select (m : Menu) (index : Nat) : Bool × Menu :=
  if index < m.items.length then (true, { m with selectedIndex := index }) else (false, m)

def dismiss (m : Menu) : Menu := { m with visible := false }

/-- A visible list holds the selected item. -/
def WellFormed (m : Menu) : Prop := m.visible = true → m.selectedIndex < m.items.length

theorem WellFormed.selected?_isSome {m : Menu} (h : m.WellFormed) :
    m.selected?.isSome = m.visible := by
  cases hv : m.visible with
  | false => simp [selected?, hv]
  | true => simp [selected?, hv, h hv]

def json (m : Menu) : Json :=
  .obj [
    ("items", .arr (m.items.map Item.json)),
    ("selected_index", .int m.selectedIndex),
    ("visible", .bool m.visible),
    ("settled_request", match m.settledRequest with | some id => .int id | none => .null),
    ("last_outcome", match m.lastOutcome with | some o => o.json | none => .null)]

end Menu

end LanguageClient.Suggest
