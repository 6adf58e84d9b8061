import LanguageClient.CommandLine.Run
import LanguageClient.Proofs.Acceptance
import LanguageClient.Proofs.Decimal
import Mathlib.Data.List.Flatten
import Mathlib.Tactic.IntervalCases

namespace LanguageClient

namespace Json

/-- A character that is not a control character below space. -/
def IsPrintable (c : Char) : Prop := 0x20 ≤ c.toNat

instance (c : Char) : Decidable (IsPrintable c) := inferInstanceAs (Decidable (0x20 ≤ c.toNat))

theorem isPrintable_of_all {chars : List Char}
    (h : chars.all (fun c => decide (IsPrintable c)) = true) : ∀ c ∈ chars, IsPrintable c :=
  fun c hc => of_decide_eq_true (List.all_eq_true.1 h c hc)

theorem isPrintable_hexDigit {n : Nat} (h : n < 16) : IsPrintable (hexDigit n) := by
  interval_cases n <;> decide

theorem isPrintable_escape (c : Char) : ∀ d ∈ escape c, IsPrintable d := by
  rw [escape.eq_def]
  split
  case h_8 =>
    split
    case isTrue hcontrol =>
      have hhigh : IsPrintable (hexDigit (c.toNat / 16)) := isPrintable_hexDigit (by omega)
      have hlow : IsPrintable (hexDigit (c.toNat % 16)) := isPrintable_hexDigit (by omega)
      simp only [List.forall_mem_cons]
      exact ⟨by decide, by decide, by decide, by decide, hhigh, hlow, List.forall_mem_nil _⟩
    case isFalse hcontrol => exact List.forall_mem_singleton.2 (Nat.le_of_not_lt hcontrol)
  all_goals exact isPrintable_of_all (by decide)

theorem isPrintable_quote (text : String) : ∀ c ∈ quote text, IsPrintable c := by
  rw [quote, List.forall_mem_cons, List.forall_mem_append, List.forall_mem_singleton]
  refine ⟨by decide, ?_, by decide⟩
  intro c hc
  obtain ⟨d, _, hescape⟩ := List.mem_flatMap.1 hc
  exact isPrintable_escape d c hescape

theorem isPrintable_renderInt (n : Int) : ∀ c ∈ (Decimal.renderInt n).toList, IsPrintable c := by
  have hdigits : ∀ c ∈ Decimal.digits n.natAbs, IsPrintable c := by
    intro c hc
    have hdigit := Decimal.isDigit_iff.1 (Decimal.isDigit_of_mem_digits hc)
    exact le_trans (by decide : 0x20 ≤ 48) hdigit.1
  have hrender : (Decimal.render n.natAbs).toList = Decimal.digits n.natAbs := String.toList_ofList
  rw [Decimal.renderInt]
  split
  · rw [String.toList_append, hrender, List.forall_mem_append]
    exact ⟨isPrintable_of_all (by decide), hdigits⟩
  · rw [hrender]
    exact hdigits

mutual

theorem isPrintable_chars (value : Json) : ∀ c ∈ value.chars, IsPrintable c := by
  match value with
  | null | bool true | bool false =>
    rw [chars]
    exact isPrintable_of_all (by decide)
  | int n =>
    rw [chars]
    exact isPrintable_renderInt n
  | real m e =>
    rw [chars, List.forall_mem_append, List.forall_mem_cons]
    exact ⟨isPrintable_renderInt m, by decide, isPrintable_renderInt e⟩
  | str text =>
    rw [chars]
    exact isPrintable_quote text
  | arr items =>
    rw [chars, List.forall_mem_cons, List.forall_mem_append, List.forall_mem_singleton]
    exact ⟨by decide, isPrintable_itemChars items, by decide⟩
  | obj members =>
    rw [chars, List.forall_mem_cons, List.forall_mem_append, List.forall_mem_singleton]
    exact ⟨by decide, isPrintable_memberChars members, by decide⟩

theorem isPrintable_itemChars (items : List Json) : ∀ c ∈ itemChars items, IsPrintable c := by
  match items with
  | [] =>
    rw [itemChars]
    exact List.forall_mem_nil _
  | [item] =>
    rw [itemChars]
    exact isPrintable_chars item
  | item :: next :: rest =>
    rw [itemChars, List.forall_mem_append, List.forall_mem_cons]
    exact ⟨isPrintable_chars item, by decide, isPrintable_itemChars (next :: rest)⟩

theorem isPrintable_memberChars (members : List (String × Json)) :
    ∀ c ∈ memberChars members, IsPrintable c := by
  match members with
  | [] =>
    rw [memberChars]
    exact List.forall_mem_nil _
  | [(key, value)] =>
    rw [memberChars, List.forall_mem_append, List.forall_mem_cons]
    exact ⟨isPrintable_quote key, by decide, isPrintable_chars value⟩
  | (key, value) :: next :: rest =>
    rw [memberChars, List.forall_mem_append, List.forall_mem_cons, List.forall_mem_append,
      List.forall_mem_cons]
    exact ⟨isPrintable_quote key, by decide, isPrintable_chars value, by decide,
      isPrintable_memberChars (next :: rest)⟩

end

end Json

namespace CommandLine

open Suggest

/-- The items of a menu, each with whether it is the selected one. -/
def marked (menu : Menu) : List (Item × Bool) :=
  menu.items.mapIdx fun index item => (item, index == menu.selectedIndex)

/-- The text of a line: an item's members, and whether it is marked. -/
def lineText (line : Item × Bool) : List Char :=
  (Json.obj (line.1.members ++ [("selected", .bool line.2)])).chars

/-- Output that prints a menu: a line of JSON for each item in order, of which exactly one is marked
if there are any. -/
structure Prints (output : String) (menu : Menu) : Prop where
  lines : output.toList = (marked menu).flatMap fun line => lineText line ++ ['\n']
  items : (marked menu).map Prod.fst = menu.items
  mark : menu.items ≠ [] → (marked menu).countP Prod.snd = 1
  unbroken : ∀ line ∈ marked menu, '\n' ∉ lineText line

theorem newline_not_mem_lineText (line : Item × Bool) : '\n' ∉ lineText line := by
  intro hmem
  have hprintable := Json.isPrintable_chars _ '\n' hmem
  exact absurd hprintable (by decide)

theorem countP_mapIdx_beq {α : Type} {items : List α} {index : Nat} (h : index < items.length) :
    (items.mapIdx fun i item => (item, i == index)).countP Prod.snd = 1 := by
  induction items generalizing index with
  | nil => exact absurd h (Nat.not_lt_zero index)
  | cons item rest ih =>
    rw [List.mapIdx_cons, List.countP_cons]
    cases index with
    | zero => simp [List.countP_eq_zero]
    | succ index =>
      have hrest := ih (Nat.lt_of_succ_lt_succ h)
      simpa using hrest

theorem map_fst_marked (menu : Menu) : (marked menu).map Prod.fst = menu.items := by
  rw [marked, List.mapIdx_eq_zipIdx_map, List.map_map]
  exact List.zipIdx_map_fst 0 menu.items

theorem itemLines_eq_map (menu : Menu) :
    itemLines menu = (marked menu).map fun line => itemLine line.1 line.2 := by
  rw [itemLines, marked, List.mapIdx_eq_zipIdx_map, List.mapIdx_eq_zipIdx_map, List.map_map]
  rfl

theorem toList_itemLine (line : Item × Bool) :
    (itemLine line.1 line.2).toList = lineText line ++ ['\n'] := by
  rw [itemLine, String.toList_append, Json.render, String.toList_ofList]
  rfl

theorem prints_itemLines {menu : Menu}
    (h : menu.items ≠ [] → menu.selectedIndex < menu.items.length) :
    Prints (String.join (itemLines menu)) menu where
  lines := by
    rw [String.toList_join, itemLines_eq_map, List.flatMap_map]
    simp only [toList_itemLine]
  items := map_fst_marked menu
  mark hne := countP_mapIdx_beq (h hne)
  unbroken line _ := newline_not_mem_lineText line

end CommandLine

end LanguageClient
