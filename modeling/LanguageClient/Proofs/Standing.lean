import LanguageClient.Proofs.Ranking
import Mathlib.Data.Prod.Lex

namespace LanguageClient.Suggest

open Document (Cursor Place)

namespace Match

/-- Where a match belongs, better matches first. -/
def level : Match → Nat
  | exactStart => 0
  | start => 1
  | inside => 2
  | none => 3

/-- Where a match is put by its mark. -/
def listed : Match → Nat
  | exactStart => 0
  | inside => 1
  | start => 2
  | none => 3

/-- The first character of the key of an item with this match and grade. -/
def sign (grade : Char) : Match → Char
  | exactStart => '!'
  | inside => '#'
  | start => '@'
  | none => grade

theorem sign_lt {m n : Match} (h : m.listed < n.listed) (g : Char) {g' : Char} (hg : 'A' ≤ g') :
    m.sign g < n.sign g' := by
  have hmark : '@' < g' := lt_of_lt_of_le (by decide) hg
  cases m with
  | exactStart =>
    cases n with
    | exactStart => exact absurd h (lt_irrefl _)
    | inside => exact (by decide : '!' < '#')
    | start => exact (by decide : '!' < '@')
    | none => exact lt_trans (by decide : '!' < '@') hmark
  | inside =>
    cases n with
    | exactStart | inside => exact absurd h (by decide)
    | start => exact (by decide : '#' < '@')
    | none => exact lt_trans (by decide : '#' < '@') hmark
  | start =>
    cases n with
    | exactStart | inside | start => exact absurd h (by decide)
    | none => exact hmark
  | none =>
    cases n with
    | exactStart | inside | start | none => exact absurd h (by decide)

theorem eq_of_listed_eq {m n : Match} (h : m.listed = n.listed) : m = n := by
  cases m <;> cases n <;> first | rfl | cases h

theorem level_lt_of_listed_lt {m n : Match} (h : m.listed < n.listed)
    (hpair : ¬ (m = .inside ∧ n = .start)) : m.level < n.level := by
  cases m <;> cases n <;> simp [level, listed] at h hpair ⊢

theorem cons_mark (g : Char) (m : Match) :
    ∃ rest, ∀ text, m.mark ++ g :: text = m.sign g :: (rest ++ text) := by
  cases m with
  | exactStart => exact ⟨[g], fun _ => rfl⟩
  | start => exact ⟨[g], fun _ => rfl⟩
  | inside => exact ⟨[g], fun _ => rfl⟩
  | none => exact ⟨[], fun _ => rfl⟩

theorem mark_append_lt {m n : Match} (h : m.listed < n.listed) (g : Char) {g' : Char}
    (hg : 'A' ≤ g') (text text' : List Char) : m.mark ++ g :: text < n.mark ++ g' :: text' := by
  obtain ⟨rest, hm⟩ := m.cons_mark g
  obtain ⟨rest', hn⟩ := n.cons_mark g'
  rw [hm, hn]
  exact List.cons_lt_cons_iff.2 (.inl (sign_lt h g hg))

end Match

theorem le_grade (label : String) (kind : Int) (place : Place) : 'A' ≤ grade label kind place := by
  unfold grade
  repeat' split
  all_goals decide

theorem append_lt_append_iff (start a b : List Char) : start ++ a < start ++ b ↔ a < b := by
  induction start with
  | nil => rfl
  | cons c start ih =>
    rw [List.cons_append, List.cons_append, List.cons_lt_cons_iff, ih]
    constructor
    · rintro (hc | ⟨_, hlt⟩)
      · exact absurd hc (lt_irrefl c)
      · exact hlt
    · intro hlt
      exact .inr ⟨rfl, hlt⟩

namespace Item

/-- What the place of an item depends on, the matches put in some order: the match, the grade, and
the server's sort text. -/
def standing (order : Match → Nat) (place : Place) (word : String) (item : Item) :
    Nat ×ₗ Char ×ₗ String :=
  toLex (order (.of item.label word), toLex (grade item.label item.kind place, item.sortKey))

variable {order : Match → Nat} {place : Place} {word : String} {a b : Item}

theorem standing_lt_iff :
    a.standing order place word < b.standing order place word ↔
      order (.of a.label word) < order (.of b.label word) ∨
        order (.of a.label word) = order (.of b.label word) ∧
          grade a.label a.kind place :: a.sortKey.toList <
            grade b.label b.kind place :: b.sortKey.toList := by
  rw [standing, standing, Prod.Lex.toLex_lt_toLex, Prod.Lex.toLex_lt_toLex, List.cons_lt_cons_iff]
  rfl

theorem toList_sortKey_prioritize (place : Place) (word : String) (item : Item) :
    (item.prioritize place word).sortKey.toList =
      (if word.isEmpty then [] else (Match.of item.label word).mark) ++
        grade item.label item.kind place :: item.sortKey.toList := by
  rw [prioritize, priority]
  simp

theorem of_isEmpty (h : word.isEmpty = true) (label : String) :
    Match.of label word = .exactStart := by
  have hword : word = "" := by simpa using h
  subst hword
  rfl

theorem sortKey_prioritize_lt_iff :
    (a.prioritize place word).sortKey < (b.prioritize place word).sortKey ↔
      a.standing Match.listed place word < b.standing Match.listed place word := by
  change (a.prioritize place word).sortKey.toList < (b.prioritize place word).sortKey.toList ↔ _
  rw [toList_sortKey_prioritize, toList_sortKey_prioritize, standing_lt_iff]
  by_cases hword : word.isEmpty
  · rw [if_pos hword, if_pos hword, of_isEmpty hword, of_isEmpty hword]
    simp
  rw [if_neg hword, if_neg hword]
  rcases lt_trichotomy (Match.of a.label word).listed (Match.of b.label word).listed with
    hlt | heq | hgt
  · have hkey := Match.mark_append_lt hlt (grade a.label a.kind place)
      (le_grade b.label b.kind place) a.sortKey.toList b.sortKey.toList
    exact iff_of_true hkey (.inl hlt)
  · rw [Match.eq_of_listed_eq heq, append_lt_append_iff]
    simp
  · have hkey := Match.mark_append_lt hgt (grade b.label b.kind place)
      (le_grade a.label a.kind place) b.sortKey.toList a.sortKey.toList
    refine iff_of_false hkey.asymm ?_
    rintro (hlt | ⟨heq, _⟩)
    · exact absurd hlt hgt.asymm
    · exact absurd heq hgt.ne'

/-- Of two items in the order of their keys, the first one belongs there unless its label merely
contains a word that the other label begins with. -/
theorem standing_level_le_iff
    (h : a.standing Match.listed place word ≤ b.standing Match.listed place word) :
    a.standing Match.level place word ≤ b.standing Match.level place word ↔
      ¬ (Match.of a.label word = .inside ∧ Match.of b.label word = .start) := by
  rw [← not_lt, standing_lt_iff] at h ⊢
  rcases lt_or_eq_of_le (Nat.le_of_not_lt fun hgt => h (.inl hgt)) with hlt | heq
  · by_cases hpair : Match.of a.label word = .inside ∧ Match.of b.label word = .start
    · have hworse : Match.level (.of b.label word) < Match.level (.of a.label word) := by
        rw [hpair.1, hpair.2]
        decide
      exact iff_of_false (fun hle => hle (.inl hworse)) (not_not_intro hpair)
    · have hbetter := Match.level_lt_of_listed_lt hlt hpair
      refine iff_of_true ?_ hpair
      rintro (hworse | ⟨heq, _⟩)
      · exact absurd hbetter hworse.asymm
      · exact absurd heq hbetter.ne'
  · rw [Match.eq_of_listed_eq heq] at h ⊢
    refine iff_of_true ?_ ?_
    · rintro (hworse | ⟨_, hlt⟩)
      · exact absurd hworse (lt_irrefl _)
      · exact h (.inr ⟨rfl, hlt⟩)
    · rintro ⟨hinside, hstart⟩
      rw [hinside] at hstart
      cases hstart

end Item

theorem mem_of_mem_survivors {items : List Item} {item : Item} (h : item ∈ survivors items) :
    item ∈ items := by
  obtain ⟨id, _, hforemost⟩ := List.mem_filterMap.1 h
  exact (List.mem_filter.1 (List.argmin_mem hforemost)).1

def shownOffers (entries : List Json) (cursor : Cursor) (limit : Nat) : List Item :=
  ((survivors (offers entries cursor)).mergeSort fun a b =>
    decide ((a.prioritize cursor.place cursor.word).sortKey ≤
      (b.prioritize cursor.place cursor.word).sortKey)).take limit

theorem items_rank (entries : List Json) (cursor : Cursor) (limit : Nat) :
    (rank entries cursor limit).items =
      (shownOffers entries cursor limit).map (Item.prioritize cursor.place cursor.word) := by
  have hsort := List.map_mergeSort (f := Item.prioritize cursor.place cursor.word)
    (s := fun a b => decide (a.sortKey ≤ b.sortKey))
    (l := survivors (offers entries cursor)) fun a _ b _ => rfl
  rw [shownOffers, List.map_take, hsort, ← distinct_eq_survivors]
  rfl

theorem mem_offers_of_mem_shownOffers {entries : List Json} {cursor : Cursor} {limit : Nat}
    {item : Item} (h : item ∈ shownOffers entries cursor limit) : item ∈ offers entries cursor := by
  apply mem_of_mem_survivors
  exact (List.mergeSort_perm _ _).mem_iff.1 (List.mem_of_mem_take h)

theorem shownOffers_pairwise (entries : List Json) (cursor : Cursor) (limit : Nat) :
    (shownOffers entries cursor limit).Pairwise fun a b =>
      a.standing Match.listed cursor.place cursor.word ≤
        b.standing Match.listed cursor.place cursor.word := by
  have hsorted := StablySorted.mergeSort
    (fun item : Item => (item.prioritize cursor.place cursor.word).sortKey)
    (survivors (offers entries cursor))
  apply (hsorted.nondecreasing.sublist (List.take_sublist limit _)).imp
  intro a b hle
  rw [← not_lt] at hle ⊢
  rwa [← Item.sortKey_prioritize_lt_iff]

/-- Better matches come first in a ranked list, then better grades, then smaller sort texts, with
one exception: an item whose label merely contains the word comes before an item whose label begins
with it but for the case. -/
theorem rank_standing_le_iff (entries : List Json) (cursor : Cursor) (limit : Nat) :
    ∃ shown : List Item, (∀ item ∈ shown, item ∈ offers entries cursor) ∧
      (rank entries cursor limit).items =
        shown.map (Item.prioritize cursor.place cursor.word) ∧
      shown.Pairwise fun a b =>
        a.standing Match.level cursor.place cursor.word ≤
            b.standing Match.level cursor.place cursor.word ↔
          ¬ (Match.of a.label cursor.word = .inside ∧ Match.of b.label cursor.word = .start) := by
  refine ⟨shownOffers entries cursor limit, ?_, items_rank entries cursor limit, ?_⟩
  · intro item hitem
    exact mem_offers_of_mem_shownOffers hitem
  · exact (shownOffers_pairwise entries cursor limit).imp Item.standing_level_le_iff

def behindInt : Cursor := .resolve (.ofText "x = int" 7) 0 7

def hint : Json := .obj [("label", .str "hint")]

def interior : Json := .obj [("label", .str "Interior")]

theorem shownOffers_behindInt :
    shownOffers [hint, interior] behindInt 25 =
      [Item.ofEntry hint behindInt, Item.ofEntry interior behindInt] := by
  have hsurvivors : survivors (offers [hint, interior] behindInt) =
      [Item.ofEntry hint behindInt, Item.ofEntry interior behindInt] := by
    rw [← distinct_eq_survivors]
    decide +kernel
  rw [shownOffers, hsurvivors, List.mergeSort_of_pairwise]
  · rfl
  · decide +kernel

/-- A label that merely contains the word is listed above one that it begins but for the case. -/
theorem hint_above_interior :
    (rank [hint, interior] behindInt 25).items =
        [Item.ofEntry hint behindInt, Item.ofEntry interior behindInt].map
          (Item.prioritize behindInt.place behindInt.word) ∧
      Match.of "hint" behindInt.word = .inside ∧ Match.of "Interior" behindInt.word = .start ∧
      (Item.ofEntry interior behindInt).standing Match.level behindInt.place behindInt.word <
        (Item.ofEntry hint behindInt).standing Match.level behindInt.place behindInt.word := by
  refine ⟨?_, by decide +kernel, by decide +kernel, ?_⟩
  · rw [items_rank, shownOffers_behindInt]
  · rw [Item.standing_lt_iff]
    exact .inl (by decide +kernel)

end LanguageClient.Suggest
