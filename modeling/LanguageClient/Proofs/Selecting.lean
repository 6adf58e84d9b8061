import LanguageClient.Proofs.Standing

namespace LanguageClient.Suggest

open Document (Cursor Place)

theorem Match.of_eq_exactStart_iff {label word : String} :
    Match.of label word = .exactStart ↔ beginsWith label word = true := by
  unfold Match.of
  split
  · rename_i h
    exact iff_of_true rfl h
  · rename_i h
    refine iff_of_false ?_ h
    repeat' split
    all_goals decide

@[simp] theorem Item.label_prioritize (place : Place) (word : String) (item : Item) :
    (item.prioritize place word).label = item.label := rfl

theorem Item.beginsWith_of_standing_le {place : Place} {word : String} {a b : Item}
    (h : a.standing Match.listed place word ≤ b.standing Match.listed place word)
    (hb : beginsWith b.label word = true) : beginsWith a.label word = true := by
  rw [← Match.of_eq_exactStart_iff] at hb ⊢
  rw [← not_lt, standing_lt_iff, hb, not_or] at h
  have hle : Match.listed (.of a.label word) ≤ 0 := Nat.le_of_not_lt h.1
  exact Match.eq_of_listed_eq (Nat.le_zero.1 hle)

/-- Items whose labels begin with the word come before all others. -/
def MatchesFirst (word : String) (items : List Item) : Prop :=
  items.Pairwise fun a b => beginsWith b.label word = true → beginsWith a.label word = true

namespace MatchesFirst

variable {word : String} {items : List Item}

theorem head {item other : Item} (h : MatchesFirst word (item :: items))
    (hother : other ∈ item :: items) (hbegins : beginsWith other.label word = true) :
    beginsWith item.label word = true := by
  rcases List.mem_cons.1 hother with rfl | hother
  · exact hbegins
  · exact (List.pairwise_cons.1 h).1 other hother hbegins

theorem beginsWith_eq_false {item other : Item} (h : MatchesFirst word (item :: items))
    (hitem : beginsWith item.label word = false) (hother : other ∈ item :: items) :
    beginsWith other.label word = false := by
  rw [Bool.eq_false_iff]
  intro hbegins
  rw [h.head hother hbegins] at hitem
  cases hitem

theorem exists_split (h : MatchesFirst word items) :
    ∃ before after, items = before ++ after ∧ (∀ item ∈ before, beginsWith item.label word = true) ∧
      ∀ item ∈ after, beginsWith item.label word = false := by
  induction items with
  | nil => exact ⟨[], [], rfl, List.forall_mem_nil _, List.forall_mem_nil _⟩
  | cons item rest ih =>
    cases hitem : beginsWith item.label word with
    | true =>
      obtain ⟨before, after, hrest, hbefore, hafter⟩ := ih (List.pairwise_cons.1 h).2
      refine ⟨item :: before, after, ?_, List.forall_mem_cons.2 ⟨hitem, hbefore⟩, hafter⟩
      rw [hrest, List.cons_append]
    | false =>
      refine ⟨[], item :: rest, rfl, List.forall_mem_nil _, ?_⟩
      intro other hother
      exact h.beginsWith_eq_false hitem hother

theorem firstMatch_eq_zero (h : MatchesFirst word items) : firstMatch word items = 0 := by
  cases items with
  | nil => rfl
  | cons item rest =>
    rw [firstMatch, List.findIdx?_cons]
    cases hitem : beginsWith item.label word with
    | true => rfl
    | false =>
      have hnone : rest.findIdx? (fun item => beginsWith item.label word) = none := by
        rw [List.findIdx?_eq_none_iff]
        intro other hother
        exact h.beginsWith_eq_false hitem (List.mem_cons_of_mem item hother)
      rw [hnone]
      rfl

end MatchesFirst

theorem matchesFirst_shownOffers (entries : List Json) (cursor : Cursor) (limit : Nat) :
    MatchesFirst cursor.word (shownOffers entries cursor limit) :=
  (shownOffers_pairwise entries cursor limit).imp Item.beginsWith_of_standing_le

theorem matchesFirst_rank (entries : List Json) (cursor : Cursor) (limit : Nat) :
    MatchesFirst cursor.word (rank entries cursor limit).items := by
  rw [items_rank, MatchesFirst, List.pairwise_map]
  simp only [Item.label_prioritize]
  exact matchesFirst_shownOffers entries cursor limit

/-- An offer that begins with the word is shown first, or another one that does. -/
theorem exists_head_shownOffers {entries : List Json} {cursor : Cursor} {offer : Item}
    (hoffer : offer ∈ offers entries cursor) (hbegins : beginsWith offer.label cursor.word = true)
    {limit : Nat} (hlimit : 0 < limit) :
    ∃ item rest, shownOffers entries cursor limit = item :: rest ∧
      beginsWith item.label cursor.word = true := by
  obtain ⟨best, hbest, hidentity, _⟩ := exists_survivor hoffer
  have hall := matchesFirst_shownOffers entries cursor (survivors (offers entries cursor)).length
  rw [shownOffers] at hall ⊢
  rw [List.take_of_length_le (List.length_mergeSort _).le] at hall
  have hmem := (List.mergeSort_perm (survivors (offers entries cursor)) fun a b =>
    decide ((a.prioritize cursor.place cursor.word).sortKey ≤
      (b.prioritize cursor.place cursor.word).sortKey)).mem_iff.2 hbest
  revert hall hmem
  generalize (survivors (offers entries cursor)).mergeSort _ = sorted
  intro hall hmem
  cases sorted with
  | nil => cases hmem
  | cons item rest =>
    have hlabel : best.label = offer.label := congrArg Prod.fst hidentity
    rw [← hlabel] at hbegins
    refine ⟨item, rest.take (limit - 1), List.take_cons hlimit, ?_⟩
    exact hall.head hmem hbegins

/-- The first item is the one selected. The items whose labels begin with the word come first, and
there is one among them, selected, exactly if there is one among the relevant entries. -/
theorem rank_selected {limit : Nat} (hlimit : 0 < limit) (entries : List Json) (cursor : Cursor) :
    let ranked := rank entries cursor limit
    ranked.selected = 0 ∧
      (ranked.items ≠ [] → ranked.selected < ranked.items.length) ∧
      (∃ before after, ranked.items = before ++ after ∧
        (∀ item ∈ before, beginsWith item.label cursor.word = true) ∧
        ∀ item ∈ after, beginsWith item.label cursor.word = false) ∧
      ((∃ entry ∈ entries, (Item.ofEntry entry cursor).isRelevant cursor.place = true ∧
          beginsWith (Item.ofEntry entry cursor).label cursor.word = true) ↔
        ∃ item, ranked.items[ranked.selected]? = some item ∧
          beginsWith item.label cursor.word = true) := by
  intro ranked
  have hfirst := matchesFirst_rank entries cursor limit
  have hselected : ranked.selected = 0 := hfirst.firstMatch_eq_zero
  have hitems : ranked.items = (shownOffers entries cursor limit).map
      (Item.prioritize cursor.place cursor.word) := items_rank entries cursor limit
  rw [hselected]
  refine ⟨rfl, List.length_pos_of_ne_nil, hfirst.exists_split, ?_, ?_⟩
  · rintro ⟨entry, hentry, hrelevant, hbegins⟩
    have hoffer : Item.ofEntry entry cursor ∈ offers entries cursor :=
      List.mem_filter.2 ⟨List.mem_map_of_mem hentry, hrelevant⟩
    obtain ⟨item, rest, hshown, hitem⟩ := exists_head_shownOffers hoffer hbegins hlimit
    refine ⟨item.prioritize cursor.place cursor.word, ?_, ?_⟩
    · rw [hitems, hshown, List.map_cons, List.getElem?_cons_zero]
    · rw [Item.label_prioritize]
      exact hitem
  · rintro ⟨item, hitem, hbegins⟩
    have hmem := List.mem_of_getElem? hitem
    rw [hitems] at hmem
    obtain ⟨offer, hoffer, rfl⟩ := List.mem_map.1 hmem
    rw [Item.label_prioritize] at hbegins
    have hoffered := mem_offers_of_mem_shownOffers hoffer
    rw [offers, List.mem_filter, List.mem_map] at hoffered
    obtain ⟨⟨entry, hentry, rfl⟩, hrelevant⟩ := hoffered
    exact ⟨entry, hentry, hrelevant, hbegins⟩

def behindPri : Cursor := .resolve (.ofText "x = pri" 7) 0 7

def privateEntry : Json := .obj [("label", .str "Private"), ("sortText", .str "a")]

def printfEntry : Json := .obj [("label", .str "printf"), ("sortText", .str "b")]

/-- Where only one item is shown, it is the one that begins with the word. -/
theorem rank_selected_printf :
    0 < 1 ∧ (rank [privateEntry, printfEntry] behindPri 1).selected = 0 ∧
      ∃ item, (rank [privateEntry, printfEntry] behindPri 1).items[0]? = some item ∧
        beginsWith item.label "pri" = true := by
  obtain ⟨hselected, _, _, hfirst⟩ :=
    rank_selected Nat.one_pos [privateEntry, printfEntry] behindPri
  have hword : behindPri.word = "pri" := by decide +kernel
  rw [hselected, hword] at hfirst
  refine ⟨Nat.one_pos, hselected, hfirst.1 ⟨printfEntry, by simp, ?_, ?_⟩⟩
  · decide +kernel
  · decide +kernel

end LanguageClient.Suggest
