import LanguageClient.Proofs.StableSort
import LanguageClient.Suggest.Ranking
import Mathlib.Data.Finset.Card
import Mathlib.Data.List.MinMax
import Mathlib.Data.String.Basic

namespace LanguageClient.Suggest

open Document (Cursor Place)

/-- The items that a server's entries offer at a cursor. -/
def offers (entries : List Json) (cursor : Cursor) : List Item :=
  (entries.map (Item.ofEntry · cursor)).filter (·.isRelevant cursor.place)

/-- The earliest of the items with the least sort text among the offers of one completion. -/
def foremost? (items : List Item) (identity : String × Int) : Option Item :=
  (items.filter (·.identity = identity)).argmin Item.sortKey

/-- The foremost offer of each completion, in the order in which these are first offered. -/
def survivors (items : List Item) : List Item :=
  (items.map Item.identity).eraseDups.filterMap (foremost? items)

theorem identity_of_foremost? {items : List Item} {id : String × Int} {item : Item}
    (h : foremost? items id = some item) : item.identity = id :=
  of_decide_eq_true (List.mem_filter.1 (List.argmin_mem h)).2

theorem foremost?_le {items : List Item} {item other : Item}
    (h : foremost? items other.identity = some item) (ho : other ∈ items) :
    item.sortKey ≤ other.sortKey :=
  List.le_of_mem_argmin (List.mem_filter.2 ⟨ho, decide_eq_true rfl⟩) h

theorem exists_foremost? {items : List Item} {item : Item} (h : item ∈ items) :
    ∃ best, foremost? items item.identity = some best := by
  rw [← Option.ne_none_iff_exists']
  intro hn
  have := List.argmin_eq_none.1 hn
  exact List.ne_nil_of_mem (List.mem_filter.2 ⟨h, decide_eq_true rfl⟩) this

theorem foremost?_eq_none {items : List Item} {id : String × Int}
    (h : id ∉ items.map Item.identity) : foremost? items id = none := by
  rw [foremost?, List.argmin_eq_none, List.filter_eq_nil_iff]
  intro item hi he
  exact h (List.mem_map.2 ⟨item, hi, of_decide_eq_true he⟩)

theorem foremost?_append (items : List Item) (item : Item) (id : String × Int) :
    foremost? (items ++ [item]) id =
      if item.identity = id then
        match foremost? items id with
        | none => some item
        | some kept => some (if item.sortKey < kept.sortKey then item else kept)
      else foremost? items id := by
  by_cases h : item.identity = id
  · rw [if_pos h, foremost?, List.filter_append, List.filter_singleton, decide_eq_true h, cond_true,
      List.argmin_concat, foremost?]
    cases (items.filter (·.identity = id)).argmin Item.sortKey with
    | none => rfl
    | some kept => exact (apply_ite some _ _ _).symm
  · rw [if_neg h, foremost?, List.filter_append, List.filter_singleton, decide_eq_false h]
    simp [foremost?]

theorem merge_of_forall_ne {item : Item} {items : List Item}
    (h : ∀ kept ∈ items, kept.identity ≠ item.identity) : merge item items = items ++ [item] := by
  induction items with
  | nil => rfl
  | cons kept rest ih =>
    rw [merge, if_neg (h kept List.mem_cons_self),
      ih fun other ho => h other (List.mem_cons_of_mem _ ho)]
    rfl

/-- Merging an offer into kept ones, one for each identity of a list, changes only the one that it
competes with. -/
theorem merge_filterMap {item : Item} {ids : List (String × Int)} (hn : ids.Nodup)
    (hi : item.identity ∈ ids) {old new : String × Int → Option Item}
    (hold : ∀ id kept, old id = some kept → kept.identity = id)
    (hsame : ∀ id ≠ item.identity, new id = old id) {kept : Item}
    (hkept : old item.identity = some kept)
    (hnew : new item.identity = some (if item.sortKey < kept.sortKey then item else kept)) :
    merge item (ids.filterMap old) = ids.filterMap new := by
  induction ids with
  | nil => cases hi
  | cons id ids ih =>
    obtain ⟨hid, hn⟩ := List.nodup_cons.1 hn
    by_cases he : id = item.identity
    · have hrest : ids.filterMap old = ids.filterMap new := by
        apply List.filterMap_congr
        intro other ho
        refine (hsame other ?_).symm
        rintro rfl
        exact hid (he ▸ ho)
      rw [List.filterMap_cons_some (he ▸ hkept), List.filterMap_cons_some (he ▸ hnew), merge,
        if_pos (hold _ _ hkept), hrest]
    · have hmem : item.identity ∈ ids := (List.mem_cons.1 hi).resolve_left (Ne.symm he)
      have hcons := hsame id he
      cases ho : old id with
      | none =>
        rw [ho] at hcons
        rw [List.filterMap_cons_none ho, List.filterMap_cons_none hcons]
        exact ih hn hmem
      | some other =>
        rw [ho] at hcons
        have hne : other.identity ≠ item.identity := hold id other ho ▸ he
        rw [List.filterMap_cons_some ho, List.filterMap_cons_some hcons, merge, if_neg hne,
          ih hn hmem]

theorem nodup_eraseDups {α : Type} [BEq α] [LawfulBEq α] (l : List α) : l.eraseDups.Nodup := by
  -- on the length, as `eraseDups` goes on with a filtered tail
  induction h : l.length using Nat.strong_induction_on generalizing l with
  | _ n ih =>
    cases l with
    | nil => exact List.nodup_nil
    | cons a l =>
      rw [List.eraseDups_cons, List.nodup_cons, List.mem_eraseDups]
      subst h
      refine ⟨by simp, ih _ ?_ _ rfl⟩
      exact Nat.lt_succ_of_le (List.length_filter_le _ l)

theorem eraseDups_append_of_mem {α : Type} [BEq α] [LawfulBEq α] {l : List α} {a : α}
    (h : a ∈ l) : (l ++ [a]).eraseDups = l.eraseDups := by
  have hremove : [a].removeAll l = [] := by
    rw [List.removeAll, List.filter_singleton, List.elem_eq_true_of_mem h]
    rfl
  rw [List.eraseDups_append, hremove, List.eraseDups_nil, List.append_nil]

theorem eraseDups_append_of_not_mem {α : Type} [BEq α] [LawfulBEq α] {l : List α} {a : α}
    (h : a ∉ l) : (l ++ [a]).eraseDups = l.eraseDups ++ [a] := by
  have hremove : [a].removeAll l = [a] := by
    have hnew : List.elem a l = false :=
      Bool.eq_false_iff.2 fun he => h (List.mem_of_elem_eq_true he)
    rw [List.removeAll, List.filter_singleton, hnew]
    rfl
  rw [List.eraseDups_append, hremove]
  rfl

/-- Taking offers in one by one keeps exactly the foremost one of each completion. -/
theorem distinct_eq_survivors (items : List Item) : distinct items = survivors items := by
  induction items using List.reverseRecOn with
  | nil => rfl
  | append_singleton items item ih =>
    have hstep : distinct (items ++ [item]) = merge item (distinct items) := by
      rw [distinct, List.foldl_append]
      rfl
    have hids : (items ++ [item]).map Item.identity =
        items.map Item.identity ++ [item.identity] := by
      rw [List.map_append]
      rfl
    have hsame (id : String × Int) (h : id ≠ item.identity) :
        foremost? (items ++ [item]) id = foremost? items id := by
      rw [foremost?_append, if_neg (Ne.symm h)]
    have hnew := foremost?_append items item item.identity
    rw [if_pos rfl] at hnew
    rw [hstep, ih, survivors, survivors, hids]
    by_cases hm : item.identity ∈ items.map Item.identity
    · obtain ⟨other, ho, he⟩ := List.mem_map.1 hm
      obtain ⟨kept, hkept⟩ := exists_foremost? ho
      rw [he] at hkept
      rw [hkept] at hnew
      rw [eraseDups_append_of_mem hm]
      exact merge_filterMap (nodup_eraseDups _) (List.mem_eraseDups.2 hm)
        (fun _ _ => identity_of_foremost?) hsame hkept hnew
    · rw [foremost?_eq_none hm] at hnew
      have hold : (items.map Item.identity).eraseDups.filterMap (foremost? (items ++ [item])) =
          (items.map Item.identity).eraseDups.filterMap (foremost? items) := by
        apply List.filterMap_congr
        intro id hid
        refine hsame id ?_
        rintro rfl
        exact hm (List.mem_eraseDups.1 hid)
      rw [eraseDups_append_of_not_mem hm, List.filterMap_append, hold,
        List.filterMap_cons_some hnew, List.filterMap_nil]
      apply merge_of_forall_ne
      intro kept hk he
      obtain ⟨id, hid, hf⟩ := List.mem_filterMap.1 hk
      exact hm (he ▸ (identity_of_foremost? hf).symm ▸ List.mem_eraseDups.1 hid)

theorem map_identity_survivors (items : List Item) :
    (survivors items).map Item.identity = (items.map Item.identity).eraseDups := by
  have hid (id : String × Int) (h : id ∈ (items.map Item.identity).eraseDups) :
      (foremost? items id).map Item.identity = some id := by
    obtain ⟨item, hi, rfl⟩ := List.mem_map.1 (List.mem_eraseDups.1 h)
    obtain ⟨best, hbest⟩ := exists_foremost? hi
    rw [hbest, Option.map_some, identity_of_foremost? hbest]
  rw [survivors, List.map_filterMap, List.filterMap_congr hid, List.filterMap_some]

theorem exists_survivor {items : List Item} {item : Item} (h : item ∈ items) :
    ∃ best ∈ survivors items, best.identity = item.identity ∧ best.sortKey ≤ item.sortKey := by
  obtain ⟨best, hbest⟩ := exists_foremost? h
  refine ⟨best, ?_, identity_of_foremost? hbest, foremost?_le hbest h⟩
  exact List.mem_filterMap.2
    ⟨_, List.mem_eraseDups.2 (List.mem_map.2 ⟨item, h, rfl⟩), hbest⟩

theorem length_survivors (items : List Item) :
    (survivors items).length = (items.map Item.identity).toFinset.card := by
  have hset : (items.map Item.identity).eraseDups.toFinset =
      (items.map Item.identity).toFinset := by
    ext id
    rw [List.mem_toFinset, List.mem_toFinset, List.mem_eraseDups]
  rw [← hset, List.toFinset_card_of_nodup (nodup_eraseDups _), ← map_identity_survivors,
    List.length_map]

theorem append_le_append_left {a b : String} (h : a ≤ b) (start : String) :
    start ++ a ≤ start ++ b := by
  change ¬(start ++ b).toList < (start ++ a).toList
  rw [String.toList_append, String.toList_append]
  have hlist : ¬b.toList < a.toList := h
  exact List.append_left_le (List.not_lt.1 hlist)

theorem prioritize_le {a b : Item} (hi : a.identity = b.identity) (h : a.sortKey ≤ b.sortKey)
    (place : Place) (word : String) :
    (a.prioritize place word).sortKey ≤ (b.prioritize place word).sortKey := by
  obtain ⟨hl, hk⟩ := Prod.mk.inj hi
  simp only [Item.prioritize, hl, hk]
  exact append_le_append_left h _

/-- The items shown are the foremost offers of the completions on offer, graded, stably sorted and
cut to the limit. -/
theorem rank_exact (entries : List Json) (cursor : Cursor) (limit : Nat) :
    let relevant := offers entries cursor
    let graded := (survivors relevant).map fun item =>
      { item with
        sortKey := priority item.label item.kind cursor.place cursor.word ++ item.sortKey }
    let shown := (rank entries cursor limit).items
    (∃ sorted, (∀ l, StablySorted Item.sortKey graded l ↔ l = sorted) ∧
        shown = sorted.take limit) ∧
      (shown.map Item.identity).Nodup ∧
      (shown.Pairwise fun a b => a.sortKey ≤ b.sortKey) ∧
      shown.length = min limit (relevant.map Item.identity).toFinset.card ∧
      ∀ offer ∈ relevant, offer.identity ∈ shown.map Item.identity ∨
        shown.length = limit ∧ ∀ item ∈ shown,
          item.sortKey ≤ (offer.prioritize cursor.place cursor.word).sortKey := by
  intro relevant graded shown
  have hsorted := StablySorted.mergeSort Item.sortKey graded
  generalize hs : graded.mergeSort (fun a b => decide (a.sortKey ≤ b.sortKey)) = sorted at hsorted
  have hshown : shown = sorted.take limit := by
    rw [← hs]
    simp only [shown, rank, distinct_eq_survivors]
    rfl
  have hident : graded.map Item.identity = (relevant.map Item.identity).eraseDups := by
    rw [← map_identity_survivors, List.map_map]
    rfl
  have hnodup : (sorted.map Item.identity).Nodup := by
    rw [(hsorted.perm.map Item.identity).nodup_iff, hident]
    exact nodup_eraseDups _
  have hlength : sorted.length = (relevant.map Item.identity).toFinset.card := by
    rw [hsorted.perm.length_eq, List.length_map, length_survivors]
  refine ⟨⟨sorted, fun l => ⟨fun h => h.unique hsorted, fun h => h ▸ hsorted⟩, hshown⟩,
    ?_, ?_, ?_, ?_⟩
  · rw [hshown]
    exact ((List.take_sublist limit sorted).map _).nodup hnodup
  · rw [hshown]
    exact hsorted.nondecreasing.sublist (List.take_sublist limit sorted)
  · rw [hshown, List.length_take, hlength]
  · intro offer ho
    obtain ⟨best, hbest, hi, hle⟩ := exists_survivor ho
    have hmem : best.prioritize cursor.place cursor.word ∈ sorted :=
      hsorted.perm.mem_iff.2 (List.mem_map.2 ⟨best, hbest, rfl⟩)
    rw [hshown]
    rcases hsorted.mem_take_or_forall_le hmem limit with hkept | ⟨hlimit, hle'⟩
    · exact .inl (List.mem_map.2 ⟨_, hkept, hi⟩)
    · refine .inr ⟨by rw [List.length_take, Nat.min_eq_left hlimit], ?_⟩
      intro item hitem
      exact (hle' item hitem).trans (prioritize_le hi hle _ _)

end LanguageClient.Suggest
