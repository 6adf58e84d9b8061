import LanguageClient.Proofs.Ranking

namespace LanguageClient

namespace StablySorted

variable {α κ : Type} [LinearOrder κ] {key : α → κ} {original sorted other otherSorted : List α}

theorem map_key_eq (h : StablySorted key original sorted)
    (ho : StablySorted key other otherSorted) (hperm : (original.map key).Perm (other.map key)) :
    sorted.map key = otherSorted.map key := by
  have hsame : (sorted.map key).Perm (otherSorted.map key) :=
    ((h.perm.map key).trans hperm).trans (ho.perm.map key).symm
  apply hsame.eq_of_pairwise
  · intro k k' _ _ hle hge
    exact le_antisymm hle hge
  · exact List.pairwise_map.2 h.nondecreasing
  · exact List.pairwise_map.2 ho.nondecreasing

theorem eq_of_perm (h : StablySorted key original sorted)
    (ho : StablySorted key other otherSorted) (hperm : original.Perm other)
    (hkeys : (original.map key).Nodup) : sorted = otherSorted := by
  have hsame : sorted.Perm otherSorted := (h.perm.trans hperm).trans ho.perm.symm
  refine hsame.eq_of_pairwise ?_ h.nondecreasing ho.nondecreasing
  intro a b ha hb hle hge
  have ha' : a ∈ original := h.perm.mem_iff.1 ha
  have hb' : b ∈ original := hperm.mem_iff.2 (ho.perm.mem_iff.1 hb)
  exact List.inj_on_of_nodup_map hkeys ha' hb' (le_antisymm hle hge)

end StablySorted

namespace Suggest

open Document (Cursor Place)

section Rearranged

variable {items others : List Item}

/-- Whatever depends only on the identity and the sort text is the same of the foremost offers. -/
theorem map_foremost?_eq {β : Type} (h : ∀ item, item ∈ items ↔ item ∈ others) {f : Item → β}
    (hf : ∀ a ∈ items, ∀ b ∈ items, a.identity = b.identity → a.sortKey = b.sortKey → f a = f b)
    (id : String × Int) : (foremost? items id).map f = (foremost? others id).map f := by
  cases ha : foremost? items id with
  | none =>
    cases hb : foremost? others id with
    | none => rfl
    | some b =>
      have hmem : b ∈ others := (List.mem_filter.1 (List.argmin_mem hb)).1
      obtain ⟨best, hbest⟩ := exists_foremost? ((h b).2 hmem)
      rw [identity_of_foremost? hb, ha] at hbest
      cases hbest
  | some a =>
    have hia := identity_of_foremost? ha
    have hmem : a ∈ items := (List.mem_filter.1 (List.argmin_mem ha)).1
    obtain ⟨b, hb⟩ := exists_foremost? ((h a).1 hmem)
    rw [hia] at hb
    have hib := identity_of_foremost? hb
    have hmem' : b ∈ items := (h b).2 (List.mem_filter.1 (List.argmin_mem hb)).1
    subst hia
    have hab : a.sortKey ≤ b.sortKey := foremost?_le (hib ▸ ha) hmem'
    have hba : b.sortKey ≤ a.sortKey := foremost?_le hb ((h a).1 hmem)
    rw [hb, Option.map_some, Option.map_some, hf a hmem b hmem' hib.symm (le_antisymm hab hba)]

theorem perm_map_survivors {β : Type} (h : ∀ item, item ∈ items ↔ item ∈ others) {f : Item → β}
    (hf : ∀ a ∈ items, ∀ b ∈ items, a.identity = b.identity → a.sortKey = b.sortKey → f a = f b) :
    ((survivors items).map f).Perm ((survivors others).map f) := by
  have hids : (items.map Item.identity).eraseDups.Perm (others.map Item.identity).eraseDups := by
    apply (List.perm_ext_iff_of_nodup (nodup_eraseDups _) (nodup_eraseDups _)).2
    intro id
    simp only [List.mem_eraseDups, List.mem_map, h]
  have hsame : (fun id => (foremost? items id).map f) = fun id => (foremost? others id).map f :=
    funext (map_foremost?_eq h hf)
  rw [survivors, survivors, List.map_filterMap, List.map_filterMap, hsame]
  exact hids.filterMap _

end Rearranged

theorem mem_offers_iff {entries others : List Json}
    (h : ∀ entry, entry ∈ entries ↔ entry ∈ others) (cursor : Cursor) (item : Item) :
    item ∈ offers entries cursor ↔ item ∈ offers others cursor := by
  simp only [offers, List.mem_filter, List.mem_map, h]

theorem prioritize_eq {a b : Item} (hi : a.identity = b.identity) (h : a.sortKey = b.sortKey)
    (place : Place) (word : String) :
    (a.prioritize place word).sortKey = (b.prioritize place word).sortKey :=
  le_antisymm (prioritize_le hi h.le place word) (prioritize_le hi.symm h.ge place word)

theorem exists_sorted_items (entries : List Json) (cursor : Cursor) :
    ∃ sorted, StablySorted Item.sortKey
        ((survivors (offers entries cursor)).map (Item.prioritize cursor.place cursor.word)) sorted ∧
      ∀ limit, rank entries cursor limit =
        ⟨sorted.take limit, firstMatch cursor.word (sorted.take limit)⟩ := by
  refine ⟨_, .mergeSort Item.sortKey _, ?_⟩
  intro limit
  rw [← distinct_eq_survivors]
  rfl

/-- The keys of the items shown depend only on the set of entries. So do the items and the
selection, if no two offers that differ share the completion and the sort text, and no two
survivors have the same key. -/
theorem rank_rearranged {entries others : List Json}
    (h : ∀ entry, entry ∈ entries ↔ entry ∈ others) (cursor : Cursor) (limit : Nat) :
    (rank entries cursor limit).items.map Item.sortKey =
        (rank others cursor limit).items.map Item.sortKey ∧
      ((∀ a ∈ offers entries cursor, ∀ b ∈ offers entries cursor,
          a.identity = b.identity → a.sortKey = b.sortKey → a = b) →
        ((survivors (offers entries cursor)).map fun item =>
          (item.prioritize cursor.place cursor.word).sortKey).Nodup →
        rank entries cursor limit = rank others cursor limit) := by
  obtain ⟨sorted, hsorted, hrank⟩ := exists_sorted_items entries cursor
  obtain ⟨otherSorted, hother, hrank'⟩ := exists_sorted_items others cursor
  have hoffers := mem_offers_iff h cursor
  rw [hrank, hrank']
  constructor
  · have hkeys := perm_map_survivors hoffers
      (f := Item.sortKey ∘ Item.prioritize cursor.place cursor.word)
      fun a _ b _ hi hs => prioritize_eq hi hs cursor.place cursor.word
    rw [← List.map_map, ← List.map_map] at hkeys
    rw [List.map_take, List.map_take, hsorted.map_key_eq hother hkeys]
  · intro hties hnodup
    have hperm := perm_map_survivors hoffers
      (f := Item.prioritize cursor.place cursor.word)
      fun a ha b hb hi hs => congrArg _ (hties a ha b hb hi hs)
    rw [hsorted.eq_of_perm hother hperm]
    rwa [List.map_map]

def atStart : Cursor := .resolve (.ofText "" 0) 0 0

def pairs : Json := .obj [("label", .str "pairs")]

def print : Json := .obj [("label", .str "print"), ("sortText", .str "a")]

theorem rank_repeated :
    (∀ entry, entry ∈ [pairs, print] ↔ entry ∈ [print, pairs, print]) ∧
      (rank [pairs, print] atStart 25).items.map Item.sortKey =
        (rank [print, pairs, print] atStart 25).items.map Item.sortKey ∧
      rank [pairs, print] atStart 25 = rank [print, pairs, print] atStart 25 := by
  have hentries : ∀ entry, entry ∈ [pairs, print] ↔ entry ∈ [print, pairs, print] := by
    intro entry
    simp only [List.mem_cons, List.not_mem_nil]
    tauto
  have hoffers : offers [pairs, print] atStart =
      [Item.ofEntry pairs atStart, Item.ofEntry print atStart] := by decide +kernel
  have hties : ∀ a ∈ offers [pairs, print] atStart, ∀ b ∈ offers [pairs, print] atStart,
      a.identity = b.identity → a.sortKey = b.sortKey → a = b := by
    rw [hoffers]
    decide +kernel
  have hnodup : ((survivors (offers [pairs, print] atStart)).map fun item =>
      (item.prioritize atStart.place atStart.word).sortKey).Nodup := by
    rw [← distinct_eq_survivors]
    decide +kernel
  obtain ⟨hkeys, hsame⟩ := rank_rearranged hentries atStart 25
  exact ⟨hentries, hkeys, hsame hties hnodup⟩

end Suggest

end LanguageClient
