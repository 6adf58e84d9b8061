import LanguageClient.Proofs.Calls
import Mathlib.Data.List.Nodup
import Mathlib.Data.Option.Basic

namespace LanguageClient

theorem rel_refl {α : Type} {P : α → α → Prop} (hrefl : ∀ x, P x x) (x : Option α) :
    Option.Rel P x x := by
  cases x with
  | none => exact .none
  | some x => exact .some (hrefl x)

theorem rel_trans {α : Type} {P Q R : α → α → Prop} {x y z : Option α} (h : Option.Rel P x y)
    (h' : Option.Rel Q y z) (hcomp : ∀ {x y z}, P x y → Q y z → R x z) : Option.Rel R x z := by
  cases h with
  | none =>
    cases h' with
    | none => exact .none
  | some h =>
    cases h' with
    | some h' => exact .some (hcomp h h')

namespace Json

theorem lookup_eq_some_iff {α : Type} {members : List (String × α)}
    (hnodup : (members.map Prod.fst).Nodup) {key : String} {value : α} :
    members.lookup key = some value ↔ (key, value) ∈ members := by
  induction members with
  | nil => simp
  | cons member rest ih =>
    obtain ⟨head, first⟩ := member
    rw [List.map_cons, List.nodup_cons] at hnodup
    rw [lookup_cons_ite, List.mem_cons, Prod.mk.injEq]
    by_cases h : key = head
    · have hnot : (key, value) ∉ rest := fun hmem =>
        hnodup.1 (List.mem_map.2 ⟨(key, value), hmem, h⟩)
      rw [if_pos h, Option.some.injEq]
      exact ⟨fun he => .inl ⟨h, he.symm⟩, fun hor => (hor.resolve_right hnot).2.symm⟩
    · rw [if_neg h, ih hnodup.2]
      exact ⟨.inr, fun hor => hor.resolve_left fun he => h he.1⟩

theorem lookup_eq_none_of_notMem {α : Type} {members : List (String × α)} {key : String}
    (h : key ∉ members.map Prod.fst) : members.lookup key = none := by
  induction members with
  | nil => rfl
  | cons member rest ih =>
    obtain ⟨head, first⟩ := member
    rw [List.map_cons, List.mem_cons, not_or] at h
    rw [lookup_cons_ite, if_neg h.1, ih h.2]

theorem lookup_perm {α : Type} {members members' : List (String × α)}
    (h : members.Perm members') (hnodup : (members'.map Prod.fst).Nodup) (key : String) :
    members.lookup key = members'.lookup key := by
  have hnodup' : (members.map Prod.fst).Nodup := (h.map Prod.fst).nodup_iff.2 hnodup
  apply Option.ext
  intro value
  rw [lookup_eq_some_iff hnodup', lookup_eq_some_iff hnodup, h.mem_iff]

theorem lookup_filter {α : Type} (kept : String → Bool) (members : List (String × α))
    (key : String) :
    (members.filter fun m => kept m.1).lookup key =
      if kept key then members.lookup key else none := by
  induction members with
  | nil => rw [List.filter_nil, List.lookup_nil, ite_self]
  | cons member rest ih =>
    obtain ⟨head, first⟩ := member
    by_cases hkey : key = head
    · subst hkey
      cases h : kept key with
      | false =>
        rw [List.filter_cons_of_neg (by simp [h]), ih, h]
        rfl
      | true =>
        rw [List.filter_cons_of_pos (by simp [h]), lookup_cons_ite, lookup_cons_ite, if_pos rfl,
          if_pos rfl, if_pos rfl]
    · rw [List.filter_cons]
      split <;> simp only [lookup_cons_ite, if_neg hkey, ih]

theorem fitsItems_eq_all (depth : Nat) (items : List Json) :
    fitsItems depth items = items.all (fits depth) := by
  induction items with
  | nil => rw [fitsItems, List.all_nil]
  | cons item rest ih => rw [fitsItems, ih, List.all_cons]

theorem fitsMembers_eq_all (depth : Nat) (members : List (String × Json)) :
    fitsMembers depth members = members.all fun m => fits depth m.2 := by
  induction members with
  | nil => rw [fitsMembers, List.all_nil]
  | cons member rest ih => rw [fitsMembers, ih, List.all_cons]

def without (left : String → Bool) : Json → Json
  | obj members => obj (members.filter fun m => !left m.1)
  | other => other

def mapMembers (f : String → Json → Json) : Json → Json
  | obj members => obj (members.map fun m => (m.1, f m.1 m.2))
  | other => other

theorem without_false (value : Json) : value.without (fun _ => false) = value := by
  cases value with
  | obj members => exact congrArg obj (List.filter_eq_self.2 fun _ _ => rfl)
  | _ => rfl

theorem mapMembers_eq_self {f : String → Json → Json} (h : ∀ key value, f key value = value)
    (value : Json) : value.mapMembers f = value := by
  cases value with
  | obj members =>
    apply congrArg obj
    simp only [h, List.map_id']
  | _ => rfl

theorem fits_without {depth : Nat} {value : Json} (h : value.fits depth = true)
    (left : String → Bool) : (value.without left).fits depth = true := by
  cases value with
  | obj members =>
    cases depth with
    | zero => simp [fits] at h
    | succ depth =>
      rw [fits, fitsMembers_eq_all, List.all_eq_true] at h
      rw [without, fits, fitsMembers_eq_all, List.all_eq_true]
      intro m hm
      exact h m (List.mem_of_mem_filter hm)
  | _ => exact h

theorem fits_mapMembers {depth : Nat} {value : Json} {f : String → Json → Json}
    (h : value.fits depth = true)
    (hf : ∀ depth key value, value.fits depth = true → (f key value).fits depth = true) :
    (value.mapMembers f).fits depth = true := by
  cases value with
  | obj members =>
    cases depth with
    | zero => simp [fits] at h
    | succ depth =>
      rw [fits, fitsMembers_eq_all, List.all_eq_true] at h
      rw [mapMembers, fits, fitsMembers_eq_all, List.all_map, List.all_eq_true]
      intro m hm
      exact hf depth m.1 m.2 (h m hm)
  | _ => exact h

/-- A value with no other value in it. -/
def IsScalar : Json → Prop
  | arr _ | obj _ => False
  | _ => True

/-- Values that differ only in the order of the members of the objects in them. -/
inductive Rearranged : Json → Json → Prop
  | refl (value : Json) : Rearranged value value
  | trans {a b c : Json} : Rearranged a b → Rearranged b c → Rearranged a c
  | perm {members members' : List (String × Json)} :
    members.Perm members' → Rearranged (.obj members) (.obj members')
  | item (before : List Json) {v w : Json} (after : List Json) : Rearranged v w →
    Rearranged (.arr (before ++ v :: after)) (.arr (before ++ w :: after))
  | member (before : List (String × Json)) (key : String) {v w : Json}
    (after : List (String × Json)) : Rearranged v w →
    Rearranged (.obj (before ++ (key, v) :: after)) (.obj (before ++ (key, w) :: after))

namespace Rearranged

theorem fits_eq {v w : Json} (h : v.Rearranged w) (depth : Nat) : v.fits depth = w.fits depth := by
  induction h generalizing depth with
  | refl => rfl
  | trans _ _ ih₁ ih₂ => exact (ih₁ depth).trans (ih₂ depth)
  | perm hperm =>
    cases depth with
    | zero => simp only [fits]
    | succ depth => rw [fits, fits, fitsMembers_eq_all, fitsMembers_eq_all, hperm.all_eq]
  | item before after _ ih =>
    cases depth with
    | zero => simp only [fits]
    | succ depth =>
      simp only [fits, fitsItems_eq_all, List.all_append, List.all_cons, ih depth]
  | member before key after _ ih =>
    cases depth with
    | zero => simp only [fits]
    | succ depth =>
      simp only [fits, fitsMembers_eq_all, List.all_append, List.all_cons, ih depth]

theorem isNull_eq {v w : Json} (h : v.Rearranged w) : v.isNull = w.isNull := by
  induction h with
  | refl => rfl
  | trans _ _ ih₁ ih₂ => exact ih₁.trans ih₂
  | perm => rfl
  | item => rfl
  | member => rfl

theorem eq_of_isScalar {v w : Json} (h : v.Rearranged w) (hw : IsScalar w) : v = w := by
  induction h with
  | refl => rfl
  | trans _ _ ih₁ ih₂ =>
    obtain rfl := ih₂ hw
    exact ih₁ hw
  | perm => exact hw.elim
  | item => exact hw.elim
  | member => exact hw.elim

theorem eq_of_scalars {v w : Json} (h : v.Rearranged w) {items : List Json} (hw : w = .arr items)
    (hitems : ∀ item ∈ items, IsScalar item) : v = .arr items := by
  induction h with
  | refl => exact hw
  | trans _ _ ih₁ ih₂ => exact ih₁ (ih₂ hw)
  | perm => cases hw
  | item before after hitem =>
    cases hw
    rw [hitem.eq_of_isScalar (hitems _ (by simp))]
  | member => cases hw

/-- The keys of an object are those of the other one, and what stands under each is rearranged. -/
theorem exists_members {v w : Json} (h : v.Rearranged w) {members : List (String × Json)}
    (hw : w = .obj members) (hnodup : (members.map Prod.fst).Nodup) :
    ∃ members', v = .obj members' ∧ (members'.map Prod.fst).Perm (members.map Prod.fst) ∧
      ∀ key, Option.Rel Rearranged (members'.lookup key) (members.lookup key) := by
  induction h generalizing members with
  | refl => exact ⟨members, hw, .refl _, fun key => rel_refl .refl _⟩
  | trans _ _ ih₁ ih₂ =>
    obtain ⟨between, rfl, hkeys, hrel⟩ := ih₂ hw hnodup
    obtain ⟨first, rfl, hkeys', hrel'⟩ := ih₁ rfl (hkeys.nodup_iff.2 hnodup)
    exact ⟨first, rfl, hkeys'.trans hkeys, fun key => rel_trans (hrel' key) (hrel key) .trans⟩
  | @perm first _ hperm =>
    cases hw
    refine ⟨first, rfl, hperm.map Prod.fst, fun key => ?_⟩
    rw [lookup_perm hperm hnodup]
    exact rel_refl .refl _
  | item => cases hw
  | @member before head v w after hmember =>
    cases hw
    refine ⟨_, rfl, by simp, fun key => ?_⟩
    rw [List.lookup_append, List.lookup_append]
    cases before.lookup key with
    | some value => exact rel_refl .refl _
    | none =>
      rw [Option.none_or, Option.none_or, lookup_cons_ite, lookup_cons_ite]
      split
      · exact .some hmember
      · exact rel_refl .refl _

theorem exists_mem_of_rel {members members' : List (String × Json)}
    (hnodup : (members.map Prod.fst).Nodup) (hnodup' : (members'.map Prod.fst).Nodup)
    (hrel : ∀ key, Option.Rel Rearranged (members'.lookup key) (members.lookup key))
    {m : String × Json} (hm : m ∈ members') :
    ∃ value, (m.1, value) ∈ members ∧ m.2.Rearranged value := by
  have hrel := hrel m.1
  rw [(lookup_eq_some_iff hnodup').2 hm] at hrel
  generalize hlookup : members.lookup m.1 = value? at hrel
  cases hrel with
  | @some _ value hvalue => exact ⟨value, (lookup_eq_some_iff hnodup).1 hlookup, hvalue⟩

end Rearranged

end Json

end LanguageClient
