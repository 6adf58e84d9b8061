import Mathlib.Data.List.Nodup
import Mathlib.Data.List.Sort

namespace LanguageClient

variable {α κ : Type} [LinearOrder κ] {key : α → κ}

/-- A list holds the same elements as another, by key, and those with one key in the same order. -/
structure StablySorted (key : α → κ) (original sorted : List α) : Prop where
  perm : sorted.Perm original
  nondecreasing : sorted.Pairwise fun a b => key a ≤ key b
  stable : ∀ k, sorted.filter (key · = k) = original.filter (key · = k)

namespace StablySorted

theorem mergeSort (key : α → κ) (l : List α) :
    StablySorted key l (l.mergeSort fun a b => decide (key a ≤ key b)) := by
  have htrans (a b c : α) (hab : decide (key a ≤ key b) = true)
      (hbc : decide (key b ≤ key c) = true) : decide (key a ≤ key c) = true :=
    decide_eq_true ((of_decide_eq_true hab).trans (of_decide_eq_true hbc))
  have htotal (a b : α) : (decide (key a ≤ key b) || decide (key b ≤ key a)) = true := by
    simpa only [Bool.or_eq_true, decide_eq_true_eq] using le_total (key a) (key b)
  have hperm := List.mergeSort_perm l fun a b => decide (key a ≤ key b)
  refine ⟨hperm, ?_, fun k => ?_⟩
  · exact (List.pairwise_mergeSort htrans htotal l).imp of_decide_eq_true
  · have hsame : (l.filter (key · = k)).Pairwise fun a b => decide (key a ≤ key b) = true := by
      rw [List.pairwise_filter]
      refine List.pairwise_of_forall fun a b ha hb => decide_eq_true ?_
      rw [of_decide_eq_true ha, of_decide_eq_true hb]
    have hsub := (List.sublist_mergeSort htrans htotal hsame List.filter_sublist).filter
      (key · = k)
    simp only [List.filter_filter, Bool.and_self] at hsub
    exact (hsub.eq_of_length (hperm.filter _).length_eq.symm).symm

theorem head_key_le {original sorted : List α} {a : α} (h : StablySorted key original (a :: sorted))
    {b : α} (hb : b ∈ original) : key a ≤ key b := by
  rcases List.mem_cons.1 (h.perm.mem_iff.2 hb) with rfl | hb
  · exact le_rfl
  · exact (List.pairwise_cons.1 h.nondecreasing).1 b hb

theorem unique {original l m : List α} (hl : StablySorted key original l)
    (hm : StablySorted key original m) : l = m := by
  induction l generalizing original m with
  | nil => exact (List.nil_perm.1 (hl.perm.trans hm.perm.symm)).symm
  | cons a l ih =>
    cases m with
    | nil => exact absurd (hl.perm.trans hm.perm.symm) (List.not_perm_cons_nil)
    | cons b m =>
      have hab : key a = key b :=
        le_antisymm (hl.head_key_le (hm.perm.mem_iff.1 List.mem_cons_self))
          (hm.head_key_le (hl.perm.mem_iff.1 List.mem_cons_self))
      have hfilter (k : κ) := (hl.stable k).trans (hm.stable k).symm
      have he : a = b := by
        have := hfilter (key a)
        simp only [List.filter_cons, hab, decide_true, ↓reduceIte] at this
        exact (List.cons.inj this).1
      subst he
      have htail (k : κ) : l.filter (key · = k) = m.filter (key · = k) := by
        have := hfilter k
        rw [List.filter_cons, List.filter_cons] at this
        split at this
        · exact (List.cons.inj this).2
        · exact this
      have hperm := (hl.perm.trans hm.perm.symm).cons_inv
      have hlm : StablySorted key m l := ⟨hperm, hl.nondecreasing.of_cons, htail⟩
      have hmm : StablySorted key m m := ⟨.refl m, hm.nondecreasing.of_cons, fun _ => rfl⟩
      rw [ih hlm hmm]

theorem mem_take_or_forall_le {original sorted : List α} (h : StablySorted key original sorted)
    {a : α} (ha : a ∈ sorted) (n : Nat) :
    a ∈ sorted.take n ∨ n ≤ sorted.length ∧ ∀ b ∈ sorted.take n, key b ≤ key a := by
  have hsplit := List.take_append_drop n sorted
  rw [← hsplit, List.mem_append] at ha
  rcases ha with hkept | hcut
  · exact .inl hkept
  · have hlength := List.length_pos_of_mem hcut
    rw [List.length_drop] at hlength
    have hpair := h.nondecreasing
    rw [← hsplit, List.pairwise_append] at hpair
    exact .inr ⟨by omega, fun b hb => hpair.2.2 b hb a hcut⟩

end StablySorted

end LanguageClient
