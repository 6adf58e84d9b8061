namespace LanguageClient

variable {α : Type} {p : α → Bool} {a : α} {l run rest : List α}

theorem of_mem_takeWhile (h : a ∈ l.takeWhile p) : p a = true :=
  List.all_eq_true.1 List.all_takeWhile a h

theorem not_of_head?_dropWhile (h : a ∈ (l.dropWhile p).head?) : p a = false := by
  have hnot := List.head?_dropWhile_not p l
  rw [h] at hnot
  exact hnot

theorem le_length_takeWhile {n : Nat} (hn : n ≤ l.length) (h : ∀ a ∈ l.take n, p a = true) :
    n ≤ (l.takeWhile p).length := by
  induction l generalizing n with
  | nil => exact hn
  | cons a l ih =>
    cases n with
    | zero => exact Nat.zero_le _
    | succ n =>
      rw [List.take_succ_cons, List.forall_mem_cons] at h
      rw [List.takeWhile_cons_of_pos h.1]
      exact Nat.succ_le_succ (ih (Nat.le_of_succ_le_succ hn) h.2)

theorem take_length_takeWhile : l.take (l.takeWhile p).length = l.takeWhile p :=
  (List.prefix_iff_eq_take.1 (List.takeWhile_prefix p)).symm

theorem drop_length_takeWhile : l.drop (l.takeWhile p).length = l.dropWhile p := by
  have hsplit := List.takeWhile_append_dropWhile (p := p) (l := l)
  exact (congrArg (List.drop _) hsplit.symm).trans List.drop_left

theorem dropWhile_append_of_head? (hrun : ∀ a ∈ run, p a = true)
    (hrest : ∀ a ∈ rest.head?, p a = false) : (run ++ rest).dropWhile p = rest := by
  rw [List.dropWhile_append_of_pos hrun]
  cases rest with
  | nil => rfl
  | cons a rest => rw [List.dropWhile_cons_of_neg (Bool.eq_false_iff.1 (hrest a rfl))]

end LanguageClient
