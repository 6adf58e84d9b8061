import LanguageClient.Text.Blank
import LanguageClient.Text.Decimal

namespace LanguageClient

namespace Decimal

theorem isDigit_of_mem_digits {n : Nat} {c : Char} (h : c ∈ digits n) : isDigit c = true := by
  have hd := Nat.isDigit_of_mem_toDigits (by decide) (by decide) h
  simpa [Char.isDigit, isDigit, Char.le_def] using hd

theorem digits_ne_nil (n : Nat) : digits n ≠ [] := Nat.toDigits_ne_nil

theorem value_digits (n : Nat) : value (digits n) = n := by
  have h : value (digits n) = Nat.ofDigitChars 10 (digits n) 0 := by
    simp only [value, digitValue, Nat.ofDigitChars_eq_foldl, Nat.mul_comm]
  rw [h]
  exact Nat.ofDigitChars_ten_toDigits

theorem length_digits_le {n k : Nat} (hk : 0 < k) (h : n < Nat.pow 10 k) :
    (digits n).length ≤ k :=
  (Nat.length_toDigits_le_iff (by decide) hk).2 h

theorem foldl_lt {cs : List Char} (h : ∀ c ∈ cs, isDigit c = true) (n : Nat) :
    cs.foldl (fun n c => n * 10 + digitValue c) n < (n + 1) * Nat.pow 10 cs.length := by
  induction cs generalizing n with
  | nil => simp
  | cons c cs ih =>
    have hdigit : digitValue c < 10 := by
      have hc := isDigit_iff.1 (h c List.mem_cons_self)
      have hzero : '0'.toNat = 48 := rfl
      rw [digitValue, hzero]
      omega
    have hrest := ih (fun d hd => h d (List.mem_cons_of_mem _ hd)) (n * 10 + digitValue c)
    have hstep : (n * 10 + digitValue c + 1) * Nat.pow 10 cs.length ≤
        (n + 1) * 10 * Nat.pow 10 cs.length := Nat.mul_le_mul_right _ (by omega)
    calc (c :: cs).foldl (fun n c => n * 10 + digitValue c) n
        < (n * 10 + digitValue c + 1) * Nat.pow 10 cs.length := hrest
      _ ≤ (n + 1) * 10 * Nat.pow 10 cs.length := hstep
      _ = (n + 1) * Nat.pow 10 (c :: cs).length := by
        rw [List.length_cons, Nat.pow_eq, Nat.pow_eq, Nat.pow_succ, Nat.mul_assoc,
          Nat.mul_comm 10]

theorem length_digits_of_head? {n : Nat} (h : (digits n).head? = some '0') :
    (digits n).length ≤ 1 := by
  obtain ⟨rest, hrest⟩ := List.head?_eq_some_iff.1 h
  have hdigits : ∀ c ∈ rest, isDigit c = true := fun c hc =>
    isDigit_of_mem_digits (n := n) (hrest ▸ List.mem_cons_of_mem _ hc)
  have hvalue := value_digits n
  rw [hrest] at hvalue
  have hlt : n < Nat.pow 10 rest.length := by
    have hfold := foldl_lt hdigits 0
    rw [Nat.zero_add, Nat.one_mul] at hfold
    rw [← hvalue]
    exact hfold
  rw [hrest, List.length_cons]
  apply Nat.le_of_not_lt
  intro hlong
  have hlength := length_digits_le (by omega) hlt
  rw [hrest, List.length_cons] at hlength
  omega

end Decimal

namespace Text

theorem isBlank_of_isDigit {c : Char} (h : Decimal.isDigit c = true) : isBlank c = false := by
  rw [Decimal.isDigit_iff] at h
  simp only [isBlank, Bool.or_eq_false_iff, Bool.and_eq_false_iff, decide_eq_false_iff_not,
    beq_eq_false_iff_ne]
  omega

end Text

end LanguageClient
