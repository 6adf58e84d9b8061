import LanguageClient.Proofs.Scanning

namespace LanguageClient.Suggest.Snippet

open Decimal (isDigit)

theorem count_cutCall_le (cs : List Char) : (cutCall cs).count '(' ≤ 1 := by
  induction cs with
  | nil => exact Nat.zero_le 1
  | cons c cs ih =>
    rw [cutCall]
    split
    · exact Nat.le_refl 1
    · rename_i hc
      rw [List.count_cons_of_ne hc]
      exact ih

theorem getLast?_cutCall {cs : List Char} (h : '(' ∈ cutCall cs) :
    (cutCall cs).getLast? = some '(' := by
  rw [cutCall_eq] at h ⊢
  split at h
  · rename_i hcall
    rw [if_pos hcall, List.getLast?_append]
    rfl
  · rw [List.append_nil] at h
    cases of_mem_takeWhile h

theorem cutCall_sublist (cs : List Char) : (cutCall cs).Sublist cs := by
  induction cs with
  | nil => exact List.Sublist.refl _
  | cons c cs ih =>
    rw [cutCall]
    split
    · rename_i hc
      subst hc
      exact (List.nil_sublist cs).cons_cons _
    · exact ih.cons_cons c

theorem cutCall_cutCall (cs : List Char) : cutCall (cutCall cs) = cutCall cs := by
  induction cs with
  | nil => rfl
  | cons c cs ih =>
    rw [cutCall]
    split
    · rfl
    · rename_i hc
      rw [cutCall, if_neg hc, ih]

theorem head?_cutCall (cs : List Char) : (cutCall cs).head? = cs.head? := by
  cases cs with
  | nil => rfl
  | cons c cs =>
    rw [cutCall]
    split
    · rename_i hc
      rw [hc]
      rfl
    · rfl

theorem singleton_prefix_iff {c : Char} {cs : List Char} : [c] <+: cs ↔ cs.head? = some c := by
  cases cs with
  | nil => simp
  | cons d cs => simp [List.cons_prefix_cons, eq_comm]

theorem prefix_cutCall_iff {before cs : List Char} {c d : Char} (hc : c ≠ '(') :
    before ++ [c, d] <+: cutCall cs ↔ '(' ∉ before ∧ before ++ [c, d] <+: cs := by
  induction before generalizing cs with
  | nil =>
    cases cs with
    | nil => simp [cutCall]
    | cons e cs =>
      rw [List.nil_append, List.cons_prefix_cons, cutCall]
      split
      · rename_i he
        rw [List.cons_prefix_cons, he]
        exact iff_of_false (fun h => hc h.1) fun h => hc h.2.1
      · rw [List.cons_prefix_cons, singleton_prefix_iff, singleton_prefix_iff, head?_cutCall]
        exact ⟨fun h => ⟨List.not_mem_nil, h⟩, And.right⟩
  | cons e before ih =>
    cases cs with
    | nil => simp [cutCall]
    | cons f cs =>
      rw [List.cons_append, List.cons_prefix_cons, cutCall]
      split
      · rename_i hf
        rw [List.cons_prefix_cons, hf]
        apply iff_of_false
        · rintro ⟨_, hnil⟩
          exact List.append_ne_nil_of_right_ne_nil _ (List.cons_ne_nil _ _) (List.prefix_nil.1 hnil)
        · rintro ⟨hbefore, rfl, _⟩
          exact hbefore List.mem_cons_self
      · rename_i hf
        rw [List.cons_prefix_cons, ih]
        constructor
        · rintro ⟨rfl, hbefore, hprefix⟩
          exact ⟨List.not_mem_cons_of_ne_of_not_mem (Ne.symm hf) hbefore, rfl, hprefix⟩
        · rintro ⟨hbefore, rfl, hprefix⟩
          exact ⟨rfl, List.not_mem_of_not_mem_cons hbefore, hprefix⟩

/-- A dollar sign comes to stand before a character with which it begins a form where the scan
keeps it before another one, and has nothing else to put out up to that character. -/
theorem dollar_prefix_expand_iff {text before : List Char} {c : Char} (hc : opens c = true) :
    before ++ ['$', c] <+: expand text ↔
      ∃ rest, Scans text before ('$' :: '$' :: rest) ∧ (expand ('$' :: rest)).head? = some c := by
  constructor
  · rintro ⟨more, hexpand⟩
    rw [List.append_assoc] at hexpand
    obtain ⟨rest, ahead, hscans, hturn, hahead⟩ := exists_turn_of_expand_eq hexpand.symm
    rcases hturn.keeps_or_drops with ⟨d, hd, rfl, hnext⟩ | ⟨_, _, hnone, _, _, _⟩
    · cases hd
      cases ahead with
      | nil =>
        rw [expand] at hahead
        cases hahead
      | cons next tail =>
        have hopens := hnext rfl next rfl
        by_cases hdollar : next = '$'
        · subst hdollar
          exact ⟨tail, hscans, by rw [hahead]; rfl⟩
        · rw [(Turn.plain hdollar).expand_eq] at hahead
          obtain ⟨rfl, _⟩ := List.cons.inj hahead
          rw [hc] at hopens
          cases hopens
    · cases hnone
  · rintro ⟨rest, hscans, hhead⟩
    obtain ⟨more, hmore⟩ := List.head?_eq_some_iff.1 hhead
    have hturn : Turn ('$' :: '$' :: rest) ['$'] ('$' :: rest) := .dollar rfl
    rw [hscans.expand_eq, hturn.expand_eq, hmore]
    exact ⟨more, by simp⟩

theorem expand_eq_self_iff (text : List Char) :
    expand text = text ↔ ∀ c, opens c = true → ¬ ['$', c] <:+: text := by
  induction text using turn_induction with
  | nil =>
    rw [expand]
    exact iff_of_true rfl fun c _ hinfix => by cases List.infix_nil.1 hinfix
  | @turn text out rest hturn ih =>
    have hexpand := hturn.expand_eq
    rcases hturn.keeps_or_drops with ⟨d, rfl, rfl, hnext⟩ | ⟨next, more, rfl, rfl, hopens, hle⟩
    · rw [hexpand, List.cons_append, List.nil_append, List.cons_inj_right, ih]
      apply forall_congr'
      intro c
      apply imp_congr_right
      intro hc
      rw [List.infix_cons_iff, List.cons_prefix_cons, singleton_prefix_iff, not_or]
      refine ⟨fun h => ⟨?_, h⟩, And.right⟩
      rintro ⟨rfl, hhead⟩
      rw [hnext rfl c hhead] at hc
      cases hc
    · apply iff_of_false
      · intro hself
        have hlength := (expand_sublist rest).length_le
        rw [hexpand, List.nil_append] at hself
        rw [hself] at hlength
        simp only [List.length_cons] at hlength
        omega
      · intro hnone
        exact hnone next hopens ⟨[], more, rfl⟩

theorem toList_plain (text : String) : (plain text).toList = cutCall (expand text.toList) := by
  rw [plain, String.toList_ofList]

theorem plain_plain_eq_iff (text : String) :
    plain (plain text) = plain text ↔
      ∀ c, opens c = true → ¬ ['$', c] <:+: (plain text).toList := by
  rw [← expand_eq_self_iff, ← String.toList_inj, toList_plain (plain text)]
  constructor
  · intro hself
    have hlength := (cutCall_sublist (expand (plain text).toList)).length_le
    rw [hself] at hlength
    exact (expand_sublist _).eq_of_length_le hlength
  · intro hself
    rw [hself, toList_plain, cutCall_cutCall]

/-- A cleaned text has an opening parenthesis only at its end. In it a dollar sign stands directly
before a digit, an opening brace or an opening parenthesis exactly where the scan keeps it before
another dollar sign and goes on, from that one, to put out that character. Cleaning it once more
changes nothing exactly if there is no such place. -/
theorem leftovers_plain (text : String) :
    let cleaned := (plain text).toList
    (cleaned.count '(' ≤ 1 ∧ ('(' ∈ cleaned → cleaned.getLast? = some '(')) ∧
      (∀ before c, opens c = true →
        (before ++ ['$', c] <+: cleaned ↔
          '(' ∉ before ∧ ∃ rest, Scans text.toList before ('$' :: '$' :: rest) ∧
            (expand ('$' :: rest)).head? = some c)) ∧
      (plain (plain text) = plain text ↔ ∀ c, opens c = true → ¬ ['$', c] <:+: cleaned) := by
  refine ⟨⟨?_, ?_⟩, ?_, plain_plain_eq_iff text⟩
  · rw [toList_plain]
    exact count_cutCall_le _
  · rw [toList_plain]
    exact getLast?_cutCall
  · intro before c hc
    rw [toList_plain, prefix_cutCall_iff (by decide), dollar_prefix_expand_iff hc]

/-- Of `$${1:5}` the dollar sign and the default stay, and with them a tab stop. -/
theorem plain_price :
    (plain "$$\x7b1:5\x7d").toList = ['$', '5'] ∧ isDigit '5' = true ∧
      plain (plain "$$\x7b1:5\x7d") ≠ plain "$$\x7b1:5\x7d" := by
  decide +kernel

end LanguageClient.Suggest.Snippet
