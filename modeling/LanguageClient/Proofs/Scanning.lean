import LanguageClient.Proofs.Runs
import LanguageClient.Suggest.Snippet

namespace LanguageClient.Suggest.Snippet

open Decimal (isDigit)

section SplitAt

variable {c : Char} {cs a b : List Char}

theorem splitAt?_append (h : c ∉ a) : splitAt? c (a ++ c :: b) = some (a, b) := by
  induction a with
  | nil => rw [List.nil_append, splitAt?, if_pos rfl]
  | cons d a ih =>
    have hd : d ≠ c := (List.ne_of_not_mem_cons h).symm
    rw [List.cons_append, splitAt?, if_neg hd, ih (List.not_mem_of_not_mem_cons h)]
    rfl

theorem not_mem_of_splitAt? (h : splitAt? c cs = some (a, b)) : c ∉ a := by
  induction cs generalizing a b with
  | nil => cases h
  | cons d cs ih =>
    rw [splitAt?] at h
    split at h
    · cases h
      exact List.not_mem_nil
    · rename_i hd
      obtain ⟨⟨x, y⟩, hp, he⟩ := Option.map_eq_some_iff.1 h
      cases he
      exact List.not_mem_cons_of_ne_of_not_mem (Ne.symm hd) (ih hp)

theorem splitAt?_eq_none_iff : splitAt? c cs = none ↔ c ∉ cs := by
  induction cs with
  | nil => exact iff_of_true rfl List.not_mem_nil
  | cons d cs ih =>
    rw [splitAt?, List.mem_cons, not_or]
    split
    · rename_i hd
      exact iff_of_false (Option.some_ne_none _) fun h => h.1 hd.symm
    · rename_i hd
      rw [Option.map_eq_none_iff, ih]
      exact ⟨fun h => ⟨Ne.symm hd, h⟩, And.right⟩

end SplitAt

theorem defaultText_suffix (inside : List Char) : defaultText inside <:+ inside := by
  unfold defaultText
  split
  · rename_i before text h
    rw [eq_of_splitAt? h]
    exact ⟨before ++ [':'], by simp⟩
  · exact List.nil_suffix

/-- The characters with which a dollar sign begins a form of its own. -/
def opens (c : Char) : Bool := c = '{' || isDigit c || c = '('

/-- One turn of the scan: what it puts out, and the text with which it goes on. -/
inductive Turn : List Char → List Char → List Char → Prop where
  | plain {c : Char} {rest : List Char} (h : c ≠ '$') : Turn (c :: rest) [c] rest
  | last : Turn ['$'] ['$'] []
  | dollar {next : Char} {rest : List Char} (h : opens next = false) :
      Turn ('$' :: next :: rest) ['$'] (next :: rest)
  | placeholder {inside after : List Char} (h : '}' ∉ inside) :
      Turn ('$' :: '{' :: (inside ++ '}' :: after)) [] (defaultText inside ++ after)
  | brace {rest : List Char} (h : '}' ∉ rest) : Turn ('$' :: '{' :: rest) [] rest
  | tabStop {d : Char} {digits rest : List Char} (hd : isDigit d = true)
      (hdigits : ∀ c ∈ digits, isDigit c = true) (hrest : ∀ c ∈ rest.head?, isDigit c = false) :
      Turn ('$' :: d :: (digits ++ rest)) [] rest
  | command {inside after : List Char} (h : ')' ∉ inside) :
      Turn ('$' :: '(' :: (inside ++ ')' :: after)) [] after
  | parenthesis {rest : List Char} (h : ')' ∉ rest) : Turn ('$' :: '(' :: rest) [] rest

namespace Turn

variable {text out rest : List Char}

theorem expand_eq (h : Turn text out rest) : expand text = out ++ expand rest := by
  cases h with
  | plain h =>
    rw [expand]
    · rfl
    · exact fun hc _ => h hc
    · exact fun _ _ hc _ => h hc
  | last => rw [expand, expand]; rfl
  | dollar h =>
    simp only [opens, Bool.or_eq_false_iff, decide_eq_false_iff_not] at h
    rw [expand, if_neg h.1.1, h.1.2, if_neg (Bool.false_ne_true), if_neg h.2]
    rfl
  | placeholder h =>
    rw [expand, if_pos rfl]
    split
    · rename_i hsplit
      rw [splitAt?_append h] at hsplit
      cases hsplit
      rfl
    · rename_i hsplit
      rw [splitAt?_append h] at hsplit
      cases hsplit
  | brace h =>
    rw [expand, if_pos rfl]
    split
    · rename_i hsplit
      rw [splitAt?_eq_none_iff.2 h] at hsplit
      cases hsplit
    · rfl
  | @tabStop d _ _ hd hdigits hrest =>
    have hne : d ≠ '{' := by
      rintro rfl
      cases hd
    rw [expand, if_neg hne, if_pos hd, dropWhile_append_of_head? hdigits hrest]
    rfl
  | command h =>
    rw [expand, if_neg (by decide), if_neg (by decide), if_pos rfl]
    split
    · rename_i hsplit
      rw [splitAt?_append h] at hsplit
      cases hsplit
      rfl
    · rename_i hsplit
      rw [splitAt?_append h] at hsplit
      cases hsplit
  | parenthesis h =>
    rw [expand, if_neg (by decide), if_neg (by decide), if_pos rfl]
    split
    · rename_i hsplit
      rw [splitAt?_eq_none_iff.2 h] at hsplit
      cases hsplit
    · rfl

theorem sublist (h : Turn text out rest) : (out ++ rest).Sublist text := by
  cases h with
  | plain => exact List.Sublist.refl _
  | last => exact List.Sublist.refl _
  | dollar => exact List.Sublist.refl _
  | @placeholder inside after =>
    have hinside := (defaultText_suffix inside).sublist.append (List.sublist_cons_self '}' after)
    exact (hinside.cons _).cons _
  | brace => exact ((List.Sublist.refl _).cons _).cons _
  | tabStop => exact ((List.sublist_append_right _ _).cons _).cons _
  | @command inside _ =>
    have hrest := (List.sublist_cons_self ')' rest).trans (List.sublist_append_right inside _)
    exact (hrest.cons _).cons _
  | parenthesis => exact ((List.Sublist.refl _).cons _).cons _

/-- A turn puts the next character out, a dollar sign only where it begins nothing, or it puts out
nothing and goes past the dollar sign and the character that makes it the beginning of a form. -/
theorem keeps_or_drops (h : Turn text out rest) :
    (∃ c, out = [c] ∧ text = c :: rest ∧ (c = '$' → ∀ next ∈ rest.head?, opens next = false)) ∨
      ∃ next more, out = [] ∧ text = '$' :: next :: more ∧ opens next = true ∧
        rest.length ≤ more.length := by
  cases h with
  | plain h => exact .inl ⟨_, rfl, rfl, fun hc => absurd hc h⟩
  | last => exact .inl ⟨_, rfl, rfl, fun _ _ hnext => by cases hnext⟩
  | dollar h =>
    refine .inl ⟨_, rfl, rfl, fun _ next hnext => ?_⟩
    cases hnext
    exact h
  | @placeholder inside after =>
    have hdefault := length_defaultText_le inside
    refine .inr ⟨_, _, rfl, rfl, rfl, ?_⟩
    simp only [List.length_append, List.length_cons]
    omega
  | brace => exact .inr ⟨_, _, rfl, rfl, rfl, Nat.le_refl _⟩
  | @tabStop d _ _ hd =>
    refine .inr ⟨_, _, rfl, rfl, by simp [opens, hd], ?_⟩
    simp only [List.length_append]
    omega
  | command =>
    refine .inr ⟨_, _, rfl, rfl, rfl, ?_⟩
    simp only [List.length_append, List.length_cons]
    omega
  | parenthesis => exact .inr ⟨_, _, rfl, rfl, rfl, Nat.le_refl _⟩

theorem length_lt (h : Turn text out rest) : rest.length < text.length := by
  rcases h.keeps_or_drops with ⟨c, _, rfl, _⟩ | ⟨next, more, _, rfl, _, hle⟩
  · exact Nat.lt_succ_self _
  · exact Nat.lt_succ_of_lt (Nat.lt_succ_of_le hle)

end Turn

theorem exists_turn_of_opens {next : Char} (h : opens next = true) (more : List Char) :
    ∃ rest, Turn ('$' :: next :: more) [] rest := by
  simp only [opens, Bool.or_eq_true, decide_eq_true_eq] at h
  rcases h with (rfl | hdigit) | rfl
  · cases hsplit : splitAt? '}' more with
    | none => exact ⟨_, .brace (splitAt?_eq_none_iff.1 hsplit)⟩
    | some parts =>
      rw [eq_of_splitAt? hsplit]
      exact ⟨_, .placeholder (not_mem_of_splitAt? hsplit)⟩
  · have hsplit := List.takeWhile_append_dropWhile (p := isDigit) (l := more)
    rw [← hsplit]
    refine ⟨_, .tabStop hdigit ?_ ?_⟩
    · intro c hc
      exact of_mem_takeWhile hc
    · intro c hc
      exact not_of_head?_dropWhile hc
  · cases hsplit : splitAt? ')' more with
    | none => exact ⟨_, .parenthesis (splitAt?_eq_none_iff.1 hsplit)⟩
    | some parts =>
      rw [eq_of_splitAt? hsplit]
      exact ⟨_, .command (not_mem_of_splitAt? hsplit)⟩

theorem exists_turn {text : List Char} (h : text ≠ []) : ∃ out rest, Turn text out rest := by
  cases text with
  | nil => exact absurd rfl h
  | cons c rest =>
    by_cases hc : c = '$'
    · subst hc
      cases rest with
      | nil => exact ⟨_, _, .last⟩
      | cons next more =>
        cases hopens : opens next with
        | false => exact ⟨_, _, .dollar hopens⟩
        | true =>
          obtain ⟨rest, hturn⟩ := exists_turn_of_opens hopens more
          exact ⟨_, _, hturn⟩
    · exact ⟨_, _, .plain hc⟩

/-- A scan ends, so what every turn passes on from what it leaves holds of every text. -/
theorem turn_induction {motive : List Char → Prop} (nil : motive [])
    (turn : ∀ {text out rest : List Char}, Turn text out rest → motive rest → motive text)
    (text : List Char) : motive text := by
  induction hlength : text.length using Nat.strongRecOn generalizing text with
  | ind n ih =>
    subst hlength
    by_cases hempty : text = []
    · subst hempty
      exact nil
    · obtain ⟨out, rest, hturn⟩ := exists_turn hempty
      exact turn hturn (ih _ hturn.length_lt rest rfl)

theorem expand_sublist (text : List Char) : (expand text).Sublist text := by
  induction text using turn_induction with
  | nil => simp [expand]
  | @turn text out rest hturn ih =>
    rw [hturn.expand_eq]
    exact (ih.append_left out).trans hturn.sublist

/-- Where the scan of a text comes by: what it has put out there, and what is ahead of it. -/
inductive Scans (text : List Char) : List Char → List Char → Prop where
  | start : Scans text [] text
  | turn {out rest put rest' : List Char} (h : Scans text out rest) (hturn : Turn rest put rest') :
      Scans text (out ++ put) rest'

namespace Scans

variable {text put out rest more : List Char}

theorem expand_eq (h : Scans text out rest) : expand text = out ++ expand rest := by
  induction h with
  | start => rfl
  | turn _ hturn ih => rw [ih, hturn.expand_eq, List.append_assoc]

theorem trans (h : Scans text out rest) (h' : Scans rest put more) :
    Scans text (out ++ put) more := by
  induction h' with
  | start =>
    rw [List.append_nil]
    exact h
  | turn _ hnext ih =>
    rw [← List.append_assoc]
    exact .turn ih hnext

theorem after (h : Scans rest out more) (hturn : Turn text put rest) :
    Scans text (put ++ out) more :=
  (Scans.start.turn hturn).trans h

theorem sublist (h : Scans text out rest) : (out ++ rest).Sublist text := by
  induction h with
  | start => exact List.Sublist.refl _
  | turn _ hturn ih =>
    rw [List.append_assoc]
    exact (hturn.sublist.append_left _).trans ih

end Scans

theorem scans_of_not_mem {skipped : List Char} (h : '$' ∉ skipped) (rest : List Char) :
    Scans (skipped ++ rest) skipped rest := by
  induction skipped with
  | nil => exact .start
  | cons c skipped ih =>
    have hturn : Turn (c :: (skipped ++ rest)) [c] (skipped ++ rest) :=
      .plain (List.ne_of_not_mem_cons h).symm
    exact (ih (List.not_mem_of_not_mem_cons h)).after hturn

theorem expand_of_not_mem {text : List Char} (h : '$' ∉ text) : expand text = text := by
  have hexpand := (scans_of_not_mem h []).expand_eq
  rwa [expand, List.append_nil] at hexpand

/-- Each character that a scan puts out is put out by a turn of its own. -/
theorem exists_turn_of_expand_eq {text out more : List Char} {c : Char}
    (h : expand text = out ++ c :: more) :
    ∃ rest rest', Scans text out rest ∧ Turn rest [c] rest' ∧ expand rest' = more := by
  induction text using turn_induction generalizing out with
  | nil =>
    rw [expand] at h
    cases out <;> cases h
  | @turn text put rest hturn ih =>
    rw [hturn.expand_eq] at h
    rcases hturn.keeps_or_drops with ⟨d, rfl, _, _⟩ | ⟨_, _, rfl, _, _, _⟩
    · cases out with
      | nil =>
        obtain ⟨rfl, hmore⟩ := List.cons.inj h
        exact ⟨text, rest, .start, hturn, hmore⟩
      | cons e out =>
        obtain ⟨rfl, hmore⟩ := List.cons.inj h
        obtain ⟨ahead, ahead', hscans, hput, he⟩ := ih hmore
        exact ⟨ahead, ahead', hscans.after hturn, hput, he⟩
    · obtain ⟨ahead, ahead', hscans, hput, he⟩ := ih h
      exact ⟨ahead, ahead', hscans.after hturn, hput, he⟩

theorem cutCall_eq (cs : List Char) :
    cutCall cs = cs.takeWhile (· ≠ '(') ++ if '(' ∈ cs then ['('] else [] := by
  induction cs with
  | nil => rfl
  | cons c cs ih =>
    rw [cutCall]
    by_cases hc : c = '('
    · subst hc
      simp
    · rw [if_neg hc, ih, List.takeWhile_cons_of_pos (by simpa using hc)]
      simp [Ne.symm hc]

theorem cutCall_of_not_mem {cs : List Char} (h : '(' ∉ cs) : cutCall cs = cs := by
  induction cs with
  | nil => rfl
  | cons c cs ih =>
    have hc : c ≠ '(' := (List.ne_of_not_mem_cons h).symm
    rw [cutCall, if_neg hc, ih (List.not_mem_of_not_mem_cons h)]

theorem cutCall_append {before : List Char} (h : '(' ∉ before) (after : List Char) :
    cutCall (before ++ '(' :: after) = before ++ ['('] := by
  induction before with
  | nil => rfl
  | cons c before ih =>
    have hc : c ≠ '(' := (List.ne_of_not_mem_cons h).symm
    rw [List.cons_append, cutCall, if_neg hc, ih (List.not_mem_of_not_mem_cons h)]
    rfl

end LanguageClient.Suggest.Snippet
