import LanguageClient.Text.Decimal

namespace LanguageClient.Suggest.Snippet

open Decimal (isDigit)

/-- The characters before the first `c` and those after it. -/
def splitAt? (c : Char) : List Char → Option (List Char × List Char)
  | [] => none
  | d :: rest =>
    if d = c then some ([], rest) else (splitAt? c rest).map fun p => (d :: p.1, p.2)

theorem eq_of_splitAt? {c : Char} {cs a b : List Char} (h : splitAt? c cs = some (a, b)) :
    cs = a ++ c :: b := by
  induction cs generalizing a b with
  | nil => simp [splitAt?] at h
  | cons d rest ih =>
    simp only [splitAt?] at h
    split at h
    · cases h; simp_all
    · obtain ⟨⟨x, y⟩, hp, he⟩ := Option.map_eq_some_iff.1 h
      cases he
      simp [ih hp]

/-- What a placeholder leaves: the text after its first colon, or nothing. -/
def defaultText (inside : List Char) : List Char :=
  match splitAt? ':' inside with
  | some (_, text) => text
  | none => []

theorem length_defaultText_le (inside : List Char) :
    (defaultText inside).length ≤ inside.length := by
  unfold defaultText
  split
  · rename_i h
    have := congrArg List.length (eq_of_splitAt? h)
    simp at this
    omega
  · simp

theorem length_lt_of_splitAt? {c : Char} {cs a b : List Char} (h : splitAt? c cs = some (a, b)) :
    a.length + b.length < cs.length := by
  have := congrArg List.length (eq_of_splitAt? h)
  simp only [List.length_append, List.length_cons] at this
  omega

set_option linter.unusedVariables false in
/-- The text without tab stops and commands, placeholders replaced by their defaults. A default
may hold further placeholders, so it is read again with what follows. -/
def expand : List Char → List Char
  | [] => []
  | ['$'] => ['$']
  | '$' :: next :: rest =>
    if next = '{' then
      match h : splitAt? '}' rest with
      | some (inside, after) => expand (defaultText inside ++ after)
      | none => expand rest
    else if isDigit next then expand (rest.dropWhile isDigit)
    else if next = '(' then
      match h : splitAt? ')' rest with
      | some (_, after) => expand after
      | none => expand rest
    else '$' :: expand (next :: rest)
  | c :: rest => c :: expand rest
termination_by cs => cs.length
decreasing_by
  · have := length_lt_of_splitAt? h
    have := length_defaultText_le inside
    simp only [List.length_append, List.length_cons]
    omega
  · simp only [List.length_cons]; omega
  · have := (List.dropWhile_sublist isDigit (l := rest)).length_le
    simp only [List.length_cons]
    omega
  · have := length_lt_of_splitAt? h
    simp only [List.length_cons]
    omega
  · simp only [List.length_cons]; omega
  · simp only [List.length_cons]; omega
  · simp only [List.length_cons]; omega

/-- The text up to and including its first opening parenthesis. -/
def cutCall : List Char → List Char
  | [] => []
  | c :: rest => if c = '(' then ['('] else c :: cutCall rest

def plain (text : String) : String := String.ofList (cutCall (expand text.toList))

end LanguageClient.Suggest.Snippet
