import LanguageClient.Proofs.Scanning

namespace LanguageClient.Suggest.Snippet

open Decimal (isDigit)

structure Literal where
  chars : List Char
  no_dollar : '$' ∉ chars
  no_brace : '}' ∉ chars

/-- The number of a tab stop or placeholder. -/
structure Number where
  digits : List Char
  nonempty : digits ≠ []
  all_digits : digits.all isDigit = true

/-- What a placeholder holds: literal text and further placeholders, one after another. -/
inductive Default where
  | done
  | literal (text : Literal) (rest : Default)
  | placeholder (number : Number) (inner rest : Default)

inductive Segment where
  | literal (text : Literal)
  | tabStop (number : Number)
  | blank (number : Number)
  | command (text : List Char) (h : ')' ∉ text)
  | placeholder (number : Number) (inner : Default)

namespace Default

def render : Default → List Char
  | done => []
  | literal text rest => text.chars ++ rest.render
  | placeholder number inner rest =>
    '$' :: '{' :: (number.digits ++ ':' :: (inner.render ++ '}' :: rest.render))

def text : Default → List Char
  | done => []
  | literal text rest => text.chars ++ rest.text
  | placeholder _ inner rest => inner.text ++ rest.text

end Default

namespace Segment

def render : Segment → List Char
  | literal text => text.chars
  | tabStop number => '$' :: number.digits
  | blank number => '$' :: '{' :: (number.digits ++ ['}'])
  | command text _ => '$' :: '(' :: (text ++ [')'])
  | placeholder number inner => '$' :: '{' :: (number.digits ++ ':' :: (inner.render ++ ['}']))

def text : Segment → List Char
  | literal text => text.chars
  | placeholder _ inner => inner.text
  | tabStop _ | blank _ | command _ _ => []

/-- A digit right after a tab stop would belong to its number. -/
def MayPrecede (rest : List Char) : Segment → Prop
  | tabStop _ => ∀ c ∈ rest.head?, isDigit c = false
  | literal _ | blank _ | command _ _ | placeholder _ _ => True

end Segment

def render (template : List Segment) : List Char := template.flatMap Segment.render

/-- The literal text of a template, in order. -/
def literalText (template : List Segment) : List Char := template.flatMap Segment.text

def Separated : List Segment → Prop
  | [] => True
  | segment :: rest => segment.MayPrecede (render rest) ∧ Separated rest

namespace Number

theorem isDigit_of_mem {number : Number} {c : Char} (h : c ∈ number.digits) : isDigit c = true :=
  List.all_eq_true.1 number.all_digits c h

theorem not_mem {c : Char} (h : isDigit c = false) (number : Number) : c ∉ number.digits := by
  intro hc
  rw [isDigit_of_mem hc] at h
  cases h

end Number

/-- A text without its first closing braces. -/
def unclose : Nat → List Char → List Char
  | 0, cs => cs
  | _ + 1, [] => []
  | n + 1, c :: cs => if c = '}' then unclose n cs else c :: unclose (n + 1) cs

theorem unclose_zero (cs : List Char) : unclose 0 cs = cs := by
  rw [unclose]

theorem unclose_brace (n : Nat) (cs : List Char) : unclose (n + 1) ('}' :: cs) = unclose n cs := by
  rw [unclose, if_pos rfl]

theorem unclose_cons {c : Char} (h : c ≠ '}') (n : Nat) (cs : List Char) :
    unclose n (c :: cs) = c :: unclose n cs := by
  cases n with
  | zero => rw [unclose_zero, unclose_zero]
  | succ n => rw [unclose, if_neg h]

theorem unclose_append {text : List Char} (h : '}' ∉ text) (n : Nat) (cs : List Char) :
    unclose n (text ++ cs) = text ++ unclose n cs := by
  induction text with
  | nil => rfl
  | cons c text ih =>
    rw [List.cons_append, unclose_cons (List.ne_of_not_mem_cons h).symm,
      ih (List.not_mem_of_not_mem_cons h), List.cons_append]

theorem exists_unclose_succ {n : Nat} {cs : List Char} (h : n < cs.count '}') :
    ∃ inside after, '}' ∉ inside ∧ unclose n cs = inside ++ '}' :: after ∧
      unclose (n + 1) cs = inside ++ after := by
  induction cs generalizing n with
  | nil => cases h
  | cons c cs ih =>
    by_cases hc : c = '}'
    · subst hc
      cases n with
      | zero =>
        refine ⟨[], cs, List.not_mem_nil, unclose_zero _, ?_⟩
        rw [unclose_brace, unclose_zero, List.nil_append]
      | succ n =>
        rw [List.count_cons_self] at h
        rw [unclose_brace, unclose_brace]
        exact ih (Nat.lt_of_succ_lt_succ h)
    · rw [List.count_cons_of_ne hc] at h
      obtain ⟨inside, after, hinside, hn, hsucc⟩ := ih h
      refine ⟨c :: inside, after, ?_, ?_, ?_⟩
      · exact List.not_mem_cons_of_ne_of_not_mem (Ne.symm hc) hinside
      · rw [unclose_cons hc, hn, List.cons_append]
      · rw [unclose_cons hc, hsucc, List.cons_append]

theorem expand_literal (text : Literal) (rest : List Char) :
    expand (text.chars ++ rest) = text.chars ++ expand rest :=
  (scans_of_not_mem text.no_dollar rest).expand_eq

theorem defaultText_append (number : Number) (inside : List Char) :
    defaultText (number.digits ++ ':' :: inside) = inside := by
  rw [defaultText, splitAt?_append (number.not_mem rfl)]

/-- The scan of a placeholder takes one more closing brace out of what follows its colon. -/
theorem expand_placeholder (number : Number) {n : Nat} {cs : List Char} (h : n < cs.count '}') :
    expand ('$' :: '{' :: (number.digits ++ ':' :: unclose n cs)) =
      expand (unclose (n + 1) cs) := by
  obtain ⟨inside, after, hinside, hn, hsucc⟩ := exists_unclose_succ h
  have hbrace : '}' ∉ number.digits ++ ':' :: inside := by
    rw [List.mem_append, not_or]
    exact ⟨number.not_mem rfl, List.not_mem_cons_of_ne_of_not_mem (by decide) hinside⟩
  have hturn : Turn ('$' :: '{' :: (number.digits ++ ':' :: inside ++ '}' :: after)) []
      (defaultText (number.digits ++ ':' :: inside) ++ after) := .placeholder hbrace
  rw [defaultText_append, List.append_assoc, List.cons_append] at hturn
  rw [hn, hsucc, hturn.expand_eq]
  rfl

/-- As deep inside placeholders as the scan is, so many closing braces ahead of it are gone. -/
theorem expand_unclose_render (inner : Default) {depth : Nat} {tail : List Char}
    (h : depth ≤ tail.count '}') :
    expand (unclose depth (inner.render ++ tail)) = inner.text ++ expand (unclose depth tail) := by
  induction inner generalizing depth tail with
  | done => rfl
  | literal text rest ih =>
    rw [Default.render, List.append_assoc, unclose_append text.no_brace, expand_literal, ih h,
      Default.text, List.append_assoc]
  | placeholder number inner rest ihInner ihRest =>
    have hrest : depth ≤ (rest.render ++ tail).count '}' := by
      rw [List.count_append]
      omega
    have hcloser : depth + 1 ≤ ('}' :: (rest.render ++ tail)).count '}' := by
      rw [List.count_cons_self]
      omega
    have hinner : depth < (inner.render ++ '}' :: (rest.render ++ tail)).count '}' := by
      rw [List.count_append]
      omega
    have hopen : '}' ∉ '$' :: '{' :: (number.digits ++ [':']) := by
      have hnumber : '}' ∉ number.digits := number.not_mem rfl
      simp [hnumber]
    -- One more brace is gone inside: the first behind `inner`, since `inner` uses up its own.
    calc expand (unclose depth ((Default.placeholder number inner rest).render ++ tail))
      _ = expand (unclose depth (('$' :: '{' :: (number.digits ++ [':'])) ++
            (inner.render ++ '}' :: (rest.render ++ tail)))) := by
          simp only [Default.render, List.cons_append, List.append_assoc, List.nil_append]
      _ = expand ('$' :: '{' :: (number.digits ++
            ':' :: unclose depth (inner.render ++ '}' :: (rest.render ++ tail)))) := by
          rw [unclose_append hopen]
          simp only [List.cons_append, List.append_assoc, List.nil_append]
      _ = expand (unclose (depth + 1) (inner.render ++ '}' :: (rest.render ++ tail))) :=
          expand_placeholder number hinner
      _ = inner.text ++ expand (unclose depth (rest.render ++ tail)) := by
          rw [ihInner hcloser, unclose_brace]
      _ = (Default.placeholder number inner rest).text ++ expand (unclose depth tail) := by
          rw [ihRest h, Default.text, List.append_assoc]

theorem Segment.expand_render (segment : Segment) {rest : List Char}
    (h : segment.MayPrecede rest) :
    expand (segment.render ++ rest) = segment.text ++ expand rest := by
  cases segment with
  | literal text => exact expand_literal text rest
  | tabStop number =>
    obtain ⟨digits, hne, hall⟩ := number
    cases digits with
    | nil => exact absurd rfl hne
    | cons d digits =>
      rw [List.all_cons, Bool.and_eq_true] at hall
      exact (Turn.tabStop hall.1 (List.all_eq_true.1 hall.2) h).expand_eq
  | blank number =>
    have hturn : Turn ('$' :: '{' :: (number.digits ++ '}' :: rest)) []
        (defaultText number.digits ++ rest) := .placeholder (number.not_mem rfl)
    rw [defaultText, splitAt?_eq_none_iff.2 (number.not_mem rfl)] at hturn
    rw [Segment.render, List.cons_append, List.cons_append, List.append_assoc]
    exact hturn.expand_eq
  | command text htext =>
    rw [Segment.render, List.cons_append, List.cons_append, List.append_assoc]
    exact (Turn.command htext).expand_eq
  | placeholder number inner =>
    have hinner := expand_unclose_render (.placeholder number inner .done)
      (Nat.zero_le (rest.count '}'))
    rw [unclose_zero, unclose_zero, Default.text, Default.text, List.append_nil] at hinner
    exact hinner

theorem expand_render {template : List Segment} (h : Separated template) :
    expand (render template) = literalText template := by
  induction template with
  | nil => exact expand.eq_1
  | cons segment rest ih =>
    rw [render, List.flatMap_cons, ← render, segment.expand_render h.1, ih h.2, literalText,
      literalText, List.flatMap_cons]

/-- The plain text of a template is its literal text up to and including the first opening
parenthesis. -/
theorem plain_render {template : List Segment} (h : Separated template) :
    plain (String.ofList (render template)) =
      String.ofList ((literalText template).takeWhile (· ≠ '(') ++
        if '(' ∈ literalText template then ['('] else []) := by
  rw [plain, String.toList_ofList, expand_render h, cutCall_eq]

/-- The snippet `f ${1:k}${2:v${3:: in ${10:t}}{}$(x}$1)$0${4}(t)`. -/
def nested : List Segment := [
  .literal ⟨"f ".toList, by decide, by decide⟩,
  .placeholder ⟨['1'], by decide, by decide⟩ (.literal ⟨['k'], by decide, by decide⟩ .done),
  .placeholder ⟨['2'], by decide, by decide⟩
    (.literal ⟨['v'], by decide, by decide⟩
      (.placeholder ⟨['3'], by decide, by decide⟩
        (.literal ⟨": in ".toList, by decide, by decide⟩
          (.placeholder ⟨['1', '0'], by decide, by decide⟩
            (.literal ⟨['t'], by decide, by decide⟩ .done) .done))
        (.literal ⟨['{'], by decide, by decide⟩ .done))),
  .command "x\x7d$1".toList (by decide),
  .tabStop ⟨['0'], by decide, by decide⟩,
  .blank ⟨['4'], by decide, by decide⟩,
  .literal ⟨"(t)".toList, by decide, by decide⟩]

theorem plain_render_nested :
    Separated nested ∧
      plain "f $\x7b1:k\x7d$\x7b2:v$\x7b3:: in $\x7b10:t\x7d\x7d\x7b\x7d$(x\x7d$1)$0$\x7b4\x7d(t)" =
        "f kv: in t\x7b(" := by
  have hseparated : Separated nested := by
    refine ⟨trivial, trivial, trivial, trivial, ?_, trivial, trivial, trivial⟩
    intro c hc
    cases hc
    rfl
  have hplain := plain_render hseparated
  have hrender : String.ofList (render nested) =
      "f $\x7b1:k\x7d$\x7b2:v$\x7b3:: in $\x7b10:t\x7d\x7d\x7b\x7d$(x\x7d$1)$0$\x7b4\x7d(t)" := by
    decide +kernel
  rw [hrender] at hplain
  refine ⟨hseparated, hplain.trans ?_⟩
  decide +kernel

end LanguageClient.Suggest.Snippet
