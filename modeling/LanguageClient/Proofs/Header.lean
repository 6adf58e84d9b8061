import LanguageClient.Proofs.Runs
import LanguageClient.Wire.Frame

namespace LanguageClient

theorem Utf8.decode?_eq_none_iff {bytes : Bytes} :
    decode? bytes = none ↔ ∀ text, encode text ≠ bytes := by
  constructor
  · intro h text ht
    rw [← ht, decode?_encode] at h
    cases h
  · intro h
    rw [decode?, String.fromUTF8?, dif_neg]
    rintro ⟨text, ht⟩
    apply h text
    rw [← toByteArray_encode] at ht
    have hdata := congrArg (fun array => array.data.toList) ht
    simpa using hdata.symm

namespace Text

/-- What a text holds between the blanks at its two ends. -/
structure IsCore (core text : List Char) : Prop where
  between : ∃ left right, text = left ++ (core ++ right) ∧
    (∀ c ∈ left, isBlank c = true) ∧ ∀ c ∈ right, isBlank c = true
  head : ∀ c ∈ core.head?, isBlank c = false
  last : ∀ c ∈ core.getLast?, isBlank c = false

theorem isCore_trim (text : List Char) : IsCore (trim text) text := by
  have hfront := List.takeWhile_append_dropWhile (p := isBlank) (l := text)
  have hback := List.takeWhile_append_dropWhile (p := isBlank)
    (l := (text.dropWhile isBlank).reverse)
  have hkept : text.dropWhile isBlank =
      trim text ++ ((text.dropWhile isBlank).reverse.takeWhile isBlank).reverse := by
    rw [trim, ← List.reverse_append, hback, List.reverse_reverse]
  refine ⟨⟨text.takeWhile isBlank, ((text.dropWhile isBlank).reverse.takeWhile isBlank).reverse,
    ?_, ?_, ?_⟩, ?_, ?_⟩
  · rw [← hkept, hfront]
  · intro c hc
    exact of_mem_takeWhile hc
  · intro c hc
    exact of_mem_takeWhile (List.mem_reverse.1 hc)
  · intro c hc
    apply not_of_head?_dropWhile (l := text)
    rw [hkept, List.head?_append, Option.mem_def.1 hc]
    rfl
  · intro c hc
    rw [trim, List.getLast?_reverse] at hc
    exact not_of_head?_dropWhile hc

theorem IsCore.trim_eq {core text : List Char} (h : IsCore core text) : trim text = core := by
  obtain ⟨⟨left, right, rfl, hleft, hright⟩, hhead, hlast⟩ := h
  cases hcore : core with
  | nil =>
    have hall : ∀ c ∈ left ++ right, isBlank c = true := by
      intro c hc
      exact (List.mem_append.1 hc).elim (hleft c) (hright c)
    have hnil : (left ++ right ++ []).dropWhile isBlank = [] :=
      dropWhile_append_of_head? hall nofun
    rw [List.append_nil] at hnil
    rw [trim, List.nil_append, hnil]
    rfl
  | cons c cs =>
    have hright' : ∀ d ∈ right.reverse, isBlank d = true := by
      intro d hd
      exact hright d (List.mem_reverse.1 hd)
    rw [← hcore, trim, dropWhile_append_of_head? hleft, List.reverse_append,
      dropWhile_append_of_head? hright', List.reverse_reverse]
    · intro d hd
      rw [List.head?_reverse] at hd
      exact hlast d hd
    · intro d hd
      rw [hcore] at hhead hd
      exact hhead d hd

end Text

namespace Decimal

/-- One or more digits after an optional plus sign, with the number that they stand for. -/
inductive Denotes : List Char → Nat → Prop where
  | plain {cs : List Char} (hne : cs ≠ []) (hd : ∀ c ∈ cs, isDigit c = true) :
      Denotes cs (value cs)
  | signed {cs : List Char} (hne : cs ≠ []) (hd : ∀ c ∈ cs, isDigit c = true) :
      Denotes ('+' :: cs) (value cs)

theorem read?_eq_some_iff {cs : List Char} {n : Nat} :
    read? cs = some n ↔ cs ≠ [] ∧ (∀ c ∈ cs, isDigit c = true) ∧ value cs = n := by
  rw [read?]
  by_cases hne : cs = []
  · simp [hne]
  · by_cases hd : ∀ c ∈ cs, isDigit c = true
    · have hempty : cs.isEmpty = false := by simp [hne]
      rw [hempty, List.all_eq_true.2 hd, if_neg (by decide), Option.some.injEq]
      exact ⟨fun h => ⟨hne, hd, h⟩, fun h => h.2.2⟩
    · have hall : cs.all isDigit = false := by
        rw [← Bool.not_eq_true, List.all_eq_true]
        exact hd
      simp [hall, hd]

theorem readUnsigned?_eq_some_iff {cs : List Char} {n : Nat} :
    readUnsigned? cs = some n ↔ Denotes cs n := by
  constructor
  · intro h
    unfold readUnsigned? at h
    split at h
    · obtain ⟨hne, hd, rfl⟩ := read?_eq_some_iff.1 h
      exact .signed hne hd
    · obtain ⟨hne, hd, rfl⟩ := read?_eq_some_iff.1 h
      exact .plain hne hd
  · intro h
    cases h with
    | signed hne hd => exact read?_eq_some_iff.2 ⟨hne, hd, rfl⟩
    | plain hne hd =>
      have hread := read?_eq_some_iff.2 ⟨hne, hd, rfl⟩
      unfold readUnsigned?
      split
      · exact absurd (hd '+' List.mem_cons_self) (by decide)
      · exact hread

theorem readWord?_eq_some_iff {bits : Nat} {cs : List Char} {n : Nat} :
    readWord? bits cs = some n ↔ Denotes cs n ∧ n < 1 <<< bits := by
  rw [readWord?, Option.filter_eq_some_iff, readUnsigned?_eq_some_iff, decide_eq_true_eq]

end Decimal

namespace Wire.Frame

/-- Lines that make up a text with line breaks between them, and hold none themselves. -/
structure AreLines (ls : List (List Char)) (text : List Char) : Prop where
  ne_nil : ls ≠ []
  joined : lineBreak.intercalate ls = text
  unbroken : ∀ line ∈ ls, ¬ lineBreak <:+: line

theorem lineBreak_not_prefix_cons {c : Char} {cs : List Char}
    (h : ∀ rest, c = '\r' → cs = '\n' :: rest → False) : ¬ lineBreak <+: c :: cs := by
  rintro ⟨rest, hrest⟩
  obtain ⟨hc, hcs⟩ := List.cons.inj hrest
  exact h rest hc.symm hcs.symm

theorem intercalate_cons_append (c : Char) (line : List Char) (others : List (List Char)) :
    lineBreak.intercalate ((c :: line) :: others) =
      c :: lineBreak.intercalate (line :: others) := by
  cases others with
  | nil => simp
  | cons other others => simp [List.intercalate_cons_cons]

theorem areLines_lines (text : List Char) : AreLines (lines text) text := by
  induction text using lines.induct with
  | case1 => exact ⟨by simp [lines], by simp [lines], by simp [lines, lineBreak]⟩
  | case2 rest ih =>
    obtain ⟨line, others, hlines⟩ := List.exists_cons_of_ne_nil ih.ne_nil
    refine ⟨by simp [lines], ?_, ?_⟩
    · rw [lines, hlines, List.intercalate_cons_cons, ← hlines, ih.joined]
      rfl
    · intro l hl
      rcases List.mem_cons.1 hl with rfl | hl
      · simp [lineBreak]
      · exact ih.unbroken l hl
  | case3 c rest hc line others hlines ih =>
    have heq : lines (c :: rest) = (c :: line) :: others := by
      rw [lines, hlines]
      exact hc
    have hrest := ih.joined
    rw [hlines] at hrest
    rw [heq]
    refine ⟨List.cons_ne_nil _ _, ?_, ?_⟩
    · rw [intercalate_cons_append, hrest]
    · intro l hl
      rcases List.mem_cons.1 hl with rfl | hl
      · rw [List.infix_cons_iff]
        rintro (hstart | hlater)
        · apply lineBreak_not_prefix_cons hc
          have hline : line <+: rest := by
            rw [← hrest]
            cases others with
            | nil => simp
            | cons other others =>
              rw [List.intercalate_cons_cons, List.append_assoc]
              exact List.prefix_append _ _
          exact hstart.trans (List.cons_prefix_cons.2 ⟨rfl, hline⟩)
        · exact ih.unbroken line (hlines ▸ List.mem_cons_self) hlater
      · exact ih.unbroken l (hlines ▸ List.mem_cons_of_mem _ hl)
  | case4 c rest hc hlines ih => exact absurd hlines ih.ne_nil

theorem lines_append_of_unbroken {line : List Char} (hline : ¬ lineBreak <:+: line)
    {text first : List Char} {others : List (List Char)} (htext : ∀ rest, text ≠ '\n' :: rest)
    (hlines : lines text = first :: others) :
    lines (line ++ text) = (line ++ first) :: others := by
  induction line with
  | nil => exact hlines
  | cons c line ih =>
    rw [List.infix_cons_iff, not_or] at hline
    have hrest := ih hline.2
    rw [List.cons_append, lines, hrest]
    · rfl
    · rintro rest rfl hfeed
      cases line with
      | nil => exact htext rest hfeed
      | cons d line =>
        obtain ⟨rfl, -⟩ := List.cons.inj hfeed
        exact hline.1 ⟨line, rfl⟩

theorem AreLines.lines_eq {ls : List (List Char)} {text : List Char} (h : AreLines ls text) :
    lines text = ls := by
  obtain ⟨hne, rfl, hunbroken⟩ := h
  induction ls with
  | nil => exact absurd rfl hne
  | cons line others ih =>
    have hline := hunbroken line List.mem_cons_self
    cases others with
    | nil =>
      have hlines : lines (line ++ []) = [line ++ []] :=
        lines_append_of_unbroken hline nofun rfl
      simpa using hlines
    | cons other others =>
      have hrest := ih (List.cons_ne_nil _ _) fun l hl => hunbroken l (List.mem_cons_of_mem _ hl)
      have hbreak : lines (lineBreak ++ lineBreak.intercalate (other :: others)) =
          [] :: other :: others := congrArg ([] :: ·) hrest
      have hfeed : ∀ rest, lineBreak ++ lineBreak.intercalate (other :: others) ≠ '\n' :: rest := by
        intro rest h
        cases h
      rw [List.intercalate_cons_cons, List.append_assoc,
        lines_append_of_unbroken hline hfeed hbreak, List.append_nil]

/-- The first of the lines that begin with the label has this value behind it. -/
def FirstValue (ls : List (List Char)) (value : List Char) : Prop :=
  ∃ before after, ls = before ++ (lengthLabel ++ value) :: after ∧
    ∀ line ∈ before, ¬ lengthLabel <+: line

theorem afterLabel?_eq_none_iff {line : List Char} :
    afterLabel? line = none ↔ ¬ lengthLabel <+: line := by
  rw [afterLabel?, ← List.isPrefixOf_iff_prefix]
  split <;> simp_all

theorem afterLabel?_eq_some_iff {line value : List Char} :
    afterLabel? line = some value ↔ line = lengthLabel ++ value := by
  constructor
  · intro h
    rw [afterLabel?] at h
    split at h
    · rename_i hlabel
      obtain ⟨rest, rfl⟩ := List.isPrefixOf_iff_prefix.1 hlabel
      rw [List.drop_left] at h
      rw [Option.some.inj h]
    · cases h
  · rintro rfl
    have hlabel : lengthLabel.isPrefixOf (lengthLabel ++ value) = true :=
      List.isPrefixOf_iff_prefix.2 (List.prefix_append _ _)
    rw [afterLabel?, if_pos hlabel, List.drop_left]

theorem findSome?_afterLabel?_eq_none_iff {ls : List (List Char)} :
    ls.findSome? afterLabel? = none ↔ ∀ line ∈ ls, ¬ lengthLabel <+: line := by
  simp only [List.findSome?_eq_none_iff, afterLabel?_eq_none_iff]

theorem findSome?_afterLabel?_eq_some_iff {ls : List (List Char)} {value : List Char} :
    ls.findSome? afterLabel? = some value ↔ FirstValue ls value := by
  simp only [List.findSome?_eq_some_iff, afterLabel?_eq_some_iff, afterLabel?_eq_none_iff,
    FirstValue]
  constructor
  · rintro ⟨before, line, after, hls, rfl, hbefore⟩
    exact ⟨before, after, hls, hbefore⟩
  · rintro ⟨before, after, hls, hbefore⟩
    exact ⟨before, _, after, hls, rfl, hbefore⟩

/-- What a header says about the length of the body: it is no UTF-8, no line has the label, the
first value behind the label is no number below `2 ^ 64`, or it is one. -/
inductive Announces (header : Bytes) : Except Fault Nat → Prop where
  | undecodable (h : ∀ text, Utf8.encode text ≠ header) : Announces header (.error .invalidHeader)
  | unlabelled {text : List Char} {ls : List (List Char)} (ht : Utf8.encode text = header)
      (hl : AreLines ls text) (h : ∀ line ∈ ls, ¬ lengthLabel <+: line) :
      Announces header (.error .missingContentLength)
  | illegible {text value core : List Char} {ls : List (List Char)}
      (ht : Utf8.encode text = header) (hl : AreLines ls text) (hv : FirstValue ls value)
      (hc : Text.IsCore core value) (h : ∀ n, Decimal.Denotes core n → ¬ n < 1 <<< 64) :
      Announces header (.error .invalidHeader)
  | length {text value core : List Char} {ls : List (List Char)} {n : Nat}
      (ht : Utf8.encode text = header) (hl : AreLines ls text) (hv : FirstValue ls value)
      (hc : Text.IsCore core value) (h : Decimal.Denotes core n) (hn : n < 1 <<< 64) :
      Announces header (.ok n)

theorem contentLength_encode (text : List Char) :
    contentLength (Utf8.encode text) =
      match (lines text).findSome? afterLabel? with
      | none => .error .missingContentLength
      | some value =>
        match Decimal.readWord? 64 (Text.trim value) with
        | some length => .ok length
        | none => .error .invalidHeader := by
  rw [contentLength, Utf8.decode?_encode]
  change (match (lines (String.ofList text).toList).findSome? afterLabel? with
    | none => Except.error Fault.missingContentLength
    | some value =>
      match Decimal.readWord? 64 (Text.trim value) with
      | some length => .ok length
      | none => .error .invalidHeader) = _
  rw [String.toList_ofList]

theorem announces_iff {header : Bytes} {result : Except Fault Nat} :
    Announces header result ↔ contentLength header = result := by
  constructor
  · intro h
    cases h with
    | undecodable h => rw [contentLength, Utf8.decode?_eq_none_iff.2 h]
    | unlabelled ht hl h =>
      rw [← ht, contentLength_encode, hl.lines_eq, findSome?_afterLabel?_eq_none_iff.2 h]
    | @illegible text value core ls ht hl hv hc h =>
      have hword : Decimal.readWord? 64 core = none := by
        rw [Option.eq_none_iff_forall_ne_some]
        intro n hn
        obtain ⟨hdenotes, hlt⟩ := Decimal.readWord?_eq_some_iff.1 hn
        exact h n hdenotes hlt
      rw [← ht, contentLength_encode, hl.lines_eq, findSome?_afterLabel?_eq_some_iff.2 hv]
      simp only [hc.trim_eq, hword]
    | length ht hl hv hc h hn =>
      rw [← ht, contentLength_encode, hl.lines_eq, findSome?_afterLabel?_eq_some_iff.2 hv]
      simp only [hc.trim_eq, Decimal.readWord?_eq_some_iff.2 ⟨h, hn⟩]
  · rintro rfl
    by_cases hd : ∃ text, Utf8.encode text = header
    · obtain ⟨text, rfl⟩ := hd
      have hlines := areLines_lines text
      rw [contentLength_encode]
      cases hv : (lines text).findSome? afterLabel? with
      | none => exact .unlabelled rfl hlines (findSome?_afterLabel?_eq_none_iff.1 hv)
      | some value =>
        have hfirst := findSome?_afterLabel?_eq_some_iff.1 hv
        have hcore := Text.isCore_trim value
        dsimp only
        cases hn : Decimal.readWord? 64 (Text.trim value) with
        | none =>
          apply Announces.illegible rfl hlines hfirst hcore
          intro n hdenotes hlt
          rw [Decimal.readWord?_eq_some_iff.2 ⟨hdenotes, hlt⟩] at hn
          cases hn
        | some n =>
          obtain ⟨hdenotes, hlt⟩ := Decimal.readWord?_eq_some_iff.1 hn
          exact .length rfl hlines hfirst hcore hdenotes hlt
    · have hnone : ∀ text, Utf8.encode text ≠ header := fun text ht => hd ⟨text, ht⟩
      rw [contentLength, Utf8.decode?_eq_none_iff.2 hnone]
      exact .undecodable hnone

end Wire.Frame

end LanguageClient
