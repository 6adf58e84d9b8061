import LanguageClient.Json.Source
import LanguageClient.Json.Writer
import LanguageClient.Proofs.Decimal

namespace LanguageClient

namespace Json

namespace NumberLiteral

def ofInt (n : Int) : NumberLiteral where
  negative := n < 0
  whole := Decimal.digits n.natAbs
  fraction := []
  exponent := none
  pointed := false

theorem takeWhile_digits (n : Nat) :
    (Decimal.digits n).takeWhile Decimal.isDigit = Decimal.digits n := by
  rw [← List.append_nil (Decimal.digits n),
    List.takeWhile_append_of_pos fun c hc => Decimal.isDigit_of_mem_digits hc]
  rfl

theorem dropWhile_digits (n : Nat) : (Decimal.digits n).dropWhile Decimal.isDigit = [] := by
  rw [← List.append_nil (Decimal.digits n),
    List.dropWhile_append_of_pos fun c hc => Decimal.isDigit_of_mem_digits hc]
  rfl

theorem not_padded_digits (n : Nat) :
    ¬ ((Decimal.digits n).isEmpty ||
      ((Decimal.digits n).head? = some '0' && (Decimal.digits n).length > 1)) = true := by
  simp only [Bool.or_eq_true, List.isEmpty_iff, Bool.and_eq_true, decide_eq_true_eq, not_or]
  refine ⟨Decimal.digits_ne_nil n, fun h => ?_⟩
  have hle := Decimal.length_digits_of_head? h.1
  omega

theorem ofChars?_digits (n : Nat) :
    ofChars? (Decimal.digits n) = some ⟨false, Decimal.digits n, [], none, false⟩ := by
  have hminus : ∀ rest, Decimal.digits n ≠ '-' :: rest := by
    intro rest h
    have hdigit := Decimal.isDigit_of_mem_digits (n := n) (h ▸ List.mem_cons_self)
    exact absurd hdigit (by decide)
  rw [ofChars?]
  · rw [takeWhile_digits, dropWhile_digits, if_neg (not_padded_digits n)]
    rfl
  · exact hminus

theorem ofChars?_minus_digits (n : Nat) :
    ofChars? ('-' :: Decimal.digits n) = some ⟨true, Decimal.digits n, [], none, false⟩ := by
  rw [ofChars?, takeWhile_digits, dropWhile_digits, if_neg (not_padded_digits n)]
  rfl

theorem toList_renderInt (n : Int) :
    (Decimal.renderInt n).toList =
      if n < 0 then '-' :: Decimal.digits n.natAbs else Decimal.digits n.natAbs := by
  rw [Decimal.renderInt, Decimal.render]
  split <;> simp

theorem ofChars?_renderInt (n : Int) :
    ofChars? (Decimal.renderInt n).toList = some (ofInt n) := by
  rw [toList_renderInt]
  by_cases h : n < 0
  · rw [if_pos h, ofChars?_minus_digits, ofInt, decide_eq_true h]
  · rw [if_neg h, ofChars?_digits, ofInt, decide_eq_false h]

theorem value?_ofInt {n : Int} (hlow : -(1 <<< 63) ≤ n) (hhigh : n < 1 <<< 64) :
    (ofInt n).value? = some (.int n) := by
  have hvalue : Decimal.value ((ofInt n).whole ++ (ofInt n).fraction) = n.natAbs := by
    rw [ofInt, List.append_nil, Decimal.value_digits]
  have hwhole : (!(ofInt n).pointed && (ofInt n).exponent.isNone) = true := rfl
  have hnegative : (ofInt n).negative = decide (n < 0) := rfl
  simp only [value?, hvalue, hwhole, hnegative, Bool.true_and]
  by_cases h : n < 0
  · have hword : n.natAbs ≠ 0 ∧ n.natAbs ≤ 1 <<< 63 := by omega
    have hsigned : -(n.natAbs : Int) = n := by omega
    simp only [h, decide_true, if_true, hsigned]
    rw [if_pos (by simpa using hword)]
  · have hword : n.natAbs < 1 <<< 64 := by omega
    have hsigned : (n.natAbs : Int) = n := by omega
    simp only [h, decide_false, Bool.false_eq_true, if_false, hsigned]
    rw [if_pos (by simpa using hword)]

end NumberLiteral

namespace Piece

def ofChar (c : Char) : Piece :=
  if c.toNat < 0x20 ∧ c ∉ ['\x08', '\x0c', '\n', '\r', '\t'] then .unit c.toNat else .char c

theorem text?_ofChar_cons (c : Char) (rest : List Piece) :
    text? (ofChar c :: rest) = (text? rest).map (c :: ·) := by
  rw [ofChar]
  split
  · rename_i h
    have hlow : ¬ (0xD800 ≤ c.toNat && c.toNat < 0xE000) = true := by simp; omega
    have hhigh : ¬ (0xD800 ≤ c.toNat && c.toNat < 0xDC00) = true := by simp; omega
    have htrail : ¬ (0xDC00 ≤ c.toNat && c.toNat < 0xE000) = true := by simp; omega
    rw [text?.eq_def]
    cases rest with
    | nil =>
      dsimp only
      rw [if_neg hlow, Char.ofNat_toNat]
      rfl
    | cons next rest =>
      dsimp only
      rw [if_neg hhigh, if_neg htrail, Char.ofNat_toNat]
  · rw [text?]

theorem text?_map_ofChar (cs : List Char) : text? (cs.map ofChar) = some cs := by
  induction cs with
  | nil => rfl
  | cons c cs ih => rw [List.map_cons, text?_ofChar_cons, ih, Option.map_some]

end Piece

namespace Token.Lexer

def feedAll? (lexer : Lexer) (cs : List Char) : Option Lexer := cs.foldlM feed? lexer

theorem feedAll?_append (lexer : Lexer) (cs ds : List Char) :
    lexer.feedAll? (cs ++ ds) = (lexer.feedAll? cs).bind fun lexer => lexer.feedAll? ds :=
  List.foldlM_append

theorem feedAll?_cons (lexer : Lexer) (c : Char) (cs : List Char) :
    lexer.feedAll? (c :: cs) = (lexer.feed? c).bind fun lexer => lexer.feedAll? cs :=
  List.foldlM_cons

theorem digit?_hexDigit {n : Nat} (h : n < 16) : Radix.digit? (hexDigit n) = some n := by
  have hall : ∀ n < 16, Radix.digit? (hexDigit n) = some n := by decide
  exact hall n h

theorem feedAll?_escape (tokens : List Token) (seen : List Piece) (c : Char) :
    (Lexer.mk tokens (.text seen)).feedAll? (escape c) =
      some ⟨tokens, .text (.ofChar c :: seen)⟩ := by
  unfold escape
  split
  · rfl
  · rfl
  · rfl
  · rfl
  · rfl
  · rfl
  · rfl
  · rename_i hquote hslash hback hform hline hreturn htab
    have hlong : c ∉ ['\x08', '\x0c', '\n', '\r', '\t'] := by
      simp only [List.mem_cons, List.not_mem_nil, or_false, not_or]
      exact ⟨hback, hform, hline, hreturn, htab⟩
    split
    · rename_i hcontrol
      have hhigh := digit?_hexDigit (n := c.toNat / 16) (by omega)
      have hlow := digit?_hexDigit (n := c.toNat % 16) (by omega)
      have hvalue : c.toNat / 16 * 16 + c.toNat % 16 = c.toNat := by omega
      have hzero : Radix.digit? '0' = some 0 := by decide
      rw [Piece.ofChar, if_pos ⟨hcontrol, hlong⟩]
      simp only [feedAll?_cons, feed?]
      simp [hhigh, hlow, hzero, hvalue, feedAll?]
    · rename_i hcontrol
      rw [Piece.ofChar, if_neg fun h => hcontrol h.1]
      have hfeed : (Lexer.mk tokens (.text seen)).feed? c =
          some ⟨tokens, .text (.char c :: seen)⟩ := by
        rw [feed?]
        dsimp only
        rw [if_neg hquote, if_neg hslash, if_neg hcontrol]
      rw [feedAll?_cons, hfeed]
      rfl

theorem feedAll?_escapes (tokens : List Token) (seen : List Piece) (cs : List Char) :
    (Lexer.mk tokens (.text seen)).feedAll? (cs.flatMap escape) =
      some ⟨tokens, .text ((cs.map .ofChar).reverse ++ seen)⟩ := by
  induction cs generalizing seen with
  | nil => rfl
  | cons c cs ih =>
    rw [List.flatMap_cons, feedAll?_append, feedAll?_escape, Option.bind_some, ih, List.map_cons,
      List.reverse_cons, List.append_assoc]
    rfl

theorem feedAll?_quote (tokens : List Token) (text : String) :
    (Lexer.mk tokens .between).feedAll? (quote text) =
      some ⟨.text (text.toList.map .ofChar) :: tokens, .between⟩ := by
  have hopen : (Lexer.mk tokens .between).feed? '"' = some ⟨tokens, .text []⟩ := rfl
  rw [quote, feedAll?_cons, hopen, Option.bind_some, feedAll?_append, feedAll?_escapes,
    Option.bind_some, List.append_nil]
  exact congrArg (fun pieces => some (Lexer.mk (.text pieces :: tokens) .between))
    (List.reverse_reverse _)

/-- What stands behind a value. -/
def IsDelimiter (c : Char) : Prop := c ∈ [',', ']', '}']

instance : DecidablePred IsDelimiter := fun c => inferInstanceAs (Decidable (c ∈ [',', ']', '}']))

/-- The tokens are complete but for a number or a word that the next delimiter ends. -/
structure Settles (lexer : Lexer) (tokens : List Token) : Prop where
  close : lexer.close? = some tokens
  feed : ∀ c, IsDelimiter c → lexer.feed? c = begin? tokens c

/-- Characters are cut into tokens, whatever was read before them. -/
def Reads (cs : List Char) (tokens : List Token) : Prop :=
  ∀ before, ∃ lexer, (Lexer.mk before .between).feedAll? cs = some lexer ∧
    lexer.Settles (tokens.reverse ++ before)

theorem settles_between (tokens : List Token) : (Lexer.mk tokens .between).Settles tokens :=
  ⟨rfl, fun _ _ => rfl⟩

theorem Reads.nil : Reads [] [] := fun before => ⟨_, rfl, settles_between before⟩

theorem Reads.after {cs ds : List Char} {ts : List Token} {t : Token}
    (h : ∀ before, (Lexer.mk before .between).feedAll? cs = some ⟨t :: before, .between⟩)
    (hrest : Reads ds ts) : Reads (cs ++ ds) (t :: ts) := by
  intro before
  obtain ⟨lexer, hfeed, hsettles⟩ := hrest (t :: before)
  refine ⟨lexer, ?_, ?_⟩
  · rw [feedAll?_append, h, Option.bind_some, hfeed]
  · rwa [List.reverse_cons, List.append_assoc]

theorem Reads.delimited {cs ds : List Char} {c : Char} {t : Token} {ts us : List Token}
    (h : Reads cs ts) (hc : IsDelimiter c)
    (ht : ∀ before, begin? before c = some ⟨t :: before, .between⟩) (hrest : Reads ds us) :
    Reads (cs ++ c :: ds) (ts ++ t :: us) := by
  intro before
  obtain ⟨lexer, hfeed, hsettles⟩ := h before
  obtain ⟨last, hlast, hend⟩ := hrest (t :: (ts.reverse ++ before))
  refine ⟨last, ?_, ?_⟩
  · rw [feedAll?_append, hfeed, Option.bind_some, feedAll?_cons, hsettles.feed c hc, ht,
      Option.bind_some, hlast]
  · simpa using hend

/-- A token that is read character by character until one comes that does not belong to it. -/
structure IsRun (mode : List Char → Mode) (accepts : Char → Bool) : Prop where
  goes : ∀ tokens seen c, accepts c = true →
    (Lexer.mk tokens (mode seen)).feed? c = some ⟨tokens, mode (c :: seen)⟩
  stops : ∀ tokens seen c, accepts c = false →
    (Lexer.mk tokens (mode seen)).feed? c =
      (Lexer.mk tokens (mode seen)).close?.bind fun tokens => begin? tokens c

theorem isRun_word : IsRun .word Char.isLower where
  goes _ _ _ h := if_pos h
  stops _ _ _ h := if_neg (Bool.eq_false_iff.1 h)

theorem isRun_number : IsRun .number isNumberChar where
  goes _ _ _ h := if_pos h
  stops _ _ _ h := if_neg (Bool.eq_false_iff.1 h)

theorem IsRun.feedAll? {mode : List Char → Mode} {accepts : Char → Bool} (h : IsRun mode accepts)
    (tokens : List Token) (seen : List Char) {cs : List Char} (hcs : ∀ c ∈ cs, accepts c = true) :
    (Lexer.mk tokens (mode seen)).feedAll? cs = some ⟨tokens, mode (cs.reverse ++ seen)⟩ := by
  induction cs generalizing seen with
  | nil => rfl
  | cons c cs ih =>
    rw [feedAll?_cons, h.goes _ _ _ (hcs c List.mem_cons_self), Option.bind_some,
      ih _ fun d hd => hcs d (List.mem_cons_of_mem _ hd), List.reverse_cons, List.append_assoc]
    rfl

theorem IsRun.reads {mode : List Char → Mode} {accepts : Char → Bool} (h : IsRun mode accepts)
    (hdelimiter : ∀ c, IsDelimiter c → accepts c = false) {c : Char} {cs : List Char} {t : Token}
    (hbegin : ∀ before, begin? before c = some ⟨before, mode [c]⟩)
    (hcs : ∀ c ∈ cs, accepts c = true)
    (hclose : ∀ before, (Lexer.mk before (mode (c :: cs).reverse)).close? = some (t :: before)) :
    Reads (c :: cs) [t] := by
  intro before
  have hfeed : (Lexer.mk before .between).feed? c = some ⟨before, mode [c]⟩ := hbegin before
  refine ⟨⟨before, mode (c :: cs).reverse⟩, ?_, hclose before, fun d hd => ?_⟩
  · rw [feedAll?_cons, hfeed, Option.bind_some, h.feedAll? _ _ hcs, List.reverse_cons]
  · rw [h.stops _ _ _ (hdelimiter d hd), hclose, Option.bind_some]
    rfl

theorem reads_word {c : Char} {cs : List Char} {k : Keyword}
    (hbegin : ∀ before, begin? before c = some ⟨before, .word [c]⟩)
    (hcs : cs.all Char.isLower = true) (hk : keyword? (c :: cs) = some k) :
    Reads (c :: cs) [.keyword k] := by
  apply isRun_word.reads _ hbegin (List.all_eq_true.1 hcs)
  · intro before
    simp only [close?, List.reverse_reverse, hk, Option.map_some]
  · intro d hd
    have hall : [',', ']', '}'].all (fun c => !Char.isLower c) = true := by decide
    simpa using List.all_eq_true.1 hall d hd

theorem begin?_number (before : List Token) {c : Char}
    (h : (Decimal.isDigit c || c = '-') = true) :
    begin? before c = some ⟨before, .number [c]⟩ := by
  unfold begin?
  split
  all_goals try exact absurd h (by decide)
  rw [if_pos h]

theorem reads_number {c : Char} {cs : List Char} {l : NumberLiteral}
    (hc : (Decimal.isDigit c || c = '-') = true) (hcs : ∀ c ∈ cs, Decimal.isDigit c = true)
    (hl : NumberLiteral.ofChars? (c :: cs) = some l) : Reads (c :: cs) [.number l] := by
  apply isRun_number.reads _ (fun before => begin?_number before hc)
  · intro d hd
    simp [isNumberChar, hcs d hd]
  · intro before
    simp only [close?, List.reverse_reverse, hl, Option.map_some]
  · intro d hd
    have hall : [',', ']', '}'].all (fun c => !isNumberChar c) = true := by decide
    simpa using List.all_eq_true.1 hall d hd

theorem reads_renderInt (n : Int) : Reads (Decimal.renderInt n).toList [.number (.ofInt n)] := by
  have hl := NumberLiteral.ofChars?_renderInt n
  have hdigit : ∀ c ∈ Decimal.digits n.natAbs, Decimal.isDigit c = true := fun c hc =>
    Decimal.isDigit_of_mem_digits hc
  rw [NumberLiteral.toList_renderInt] at hl ⊢
  by_cases h : n < 0
  · rw [if_pos h] at hl ⊢
    exact reads_number (by decide) hdigit hl
  · rw [if_neg h] at hl ⊢
    obtain ⟨c, cs, hcons⟩ := List.exists_cons_of_ne_nil (Decimal.digits_ne_nil n.natAbs)
    rw [hcons] at hl hdigit ⊢
    have hc := hdigit c List.mem_cons_self
    exact reads_number (by rw [hc]; rfl) (fun d hd => hdigit d (List.mem_cons_of_mem _ hd)) hl

end Token.Lexer

end Json

end LanguageClient
