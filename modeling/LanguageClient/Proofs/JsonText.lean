import LanguageClient.Json.Reader
import LanguageClient.Proofs.JsonTokens
import LanguageClient.Proofs.Rehearsal

namespace LanguageClient.Json

namespace Source

mutual

def ofJson : Json → Source
  | .null => .keyword .null
  | .bool true => .keyword .true
  | .bool false => .keyword .false
  | .int n => .number (.ofInt n)
  | .real m e =>
    .number ⟨m < 0, Decimal.digits m.natAbs, [], some (e < 0, Decimal.digits e.natAbs), false⟩
  | .str s => .text (s.toList.map .ofChar)
  | .arr items => .arr (ofItems items)
  | .obj members => .obj (ofMembers members)

def ofItems : List Json → List Source
  | [] => []
  | item :: rest => ofJson item :: ofItems rest

def ofMembers : List (String × Json) → List (List Piece × Source)
  | [] => []
  | (key, value) :: rest => (key.toList.map .ofChar, ofJson value) :: ofMembers rest

end

mutual

/-- The tokens with which a tree is written. -/
def tokens : Source → List Token
  | .keyword k => [.keyword k]
  | .number l => [.number l]
  | .text pieces => [.text pieces]
  | .arr items => .openArr :: (itemTokens items ++ [.closeArr])
  | .obj members => .openObj :: (memberTokens members ++ [.closeObj])

def itemTokens : List Source → List Token
  | [] => []
  | [item] => item.tokens
  | item :: next :: rest => item.tokens ++ .comma :: itemTokens (next :: rest)

def memberTokens : List (List Piece × Source) → List Token
  | [] => []
  | [(key, value)] => .text key :: .colon :: value.tokens
  | (key, value) :: next :: rest =>
    .text key :: .colon :: (value.tokens ++ .comma :: memberTokens (next :: rest))

end

end Source

mutual

/-- Whether a value is nested at most `depth` containers deep and every number in it is whole and
fits 64 bits. -/
def fits (depth : Nat) : Json → Bool
  | null | bool _ | str _ => true
  | int n => -(1 <<< 63) ≤ n && n < 1 <<< 64
  | real _ _ => false
  | arr items => match depth with
    | 0 => false
    | depth + 1 => fitsItems depth items
  | obj members => match depth with
    | 0 => false
    | depth + 1 => fitsMembers depth members

def fitsItems (depth : Nat) : List Json → Bool
  | [] => true
  | item :: rest => fits depth item && fitsItems depth rest

def fitsMembers (depth : Nat) : List (String × Json) → Bool
  | [] => true
  | (_, value) :: rest => fits depth value && fitsMembers depth rest

end

open Token Lexer

theorem reads_open {c : Char} {t : Token} {cs : List Char} {ts : List Token}
    (h : ∀ before, begin? before c = some ⟨t :: before, .between⟩) (hrest : Reads cs ts) :
    Reads (c :: cs) (t :: ts) := by
  have hfeed : ∀ before, (Lexer.mk before .between).feedAll? [c] = some ⟨t :: before, .between⟩ := by
    intro before
    have hbegin : (Lexer.mk before .between).feed? c = some ⟨t :: before, .between⟩ := h before
    rw [feedAll?_cons, hbegin]
    rfl
  exact hrest.after hfeed

theorem reads_quote (text : String) {cs : List Char} {ts : List Token} (hrest : Reads cs ts) :
    Reads (quote text ++ cs) (.text (text.toList.map .ofChar) :: ts) :=
  hrest.after fun before => feedAll?_quote before text

mutual

theorem reads_chars {depth : Nat} {value : Json} (h : value.fits depth = true) :
    Reads value.chars (Source.ofJson value).tokens := by
  match value with
  | null =>
    rw [chars, Source.ofJson, Source.tokens]
    exact @reads_word 'n' ['u', 'l', 'l'] .null (fun _ => rfl) (by decide) rfl
  | bool true =>
    rw [chars, Source.ofJson, Source.tokens]
    exact @reads_word 't' ['r', 'u', 'e'] .true (fun _ => rfl) (by decide) rfl
  | bool false =>
    rw [chars, Source.ofJson, Source.tokens]
    exact @reads_word 'f' ['a', 'l', 's', 'e'] .false (fun _ => rfl) (by decide) rfl
  | int n =>
    rw [chars, Source.ofJson, Source.tokens]
    exact reads_renderInt n
  | real _ _ => simp [fits] at h
  | str s =>
    rw [chars, Source.ofJson, Source.tokens, ← List.append_nil (quote s)]
    exact reads_quote s .nil
  | arr items =>
    cases depth with
    | zero => simp [fits] at h
    | succ depth =>
      rw [fits] at h
      rw [chars, Source.ofJson, Source.tokens]
      exact reads_open (fun _ => rfl)
        ((reads_itemChars h).delimited (by decide) (fun _ => rfl) .nil)
  | obj members =>
    cases depth with
    | zero => simp [fits] at h
    | succ depth =>
      rw [fits] at h
      rw [chars, Source.ofJson, Source.tokens]
      exact reads_open (fun _ => rfl)
        ((reads_memberChars h).delimited (by decide) (fun _ => rfl) .nil)

theorem reads_itemChars {depth : Nat} {items : List Json} (h : fitsItems depth items = true) :
    Reads (itemChars items) (Source.itemTokens (Source.ofItems items)) := by
  match items with
  | [] =>
    rw [itemChars, Source.ofItems, Source.itemTokens]
    exact .nil
  | [item] =>
    rw [fitsItems, Bool.and_eq_true] at h
    rw [itemChars, Source.ofItems, Source.ofItems, Source.itemTokens]
    exact reads_chars h.1
  | item :: next :: rest =>
    rw [fitsItems, Bool.and_eq_true] at h
    have hrest := reads_itemChars h.2
    rw [Source.ofItems] at hrest
    rw [itemChars, Source.ofItems, Source.ofItems, Source.itemTokens]
    exact (reads_chars h.1).delimited (by decide) (fun _ => rfl) hrest

theorem reads_memberChars {depth : Nat} {members : List (String × Json)}
    (h : fitsMembers depth members = true) :
    Reads (memberChars members) (Source.memberTokens (Source.ofMembers members)) := by
  match members with
  | [] =>
    rw [memberChars, Source.ofMembers, Source.memberTokens]
    exact .nil
  | [(key, value)] =>
    rw [fitsMembers, Bool.and_eq_true] at h
    rw [memberChars, Source.ofMembers, Source.ofMembers, Source.memberTokens]
    exact reads_quote key (reads_open (fun _ => rfl) (reads_chars h.1))
  | (key, value) :: next :: rest =>
    rw [fitsMembers, Bool.and_eq_true] at h
    have hrest := reads_memberChars h.2
    obtain ⟨key', value'⟩ := next
    rw [Source.ofMembers] at hrest
    rw [memberChars, Source.ofMembers, Source.ofMembers, Source.memberTokens]
    exact reads_quote key (reads_open (fun _ => rfl)
      ((reads_chars h.1).delimited (by decide) (fun _ => rfl) hrest))

end

namespace Source.Builder

def feedAll? (builder : Builder) (ts : List Token) : Option Builder := ts.foldlM feed? builder

theorem feedAll?_append (builder : Builder) (ts us : List Token) :
    builder.feedAll? (ts ++ us) = (builder.feedAll? ts).bind fun builder => builder.feedAll? us :=
  List.foldlM_append

theorem feedAll?_cons (builder : Builder) (t : Token) (ts : List Token) :
    builder.feedAll? (t :: ts) = (builder.feed? t).bind fun builder => builder.feedAll? ts :=
  List.foldlM_cons

/-- A value may come next. -/
def WantsValue (want : Want) : Prop := want = .value ∨ want = .valueOrClose

/-- A key may come next. -/
def WantsKey (want : Want) : Prop := want = .key ∨ want = .keyOrClose

def closes : Token → Bool
  | .closeArr | .closeObj => true
  | _ => false

theorem close?_eq_none {t : Token} (h : closes t = false) (containers : List Open) :
    close? containers t = none := by
  unfold close?
  split
  · cases h
  · cases h
  · rfl

theorem feed?_of_wantsValue {want : Want} (h : WantsValue want) (containers : List Open) {t : Token}
    (ht : closes t = false) :
    (Builder.mk containers want).feed? t = begin? containers t := by
  rcases h with rfl | rfl
  · rfl
  · change ((close? containers t) <|> begin? containers t) = begin? containers t
    rw [close?_eq_none ht]
    rfl

theorem feed?_of_wantsKey {want : Want} (h : WantsKey want) (members : List (List Piece × Source))
    (containers : List Open) (pieces : List Piece) :
    (Builder.mk (.obj members :: containers) want).feed? (.text pieces) =
      some ⟨.member members pieces :: containers, .colon⟩ := by
  rcases h with rfl | rfl <;> rfl

mutual

/-- The tokens of a tree build the tree where a value may come next. -/
theorem feedAll?_tokens {containers : List Open} {want : Want} (h : WantsValue want)
    (source : Source) :
    (Builder.mk containers want).feedAll? source.tokens = put? containers source := by
  match source with
  | .keyword k =>
    rw [tokens, feedAll?_cons, feed?_of_wantsValue (t := .keyword k) h _ rfl]
    exact Option.bind_fun_some _
  | .number l =>
    rw [tokens, feedAll?_cons, feed?_of_wantsValue (t := .number l) h _ rfl]
    exact Option.bind_fun_some _
  | .text pieces =>
    rw [tokens, feedAll?_cons, feed?_of_wantsValue (t := .text pieces) h _ rfl]
    exact Option.bind_fun_some _
  | .arr items =>
    rw [tokens, feedAll?_cons, feed?_of_wantsValue (t := .openArr) h _ rfl, begin?,
      Option.bind_some, feedAll?_append]
    by_cases hne : items = []
    · have hclose : (Builder.mk (.arr [] :: containers) .valueOrClose).feed? .closeArr =
          put? containers (.arr []) := by
        change (put? containers (.arr []) <|> none) = _
        simp
      rw [hne, itemTokens]
      exact (feedAll?_cons _ _ []).trans (hclose ▸ Option.bind_fun_some _)
    · have hclose : (Builder.mk (.arr items.reverse :: containers) .commaOrClose).feed? .closeArr =
          put? containers (.arr items.reverse.reverse) := rfl
      rw [feedAll?_itemTokens (.inr rfl) [] hne, Option.bind_some, List.append_nil, feedAll?_cons,
        hclose, List.reverse_reverse]
      exact Option.bind_fun_some _
  | .obj members =>
    rw [tokens, feedAll?_cons, feed?_of_wantsValue (t := .openObj) h _ rfl, begin?,
      Option.bind_some, feedAll?_append]
    by_cases hne : members = []
    · have hclose : (Builder.mk (.obj [] :: containers) .keyOrClose).feed? .closeObj =
          put? containers (.obj []) := by
        change (put? containers (.obj []) <|> none) = _
        simp
      rw [hne, memberTokens]
      exact (feedAll?_cons _ _ []).trans (hclose ▸ Option.bind_fun_some _)
    · have hclose :
          (Builder.mk (.obj members.reverse :: containers) .commaOrClose).feed? .closeObj =
            put? containers (.obj members.reverse.reverse) := rfl
      rw [feedAll?_memberTokens (.inr rfl) [] hne, Option.bind_some, List.append_nil,
        feedAll?_cons, hclose, List.reverse_reverse]
      exact Option.bind_fun_some _

theorem feedAll?_itemTokens {containers : List Open} {want : Want} (h : WantsValue want)
    (done : List Source) {items : List Source} (hne : items ≠ []) :
    (Builder.mk (.arr done :: containers) want).feedAll? (itemTokens items) =
      some ⟨.arr (items.reverse ++ done) :: containers, .commaOrClose⟩ := by
  match items with
  | [] => exact absurd rfl hne
  | [item] =>
    rw [itemTokens, feedAll?_tokens h]
    rfl
  | item :: next :: rest =>
    have hcomma : (Builder.mk (.arr (item :: done) :: containers) .commaOrClose).feed? .comma =
        some ⟨.arr (item :: done) :: containers, .value⟩ := rfl
    rw [itemTokens, feedAll?_append, feedAll?_tokens h, put?, Option.bind_some, feedAll?_cons,
      hcomma, Option.bind_some, feedAll?_itemTokens (.inl rfl) _ (List.cons_ne_nil _ _),
      List.reverse_cons (a := item), List.append_assoc]
    rfl

theorem feedAll?_memberTokens {containers : List Open} {want : Want} (h : WantsKey want)
    (done : List (List Piece × Source)) {members : List (List Piece × Source)}
    (hne : members ≠ []) :
    (Builder.mk (.obj done :: containers) want).feedAll? (memberTokens members) =
      some ⟨.obj (members.reverse ++ done) :: containers, .commaOrClose⟩ := by
  match members with
  | [] => exact absurd rfl hne
  | [(key, value)] =>
    have hcolon : (Builder.mk (.member done key :: containers) .colon).feed? .colon =
        some ⟨.member done key :: containers, .value⟩ := rfl
    rw [memberTokens, feedAll?_cons, feed?_of_wantsKey h, Option.bind_some, feedAll?_cons, hcolon,
      Option.bind_some, feedAll?_tokens (.inl rfl)]
    rfl
  | (key, value) :: next :: rest =>
    have hcolon : (Builder.mk (.member done key :: containers) .colon).feed? .colon =
        some ⟨.member done key :: containers, .value⟩ := rfl
    have hcomma :
        (Builder.mk (.obj ((key, value) :: done) :: containers) .commaOrClose).feed? .comma =
          some ⟨.obj ((key, value) :: done) :: containers, .key⟩ := rfl
    rw [memberTokens, feedAll?_cons, feed?_of_wantsKey h, Option.bind_some, feedAll?_cons, hcolon,
      Option.bind_some, feedAll?_append, feedAll?_tokens (.inl rfl), put?, Option.bind_some,
      feedAll?_cons, hcomma, Option.bind_some,
      feedAll?_memberTokens (.inl rfl) _ (List.cons_ne_nil _ _), List.reverse_cons (a := (key, value)),
      List.append_assoc]
    rfl

end

end Source.Builder

namespace Source

mutual

theorem value?_ofJson {depth : Nat} {value : Json} (h : value.fits depth = true) :
    (ofJson value).value? depth = some value.normalize := by
  match value with
  | .null => rw [ofJson, value?, normalize] <;> nofun
  | .bool true => rw [ofJson, value?, normalize] <;> nofun
  | .bool false => rw [ofJson, value?, normalize] <;> nofun
  | .int n =>
    simp only [fits, Bool.and_eq_true, decide_eq_true_eq] at h
    rw [ofJson, value?, NumberLiteral.value?_ofInt h.1 h.2, normalize] <;> nofun
  | .real _ _ => simp [fits] at h
  | .str s =>
    rw [ofJson, value?, Piece.text?_map_ofChar, Option.map_some, String.ofList_toList, normalize]
      <;> nofun
  | .arr items =>
    cases depth with
    | zero => simp [fits] at h
    | succ depth =>
      rw [fits] at h
      rw [ofJson, value?, values?_ofItems h, Option.map_some, normalize]
  | .obj members =>
    cases depth with
    | zero => simp [fits] at h
    | succ depth =>
      rw [fits] at h
      rw [ofJson, value?, members?_ofMembers h, Option.map_some, normalize]

theorem values?_ofItems {depth : Nat} {items : List Json} (h : fitsItems depth items = true) :
    values? depth (ofItems items) = some (normalizeItems items) := by
  match items with
  | [] => rw [ofItems, values?, normalizeItems]
  | item :: rest =>
    rw [fitsItems, Bool.and_eq_true] at h
    rw [ofItems, values?, value?_ofJson h.1, values?_ofItems h.2, normalizeItems]
    rfl

theorem members?_ofMembers {depth : Nat} {members : List (String × Json)}
    (h : fitsMembers depth members = true) :
    members? depth (ofMembers members) = some (normalizeMembers members) := by
  match members with
  | [] => rw [ofMembers, members?, normalizeMembers]
  | (key, value) :: rest =>
    rw [fitsMembers, Bool.and_eq_true] at h
    rw [ofMembers, members?, Piece.text?_map_ofChar, value?_ofJson h.1, members?_ofMembers h.2,
      normalizeMembers]
    simp

end

end Source

theorem ofTokens?_ofChars?_chars {depth : Nat} {value : Json} (h : value.fits depth = true) :
    (Token.ofChars? value.chars).bind Source.ofTokens? = some (Source.ofJson value) := by
  obtain ⟨lexer, hfeed, hsettles⟩ := reads_chars h []
  have htokens : Token.ofChars? value.chars = some (Source.ofJson value).tokens := by
    have hfeed : value.chars.foldlM Lexer.feed? Lexer.start = some lexer := hfeed
    rw [Token.ofChars?, hfeed]
    change (lexer.close?.bind fun ts => some ts.reverse) = _
    rw [hsettles.close, Option.bind_some, List.append_nil, List.reverse_reverse]
  have hfeed : (Source.ofJson value).tokens.foldlM Source.Builder.feed? Source.Builder.start =
      Source.Builder.put? [] (Source.ofJson value) :=
    Source.Builder.feedAll?_tokens (.inl rfl) _
  rw [htokens, Option.bind_some, Source.ofTokens?, hfeed]
  rfl

theorem Source.ofText?_render {depth : Nat} {value : Json} (h : value.fits depth = true) :
    Source.ofText? value.render = some (Source.ofJson value) := by
  rw [Source.ofText?, render, String.toList_ofList]
  exact ofTokens?_ofChars?_chars h

/-- The text of a value is read as the value in normal form. -/
theorem ofChars?_chars {value : Json} (h : value.fits depthLimit = true) :
    ofChars? value.chars = some value.normalize := by
  have htree := ofTokens?_ofChars?_chars h
  cases htokens : Token.ofChars? value.chars with
  | none => rw [htokens] at htree; cases htree
  | some ts =>
    rw [htokens, Option.bind_some] at htree
    rw [ofChars?, htokens]
    change (Source.ofTokens? ts).bind _ = _
    rw [htree, Option.bind_some, Source.value?_ofJson h]

theorem ofBytes?_bytes {value : Json} (h : value.fits depthLimit = true) :
    ofBytes? value.bytes = some value.normalize := by
  rw [bytes, ofBytes?_encode, ofChars?_chars h]

end LanguageClient.Json
