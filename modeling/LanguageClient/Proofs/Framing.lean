import LanguageClient.Proofs.Decimal
import LanguageClient.Proofs.Grammar
import LanguageClient.Wire.Sink

namespace LanguageClient

theorem Utf8.encode_of_ascii {cs : List Char} (h : ∀ c ∈ cs, c.toNat < 128) :
    encode cs = cs.map byte := by
  induction cs with
  | nil => rfl
  | cons c cs ih =>
    rw [encode_cons_of_lt (h c List.mem_cons_self), List.map_cons]
    exact congrArg _ (ih fun d hd => h d (List.mem_cons_of_mem _ hd))

namespace Wire

namespace Frame

/-- The first line of a header. -/
def lengthLine (length : Nat) : List Char := lengthLabel ++ ' ' :: Decimal.digits length

theorem header_eq (length : Nat) :
    header length = lengthLine length ++ (lineBreak ++ lineBreak) := by
  simp [header, lengthLine, List.append_assoc]

theorem lengthLine_ascii {length : Nat} {c : Char} (h : c ∈ lengthLine length) :
    32 ≤ c.toNat ∧ c.toNat < 128 := by
  rcases List.mem_append.1 h with hl | hd
  · have hall : lengthLabel.all (fun c => 32 ≤ c.toNat && c.toNat < 128) = true := by decide
    simpa using List.all_eq_true.1 hall c hl
  · rcases List.mem_cons.1 hd with rfl | hd
    · decide
    · have hdigit := Decimal.isDigit_iff.1 (Decimal.isDigit_of_mem_digits hd)
      omega

theorem length_lengthLine_le {length : Nat} (h : length ≤ bodyLimit) :
    (lengthLine length).length ≤ 24 := by
  have hlt : length < Nat.pow 10 8 := Nat.lt_of_le_of_lt h (by decide)
  have hd := Decimal.length_digits_le (by decide) hlt
  have hl : lengthLabel.length = 15 := rfl
  rw [lengthLine, List.length_append, List.length_cons, hl]
  omega

theorem encode_header (length : Nat) :
    Utf8.encode (header length) = (lengthLine length).map byte ++ [13, 10, 13, 10] := by
  rw [header_eq, Utf8.encode_append,
    Utf8.encode_of_ascii fun c hc => (lengthLine_ascii hc).2]
  rfl

theorem feed_not_mem_lengthLine (length : Nat) : 10 ∉ (lengthLine length).map byte := by
  intro h
  obtain ⟨c, hc, he⟩ := List.mem_map.1 h
  obtain ⟨hlow, hhigh⟩ := lengthLine_ascii hc
  have hn := congrArg UInt8.toNat he
  simp only [toNat_byte hhigh, UInt8.reduceToNat] at hn
  omega

/-- The header of a body ends with the first empty line of its frame, since what comes before holds
one line feed at most. -/
theorem isHeader_header (length : Nat) (rest : Bytes) :
    IsHeader (Utf8.encode (header length)) (Utf8.encode (header length) ++ rest) := by
  rw [isHeader_append_iff, encode_header]
  refine ⟨List.suffix_append _ _, ?_⟩
  intro k hk hends
  have hshort : ((lengthLine length).map byte ++ [13, 10, 13, 10]).take k <+:
      (lengthLine length).map byte ++ [13, 10, 13] := by
    apply List.prefix_of_prefix_length_le (List.take_prefix _ _)
    · exact ⟨[10], by simp⟩
    · simp only [List.length_take, List.length_append, List.length_cons, List.length_nil] at hk ⊢
      omega
  have hline : ((lengthLine length).map byte).count 10 = 0 :=
    List.count_eq_zero.2 (feed_not_mem_lengthLine length)
  have hone := hshort.sublist.count_le 10
  have htwo := hends.sublist.count_le 10
  rw [List.count_append, hline] at hone
  exact absurd (Nat.le_trans htwo hone) (by decide)

theorem areLines_header (length : Nat) :
    AreLines [lengthLine length, [], []] (header length) := by
  refine ⟨List.cons_ne_nil _ _, ?_, ?_⟩
  · rw [header_eq, List.intercalate_cons_cons, List.append_assoc]
    rfl
  · intro line hl hbreak
    rcases List.mem_cons.1 hl with rfl | hl
    · have hr : '\r' ∈ lengthLine length := hbreak.subset List.mem_cons_self
      exact absurd (lengthLine_ascii hr).1 (by decide)
    · have hnil : line = [] := by simpa using hl
      rw [hnil, List.infix_nil] at hbreak
      cases hbreak

theorem announces_header {length : Nat} (h : length < 1 <<< 64) :
    Announces (Utf8.encode (header length)) (.ok length) := by
  have hvalue : FirstValue [lengthLine length, [], []] (' ' :: Decimal.digits length) :=
    ⟨[], [[], []], rfl, nofun⟩
  have hcore : Text.IsCore (Decimal.digits length) (' ' :: Decimal.digits length) := by
    have hblank : ∀ c ∈ Decimal.digits length, Text.isBlank c = false := fun c hc =>
      Text.isBlank_of_isDigit (Decimal.isDigit_of_mem_digits hc)
    refine ⟨⟨[' '], [], ?_, ?_, nofun⟩, ?_, ?_⟩
    · rw [List.append_nil]
      rfl
    · intro c hc
      rw [List.mem_singleton.1 hc]
      decide
    · intro c hc
      exact hblank c (List.mem_of_mem_head? hc)
    · intro c hc
      exact hblank c (List.mem_of_mem_getLast? hc)
  have hdenotes : Decimal.Denotes (Decimal.digits length) length := by
    have hplain := Decimal.Denotes.plain (Decimal.digits_ne_nil length) fun c hc =>
      Decimal.isDigit_of_mem_digits hc
    rwa [Decimal.value_digits] at hplain
  exact .length rfl (areLines_header length) hvalue hcore hdenotes h

/-- The frame of a body is cut off whole, and nothing more. -/
theorem cut_encode {body : Bytes} (h : body.length ≤ bodyLimit) (rest : Bytes) :
    cut (encode body ++ rest) = (.ok body, rest) := by
  have hword : body.length < 1 <<< 64 := Nat.lt_of_le_of_lt h (by decide)
  have hlimit : (Utf8.encode (header body.length)).length ≤ headerLimit := by
    have hline := length_lengthLine_le h
    rw [encode_header, List.length_append, List.length_map, headerLimit]
    simp only [List.length_cons, List.length_nil]
    omega
  rw [encode, List.append_assoc]
  exact (Reads.frame (isHeader_header _ _) hlimit rfl (announces_header hword) h).cut_eq

/-- Reads frames as often as asked, whatever the results. -/
def readMany : Nat → Source → List (Except Fault Bytes) × Source
  | 0, s => ([], s)
  | count + 1, s =>
    let (result, rest) := read s
    let (results, rest) := readMany count rest
    (result :: results, rest)

theorem readMany_flatMap_encode {bodies : List Bytes}
    (hb : ∀ body ∈ bodies, body.length ≤ bodyLimit) {s : Source} (hs : s.Reliable)
    {trailing : Bytes}
    (hr : s.remaining = bodies.flatMap encode ++ trailing) :
    (readMany bodies.length s).1 = bodies.map .ok ∧
      (readMany bodies.length s).2.remaining = trailing := by
  induction bodies generalizing s with
  | nil => exact ⟨rfl, hr⟩
  | cons body bodies ih =>
    obtain ⟨hresult, hremaining, hreliable⟩ := read_agrees hs
    rw [hr, List.flatMap_cons, List.append_assoc,
      cut_encode (hb body List.mem_cons_self)] at hresult hremaining
    obtain ⟨hresults, htrailing⟩ :=
      ih (fun body h => hb body (List.mem_cons_of_mem _ h)) hreliable hremaining
    exact ⟨congr (congrArg List.cons hresult) hresults, htrailing⟩

end Frame

namespace Sink

/-- No write and no flush fails, and every write accepts something. -/
structure Reliable (s : Sink) : Prop where
  room : s.room = none
  badFlush : s.badFlush = none
  accept_pos : ∀ n, 0 < s.accept n

/-- Something was written completely and nothing else with it. -/
structure Takes (s : Sink) (bytes : Bytes) (writing : Except Fault Unit × Sink) : Prop where
  result : writing.1 = .ok ()
  written : writing.2.written = s.written ++ bytes
  reliable : writing.2.Reliable

theorem Reliable.writeAll {s : Sink} (hs : s.Reliable) (bytes : Bytes) :
    s.Takes bytes (s.writeAll bytes) := by
  fun_induction Sink.writeAll s bytes with
  | case1 s => exact ⟨rfl, (List.append_nil _).symm, hs⟩
  | case2 s b bytes h =>
    rw [allowance, hs.room] at h
    exact absurd h (Nat.ne_of_gt (hs.accept_pos _))
  | case3 s b bytes h count piece ih =>
    obtain ⟨hresult, hwritten, hreliable⟩ := ih ⟨hs.room, hs.badFlush, hs.accept_pos⟩
    refine ⟨hresult, ?_, hreliable⟩
    rw [hwritten]
    simp [written, piece]

theorem Reliable.writeFrame {s : Sink} (hs : s.Reliable) (body : Bytes) :
    s.Takes (Frame.encode body) (s.writeFrame body) := by
  obtain ⟨hresult, hwritten, hreliable⟩ := hs.writeAll (Frame.encode body)
  rw [Sink.writeFrame]
  generalize s.writeAll (Frame.encode body) = writing at *
  obtain ⟨result, after⟩ := writing
  subst hresult
  have hflush : after.flush = (.ok (), { after with flushes := after.flushes + 1 }) := by
    have hbad : after.badFlush ≠ some (after.flushes + 1) := by
      rw [hreliable.badFlush]
      exact nofun
    rw [flush, if_neg hbad]
  dsimp only
  rw [hflush]
  exact ⟨rfl, hwritten, hreliable.room, hreliable.badFlush, hreliable.accept_pos⟩

/-- Writes bodies as frames one after another, up to the first fault. -/
def writeFrames (s : Sink) : List Bytes → Except Fault Unit × Sink
  | [] => (.ok (), s)
  | body :: bodies =>
    match s.writeFrame body with
    | (.ok (), s) => s.writeFrames bodies
    | (.error fault, s) => (.error fault, s)

theorem Reliable.writeFrames {s : Sink} (hs : s.Reliable) (bodies : List Bytes) :
    s.Takes (bodies.flatMap Frame.encode) (s.writeFrames bodies) := by
  induction bodies generalizing s with
  | nil => exact ⟨rfl, (List.append_nil _).symm, hs⟩
  | cons body bodies ih =>
    obtain ⟨hresult, hwritten, hreliable⟩ := hs.writeFrame body
    rw [Sink.writeFrames]
    generalize s.writeFrame body = writing at *
    obtain ⟨result, after⟩ := writing
    subst hresult
    obtain ⟨hresult', hwritten', hreliable'⟩ := ih hreliable
    refine ⟨hresult', ?_, hreliable'⟩
    rw [hwritten', hwritten, List.append_assoc, List.flatMap_cons]

end Sink

/-- Bodies that are written to a pipe as frames are read from it again one by one, and what comes
after the frames stays unread. -/
theorem Frame.readMany_writeFrames {sink : Sink} (hw : sink.Reliable) {bodies : List Bytes}
    (hb : ∀ body ∈ bodies, body.length ≤ bodyLimit) {source : Source} (hs : source.Reliable)
    {trailing : Bytes}
    (hr : sink.written ++ source.remaining = (sink.writeFrames bodies).2.written ++ trailing) :
    (sink.writeFrames bodies).1 = .ok () ∧
      (sink.writeFrames bodies).2.written = sink.written ++ bodies.flatMap encode ∧
      (readMany bodies.length source).1 = bodies.map .ok ∧
      (readMany bodies.length source).2.remaining = trailing := by
  obtain ⟨hresult, hwritten, -⟩ := hw.writeFrames bodies
  rw [hwritten, List.append_assoc] at hr
  exact ⟨hresult, hwritten, readMany_flatMap_encode hb hs (List.append_cancel_left hr)⟩

/-- An empty body and one that is a frame itself, written and read byte by byte with an
interruption before each read. -/
theorem Frame.readMany_writeFrames_bytewise :
    let sink : Sink := { accept := fun _ => 1 }
    let bodies : List Bytes := [[], encode [0, 10]]
    let source : Source :=
      { pending := (bodies.flatMap encode ++ [13]).flatMap fun b => [.interruption, .data [b]]
        grant := fun _ => 1 }
    (sink.writeFrames bodies).1 = .ok () ∧
      (sink.writeFrames bodies).2.written = sink.written ++ bodies.flatMap encode ∧
      (readMany bodies.length source).1 = bodies.map .ok ∧
      (readMany bodies.length source).2.remaining = [13] := by
  intro sink bodies source
  have hw : sink.Reliable := ⟨rfl, rfl, fun _ => Nat.one_pos⟩
  have hs : source.Reliable := by
    refine ⟨fun _ => Nat.one_pos, fun reason h => ?_⟩
    obtain ⟨b, -, h⟩ := List.mem_flatMap.1 h
    simp at h
  apply readMany_writeFrames hw (by decide) hs
  rw [(hw.writeFrames bodies).written]
  decide

end Wire

end LanguageClient
