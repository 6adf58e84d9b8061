import LanguageClient.Proofs.Coordinates
import LanguageClient.Proofs.Rehearsal
import LanguageClient.Proofs.Replacing

namespace LanguageClient.Document

/-- Texts that both reach an offset and have the same bytes up to there. -/
structure SameUpTo (stop : Nat) (bytes other : Bytes) : Prop where
  le_length : stop ≤ bytes.length
  le_length_other : stop ≤ other.length
  take_eq : other.take stop = bytes.take stop

section

variable {bytes other before after : Bytes} {stop offset line start : Nat}

theorem sameUpTo_of_take_eq (hstop : stop ≤ bytes.length)
    (h : other.take stop = bytes.take stop) : SameUpTo stop bytes other := by
  refine ⟨hstop, ?_, h⟩
  have hlength := congrArg List.length h
  rw [List.length_take_of_le hstop, List.length_take] at hlength
  omega

namespace SameUpTo

theorem getElem?_eq (h : SameUpTo stop bytes other) (hoffset : offset < stop) :
    other[offset]? = bytes[offset]? := by
  rw [← List.getElem?_take_of_lt hoffset, h.take_eq, List.getElem?_take_of_lt hoffset]

theorem wordStart_eq (h : SameUpTo stop bytes other) :
    wordStart other stop = wordStart bytes stop := by
  rw [wordStart, wordStart, Nat.min_eq_left h.le_length, Nat.min_eq_left h.le_length_other,
    h.take_eq]

end SameUpTo

theorem startsAfterFeeds_append (offset : Nat) (before after : Bytes) :
    startsAfterFeeds offset (before ++ after) =
      startsAfterFeeds offset before ++ startsAfterFeeds (offset + before.length) after := by
  induction before generalizing offset with
  | nil => rfl
  | cons b rest ih =>
    have hlength : offset + (b :: rest).length = offset + 1 + rest.length := by
      rw [List.length_cons]
      omega
    rw [List.cons_append, startsAfterFeeds, startsAfterFeeds, ih, hlength]
    split
    · rfl
    · rfl

theorem getElem?_lineStarts_append (after : Bytes) (h : start ≤ before.length) :
    (lineStarts (before ++ after))[line]? = some start ↔
      (lineStarts before)[line]? = some start := by
  have happend : lineStarts (before ++ after) =
      lineStarts before ++ startsAfterFeeds (0 + before.length) after :=
    congrArg (0 :: ·) (startsAfterFeeds_append 0 before after)
  rw [happend]
  rcases Nat.lt_or_ge line (lineStarts before).length with hline | hline
  · rw [List.getElem?_append_left hline]
  · rw [List.getElem?_append_right hline, List.getElem?_eq_none hline]
    refine iff_of_false (fun hstart => ?_) (Option.some_ne_none start).symm
    obtain ⟨i, _, rfl⟩ := mem_startsAfterFeeds.1 (List.mem_of_getElem? hstart)
    omega

namespace SameUpTo

theorem getElem?_lineStarts_iff (h : SameUpTo stop bytes other) (hstart : start ≤ stop) :
    (lineStarts other)[line]? = some start ↔ (lineStarts bytes)[line]? = some start := by
  have htaken {bytes : Bytes} (hlength : stop ≤ bytes.length) :
      (lineStarts bytes)[line]? = some start ↔
        (lineStarts (bytes.take stop))[line]? = some start := by
    have hle : start ≤ (bytes.take stop).length := by
      rwa [List.length_take_of_le hlength]
    rw [← getElem?_lineStarts_append (bytes.drop stop) hle, List.take_append_drop]
  rw [htaken h.le_length_other, htaken h.le_length, h.take_eq]

theorem lineAt (h : SameUpTo stop bytes other) (hoffset : offset ≤ stop)
    (hline : LineAt (lineStarts bytes) offset line start) :
    LineAt (lineStarts other) offset line start := by
  refine ⟨(h.getElem?_lineStarts_iff (hline.start_le.trans hoffset)).2 hline.start_eq,
    hline.start_le, ?_⟩
  intro next hnext
  rw [← Nat.not_le]
  intro hle
  have hnext' := (h.getElem?_lineStarts_iff (hle.trans hoffset)).1 hnext
  exact Nat.not_le_of_lt (hline.lt_next next hnext') hle

end SameUpTo

end

namespace Snapshot

variable {text other : String} {stop offset : Nat} {line character : UInt32}

theorem offsetOf?_of_sameUpTo (cursor cursor' : Nat)
    (h : SameUpTo stop (ofText text cursor).bytes (ofText other cursor').bytes)
    (hstop : (ofText text cursor).offsetOf? line character = some stop) :
    (ofText other cursor').offsetOf? line character = some stop := by
  obtain ⟨start, hstart, hcolumn, _⟩ := offsetOf?_eq_some_iff.1 hstop
  refine offsetOf?_eq_some_iff.2 ⟨start, ?_, hcolumn, ?_⟩
  · exact (h.getElem?_lineStarts_iff (by omega)).2 hstart
  · rw [← length_bytes]
    exact h.le_length_other

theorem positionOf_of_sameUpTo (cursor cursor' : Nat)
    (h : SameUpTo stop (ofText text cursor).bytes (ofText other cursor').bytes)
    (hoffset : offset ≤ stop) :
    (ofText other cursor').positionOf offset = (ofText text cursor).positionOf offset := by
  obtain ⟨line, start, hline, hposition⟩ := exists_positionOf text cursor offset
  obtain ⟨line', start', hline', hposition'⟩ := exists_positionOf other cursor' offset
  have hsame := h.lineAt hoffset hline
  obtain rfl := hline'.line_eq (lineStarts_pairwise _) hsame
  obtain rfl := hline'.start_eq_of_line hsame
  rw [hposition, hposition']

theorem byteBefore?_of_sameUpTo {s t : Snapshot} (h : SameUpTo stop s.bytes t.bytes) :
    t.byteBefore? stop = s.byteBefore? stop := by
  cases stop with
  | zero => rfl
  | succ n => exact h.getElem?_eq (Nat.lt_succ_self n)

end Snapshot

/-- Documents that are not told apart by looking back from a place. -/
structure LooksAlike (s t : Snapshot) (line character : UInt32) : Prop where
  resolve_eq : Cursor.resolve t line character = Cursor.resolve s line character
  triggerByte?_eq : (Cursor.resolve t line character).triggerByte? t =
    (Cursor.resolve s line character).triggerByte? s

namespace Cursor

variable {text other : String} {stop : Nat} {line character : UInt32}

theorem resolve_of_offsetOf? {s : Snapshot} (h : s.offsetOf? line character = some stop) :
    resolve s line character =
      { offset := stop
        position := ⟨line, character⟩
        wordStart := Document.wordStart s.bytes stop
        wordStartPosition := s.positionOf (Document.wordStart s.bytes stop)
        word := String.ofList (Utf8.decodeLossy
          ((s.bytes.take stop).drop (Document.wordStart s.bytes stop)))
        place := .ofOffset s.bytes stop } := by
  rw [resolve, locate, h]

theorem looksAlike_of_sameUpTo (cursor cursor' : Nat)
    (h : SameUpTo stop (Snapshot.ofText text cursor).bytes (Snapshot.ofText other cursor').bytes)
    (hstop : (Snapshot.ofText text cursor).offsetOf? line character = some stop) :
    LooksAlike (Snapshot.ofText text cursor) (Snapshot.ofText other cursor') line character := by
  have hresolve := resolve_of_offsetOf? hstop
  have hresolve' := resolve_of_offsetOf? (Snapshot.offsetOf?_of_sameUpTo cursor cursor' h hstop)
  rw [h.wordStart_eq, Snapshot.positionOf_of_sameUpTo cursor cursor' h (wordStart_le _ _),
    h.take_eq, Place.ofOffset, h.take_eq, ← Place.ofOffset, ← hresolve] at hresolve'
  refine ⟨hresolve', ?_⟩
  rw [hresolve', hresolve]
  exact Snapshot.byteBefore?_of_sameUpTo h

end Cursor

end LanguageClient.Document

namespace LanguageClient.Workspace

open Document Server Suggest Wire

namespace Completion

section

variable {σ : Type} [Adapter σ] {s t : Snapshot} {request : CompletionRequest}

theorem call_of_looksAlike (h : LooksAlike s t request.line request.character) :
    request.call t = request.call s := by
  have htrigger := h.triggerByte?_eq
  rw [h.resolve_eq] at htrigger
  rw [CompletionRequest.call, CompletionRequest.call]
  simp only [h.resolve_eq, htrigger]

theorem finish_of_looksAlike (h : LooksAlike s t request.line request.character)
    (c : Completion) (awaited : Awaited Json) :
    c.finish request t awaited = c.finish request s awaited := by
  cases awaited with
  | found body =>
    rw [finish, finish]
    cases Reply.ofJson body with
    | failed => rfl
    | entries entries =>
      rw [apply, apply, h.resolve_eq]
  | timedOut => rfl
  | closed => rfl

theorem awaitReply_of_looksAlike (h : LooksAlike s t request.line request.character)
    (c : Completion) (language : Language) (r : Registry σ) (a : Ambient) :
    c.awaitReply request language t r a = c.awaitReply request language s r a := by
  cases hserver : r.servers language with
  | none => rw [awaitReply, awaitReply, hserver]
  | some server =>
    rcases hwait : Mailbox.await (answer? request.id) c.budget server with ⟨awaited, nanos, after⟩
    rw [awaitReply_eq t a hserver hwait, awaitReply_eq s a hserver hwait]
    simp only [finish_of_looksAlike h]

theorem process_of_looksAlike (h : LooksAlike s t request.line request.character)
    (c : Completion) (r : Registry σ) (a : Ambient) :
    c.process request t r a = c.process request s r a := by
  have hcall := call_of_looksAlike h
  rcases hsend : c.send request (request.call s).body r with ⟨sent, c', r'⟩
  cases sent with
  | none =>
    rw [process_of_unsent a s hsend]
    rw [← hcall] at hsend
    exact process_of_unsent a t hsend
  | some language =>
    rw [process_of_sent a s hsend, ← awaitReply_of_looksAlike h]
    rw [← hcall] at hsend
    exact process_of_sent a t hsend

/-- Whatever follows the place of a request in a text, the same is found before it, the same is
sent to the same server, and the same is offered in the end. -/
theorem settle_of_sameUpTo {text other : String} (cursor cursor' : Nat) {stop : Nat}
    (hstop : (Snapshot.ofText text cursor).offsetOf? request.line request.character = some stop)
    (hsame : (Utf8.encode other.toList).take stop = (Utf8.encode text.toList).take stop) :
    let s := Snapshot.ofText text cursor
    let t := Snapshot.ofText other cursor'
    LooksAlike s t request.line request.character ∧
      request.call t = request.call s ∧
      ∀ (c : Completion) (r : Registry σ) (a : Ambient),
        c.settle request t r a = c.settle request s r a := by
  intro s t
  have hle : stop ≤ s.bytes.length := by
    rw [Snapshot.length_bytes]
    exact Snapshot.le_of_offsetOf? hstop
  have hlooks := Cursor.looksAlike_of_sameUpTo cursor cursor' (sameUpTo_of_take_eq hle hsame) hstop
  refine ⟨hlooks, call_of_looksAlike hlooks, fun c r a => ?_⟩
  rw [settle, settle, process_of_looksAlike hlooks]

end

/-- A request whose column runs on into the line after the one that it names. -/
def overrunning : CompletionRequest := ⟨7, "/w/a.go", 0, 9⟩

theorem settle_overrunning :
    let text := "\u00e9\nfoo.bar(1)\n"
    let other := "\u00e9\nfoo.ba\u00e9\n\n"
    let s := Snapshot.ofText text 0
    let t := Snapshot.ofText other 13
    s.offsetOf? overrunning.line overrunning.character = some 9 ∧
      (Utf8.encode other.toList).take 9 = (Utf8.encode text.toList).take 9 ∧
      LooksAlike s t overrunning.line overrunning.character ∧
      overrunning.call t = overrunning.call s ∧
      (∀ (c : Completion) (r : Registry Scripted) (a : Ambient),
        c.settle overrunning t r a = c.settle overrunning s r a) ∧
      (Cursor.resolve t 0 9).word = "ba" ∧ (Cursor.resolve t 0 9).wordStartPosition = ⟨1, 4⟩ := by
  intro text other s t
  have hstop : s.offsetOf? overrunning.line overrunning.character = some 9 := by decide +kernel
  have hsame : (Utf8.encode other.toList).take 9 = (Utf8.encode text.toList).take 9 := by
    decide +kernel
  obtain ⟨hlooks, hcall, hsettle⟩ := settle_of_sameUpTo (σ := Scripted) 0 13 hstop hsame
  exact ⟨hstop, hsame, hlooks, hcall, hsettle, by decide +kernel, by decide +kernel⟩

end Completion

end LanguageClient.Workspace
