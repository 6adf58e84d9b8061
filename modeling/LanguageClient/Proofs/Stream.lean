import LanguageClient.Wire.Frame

namespace LanguageClient.Wire

/-- What a read of at most `n` bytes may give of a stream, with what it leaves of it. -/
inductive Read.Of (n : Nat) (stream : Bytes) : Read → Bytes → Prop where
  | ended (h : stream = []) : Of n stream (.data []) []
  | interrupted : Of n stream .interrupted stream
  | data {b : UInt8} {bytes rest : Bytes} (h : stream = b :: (bytes ++ rest))
      (hlt : bytes.length < n) : Of n stream (.data (b :: bytes)) rest

namespace Source

/-- No read fails, and every read is granted something. -/
structure Reliable (s : Source) : Prop where
  grant_pos : ∀ n, 0 < s.grant n
  no_failure : ∀ reason, Arrival.failure reason ∉ s.pending

theorem go_of {s : Source} (hg : ∀ n, 0 < s.grant n) {n : Nat} (hn : 0 < n)
    {pending : List Arrival} (hf : ∀ reason, Arrival.failure reason ∉ pending) :
    Read.Of n (pending.flatMap Arrival.bytes) (read.go s n pending).1
      (read.go s n pending).2.remaining := by
  induction pending with
  | nil => exact .ended rfl
  | cons a rest ih =>
    cases a with
    | interruption => exact .interrupted
    | failure reason => exact absurd List.mem_cons_self (hf reason)
    | data bytes =>
      cases bytes with
      | nil => exact ih fun reason h => hf reason (List.mem_cons_of_mem _ h)
      | cons b bytes =>
        have hg' : s.grant s.reads ≠ 0 := Nat.ne_of_gt (hg _)
        have hlt : (bytes.take (min (n - 1) (s.grant s.reads - 1))).length < n := by
          rw [List.length_take]
          omega
        have hsplit := List.take_append_drop (min (n - 1) (s.grant s.reads - 1)) bytes
        simp only [read.go, if_neg hg', remaining]
        split
        · rename_i he
          rw [List.isEmpty_iff.1 he, List.append_nil] at hsplit
          exact .data (by rw [hsplit]; rfl) hlt
        · refine .data ?_ hlt
          change b :: (bytes ++ rest.flatMap Arrival.bytes) = _
          rw [List.flatMap_cons, Arrival.bytes, ← List.append_assoc, hsplit]

theorem Reliable.read_of {s : Source} (hs : s.Reliable) {n : Nat} (hn : 0 < n) :
    Read.Of n s.remaining (s.read n).1 (s.read n).2.remaining :=
  go_of hs.grant_pos hn hs.no_failure

theorem reliable_go {s : Source} (hg : ∀ n, 0 < s.grant n) (n : Nat) {pending : List Arrival}
    (hf : ∀ reason, Arrival.failure reason ∉ pending) : (read.go s n pending).2.Reliable := by
  induction pending with
  | nil => exact ⟨hg, hf⟩
  | cons a rest ih =>
    have hr : ∀ reason, Arrival.failure reason ∉ rest :=
      fun reason h => hf reason (List.mem_cons_of_mem _ h)
    cases a with
    | interruption => exact ⟨hg, hr⟩
    | failure reason => exact ⟨hg, hr⟩
    | data bytes =>
      cases bytes with
      | nil => exact ih hr
      | cons b bytes =>
        rw [read.go]
        split
        · exact ⟨hg, hf⟩
        · refine ⟨hg, fun reason h => ?_⟩
          dsimp only at h
          split at h
          · exact hr reason h
          · rcases List.mem_cons.1 h with he | h
            · cases he
            · exact hr reason h

theorem Reliable.read {s : Source} (hs : s.Reliable) (n : Nat) : (s.read n).2.Reliable :=
  reliable_go hs.grant_pos n hs.no_failure

end Source

namespace Frame

/-- What `readHeader` finds in the bytes of a stream, and the bytes after it. -/
def cutHeader (seen : Bytes) (room : Nat) (stream : Bytes) : Except Fault Bytes × Bytes :=
  if isTerminated seen then (.ok seen.reverse, stream)
  else if room = 0 then (.error .invalidHeader, stream)
  else
    match stream with
    | [] => (.error .closed, [])
    | b :: rest => cutHeader (b :: seen) (room - 1) rest

def cutBody (seen : Bytes) (left : Nat) (stream : Bytes) : Except Fault Bytes × Bytes :=
  if left ≤ stream.length then (.ok (seen.reverse ++ stream.take left), stream.drop left)
  else (.error .closed, [])

/-- The frame at the start of the bytes of a stream, and the bytes after it. -/
def cut (stream : Bytes) : Except Fault Bytes × Bytes :=
  match cutHeader [] headerLimit stream with
  | (.error fault, rest) => (.error fault, rest)
  | (.ok header, rest) =>
    match contentLength header with
    | .error fault => (.error fault, rest)
    | .ok length =>
      if bodyLimit < length then (.error (.frameTooLarge length bodyLimit), rest)
      else cutBody [] length rest

/-- A reading of a source gives and leaves what a cut of its bytes does. -/
structure Agrees (reading : Except Fault Bytes × Source) (cut : Except Fault Bytes × Bytes) :
    Prop where
  result : reading.1 = cut.1
  remaining : reading.2.remaining = cut.2
  reliable : reading.2.Reliable

theorem cutHeader_of_isTerminated {seen : Bytes} (h : isTerminated seen = true) (room : Nat)
    (stream : Bytes) : cutHeader seen room stream = (.ok seen.reverse, stream) := by
  unfold cutHeader
  rw [if_pos h]

theorem cutHeader_zero {seen : Bytes} (h : ¬isTerminated seen = true) (stream : Bytes) :
    cutHeader seen 0 stream = (.error .invalidHeader, stream) := by
  unfold cutHeader
  rw [if_neg h, if_pos rfl]

theorem cutHeader_nil {seen : Bytes} (h : ¬isTerminated seen = true) {room : Nat}
    (hr : ¬room = 0) : cutHeader seen room [] = (.error .closed, []) := by
  rw [cutHeader, if_neg h, if_neg hr]

theorem cutHeader_cons {seen : Bytes} (h : ¬isTerminated seen = true) {room : Nat}
    (hr : ¬room = 0) (b : UInt8) (rest : Bytes) :
    cutHeader seen room (b :: rest) = cutHeader (b :: seen) (room - 1) rest := by
  rw [cutHeader, if_neg h, if_neg hr]

theorem readHeader_agrees (seen : Bytes) (room : Nat) {s : Source} (hs : s.Reliable) :
    Agrees (readHeader seen room s) (cutHeader seen room s.remaining) := by
  fun_induction readHeader seen room s with
  | case1 seen room s ht =>
    rw [cutHeader_of_isTerminated ht]
    exact ⟨rfl, rfl, hs⟩
  | case2 seen s ht =>
    rw [cutHeader_zero ht]
    exact ⟨rfl, rfl, hs⟩
  | case3 seen room s ht hr b more rest h ih =>
    have hof := hs.read_of Nat.one_pos
    have hrest := hs.read 1
    rw [h] at hof hrest
    cases hof with
    | data he hlt =>
      rw [List.eq_nil_of_length_eq_zero (Nat.lt_one_iff.1 hlt)] at he
      rw [he, cutHeader_cons ht hr]
      exact ih hrest
  | case4 seen room s ht hr rest h =>
    have hof := hs.read_of Nat.one_pos
    have hrest := hs.read 1
    rw [h] at hof hrest
    generalize hleft : rest.remaining = left at hof
    cases hof with
    | ended he =>
      rw [he, cutHeader_nil ht hr]
      exact ⟨rfl, hleft, hrest⟩
  | case5 seen room s ht hr rest h ih =>
    have hof := hs.read_of Nat.one_pos
    have hrest := hs.read 1
    rw [h] at hof hrest
    generalize hleft : rest.remaining = left at hof
    cases hof with
    | interrupted =>
      rw [← hleft]
      exact ih hrest
  | case6 seen room s ht hr reason rest h =>
    have hof := hs.read_of Nat.one_pos
    rw [h] at hof
    cases hof

theorem cutBody_zero (seen stream : Bytes) :
    cutBody seen 0 stream = (.ok seen.reverse, stream) := by
  simp [cutBody]

theorem cutBody_nil {left : Nat} (h : ¬left = 0) (seen : Bytes) :
    cutBody seen left [] = (.error .closed, []) := by
  simp [cutBody, h]

theorem cutBody_append {seen bytes rest : Bytes} {left : Nat} (h : bytes.length ≤ left) :
    cutBody seen left (bytes ++ rest) =
      cutBody (bytes.reverse ++ seen) (left - bytes.length) rest := by
  have hle : left ≤ (bytes ++ rest).length ↔ left - bytes.length ≤ rest.length := by
    rw [List.length_append]
    omega
  simp only [cutBody, hle, List.reverse_append, List.reverse_reverse, List.take_append,
    List.drop_append, List.take_of_length_le h, List.drop_of_length_le h, List.append_assoc,
    List.nil_append]

theorem readBody_agrees (seen : Bytes) (left : Nat) {s : Source} (hs : s.Reliable) :
    Agrees (readBody seen left s) (cutBody seen left s.remaining) := by
  fun_induction readBody seen left s with
  | case1 seen s =>
    rw [cutBody_zero]
    exact ⟨rfl, rfl, hs⟩
  | case2 seen left s hl b bytes rest h ih =>
    have hof := hs.read_of (Nat.pos_of_ne_zero hl)
    have hrest := hs.read left
    rw [h] at hof hrest
    cases hof with
    | data he hlt =>
      rw [he, ← List.cons_append, cutBody_append hlt]
      exact ih hrest
  | case3 seen left s hl rest h =>
    have hof := hs.read_of (Nat.pos_of_ne_zero hl)
    have hrest := hs.read left
    rw [h] at hof hrest
    generalize hleft : rest.remaining = after at hof
    cases hof with
    | ended he =>
      rw [he, cutBody_nil hl]
      exact ⟨rfl, hleft, hrest⟩
  | case4 seen left s hl rest h ih =>
    have hof := hs.read_of (Nat.pos_of_ne_zero hl)
    have hrest := hs.read left
    rw [h] at hof hrest
    generalize hleft : rest.remaining = after at hof
    cases hof with
    | interrupted =>
      rw [← hleft]
      exact ih hrest
  | case5 seen left s hl reason rest h =>
    have hof := hs.read_of (Nat.pos_of_ne_zero hl)
    rw [h] at hof
    cases hof

theorem read_agrees {s : Source} (hs : s.Reliable) : Agrees (read s) (cut s.remaining) := by
  have hh := readHeader_agrees [] headerLimit hs
  rw [read, cut]
  generalize readHeader [] headerLimit s = reading at hh
  generalize cutHeader [] headerLimit s.remaining = found at hh
  obtain ⟨result, rest⟩ := reading
  obtain ⟨found, left⟩ := found
  obtain ⟨rfl, rfl, hrest⟩ := hh
  cases result with
  | error fault => exact ⟨rfl, rfl, hrest⟩
  | ok header =>
    dsimp only
    cases contentLength header with
    | error fault => exact ⟨rfl, rfl, hrest⟩
    | ok length =>
      dsimp only
      split
      · exact ⟨rfl, rfl, hrest⟩
      · exact readBody_agrees [] length hrest

end Frame

end LanguageClient.Wire
