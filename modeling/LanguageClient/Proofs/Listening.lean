import LanguageClient.Proofs.Framing
import LanguageClient.Wire.Listener

namespace LanguageClient.Wire

/-- Whether listening goes on after a fault. -/
def Fault.isPassable : Fault → Bool
  | .missingContentLength | .invalidHeader => true
  | .closed | .io _ | .frameTooLarge _ _ => false

/-- What reading one frame after another gives, up to the first fault that is not passed over. -/
inductive Hears : Source → List (Except Fault Bytes) → Prop where
  | frame {s rest : Source} {body : Bytes} {later : List (Except Fault Bytes)}
      (h : Frame.read s = (.ok body, rest)) (hrest : Hears rest later) : Hears s (.ok body :: later)
  | passed {s rest : Source} {fault : Fault} {later : List (Except Fault Bytes)}
      (h : Frame.read s = (.error fault, rest)) (hp : fault.isPassable = true)
      (hrest : Hears rest later) : Hears s (.error fault :: later)
  | ends {s rest : Source} {fault : Fault} (h : Frame.read s = (.error fault, rest))
      (hp : fault.isPassable = false) : Hears s [.error fault]

def bodiesOf (results : List (Except Fault Bytes)) : List Bytes :=
  results.filterMap Except.toOption

@[simp] theorem bodiesOf_ok (body : Bytes) (later : List (Except Fault Bytes)) :
    bodiesOf (.ok body :: later) = body :: bodiesOf later := rfl

@[simp] theorem bodiesOf_error (fault : Fault) (later : List (Except Fault Bytes)) :
    bodiesOf (.error fault :: later) = bodiesOf later := rfl

theorem hear_of_ok {s rest : Source} {body : Bytes} (h : Frame.read s = (.ok body, rest))
    (inbox : Inbox) : hear s inbox = hear rest (inbox.push body).2 := by
  rw [hear]
  split <;> simp_all

theorem hear_of_isPassable {s rest : Source} {fault : Fault}
    (h : Frame.read s = (.error fault, rest)) (hp : fault.isPassable = true) (inbox : Inbox) :
    hear s inbox = hear rest inbox := by
  rw [hear]
  cases fault with
  | missingContentLength | invalidHeader => split <;> simp_all
  | closed | io | frameTooLarge => cases hp

theorem hear_inbox_of_not_isPassable {s rest : Source} {fault : Fault}
    (h : Frame.read s = (.error fault, rest)) (hp : fault.isPassable = false) (inbox : Inbox) :
    (hear s inbox).inbox = inbox := by
  rw [hear]
  cases fault with
  | missingContentLength | invalidHeader => cases hp
  | closed | io | frameTooLarge => split <;> simp_all

theorem Hears.hear_inbox {s : Source} {results : List (Except Fault Bytes)} (h : Hears s results)
    (inbox : Inbox) : (hear s inbox).inbox = inbox.pushAll (bodiesOf results) := by
  induction h generalizing inbox with
  | frame h hrest ih =>
    rw [hear_of_ok h, ih]
    rfl
  | passed h hp hrest ih =>
    rw [hear_of_isPassable h hp, ih]
    rfl
  | ends h hp => exact hear_inbox_of_not_isPassable h hp inbox

theorem Fault.ne_closed_of_isPassable {fault : Fault} (h : fault.isPassable = true) :
    fault ≠ .closed := by
  rintro rfl
  cases h

theorem exists_hears (s : Source) : ∃ results, Hears s results ∧ results.length ≤ s.size + 1 := by
  cases hread : Frame.read s with
  | mk result rest =>
    cases result with
    | ok body =>
      have hlt : rest.size < s.size := by
        simpa [hread] using Frame.size_read_lt (s := s) (by simp [hread])
      obtain ⟨later, hlater, hle⟩ := exists_hears rest
      exact ⟨_, .frame hread hlater, by rw [List.length_cons]; omega⟩
    | error fault =>
      cases hp : fault.isPassable with
      | true =>
        have hlt : rest.size < s.size := by
          have hne := Fault.ne_closed_of_isPassable hp
          simpa [hread] using Frame.size_read_lt (s := s) (by simpa [hread] using hne)
        obtain ⟨later, hlater, hle⟩ := exists_hears rest
        exact ⟨_, .passed hread hp hlater, by rw [List.length_cons]; omega⟩
      | false => exact ⟨_, .ends hread hp, by simp⟩
termination_by s.size

/-- A header of legal length from which no length of a body can be read. -/
structure IsMalformed (header : Bytes) : Prop where
  short : header.length ≤ Frame.headerLimit
  ends : Frame.emptyLine <:+ header
  once : ∀ left right, header = left ++ Frame.emptyLine ++ right → right = []
  announces : ∃ fault, Frame.Announces header (.error fault)

theorem IsMalformed.isHeader {header : Bytes} (h : IsMalformed header) (rest : Bytes) :
    Frame.IsHeader header (header ++ rest) := by
  rw [Frame.isHeader_append_iff]
  refine ⟨h.ends, ?_⟩
  rintro k hk ⟨left, hleft⟩
  have hsplit : header = left ++ Frame.emptyLine ++ header.drop k := by
    rw [hleft, List.take_append_drop]
  have hnil := h.once left _ hsplit
  rw [List.drop_eq_nil_iff] at hnil
  omega

theorem Frame.Announces.isPassable {header : Bytes} {fault : Fault}
    (h : Frame.Announces header (.error fault)) : fault.isPassable = true := by
  cases h <;> rfl

/-- A malformed header is cut off whole, and nothing more. -/
theorem IsMalformed.cut_append {header : Bytes} (h : IsMalformed header) (rest : Bytes) :
    ∃ fault : Fault, fault.isPassable = true ∧
      Frame.cut (header ++ rest) = (.error fault, rest) := by
  obtain ⟨fault, hannounces⟩ := h.announces
  have hreads : Frame.Reads (header ++ rest) (.error fault) rest :=
    .refused (h.isHeader rest) h.short rfl hannounces
  exact ⟨fault, hannounces.isPassable, hreads.cut_eq⟩

/-- A part of a stream. -/
inductive Piece where
  | frame (body : Bytes) (h : body.length ≤ Frame.bodyLimit)
  | malformed (header : Bytes) (h : IsMalformed header)

namespace Piece

def bytes : Piece → Bytes
  | frame body _ => Frame.encode body
  | malformed header _ => header

def body? : Piece → Option Bytes
  | frame body _ => some body
  | malformed _ _ => none

end Piece

/-- At the front of a stream of pieces reading gives either the body of the first piece or a fault
that is passed over, and the other pieces are left. -/
theorem Piece.cut_append (piece : Piece) (rest : Bytes) :
    (∃ body, piece.body? = some body ∧ Frame.cut (piece.bytes ++ rest) = (.ok body, rest)) ∨
      piece.body? = none ∧ ∃ fault : Fault, fault.isPassable = true ∧
        Frame.cut (piece.bytes ++ rest) = (.error fault, rest) := by
  cases piece with
  | frame body h => exact .inl ⟨body, rfl, Frame.cut_encode h rest⟩
  | malformed header h => exact .inr ⟨rfl, h.cut_append rest⟩

theorem cut_nil : Frame.cut [] = (.error .closed, []) := by
  rw [Frame.cut, Frame.cutHeader_nil (by decide) (by decide)]

/-- Of a stream of pieces exactly the bodies are heard, in their order. -/
theorem exists_hears_of_pieces (pieces : List Piece) {s : Source} (hs : s.Reliable)
    (hr : s.remaining = pieces.flatMap Piece.bytes) :
    ∃ results, Hears s results ∧ bodiesOf results = pieces.filterMap Piece.body? := by
  induction pieces generalizing s with
  | nil =>
    obtain ⟨hresult, -, -⟩ := Frame.read_agrees hs
    rw [hr, List.flatMap_nil, cut_nil] at hresult
    exact ⟨[.error .closed], .ends (Prod.ext hresult rfl) rfl, rfl⟩
  | cons piece pieces ih =>
    obtain ⟨hresult, hremaining, hreliable⟩ := Frame.read_agrees hs
    rw [hr, List.flatMap_cons] at hresult hremaining
    rcases piece.cut_append (pieces.flatMap Piece.bytes) with
      ⟨body, hbody, hcut⟩ | ⟨hbody, fault, hpassable, hcut⟩
    · rw [hcut] at hresult hremaining
      obtain ⟨later, hlater, hbodies⟩ := ih hreliable hremaining
      refine ⟨.ok body :: later, .frame (Prod.ext hresult rfl) hlater, ?_⟩
      rw [bodiesOf_ok, hbodies, List.filterMap_cons_some hbody]
    · rw [hcut] at hresult hremaining
      obtain ⟨later, hlater, hbodies⟩ := ih hreliable hremaining
      refine ⟨.error fault :: later, .passed (Prod.ext hresult rfl) hpassable hlater, ?_⟩
      rw [bodiesOf_error, hbodies, List.filterMap_cons_none hbody]

theorem Inbox.pushAll_ofCapacity (capacity : Nat) (frames : List Bytes) :
    let inbox := Inbox.ofCapacity capacity
    let lost := frames.length - min frames.length inbox.capacity
    inbox.pushAll frames = { inbox with frames := frames.drop lost, dropped := lost } := by
  intro inbox lost
  have hlost : inbox.excess frames.length = lost := by
    have hempty : inbox.frames.length = 0 := rfl
    rw [excess, hempty]
    omega
  rw [pushAll_eq (Nat.zero_le _), hlost]
  congr 1
  exact Nat.zero_add lost

/-- Of a stream of frames and malformed headers the inbox gets the bodies in their order, keeps the
last that fit and is closed. Whatever a stream holds, listening to it ends after finitely many
frames, with the bodies among them in the inbox and the inbox closed. -/
theorem listen_delivers :
    (∀ (pieces : List Piece) (s : Source) (capacity : Nat), s.Reliable →
      s.remaining = pieces.flatMap Piece.bytes →
      let bodies := pieces.filterMap Piece.body?
      let empty := Inbox.ofCapacity capacity
      let kept := min bodies.length empty.capacity
      let inbox := listen s empty
      inbox = (empty.pushAll bodies).close ∧
        inbox.frames = bodies.drop (bodies.length - kept) ∧
        inbox.dropped = bodies.length - kept ∧ inbox.closed = true) ∧
      ∀ (s : Source) (inbox : Inbox), ∃ results, Hears s results ∧
        results.length ≤ s.size + 1 ∧
        listen s inbox = (inbox.pushAll (bodiesOf results)).close ∧
        (listen s inbox).closed = true := by
  constructor
  · intro pieces s capacity hs hr bodies empty kept inbox
    obtain ⟨results, hhears, hbodies⟩ := exists_hears_of_pieces pieces hs hr
    have hinbox : inbox = (empty.pushAll bodies).close := by
      have hbodies : bodiesOf results = bodies := hbodies
      rw [← hbodies, ← hhears.hear_inbox]
      rfl
    have hkept := Inbox.pushAll_ofCapacity capacity bodies
    rw [hinbox, hkept]
    exact ⟨rfl, rfl, rfl, rfl⟩
  · intro s inbox
    obtain ⟨results, hhears, hle⟩ := exists_hears s
    exact ⟨results, hhears, hle, by rw [listen, hhears.hear_inbox], rfl⟩

def unlabelledHeader : List Char := "X\r\n\r\n".toList

theorem isMalformed_unlabelledHeader : IsMalformed (Utf8.encode unlabelledHeader) := by
  have hbytes : Utf8.encode unlabelledHeader = 88 :: Frame.emptyLine := by decide +kernel
  refine ⟨by decide +kernel, by decide +kernel, ?_, ?_⟩
  · intro left right h
    rw [hbytes] at h
    cases left with
    | nil => exact absurd h (by simp [Frame.emptyLine])
    | cons b left =>
      have hlength := congrArg List.length h
      simp only [List.length_cons, List.length_append] at hlength
      exact List.eq_nil_of_length_eq_zero (by omega)
  · exact ⟨.missingContentLength,
      .unlabelled rfl (Frame.areLines_lines unlabelledHeader) (by decide +kernel)⟩

/-- Its bytes between three frames, read byte by byte with an interruption before each read. The
inbox has room for two. -/
theorem listen_delivers_bytewise :
    let header := Utf8.encode unlabelledHeader
    let stream := Frame.encode [65] ++ header ++ Frame.encode [] ++ Frame.encode [66]
    let s : Source :=
      { pending := stream.flatMap fun b => [.interruption, .data [b]], grant := fun _ => 1 }
    s.Reliable ∧ IsMalformed header ∧ (listen s (.ofCapacity 2)).frames = [[], [66]] ∧
      (listen s (.ofCapacity 2)).dropped = 1 ∧ (listen s (.ofCapacity 2)).closed = true := by
  intro header stream s
  have hs : s.Reliable := by
    refine ⟨fun _ => Nat.one_pos, fun reason h => ?_⟩
    obtain ⟨b, -, h⟩ := List.mem_flatMap.1 h
    simp at h
  let pieces : List Piece :=
    [.frame [65] (by decide), .malformed header isMalformed_unlabelledHeader, .frame [] (by decide),
      .frame [66] (by decide)]
  have hremaining : s.remaining = stream := by decide +kernel
  have hr : s.remaining = pieces.flatMap Piece.bytes := by
    rw [hremaining]
    rfl
  obtain ⟨-, hframes, hdropped, hclosed⟩ := listen_delivers.1 pieces s 2 hs hr
  exact ⟨hs, isMalformed_unlabelledHeader, hframes, hdropped, hclosed⟩

end LanguageClient.Wire
