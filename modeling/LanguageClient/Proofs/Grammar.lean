import LanguageClient.Proofs.Header
import LanguageClient.Proofs.Stream

namespace LanguageClient.Wire.Frame

/-- The end of a line and an empty line. -/
def emptyLine : Bytes := [13, 10, 13, 10]

/-- The shortest start of a stream that ends with an empty line. -/
structure IsHeader (header stream : Bytes) : Prop where
  starts : header <+: stream
  ends : emptyLine <:+ header
  shortest : ∀ other, other <+: stream → emptyLine <:+ other → header.length ≤ other.length

theorem exists_isHeader {bytes stream : Bytes} (hs : bytes <+: stream) (he : emptyLine <:+ bytes) :
    ∃ header, IsHeader header stream ∧ header.length ≤ bytes.length := by
  by_cases h : ∃ other, other <+: stream ∧ emptyLine <:+ other ∧ other.length < bytes.length
  · obtain ⟨other, hs', he', hlt⟩ := h
    obtain ⟨header, hheader, hle⟩ := exists_isHeader hs' he'
    exact ⟨header, hheader, Nat.le_of_lt (Nat.lt_of_le_of_lt hle hlt)⟩
  · refine ⟨bytes, ⟨hs, he, ?_⟩, Nat.le_refl _⟩
    intro other hs' he'
    apply Nat.le_of_not_lt
    intro hlt
    exact h ⟨other, hs', he', hlt⟩
termination_by bytes.length

theorem isTerminated_iff {seen : Bytes} :
    isTerminated seen = true ↔ emptyLine <:+ seen.reverse := by
  have hback : emptyLine <:+ seen.reverse ↔ emptyLine.reverse <+: seen := by
    rw [← List.reverse_suffix, List.reverse_reverse]
  rw [hback]
  unfold isTerminated
  split
  · exact ⟨fun _ => ⟨_, rfl⟩, fun _ => rfl⟩
  · rename_i h
    constructor
    · intro hfalse
      cases hfalse
    · rintro ⟨rest, rfl⟩
      exact absurd rfl (h rest)

/-- Bytes are passed over as long as no empty line ends before the last of them. -/
theorem cutHeader_append (seen : Bytes) {bytes : Bytes} {room : Nat} (hr : bytes.length ≤ room)
    (ht : ∀ k < bytes.length, ¬ emptyLine <:+ seen.reverse ++ bytes.take k) (rest : Bytes) :
    cutHeader seen room (bytes ++ rest) =
      cutHeader (bytes.reverse ++ seen) (room - bytes.length) rest := by
  induction bytes generalizing seen room with
  | nil => rfl
  | cons b bytes ih =>
    rw [List.length_cons] at hr
    have hseen : ¬ isTerminated seen = true := by
      rw [isTerminated_iff]
      simpa using ht 0 (Nat.zero_lt_succ _)
    have hbytes : ∀ k < bytes.length, ¬ emptyLine <:+ (b :: seen).reverse ++ bytes.take k := by
      intro k hk
      have h := ht (k + 1) (Nat.succ_lt_succ hk)
      rwa [List.take_succ_cons, List.append_cons, ← List.reverse_cons] at h
    rw [List.cons_append, cutHeader_cons hseen (by omega), ih _ (by omega) hbytes]
    simp only [List.reverse_cons, List.append_assoc, List.singleton_append, List.length_cons,
      Nat.sub_sub, Nat.add_comm]

theorem isHeader_append_iff {header rest : Bytes} :
    IsHeader header (header ++ rest) ↔
      emptyLine <:+ header ∧ ∀ k < header.length, ¬ emptyLine <:+ header.take k := by
  constructor
  · rintro ⟨-, hends, hshortest⟩
    refine ⟨hends, ?_⟩
    intro k hk hsuffix
    have hstarts : header.take k <+: header ++ rest :=
      (List.take_prefix k header).trans (List.prefix_append _ _)
    have hle := hshortest _ hstarts hsuffix
    rw [List.length_take] at hle
    omega
  · rintro ⟨hends, hshorter⟩
    refine ⟨List.prefix_append _ _, hends, ?_⟩
    intro other hstarts hsuffix
    apply Nat.le_of_not_lt
    intro hlt
    have hother := List.prefix_of_prefix_length_le hstarts (List.prefix_append header rest)
      (Nat.le_of_lt hlt)
    rw [List.prefix_iff_eq_take.1 hother] at hsuffix
    exact hshorter _ hlt hsuffix

theorem IsHeader.cutHeader_eq {header rest : Bytes} (h : IsHeader header (header ++ rest))
    (hl : header.length ≤ headerLimit) :
    cutHeader [] headerLimit (header ++ rest) = (.ok header, rest) := by
  obtain ⟨hends, hshorter⟩ := isHeader_append_iff.1 h
  have hterminated : isTerminated header.reverse = true := by
    rw [isTerminated_iff, List.reverse_reverse]
    exact hends
  rw [cutHeader_append [] hl hshorter, List.append_nil, cutHeader_of_isTerminated hterminated,
    List.reverse_reverse]

/-- A stream whose header, if it has one, is too long. -/
def Unheaded (stream : Bytes) : Prop :=
  ∀ header, IsHeader header stream → headerLimit < header.length

theorem Unheaded.not_suffix {stream : Bytes} (h : Unheaded stream) {bytes : Bytes}
    (hs : bytes <+: stream) (hl : bytes.length ≤ headerLimit) : ¬ emptyLine <:+ bytes := by
  intro hends
  obtain ⟨header, hheader, hle⟩ := exists_isHeader hs hends
  have hlong := h header hheader
  omega

theorem Unheaded.cutHeader_eq {bytes rest : Bytes} (h : Unheaded (bytes ++ rest))
    (hl : bytes.length ≤ headerLimit) :
    cutHeader [] headerLimit (bytes ++ rest) =
        cutHeader bytes.reverse (headerLimit - bytes.length) rest ∧
      ¬ isTerminated bytes.reverse = true := by
  constructor
  · rw [cutHeader_append [] hl, List.append_nil]
    intro k hk
    apply h.not_suffix ((List.take_prefix k bytes).trans (List.prefix_append _ _))
    rw [List.length_take]
    omega
  · rw [isTerminated_iff, List.reverse_reverse]
    exact h.not_suffix (List.prefix_append _ _) hl

/-- What reading a frame from the bytes of a stream gives, with the bytes that it leaves. -/
inductive Reads (stream : Bytes) : Except Fault Bytes → Bytes → Prop where
  | overlong {taken rest : Bytes} (hh : Unheaded stream) (hs : stream = taken ++ rest)
      (ht : taken.length = headerLimit) : Reads stream (.error .invalidHeader) rest
  | unfinished (hh : Unheaded stream) (hs : stream.length < headerLimit) :
      Reads stream (.error .closed) []
  | refused {header rest : Bytes} {fault : Fault} (hh : IsHeader header stream)
      (hl : header.length ≤ headerLimit) (hs : stream = header ++ rest)
      (ha : Announces header (.error fault)) : Reads stream (.error fault) rest
  | tooLarge {header rest : Bytes} {n : Nat} (hh : IsHeader header stream)
      (hl : header.length ≤ headerLimit) (hs : stream = header ++ rest)
      (ha : Announces header (.ok n)) (hn : bodyLimit < n) :
      Reads stream (.error (.frameTooLarge n bodyLimit)) rest
  | cutShort {header rest : Bytes} {n : Nat} (hh : IsHeader header stream)
      (hl : header.length ≤ headerLimit) (hs : stream = header ++ rest)
      (ha : Announces header (.ok n)) (hn : n ≤ bodyLimit) (hr : rest.length < n) :
      Reads stream (.error .closed) []
  | frame {header body rest : Bytes} (hh : IsHeader header stream)
      (hl : header.length ≤ headerLimit) (hs : stream = header ++ (body ++ rest))
      (ha : Announces header (.ok body.length)) (hn : body.length ≤ bodyLimit) :
      Reads stream (.ok body) rest

theorem cutBody_nil_eq {n : Nat} {rest : Bytes} (h : rest.length < n) :
    cutBody [] n rest = (.error .closed, []) := by
  rw [cutBody, if_neg (Nat.not_le_of_lt h)]

theorem Reads.cut_eq {stream rest : Bytes} {result : Except Fault Bytes}
    (h : Reads stream result rest) : cut stream = (result, rest) := by
  cases h with
  | @overlong taken _ hh hs ht =>
    subst hs
    obtain ⟨hcut, hnot⟩ := hh.cutHeader_eq (Nat.le_of_eq ht)
    rw [cut, hcut, ht, Nat.sub_self, cutHeader_zero hnot]
  | unfinished hh hs =>
    rw [← List.append_nil stream] at hh
    obtain ⟨hcut, hnot⟩ := hh.cutHeader_eq (Nat.le_of_lt hs)
    rw [List.append_nil] at hcut
    rw [cut, hcut, cutHeader_nil hnot (by omega)]
  | refused hh hl hs ha =>
    subst hs
    rw [cut, hh.cutHeader_eq hl]
    simp only [announces_iff.1 ha]
  | tooLarge hh hl hs ha hn =>
    subst hs
    rw [cut, hh.cutHeader_eq hl]
    simp only [announces_iff.1 ha]
    rw [if_pos hn]
  | cutShort hh hl hs ha hn hr =>
    subst hs
    rw [cut, hh.cutHeader_eq hl]
    simp only [announces_iff.1 ha]
    rw [if_neg (Nat.not_lt_of_le hn), cutBody_nil_eq hr]
  | @frame header body _ hh hl hs ha hn =>
    subst hs
    rw [cut, hh.cutHeader_eq hl]
    simp only [announces_iff.1 ha]
    rw [if_neg (Nat.not_lt_of_le hn), cutBody_append (Nat.le_refl _), Nat.sub_self, cutBody_zero]
    simp

theorem exists_reads_of_isHeader {header rest : Bytes} (hh : IsHeader header (header ++ rest))
    (hl : header.length ≤ headerLimit) : ∃ result left, Reads (header ++ rest) result left := by
  cases ha : contentLength header with
  | error fault => exact ⟨_, _, .refused hh hl rfl (announces_iff.2 ha)⟩
  | ok n =>
    by_cases hn : bodyLimit < n
    · exact ⟨_, _, .tooLarge hh hl rfl (announces_iff.2 ha) hn⟩
    · have hn := Nat.le_of_not_lt hn
      by_cases hr : rest.length < n
      · exact ⟨_, _, .cutShort hh hl rfl (announces_iff.2 ha) hn hr⟩
      · have hlength : (rest.take n).length = n := by
          rw [List.length_take]
          omega
        have hsplit : header ++ rest = header ++ (rest.take n ++ rest.drop n) := by
          rw [List.take_append_drop]
        rw [← hlength] at ha hn
        exact ⟨_, _, .frame hh hl hsplit (announces_iff.2 ha) hn⟩

theorem exists_reads (stream : Bytes) : ∃ result rest, Reads stream result rest := by
  by_cases h : ∃ header, IsHeader header stream ∧ header.length ≤ headerLimit
  · obtain ⟨header, hh, hl⟩ := h
    obtain ⟨rest, rfl⟩ := hh.starts
    exact exists_reads_of_isHeader hh hl
  · have hh : Unheaded stream := by
      intro header hheader
      apply Nat.lt_of_not_le
      intro hl
      exact h ⟨header, hheader, hl⟩
    by_cases hs : stream.length < headerLimit
    · exact ⟨_, _, .unfinished hh hs⟩
    · have hlength : (stream.take headerLimit).length = headerLimit := by
        rw [List.length_take]
        omega
      exact ⟨_, _, .overlong hh (List.take_append_drop _ _).symm hlength⟩

theorem reads_iff_cut_eq {stream rest : Bytes} {result : Except Fault Bytes} :
    Reads stream result rest ↔ cut stream = (result, rest) := by
  constructor
  · exact Reads.cut_eq
  · intro h
    obtain ⟨result', rest', hreads⟩ := exists_reads stream
    have heq := hreads.cut_eq
    rw [h] at heq
    cases heq
    exact hreads

/-- A frame is read as the grammar says, whatever the pieces in which the stream arrives. -/
theorem read_iff_reads {s : Source} (hs : s.Reliable) {result : Except Fault Bytes}
    {rest : Bytes} :
    (read s).1 = result ∧ (read s).2.remaining = rest ↔ Reads s.remaining result rest := by
  obtain ⟨hresult, hremaining, -⟩ := read_agrees hs
  rw [hresult, hremaining, reads_iff_cut_eq, Prod.ext_iff]

def signedHeader : List Char := "Née: 1\r\nContent-Length:\t+03 \r\n\r\n".toList

/-- Its frame, read byte by byte with an interruption before each read. -/
theorem read_iff_reads_bytewise :
    let stream := Utf8.encode signedHeader ++ ([97, 13, 10] ++ [98])
    let s : Source :=
      { pending := stream.flatMap fun b => [.interruption, .data [b]], grant := fun _ => 1 }
    s.Reliable ∧ Reads s.remaining (.ok [97, 13, 10]) [98] ∧
      (read s).1 = .ok [97, 13, 10] ∧ (read s).2.remaining = [98] := by
  intro stream s
  have hs : s.Reliable := by
    refine ⟨fun _ => Nat.one_pos, ?_⟩
    intro reason h
    obtain ⟨b, -, h⟩ := List.mem_flatMap.1 h
    simp at h
  have hremaining : s.remaining = stream := by decide +kernel
  have hheader : IsHeader (Utf8.encode signedHeader) stream :=
    isHeader_append_iff.2 (by decide +kernel)
  have hvalue : (lines signedHeader).findSome? afterLabel? = some "\t+03 ".toList := by
    decide +kernel
  obtain ⟨hdenotes, hlt⟩ := Decimal.readWord?_eq_some_iff.1
    (show Decimal.readWord? 64 (Text.trim "\t+03 ".toList) = some 3 by decide +kernel)
  have hannounces : Announces (Utf8.encode signedHeader) (.ok 3) :=
    .length rfl (areLines_lines _) (findSome?_afterLabel?_eq_some_iff.1 hvalue)
      (Text.isCore_trim _) hdenotes hlt
  have hreads : Reads s.remaining (.ok [97, 13, 10]) [98] := by
    rw [hremaining]
    exact .frame hheader (by decide +kernel) rfl hannounces (by decide)
  exact ⟨hs, hreads, (read_iff_reads hs).2 hreads⟩

end LanguageClient.Wire.Frame
