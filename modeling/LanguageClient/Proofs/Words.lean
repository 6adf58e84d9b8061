import LanguageClient.Proofs.Editing
import LanguageClient.Proofs.Replacing
import LanguageClient.Proofs.Runs
import Mathlib.Data.Nat.Bitwise

namespace LanguageClient.Document

/-- The bytes of a kind that end at an offset, as many as there are without another in between. -/
structure LongestRun (kind : UInt8 → Bool) (bytes : Bytes) (stop length : Nat) : Prop where
  le : length ≤ stop
  run : ∀ b ∈ (bytes.take stop).drop (stop - length), kind b = true
  longest {other : Nat} (hle : other ≤ stop)
    (hrun : ∀ b ∈ (bytes.take stop).drop (stop - other), kind b = true) : other ≤ length

/-- Behind such a byte a word is an identifier. -/
def IsAccessor (b : UInt8) : Prop := b = byte '.' ∨ b = byte ':'

theorem isAccessor_iff {b : UInt8} : (b = byte '.' || b = byte ':') = true ↔ IsAccessor b := by
  simp [IsAccessor]

inductive StartsWord (bytes : Bytes) (stop : Nat) : Nat → Prop where
  | behindAccessor {length : Nat} {b : UInt8}
      (hrun : LongestRun Bytes.isIdentifier bytes stop length)
      (hbefore : (bytes.take (stop - length)).getLast? = some b) (haccessor : IsAccessor b) :
      StartsWord bytes stop (stop - length)
  | free {length wordLength : Nat} (hrun : LongestRun Bytes.isIdentifier bytes stop length)
      (hbefore : ∀ b ∈ (bytes.take (stop - length)).getLast?, ¬ IsAccessor b)
      (hword : LongestRun isWordByte bytes stop wordLength) :
      StartsWord bytes stop (stop - wordLength)

section

variable {kind : UInt8 → Bool} {bytes : Bytes} {stop length length' start start' : Nat}

theorem mem_reverse_take {b : UInt8} (hstop : stop ≤ bytes.length) :
    b ∈ (bytes.take stop).reverse.take length ↔ b ∈ (bytes.take stop).drop (stop - length) := by
  rw [List.take_reverse, List.mem_reverse, List.length_take_of_le hstop]

theorem longestRun_takeWhile (kind : UInt8 → Bool) (hstop : stop ≤ bytes.length) :
    LongestRun kind bytes stop ((bytes.take stop).reverse.takeWhile kind).length := by
  have hlength : (bytes.take stop).reverse.length = stop := by
    rw [List.length_reverse, List.length_take_of_le hstop]
  constructor
  case le => exact (List.takeWhile_prefix kind).length_le.trans_eq hlength
  case run =>
    intro b hb
    rw [← mem_reverse_take hstop, take_length_takeWhile] at hb
    exact of_mem_takeWhile hb
  case longest =>
    intro other hle hrun
    refine le_length_takeWhile (hle.trans_eq hlength.symm) fun b hb => ?_
    exact hrun b ((mem_reverse_take hstop).1 hb)

theorem LongestRun.unique (h : LongestRun kind bytes stop length)
    (h' : LongestRun kind bytes stop length') : length = length' :=
  Nat.le_antisymm (h'.longest h.le h.run) (h.longest h'.le h'.run)

theorem head?_dropWhile_reverse (kind : UInt8 → Bool) (hstop : stop ≤ bytes.length) :
    ((bytes.take stop).reverse.dropWhile kind).head? =
      (bytes.take (stop - ((bytes.take stop).reverse.takeWhile kind).length)).getLast? := by
  rw [← drop_length_takeWhile, List.drop_reverse, List.head?_reverse,
    List.length_take_of_le hstop, List.take_take, Nat.min_eq_left (Nat.sub_le _ _)]

theorem StartsWord.unique (h : StartsWord bytes stop start) (h' : StartsWord bytes stop start') :
    start = start' := by
  cases h with
  | behindAccessor hrun hbefore haccessor =>
    cases h' with
    | behindAccessor hrun' => rw [hrun.unique hrun']
    | free hrun' hbefore' =>
      rw [← hrun.unique hrun'] at hbefore'
      exact absurd haccessor (hbefore' _ hbefore)
  | free hrun hbefore hword =>
    cases h' with
    | behindAccessor hrun' hbefore' haccessor' =>
      rw [← hrun.unique hrun'] at hbefore'
      exact absurd haccessor' (hbefore _ hbefore')
    | free _ _ hword' => rw [hword.unique hword']

theorem startsWord_wordLength (hstop : stop ≤ bytes.length) :
    StartsWord bytes stop (stop - wordLength (bytes.take stop).reverse) := by
  have hrun := longestRun_takeWhile Bytes.isIdentifier hstop
  have hword := longestRun_takeWhile isWordByte hstop
  have hbefore := head?_dropWhile_reverse Bytes.isIdentifier hstop
  rw [wordLength]
  cases hhead : ((bytes.take stop).reverse.dropWhile Bytes.isIdentifier).head? with
  | none =>
    rw [hhead] at hbefore
    exact .free hrun (fun b hb => by rw [← hbefore] at hb; cases hb) hword
  | some b =>
    rw [hhead] at hbefore
    dsimp only
    by_cases haccessor : IsAccessor b
    · rw [if_pos (isAccessor_iff.2 haccessor)]
      exact .behindAccessor hrun hbefore.symm haccessor
    · rw [if_neg (mt isAccessor_iff.1 haccessor)]
      refine .free hrun (fun b' hb' => ?_) hword
      rw [← hbefore] at hb'
      cases hb'
      exact haccessor

theorem startsWord_wordStart (bytes : Bytes) (cursor : Nat) :
    StartsWord bytes (min cursor bytes.length) (wordStart bytes cursor) := by
  rw [wordStart, List.take_eq_take_min]
  exact startsWord_wordLength (Nat.min_le_right _ _)

theorem wordStart_eq_iff {cursor : Nat} :
    wordStart bytes cursor = start ↔ StartsWord bytes (min cursor bytes.length) start := by
  constructor
  · rintro rfl
    exact startsWord_wordStart bytes cursor
  · exact (startsWord_wordStart bytes cursor).unique

theorem isWordByte_of_isIdentifier {b : UInt8} (h : Bytes.isIdentifier b = true) :
    isWordByte b = true := by
  rw [isWordByte, h]
  rfl

theorem lt_of_isWordByte {b : UInt8} (h : isWordByte b = true) : b < 128 := by
  simp only [isWordByte, Bool.or_eq_true, decide_eq_true_eq] at h
  rcases h with (((h | rfl) | rfl) | rfl) | rfl
  · exact Bytes.isIdentifier_lt h
  all_goals decide

/-- Whichever way a word is bounded, it has no other bytes than a word may have. -/
theorem StartsWord.isWordByte_of_mem (h : StartsWord bytes stop start) :
    ∀ b ∈ (bytes.take stop).drop start, isWordByte b = true := by
  cases h with
  | behindAccessor hrun => exact fun b hb => isWordByte_of_isIdentifier (hrun.run b hb)
  | free _ _ hword => exact hword.run

end

theorem isUTF8FirstByte_of_lt {b : UInt8} (h : b < 128) : b.IsUTF8FirstByte := by
  left
  have hlow : b.toNat < 2 ^ 7 := UInt8.lt_iff_toNat_lt.1 h
  rw [← UInt8.toNat_inj, UInt8.toNat_and]
  change b.toNat &&& 2 ^ 7 = 0
  rw [Nat.and_two_pow, Nat.testBit_lt_two_pow hlow]
  rfl

theorem isBoundary_of_lt {text : String} {offset : Nat} {b : UInt8}
    (hb : (Utf8.encode text.toList)[offset]? = some b) (hlt : b < 128) :
    IsBoundary text offset := by
  obtain ⟨hoffset, hget⟩ := List.getElem?_eq_some_iff.1 hb
  have hbytes : (Utf8.encode text.toList).toByteArray = text.toByteArray := by
    rw [Utf8.toByteArray_encode, String.utf8Encode_toList]
  rw [IsBoundary, String.Pos.Raw.isValid_iff_isUTF8FirstByte]
  right
  have hend : (⟨offset⟩ : String.Pos.Raw) < text.rawEndPos := by
    rwa [Utf8.length_encode, String.ofList_toList] at hoffset
  refine ⟨hend, ?_⟩
  have hbyte : text.getUTF8Byte ⟨offset⟩ hend = b := by
    simp only [String.getUTF8Byte, ← hbytes, List.getElem_toByteArray, hget]
  rw [hbyte]
  exact isUTF8FirstByte_of_lt hlt

namespace Cursor

theorem offset_le (s : Snapshot) (line character : UInt32) :
    (resolve s line character).offset ≤ s.size := by
  change (locate s line character).1 ≤ s.size
  rw [locate]
  cases hoffset : s.offsetOf? line character with
  | none => exact Nat.min_le_right _ _
  | some offset => exact Snapshot.le_of_offsetOf? hoffset

structure FindsWord (s : Snapshot) (c : Cursor) : Prop where
  wordStart_le : c.wordStart ≤ c.offset
  offset_le : c.offset ≤ s.size
  startsWord : StartsWord s.bytes c.offset c.wordStart
  encode_word : Utf8.encode c.word.toList = (s.bytes.take c.offset).drop c.wordStart
  ascii : ∀ b ∈ (s.bytes.take c.offset).drop c.wordStart, b < 128
  /-- The word begins on a character boundary, even when it is looked for inside a character. -/
  isBoundary : c.word ≠ "" ∨ IsBoundary s.text c.offset → IsBoundary s.text c.wordStart

variable {s : Snapshot} {c : Cursor}

/-- A word that begins inside a character is empty, and so is the text up to the cursor. -/
theorem isBoundary_wordStart (hle : c.wordStart ≤ c.offset) (hoffset : c.offset ≤ s.size)
    (hword : Utf8.encode c.word.toList = (s.bytes.take c.offset).drop c.wordStart)
    (hascii : ∀ b ∈ (s.bytes.take c.offset).drop c.wordStart, b < 128)
    (h : c.word ≠ "" ∨ IsBoundary s.text c.offset) : IsBoundary s.text c.wordStart := by
  rcases Nat.lt_or_eq_of_le hle with hlt | heq
  · have hlength : c.wordStart < s.bytes.length := by
      rw [Snapshot.length_bytes]
      exact Nat.lt_of_lt_of_le hlt hoffset
    have hget : s.bytes[c.wordStart]? = some s.bytes[c.wordStart] :=
      List.getElem?_eq_getElem hlength
    refine isBoundary_of_lt hget (hascii _ (List.mem_of_getElem? (i := 0) ?_))
    rw [List.getElem?_drop, Nat.add_zero, List.getElem?_take_of_lt hlt, hget]
  · rcases h with hnonempty | hboundary
    · rw [heq, List.drop_eq_nil_of_le (List.length_take_le _ _)] at hword
      have hempty : c.word.utf8ByteSize = 0 := by
        rw [← String.ofList_toList (s := c.word), ← Utf8.length_encode, hword]
        rfl
      exact absurd (String.utf8ByteSize_eq_zero_iff.1 hempty) hnonempty
    · rwa [heq]

theorem word_resolve (s : Snapshot) (line character : UInt32) :
    (resolve s line character).word = String.ofList (Utf8.decodeLossy
      ((s.bytes.take (resolve s line character).offset).drop
        (resolve s line character).wordStart)) := rfl

theorem findsWord_resolve (s : Snapshot) (line character : UInt32) :
    FindsWord s (resolve s line character) := by
  have hoffset := offset_le s line character
  have hstarts := startsWord_wordStart s.bytes (resolve s line character).offset
  rw [Snapshot.length_bytes, Nat.min_eq_left hoffset] at hstarts
  have hle := wordStart_le s.bytes (resolve s line character).offset
  have hascii : ∀ b ∈ (s.bytes.take (resolve s line character).offset).drop
      (resolve s line character).wordStart, b < 128 :=
    fun b hb => lt_of_isWordByte (hstarts.isWordByte_of_mem b hb)
  have hword : Utf8.encode (resolve s line character).word.toList =
      (s.bytes.take (resolve s line character).offset).drop
        (resolve s line character).wordStart := by
    rw [word_resolve, String.toList_ofList, Utf8.encode_decodeLossy_of_ascii _ hascii]
  exact ⟨hle, hoffset, hstarts, hword, hascii, isBoundary_wordStart hle hoffset hword hascii⟩

end Cursor

/-- Where a word begins is exactly where a longest run of its bytes does, and every cursor in every
document finds the word that ends at it. -/
theorem wordStart_iff_and_findsWord :
    (∀ (bytes : Bytes) (cursor start : Nat), wordStart bytes cursor = start ↔
      StartsWord bytes (min cursor bytes.length) start) ∧
    ∀ (s : Snapshot) (line character : UInt32),
      Cursor.FindsWord s (Cursor.resolve s line character) :=
  ⟨fun _ _ _ => wordStart_eq_iff, Cursor.findsWord_resolve⟩

end LanguageClient.Document
