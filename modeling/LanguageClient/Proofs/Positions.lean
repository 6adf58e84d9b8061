import LanguageClient.Document.Snapshot

namespace LanguageClient

theorem Utf8.length_encode (cs : List Char) :
    (encode cs).length = (String.ofList cs).utf8ByteSize := by
  rw [← List.size_toByteArray, toByteArray_encode]
  rfl

namespace Document

section Halving

variable {starts : Array Nat} {test : Nat → Bool} {low high : Nat}

/-- A search has come down to the entries from `low` to `high`: those before pass the test, and
those from `high` on do not. -/
structure Brackets (starts : Array Nat) (test : Nat → Bool) (low high : Nat) : Prop where
  le : low ≤ high
  bound : high ≤ starts.size
  below : ∀ i < low, test (starts.getD i 0) = true
  above : ∀ i, high ≤ i → i < starts.size → test (starts.getD i 0) = false

/-- Entries that pass the test come before those that do not. -/
def Parted (starts : Array Nat) (test : Nat → Bool) : Prop :=
  ∀ i j, i ≤ j → j < starts.size → test (starts.getD j 0) = true → test (starts.getD i 0) = true

namespace Brackets

theorem of_pass (h : Brackets starts test low high) (hparted : Parted starts test)
    {middle low' : Nat} (hmiddle : middle < high) (hpass : test (starts.getD middle 0) = true)
    (hlow : low' ≤ middle + 1) : Brackets starts test low' high := by
  have hbound := h.bound
  refine ⟨by omega, hbound, ?_, h.above⟩
  intro i hi
  exact hparted i middle (by omega) (by omega) hpass

theorem of_fail (h : Brackets starts test low high) (hparted : Parted starts test)
    {middle high' : Nat} (hmiddle : low ≤ middle) (hfail : test (starts.getD middle 0) = false)
    (hhigh : middle ≤ high') (hle : high' ≤ high) : Brackets starts test low high' := by
  refine ⟨by omega, Nat.le_trans hle h.bound, h.below, ?_⟩
  intro i hi hsize
  rw [Bool.eq_false_iff]
  intro hpass
  rw [hparted middle i (by omega) hsize hpass] at hfail
  cases hfail

theorem go {size base : Nat} (h : Brackets starts test base (base + size))
    (hparted : Parted starts test) (hsize : 0 < size) :
    Brackets starts test (partitionPoint.go starts test size base)
      (partitionPoint.go starts test size base) := by
  fun_induction partitionPoint.go starts test size base with
  | case1 size base hlt half middle ih =>
    have hhalf : half = size / 2 := rfl
    have hmiddle : middle = base + half := rfl
    apply ih _ (by omega)
    split
    · rename_i hpass
      have hhigh : middle + (size - half) = base + size := by omega
      rw [hhigh]
      exact h.of_pass hparted (by omega) hpass (by omega)
    · rename_i hfail
      exact h.of_fail hparted (by omega) (Bool.eq_false_iff.2 hfail) (by omega) (by omega)
  | case2 size base hlt hpass =>
    obtain rfl : size = 1 := by omega
    exact h.of_pass hparted (by omega) hpass (by omega)
  | case3 size base hlt hfail =>
    exact h.of_fail hparted (by omega) (Bool.eq_false_iff.2 hfail) (by omega) (by omega)

end Brackets

theorem brackets_partitionPoint (hparted : Parted starts test) :
    Brackets starts test (partitionPoint starts test) (partitionPoint starts test) := by
  have hstart : Brackets starts test 0 (0 + starts.size) := by
    refine ⟨by omega, by omega, ?_, ?_⟩
    · intro i hi
      omega
    · intro i hle hi
      omega
  rw [partitionPoint]
  split
  · rename_i hempty
    rwa [hempty] at hstart
  · exact hstart.go hparted (by omega)

end Halving

/-- A line of some line starts, with its start, is the last one that does not start behind an
offset. -/
structure LineAt (starts : List Nat) (offset line start : Nat) : Prop where
  start_eq : starts[line]? = some start
  start_le : start ≤ offset
  lt_next : ∀ next, starts[line + 1]? = some next → offset < next

theorem startsAfterFeeds_pairwise (offset : Nat) (bytes : Bytes) :
    (startsAfterFeeds offset bytes).Pairwise (· < ·) := by
  induction bytes generalizing offset with
  | nil => exact List.Pairwise.nil
  | cons b rest ih =>
    rw [startsAfterFeeds]
    split
    · refine List.pairwise_cons.2 ⟨?_, ih (offset + 1)⟩
      intro n hn
      obtain ⟨i, _, rfl⟩ := mem_startsAfterFeeds.1 hn
      omega
    · exact ih (offset + 1)

theorem lineStarts_pairwise (bytes : Bytes) : (lineStarts bytes).Pairwise (· < ·) := by
  refine List.pairwise_cons.2 ⟨?_, startsAfterFeeds_pairwise 0 bytes⟩
  intro n hn
  obtain ⟨i, _, rfl⟩ := mem_startsAfterFeeds.1 hn
  omega

theorem length_startsAfterFeeds_le (offset : Nat) (bytes : Bytes) :
    (startsAfterFeeds offset bytes).length ≤ bytes.length := by
  induction bytes generalizing offset with
  | nil => exact Nat.le_refl 0
  | cons b rest ih =>
    have hrest := ih (offset + 1)
    rw [startsAfterFeeds]
    split
    · exact Nat.succ_le_succ hrest
    · exact Nat.le_succ_of_le hrest

theorem length_lineStarts_le (bytes : Bytes) : (lineStarts bytes).length ≤ bytes.length + 1 :=
  Nat.succ_le_succ (length_startsAfterFeeds_le 0 bytes)

theorem getD_toArray {starts : List Nat} {i start : Nat} (h : starts[i]? = some start) :
    starts.toArray.getD i 0 = start := by
  rw [Array.getD_eq_getD_getElem?, List.getElem?_toArray, h, Option.getD_some]

theorem parted_of_pairwise {starts : List Nat} (h : starts.Pairwise (· < ·)) (offset : Nat) :
    Parted starts.toArray (· ≤ offset) := by
  intro i j hij hj hpass
  rw [List.size_toArray] at hj
  have hi : i < starts.length := Nat.lt_of_le_of_lt hij hj
  rw [getD_toArray (List.getElem?_eq_getElem hj), decide_eq_true_eq] at hpass
  rw [getD_toArray (List.getElem?_eq_getElem hi), decide_eq_true_eq]
  rcases Nat.lt_or_eq_of_le hij with hlt | rfl
  · have hstarts := List.pairwise_iff_getElem.1 h i j hi hj hlt
    omega
  · exact hpass

theorem lineAt_partitionPoint {starts : List Nat} (h : starts.Pairwise (· < ·))
    (hzero : starts[0]? = some 0) (offset : Nat) :
    ∃ start, LineAt starts offset (partitionPoint starts.toArray (· ≤ offset) - 1) start := by
  have hbrackets := brackets_partitionPoint (parted_of_pairwise h offset)
  generalize partitionPoint starts.toArray (· ≤ offset) = count at hbrackets
  have hsize : 0 < starts.length := (List.getElem?_eq_some_iff.1 hzero).1
  have hcount : count ≤ starts.length := hbrackets.bound
  have hpos : 0 < count := by
    rw [Nat.pos_iff_ne_zero]
    rintro rfl
    have hfail := hbrackets.above 0 (Nat.le_refl 0) hsize
    rw [getD_toArray hzero] at hfail
    cases hfail
  have hline : count - 1 < starts.length := by omega
  have hpass := hbrackets.below (count - 1) (by omega)
  rw [getD_toArray (List.getElem?_eq_getElem hline), decide_eq_true_eq] at hpass
  refine ⟨starts[count - 1], List.getElem?_eq_getElem hline, hpass, ?_⟩
  intro next hnext
  rw [Nat.sub_add_cancel hpos] at hnext
  have hfail := hbrackets.above count (Nat.le_refl _) (List.getElem?_eq_some_iff.1 hnext).1
  rw [getD_toArray hnext, decide_eq_false_iff_not] at hfail
  omega

theorem toNat_clamp32 {n : Nat} (h : n < 1 <<< 32) : (clamp32 n).toNat = n := by
  rw [clamp32, if_pos h]
  exact UInt32.toNat_ofNat_of_lt' h

namespace Snapshot

variable {text : String}

theorem length_bytes (s : Snapshot) : s.bytes.length = s.size := by
  rw [bytes, Utf8.length_encode, String.ofList_toList]
  rfl

theorem offsetOf?_eq_some_iff {s : Snapshot} {line character : UInt32} {offset : Nat} :
    s.offsetOf? line character = some offset ↔
      ∃ start, s.lineStarts[line.toNat]? = some start ∧ start + character.toNat = offset ∧
        offset ≤ s.size := by
  rw [offsetOf?, Option.bind_eq_bind, Option.bind_eq_some_iff]
  apply exists_congr
  intro start
  apply and_congr_right
  intro _
  rw [Option.ite_none_right_eq_some]
  constructor
  · rintro ⟨hle, hoffset⟩
    cases hoffset
    exact ⟨rfl, hle⟩
  · rintro ⟨rfl, hle⟩
    exact ⟨hle, rfl⟩

theorem le_of_offsetOf? {s : Snapshot} {line character : UInt32} {offset : Nat}
    (h : s.offsetOf? line character = some offset) : offset ≤ s.size := by
  obtain ⟨_, _, _, hle⟩ := offsetOf?_eq_some_iff.1 h
  exact hle

theorem exists_positionOf (text : String) (cursor offset : Nat) :
    let s := ofText text cursor
    ∃ line start, LineAt s.lineStarts offset line start ∧
      s.positionOf offset = ⟨clamp32 line, clamp32 (offset - start)⟩ := by
  intro s
  have hpairwise : s.lineStarts.Pairwise (· < ·) := lineStarts_pairwise s.bytes
  obtain ⟨start, hline⟩ := lineAt_partitionPoint hpairwise rfl offset
  refine ⟨_, start, hline, ?_⟩
  have hnonempty : ¬ s.lineStarts.isEmpty = true := Bool.false_ne_true
  rw [positionOf, if_neg hnonempty]
  simp only
  rw [hline.start_eq, Option.getD_some]

/-- The position of an offset of a text names the line of the offset and how far it is from the
start of that line. -/
theorem exists_lineAt (htext : text.utf8ByteSize < 1 <<< 32) (cursor : Nat) {offset : Nat}
    (h : offset ≤ text.utf8ByteSize) :
    let s := ofText text cursor
    ∃ start, LineAt s.lineStarts offset (s.positionOf offset).line.toNat start ∧
      start + (s.positionOf offset).character.toNat = offset := by
  intro s
  obtain ⟨line, start, hline, hposition⟩ := exists_positionOf text cursor offset
  have hlength : s.bytes.length = text.utf8ByteSize := length_bytes s
  have hcount : s.lineStarts.length ≤ s.bytes.length + 1 := length_lineStarts_le s.bytes
  have hlt : line < s.lineStarts.length := (List.getElem?_eq_some_iff.1 hline.start_eq).1
  have hstart := hline.start_le
  refine ⟨start, ?_, ?_⟩
  · rwa [hposition, toNat_clamp32 (by omega)]
  · rw [hposition, toNat_clamp32 (by omega)]
    exact Nat.add_sub_cancel' hstart

theorem offsetOf?_positionOf (htext : text.utf8ByteSize < 1 <<< 32) (cursor : Nat) {offset : Nat}
    (h : offset ≤ text.utf8ByteSize) :
    let s := ofText text cursor
    s.offsetOf? (s.positionOf offset).line (s.positionOf offset).character = some offset := by
  intro s
  obtain ⟨start, hline, hoffset⟩ := exists_lineAt htext cursor h
  exact offsetOf?_eq_some_iff.2 ⟨start, hline.start_eq, hoffset, h⟩

end Snapshot

end Document

end LanguageClient
