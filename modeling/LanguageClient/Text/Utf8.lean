import LanguageClient.Bytes

namespace LanguageClient.Utf8

def encode (cs : List Char) : Bytes := cs.flatMap String.utf8EncodeChar

/-- The text that the bytes encode, if they are valid UTF-8. -/
def decode? (bytes : Bytes) : Option String := String.fromUTF8? bytes.toByteArray

@[simp] theorem encode_nil : encode [] = [] := rfl

@[simp] theorem encode_append (a b : List Char) : encode (a ++ b) = encode a ++ encode b := by
  simp [encode]

theorem utf8EncodeChar_of_lt {c : Char} (h : c.toNat < 128) :
    String.utf8EncodeChar c = [byte c] := by
  have hle : c.val.toNat ≤ 127 := Nat.le_of_lt_succ h
  rw [String.utf8EncodeChar, if_pos hle]
  rfl

theorem encode_cons_of_lt {c : Char} (h : c.toNat < 128) (cs : List Char) :
    encode (c :: cs) = byte c :: encode cs := by
  rw [encode, List.flatMap_cons, utf8EncodeChar_of_lt h]
  rfl

theorem le_of_mem_utf8EncodeChar {c : Char} {b : UInt8} (h : 128 ≤ c.toNat)
    (hb : b ∈ String.utf8EncodeChar c) : 128 ≤ b.toNat := by
  have hnot : ¬ c.val.toNat ≤ 127 := Nat.not_le_of_lt h
  rw [String.utf8EncodeChar, if_neg hnot] at hb
  split at hb
  · simp only [List.mem_cons, List.not_mem_nil, or_false] at hb
    rcases hb with rfl | rfl <;> simp only [UInt8.toNat_ofNat'] <;> omega
  split at hb
  · simp only [List.mem_cons, List.not_mem_nil, or_false] at hb
    rcases hb with rfl | rfl | rfl <;> simp only [UInt8.toNat_ofNat'] <;> omega
  · simp only [List.mem_cons, List.not_mem_nil, or_false] at hb
    rcases hb with rfl | rfl | rfl | rfl <;> simp only [UInt8.toNat_ofNat'] <;> omega

theorem toByteArray_encode (cs : List Char) : (encode cs).toByteArray = cs.utf8Encode := rfl

theorem decode?_encode (cs : List Char) : decode? (encode cs) = some (String.ofList cs) := by
  have hv : ByteArray.IsValidUTF8 cs.utf8Encode := ⟨cs, rfl⟩
  rw [decode?, toByteArray_encode, String.fromUTF8?, dif_pos hv]
  congr 1

/-- The text before a byte offset and the text after it, if the offset lies on a character
boundary of the text. -/
def cut? : List Char → Nat → Option (List Char × List Char)
  | cs, 0 => some ([], cs)
  | [], _ + 1 => none
  | c :: cs, n + 1 =>
    if c.utf8Size ≤ n + 1 then (cut? cs (n + 1 - c.utf8Size)).map fun p => (c :: p.1, p.2)
    else none

theorem cut?_append {cs a b : List Char} {n : Nat} (h : cut? cs n = some (a, b)) :
    a ++ b = cs := by
  induction cs generalizing n a b with
  | nil => cases n <;> simp_all [cut?]
  | cons c cs ih =>
    cases n with
    | zero => simp_all [cut?]
    | succ n =>
      simp only [cut?] at h
      split at h
      · obtain ⟨⟨x, y⟩, hp, he⟩ := Option.map_eq_some_iff.1 h
        cases he
        simp [ih hp]
      · simp at h

theorem encode_take_of_cut? {cs a b : List Char} {n : Nat} (h : cut? cs n = some (a, b)) :
    (encode a).length = n := by
  induction cs generalizing n a b with
  | nil => cases n <;> simp_all [cut?]
  | cons c cs ih =>
    cases n with
    | zero => simp_all [cut?]
    | succ n =>
      simp only [cut?] at h
      split at h
      · rename_i hle
        obtain ⟨⟨x, y⟩, hp, he⟩ := Option.map_eq_some_iff.1 h
        cases he
        have := ih hp
        simp only [encode, List.flatMap_cons, List.length_append,
          String.length_utf8EncodeChar] at this ⊢
        omega
      · simp at h

theorem cut?_length_encode (a b : List Char) : cut? (a ++ b) (encode a).length = some (a, b) := by
  induction a with
  | nil => cases b <;> rfl
  | cons c cs ih =>
    have hsize : (encode (c :: cs)).length = c.utf8Size + (encode cs).length := by
      simp [encode]
    obtain ⟨n, hn⟩ := Nat.exists_eq_add_of_lt
      (Nat.add_pos_left c.utf8Size_pos (encode cs).length)
    rw [Nat.zero_add] at hn
    have hrest : n + 1 - c.utf8Size = (encode cs).length := by omega
    rw [hsize, hn, List.cons_append, cut?, if_pos (by omega), hrest, ih]
    rfl

/-- The number of bytes after the first that a lead byte announces, with the bounds of the
second byte. -/
def tail? (lead : UInt8) : Option (Nat × UInt8 × UInt8) :=
  if 0xC2 ≤ lead && lead ≤ 0xDF then some (1, 0x80, 0xBF)
  else if lead == 0xE0 then some (2, 0xA0, 0xBF)
  else if lead == 0xED then some (2, 0x80, 0x9F)
  else if 0xE1 ≤ lead && lead ≤ 0xEF then some (2, 0x80, 0xBF)
  else if lead == 0xF0 then some (3, 0x90, 0xBF)
  else if 0xF1 ≤ lead && lead ≤ 0xF3 then some (3, 0x80, 0xBF)
  else if lead == 0xF4 then some (3, 0x80, 0x8F)
  else none

/-- Up to `count` continuation bytes, of which the first lies between `low` and `high`. -/
def continuation : Nat → UInt8 → UInt8 → Bytes → Bytes
  | 0, _, _, _ => []
  | _ + 1, _, _, [] => []
  | count + 1, low, high, b :: rest =>
    if low ≤ b && b ≤ high then b :: continuation count 0x80 0xBF rest else []

/-- Decodes what is valid and writes U+FFFD for each longest run that could have begun a
character. -/
def decodeLossy : Bytes → List Char
  | [] => []
  | lead :: rest =>
    if lead < 0x80 then Char.ofNat lead.toNat :: decodeLossy rest
    else match tail? lead with
      | none => '\uFFFD' :: decodeLossy rest
      | some (count, low, high) =>
        let more := continuation count low high rest
        let first := lead.toNat % 1 <<< (6 - count)
        let c := if more.length = count
          then Char.ofNat (more.foldl (fun n b => n * 64 + b.toNat % 64) first) else '\uFFFD'
        c :: decodeLossy (rest.drop more.length)
termination_by bytes => bytes.length
decreasing_by all_goals simp only [List.length_cons, List.length_drop]; omega

theorem encode_decodeLossy_of_ascii (bytes : Bytes) (h : ∀ b ∈ bytes, b < 128) :
    encode (decodeLossy bytes) = bytes := by
  induction bytes with
  | nil => simp [decodeLossy]
  | cons b rest ih =>
    have hb : b < 128 := h b (by simp)
    have hr := ih fun x hx => h x (by simp [hx])
    have hn : b.toNat < 128 := by simpa using UInt8.lt_iff_toNat_lt.1 hb
    have hc : (Char.ofNat b.toNat).toNat = b.toNat := by
      have hvalid : b.toNat.isValidChar := .inl (by omega)
      rw [Char.ofNat, dif_pos hvalid]
      rfl
    have hbyte : byte (Char.ofNat b.toNat) = b := by
      rw [byte, hc, Nat.toUInt8, UInt8.ofNat_toNat]
    rw [decodeLossy, if_pos hb, encode_cons_of_lt (by rwa [hc]), hbyte, hr]

end LanguageClient.Utf8
