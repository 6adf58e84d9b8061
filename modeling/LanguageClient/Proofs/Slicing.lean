import LanguageClient.Proofs.Editing
import LanguageClient.Proofs.Scanning
import Mathlib.Data.List.Flatten

namespace LanguageClient.Utf8

open Decimal (isDigit)
open Document (IsBoundary)
open Document.Snapshot (around?)
open Suggest.Snippet (splitAt? splitAt?_append splitAt?_eq_none_iff)

/-- The text from an offset on, if that lies on a character boundary. -/
def rest? (text : String) (start : Nat) : Option (List Char) :=
  (cut? text.toList start).map Prod.snd

def slice? (text : String) (start stop : Nat) : Option (List Char) := do
  let (before, _) ← cut? text.toList stop
  let (_, inside) ← cut? before start
  return inside

def find? (c : Char) (cs : List Char) : Option Nat :=
  (splitAt? c cs).map fun p => (encode p.1).length

def splice? (text : String) (start stop : Nat) (new : List Char) : Option String :=
  (around? text start stop).map fun p => String.ofList (p.1 ++ new ++ p.2)

/-- The text up to an offset; one that ends before it stays whole. -/
def truncate? (text : String) (stop : Nat) : Option String :=
  if stop ≤ text.utf8ByteSize then (cut? text.toList stop).map fun p => String.ofList p.1
  else some text

theorem length_encode_append (a b : List Char) :
    (encode (a ++ b)).length = (encode a).length + (encode b).length := by
  rw [encode_append, List.length_append]

theorem length_encode_le {a b : List Char} (h : a.Sublist b) :
    (encode a).length ≤ (encode b).length :=
  (h.flatMap _).length_le

theorem length_encode_lt {a b : List Char} (h : a.Sublist b) (hlength : a.length < b.length) :
    (encode a).length < (encode b).length := by
  apply Nat.lt_of_le_of_ne (length_encode_le h)
  intro hsame
  have hencode : encode a = encode b := (h.flatMap _).eq_of_length hsame
  have hdecode := congrArg decode? hencode
  rw [decode?_encode, decode?_encode, Option.some_inj, String.ofList_inj] at hdecode
  rw [hdecode] at hlength
  exact Nat.lt_irrefl _ hlength

section

variable {c : Char} {a b cs : List Char}

theorem rest?_ofList (before ahead : List Char) :
    rest? (String.ofList (before ++ ahead)) (encode before).length = some ahead := by
  rw [rest?, String.toList_ofList, cut?_length_encode]
  rfl

theorem slice?_ofList (before inside after : List Char) :
    slice? (String.ofList (before ++ inside ++ after)) (encode before).length
      (encode (before ++ inside)).length = some inside := by
  rw [slice?, String.toList_ofList, cut?_length_encode]
  dsimp only [Option.bind_eq_bind, Option.bind_some]
  rw [cut?_length_encode]
  rfl

theorem find?_append (h : c ∉ a) : find? c (a ++ c :: b) = some (encode a).length := by
  rw [find?, splitAt?_append h]
  rfl

theorem find?_eq_none (h : c ∉ cs) : find? c cs = none := by
  rw [find?, splitAt?_eq_none_iff.2 h]
  rfl

theorem splice?_ofList (before gone after new : List Char) :
    splice? (String.ofList (before ++ gone ++ after)) (encode before).length
      (encode (before ++ gone)).length new = some (String.ofList (before ++ new ++ after)) := by
  have hle := length_encode_le (List.sublist_append_left before gone)
  have hstart := cut?_length_encode before (gone ++ after)
  rw [← List.append_assoc] at hstart
  rw [splice?, around?, if_pos hle, String.toList_ofList, hstart, cut?_length_encode]
  rfl

theorem isBoundary_ofList (before ahead : List Char) :
    IsBoundary (String.ofList (before ++ ahead)) (encode before).length := by
  refine Document.isBoundary_iff_exists_cut?.2 ⟨before, ahead, ?_⟩
  rw [String.toList_ofList, cut?_length_encode]

theorem truncate?_ofList (before after : List Char) :
    truncate? (String.ofList (before ++ after)) (encode before).length =
      some (String.ofList before) := by
  have hle : (encode before).length ≤ (String.ofList (before ++ after)).utf8ByteSize := by
    rw [← length_encode]
    exact length_encode_le (List.sublist_append_left before after)
  rw [truncate?, if_pos hle, String.toList_ofList, cut?_length_encode]
  rfl

end

/-- The first byte of a character tells as much of it as a scan asks. -/
theorem exists_lead (c : Char) : ∃ b rest, String.utf8EncodeChar c = b :: rest ∧
    (∀ d : Char, d.toNat < 128 → (b = byte d ↔ c = d)) ∧ Bytes.isDigit b = isDigit c := by
  rcases Nat.lt_or_ge c.toNat 128 with hascii | hlarge
  · refine ⟨byte c, [], utf8EncodeChar_of_lt hascii, ?_, ?_⟩
    · intro d hd
      exact byte_eq_byte_iff hascii hd
    · rw [Bool.eq_iff_iff, Bytes.isDigit_iff, Decimal.isDigit_iff, toNat_byte hascii]
  · cases hbytes : String.utf8EncodeChar c with
    | nil => exact absurd hbytes String.utf8EncodeChar_ne_nil
    | cons b rest =>
      have hb : 128 ≤ b.toNat := by
        apply le_of_mem_utf8EncodeChar hlarge
        rw [hbytes]
        exact List.mem_cons_self
      refine ⟨b, rest, rfl, ?_, ?_⟩
      · intro d hd
        apply iff_of_false
        · rintro rfl
          rw [toNat_byte hd] at hb
          omega
        · rintro rfl
          omega
      · rw [Bool.eq_iff_iff, Bytes.isDigit_iff, Decimal.isDigit_iff]
        omega

theorem takeWhile_isDigit_encode (cs : List Char) :
    (encode cs).takeWhile Bytes.isDigit = encode (cs.takeWhile isDigit) := by
  induction cs with
  | nil => rfl
  | cons c cs ih =>
    cases hdigit : isDigit c with
    | true =>
      have hbounds := Decimal.isDigit_iff.1 hdigit
      have hascii : c.toNat < 128 := by omega
      have hbyte : Bytes.isDigit (byte c) = true := by
        rwa [Bytes.isDigit_iff, toNat_byte hascii]
      rw [encode_cons_of_lt hascii, List.takeWhile_cons_of_pos hbyte, ih,
        List.takeWhile_cons_of_pos hdigit, encode_cons_of_lt hascii]
    | false =>
      obtain ⟨b, rest, hbytes, _, hb⟩ := exists_lead c
      rw [encode, List.flatMap_cons, hbytes, List.cons_append,
        List.takeWhile_cons_of_neg (Bool.eq_false_iff.1 (hb.trans hdigit)),
        List.takeWhile_cons_of_neg (Bool.eq_false_iff.1 hdigit)]
      rfl

end LanguageClient.Utf8
