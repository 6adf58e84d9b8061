namespace LanguageClient

/-- A byte string. -/
abbrev Bytes := List UInt8

def byte (c : Char) : UInt8 := c.toNat.toUInt8

theorem toNat_byte {c : Char} (h : c.toNat < 128) : (byte c).toNat = c.toNat := by
  rw [byte, Nat.toUInt8, UInt8.toNat_ofNat']
  exact Nat.mod_eq_of_lt (by omega)

theorem byte_eq_byte_iff {c d : Char} (hc : c.toNat < 128) (hd : d.toNat < 128) :
    byte c = byte d ↔ c = d := by
  rw [← UInt8.toNat_inj, toNat_byte hc, toNat_byte hd, Char.toNat_inj]

namespace Bytes

def isDigit (b : UInt8) : Bool := 48 ≤ b && b ≤ 57

theorem isDigit_iff {b : UInt8} : isDigit b = true ↔ 48 ≤ b.toNat ∧ b.toNat ≤ 57 := by
  rw [isDigit, Bool.and_eq_true, decide_eq_true_eq, decide_eq_true_eq]
  rfl

def isLetter (b : UInt8) : Bool := (65 ≤ b && b ≤ 90) || (97 ≤ b && b ≤ 122)

def isIdentifier (b : UInt8) : Bool := isLetter b || isDigit b || b == 95

/-- Space, tab, line feed, vertical tab, form feed and carriage return. -/
def isBlank (b : UInt8) : Bool := b == 32 || (9 ≤ b && b ≤ 13)

theorem isIdentifier_lt {b : UInt8} (h : isIdentifier b = true) : b < 128 := by
  simp only [isIdentifier, isLetter, isDigit, Bool.or_eq_true, Bool.and_eq_true,
    decide_eq_true_eq, beq_iff_eq] at h
  rcases h with ((h | h) | h) | h
  · exact Std.lt_of_le_of_lt h.2 (by decide)
  · exact Std.lt_of_le_of_lt h.2 (by decide)
  · exact Std.lt_of_le_of_lt h.2 (by decide)
  · subst h; decide

end Bytes

end LanguageClient
