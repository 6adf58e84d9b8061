namespace LanguageClient.Radix

/-- The value of a digit, of which the letters from `a` to `f` are some. -/
def digit? (c : Char) : Option Nat :=
  if '0' ≤ c && c ≤ '9' then some (c.toNat - 48)
  else if 'a' ≤ c && c ≤ 'f' then some (c.toNat - 87)
  else if 'A' ≤ c && c ≤ 'F' then some (c.toNat - 55)
  else none

def isDigit (base : Nat) (c : Char) : Bool := (digit? c).any fun n => decide (n < base)

def value (base : Nat) (ds : List Char) : Nat :=
  ds.foldl (fun n c => n * base + (digit? c).getD 0) 0

def leading (base : Nat) (cs : List Char) : List Char := cs.takeWhile (isDigit base)

end LanguageClient.Radix
