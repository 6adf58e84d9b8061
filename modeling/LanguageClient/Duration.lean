namespace LanguageClient

structure Duration where
  secs : Nat
  nanos : Nat
  secs_lt : secs < 1 <<< 64 := by omega
  nanos_lt : nanos < 1000000000 := by omega
  deriving DecidableEq

namespace Duration

def zero : Duration := ⟨0, 0, by decide, by decide⟩

def max : Duration := ⟨1 <<< 64 - 1, 999999999, by decide, by decide⟩

def ofMillis (ms : UInt64) : Duration where
  secs := ms.toNat / 1000
  nanos := ms.toNat % 1000 * 1000000
  secs_lt := by have := ms.toNat_lt; omega

def toNanos (d : Duration) : Nat := d.secs * 1000000000 + d.nanos

theorem toNanos_ofMillis (ms : UInt64) : (ofMillis ms).toNanos = ms.toNat * 1000000 := by
  simp only [ofMillis, toNanos]; omega

/-- The span `n` times over, or the longest one if that is too long. -/
def saturatingMul (d : Duration) (n : UInt32) : Duration :=
  let small := d.nanos * n.toNat
  let secs := d.secs * n.toNat + small / 1000000000
  if h : secs < 1 <<< 64 then ⟨secs, small % 1000000000, h, Nat.mod_lt _ (by decide)⟩ else max

/-- The sum, if it is not longer than the longest span. -/
def add? (a b : Duration) : Option Duration :=
  let small := a.nanos + b.nanos
  let secs := a.secs + b.secs + small / 1000000000
  if h : secs < 1 <<< 64 then some ⟨secs, small % 1000000000, h, Nat.mod_lt _ (by decide)⟩ else none

def isZero (d : Duration) : Bool := d.secs = 0 && d.nanos = 0

end Duration

end LanguageClient
