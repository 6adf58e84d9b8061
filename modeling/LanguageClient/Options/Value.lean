import LanguageClient.Log.Settings
import LanguageClient.Text.Decimal

namespace LanguageClient.Options

inductive Value where
  | text (s : String)
  | number (n : Nat)
  deriving DecidableEq

/-- What the value of an option may be. -/
inductive Kind where
  | text
  /-- A path, which is never empty. -/
  | path
  | format
  /-- A number below `2 ^ 32`, with an optional sign. -/
  | word32
  /-- A number below `2 ^ 64`, with an optional plus sign. -/
  | word64
  deriving DecidableEq

namespace Kind

def read? (kind : Kind) (s : String) : Option Value :=
  match kind with
  | text => some (.text s)
  | path => if s.isEmpty then none else some (.text s)
  | format => (Log.Format.parse? s).map fun f => .text f.name
  | word32 =>
    match Decimal.readSigned? s.toList with
    | some n => if 0 ≤ n && n < 1 <<< 32 then some (.number n.toNat) else none
    | none => none
  | word64 => (Decimal.readWord? 64 s.toList).map .number

end Kind

end LanguageClient.Options
