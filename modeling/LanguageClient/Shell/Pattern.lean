import LanguageClient.Bytes

namespace LanguageClient.Shell

/-- An element of a pattern. A set is given by ranges, and may mean all bytes outside them. -/
inductive Glob where
  | byte (b : UInt8)
  | one
  | many
  | oneOf (negated : Bool) (ranges : List (UInt8 × UInt8))
  deriving DecidableEq

namespace Glob

def isIn (negated : Bool) (ranges : List (UInt8 × UInt8)) (b : UInt8) : Bool :=
  ranges.any (fun r => r.1 ≤ b && b ≤ r.2) != negated

/-- Reads the ranges of a set up to its closing bracket, which comes after the first of them. -/
def ranges? : Nat → List (UInt8 × UInt8) → Bytes → Option (List (UInt8 × UInt8) × Bytes)
  | 0, _, _ | _, _, [] => none
  | fuel + 1, seen, b :: rest =>
    if b = 93 && !seen.isEmpty then some (seen, rest)
    else match rest with
      | 45 :: c :: after =>
        if c = 93 then ranges? fuel ((b, b) :: seen) rest else ranges? fuel ((b, c) :: seen) after
      | rest => ranges? fuel ((b, b) :: seen) rest

def set? : Bytes → Option (Glob × Bytes)
  | 33 :: rest | 94 :: rest =>
    (ranges? (rest.length + 1) [] rest).map fun (ranges, rest) => (oneOf true ranges, rest)
  | rest => (ranges? (rest.length + 1) [] rest).map fun (ranges, rest) => (oneOf false ranges, rest)

def ofBytes : Nat → Bytes → List Glob
  | 0, _ | _, [] => []
  | fuel + 1, b :: rest =>
    if b = 42 then many :: ofBytes fuel rest
    else if b = 63 then one :: ofBytes fuel rest
    else match if b = 91 then set? rest else none with
      | some (set, rest) => set :: ofBytes fuel rest
      | none => byte b :: ofBytes fuel rest

def matchesAll : List Glob → Bytes → Bool
  | [], [] => true
  | [], _ :: _ => false
  | byte c :: pattern, b :: rest => b = c && matchesAll pattern rest
  | byte _ :: _, [] => false
  | one :: pattern, _ :: rest => matchesAll pattern rest
  | one :: _, [] => false
  | oneOf negated ranges :: pattern, b :: rest =>
    isIn negated ranges b && matchesAll pattern rest
  | oneOf _ _ :: _, [] => false
  | many :: pattern, [] => matchesAll pattern []
  | many :: pattern, b :: rest =>
    matchesAll pattern (b :: rest) || matchesAll (many :: pattern) rest
termination_by pattern text => (text.length, pattern.length)

/-- The text without the shortest or longest start that matches. -/
def trimStart (longest : Bool) (pattern : List Glob) (text : Bytes) : Bytes :=
  let counts := List.range (text.length + 1)
  let counts := if longest then counts.reverse else counts
  match counts.find? fun n => matchesAll pattern (text.take n) with
  | some n => text.drop n
  | none => text

def trimEnd (longest : Bool) (pattern : List Glob) (text : Bytes) : Bytes :=
  let counts := List.range (text.length + 1)
  let counts := if longest then counts else counts.reverse
  match counts.find? fun n => matchesAll pattern (text.drop n) with
  | some n => text.take n
  | none => text

end Glob

end LanguageClient.Shell
