namespace LanguageClient

/-- A JSON value. `int` holds the whole numbers of 64 bits, signed or unsigned; every other number
is the `real` `mantissa * 10 ^ exponent`. -/
inductive Json where
  | null
  | bool (value : Bool)
  | int (value : Int)
  | real (mantissa exponent : Int)
  | str (text : String)
  | arr (items : List Json)
  | obj (members : List (String × Json))
  deriving Inhabited

namespace Json

def get? (key : String) : Json → Option Json
  | obj members => members.lookup key
  | _ => none

def asString? : Json → Option String
  | str text => some text
  | _ => none

def asInt64? : Json → Option Int
  | int n => if n < 1 <<< 63 then some n else none
  | _ => none

def asNat? : Json → Option Nat
  | int n => if 0 ≤ n then some n.toNat else none
  | _ => none

def isNull : Json → Bool
  | null => true
  | _ => false

def isObject : Json → Bool
  | obj _ => true
  | _ => false

/-- Sets the member with the given key, keeping the members sorted by key. -/
def setMember (key : String) (value : Json) : List (String × Json) → List (String × Json)
  | [] => [(key, value)]
  | (k, v) :: rest =>
    match compare key k with
    | .lt => (key, value) :: (k, v) :: rest
    | .eq => (key, value) :: rest
    | .gt => (k, v) :: setMember key value rest

/-- The members sorted by key; of several with one key the last wins. -/
def sortMembers (members : List (String × Json)) : List (String × Json) :=
  members.foldl (fun sorted m => setMember m.1 m.2 sorted) []

mutual

/-- Every object inside the value with its members sorted and one member for each key. -/
def normalize : Json → Json
  | arr items => arr (normalizeItems items)
  | obj members => obj (sortMembers (normalizeMembers members))
  | other => other

def normalizeItems : List Json → List Json
  | [] => []
  | item :: rest => item.normalize :: normalizeItems rest

def normalizeMembers : List (String × Json) → List (String × Json)
  | [] => []
  | (key, value) :: rest => (key, value.normalize) :: normalizeMembers rest

end

end Json

end LanguageClient
