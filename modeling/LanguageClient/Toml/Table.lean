import LanguageClient.Json.Basic

namespace LanguageClient.Toml

/-- What brought a table about: a header that states it, a longer header that implies it, or a
dotted key. This decides what may still be added to it. -/
inductive Origin where
  | stated
  | implied
  | dotted
  deriving DecidableEq

/-- What a key stands for: a value, to which nothing is added, a table, or a list of tables of
which the last one is open. -/
inductive Node where
  | value (v : Json)
  | table (origin : Origin) (members : List (String × Node))
  | tables (earlier : List (List (String × Node))) (last : List (String × Node))

abbrev Members := List (String × Node)

namespace Members

def set (key : String) (node : Node) (ms : Members) : Members :=
  if (ms.lookup key).isSome then ms.map fun m => if m.1 = key then (key, node) else m
  else ms ++ [(key, node)]

/-- Changes the table that a path of headers leads to. Tables on the way that are not there yet are
implied. -/
def within? (change : Members → Option Members) : List String → Members → Option Members
  | [], ms => change ms
  | key :: path, ms =>
    match ms.lookup key with
    | none => do return ms.set key (.table .implied (← within? change path []))
    | some (.table origin inner) => do
      return ms.set key (.table origin (← within? change path inner))
    | some (.tables earlier last) => do
      return ms.set key (.tables earlier (← within? change path last))
    | some (.value _) => none

/-- States a table. One that is only implied so far may be stated. -/
def state? (key : String) (ms : Members) : Option Members :=
  match ms.lookup key with
  | none => some (ms.set key (.table .stated []))
  | some (.table .implied inner) => some (ms.set key (.table .stated inner))
  | _ => none

def extend? (key : String) (ms : Members) : Option Members :=
  match ms.lookup key with
  | none => some (ms.set key (.tables [] []))
  | some (.tables earlier last) => some (ms.set key (.tables (earlier ++ [last]) []))
  | _ => none

def put? (key : String) (v : Json) (ms : Members) : Option Members :=
  if (ms.lookup key).isSome then none else some (ms.set key (.value v))

/-- Gives a dotted key a value: the keys before the last one lead through tables that no header
states. The value goes into the table that the key starts from, or into one that dotted keys made;
these tables are open. -/
def assign? (v : Json) : Bool → List String → Members → Option Members
  | _, [], _ => none
  | isOpen, [key], ms => if isOpen then ms.put? key v else none
  | _, key :: path, ms =>
    match ms.lookup key with
    | none => do return ms.set key (.table .dotted (← assign? v true path []))
    | some (.table .stated _) => none
    | some (.table origin inner) => do
      return ms.set key (.table origin (← assign? v (origin = .dotted) path inner))
    | some (.tables earlier last) => do
      return ms.set key (.tables earlier (← assign? v false path last))
    | some (.value _) => none

end Members

mutual

def Node.json : Node → Json
  | .value v => v
  | .table _ members => .obj (membersJson members)
  | .tables earlier last => .arr (tablesJson earlier ++ [.obj (membersJson last)])

def membersJson : List (String × Node) → List (String × Json)
  | [] => []
  | (key, node) :: rest => (key, node.json) :: membersJson rest

def tablesJson : List (List (String × Node)) → List Json
  | [] => []
  | members :: rest => .obj (membersJson members) :: tablesJson rest

end

end LanguageClient.Toml
