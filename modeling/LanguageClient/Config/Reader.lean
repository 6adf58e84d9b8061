import LanguageClient.Config
import LanguageClient.Json.Source

namespace LanguageClient.Config

open Json (Source)

/-- The sources of a record's fields by name, where they are given. -/
structure Fields where
  given : String → Option Source

namespace Fields

def ofItems : List String → List Source → String → Option Source
  | name :: names, item :: items, asked => if asked = name then some item else ofItems names items asked
  | _, _, _ => none

/-- Collects the members whose key is a name; a second one for a name is refused. -/
def ofMembers? (names : List String) :
    (String → Option Source) → List (List Json.Piece × Source) → Option (String → Option Source)
  | given, [] => some given
  | given, (key, value) :: rest => do
    let key ← (Json.Piece.text? key).map String.ofList
    if names.contains key then
      if (given key).isSome then none
      else ofMembers? names (fun asked => if asked = key then some value else given asked) rest
    else ofMembers? names given rest

/-- The fields of a record with these names. It is written as an object, whose other members are
ignored and whose known ones may not repeat, or as an array of its fields in this order. -/
def ofSource? (names : List String) : Source → Option Fields
  | .arr items => if items.length ≤ names.length then some ⟨ofItems names items⟩ else none
  | .obj members => (ofMembers? names (fun _ => none) members).map Fields.mk
  | _ => none

def getD {α : Type} (fields : Fields) (name : String) (read? : Source → Option α) (default : α) :
    Option α :=
  match fields.given name with
  | some source => read? source
  | none => some default

def get? {α : Type} (fields : Fields) (name : String) (read? : Source → Option α) : Option α :=
  (fields.given name).bind read?

end Fields

def readNat? (bits : Nat) : Source → Option Nat
  | .number l => match l.value? with
    | some (.int n) => if 0 ≤ n && n < 1 <<< bits then some n.toNat else none
    | _ => none
  | _ => none

def readUInt32? (s : Source) : Option UInt32 := (readNat? 32 s).map UInt32.ofNat

def readUInt64? (s : Source) : Option UInt64 := (readNat? 64 s).map UInt64.ofNat

def readPath? (s : Source) : Option Path := s.string?.map Path.mk

def readStrings? : Source → Option (List String)
  | .arr items => items.mapM Source.string?
  | _ => none

def readOption? {α : Type} (read? : Source → Option α) : Source → Option (Option α)
  | .keyword .null => some none
  | s => (read? s).map some

def readBudget? (s : Source) : Option PollBudget := do
  let fields ← Fields.ofSource? ["attempts", "interval_ms"] s
  return ⟨← fields.get? "attempts" readUInt32?, ← fields.get? "interval_ms" readUInt64?⟩

def readOverride? (s : Source) : Option ServerOverride := do
  let fields ← Fields.ofSource? ["command", "args", "working_dir"] s
  return {
    command := ← fields.getD "command" (readOption? readPath?) none
    args := ← fields.getD "args" (readOption? readStrings?) none
    workingDir := ← fields.getD "working_dir" (readOption? readPath?) none }

/-- A format by its name, or as an object that maps the name to `null`. -/
def readFormat? : Source → Option Log.Format
  | .text pieces => (Source.text pieces).string?.bind Log.Format.ofName?
  | .obj [(key, .keyword .null)] => (Source.text key).string?.bind Log.Format.ofName?
  | _ => none

def readLogging? (s : Source) : Option Log.Settings := do
  let fields ← Fields.ofSource? ["filter", "format"] s
  let default : Log.Settings := {}
  return {
    filter := ← fields.getD "filter" Source.string? default.filter
    format := ← fields.getD "format" readFormat? default.format }

def addServer? (servers : Language → Option ServerOverride)
    (member : List Json.Piece × Source) : Option (Language → Option ServerOverride) := do
  let language ← (Source.text member.1).string?.bind Language.ofName?
  let launch ← readOverride? member.2
  return fun asked => if asked = language then some launch else servers asked

/-- The overrides by language; of several for one language the last wins. -/
def readServers? : Source → Option (Language → Option ServerOverride)
  | .obj members => members.foldlM addServer? fun _ => none
  | _ => none

/-- Reads a configuration; what is not given takes its default. -/
def ofSource? (s : Source) : Option Config := do
  let fields ← Fields.ofSource? ["servers", "handshake", "completion", "debounce_ms",
    "max_completions", "shutdown_grace_ms", "inbox_capacity", "logging"] s
  let default : Config := {}
  return {
    servers := ← fields.getD "servers" readServers? default.servers
    handshake := ← fields.getD "handshake" readBudget? default.handshake
    completion := ← fields.getD "completion" readBudget? default.completion
    debounceMs := ← fields.getD "debounce_ms" readUInt64? default.debounceMs
    maxCompletions := ← fields.getD "max_completions" readUInt64? default.maxCompletions
    shutdownGraceMs := ← fields.getD "shutdown_grace_ms" readUInt64? default.shutdownGraceMs
    inboxCapacity := ← fields.getD "inbox_capacity" readUInt64? default.inboxCapacity
    logging := ← fields.getD "logging" readLogging? default.logging }

def ofText? (text : String) : Option Config := do
  ofSource? (← Source.ofText? text)

end LanguageClient.Config
