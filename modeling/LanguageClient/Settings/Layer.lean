import LanguageClient.Settings.Basic

namespace LanguageClient.Settings

/-- What one source gives: values by name. -/
abbrev Layer := List (String × Json)

/-- Why settings were not loaded. -/
inductive Fault where
  | flags
  | missingFile (p : Path)
  | unreadableFile (p : Path)
  | wrongValue (key : Key)
  deriving Inhabited

def Fault.message : Fault → String
  | flags => "the configuration flags are not understood"
  | missingFile p => "the configuration file " ++ p.text ++ " does not exist"
  | unreadableFile p => "the configuration file " ++ p.text ++ " cannot be read"
  | wrongValue key => "the value of " ++ key.name ++ " has the wrong type"

def Layer.set (name : String) (value : Json) (l : Layer) : Layer :=
  if (l.lookup name).isSome then l.map fun m => if m.1 = name then (name, value) else m
  else l ++ [(name, value)]

mutual

/-- A value over a weaker one: the members of an object join those of another one. -/
def overlay : Json → Json → Json
  | .obj strong, .obj weak => .obj (overlayMembers strong weak)
  | strong, _ => strong

def overlayMembers : List (String × Json) → List (String × Json) → List (String × Json)
  | [], weak => weak
  | (name, value) :: rest, weak =>
    overlayMembers rest (Layer.set name (overlay value ((weak.lookup name).getD .null)) weak)

end

def Layer.merge (layers : List Layer) : Layer := layers.foldr overlayMembers []

def decisive? (layers : List Layer) (key : Key) : Option Json := (Layer.merge layers).lookup key.name

/-- Reads a setting that takes its default when no layer gives it. -/
def value {α : Type} (layers : List Layer) (key : Key) (read? : Json → Option α) (default : α) :
    Except Fault α :=
  match decisive? layers key with
  | none => .ok default
  | some given => match read? given with
    | some value => .ok value
    | none => .error (.wrongValue key)

def readNat? (bits : Nat) (given : Json) : Option Nat := given.asNat?.filter (· < 1 <<< bits)

def readUInt32? (given : Json) : Option UInt32 := (readNat? 32 given).map UInt32.ofNat

def readUInt64? (given : Json) : Option UInt64 := (readNat? 64 given).map UInt64.ofNat

/-- A format by its name, or by an object that has the name as its only key, with nothing there. -/
def readFormat? : Json → Option Log.Format
  | .str name | .obj [(name, .null)] => Log.Format.ofName? name
  | _ => none

def readCommand? : Json → Option (Option Path)
  | .null => some none
  | .str text => some (some ⟨text⟩)
  | _ => none

/-- The settings that layers give, the strongest first. -/
def ofLayers (layers : List Layer) : Except Fault Settings := do
  let default : Settings := {}
  let filter ← value layers .logFilter Json.asString? default.logging.filter
  let format ← value layers .logFormat readFormat? default.logging.format
  let handshake : PollBudget := {
    attempts := ← value layers .handshakeAttempts readUInt32? default.handshake.attempts
    intervalMs := ← value layers .handshakeInterval readUInt64? default.handshake.intervalMs }
  let completion : PollBudget := {
    attempts := ← value layers .completionAttempts readUInt32? default.completion.attempts
    intervalMs := ← value layers .completionInterval readUInt64? default.completion.intervalMs }
  let debounceMs ← value layers .debounce readUInt64? default.debounceMs
  let maxCompletions ← value layers .maxCompletions readUInt64? default.maxCompletions
  let shutdownGraceMs ← value layers .shutdownGrace readUInt64? default.shutdownGraceMs
  let command (language : Language) := value layers (.command language) readCommand? none
  let cpp ← command .cpp
  let python ← command .python
  let typescript ← command .typescript
  let go ← command .go
  let luau ← command .luau
  return {
    logging := ⟨filter, format⟩, handshake, completion, debounceMs, maxCompletions,
    shutdownGraceMs
    commands := fun
      | .cpp => cpp
      | .python => python
      | .typescript => typescript
      | .go => go
      | .luau => luau }

end LanguageClient.Settings
