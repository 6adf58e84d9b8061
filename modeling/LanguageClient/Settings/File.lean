import LanguageClient.Server.Host
import LanguageClient.Settings.Layer
import LanguageClient.Toml.Reader

namespace LanguageClient.Settings

/-- The name of the configuration file in the current directory. -/
def defaultFile : Path := ⟨".tether.toml"⟩

def fileVariable : String := "TETHER_CONFIG_PATH"

/-- Whether a file is in a format that is not read. -/
def isForeign (p : Path) : Bool :=
  match p.extension?.map fun e => String.ofList (e.toList.map Char.toLower) with
  | some "json" | some "json5" | some "yaml" | some "yml" => true
  | _ => false

/-- A path as a file writes it, seen from the directory of the file. -/
def beside (p : Path) (name : String) : Path := ((p.parent?).getD ⟨""⟩).join name

/-- Reads a file and the files that it extends, the strongest first. A chain of more files than
`limit` is refused. -/
def readFile? (h : Server.Host) (limit : Nat) (p : Path) : Option (List Layer) := do
  match limit with
  | 0 => none
  | limit + 1 =>
    if isForeign p then none
    else
      let layer ← Toml.ofText? (← (h.readText p).toOption)
      match layer.lookup "extends" with
      | none => some [layer]
      | some (.str base) =>
        if base.isEmpty then none else return layer :: (← readFile? h limit (beside p base))
      | some _ => none

/-- Whether a path names nothing. A path that cannot be followed is not missing. -/
def isMissing (h : Server.Host) (p : Path) : Bool :=
  match h.find h.current p with
  | .error .notFound => true
  | _ => false

/-- The layers of a file. A chain of more files than there are repeats one of them. -/
def chain? (h : Server.Host) (p : Path) : Option (List Layer) := readFile? h (h.nodes.length + 1) p

def requireFile (h : Server.Host) (p : Path) : Except Fault (List Layer) :=
  match chain? h p with
  | some layers => .ok layers
  | none => .error (if isMissing h p then .missingFile p else .unreadableFile p)

/-- The layers of the first of some files that can be read. None is needed, but when some are not
missing and none can be read, that is a fault. -/
def firstFile (h : Server.Host) (candidates : List Path) : Except Fault (List Layer) :=
  let present := candidates.filter (!isMissing h ·)
  match present.findSome? (chain? h), present with
  | some layers, _ => .ok layers
  | none, [] => .ok []
  | none, p :: _ => .error (.unreadableFile p)

/-- The layers of the configuration file: the one that a flag names, else the one that a variable
names, else the one in the current directory. -/
def fileLayers (h : Server.Host) (flag named : Option Path) : Except Fault (List Layer) :=
  match flag with
  | some p => requireFile h p
  | none => firstFile h (named.toList ++ [defaultFile])

end LanguageClient.Settings
