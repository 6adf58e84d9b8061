import LanguageClient.CommandLine.Run

namespace LanguageClient.CommandLine

open Server

def placeOf (h : Host) (p : Path) : List String := Host.walk h.current p

def addDirectories (p : Path) (h : Host) : IO Host := do
  let here ← IO.currentDir
  let steps := p.text.splitOn "/"
  let passed := (List.range steps.length).map fun n => "/".intercalate (steps.take (n + 1))
  let dirs ← passed.filterM fun (dir : String) => (here.join dir).isDir
  return { h with nodes := dirs.map (fun dir => (placeOf h ⟨dir⟩, Node.directory)) ++ h.nodes }

/-- Adds what a path names to a host, if it is a file that can be read, and the directories on the
way to it. -/
def addFile (p : Path) (h : Host) : IO Host := do
  let h ← addDirectories p h
  try
    let content ← IO.FS.readBinFile p.text
    return { h with nodes := (placeOf h p, .file content.toList true) :: h.nodes }
  catch _ => return h

/-- Adds a configuration file and the files that it extends, at most `limit` of them. -/
def addSettingsFile : Nat → Path → Host → IO Host
  | 0, _, h => return h
  | limit + 1, p, h => do
    let h ← addFile p h
    match (h.readText p).toOption.bind Toml.ofText? with
    | some layer => match layer.lookup "extends" with
      | some (.str base) => addSettingsFile limit (Settings.beside p base) h
      | _ => return h
    | none => return h

/-- The variables of the environment, as they were when the program started. -/
def environment : IO (List (String × String)) := do
  try
    let block ← IO.FS.readBinFile "/proc/self/environ"
    return (block.toList.splitOn 0).filterMap fun entry => do
      let text ← Utf8.decode? entry
      match text.splitOn "=" with
      | name :: value => if name.isEmpty then none else some (name, "=".intercalate value)
      | [] => none
  catch _ => return []

/-- A host with the shell, and nothing else but the directory that the program runs in. -/
def bareHost : IO Host := do
  let empty : Host := { nodes := [(["bin", "sh"], .shell), (["usr", "bin", "sh"], .shell)] }
  let current := placeOf empty ⟨(← IO.currentDir).toString⟩
  let dirs := ((← IO.getEnv "PATH").getD "").splitOn ":"
  return { empty with
    nodes := (current, .directory) :: empty.nodes
    current
    searchPath := dirs.map fun dir => placeOf { empty with current } ⟨dir⟩
    installDir := some ⟨(← IO.appDir).toString⟩ }

def addCommand (command : Path) (h : Host) : IO Host := do
  let h ← addFile command h
  h.searchPath.foldlM (fun h dir =>
    addFile ⟨"/" ++ "/".intercalate (dir ++ [command.text])⟩ h) h

/-- The host with every file that a run with these arguments may ask for. -/
def hostFor (given : List (String × String)) (arguments : List String) : IO Host := do
  let (flags, command) := Settings.splitArguments arguments
  let named := flags.filterMap fun flag => (Options.inlineValue? flag) <|> some flag
  let h ← (named ++ (given.lookup Settings.fileVariable).toList).foldlM (fun h p => addSettingsFile 16 ⟨p⟩ h) (← bareHost)
  let h ← addSettingsFile 16 Settings.defaultFile h
  let h ← addFile (bundledLuau (h.installDir.getD ⟨""⟩)) h
  let h ← match Call.ofArguments command with
    | .run (.complete file ..) => addFile file h
    | _ => pure h
  match Settings.load h given flags with
  | .ok settings => Language.all.foldlM (fun h language =>
      addCommand (Supervised.ofConfig h settings.config language).launch.command h) h
  | .error _ => return h

end LanguageClient.CommandLine

open LanguageClient in
/-- Runs the program. A run that breaks off ends with a status of its own. -/
def main (arguments : List String) : IO UInt32 := do
  let arguments := (← IO.appPath).toString :: arguments
  let given ← CommandLine.environment
  let host ← CommandLine.hostFor given arguments
  let report := CommandLine.run host given false arguments
  IO.print report.output
  match report.ending with
  | .success => return 0
  | .failure _ =>
    IO.eprint report.errorText
    return 1
  | .overflow =>
    IO.eprintln "overflow when adding durations"
    return 101
