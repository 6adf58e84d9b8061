import LanguageClient.Server.Launch
import LanguageClient.Server.Program

namespace LanguageClient.Server

/-- Something that a path names. -/
inductive Node where
  | directory
  | file (content : Bytes) (executable : Bool)
  | shell
  | tool (name : String)
  /-- Any other program, by its arguments. -/
  | program (run : List Bytes → Program)

inductive Missing where
  | notFound
  | notDirectory
  | isDirectory
  | nameTooLong
  | invalidText
  | nulByte
  deriving DecidableEq

def Missing.message : Missing → String
  | notFound => "No such file or directory (os error 2)"
  | notDirectory => "Not a directory (os error 20)"
  | isDirectory => "Is a directory (os error 21)"
  | nameTooLong => "File name too long (os error 36)"
  | invalidText => "stream did not contain valid UTF-8"
  | nulByte => "file name contained an unexpected NUL byte"

/-- Files by the names on the way to them, the current directory, where commands are looked for,
and where the client is installed. -/
structure Host where
  nodes : List (List String × Node)
  current : List String := []
  searchPath : List (List String) := []
  installDir : Option Path := none

namespace Host

def walk (base : List String) (p : Path) : List String :=
  p.components.foldl (fun names step =>
    match step with
    | .root => []
    | .current => names
    | .parent => names.dropLast
    | .normal name => names ++ [String.ofList name]) base

/-- What is at a place. The places on the way to something are directories. -/
def nodeAt? (h : Host) (names : List String) : Option Node :=
  match h.nodes.find? (·.1 = names) with
  | some (_, node) => some node
  | none =>
    if names = [] || h.nodes.any (fun n => names.isPrefixOf n.1) then some .directory else none

def isDirectory : Node → Bool
  | .directory => true
  | _ => false

def nameLimit : Nat := 255

def pathLimit : Nat := 4096

/-- Follows the steps of a path from a place. Each step starts in a directory. -/
def follow (h : Host) : List String → List Path.Component → Except Missing (List String)
  | names, [] => .ok names
  | _, .root :: rest => follow h [] rest
  | names, step :: rest =>
    match h.nodeAt? names with
    | some .directory => match step with
      | .normal name =>
        if nameLimit < (Utf8.encode name).length then .error .nameTooLong
        else follow h (names ++ [String.ofList name]) rest
      | .parent => follow h names.dropLast rest
      | _ => follow h names rest
    | some _ => .error .notDirectory
    | none => .error .notFound

def wantsDirectory (p : Path) : Bool :=
  match p.text.toList.reverse with
  | '/' :: _ => true
  | '.' :: '/' :: _ => true
  | _ => false

def find (h : Host) (base : List String) (p : Path) : Except Missing (List String × Node) :=
  if p.text.toList.contains '\x00' then .error .nulByte
  else if p.isEmpty then .error .notFound
  else if pathLimit ≤ (Utf8.encode p.text.toList).length then .error .nameTooLong
  else do
    let names ← h.follow base p.components
    match h.nodeAt? names with
    | some node =>
      if wantsDirectory p && !isDirectory node then .error .notDirectory else .ok (names, node)
    | none => .error .notFound

def isFile (h : Host) (p : Path) : Bool :=
  match h.find h.current p with
  | .ok (_, node) => !isDirectory node
  | .error _ => false

def readText (h : Host) (p : Path) : Except Missing String :=
  match h.find h.current p with
  | .ok (_, .file content _) => match Utf8.decode? content with
    | some text => .ok text
    | none => .error .invalidText
  | .ok (_, .directory) => .error .isDirectory
  | .ok _ => .error .invalidText
  | .error missing => .error missing

/-- Why a command was not launched. -/
inductive Refusal where
  | notFound
  | failed
  deriving DecidableEq

def Refusal.ofMissing : Missing → Refusal
  | .notFound => .notFound
  | _ => .failed

/-- The node of a command: one with a slash is a path, any other is looked for. -/
def findCommand (h : Host) (base : List String) (command : Path) : Except Refusal Node :=
  if command.text.toList.contains '/' || command.isEmpty then
    ((h.find base command).map (·.2)).mapError .ofMissing
  else if nameLimit < (Utf8.encode command.text.toList).length then .error .failed
  else
    match h.searchPath.findSome? fun dir => (h.find dir command).toOption with
    | some (_, node) => .ok node
    | none => .error .notFound

def interpreter? (content : Bytes) : Option (Path × List Bytes) :=
  match content with
  | 35 :: 33 :: rest =>
    let isBlank (b : UInt8) : Bool := b = 32 || b = 9
    let line := (rest.takeWhile (· ≠ 10)).dropWhile isBlank
    let line := (line.reverse.dropWhile isBlank).reverse
    let argument := (line.dropWhile (!isBlank ·)).dropWhile isBlank
    some (⟨Shell.nameOf (line.takeWhile (!isBlank ·))⟩,
      if argument.isEmpty then [] else [argument])
  | _ => none

def encode (text : String) : Bytes := Utf8.encode text.toList

def placeText (names : List String) : Bytes := encode ("/" ++ "/".intercalate names)

/-- What the shell does with its arguments. After its options, it runs a text, which may be given a
name, or a file, or else what it reads. -/
def shellProgram (h : Host) (base : List String) (args : List Bytes) : Program :=
  let directory := placeText base
  match Shell.Options.read? true (args.length + 1) {} args with
  | none => .failed
  | some (options, words) =>
    match words.getD [], options.inArgument with
    | [], true => .failed
    | [], false => .silent
    | text :: rest, true =>
      .ofScript directory (rest.headD (encode "sh")) options (rest.drop 1) text
    | file :: rest, false =>
      match h.find base ⟨Shell.nameOf file⟩ with
      | .ok (_, .file content _) => .ofScript directory file options rest content
      | _ => .failed

def launch (h : Host) (l : Launch) : Except Refusal Program := do
  if l.args.any fun a => a.toList.contains '\x00' then .error .failed
  let base ← match l.workingDir with
    | none => .ok h.current
    | some dir => match h.find h.current dir with
      | .ok (names, .directory) => .ok names
      | .ok _ => .error .failed
      | .error missing => .error (.ofMissing missing)
  match ← h.findCommand base l.command with
  | .directory => .error .failed
  | .shell => .ok (h.shellProgram base (l.args.map encode))
  | .tool name => .ok (.ofCommand (placeText base) ((name :: l.args).map encode))
  | .program run => .ok (run (l.args.map encode))
  | .file content executable =>
    if !executable then .error .failed
    else match interpreter? content with
      | none => .error .failed
      | some (interpreter, argument) => match ← (h.find base interpreter).mapError .ofMissing with
        | (_, .shell) =>
          match Shell.Options.read? true (argument.length + 1) {} argument with
          | some (options, none) =>
            .ok (.ofScript (placeText base) (encode l.command.text) options (l.args.map encode) content)
          | _ => .ok .failed
        | (_, .program run) =>
          .ok (run (argument ++ encode l.command.text :: l.args.map encode))
        | _ => .error .failed

end Host

end LanguageClient.Server
