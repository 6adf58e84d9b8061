namespace LanguageClient

/-- A slash-separated path, kept as written. -/
structure Path where
  text : String
  deriving Inhabited

namespace Path

instance : Coe String Path := ⟨Path.mk⟩

/-- A step of a path. -/
inductive Component where
  | root
  | current
  | parent
  | normal (name : List Char)
  deriving DecidableEq

/-- What stands before the segments of a path: a root slash, a leading dot, or nothing. -/
inductive Anchor where
  | root
  | current
  | none
  deriving DecidableEq

namespace Anchor

def chars : Anchor → List Char
  | root => ['/']
  | current => ['.']
  | none => []

def components : Anchor → List Component
  | root => [.root]
  | current => [.current]
  | none => []

end Anchor

def anchored : List Char → Anchor × List Char
  | '/' :: rest => (.root, rest)
  | ['.'] => (.current, [])
  | '.' :: '/' :: rest => (.current, '/' :: rest)
  | cs => (.none, cs)

def isIdle (segment : List Char) : Bool := segment = [] || segment = ['.']

/-- The segments between slashes after the anchor, last first, without idle ones at the end. -/
def segmentsBack (body : List Char) : List (List Char) :=
  (body.splitOn '/').reverse.dropWhile isIdle

def component (segment : List Char) : Component :=
  if segment = ['.', '.'] then .parent else .normal segment

def components (p : Path) : List Component :=
  let (anchor, body) := anchored p.text.toList
  anchor.components ++ ((body.splitOn '/').filter (!isIdle ·)).map component

/-- Paths are equal when their components are. -/
instance : BEq Path := ⟨fun p q => p.components = q.components⟩

def isEmpty (p : Path) : Bool := p.text.isEmpty

/-- The path without its last component, if it has one to lose. -/
def parent? (p : Path) : Option Path :=
  let (anchor, body) := anchored p.text.toList
  match segmentsBack body with
  | _ :: before =>
    let kept := (before.dropWhile isIdle).reverse
    some ⟨String.ofList (anchor.chars ++ ['/'].intercalate kept)⟩
  | [] => if anchor = .current then some ⟨""⟩ else none

def fileName? (p : Path) : Option (List Char) :=
  match segmentsBack (anchored p.text.toList).2 with
  | segment :: _ => if segment = ['.', '.'] then none else some segment
  | [] => none

/-- What follows the last dot of the file name, unless the name has no other dot than a leading
one. -/
def extension? (p : Path) : Option String := do
  let name ← p.fileName?
  let back := name.reverse
  let after := back.takeWhile (· ≠ '.')
  match back.dropWhile (· ≠ '.') with
  | '.' :: before => if before.isEmpty then none else some (String.ofList after.reverse)
  | _ => none

/-- Appends a relative path; an absolute one replaces the path. -/
def join (p : Path) (name : String) : Path :=
  if name.toList.head? = some '/' then ⟨name⟩
  else if p.text.isEmpty || p.text.toList.getLast? = some '/' then ⟨p.text ++ name⟩
  else ⟨p.text ++ "/" ++ name⟩

/-- The directory that a file belongs to: its parent, or `.` when it names none. -/
def directory (p : Path) : Path :=
  match p.parent? with
  | some dir => if dir.isEmpty then ⟨"."⟩ else dir
  | none => ⟨"."⟩

end Path

end LanguageClient
