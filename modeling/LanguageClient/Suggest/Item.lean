import LanguageClient.Document.Cursor
import LanguageClient.Json.Writer
import LanguageClient.Suggest.Snippet

namespace LanguageClient.Suggest

open Document (Cursor)

structure Range where
  start : Position
  stop : Position
  deriving DecidableEq, Inhabited

structure Item where
  label : String
  detail : String
  kind : Int
  insertText : String
  range : Range
  sortKey : String
  deriving DecidableEq, Inhabited

/-- The kinds of items that relevance looks at. -/
inductive Kind where
  | method
  | function
  | field
  deriving DecidableEq

def Kind.ofCode? (code : Int) : Option Kind :=
  if code = 2 then some .method
  else if code = 3 then some .function
  else if code = 5 then some .field
  else none

def coordinate? (value : Json) : Option UInt32 := do
  let n ← value.asNat?
  if n < 1 <<< 32 then some (UInt32.ofNat n) else none

def position? (value : Json) : Option Position := do
  return ⟨← coordinate? (← value.get? "line"), ← coordinate? (← value.get? "character")⟩

def range? (value : Json) : Option Range := do
  return ⟨← position? (← value.get? "start"), ← position? (← value.get? "end")⟩

def stringMember? (entry : Json) (key : String) : Option String :=
  (entry.get? key).bind Json.asString?

namespace Item

def noLabel : String := "[No Label]"

def edit? (entry : Json) : Option (String × Range) := do
  let edit ← entry.get? "textEdit"
  if !edit.isObject then none
  let text ← stringMember? edit "newText"
  let range ← (← edit.get? "range") |> range?
  return (Snippet.plain text, range)

/-- The text of an entry without an edit, and the word before the cursor as its range. -/
def fallback (entry : Json) (label : String) (cursor : Cursor) : String × Range :=
  (((stringMember? entry "insertText").map Snippet.plain).getD label,
    ⟨cursor.wordStartPosition, cursor.position⟩)

/-- The item that an entry describes. Whatever is missing or of the wrong type has a default. -/
def ofEntry (entry : Json) (cursor : Cursor) : Item :=
  let label := (stringMember? entry "label").getD noLabel
  let (insertText, range) := (edit? entry).getD (fallback entry label cursor)
  { label
    detail := (stringMember? entry "detail").getD ""
    kind := ((entry.get? "kind").bind Json.asInt64?).getD 0
    insertText, range
    sortKey := (stringMember? entry "sortText").getD label }

/-- What makes two entries offers of the same completion. -/
def identity (item : Item) : String × Int := (item.label, item.kind)

def positionJson (p : Position) : Json :=
  .obj [("line", .int p.line.toNat), ("character", .int p.character.toNat)]

def rangeJson (r : Range) : Json :=
  .obj [("start", positionJson r.start), ("end", positionJson r.stop)]

def members (item : Item) : List (String × Json) :=
  [("label", .str item.label), ("detail", .str item.detail), ("kind", .int item.kind),
    ("insert_text", .str item.insertText), ("range", rangeJson item.range),
    ("sort_key", .str item.sortKey)]

def json (item : Item) : Json := .obj item.members

end Item

end LanguageClient.Suggest
