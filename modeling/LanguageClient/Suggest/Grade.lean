import LanguageClient.Suggest.Item

namespace LanguageClient.Suggest

open Document (Place)

def occursIn (part : List Char) : List Char → Bool
  | [] => part.isEmpty
  | c :: rest => part.isPrefixOf (c :: rest) || occursIn part rest

def beginsWith (text start : String) : Bool := start.toList.isPrefixOf text.toList

def lower (text : String) : List Char := text.toList.map Char.toLower

/-- The parts of labels that name methods of strings. -/
def stringMethods : List String := ["sub", "find", "gsub", "match", "upper", "lower"]

/-- Labels that no place wants: empty ones, editor commands, and single bytes other than letters. -/
def isNoise (label : String) : Bool :=
  label.isEmpty || beginsWith label "editor.action." ||
    match Utf8.encode label.toList with
    | [b] => !Bytes.isLetter b
    | _ => false

def isRelevant (label : String) (kind : Int) (place : Place) : Bool :=
  !isNoise label &&
    match place with
    | .propertyAccess => Kind.ofCode? kind = some .method || Kind.ofCode? kind = some .field
    | .functionCall => Kind.ofCode? kind = some .method || Kind.ofCode? kind = some .function
    | .stringMethod => stringMethods.any fun part => occursIn part.toList label.toList
    | .global | .tableAccess | .unknown => true

/-- How a label matches the word before the cursor, better matches first. -/
inductive Match where
  | exactStart
  | start
  | inside
  | none
  deriving DecidableEq

/-- How a label matches a word. Only the first kind of match looks at the case. -/
def Match.of (label word : String) : Match :=
  if beginsWith label word then .exactStart
  else if (lower word).isPrefixOf (lower label) then .start
  else if occursIn (lower word) (lower label) then .inside
  else .none

/-- The mark of a match. Every mark sorts before every grade: `!` first, then `#`, then `@`. -/
def Match.mark : Match → List Char
  | exactStart => ['!']
  | start => ['@']
  | inside => ['#']
  | none => []

/-- How well an item suits a place: `A` best, `Z` for no preference. -/
def grade (label : String) (kind : Int) : Place → Char
  | .propertyAccess => match Kind.ofCode? kind with
    | some .method => 'A'
    | some .field => 'B'
    | _ => 'Z'
  | .functionCall => match Kind.ofCode? kind with
    | some .method => 'A'
    | some .function => 'B'
    | _ => 'Z'
  | .global =>
    if label = "function" || label = "local" || label = "game" || label = "workspace" then 'A'
    else if beginsWith label "local " then 'B'
    else if label = "print" then 'C'
    else 'Z'
  | .stringMethod =>
    if label = "sub" || label = "find" then 'A'
    else if label = "gsub" || label = "match" then 'B'
    else 'Z'
  | .tableAccess | .unknown => 'Z'

/-- What goes in front of the server's sort text: the mark of the match, unless there is no word
to match, and the grade. -/
def priority (label : String) (kind : Int) (place : Place) (word : String) : String :=
  let mark := if word.isEmpty then [] else (Match.of label word).mark
  String.ofList (mark ++ [grade label kind place])

namespace Item

def isRelevant (item : Item) (place : Place) : Bool := Suggest.isRelevant item.label item.kind place

def prioritize (place : Place) (word : String) (item : Item) : Item :=
  { item with sortKey := priority item.label item.kind place word ++ item.sortKey }

end Item

end LanguageClient.Suggest
