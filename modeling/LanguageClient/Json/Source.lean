import LanguageClient.Json.Token

namespace LanguageClient.Json

/-- A value as written. -/
inductive Source where
  | keyword (k : Keyword)
  | number (l : NumberLiteral)
  | text (pieces : List Piece)
  | arr (items : List Source)
  | obj (members : List (List Piece × Source))

namespace Source

/-- An array or object that is not closed yet, its contents newest first. -/
inductive Open where
  | arr (items : List Source)
  | obj (members : List (List Piece × Source))
  | member (members : List (List Piece × Source)) (key : List Piece)

/-- What may come next. -/
inductive Want where
  | value
  | valueOrClose
  | key
  | keyOrClose
  | colon
  | commaOrClose
  | done (root : Source)

/-- A tree that is being built: the open containers, innermost first, and what may come next. -/
structure Builder where
  containers : List Open
  want : Want

namespace Builder

def start : Builder := ⟨[], .value⟩

def put? (containers : List Open) (value : Source) : Option Builder :=
  match containers with
  | [] => some ⟨[], .done value⟩
  | .arr items :: rest => some ⟨.arr (value :: items) :: rest, .commaOrClose⟩
  | .member members key :: rest => some ⟨.obj ((key, value) :: members) :: rest, .commaOrClose⟩
  | .obj _ :: _ => none

def begin? (containers : List Open) : Token → Option Builder
  | .keyword k => put? containers (.keyword k)
  | .number l => put? containers (.number l)
  | .text pieces => put? containers (.text pieces)
  | .openArr => some ⟨.arr [] :: containers, .valueOrClose⟩
  | .openObj => some ⟨.obj [] :: containers, .keyOrClose⟩
  | _ => none

def close? : List Open → Token → Option Builder
  | .arr items :: rest, .closeArr => put? rest (.arr items.reverse)
  | .obj members :: rest, .closeObj => put? rest (.obj members.reverse)
  | _, _ => none

def key? : List Open → Token → Option Builder
  | .obj members :: rest, .text pieces => some ⟨.member members pieces :: rest, .colon⟩
  | _, _ => none

def feed? (b : Builder) (t : Token) : Option Builder :=
  match b.want with
  | .value => begin? b.containers t
  | .valueOrClose => (close? b.containers t) <|> begin? b.containers t
  | .key => key? b.containers t
  | .keyOrClose => (close? b.containers t) <|> key? b.containers t
  | .colon => match t with
    | .colon => some { b with want := .value }
    | _ => none
  | .commaOrClose => match b.containers, t with
    | .arr _ :: _, .comma => some { b with want := .value }
    | .obj _ :: _, .comma => some { b with want := .key }
    | containers, t => close? containers t
  | .done _ => none

def root? (b : Builder) : Option Source :=
  match b.want with
  | .done root => some root
  | _ => none

end Builder

def ofTokens? (tokens : List Token) : Option Source := do
  (← tokens.foldlM Builder.feed? Builder.start).root?

/-- The tree of a text that holds one value, with blanks around it. -/
def ofText? (text : String) : Option Source := do
  ofTokens? (← Token.ofChars? text.toList)

def string? : Source → Option String
  | text pieces => (Piece.text? pieces).map String.ofList
  | _ => none

mutual

/-- The value of a tree nested at most `depth` containers deep, its objects in normal form. -/
def value? (depth : Nat) : Source → Option Json
  | .keyword .null => some .null
  | .keyword .true => some (.bool true)
  | .keyword .false => some (.bool false)
  | .number l => l.value?
  | .text pieces => (Piece.text? pieces).map fun cs => .str (String.ofList cs)
  | .arr items => match depth with
    | 0 => none
    | depth + 1 => (values? depth items).map .arr
  | .obj members => match depth with
    | 0 => none
    | depth + 1 => (members? depth members).map fun ms => .obj (sortMembers ms)

def values? (depth : Nat) : List Source → Option (List Json)
  | [] => some []
  | item :: rest => do return (← value? depth item) :: (← values? depth rest)

def members? (depth : Nat) : List (List Piece × Source) → Option (List (String × Json))
  | [] => some []
  | (key, value) :: rest => do
    let key ← Piece.text? key
    let value ← value? depth value
    return (String.ofList key, value) :: (← members? depth rest)

end

end Source

end LanguageClient.Json
