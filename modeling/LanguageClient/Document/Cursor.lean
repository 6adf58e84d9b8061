import LanguageClient.Document.Snapshot

namespace LanguageClient.Document

/-- The kind of place at which a completion is wanted. -/
inductive Place where
  | global
  | propertyAccess
  | functionCall
  | tableAccess
  | stringMethod
  | unknown
  deriving DecidableEq, Inhabited

namespace Place

def all : List Place :=
  [global, propertyAccess, functionCall, tableAccess, stringMethod, unknown]

theorem mem_all (p : Place) : p ∈ all := by cases p <;> decide

def name : Place → String
  | global => "global"
  | propertyAccess => "property_access"
  | functionCall => "function_call"
  | tableAccess => "table_access"
  | stringMethod => "string_method"
  | unknown => "unknown"

/-- The kind of place after these bytes, the nearest first: the first one that is neither blank
nor a minus decides. -/
def ofBefore : Bytes → Place
  | [] => global
  | b :: rest =>
    if b = byte ':' then propertyAccess
    else if b = byte '[' then tableAccess
    else if b = byte '(' then functionCall
    else if b = byte '-' || Bytes.isBlank b then ofBefore rest
    else global

def ofOffset (bytes : Bytes) (cursor : Nat) : Place := ofBefore (bytes.take cursor).reverse

end Place

/-- Bytes of a word that follows no dot and no colon. -/
def isWordByte (b : UInt8) : Bool :=
  Bytes.isIdentifier b || b = byte ':' || b = byte '$' || b = byte '#' || b = byte '@'

/-- The length of the word that ends where these bytes, the nearest first, begin. After a dot or a
colon a word is an identifier; elsewhere it may hold `:`, `$`, `#` and `@` as well. -/
def wordLength (before : Bytes) : Nat :=
  let run := before.takeWhile Bytes.isIdentifier
  match (before.dropWhile Bytes.isIdentifier).head? with
  | some b =>
    if b = byte '.' || b = byte ':' then run.length else (before.takeWhile isWordByte).length
  | none => (before.takeWhile isWordByte).length

def wordStart (bytes : Bytes) (cursor : Nat) : Nat :=
  min cursor bytes.length - wordLength (bytes.take cursor).reverse

/-- A resolved position and what stands before it. -/
structure Cursor where
  offset : Nat
  position : Position
  wordStart : Nat
  wordStartPosition : Position
  word : String
  place : Place

namespace Cursor

/-- The offset and position asked for, or those of the document's own cursor when the asked
position does not exist. -/
def locate (s : Snapshot) (line character : UInt32) : Nat × Position :=
  match s.offsetOf? line character with
  | some offset => (offset, ⟨line, character⟩)
  | none => (s.clampedCursor, s.positionOf s.clampedCursor)

def resolve (s : Snapshot) (line character : UInt32) : Cursor :=
  let (offset, position) := locate s line character
  let bytes := s.bytes
  let start := Document.wordStart bytes offset
  { offset, position
    wordStart := start
    wordStartPosition := s.positionOf start
    word := String.ofList (Utf8.decodeLossy ((bytes.take offset).drop start))
    place := .ofOffset bytes offset }

/-- The byte that was typed last. -/
def triggerByte? (c : Cursor) (s : Snapshot) : Option UInt8 := s.byteBefore? c.offset

end Cursor

end LanguageClient.Document
