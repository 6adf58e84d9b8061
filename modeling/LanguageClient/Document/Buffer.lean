import LanguageClient.Document.Snapshot

namespace LanguageClient.Document.Snapshot

/-- The text before a range of bytes and the text after it, if the range is one of whole
characters of the text. -/
def around? (text : String) (start stop : Nat) : Option (List Char × List Char) :=
  if start ≤ stop then do
    let (before, _) ← Utf8.cut? text.toList start
    let (_, after) ← Utf8.cut? text.toList stop
    return (before, after)
  else none

/-- Replaces a range and puts the cursor behind the new text; an improper range changes nothing. -/
def replace (s : Snapshot) (start stop : Nat) (text : String) : Snapshot :=
  match around? s.text start stop with
  | some (before, after) =>
    ofText (String.ofList (before ++ text.toList ++ after)) (start + text.utf8ByteSize)
  | none => s

/-- A document opened at a position, or at its end when the position does not exist. -/
def openAt (text : String) (line character : UInt32) : Snapshot :=
  let s := ofText text 0
  { s with cursor := (s.offsetOf? line character).getD s.size }

end LanguageClient.Document.Snapshot
