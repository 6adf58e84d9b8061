import LanguageClient.Document.Cursor
import LanguageClient.Json.Basic
import LanguageClient.Suggest.Item
import LanguageClient.Wire.Message

namespace LanguageClient.Workspace

open Wire

/-- Bytes whose typing asks for completions by itself. -/
def isTrigger (b : UInt8) : Bool := b = byte '.' || b = byte ':' || b = byte '>'

def triggerJson : Option UInt8 → Json
  | some b =>
    if isTrigger b then
      .obj [("triggerCharacter", .str (String.singleton (Char.ofNat b.toNat))),
        ("triggerKind", .int 2)]
    else .obj [("triggerKind", .int 1)]
  | none => .obj [("triggerKind", .int 1)]

def completionCall (id : Int) (uri : String) (position : Position) (previous : Option UInt8) :
    Call where
  id := some id
  method := "textDocument/completion"
  params := some (.obj [
    ("context", triggerJson previous),
    ("position", .obj [("character", .int position.character.toNat),
      ("line", .int position.line.toNat)]),
    ("textDocument", .obj [("uri", .str uri)])])

end LanguageClient.Workspace
