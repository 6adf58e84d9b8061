import LanguageClient.Json.Source
import LanguageClient.Text.Utf8

namespace LanguageClient.Json

/-- The deepest nesting of arrays and objects that is read. -/
def depthLimit : Nat := 127

/-- The value that a text holds, its objects in normal form. -/
def ofText? (text : String) : Option Json := do
  (← Source.ofText? text).value? depthLimit

def ofBytes? (bytes : Bytes) : Option Json := do
  ofText? (← Utf8.decode? bytes)

end LanguageClient.Json
