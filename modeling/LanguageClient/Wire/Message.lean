import LanguageClient.Json.Reader
import LanguageClient.Json.Writer

namespace LanguageClient.Wire

/-- A body that is sent: a request when it has an id, a notification when it has none. -/
structure Call where
  id : Option Int := none
  method : String
  params : Option Json := none

namespace Call

def json (c : Call) : Json :=
  .obj ([("jsonrpc", .str "2.0")]
    ++ (match c.id with | some id => [("id", .int id)] | none => [])
    ++ [("method", .str c.method)]
    ++ (match c.params with | some params => [("params", params)] | none => []))

def body (c : Call) : Bytes := c.json.bytes

end Call

structure ServerFault where
  code : Int
  message : String
  data : Option Json

structure Response where
  version : String
  id : Option Int
  result : Option Json
  error : Option ServerFault

inductive Message where
  | response (r : Response)
  | request (id : Json) (method : String)
  | notification (method : String)

/-- The fields of a record by name. It is written as an object, whose other members are ignored,
or as an array of its fields in order. -/
def fields? (names : List String) : Json → Option (String → Option Json)
  | .obj members => some fun name => members.lookup name
  | .arr items =>
    if items.length ≤ names.length then some fun name => (names.zip items).lookup name else none
  | _ => none

def optional? {α : Type} (read? : Json → Option α) : Option Json → Option (Option α)
  | none | some .null => some none
  | some value => (read? value).map some

def ServerFault.ofJson? (value : Json) : Option ServerFault := do
  let field ← fields? ["code", "message", "data"] value
  return {
    code := ← (← field "code").asInt64?
    message := ← (← field "message").asString?
    data := ← optional? some (field "data") }

namespace Response

def ofJson? (value : Json) : Option Response := do
  let field ← fields? ["jsonrpc", "id", "result", "error"] value
  return {
    version := ← match field "jsonrpc" with
      | some version => version.asString?
      | none => some ""
    id := ← optional? Json.asInt64? (field "id")
    result := ← optional? some (field "result")
    error := ← optional? ServerFault.ofJson? (field "error") }

end Response

namespace Message

/-- Sorts a body by its members: with a method it is a request if it has an id and a notification
if not; without one it has to be a response. -/
def ofJson? (value : Json) : Option Message :=
  match (value.get? "method").bind Json.asString?, value.get? "id" with
  | some method, some .null => some (.notification method)
  | some method, some id => some (.request id method)
  | some method, none => some (.notification method)
  | none, _ => (Response.ofJson? value).map .response

def ofBytes? (body : Bytes) : Option Message := do
  ofJson? (← Json.ofBytes? body)

def answeredId? : Message → Option Int
  | response r => r.id
  | _ => none

end Message

end LanguageClient.Wire
