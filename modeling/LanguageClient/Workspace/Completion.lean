import LanguageClient.Document.Buffer
import LanguageClient.Suggest.Menu
import LanguageClient.Wire.Await
import LanguageClient.Workspace.Pending
import LanguageClient.Workspace.Registry
import LanguageClient.Workspace.Trigger
import LanguageClient.Uri

namespace LanguageClient.Workspace

open Document Server Suggest Wire

/-- A client's completion: the menu, the requests awaited, and the limits. -/
structure Completion where
  budget : PollBudget
  limit : Nat
  menu : Menu := {}
  pending : Pending := {}

/-- The call that a request for a document is sent as. -/
def CompletionRequest.call (request : CompletionRequest) (document : Snapshot) : Wire.Call :=
  let cursor := Cursor.resolve document request.line request.character
  completionCall request.id (Uri.ofPath request.path) cursor.position
    (cursor.triggerByte? document)

/-- What a reply says: that the request failed, or which entries it offers. -/
inductive Reply where
  | failed
  | entries (offered : List Json)

/-- What a body that answers a request says. -/
def Reply.ofJson (body : Json) : Reply :=
  match body.get? "error" with
  | some _ => .failed
  | none =>
    match (body.get? "result").bind entries? with
    | some offered => .entries offered
    | none => .failed

namespace Completion

def ofConfig (config : Config) : Completion where
  budget := config.completion
  limit := config.maxCompletions.toNat

/-- Whether a body answers the request with an id: it is no call and has this id. -/
def answers (id : Int) (body : Json) : Bool :=
  (body.get? "method").isNone && (body.get? "id").bind Json.asInt64? = some id

def answer? (id : Int) (frame : Bytes) : Option Json :=
  (Json.ofBytes? frame).filter (answers id)

variable {σ : Type} [Adapter σ]

/-- Sends a request to the server of its file. What has arrived before is thrown away, and the
request counts as pending from before it is sent. -/
def send (c : Completion) (request : CompletionRequest) (body : Bytes) (r : Registry σ) :
    Option Language × Completion × Registry σ :=
  match r.languageFor? request.path with
  | none => (none, c, r)
  | some language =>
    match r.servers language with
    | none => (none, c, r)
    | some server =>
      if !Adapter.isReady server || !Adapter.offersInbox server then (none, c, r)
      else
        let (_, inbox) := (Mailbox.inbox server).drain
        let r := r.put language (Mailbox.setInbox inbox server)
        let c := { c with pending := c.pending.insert request }
        match r.sendTo language body with
        | (true, r) => (some language, c, r)
        | (false, r) => (none, { c with pending := (c.pending.take request.id).2 }, r)

def apply (c : Completion) (request : CompletionRequest) (document : Snapshot) :
    Reply → Outcome × Completion
  | .failed => (.failed, { c with menu := c.menu.clear })
  | .entries entries =>
    let cursor := Cursor.resolve document request.line request.character
    let ranked := rank entries cursor c.limit
    (.resolved ranked.items.length, { c with menu := c.menu.publish ranked })

/-- Waits for the reply of a language's server to a request that was sent. -/
def awaitReply (c : Completion) (request : CompletionRequest) (language : Language)
    (document : Snapshot) (r : Registry σ) (a : Ambient) :
    Outcome × Completion × Registry σ × Ambient :=
  match r.servers language with
  | none => (.failed, c, r, a)
  | some server =>
    let (awaited, nanos, server) := Mailbox.await (answer? request.id) c.budget server
    let r := r.putAfter nanos language server
    let a := a.pass nanos
    let c := { c with pending := (c.pending.take request.id).2 }
    match awaited with
    | .found body =>
      let (outcome, c) := c.apply request document (.ofJson body)
      (outcome, c, r, a)
    | .timedOut => (.timedOut, c, r, a)
    | .closed => (.failed, { c with menu := c.menu.clear }, r, a)

/-- Carries one request out and says how it ended, if it does not overrun. The document is read
once more when the reply has come. -/
def process (c : Completion) (request : CompletionRequest) (document : Snapshot) (r : Registry σ)
    (a : Ambient) (later : Snapshot := document) : Outcome × Completion × Registry σ × Ambient :=
  match c.send request (request.call document).body r with
  | (none, c, r) => (.dropped, c, r, a)
  | (some language, c, r) => c.awaitReply request language later r a

/-- Whether a request breaks off: it is sent, and the wait for its reply ends later than the clock
can show. -/
def overruns (c : Completion) (request : CompletionRequest) (document : Snapshot)
    (r : Registry σ) (a : Ambient) : Bool :=
  (c.send request (request.call document).body r).1.isSome && !a.canWait c.budget.total

/-- Carries one request out and settles it. -/
def settle (c : Completion) (request : CompletionRequest) (document : Snapshot) (r : Registry σ)
    (a : Ambient) (later : Snapshot := document) : Completion × Registry σ × Ambient :=
  let (outcome, c, r, a) := c.process request document r a later
  ({ c with menu := c.menu.settle request.id outcome }, r, a)

/-- The bytes of a document that a range of positions stands for. A range that does not fit the
document stands for the cursor. -/
def span (document : Snapshot) (range : Range) : Nat × Nat :=
  match document.offsetOf? range.start.line range.start.character,
      document.offsetOf? range.stop.line range.stop.character with
  | some start, some stop =>
    if start ≤ stop then (start, stop) else (document.clampedCursor, document.clampedCursor)
  | _, _ => (document.clampedCursor, document.clampedCursor)

/-- The edit that puts the selected item into a document. -/
structure Edit where
  start : Nat
  stop : Nat
  text : String
  deriving DecidableEq

/-- Takes the selected item: the edit it asks for, and the menu hidden. -/
def accept (c : Completion) (document : Snapshot) : Option (Edit × Completion) := do
  let item ← c.menu.selected?
  let (start, stop) := span document item.range
  return (⟨start, stop, item.insertText⟩, { c with menu := c.menu.dismiss })

inductive Demand where
  | replace (edit : Edit)
  | markChanged
  deriving DecidableEq

/-- Puts the selected item into a document, and says whether there was one. The document has to
carry an edit out before it counts as changed. -/
def acceptSelected (c : Completion) (document : Snapshot) : Bool × List Demand × Completion :=
  match c.accept document with
  | some (edit, c) => (true, [.replace edit, .markChanged], c)
  | none => (false, [], c)

def select (c : Completion) (index : Nat) : Bool × Completion :=
  let (selected, menu) := c.menu.select index
  (selected, { c with menu })

def dismiss (c : Completion) : Completion := { c with menu := c.menu.dismiss }

end Completion

end LanguageClient.Workspace
