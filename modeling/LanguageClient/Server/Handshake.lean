import LanguageClient.Server.Fault
import LanguageClient.Uri
import LanguageClient.Wire.Await
import LanguageClient.Wire.Message
import LanguageClient.Wire.Sink

namespace LanguageClient.Server

open Wire

/-- A connection to a server: frames are written to it and arrive in its inbox. -/
class Link (κ : Type) extends Mailbox κ where
  write : Bytes → κ → Except Wire.Fault Unit × κ

/-- A pipe and an inbox that nobody fills. -/
instance : Link (Sink × Inbox) where
  write body link :=
    let (result, sink) := link.1.writeFrame body
    (result, (sink, link.2))
  inbox link := link.2
  setInbox inbox link := (link.1, inbox)
  due _ := none
  pass _ link := link

def introductionId : Int := 1

def capabilities : Json :=
  let markup := Json.arr [.str "markdown", .str "plaintext"]
  .obj [
    ("general", .obj [("positionEncodings", .arr [.str "utf-8"])]),
    ("textDocument", .obj [
      ("completion", .obj [
        ("completionItem",
          .obj [("documentationFormat", markup), ("snippetSupport", .bool true)]),
        ("contextSupport", .bool true)]),
      ("hover", .obj [("contentFormat", markup)]),
      ("synchronization", .obj [("didSave", .bool true)])])]

/-- The name of a workspace: that of its directory, or all of it if it has none. -/
def workspaceName (root : Path) : String :=
  match root.fileName? with
  | some name => String.ofList name
  | none => root.text

/-- The request with which the client introduces itself, as a process with this number. -/
def introduction (process : Nat) (workspace : Option Path) : Call where
  id := some introductionId
  method := "initialize"
  params := some (.obj [
    ("capabilities", capabilities),
    ("positionEncoding", .str "utf-8"),
    ("processId", .int process),
    ("rootUri", match workspace with
      | some root => .str (Uri.ofPath root)
      | none => .null),
    ("workspaceFolders", match workspace with
      | some root =>
        .arr [.obj [("name", .str (workspaceName root)), ("uri", .str (Uri.ofPath root))]]
      | none => .null)])

def confirmation : Call where
  method := "initialized"
  params := some (.obj [])

/-- What a frame says about the introduction: it was refused, or it was accepted, or the frame is
about something else or has neither an error nor a result. -/
def verdict? (frame : Bytes) : Option (Except ServerFault Unit) :=
  match Message.ofBytes? frame with
  | some (.response r) =>
    if r.id = some introductionId then
      match r.error, r.result with
      | some fault, _ => some (.error fault)
      | none, some _ => some (.ok ())
      | none, none => none
    else none
  | _ => none

section

variable {κ : Type} [Link κ]

def writeThen (body : Bytes) (nanos : Nat) (next : κ → Except Fault Unit × Nat × κ) (link : κ) :
    Except Fault Unit × Nat × κ :=
  match Link.write body link with
  | (.error fault, link) => (.error (.transport fault), nanos, link)
  | (.ok (), link) => next link

def conclude (attempts : Nat) :
    Awaited (Except ServerFault Unit) × Nat × κ → Except Fault Unit × Nat × κ
  | (.timedOut, nanos, link) => (.error (.handshakeTimeout attempts), nanos, link)
  | (.closed, nanos, link) => (.error .processExited, nanos, link)
  | (.found (.error fault), nanos, link) =>
    (.error (.refused fault.code fault.message), nanos, link)
  | (.found (.ok ()), nanos, link) =>
    writeThen confirmation.body nanos (fun link => (.ok (), nanos, link)) link

/-- Performs the handshake on a connection, and says how many nanoseconds that took. -/
def handshake (process : Nat) (workspace : Option Path) (budget : PollBudget) (link : κ) :
    Except Fault Unit × Nat × κ :=
  writeThen (introduction process workspace).body 0
    (fun link => conclude budget.attempts.toNat (Mailbox.await verdict? budget link)) link

theorem writeThen_of_ok {body : Bytes} {link after : κ} (h : Link.write body link = (.ok (), after))
    (nanos : Nat) (next : κ → Except Fault Unit × Nat × κ) :
    writeThen body nanos next link = next after := by
  rw [writeThen, h]

end

end LanguageClient.Server
