import LanguageClient.Wire.Message
import LanguageClient.Workspace.Registry
import LanguageClient.Uri

namespace LanguageClient.Workspace

open Server Wire

/-- The last change that was not suppressed. -/
structure LastChange where
  path : Path
  content : String
  time : Nat

structure DocumentSync where
  window : Duration
  last : Option LastChange := none

namespace DocumentSync

def openCall (p : Path) (languageId content : String) : Call where
  method := "textDocument/didOpen"
  params := some (.obj [("textDocument", .obj [
    ("languageId", .str languageId), ("text", .str content), ("uri", .str (Uri.ofPath p)),
    ("version", .int 1)])])

def changeCall (p : Path) (version : Int) (content : String) : Call where
  method := "textDocument/didChange"
  params := some (.obj [
    ("contentChanges", .arr [.obj [("text", .str content)]]),
    ("textDocument", .obj [("uri", .str (Uri.ofPath p)), ("version", .int version)])])

def saveCall (p : Path) (content : Option String) : Call where
  method := "textDocument/didSave"
  params := some (.obj
    ((match content with | some text => [("text", .str text)] | none => [])
      ++ [("textDocument", .obj [("uri", .str (Uri.ofPath p))])]))

def closeCall (p : Path) : Call where
  method := "textDocument/didClose"
  params := some (.obj [("textDocument", .obj [("uri", .str (Uri.ofPath p))])])

variable {σ : Type} [Adapter σ]

/-- Selects the server of a file and starts it if it is not ready, for the workspace served so far
or else for the file's directory. -/
def prepare (p : Path) (r : Registry σ) (a : Ambient) : Bool × Registry σ × Ambient :=
  match r.select p with
  | (false, r) => (false, r, a)
  | (true, r) =>
    if r.isActiveReady then (true, r, a) else r.start (r.root.getD p.directory) a

def overruns (p : Path) (r : Registry σ) (a : Ambient) : Bool :=
  match r.select p with
  | (false, _) => false
  | (true, r) => r.overruns (r.root.getD p.directory) a

def notify (p : Path) (call : Registry σ → Call) (r : Registry σ) (a : Ambient) :
    Bool × Registry σ × Ambient :=
  match prepare p r a with
  | (false, r, a) => (false, r, a)
  | (true, r, a) =>
    let (sent, r) := r.send (call r).body
    (sent, r, a)

def didOpen (p : Path) (content : String) (r : Registry σ) (a : Ambient) :
    Bool × Registry σ × Ambient :=
  notify p (fun r => openCall p (r.languageId p) content) r a

def didSave (p : Path) (content : Option String) (r : Registry σ) (a : Ambient) :
    Bool × Registry σ × Ambient :=
  notify p (fun _ => saveCall p content) r a

def didClose (p : Path) (r : Registry σ) (a : Ambient) : Bool × Registry σ × Ambient :=
  notify p (fun _ => closeCall p) r a

/-- Whether a change at this time repeats the last one within the window. -/
def suppresses (s : DocumentSync) (p : Path) (content : String) (now : Nat) : Bool :=
  match s.last with
  | some last =>
    now - last.time < s.window.toNanos && last.path == p && last.content = content
  | none => false

/-- Tells of a change, unless it is suppressed. Every change that is not counts as the last one,
whether or not it can be sent. -/
def didChange (s : DocumentSync) (p : Path) (version : Int) (content : String) (r : Registry σ)
    (a : Ambient) : Bool × DocumentSync × Registry σ × Ambient :=
  if s.suppresses p content a.now then (false, s, r, a)
  else
    let s := { s with last := some ⟨p, content, a.now⟩ }
    let (sent, r, a) := notify p (fun _ => changeCall p version content) r a
    (sent, s, r, a)

end DocumentSync

end LanguageClient.Workspace
