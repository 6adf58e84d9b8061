import LanguageClient.Server.Adapter
import LanguageClient.Server.Supervised

namespace LanguageClient.Workspace

open Server

structure Registry (σ : Type) where
  servers : Language → Option σ := fun _ => none
  active : Option Language := none
  root : Option Path := none

/-- Why a language was not registered. -/
inductive RegistryFault where
  | duplicate (language : Language)
  | unknown (language : Language)
  deriving DecidableEq

def RegistryFault.message : RegistryFault → String
  | duplicate language =>
    "language '" ++ language.name ++ "' already has a registered adapter"
  | unknown language =>
    "language '" ++ language.name ++ "' is not registered with the manager"

namespace Registry

variable {σ : Type} [Adapter σ]

def put (r : Registry σ) (language : Language) (server : σ) : Registry σ :=
  { r with servers := fun asked => if asked = language then some server else r.servers asked }

/-- Puts a server back after something that took nanoseconds, which pass for every other one too. -/
def putAfter (r : Registry σ) (nanos : Nat) (language : Language) (server : σ) : Registry σ :=
  { r with servers := fun asked =>
      if asked = language then some server
      else (r.servers asked).map (Wire.Mailbox.pass nanos) }

/-- Adds a server under the language it reports, unless one is there. -/
def register (r : Registry σ) (server : σ) : Except RegistryFault (Registry σ) :=
  let language := Adapter.language server
  match r.servers language with
  | some _ => .error (.duplicate language)
  | none => .ok (r.put language server)

/-- The registered language of a file. -/
def languageFor? (r : Registry σ) (p : Path) : Option Language :=
  (Language.ofPath? p).filter fun l => (r.servers l).isSome

def select (r : Registry σ) (p : Path) : Bool × Registry σ :=
  match r.languageFor? p with
  | some language => (true, { r with active := some language })
  | none => (false, r)

def activeServer? (r : Registry σ) : Option (Language × σ) := do
  let language ← r.active
  return (language, ← r.servers language)

def isReady (r : Registry σ) (language : Language) : Bool :=
  match r.servers language with
  | some server => Adapter.isReady server
  | none => false

def isActiveReady (r : Registry σ) : Bool :=
  match r.activeServer? with
  | some (_, server) => Adapter.isReady server
  | none => false

def hasReady (r : Registry σ) : Bool := Language.all.any r.isReady

/-- Starts the active server for a workspace, unless it is ready. -/
def start (r : Registry σ) (root : Path) (a : Ambient) : Bool × Registry σ × Ambient :=
  if root.isEmpty then (false, r, a)
  else
    let r := { r with root := some root }
    match r.activeServer? with
    | none => (false, r, a)
    | some (language, server) =>
      if Adapter.isReady server then (true, r, a)
      else
        let (result, server, after) := Adapter.start root server a
        (result.isOk, r.putAfter (after.since a) language server, after)

def overruns (r : Registry σ) (root : Path) (a : Ambient) : Bool :=
  match r.activeServer? with
  | none => false
  | some (_, server) =>
    !root.isEmpty && !Adapter.isReady server && Adapter.overruns root server a

def sendTo (r : Registry σ) (language : Language) (body : Bytes) : Bool × Registry σ :=
  match r.servers language with
  | none => (false, r)
  | some server =>
    match Adapter.send body server with
    | (.ok (), server) => (true, r.put language server)
    | (.error _, server) => (false, r.put language server)

def send (r : Registry σ) (body : Bytes) : Bool × Registry σ :=
  match r.active with
  | some language => r.sendTo language body
  | none => (false, r)

def receive (r : Registry σ) (wait : Duration) (a : Ambient) :
    Option Bytes × Registry σ × Ambient :=
  match r.activeServer? with
  | none => (none, r, a)
  | some (language, server) =>
    let (result, server, after) := Adapter.receive wait server a
    (result.toOption.join, r.putAfter (after.since a) language server, after)

def inbox? (r : Registry σ) (language : Language) : Option Wire.Inbox :=
  (r.servers language).bind Adapter.inbox?

def languageId (r : Registry σ) (p : Path) : String :=
  match r.activeServer? with
  | some (_, server) => Adapter.languageId server p
  | none => "plaintext"

def pass (r : Registry σ) (nanos : Nat) : Registry σ :=
  { r with servers := fun language => (r.servers language).map (Wire.Mailbox.pass nanos) }

/-- Stops every server, one after another. -/
def shutdown (r : Registry σ) (a : Ambient) : Registry σ × Ambient :=
  Language.all.foldl (fun (r, a) language =>
    match r.servers language with
    | some server =>
      let (server, after) := Adapter.stop server a
      (r.putAfter (after.since a) language server, after)
    | none => (r, a)) (r, a)

end Registry

def supervised (host : Host) (config : Config) : Registry Supervised where
  servers language := some (Supervised.ofConfig host config language)

end LanguageClient.Workspace
