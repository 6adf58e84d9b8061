import LanguageClient.Server.Adapter
import LanguageClient.Server.Child
import LanguageClient.Server.Host

namespace LanguageClient.Server

open Wire

/-- What is known about the process. -/
inductive Phase where
  | uninitialized
  | initializing
  | ready (child : Child)
  | failed (reason : String)

namespace Phase

def name : Phase → String
  | uninitialized => "uninitialized"
  | initializing => "initializing"
  | ready _ => "ready"
  | failed _ => "failed"

end Phase

/-- The server of a language on a host. -/
structure Supervised where
  language : Language
  host : Host
  launch : Launch
  handshake : PollBudget
  inboxCapacity : Nat
  grace : Duration
  phase : Phase := .uninitialized

namespace Supervised

def ofConfig (host : Host) (config : Config) (language : Language) : Supervised :=
  { language, host
    launch := (defaultLaunch host.installDir host.isFile language).overriddenBy
      (config.servers language)
    handshake := config.handshake
    inboxCapacity := config.inboxCapacity.toNat
    grace := config.shutdownGrace }

/-- The process, while it is ready and its output has not ended. -/
def running? (s : Supervised) : Option Child :=
  match s.phase with
  | .ready child => if child.isListening then some child else none
  | _ => none

def pid? (s : Supervised) : Option Nat :=
  match s.phase with
  | .ready child => some child.pid
  | _ => none

/-- Asks a process to end, and waits for that as long as it may take at most. -/
def retire (child : Child) (grace : Duration) (a : Ambient) : Ambient :=
  let (id, a) := a.drawId
  let (_, child) := child.write { id := some id, method := "shutdown" : Call }.body
  let (_, child) := child.write { method := "exit" : Call }.body
  (a.pass (child.hangUp.ending grace.toNanos)).note (.retired child.pid)

def stop (s : Supervised) (a : Ambient) : Supervised × Ambient :=
  let idle := { s with phase := .uninitialized }
  match s.phase with
  | .ready child => (idle, retire child s.grace a)
  | _ => (idle, a)

def launchFault (l : Launch) : Host.Refusal → Fault
  | .notFound => .binaryNotFound l.command.text
  | .failed => .spawnFailed ("spawning " ++ l.command.text)

/-- Ends a connection attempt after the handshake. A process that failed it is shut down. -/
def finish (grace : Duration) (a : Ambient) :
    Except Fault Unit × Nat × Child → Except Fault Child × Ambient
  | (.ok (), nanos, child) => (.ok child, a.pass nanos)
  | (.error fault, nanos, child) => (.error fault, retire child grace (a.pass nanos))

def connect (s : Supervised) (workspace : Path) (a : Ambient) :
    Except Fault Child × Ambient :=
  match s.host.launch s.launch with
  | .error refusal => (.error (launchFault s.launch refusal), a)
  | .ok program =>
    finish s.grace (a.note (.launched a.freshPid))
      (Server.handshake 0 (some workspace) s.handshake
        (Child.ofProgram a.freshPid program s.inboxCapacity))

def adopt (s : Supervised) :
    Except Fault Child × Ambient → Except Fault Unit × Supervised × Ambient
  | (.ok child, a) => (.ok (), { s with phase := .ready child }, a)
  | (.error fault, a) => (.error fault, { s with phase := .failed fault.message }, a)

/-- Makes the server ready, unless it is so already or the start overruns. A process whose output
ended is replaced. -/
def start (workspace : Path) (s : Supervised) (a : Ambient) :
    Except Fault Unit × Supervised × Ambient :=
  if s.running?.isSome then (.ok (), s, a)
  else
    let (s, a) := s.stop a
    let s := { s with phase := .initializing }
    s.adopt (s.connect workspace a)

/-- What a start that overruns leaves behind: a process that was launched and is not held. -/
def abandon (s : Supervised) (a : Ambient) : Supervised × Ambient :=
  let (s, a) := s.stop a
  ({ s with phase := .initializing }, a.note (.launched a.freshPid))

/-- Whether a start gets as far as waiting for the handshake, and the clock ends before that. -/
def overruns (workspace : Path) (s : Supervised) (a : Ambient) : Bool :=
  s.running?.isNone &&
    match s.host.launch s.launch with
    | .error _ => false
    | .ok program =>
      let (_, a) := s.stop a
      let child := Child.ofProgram a.freshPid program s.inboxCapacity
      (child.write (introduction 0 (some workspace)).body).1.isOk && !a.canWait s.handshake.total

def send (body : Bytes) (s : Supervised) : Except Fault Unit × Supervised :=
  match s.running? with
  | none => (.error .notReady, s)
  | some child =>
    match child.write body with
    | (.ok (), child) => (.ok (), { s with phase := .ready child })
    | (.error fault, child) => (.error (.transport fault), { s with phase := .ready child })

instance : Adapter Supervised where
  language := language
  start := start
  overruns := overruns
  isReady s := s.running?.isSome
  send := send
  offersInbox s := s.running?.isSome
  inbox s :=
    match s.phase with
    | .ready child => child.inbox
    | _ => (Inbox.ofCapacity 1).close
  setInbox inbox s :=
    match s.phase with
    | .ready child => { s with phase := .ready { child with inbox } }
    | _ => s
  due s :=
    match s.phase with
    | .ready child => child.due
    | _ => none
  pass nanos s :=
    match s.phase with
    | .ready child => { s with phase := .ready (child.pass nanos) }
    | _ => s
  languageId s p := Server.languageId s.language p
  stop := stop

end Supervised

end LanguageClient.Server
