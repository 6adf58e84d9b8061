import LanguageClient.Json.Reader
import LanguageClient.Server.Adapter
import LanguageClient.Server.Launch

namespace LanguageClient.Server

/-- What a scripted server does when a request with this method comes: frames arrive, which may
depend on the request's id, and it may close its inbox. -/
structure Cue where
  method : String
  frames : Int → List Bytes
  closes : Bool := false

structure Scripted where
  language : Language
  inbox : Wire.Inbox
  ready : Bool := false
  failingStarts : Nat := 0
  refusesBodies : Bool := false
  hidesInbox : Bool := false
  cues : List Cue := []
  bodies : List Bytes := []
  roots : List Path := []
  stops : Nat := 0

namespace Scripted

def takeCue (method : String) : List Cue → Option (Cue × List Cue)
  | [] => none
  | cue :: rest =>
    if cue.method = method then some (cue, rest)
    else (takeCue method rest).map fun (found, others) => (found, cue :: others)

def play (s : Scripted) (method : String) (id : Int) : Scripted :=
  match takeCue method s.cues with
  | none => s
  | some (cue, cues) =>
    let inbox := s.inbox.pushAll (cue.frames id)
    { s with cues, inbox := if cue.closes then inbox.close else inbox }

/-- Takes a body, which must be JSON, and plays the cue of a request. -/
def send (body : Bytes) (s : Scripted) : Except Fault Unit × Scripted :=
  if !s.ready || s.refusesBodies then (.error .notReady, s)
  else
    let s := { s with bodies := body :: s.bodies }
    match Json.ofBytes? body with
    | none => (.error (.codec "the body is no JSON"), s)
    | some call =>
      match (call.get? "method").bind Json.asString?, (call.get? "id").bind Json.asInt64? with
      | some method, some id => (.ok (), s.play method id)
      | _, _ => (.ok (), s)

instance : Adapter Scripted where
  language := language
  start root s a :=
    let s := { s with roots := root :: s.roots }
    if 0 < s.failingStarts then
      (.error .notReady, { s with failingStarts := s.failingStarts - 1 }, a)
    else (.ok (), { s with ready := true }, a)
  isReady := ready
  send := send
  offersInbox s := s.ready && !s.hidesInbox
  inbox := inbox
  setInbox inbox s := { s with inbox }
  due _ := none
  pass _ s := s
  languageId s p := Server.languageId s.language p
  stop s a := ({ s with ready := false, stops := s.stops + 1 }, a)

end Scripted

end LanguageClient.Server
