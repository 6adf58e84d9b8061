import LanguageClient.Proofs.Verdict
import LanguageClient.Server.Scripted

namespace LanguageClient

open Server Wire

def Json.ofChars? (cs : List Char) : Option Json := do
  (← Source.ofTokens? (← Token.ofChars? cs)).value? depthLimit

theorem Json.ofBytes?_encode (cs : List Char) : ofBytes? (Utf8.encode cs) = ofChars? cs := by
  rw [ofBytes?, Utf8.decode?_encode]
  change ofText? (String.ofList cs) = ofChars? cs
  rw [ofText?, Source.ofText?, String.toList_ofList, ofChars?]
  cases Token.ofChars? cs with
  | none => rfl
  | some tokens => rfl

namespace Wire.Inbox

theorem closed_pushAll (inbox : Inbox) (frames : List Bytes) :
    (inbox.pushAll frames).closed = inbox.closed := by
  induction frames generalizing inbox with
  | nil => rfl
  | cons frame rest ih => exact ih (inbox.push frame).2

theorem frames_pushAll {inbox : Inbox} {frames : List Bytes}
    (h : inbox.frames.length + frames.length ≤ inbox.capacity) :
    (inbox.pushAll frames).frames = inbox.frames ++ frames := by
  have hnone : inbox.excess frames.length = 0 := Nat.sub_eq_zero_of_le h
  rw [pushAll_eq (Nat.le_of_add_right_le h), hnone]
  rfl

end Wire.Inbox

namespace Server.Scripted

theorem traffic_eq (left : Nat) (s : Scripted) :
    Mailbox.traffic left s = ⟨s.inbox.frames, s.inbox.closed⟩ := by
  have hdue : Mailbox.due (Mailbox.emptied s) = none := rfl
  have hinbox : Mailbox.inbox s = s.inbox := rfl
  rw [Mailbox.traffic, hdue, hinbox, Traffic.after]
  cases s.inbox.closed with
  | false => simp
  | true => simp

/-- A server that has these frames for the next request with a method, whatever its id. -/
structure Answers (s : Scripted) (method : String) (frames : List Bytes) : Prop where
  ready : s.ready = true
  accepts : s.refusesBodies = false
  offers : s.hidesInbox = false
  opened : s.inbox.closed = false
  fits : frames.length ≤ s.inbox.capacity
  cue : ∃ rest, s.cues = ⟨method, fun _ => frames, false⟩ :: rest

theorem play_of_cue {s : Scripted} {method : String} {frames : Int → List Bytes}
    {rest : List Cue} (h : s.cues = ⟨method, frames, false⟩ :: rest) (id : Int) :
    s.play method id = { s with cues := rest, inbox := s.inbox.pushAll (frames id) } := by
  rw [play, h, takeCue, if_pos rfl]
  rfl

theorem Answers.send {s : Scripted} {method : String} {frames : List Bytes}
    (h : s.Answers method frames) {body : Bytes} {call : Json} {id : Int}
    (hcall : Json.ofBytes? body = some call)
    (hmethod : (call.get? "method").bind Json.asString? = some method)
    (hid : (call.get? "id").bind Json.asInt64? = some id) :
    ∃ sent, Scripted.send body (Mailbox.emptied s) = (.ok (), sent) ∧
      sent.inbox.frames = frames ∧ sent.inbox.closed = false := by
  obtain ⟨rest, hcues⟩ := h.cue
  have htakes : ¬ (!(Mailbox.emptied s).ready || (Mailbox.emptied s).refusesBodies) = true := by
    change ¬ (!s.ready || s.refusesBodies) = true
    rw [h.ready, h.accepts]
    decide
  let asked : Scripted := { Mailbox.emptied s with bodies := body :: s.bodies }
  have hsend : Scripted.send body (Mailbox.emptied s) = (.ok (), asked.play method id) := by
    rw [Scripted.send, if_neg htakes]
    simp only [hcall, hmethod, hid]
    rfl
  have hplay := play_of_cue (s := asked) hcues id
  have hfits : asked.inbox.frames.length + frames.length ≤ asked.inbox.capacity := by
    rw [Nat.add_comm]
    exact h.fits
  refine ⟨_, hsend, ?_, ?_⟩
  · rw [hplay]
    exact Inbox.frames_pushAll hfits
  · rw [hplay]
    exact (Inbox.closed_pushAll asked.inbox frames).trans h.opened

end Server.Scripted

namespace Workspace

open Document

theorem unrelated_encode_iff (id : Int) (cs : List Char) :
    Unrelated id (Utf8.encode cs) ↔
      ∀ body ∈ Json.ofChars? cs,
        (body.get? "method").isSome ∨ (body.get? "id").bind Json.asInt64? ≠ some id := by
  rw [Unrelated, Json.ofBytes?_encode]

theorem traffic?_of_answers {r : Registry Scripted} {request : CompletionRequest}
    {document : Snapshot} {language : Language} {server : Scripted} {frames : List Bytes}
    (budget : PollBudget) (hlanguage : r.languageFor? request.path = some language)
    (hserver : r.servers language = some server)
    (hanswers : server.Answers "textDocument/completion" frames) {call : Json} {id : Int}
    (hcall : Json.ofBytes? (request.call document).body = some call)
    (hmethod : (call.get? "method").bind Json.asString? = some "textDocument/completion")
    (hid : (call.get? "id").bind Json.asInt64? = some id) :
    r.traffic? budget request document = some ⟨frames, false⟩ := by
  obtain ⟨sent, hsend, hframes, hclosed⟩ := hanswers.send hcall hmethod hid
  have haddressee : r.addressee? request.path = some (language, server) := by
    simp only [Registry.addressee?, hlanguage, hserver, Option.bind_eq_bind, Option.bind_some]
    exact if_pos (by
      rw [Bool.and_eq_true]
      exact ⟨hanswers.ready, by
        change (server.ready && !server.hidesInbox) = true
        rw [hanswers.ready, hanswers.offers]
        rfl⟩)
  have hdispatch : r.dispatch? request.path (request.call document).body =
      some (language, sent) := by
    simp only [Registry.dispatch?, haddressee, Option.bind_eq_bind, Option.bind_some]
    rw [show Adapter.send _ (Mailbox.emptied server) = _ from hsend]
  rw [Registry.traffic?, hdispatch, Option.map_some, Scripted.traffic_eq, hframes, hclosed]

end Workspace

end LanguageClient
