import LanguageClient.Proofs.Waiting
import LanguageClient.Workspace.Completion

namespace LanguageClient.Workspace

open Document Server Suggest Wire

/-- A frame that does not answer the request with an id: it is no JSON, it has a method, or its id
is not this integer. -/
def Unrelated (id : Int) (frame : Bytes) : Prop :=
  ∀ body ∈ Json.ofBytes? frame,
    (body.get? "method").isSome ∨ (body.get? "id").bind Json.asInt64? ≠ some id

instance (id : Int) : DecidablePred (Unrelated id) := fun frame =>
  inferInstanceAs (Decidable (∀ body ∈ Json.ofBytes? frame, _))

/-- The first frame of a list that is not unrelated to a request. -/
def firstRelated? (id : Int) (frames : List Bytes) : Option Bytes :=
  frames.find? fun frame => ¬ Unrelated id frame

theorem firstRelated?_cons_of_unrelated {id : Int} {frame : Bytes} (h : Unrelated id frame)
    (rest : List Bytes) : firstRelated? id (frame :: rest) = firstRelated? id rest :=
  List.find?_cons_of_neg (by simpa using h)

theorem firstRelated?_cons_of_related {id : Int} {frame : Bytes} (h : ¬ Unrelated id frame)
    (rest : List Bytes) : firstRelated? id (frame :: rest) = some frame :=
  List.find?_cons_of_pos (by simpa using h)

namespace Completion

theorem answers_eq_false_iff (id : Int) (body : Json) :
    answers id body = false ↔
      (body.get? "method").isSome ∨ (body.get? "id").bind Json.asInt64? ≠ some id := by
  rw [answers, Bool.and_eq_false_iff, decide_eq_false_iff_not]
  cases body.get? "method" with
  | none => simp
  | some method => simp

theorem answer?_of_unrelated {id : Int} {frame : Bytes} (h : Unrelated id frame) :
    answer? id frame = none := by
  rw [answer?, Option.filter_eq_none_iff]
  intro body hbody
  rw [(answers_eq_false_iff id body).2 (h body hbody)]
  exact Bool.false_ne_true

theorem answer?_of_related {id : Int} {frame : Bytes} (h : ¬ Unrelated id frame) :
    ∃ body, Json.ofBytes? frame = some body ∧ answer? id frame = some body := by
  cases hbody : Json.ofBytes? frame with
  | none => exact absurd (by simp [Unrelated, hbody]) h
  | some body =>
    have hanswers : answers id body = true := by
      rw [← Bool.not_eq_false, answers_eq_false_iff]
      intro hunrelated
      exact h (by simpa [Unrelated, hbody] using hunrelated)
    exact ⟨body, rfl, by rw [answer?, hbody, Option.filter_some, if_pos hanswers]⟩

theorem findSome?_answer? (id : Int) (frames : List Bytes) :
    frames.findSome? (answer? id) = (firstRelated? id frames).bind Json.ofBytes? := by
  induction frames with
  | nil => rfl
  | cons frame rest ih =>
    rw [List.findSome?_cons]
    by_cases h : Unrelated id frame
    · rw [answer?_of_unrelated h, firstRelated?_cons_of_unrelated h]
      exact ih
    · obtain ⟨body, hbody, hanswer⟩ := answer?_of_related h
      rw [hanswer, firstRelated?_cons_of_related h]
      exact hbody.symm

end Completion

theorem Registry.put_servers {σ : Type} (r : Registry σ) (language : Language) (server : σ) :
    (r.put language server).servers language = some server := if_pos rfl

section

variable {σ : Type} [Adapter σ]

/-- The server of a file, while it takes requests. -/
def Registry.addressee? (r : Registry σ) (p : Path) : Option (Language × σ) := do
  let language ← r.languageFor? p
  let server ← r.servers language
  if Adapter.isReady server && Adapter.offersInbox server then some (language, server) else none

/-- The server of a file after it was sent a body with nothing left to read, if that succeeds. -/
def Registry.dispatch? (r : Registry σ) (p : Path) (body : Bytes) : Option (Language × σ) := do
  let (language, server) ← r.addressee? p
  match Adapter.send body (Mailbox.emptied server) with
  | (.ok (), server) => some (language, server)
  | (.error _, _) => none

theorem Registry.sendTo_put (r : Registry σ) (language : Language) (server : σ) (body : Bytes) :
    (r.put language server).sendTo language body =
      match Adapter.send body server with
      | (.ok (), sent) => (true, (r.put language server).put language sent)
      | (.error _, sent) => (false, (r.put language server).put language sent) := by
  cases hsend : Adapter.send body server with
  | mk result sent =>
    cases result with
    | ok => simp only [sendTo, put_servers, hsend]
    | error fault => simp only [sendTo, put_servers, hsend]

namespace Completion

theorem send_eq (c : Completion) (request : CompletionRequest) (body : Bytes) (r : Registry σ) :
    c.send request body r =
      match r.addressee? request.path with
      | none => (none, c, r)
      | some (language, server) =>
        let emptied := r.put language (Mailbox.emptied server)
        let pending := c.pending.insert request
        match Adapter.send body (Mailbox.emptied server) with
        | (.ok (), sent) => (some language, { c with pending }, emptied.put language sent)
        | (.error _, sent) =>
          (none, { c with pending := (pending.take request.id).2 }, emptied.put language sent) := by
  rw [send, Registry.addressee?]
  cases r.languageFor? request.path with
  | none => rfl
  | some language =>
    simp only [Option.bind_eq_bind, Option.bind_some]
    cases r.servers language with
    | none => rfl
    | some server =>
      simp only [Option.bind_some]
      cases hready : Adapter.isReady server && Adapter.offersInbox server with
      | false =>
        rw [← Bool.not_and, hready]
        rfl
      | true =>
        have hsendTo := Registry.sendTo_put r language (Mailbox.emptied server) body
        rw [← Bool.not_and, hready, if_pos rfl, if_neg (by decide)]
        dsimp only
        rw [show Mailbox.setInbox (Mailbox.inbox server).drain.2 server = Mailbox.emptied server
          from rfl, hsendTo]
        cases Adapter.send body (Mailbox.emptied server) with
        | mk result sent =>
          cases result with
          | ok => rfl
          | error fault => rfl

theorem send_of_dispatch?_none {c : Completion} {request : CompletionRequest} {body : Bytes}
    {r : Registry σ} (h : r.dispatch? request.path body = none) :
    ∃ pending r', c.send request body r = (none, { c with pending }, r') := by
  rw [Registry.dispatch?] at h
  rw [send_eq]
  cases ha : r.addressee? request.path with
  | none => exact ⟨c.pending, r, rfl⟩
  | some found =>
    obtain ⟨language, server⟩ := found
    simp only [ha, Option.bind_eq_bind, Option.bind_some] at h ⊢
    cases hs : Adapter.send body (Mailbox.emptied server) with
    | mk result sent =>
      cases result with
      | ok => simp [hs] at h
      | error fault => exact ⟨_, _, rfl⟩

theorem send_of_dispatch?_some {c : Completion} {request : CompletionRequest} {body : Bytes}
    {r : Registry σ} {language : Language} {server : σ}
    (h : r.dispatch? request.path body = some (language, server)) :
    ∃ r', c.send request body r =
        (some language, { c with pending := c.pending.insert request }, r') ∧
      r'.servers language = some server := by
  rw [Registry.dispatch?] at h
  rw [send_eq]
  cases ha : r.addressee? request.path with
  | none => simp [ha] at h
  | some found =>
    obtain ⟨addressed, waiting⟩ := found
    simp only [ha, Option.bind_eq_bind, Option.bind_some] at h ⊢
    cases hs : Adapter.send body (Mailbox.emptied waiting) with
    | mk result sent =>
      cases result with
      | error fault => simp [hs] at h
      | ok =>
        simp only [hs] at h
        cases h
        exact ⟨_, rfl, Registry.put_servers _ _ _⟩

end Completion

end

/-- What decides how a request ends. -/
inductive Verdict where
  | unsent
  | reply (frame : Bytes)
  | closed
  | silence
  deriving DecidableEq

/-- What decides about a request when this traffic comes after it was sent. -/
def Verdict.ofTraffic (id : Int) (t : Traffic) : Verdict :=
  match firstRelated? id t.frames with
  | some frame => .reply frame
  | none => if t.closed then .closed else .silence

/-- What arrives after a request for a document was sent, if it can be sent. -/
def Registry.traffic? {σ : Type} [Adapter σ] (r : Registry σ) (budget : PollBudget)
    (request : CompletionRequest) (document : Snapshot) : Option Traffic :=
  (r.dispatch? request.path (request.call document).body).map fun sent =>
    Mailbox.traffic budget.total.toNanos sent.2

def Registry.heard? {σ : Type} [Adapter σ] (r : Registry σ) (budget : PollBudget)
    (request : CompletionRequest) (document : Snapshot) : Option Traffic :=
  (r.dispatch? request.path (request.call document).body).map fun sent =>
    Mailbox.arrivals budget sent.2

theorem Registry.heard?_eq_traffic? {σ : Type} [Adapter σ] (r : Registry σ)
    {budget : PollBudget} (h : budget.total.isZero = false) (request : CompletionRequest)
    (document : Snapshot) :
    r.heard? budget request document = r.traffic? budget request document := by
  rw [heard?, traffic?]
  apply congrArg (Option.map · _)
  funext sent
  rw [Mailbox.arrivals, h, if_neg Bool.false_ne_true]

def Verdict.ofTraffic? (id : Int) : Option Traffic → Verdict
  | some t => .ofTraffic id t
  | none => .unsent

/-- The menu that a verdict about a request leaves behind. -/
def Verdict.conclude (limit : Nat) (request : CompletionRequest) (document : Snapshot)
    (menu : Menu) : Verdict → Menu
  | .unsent => menu.settle request.id .dropped
  | .silence => menu.settle request.id .timedOut
  | .closed => menu.clear.settle request.id .failed
  | .reply frame =>
    match (Json.ofBytes? frame).map Reply.ofJson with
    | some (.entries entries) =>
      let ranked := rank entries (Cursor.resolve document request.line request.character) limit
      (menu.publish ranked).settle request.id (.resolved ranked.items.length)
    | _ => menu.clear.settle request.id .failed

namespace Completion

theorem ofBytes?_firstRelated? {id : Int} {frames : List Bytes} {frame : Bytes}
    (h : firstRelated? id frames = some frame) : ∃ body, Json.ofBytes? frame = some body := by
  have hrelated : ¬ Unrelated id frame := by simpa using List.find?_some h
  obtain ⟨body, hbody, _⟩ := answer?_of_related hrelated
  exact ⟨body, hbody⟩

def finish (c : Completion) (request : CompletionRequest) (document : Snapshot) :
    Awaited Json → Outcome × Completion
  | .found body => c.apply request document (.ofJson body)
  | .timedOut => (.timedOut, c)
  | .closed => (.failed, { c with menu := c.menu.clear })

theorem finish_awaited (c : Completion) (request : CompletionRequest) (document : Snapshot)
    (t : Traffic) :
    let ended := c.finish request document (t.awaited (answer? request.id))
    { ended.2 with menu := ended.2.menu.settle request.id ended.1 } =
      { c with
        menu := (Verdict.ofTraffic request.id t).conclude c.limit request document c.menu } := by
  rw [Traffic.awaited, findSome?_answer?, Verdict.ofTraffic]
  cases hfirst : firstRelated? request.id t.frames with
  | none =>
    cases t.closed with
    | false => rfl
    | true => rfl
  | some frame =>
    obtain ⟨body, hbody⟩ := ofBytes?_firstRelated? hfirst
    simp only [Option.bind_some, hbody, Verdict.conclude, Option.map_some, finish]
    cases Reply.ofJson body with
    | failed => rfl
    | entries entries => rfl

section

variable {σ : Type} [Adapter σ]

theorem awaitReply_eq {c : Completion} {request : CompletionRequest} {language : Language}
    (document : Snapshot) {r : Registry σ} (a : Ambient) {server after : σ}
    {awaited : Awaited Json} {nanos : Nat} (hserver : r.servers language = some server)
    (hwait : Mailbox.await (answer? request.id) c.budget server = (awaited, nanos, after)) :
    c.awaitReply request language document r a =
      let ended := { c with pending := (c.pending.take request.id).2 }.finish request document
        awaited
      (ended.1, ended.2, r.putAfter nanos language after, a.pass nanos) := by
  rw [awaitReply, hserver]
  -- The budget is hidden, or checking the proof would compute with its nanoseconds.
  obtain ⟨await, hawait⟩ : ∃ await : σ → Awaited Json × Nat × σ,
      Mailbox.await (answer? request.id) c.budget = await := ⟨_, rfl⟩
  rw [hawait] at hwait ⊢
  simp only [hwait]
  cases awaited with
  | found body => rfl
  | timedOut => rfl
  | closed => rfl

theorem process_of_unsent {c c' : Completion} {request : CompletionRequest}
    {document : Snapshot} {r r' : Registry σ} (a : Ambient) (later : Snapshot)
    (h : c.send request (request.call document).body r = (none, c', r')) :
    c.process request document r a later = (.dropped, c', r', a) := by
  rw [process, h]

theorem process_of_sent {c c' : Completion} {request : CompletionRequest}
    {document : Snapshot} {r r' : Registry σ} {language : Language} (a : Ambient)
    (later : Snapshot)
    (h : c.send request (request.call document).body r = (some language, c', r')) :
    c.process request document r a later = c'.awaitReply request language later r' a := by
  rw [process, h]

theorem settle_of_process {c c' : Completion} {request : CompletionRequest}
    {document later : Snapshot} {r r' : Registry σ} {a a' : Ambient} {outcome : Outcome}
    (h : c.process request document r a later = (outcome, c', r', a')) :
    c.settle request document r a later =
      ({ c' with menu := c'.menu.settle request.id outcome }, r', a') := by
  rw [settle, h]

theorem settle_fst (c : Completion) (request : CompletionRequest) (document : Snapshot)
    (r : Registry σ) (a : Ambient) (later : Snapshot) :
    ∃ pending, (c.settle request document r a later).1 =
      { c with
        menu := (Verdict.ofTraffic? request.id (r.heard? c.budget request document)).conclude
          c.limit request later c.menu
        pending } := by
  rw [Registry.heard?]
  cases hdispatch : r.dispatch? request.path (request.call document).body with
  | none =>
    obtain ⟨pending, r', hsend⟩ := send_of_dispatch?_none (c := c) hdispatch
    rw [settle_of_process (process_of_unsent a later hsend)]
    exact ⟨pending, rfl⟩
  | some sent =>
    obtain ⟨language, server⟩ := sent
    obtain ⟨r', hsend, hserver⟩ := send_of_dispatch?_some (c := c) hdispatch
    have hawaited := Mailbox.await_fst (answer? request.id) c.budget server
    rw [Option.map_some, Verdict.ofTraffic?]
    obtain ⟨t, ht⟩ : ∃ t, Mailbox.arrivals c.budget server = t := ⟨_, rfl⟩
    rw [ht] at hawaited ⊢
    rcases hwait : Mailbox.await (answer? request.id) c.budget server with ⟨awaited, nanos, after⟩
    have hfound : awaited = t.awaited (answer? request.id) := by rw [← hawaited, hwait]
    let waiting := { c with pending := c.pending.insert request }
    have hprocess := process_of_sent a later hsend
    rw [awaitReply_eq (c := waiting) later a hserver hwait, hfound] at hprocess
    rw [settle_of_process hprocess]
    exact ⟨_, finish_awaited _ request later t⟩

end

end Completion

inductive Gesture where
  | select (index : Nat)
  | accept (document : Snapshot)
  | dismiss

namespace Completion

def obey (c : Completion) : Gesture → Completion
  | .select index => (c.select index).2
  | .accept document => ((c.accept document).map Prod.snd).getD c
  | .dismiss => c.dismiss

/-- A menu with the same list and records, which is shown only if it was shown before. -/
structure Obeys (before after : Menu) : Prop where
  items : after.items = before.items
  settledRequest : after.settledRequest = before.settledRequest
  lastOutcome : after.lastOutcome = before.lastOutcome
  visible : after.visible = true → before.visible = true

theorem obey_eq (c : Completion) (g : Gesture) :
    ∃ menu, c.obey g = { c with menu } ∧ Obeys c.menu menu := by
  cases g with
  | select index =>
    refine ⟨(c.menu.select index).2, rfl, ?_⟩
    rw [Menu.select]
    split
    · exact ⟨rfl, rfl, rfl, id⟩
    · exact ⟨rfl, rfl, rfl, id⟩
  | accept document =>
    rw [obey, accept]
    cases c.menu.selected? with
    | none => exact ⟨c.menu, rfl, rfl, rfl, rfl, id⟩
    | some item => exact ⟨c.menu.dismiss, rfl, rfl, rfl, rfl, nofun⟩
  | dismiss => exact ⟨c.menu.dismiss, rfl, rfl, rfl, rfl, nofun⟩

end Completion

end LanguageClient.Workspace
