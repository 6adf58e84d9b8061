import LanguageClient.Proofs.Verdict

namespace LanguageClient.Workspace

open Document Server Suggest Wire

/-- How far the worker is with a request. -/
inductive Stage where
  | idle
  | taken (request : CompletionRequest)
  /-- The request is pending and goes to a language's server next. -/
  | listed (request : CompletionRequest) (language : Language) (body : Bytes)
  /-- The reply is awaited, after some nanoseconds and with some left. -/
  | sent (request : CompletionRequest) (language : Language) (left waited : Nat)
  | heard (request : CompletionRequest) (awaited : Awaited Json)
  | ended (request : CompletionRequest) (outcome : Outcome)
  /-- The worker broke off, since the wait for the reply ends later than the clock can show. -/
  | gone (request : CompletionRequest)

namespace Stage

def request? : Stage → Option CompletionRequest
  | idle => none
  | taken request | listed request _ _ | sent request _ _ _ | heard request _ | ended request _
  | gone request => some request

/-- The request that is being sent or awaited, or was when the worker broke off. -/
def awaited? : Stage → Option CompletionRequest
  | listed request _ _ | sent request _ _ _ | gone request => some request
  | idle | taken _ | heard _ _ | ended _ _ => none

def isGone : Stage → Bool
  | gone _ => true
  | idle | taken _ | listed _ _ _ | sent _ _ _ _ | heard _ _ | ended _ _ => false

end Stage

/-- A client's completion at work. `asked` are the requests that were ever queued, and `settled` are
those that ended so far; both with the first in front. -/
structure Worker (σ : Type) where
  completion : Completion
  document : Snapshot
  servers : Registry σ
  ambient : Ambient
  stage : Stage := .idle
  queue : List CompletionRequest := []
  asked : List CompletionRequest := []
  settled : List (CompletionRequest × Outcome) := []

/-- What happens next: a request is queued, the worker does a step, the user acts on the menu, or
others change the document, use the servers and draw ids. -/
inductive Move (σ : Type) where
  | ask (path : Path) (line character : UInt32)
  | work
  | gesture (g : Gesture)
  | meanwhile (document : Snapshot) (servers : Registry σ) (ambient : Ambient) (drawn : Nat)

def Move.asked? {σ : Type} : Move σ → Option (Path × UInt32 × UInt32)
  | ask path line character => some (path, line, character)
  | work | gesture _ | meanwhile _ _ _ _ => none

def Move.works {σ : Type} : Move σ → Bool
  | work => true
  | ask _ _ _ | gesture _ | meanwhile _ _ _ _ => false

def Move.isForeign {σ : Type} : Move σ → Bool
  | meanwhile _ _ _ _ => true
  | ask _ _ _ | work | gesture _ => false

def CompletionRequest.place (request : CompletionRequest) : Path × UInt32 × UInt32 :=
  (request.path, request.line, request.character)

def Completion.unlist (c : Completion) (id : Int) : Completion :=
  { c with pending := (c.pending.take id).2 }

theorem Pending.requests_insert {p : Pending} (h : p.requests = []) (request : CompletionRequest) :
    (p.insert request).requests = [request] := by
  rw [insert, h]
  rfl

theorem Pending.requests_take {p : Pending} {request : CompletionRequest}
    (h : p.requests = [request]) : (p.take request.id).2.requests = [] := by
  rw [take, h]
  simp

theorem Completion.finish_eq (c : Completion) (request : CompletionRequest) (document : Snapshot)
    (awaited : Awaited Json) :
    ∃ outcome menu, c.finish request document awaited = (outcome, { c with menu }) ∧
      menu.settledRequest = c.menu.settledRequest ∧ menu.lastOutcome = c.menu.lastOutcome := by
  cases awaited with
  | found body =>
    rw [finish]
    cases Reply.ofJson body with
    | failed => exact ⟨_, _, rfl, rfl, rfl⟩
    | entries entries => exact ⟨_, _, rfl, rfl, rfl⟩
  | timedOut => exact ⟨_, _, rfl, rfl, rfl⟩
  | closed => exact ⟨_, _, rfl, rfl, rfl⟩

theorem Registry.isSome_of_sendTo {σ : Type} [Adapter σ] {r r' : Registry σ}
    {language : Language} {body : Bytes} (h : r.sendTo language body = (true, r')) :
    (r'.servers language).isSome := by
  rw [sendTo] at h
  cases hserver : r.servers language with
  | none =>
    rw [hserver] at h
    cases h
  | some server =>
    simp only [hserver] at h
    rcases hsend : Adapter.send body server with ⟨result, sent⟩
    rw [hsend] at h
    cases result with
    | error fault => cases h
    | ok =>
      cases h
      rw [put_servers]
      rfl

theorem Registry.putAfter_put {σ : Type} [Adapter σ] (r : Registry σ) (language : Language)
    (server after : σ) (nanos : Nat) :
    (r.put language server).putAfter nanos language after = r.putAfter nanos language after := by
  rw [putAfter, putAfter]
  congr 1
  funext asked
  by_cases h : asked = language
  · rw [if_pos h, if_pos h]
  · rw [if_neg h, if_neg h]
    exact congrArg _ (if_neg h)

namespace Worker

variable {σ : Type} [Adapter σ]

def fetch (w : Worker σ) : Worker σ :=
  match w.queue with
  | [] => w
  | request :: queue => { w with stage := .taken request, queue }

/-- Finds the server of a request, throws away what arrived before, and lists it as pending. -/
def list (w : Worker σ) (request : CompletionRequest) : Worker σ :=
  match w.servers.addressee? request.path with
  | none => { w with stage := .ended request .dropped }
  | some (language, server) =>
    { w with
      servers := w.servers.put language (Mailbox.emptied server)
      completion := { w.completion with pending := w.completion.pending.insert request }
      stage := .listed request language (request.call w.document).body }

def hand (w : Worker σ) (request : CompletionRequest) (language : Language) (body : Bytes) :
    Worker σ :=
  match w.servers.sendTo language body with
  | (true, servers) =>
    if w.ambient.canWait w.completion.budget.total then
      { w with
        servers
        stage := .sent request language w.completion.budget.total.toNanos 0 }
    else { w with servers, stage := .gone request, queue := [] }
  | (false, servers) =>
    { w with
      servers
      completion := w.completion.unlist request.id
      stage := .ended request .dropped }

def look (w : Worker σ) (request : CompletionRequest) (left : Nat) (server : σ) :
    Mailbox.Look Json σ :=
  if w.completion.budget.total.isZero then .ends .timedOut 0 server
  else Mailbox.look (Completion.answer? request.id) left server

/-- Ends the wait for a reply, or goes on with it. -/
def heed (w : Worker σ) (request : CompletionRequest) (language : Language) (left waited : Nat) :
    Mailbox.Look Json σ → Worker σ
  | .ends awaited nanos server =>
    { w with
      servers := w.servers.putAfter (waited + nanos) language server
      ambient := w.ambient.pass (waited + nanos)
      completion := w.completion.unlist request.id
      stage := .heard request awaited }
  | .waits nanos server =>
    { w with
      servers := w.servers.put language server
      stage := .sent request language (left - nanos) (waited + nanos) }

def listen (w : Worker σ) (request : CompletionRequest) (language : Language)
    (left waited : Nat) : Worker σ :=
  match w.servers.servers language with
  | none => { w with stage := .ended request .failed }
  | some server => w.heed request language left waited (w.look request left server)

def conclude (w : Worker σ) (request : CompletionRequest) (awaited : Awaited Json) : Worker σ :=
  let (outcome, completion) := w.completion.finish request w.document awaited
  { w with completion, stage := .ended request outcome }

def log (w : Worker σ) (request : CompletionRequest) (outcome : Outcome) : Worker σ :=
  { w with
    completion := { w.completion with menu := w.completion.menu.settle request.id outcome }
    settled := w.settled ++ [(request, outcome)] }

def record (w : Worker σ) (request : CompletionRequest) (outcome : Outcome) : Worker σ :=
  { w.log request outcome with stage := .idle }

def work (w : Worker σ) : Worker σ :=
  match w.stage with
  | .idle => w.fetch
  | .taken request => w.list request
  | .listed request language body => w.hand request language body
  | .sent request language left waited => w.listen request language left waited
  | .heard request awaited => w.conclude request awaited
  | .ended request outcome => w.record request outcome
  | .gone _ => w

/-- Queues a request. Without a worker to take it, it is dropped by whoever asks. -/
def ask (w : Worker σ) (path : Path) (line character : UInt32) : Worker σ :=
  let (id, ambient) := w.ambient.drawId
  let request : CompletionRequest := ⟨id, path, line, character⟩
  let w := { w with ambient, asked := w.asked ++ [request] }
  if w.stage.isGone then w.log request .dropped else { w with queue := w.queue ++ [request] }

/-- Registered servers stay registered, and ids are only drawn, whatever others do. -/
def meanwhile (w : Worker σ) (document : Snapshot) (servers : Registry σ) (ambient : Ambient)
    (drawn : Nat) : Worker σ :=
  { w with
    document
    servers := { servers with servers := fun language =>
      (servers.servers language).or (w.servers.servers language) }
    ambient := { ambient with nextId := w.ambient.nextId + drawn } }

def move (w : Worker σ) : Move σ → Worker σ
  | .ask path line character => w.ask path line character
  | .work => w.work
  | .gesture g => { w with completion := w.completion.obey g }
  | .meanwhile document servers ambient drawn => w.meanwhile document servers ambient drawn

def run (w : Worker σ) (moves : List (Move σ)) : Worker σ := moves.foldl move w

/-- Whether the next step sends a request, so that the wait for the reply begins. -/
def beginsWait (w : Worker σ) : Bool :=
  match w.stage with
  | .listed _ language body => (w.servers.sendTo language body).1
  | .idle | .taken _ | .sent _ _ _ _ | .heard _ _ | .ended _ _ | .gone _ => false

/-- Whenever a wait begins, the clock gets to show its end. -/
def InTime (w : Worker σ) : List (Move σ) → Prop
  | [] => True
  | m :: rest =>
    (m.works = true → w.beginsWait = true →
      w.ambient.canWait w.completion.budget.total = true) ∧ (w.move m).InTime rest

instance decidableInTime (w : Worker σ) : (moves : List (Move σ)) → Decidable (w.InTime moves)
  | [] => inferInstanceAs (Decidable True)
  | m :: rest =>
    have : Decidable ((w.move m).InTime rest) := decidableInTime (w.move m) rest
    inferInstanceAs (Decidable (_ ∧ _))

def start (config : Config) (document : Snapshot) (servers : Registry σ) (ambient : Ambient) :
    Worker σ where
  completion := .ofConfig config
  document := document
  servers := servers
  ambient := ambient

/-- What a step of the worker can do, told by the stage that it starts from. -/
inductive Advances : Worker σ → Worker σ → Prop where
  | rest {w : Worker σ} (hstage : w.stage = .idle) (hqueue : w.queue = []) : Advances w w
  | fetch {w : Worker σ} {request : CompletionRequest} {queue : List CompletionRequest}
    (hstage : w.stage = .idle) (hqueue : w.queue = request :: queue) :
    Advances w { w with stage := .taken request, queue }
  | drop {w : Worker σ} {request : CompletionRequest} (hstage : w.stage = .taken request) :
    Advances w { w with stage := .ended request .dropped }
  | list {w : Worker σ} {request : CompletionRequest} (hstage : w.stage = .taken request)
    (servers : Registry σ) (language : Language) (body : Bytes) :
    Advances w { w with
      servers
      completion := { w.completion with pending := w.completion.pending.insert request }
      stage := .listed request language body }
  | refuse {w : Worker σ} {request : CompletionRequest} {language : Language} {body : Bytes}
    (hstage : w.stage = .listed request language body) (servers : Registry σ) :
    Advances w { w with
      servers
      completion := w.completion.unlist request.id
      stage := .ended request .dropped }
  | breakOff {w : Worker σ} {request : CompletionRequest} {language : Language} {body : Bytes}
    (hstage : w.stage = .listed request language body)
    (hclock : w.ambient.canWait w.completion.budget.total = false) (servers : Registry σ) :
    Advances w { w with servers, stage := .gone request, queue := [] }
  | send {w : Worker σ} {request : CompletionRequest} {language : Language} {body : Bytes}
    {servers : Registry σ} (hstage : w.stage = .listed request language body)
    (hclock : w.ambient.canWait w.completion.budget.total = true)
    (hserver : (servers.servers language).isSome) :
    Advances w { w with
      servers
      stage := .sent request language w.completion.budget.total.toNanos 0 }
  | lose {w : Worker σ} {request : CompletionRequest} {language : Language} {left waited : Nat}
    (hstage : w.stage = .sent request language left waited)
    (hserver : w.servers.servers language = none) :
    Advances w { w with stage := .ended request .failed }
  | wait {w : Worker σ} {request : CompletionRequest} {language : Language}
    {left waited nanos : Nat} {servers : Registry σ}
    (hstage : w.stage = .sent request language left waited) (hpos : 0 < nanos) (hle : nanos ≤ left)
    (hserver : (servers.servers language).isSome) :
    Advances w { w with
      servers
      stage := .sent request language (left - nanos) (waited + nanos) }
  | hear {w : Worker σ} {request : CompletionRequest} {language : Language} {left waited : Nat}
    (hstage : w.stage = .sent request language left waited) (servers : Registry σ) {nanos : Nat}
    (hle : nanos ≤ left + waited) (awaited : Awaited Json) :
    Advances w { w with
      servers
      ambient := w.ambient.pass nanos
      completion := w.completion.unlist request.id
      stage := .heard request awaited }
  | conclude {w : Worker σ} {request : CompletionRequest} {awaited : Awaited Json} {menu : Menu}
    (hstage : w.stage = .heard request awaited) (outcome : Outcome)
    (hsettled : menu.settledRequest = w.completion.menu.settledRequest)
    (hlast : menu.lastOutcome = w.completion.menu.lastOutcome) :
    Advances w { w with
      completion := { w.completion with menu }
      stage := .ended request outcome }
  | record {w : Worker σ} {request : CompletionRequest} {outcome : Outcome}
    (hstage : w.stage = .ended request outcome) : Advances w (w.record request outcome)
  | stay {w : Worker σ} {request : CompletionRequest} (hstage : w.stage = .gone request) :
    Advances w w

theorem listen_of_some {w : Worker σ} {language : Language} {server : σ}
    (h : w.servers.servers language = some server) (request : CompletionRequest)
    (left waited : Nat) :
    w.listen request language left waited =
      w.heed request language left waited (w.look request left server) := by
  rw [listen, h]

theorem look_waits {w : Worker σ} {request : CompletionRequest} {left nanos : Nat}
    {server after : σ} (h : w.look request left server = .waits nanos after) :
    0 < nanos ∧ nanos ≤ left := by
  rw [look] at h
  split at h
  · cases h
  · exact Mailbox.look_waits h

theorem look_ends {w : Worker σ} {request : CompletionRequest} {left nanos : Nat}
    {server after : σ} {awaited : Awaited Json}
    (h : w.look request left server = .ends awaited nanos after) : nanos ≤ left := by
  rw [look] at h
  split at h
  · cases h
    exact Nat.zero_le left
  · exact Mailbox.look_ends h

section

variable {w : Worker σ} {request : CompletionRequest}

omit [Adapter σ] in
theorem advances_fetch (hstage : w.stage = .idle) : Advances w w.fetch := by
  rw [fetch]
  cases hqueue : w.queue with
  | nil => exact .rest hstage hqueue
  | cons request queue => exact .fetch hstage hqueue

theorem advances_list (hstage : w.stage = .taken request) : Advances w (w.list request) := by
  rw [list]
  cases w.servers.addressee? request.path with
  | none => exact .drop hstage
  | some found => exact .list hstage _ _ _

theorem advances_hand {language : Language} {body : Bytes}
    (hstage : w.stage = .listed request language body) :
    Advances w (w.hand request language body) := by
  rw [hand]
  rcases hsendTo : w.servers.sendTo language body with ⟨sent, servers⟩
  cases sent with
  | false => exact .refuse hstage servers
  | true =>
    dsimp only
    split
    case isTrue hclock => exact .send hstage hclock (Registry.isSome_of_sendTo hsendTo)
    case isFalse hclock => exact .breakOff hstage (Bool.not_eq_true _ ▸ hclock) servers

theorem advances_listen {language : Language} {left waited : Nat}
    (hstage : w.stage = .sent request language left waited) :
    Advances w (w.listen request language left waited) := by
  cases hserver : w.servers.servers language with
  | none =>
    rw [listen, hserver]
    exact .lose hstage hserver
  | some server =>
    rw [listen_of_some hserver]
    cases hlook : w.look request left server with
    | ends awaited nanos after =>
      refine .hear hstage _ ?_ awaited
      rw [Nat.add_comm]
      exact Nat.add_le_add_right (look_ends hlook) waited
    | waits nanos after =>
      obtain ⟨hpos, hle⟩ := look_waits hlook
      refine .wait hstage hpos hle ?_
      rw [Registry.put_servers]
      rfl

omit [Adapter σ] in
theorem advances_conclude {awaited : Awaited Json} (hstage : w.stage = .heard request awaited) :
    Advances w (w.conclude request awaited) := by
  obtain ⟨outcome, menu, hfinish, hsettled, hlast⟩ :=
    w.completion.finish_eq request w.document awaited
  rw [conclude, hfinish]
  exact .conclude hstage outcome hsettled hlast

theorem advances_work (w : Worker σ) : Advances w w.work := by
  rw [work]
  cases hstage : w.stage with
  | idle => exact advances_fetch hstage
  | taken request => exact advances_list hstage
  | listed request language body => exact advances_hand hstage
  | sent request language left waited => exact advances_listen hstage
  | heard request awaited => exact advances_conclude hstage
  | ended request outcome => exact .record hstage
  | gone request => exact .stay hstage

omit [Adapter σ] in
theorem Advances.listed_of_isGone {next : Worker σ} (h : Advances w next)
    (hwork : w.stage.isGone = false) (hgone : next.stage.isGone = true) :
    ∃ request language body, w.stage = .listed request language body := by
  cases h with
  | breakOff hstage => exact ⟨_, _, _, hstage⟩
  | rest | stay =>
    rw [hwork] at hgone
    cases hgone
  | _ => cases hgone

/-- A worker breaks off exactly where a wait begins and the clock does not get to show its end. -/
theorem isGone_work_eq_false_iff (hatWork : w.stage.isGone = false) :
    w.work.stage.isGone = false ↔
      (w.beginsWait = true → w.ambient.canWait w.completion.budget.total = true) := by
  cases hstage : w.stage with
  | listed request language body =>
    rw [work, beginsWait, hstage]
    dsimp only
    rw [hand]
    rcases hsendTo : w.servers.sendTo language body with ⟨sent, servers⟩
    cases sent with
    | false => simp [Stage.isGone]
    | true =>
      cases w.ambient.canWait w.completion.budget.total with
      | false => simp [Stage.isGone]
      | true => simp [Stage.isGone]
  | _ =>
    have hbegins : w.beginsWait = false := by rw [beginsWait, hstage]
    have hstays : w.work.stage.isGone = false := by
      rw [Bool.eq_false_iff]
      intro hgone
      obtain ⟨_, _, _, hlisted⟩ := w.advances_work.listed_of_isGone hatWork hgone
      rw [hstage] at hlisted
      cases hlisted
    simp [hstays, hbegins]

end

/-- What is true between any two moves while the worker has not broken off. -/
structure Consistent (w : Worker σ) : Prop where
  atWork : w.stage.isGone = false
  order : w.settled.map Prod.fst ++ w.stage.request?.toList ++ w.queue = w.asked
  ids : w.asked.Pairwise (·.id < ·.id)
  drawn : ∀ request ∈ w.asked, request.id < w.ambient.nextId
  pending : w.completion.pending.requests = w.stage.awaited?.toList
  registered : ∀ request language left waited, w.stage = .sent request language left waited →
    (w.servers.servers language).isSome
  settledRequest : w.completion.menu.settledRequest = w.settled.getLast?.map (·.1.id)
  lastOutcome : w.completion.menu.lastOutcome = w.settled.getLast?.map Prod.snd

section

variable {w : Worker σ} {request : CompletionRequest}

omit [Adapter σ] in
theorem consistent_start (config : Config) (document : Snapshot) (servers : Registry σ)
    (ambient : Ambient) : (start config document servers ambient).Consistent where
  atWork := rfl
  order := rfl
  ids := .nil
  drawn := nofun
  pending := rfl
  registered := nofun
  settledRequest := rfl
  lastOutcome := rfl

omit [Adapter σ] in
theorem Consistent.at_stage (h : w.Consistent) {stage : Stage} (hstage : w.stage = stage) :
    w.settled.map Prod.fst ++ stage.request?.toList ++ w.queue = w.asked ∧
      w.completion.pending.requests = stage.awaited?.toList := by
  subst hstage
  exact ⟨h.order, h.pending⟩

omit [Adapter σ] in
/-- Everything settled so far was queued before the request in hand, so its id is smaller. -/
theorem Consistent.hasSettled_eq_false (h : w.Consistent)
    (hrequest : w.stage.request? = some request) :
    w.completion.menu.hasSettled request.id = false := by
  have hids := h.ids
  rw [← h.order, hrequest, List.append_assoc, List.pairwise_append] at hids
  obtain ⟨_, _, hearlier⟩ := hids
  rw [Menu.hasSettled, h.settledRequest]
  cases hlast : w.settled.getLast? with
  | none => rfl
  | some last =>
    have hlt : last.1.id < request.id :=
      hearlier _ (List.mem_map_of_mem (List.mem_of_getLast? hlast)) _ (.head _)
    exact decide_eq_false (Int.not_le.2 hlt)

omit [Adapter σ] in
theorem Consistent.record (h : w.Consistent) {outcome : Outcome}
    (hstage : w.stage = .ended request outcome) : (w.record request outcome).Consistent := by
  obtain ⟨horder, hpending⟩ := h.at_stage hstage
  have hnew : w.completion.menu.hasSettled request.id = false :=
    h.hasSettled_eq_false (by rw [hstage]; rfl)
  constructor
  case order =>
    change (w.settled ++ [(request, outcome)]).map Prod.fst ++ [] ++ w.queue = w.asked
    rw [← horder]
    simp [Stage.request?]
  case atWork => rfl
  case ids => exact h.ids
  case drawn => exact h.drawn
  case pending => exact hpending
  case registered => exact nofun
  case settledRequest =>
    rw [Worker.record, log, Menu.settle, hnew]
    simp
  case lastOutcome =>
    rw [Worker.record, log, Menu.settle]
    simp

omit [Adapter σ] in
theorem Consistent.advance (h : w.Consistent) {next : Worker σ} (hadvances : Advances w next)
    (hatWork : next.stage.isGone = false) : next.Consistent := by
  cases hadvances with
  | rest => exact h
  | stay hstage =>
    have hwork := h.atWork
    rw [hstage] at hwork
    cases hwork
  | breakOff => cases hatWork
  | fetch hstage hqueue =>
    obtain ⟨horder, hpending⟩ := h.at_stage hstage
    refine { h with atWork := rfl, order := ?_, pending := hpending, registered := nofun }
    rw [← horder, hqueue]
    simp [Stage.request?]
  | drop hstage =>
    obtain ⟨horder, hpending⟩ := h.at_stage hstage
    exact { h with
      atWork := rfl
      order := horder
      pending := hpending
      registered := nofun }
  | list hstage servers language body =>
    obtain ⟨horder, hpending⟩ := h.at_stage hstage
    exact { h with
      atWork := rfl
      order := horder
      pending := Pending.requests_insert hpending _
      registered := nofun }
  | refuse hstage servers =>
    obtain ⟨horder, hpending⟩ := h.at_stage hstage
    have htaken := Pending.requests_take hpending
    exact { h with
      atWork := rfl
      order := horder
      pending := htaken
      registered := nofun }
  | send hstage _ hserver =>
    obtain ⟨horder, hpending⟩ := h.at_stage hstage
    refine { h with atWork := rfl, order := horder, pending := hpending, registered := ?_ }
    intro _ _ _ _ hsent
    cases hsent
    exact hserver
  | lose hstage hserver =>
    have hregistered := h.registered _ _ _ _ hstage
    rw [hserver] at hregistered
    cases hregistered
  | wait hstage hpos hle hserver =>
    obtain ⟨horder, hpending⟩ := h.at_stage hstage
    refine { h with atWork := rfl, order := horder, pending := hpending, registered := ?_ }
    intro _ _ _ _ hsent
    cases hsent
    exact hserver
  | hear hstage servers hle awaited =>
    obtain ⟨horder, hpending⟩ := h.at_stage hstage
    have htaken := Pending.requests_take hpending
    exact { h with
      atWork := rfl
      order := horder
      pending := htaken
      registered := nofun }
  | conclude hstage outcome hsettled hlast =>
    obtain ⟨horder, hpending⟩ := h.at_stage hstage
    exact { h with
      atWork := rfl
      order := horder
      pending := hpending
      registered := nofun
      settledRequest := hsettled.trans h.settledRequest
      lastOutcome := hlast.trans h.lastOutcome }
  | record hstage => exact h.record hstage

omit [Adapter σ] in
theorem Consistent.ask (h : w.Consistent) (path : Path) (line character : UInt32) :
    (w.ask path line character).Consistent := by
  rw [Worker.ask]
  dsimp only
  rw [h.atWork, if_neg Bool.false_ne_true]
  refine { h with order := ?_, ids := ?_, drawn := ?_ }
  · change w.settled.map Prod.fst ++ w.stage.request?.toList ++ (w.queue ++ [_]) = w.asked ++ [_]
    rw [← List.append_assoc, h.order]
  · refine List.pairwise_append.2 ⟨h.ids, List.pairwise_singleton _ _, ?_⟩
    intro earlier hearlier new hnew
    rw [List.mem_singleton.1 hnew]
    exact h.drawn earlier hearlier
  · intro asked hasked
    rcases List.mem_append.1 hasked with hearlier | hnew
    · exact Int.lt_trans (h.drawn asked hearlier) (Int.lt_succ _)
    · rw [List.mem_singleton.1 hnew]
      exact Int.lt_succ _

omit [Adapter σ] in
theorem Consistent.meanwhile (h : w.Consistent) (document : Snapshot) (servers : Registry σ)
    (ambient : Ambient) (drawn : Nat) :
    (w.meanwhile document servers ambient drawn).Consistent := by
  refine { h with drawn := ?_, registered := ?_ }
  · intro asked hasked
    exact Int.lt_of_lt_of_le (h.drawn asked hasked)
      (Int.le_add_of_nonneg_right (Int.natCast_nonneg _))
  · intro request language left waited hstage
    have hregistered := h.registered request language left waited hstage
    rw [Worker.meanwhile, Option.isSome_or, hregistered, Bool.or_true]

theorem consistent_move (h : w.Consistent) {m : Move σ}
    (hclock : m.works = true → w.beginsWait = true →
      w.ambient.canWait w.completion.budget.total = true) :
    (w.move m).Consistent := by
  cases m with
  | ask path line character => exact h.ask path line character
  | work => exact h.advance w.advances_work ((isGone_work_eq_false_iff h.atWork).2 (hclock rfl))
  | gesture g =>
    obtain ⟨menu, hobey, hobeys⟩ := w.completion.obey_eq g
    rw [move, hobey]
    exact { h with
      settledRequest := hobeys.settledRequest.trans h.settledRequest
      lastOutcome := hobeys.lastOutcome.trans h.lastOutcome }
  | meanwhile document servers ambient drawn => exact h.meanwhile document servers ambient drawn

theorem consistent_run (h : w.Consistent) {moves : List (Move σ)} (hclock : w.InTime moves) :
    (w.run moves).Consistent := by
  induction moves generalizing w with
  | nil => exact h
  | cons m rest ih => exact ih (consistent_move h hclock.1) hclock.2

/-- A wait has no more nanoseconds behind it and before it than it may take. -/
structure Metered {σ : Type} (total : Nat) (w : Worker σ) : Prop where
  budget : w.completion.budget.total.toNanos = total
  wait : ∀ request language left waited, w.stage = .sent request language left waited →
    left + waited ≤ total

omit [Adapter σ] in
theorem Advances.metered {next : Worker σ} {total : Nat} (h : Advances w next)
    (hmetered : w.Metered total) : next.Metered total ∧ next.ambient.now ≤ w.ambient.now + total := by
  obtain ⟨hbudget, hwait⟩ := hmetered
  have hnow : w.ambient.now ≤ w.ambient.now + total := Nat.le_add_right _ _
  cases h with
  | rest | stay => exact ⟨⟨hbudget, hwait⟩, hnow⟩
  | send =>
    refine ⟨⟨hbudget, fun _ _ _ _ hsent => ?_⟩, hnow⟩
    injection hsent with _ _ hleft hwaited
    rw [← hleft, ← hwaited, hbudget]
    exact Nat.le_refl total
  | @wait request language left waited nanos _ hstage hpos hle =>
    have htotal := hwait _ _ _ _ hstage
    refine ⟨⟨hbudget, fun _ _ _ _ hsent => ?_⟩, hnow⟩
    cases hsent
    omega
  | hear hstage servers hle awaited =>
    have htotal := hwait _ _ _ _ hstage
    exact ⟨⟨hbudget, nofun⟩, Nat.add_le_add_left (Nat.le_trans hle htotal) _⟩
  | _ => exact ⟨⟨hbudget, nofun⟩, hnow⟩

theorem metered_move {total : Nat} {m : Move σ} (h : w.Metered total) (hown : m.isForeign = false) :
    (w.move m).Metered total ∧ (w.move m).ambient.now ≤ w.ambient.now + total := by
  cases m with
  | work => exact w.advances_work.metered h
  | ask path line character =>
    rw [move, Worker.ask]
    dsimp only
    split
    case isTrue => exact ⟨⟨h.budget, h.wait⟩, Nat.le_add_right _ _⟩
    case isFalse => exact ⟨⟨h.budget, h.wait⟩, Nat.le_add_right _ _⟩
  | gesture g =>
    obtain ⟨menu, hobey, _⟩ := w.completion.obey_eq g
    rw [move, hobey]
    exact ⟨⟨h.budget, h.wait⟩, Nat.le_add_right _ _⟩
  | meanwhile => cases hown

/-- A client that nobody meddles with is in time, unless its moves take until the clock ends. -/
theorem inTime_of_lt {total : Nat} {moves : List (Move σ)} (h : w.Metered total)
    (hown : ∀ m ∈ moves, m.isForeign = false)
    (hend : w.ambient.now + moves.length * total < Ambient.clockEnd) : w.InTime moves := by
  induction moves generalizing w with
  | nil => trivial
  | cons m rest ih =>
    obtain ⟨hfirst, hrest⟩ := List.forall_mem_cons.1 hown
    obtain ⟨hnext, hnow⟩ := metered_move h hfirst
    rw [List.length_cons, Nat.succ_mul] at hend
    refine ⟨fun _ _ => ?_, ih hnext hrest (by omega)⟩
    rw [Ambient.canWait, h.budget, decide_eq_true_eq]
    omega

end

end Worker

end LanguageClient.Workspace
