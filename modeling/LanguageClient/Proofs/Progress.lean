import LanguageClient.Proofs.Worker
import LanguageClient.Server.Scripted

namespace LanguageClient.Workspace

open Document Server Suggest Wire

/-- How many steps of the worker a request takes from here at most, if a wait takes at most some
nanoseconds. -/
def Stage.steps (total : Nat) : Stage → Nat
  | idle | gone _ => 0
  | ended _ _ => 1
  | heard _ _ => 2
  | sent _ _ left _ => left + 3
  | listed _ _ _ => total + 4
  | taken _ => total + 5

namespace Worker

section

variable {σ : Type} [Adapter σ] {w : Worker σ} {request : CompletionRequest}

/-- How many steps the worker has left at most, if no more requests come. -/
def remaining (w : Worker σ) : Nat :=
  w.stage.steps w.completion.budget.total.toNanos +
    w.queue.length * (w.completion.budget.total.toNanos + 6)

omit [Adapter σ] in
theorem remaining_eq_zero_iff (hwork : w.stage.isGone = false) :
    w.remaining = 0 ↔ w.stage = .idle ∧ w.queue = [] := by
  rw [remaining, Nat.add_eq_zero_iff, Nat.mul_eq_zero, List.length_eq_zero_iff,
    or_iff_left (Nat.succ_ne_zero _)]
  apply and_congr_left'
  cases hstage : w.stage with
  | gone request =>
    rw [hstage] at hwork
    cases hwork
  | idle => exact iff_of_true rfl rfl
  | taken request => exact iff_of_false (Nat.succ_ne_zero _) nofun
  | listed request language body => exact iff_of_false (Nat.succ_ne_zero _) nofun
  | sent request language left waited => exact iff_of_false (Nat.succ_ne_zero _) nofun
  | heard request awaited => exact iff_of_false (Nat.succ_ne_zero _) nofun
  | ended request outcome => exact iff_of_false (Nat.succ_ne_zero _) nofun

omit [Adapter σ] in
theorem remaining_lt_of_steps_lt {w' : Worker σ} (hqueue : w'.queue = w.queue)
    (hbudget : w'.completion.budget = w.completion.budget)
    (hsteps : ∀ total, w.completion.budget.total.toNanos = total →
      w'.stage.steps total < w.stage.steps total) : w'.remaining < w.remaining := by
  rw [remaining, remaining, hqueue, hbudget]
  exact Nat.add_lt_add_right (hsteps _ rfl) _

omit [Adapter σ] in
theorem remaining_lt_of_fetch {queue : List CompletionRequest} (hstage : w.stage = .idle)
    (hqueue : w.queue = request :: queue) :
    ({ w with stage := .taken request, queue } : Worker σ).remaining < w.remaining := by
  rw [remaining, remaining, hstage, hqueue, List.length_cons, Nat.succ_mul]
  obtain ⟨total, htotal⟩ : ∃ total, w.completion.budget.total.toNanos = total := ⟨_, rfl⟩
  rw [htotal]
  dsimp only [Stage.steps]
  omega

omit [Adapter σ] in
theorem Advances.remaining_lt {next : Worker σ} (h : Advances w next)
    (hwork : w.stage.isGone = false) (hleft : w.remaining ≠ 0) :
    next.remaining < w.remaining := by
  cases h with
  | rest hstage hqueue => exact absurd ((remaining_eq_zero_iff hwork).2 ⟨hstage, hqueue⟩) hleft
  | stay hstage =>
    rw [hstage] at hwork
    cases hwork
  | breakOff hstage hclock servers =>
    refine Nat.lt_of_lt_of_le ?_ (Nat.le_add_right _ _)
    rw [hstage, remaining, List.length_nil, Nat.zero_mul]
    exact Nat.succ_pos _
  | fetch hstage hqueue => exact remaining_lt_of_fetch hstage hqueue
  | drop hstage =>
    refine remaining_lt_of_steps_lt rfl rfl fun total _ => ?_
    rw [hstage]
    exact Nat.one_lt_succ_succ _
  | list hstage servers language body =>
    refine remaining_lt_of_steps_lt rfl rfl fun total _ => ?_
    rw [hstage]
    exact Nat.lt_succ_self _
  | refuse hstage servers =>
    refine remaining_lt_of_steps_lt rfl rfl fun total _ => ?_
    rw [hstage]
    exact Nat.one_lt_succ_succ _
  | send hstage hserver =>
    refine remaining_lt_of_steps_lt rfl rfl fun total htotal => ?_
    rw [hstage, htotal]
    exact Nat.lt_succ_self _
  | lose hstage hserver =>
    refine remaining_lt_of_steps_lt rfl rfl fun total _ => ?_
    rw [hstage]
    exact Nat.one_lt_succ_succ _
  | wait hstage hpos hle hserver =>
    refine remaining_lt_of_steps_lt rfl rfl fun total _ => ?_
    rw [hstage]
    exact Nat.add_lt_add_right (Nat.sub_lt (Nat.lt_of_lt_of_le hpos hle) hpos) 3
  | hear hstage servers hle awaited =>
    refine remaining_lt_of_steps_lt rfl rfl fun total _ => ?_
    rw [hstage]
    exact Nat.lt_add_left _ (Nat.lt_succ_self 2)
  | conclude hstage outcome hsettled hlast =>
    refine remaining_lt_of_steps_lt rfl rfl fun total _ => ?_
    rw [hstage]
    exact Nat.lt_succ_self 1
  | record hstage =>
    refine remaining_lt_of_steps_lt rfl rfl fun total _ => ?_
    rw [hstage]
    exact Nat.lt_succ_self 0

omit [Adapter σ] in
theorem Advances.keeps {next : Worker σ} (h : Advances w next) :
    next.asked = w.asked ∧ w.settled <+: next.settled := by
  cases h with
  | record hstage => exact ⟨rfl, List.prefix_append _ _⟩
  | _ => exact ⟨rfl, List.prefix_rfl⟩

theorem settled_run (w : Worker σ) (moves : List (Move σ)) :
    w.settled <+: (w.run moves).settled := by
  induction moves generalizing w with
  | nil => exact List.prefix_rfl
  | cons m rest ih =>
    refine List.IsPrefix.trans ?_ (ih (w.move m))
    cases m with
    | ask path line character =>
      rw [move, ask]
      dsimp only
      split
      case isTrue => exact List.prefix_append _ _
      case isFalse => exact List.prefix_rfl
    | work => exact w.advances_work.keeps.2
    | gesture g => exact List.prefix_rfl
    | meanwhile document servers ambient drawn => exact List.prefix_rfl

theorem work_of_remaining_eq_zero (hwork : w.stage.isGone = false) (h : w.remaining = 0) :
    w.work = w := by
  obtain ⟨hstage, hqueue⟩ := (remaining_eq_zero_iff hwork).1 h
  simp only [work, hstage, fetch, hqueue]

theorem asked_move (w : Worker σ) (m : Move σ) :
    ∃ new, (w.move m).asked = w.asked ++ new ∧
      new.map CompletionRequest.place = m.asked?.toList := by
  cases m with
  | ask path line character =>
    rw [move, ask]
    dsimp only
    split
    case isTrue => exact ⟨[_], rfl, rfl⟩
    case isFalse => exact ⟨[_], rfl, rfl⟩
  | work =>
    refine ⟨[], ?_, rfl⟩
    rw [List.append_nil]
    exact w.advances_work.keeps.1
  | gesture g => exact ⟨[], (List.append_nil _).symm, rfl⟩
  | meanwhile document servers ambient drawn => exact ⟨[], (List.append_nil _).symm, rfl⟩

theorem asked_run (w : Worker σ) (moves : List (Move σ)) :
    ∃ new, (w.run moves).asked = w.asked ++ new ∧
      new.map CompletionRequest.place = moves.filterMap Move.asked? := by
  induction moves generalizing w with
  | nil => exact ⟨[], (List.append_nil _).symm, rfl⟩
  | cons m rest ih =>
    obtain ⟨first, hasked, hfirst⟩ := w.asked_move m
    obtain ⟨later, haskedLater, hlater⟩ := ih (w.move m)
    refine ⟨first ++ later, ?_, ?_⟩
    · rw [← List.append_assoc, ← hasked]
      exact haskedLater
    · rw [List.map_append, hfirst, hlater, List.filterMap_cons]
      cases m.asked? with
      | none => rfl
      | some place => rfl

/-- A move that queues nothing is no setback, and progress if it is a step of the worker. -/
theorem remaining_move {m : Move σ} (hwork : w.stage.isGone = false) (h : m.asked? = none) :
    (w.move m).remaining ≤ w.remaining - if m.works then 1 else 0 := by
  cases m with
  | ask path line character => cases h
  | work =>
    by_cases hzero : w.remaining = 0
    · rw [move, work_of_remaining_eq_zero hwork hzero, hzero]
      exact Nat.zero_le _
    · exact Nat.le_sub_one_of_lt (w.advances_work.remaining_lt hwork hzero)
  | gesture g =>
    obtain ⟨menu, hobey, _⟩ := w.completion.obey_eq g
    rw [move, hobey]
    exact Nat.le_refl _
  | meanwhile document servers ambient drawn => exact Nat.le_refl _

theorem remaining_run (hconsistent : w.Consistent) {moves : List (Move σ)}
    (hclock : w.InTime moves) (h : ∀ m ∈ moves, m.asked? = none) :
    (w.run moves).remaining ≤ w.remaining - moves.countP Move.works := by
  induction moves generalizing w with
  | nil => exact Nat.le_refl _
  | cons m rest ih =>
    obtain ⟨hfirst, hrest⟩ := List.forall_mem_cons.1 h
    have hmove := remaining_move hconsistent.atWork hfirst
    have hlater := ih (consistent_move hconsistent hclock.1) hclock.2 hrest
    rw [List.countP_cons, Nat.add_comm, ← Nat.sub_sub]
    exact Nat.le_trans hlater (Nat.sub_le_sub_right hmove _)

/-- The worker gets from one state to another by itself. -/
inductive Reaches : Worker σ → Worker σ → Prop where
  | refl (w : Worker σ) : Reaches w w
  | head {w last : Worker σ} (h : Reaches w.work last) : Reaches w last

theorem Reaches.trans {middle last : Worker σ} (h : w.Reaches middle) (h' : middle.Reaches last) :
    w.Reaches last := by
  induction h with
  | refl => exact h'
  | head _ ih => exact .head (ih h')

theorem reaches_heard {language : Language} {left waited nanos : Nat} {server after : σ}
    {awaited : Awaited Json} (hstage : w.stage = .sent request language left waited)
    (hserver : w.servers.servers language = some server)
    (hbudget : w.completion.budget.total.isZero = false)
    (hwait : Mailbox.awaitWithin (Completion.answer? request.id) left server =
      (awaited, nanos, after)) :
    w.Reaches { w with
      servers := w.servers.putAfter (waited + nanos) language after
      ambient := w.ambient.pass (waited + nanos)
      completion := w.completion.unlist request.id
      stage := .heard request awaited } := by
  -- By induction on the time left, which every look that goes on uses some of.
  induction left using Nat.strongRecOn generalizing w server waited nanos with
  | ind left ih =>
    apply Reaches.head
    have hwork : w.work = w.heed request language left waited (w.look request left server) := by
      rw [work, hstage]
      exact listen_of_some hserver request left waited
    have hlooks : w.look request left server =
        Mailbox.look (Completion.answer? request.id) left server := by
      rw [look, hbudget, if_neg Bool.false_ne_true]
    rw [Mailbox.awaitWithin_eq_look, ← hlooks] at hwait
    cases hlook : w.look request left server with
    | ends found passed last =>
      rw [hlook] at hwait
      cases hwait
      rw [hwork, hlook]
      exact .refl _
    | waits wait middle =>
      obtain ⟨hpos, hle⟩ := look_waits hlook
      rw [hwork, hlook]
      rcases hrest : Mailbox.awaitWithin (Completion.answer? request.id) (left - wait) middle with
        ⟨found, passed, last⟩
      simp only [hlook, hrest] at hwait
      cases hwait
      have hlater := ih (left - wait) (Nat.sub_lt (Nat.lt_of_lt_of_le hpos hle) hpos)
        (w := { w with
          servers := w.servers.put language middle
          stage := .sent request language (left - wait) (waited + wait) })
        rfl (Registry.put_servers _ _ _) hbudget hrest
      rw [Nat.add_assoc] at hlater
      rwa [Registry.putAfter_put] at hlater

/-- The same for a whole wait, which is over at once if there is no time for it. -/
theorem reaches_heard_of_await {language : Language} {nanos : Nat} {server after : σ}
    {awaited : Awaited Json}
    (hstage : w.stage = .sent request language w.completion.budget.total.toNanos 0)
    (hserver : w.servers.servers language = some server)
    (hwait : Mailbox.await (Completion.answer? request.id) w.completion.budget server =
      (awaited, nanos, after)) :
    w.Reaches { w with
      servers := w.servers.putAfter nanos language after
      ambient := w.ambient.pass nanos
      completion := w.completion.unlist request.id
      stage := .heard request awaited } := by
  rw [Mailbox.await] at hwait
  cases hbudget : w.completion.budget.total.isZero with
  | true =>
    rw [hbudget, if_pos rfl] at hwait
    cases hwait
    have hlook : w.look request w.completion.budget.total.toNanos server =
        .ends .timedOut 0 server := by
      rw [look, hbudget, if_pos rfl]
    have hwork : w.work = w.heed request language w.completion.budget.total.toNanos 0
        (w.look request w.completion.budget.total.toNanos server) := by
      rw [work, hstage]
      exact listen_of_some hserver request _ _
    apply Reaches.head
    rw [hwork, hlook]
    exact .refl _
  | false =>
    rw [hbudget, if_neg Bool.false_ne_true] at hwait
    have hheard := reaches_heard hstage hserver hbudget hwait
    rwa [Nat.zero_add] at hheard

theorem reaches_record {outcome : Outcome} (hstage : w.stage = .ended request outcome) :
    w.Reaches (w.record request outcome) := by
  apply Reaches.head
  rw [work, hstage]
  exact .refl _

theorem reaches_of_sent {language : Language} {server : σ}
    (hstage : w.stage = .sent request language w.completion.budget.total.toNanos 0)
    (hserver : w.servers.servers language = some server) :
    ∃ outcome c r a, w.completion.awaitReply request language w.document w.servers w.ambient =
        (outcome, c, r, a) ∧
      w.Reaches { w with
        completion := { c with menu := c.menu.settle request.id outcome }
        servers := r
        ambient := a
        stage := .idle
        settled := w.settled ++ [(request, outcome)] } := by
  rcases hwait : Mailbox.await (Completion.answer? request.id) w.completion.budget server with
    ⟨awaited, nanos, after⟩
  have hheard := reaches_heard_of_await hstage hserver hwait
  refine ⟨_, _, _, _, Completion.awaitReply_eq w.document w.ambient hserver hwait, ?_⟩
  exact hheard.trans (.head (reaches_record rfl))

/-- What the worker has done when it has settled a request in one go. -/
def settle (w : Worker σ) (request : CompletionRequest) : Worker σ :=
  let (outcome, _) := w.completion.process request w.document w.servers w.ambient
  let (completion, servers, ambient) :=
    w.completion.settle request w.document w.servers w.ambient
  { w with
    completion, servers, ambient
    stage := .idle
    settled := w.settled ++ [(request, outcome)] }

theorem settle_of_process {c : Completion} {r : Registry σ} {a : Ambient} {outcome : Outcome}
    (h : w.completion.process request w.document w.servers w.ambient = (outcome, c, r, a)) :
    w.settle request =
      { w with
        completion := { c with menu := c.menu.settle request.id outcome }
        servers := r
        ambient := a
        stage := .idle
        settled := w.settled ++ [(request, outcome)] } := by
  simp only [settle, Completion.settle_of_process h, h]

theorem work_work_of_sent {language : Language} {server sent : σ}
    (hstage : w.stage = .taken request)
    (haddressee : w.servers.addressee? request.path = some (language, server))
    (hsent : Adapter.send (request.call w.document).body (Mailbox.emptied server) =
      (.ok (), sent)) :
    w.work.work =
      let handed := { w with
        completion := { w.completion with pending := w.completion.pending.insert request }
        servers := (w.servers.put language (Mailbox.emptied server)).put language sent }
      if w.ambient.canWait w.completion.budget.total then
        { handed with stage := .sent request language w.completion.budget.total.toNanos 0 }
      else { handed with stage := .gone request, queue := [] } := by
  have hsendTo := Registry.sendTo_put w.servers language (Mailbox.emptied server)
    (request.call w.document).body
  have hwork : w.work = w.list request := by rw [work, hstage]
  rw [hsent] at hsendTo
  rw [hwork, list, haddressee]
  simp only [work, hand, hsendTo]

/-- A request that nothing comes between is carried out as `Completion.settle` carries it out,
unless it overruns. -/
theorem reaches_settle (hstage : w.stage = .taken request)
    (hmeasured : w.completion.overruns request w.document w.servers w.ambient = false) :
    w.Reaches (w.settle request) := by
  apply Reaches.head
  have hwork : w.work = w.list request := by rw [work, hstage]
  have hsend := Completion.send_eq w.completion request (request.call w.document).body w.servers
  cases haddressee : w.servers.addressee? request.path with
  | none =>
    rw [haddressee] at hsend
    rw [hwork, list, haddressee,
      settle_of_process (Completion.process_of_unsent w.ambient w.document hsend)]
    exact reaches_record rfl
  | some found =>
    obtain ⟨language, server⟩ := found
    rw [haddressee] at hsend
    apply Reaches.head
    rcases hsent : Adapter.send (request.call w.document).body (Mailbox.emptied server) with
      ⟨result, sent⟩
    simp only [hsent] at hsend
    cases result with
    | error fault =>
      have hsendTo := Registry.sendTo_put w.servers language (Mailbox.emptied server)
        (request.call w.document).body
      rw [hsent] at hsendTo
      rw [hwork, list, haddressee]
      simp only [work, hand, hsendTo]
      rw [settle_of_process (Completion.process_of_unsent w.ambient w.document hsend)]
      exact reaches_record rfl
    | ok =>
      have hclock : w.ambient.canWait w.completion.budget.total = true := by
        rw [Completion.overruns, hsend] at hmeasured
        simpa using hmeasured
      let sentWorker : Worker σ := { w with
        completion := { w.completion with pending := w.completion.pending.insert request }
        servers := (w.servers.put language (Mailbox.emptied server)).put language sent
        stage := .sent request language w.completion.budget.total.toNanos 0 }
      obtain ⟨outcome, c, r, a, hreply, hreaches⟩ :=
        reaches_of_sent (w := sentWorker) rfl (Registry.put_servers _ _ _)
      rw [work_work_of_sent hstage haddressee hsent, hclock, if_pos rfl, settle_of_process
        ((Completion.process_of_sent w.ambient w.document hsend).trans hreply)]
      exact hreaches

/-- What is true of a client however it got where it is. -/
structure Orderly (w : Worker σ) : Prop extends w.Consistent where
  hasSettled : ∀ id, w.completion.menu.hasSettled id = true ↔
    ∃ last ∈ w.settled.getLast?, id ≤ last.1.id
  keeps : ∀ moves, w.settled <+: (w.run moves).settled
  /-- Enough steps of the worker settle everything that is queued, whatever happens in between. -/
  ends : ∃ steps, ∀ moves : List (Move σ), w.InTime moves → (∀ m ∈ moves, m.asked? = none) →
    steps ≤ moves.countP Move.works →
      (w.run moves).settled.map Prod.fst = w.asked ∧ (w.run moves).completion.pending.requests = []
  /-- Left alone, the worker does with a request what `Completion.settle` does. -/
  settles : ∀ request, w.stage = .taken request →
    w.completion.overruns request w.document w.servers w.ambient = false →
      w.Reaches (w.settle request)

omit [Adapter σ] in
theorem Consistent.hasSettled_iff (h : w.Consistent) (id : Int) :
    w.completion.menu.hasSettled id = true ↔ ∃ last ∈ w.settled.getLast?, id ≤ last.1.id := by
  rw [Menu.hasSettled, h.settledRequest]
  cases w.settled.getLast? with
  | none => simp
  | some last => simp

omit [Adapter σ] in
theorem Consistent.settled_of_remaining_eq_zero (h : w.Consistent)
    (hzero : w.remaining = 0) :
    w.settled.map Prod.fst = w.asked ∧ w.completion.pending.requests = [] := by
  obtain ⟨hstage, hqueue⟩ := (remaining_eq_zero_iff h.atWork).1 hzero
  obtain ⟨horder, hpending⟩ := h.at_stage hstage
  rw [hqueue] at horder
  exact ⟨by simpa [Stage.request?] using horder, hpending⟩

theorem Consistent.orderly (h : w.Consistent) : w.Orderly := by
  refine { h with
    hasSettled := h.hasSettled_iff
    keeps := settled_run w
    ends := ?_
    settles := fun request => reaches_settle }
  · refine ⟨w.remaining, ?_⟩
    intro moves hclock hquiet hsteps
    obtain ⟨new, hasked, hnew⟩ := w.asked_run moves
    rw [List.filterMap_eq_nil_iff.2 hquiet, List.map_eq_nil_iff] at hnew
    rw [hnew, List.append_nil] at hasked
    have hremaining := remaining_run h hclock hquiet
    rw [Nat.sub_eq_zero_of_le hsteps] at hremaining
    rw [← hasked]
    exact (consistent_run h hclock).settled_of_remaining_eq_zero (Nat.le_zero.1 hremaining)

/-- However a new client is used, its worker settles the requests that are queued one by one, each
once and in the order of the calls, as long as the clock gets to show the end of its waits. -/
theorem settles_in_order (config : Config) (document : Snapshot) (servers : Registry σ)
    (ambient : Ambient) (moves : List (Move σ))
    (hclock : (start config document servers ambient).InTime moves) :
    let w := (start config document servers ambient).run moves
    w.asked.map CompletionRequest.place = moves.filterMap Move.asked? ∧ w.Orderly := by
  have hconsistent := consistent_run (consistent_start config document servers ambient) hclock
  obtain ⟨asked, hasked, hplaces⟩ := (start config document servers ambient).asked_run moves
  refine ⟨?_, hconsistent.orderly⟩
  rw [hasked]
  exact hplaces

end

/-- A client of one server that never replies, and of one that takes no bodies. -/
def halfServed : Registry Scripted where
  servers language :=
    match language with
    | .go => some { language, inbox := .ofCapacity 8, ready := true }
    | .python => some { language, inbox := .ofCapacity 8, ready := true, refusesBodies := true }
    | _ => none

def threeRequests : List (Move Scripted) :=
  [.ask ⟨"/w/a.go"⟩ 0 2, .ask ⟨"/w/b.py"⟩ 0 2, .ask ⟨"/w/c.txt"⟩ 0 2] ++ List.replicate 16 .work

theorem settles_in_order_halfServed :
    (start {} ⟨"pr", 2, [0]⟩ halfServed {}).InTime threeRequests ∧
      ((start {} ⟨"pr", 2, [0]⟩ halfServed {}).run threeRequests).Orderly := by
  have hmetered : (start {} ⟨"pr", 2, [0]⟩ halfServed {}).Metered 750000000 := ⟨by decide, nofun⟩
  have hclock : (start {} ⟨"pr", 2, [0]⟩ halfServed {}).InTime threeRequests :=
    inTime_of_lt hmetered (by decide) (by decide)
  exact ⟨hclock, (settles_in_order {} _ halfServed {} threeRequests hclock).2⟩

end Worker

end LanguageClient.Workspace
