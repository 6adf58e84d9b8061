import LanguageClient.Wire.Inbox

namespace LanguageClient.Wire.Inbox

/-- What the holder of a handle may do with an inbox. -/
inductive Action where
  | push (frame : Bytes)
  | receive
  | drain
  | close

/-- An action through one of the handles that share an inbox. -/
structure Op where
  handle : Nat
  action : Action

inductive Answer where
  | pushed (keptAll : Bool)
  | received (result : Received)
  | drained (frames : List Bytes)
  | closed

def perform (inbox : Inbox) : Action → Answer × Inbox
  | .push frame => (.pushed (inbox.push frame).1, (inbox.push frame).2)
  | .receive => (.received inbox.receive.1, inbox.receive.2)
  | .drain => (.drained inbox.drain.1, inbox.drain.2)
  | .close => (.closed, inbox.close)

/-- An operation with its answer and the inbox before and after it. -/
structure Step where
  op : Op
  answer : Answer
  before : Inbox
  after : Inbox

/-- What an operation does to an inbox. -/
def step (inbox : Inbox) (op : Op) : Step :=
  ⟨op, (inbox.perform op.action).1, inbox, (inbox.perform op.action).2⟩

/-- The steps of a run and the inbox at its end. -/
def run (inbox : Inbox) : List Op → List Step × Inbox
  | [] => ([], inbox)
  | op :: ops =>
    let (steps, last) := (inbox.step op).after.run ops
    (inbox.step op :: steps, last)

/-- Why a frame is no longer queued: it was given to a handle, or it had to make room. -/
inductive Fate where
  | delivered (handle : Nat)
  | discarded
  deriving DecidableEq

def Op.pushes (op : Op) : List Bytes :=
  match op.action with
  | .push frame => [frame]
  | _ => []

/-- The frames that a step takes out of the queue, the oldest first: those it answers with, and
those that are gone after a push. -/
def Step.settled (s : Step) : List (Bytes × Fate) :=
  match s.op.action, s.answer with
  | .push _, _ =>
    (s.before.frames.take (s.before.frames.length + 1 - s.after.frames.length)).map (·, .discarded)
  | _, .received (.frame body) => [(body, .delivered s.op.handle)]
  | _, .drained frames => frames.map (·, .delivered s.op.handle)
  | _, _ => []

/-- How many frames were discarded. -/
def discards (settled : List (Bytes × Fate)) : Nat := settled.countP (·.2 = .discarded)

theorem discards_append (first second : List (Bytes × Fate)) :
    discards (first ++ second) = discards first + discards second :=
  List.countP_append

theorem discards_eq_zero {settled : List (Bytes × Fate)}
    (h : ∀ frame, (frame, .discarded) ∉ settled) : discards settled = 0 := by
  rw [discards, List.countP_eq_zero]
  rintro ⟨frame, fate⟩ hmem hfate
  apply h frame
  rwa [← of_decide_eq_true hfate]

/-- A step that loses and duplicates no frame, and discards one only to make room for another. -/
structure Step.Lawful (s : Step) : Prop where
  conserves : s.before.frames ++ s.op.pushes = s.settled.map Prod.fst ++ s.after.frames
  counts : s.after.dropped = s.before.dropped + discards s.settled
  capacity : s.after.capacity = s.before.capacity
  fits : s.after.frames.length ≤ s.after.capacity
  closed : s.after.closed = true ↔ s.before.closed = true ∨ s.op.action = .close
  makesRoom : ∀ frame, (frame, .discarded) ∈ s.settled → ∃ pushed, s.op.action = .push pushed ∧
    s.before.frames ++ [pushed] = frame :: s.after.frames ∧
    s.after.frames.length = s.after.capacity
  refuses : s.answer = .pushed false ↔ ∃ frame, (frame, .discarded) ∈ s.settled

theorem Step.Lawful.of_keeping {s : Step} (hkeeps : ∀ frame, (frame, .discarded) ∉ s.settled)
    (hanswer : s.answer ≠ .pushed false) (hdropped : s.after.dropped = s.before.dropped)
    (hconserves : s.before.frames ++ s.op.pushes = s.settled.map Prod.fst ++ s.after.frames)
    (hcapacity : s.after.capacity = s.before.capacity)
    (hfits : s.after.frames.length ≤ s.after.capacity)
    (hclosed : s.after.closed = true ↔ s.before.closed = true ∨ s.op.action = .close) :
    s.Lawful where
  conserves := hconserves
  counts := by rw [discards_eq_zero hkeeps, hdropped, Nat.add_zero]
  capacity := hcapacity
  fits := hfits
  closed := hclosed
  makesRoom frame h := absurd h (hkeeps frame)
  refuses := ⟨fun h => absurd h hanswer, fun ⟨frame, h⟩ => absurd h (hkeeps frame)⟩

section

variable {inbox : Inbox}

theorem lawful_push_of_lt (h : inbox.frames.length < inbox.capacity) (handle : Nat)
    (frame : Bytes) : (inbox.step ⟨handle, .push frame⟩).Lawful := by
  have hstep : inbox.step ⟨handle, .push frame⟩ = ⟨⟨handle, .push frame⟩, .pushed true, inbox,
      { inbox with frames := inbox.frames ++ [frame] }⟩ := by
    rw [step, perform, push_of_lt h]
  have hsettled : (inbox.step ⟨handle, .push frame⟩).settled = [] := by
    simp [hstep, Step.settled]
  apply Step.Lawful.of_keeping
  · rw [hsettled]
    exact fun _ => List.not_mem_nil
  · rw [hstep]
    intro hanswer
    cases hanswer
  · rw [hstep]
  · rw [hsettled, hstep]
    rfl
  · rw [hstep]
  · rw [hstep, List.length_append]
    exact h
  · simp [hstep]

theorem lawful_push_of_eq (h : inbox.frames.length = inbox.capacity) (handle : Nat)
    (frame : Bytes) : (inbox.step ⟨handle, .push frame⟩).Lawful := by
  have hpos : 0 < inbox.frames.length := h ▸ inbox.capacity_pos
  obtain ⟨oldest, rest, hframes⟩ := List.exists_cons_of_length_pos hpos
  have hstep : inbox.step ⟨handle, .push frame⟩ = ⟨⟨handle, .push frame⟩, .pushed false, inbox,
      { inbox with frames := rest ++ [frame], dropped := inbox.dropped + 1 }⟩ := by
    rw [step, perform, push_of_eq hframes h]
  have hsettled : (inbox.step ⟨handle, .push frame⟩).settled = [(oldest, .discarded)] := by
    simp [hstep, Step.settled, hframes]
  have hlength : (rest ++ [frame]).length = inbox.capacity := by
    rw [← h, hframes, List.length_append]
    rfl
  constructor
  case conserves =>
    rw [hsettled, hstep, hframes]
    rfl
  case counts =>
    rw [hsettled, hstep]
    rfl
  case capacity => rw [hstep]
  case fits =>
    rw [hstep]
    exact Nat.le_of_eq hlength
  case closed => simp [hstep]
  case makesRoom =>
    intro lost hlost
    rw [hsettled, List.mem_singleton, Prod.mk.injEq] at hlost
    rw [hstep, hlost.1]
    exact ⟨frame, rfl, by rw [hframes, List.cons_append], hlength⟩
  case refuses =>
    rw [hsettled, hstep]
    exact ⟨fun _ => ⟨oldest, List.mem_singleton_self _⟩, fun _ => rfl⟩

theorem step_receive_of_cons {frame : Bytes} {rest : List Bytes}
    (h : inbox.frames = frame :: rest) (handle : Nat) :
    inbox.step ⟨handle, .receive⟩ = ⟨⟨handle, .receive⟩, .received (.frame frame), inbox,
      { inbox with frames := rest }⟩ := by
  rw [step, perform, receive, h]

theorem step_receive_of_nil (h : inbox.frames = []) (handle : Nat) :
    inbox.step ⟨handle, .receive⟩ = ⟨⟨handle, .receive⟩,
      .received (if inbox.closed then .closed else .timeout), inbox, inbox⟩ := by
  rw [step, perform, receive, h]

theorem lawful_receive (h : inbox.frames.length ≤ inbox.capacity) (handle : Nat) :
    (inbox.step ⟨handle, .receive⟩).Lawful := by
  cases hframes : inbox.frames with
  | nil =>
    have hstep := step_receive_of_nil hframes handle
    have hsettled : (inbox.step ⟨handle, .receive⟩).settled = [] := by
      rw [hstep]
      cases inbox.closed <;> rfl
    apply Step.Lawful.of_keeping
    · rw [hsettled]
      exact nofun
    · rw [hstep]
      exact nofun
    · rw [hstep]
    · rw [hsettled, hstep, hframes]
      rfl
    · rw [hstep]
    · rw [hstep]
      exact h
    · simp [hstep]
  | cons frame rest =>
    have hstep := step_receive_of_cons hframes handle
    have hsettled : (inbox.step ⟨handle, .receive⟩).settled = [(frame, .delivered handle)] := by
      rw [hstep]
      rfl
    rw [hframes, List.length_cons] at h
    apply Step.Lawful.of_keeping
    · simp [hsettled]
    · rw [hstep]
      exact nofun
    · rw [hstep]
    · rw [hsettled, hstep, hframes]
      simp [Op.pushes]
    · rw [hstep]
    · rw [hstep]
      exact Nat.le_of_succ_le h
    · simp [hstep]

theorem lawful_drain (handle : Nat) : (inbox.step ⟨handle, .drain⟩).Lawful := by
  have hsettled : (inbox.step ⟨handle, .drain⟩).settled =
      inbox.frames.map (·, .delivered handle) := rfl
  apply Step.Lawful.of_keeping
  · simp [hsettled]
  · exact nofun
  · rfl
  · rw [hsettled, List.map_map]
    simp [step, perform, drain, Op.pushes, Function.comp_def]
  · rfl
  · exact Nat.zero_le _
  · simp [step, perform, drain]

theorem lawful_close (h : inbox.frames.length ≤ inbox.capacity) (handle : Nat) :
    (inbox.step ⟨handle, .close⟩).Lawful := by
  have hsettled : (inbox.step ⟨handle, .close⟩).settled = [] := rfl
  apply Step.Lawful.of_keeping
  · rw [hsettled]
    exact nofun
  · exact nofun
  · rfl
  · rw [hsettled]
    exact List.append_nil _
  · rfl
  · exact h
  · simp [step, perform, close]

theorem lawful_step (h : inbox.frames.length ≤ inbox.capacity) (op : Op) :
    (inbox.step op).Lawful := by
  obtain ⟨handle, action⟩ := op
  cases action with
  | push frame =>
    rcases Nat.lt_or_eq_of_le h with hlt | heq
    · exact lawful_push_of_lt hlt handle frame
    · exact lawful_push_of_eq heq handle frame
  | receive => exact lawful_receive h handle
  | drain => exact lawful_drain handle
  | close => exact lawful_close h handle

end

/-- The frames that leave the queue in some steps, in the order in which they do. -/
def settled (steps : List Step) : List (Bytes × Fate) := steps.flatMap Step.settled

theorem settled_cons (first : Step) (steps : List Step) :
    settled (first :: steps) = first.settled ++ settled steps :=
  List.flatMap_cons

/-- What the laws of the steps give for a whole run. -/
structure Tally (inbox : Inbox) (ops : List Op) (steps : List Step) (last : Inbox) : Prop where
  conserves : inbox.frames ++ ops.flatMap Op.pushes =
    (settled steps).map Prod.fst ++ last.frames
  counts : last.dropped = inbox.dropped + discards (settled steps)
  fits : last.frames.length ≤ inbox.capacity
  closed : last.closed = true ↔ inbox.closed = true ∨ ∃ op ∈ ops, op.action = .close
  lawful : ∀ s ∈ steps, s.Lawful ∧ s.after.capacity = inbox.capacity

theorem tally {inbox : Inbox} (h : inbox.frames.length ≤ inbox.capacity) (ops : List Op) :
    Tally inbox ops (inbox.run ops).1 (inbox.run ops).2 := by
  induction ops generalizing inbox with
  | nil =>
    constructor
    case conserves => exact List.append_nil _
    case counts => rfl
    case fits => exact h
    case closed => simp [run]
    case lawful => exact nofun
  | cons op ops ih =>
    have hlawful := lawful_step h op
    have hbefore : (inbox.step op).before = inbox := rfl
    have hop : (inbox.step op).op = op := rfl
    have hcapacity : (inbox.step op).after.capacity = inbox.capacity := hlawful.capacity
    obtain ⟨hconserves, hcounts, hfits, hclosed, hall⟩ := ih hlawful.fits
    have hrun : inbox.run (op :: ops) =
        (inbox.step op :: ((inbox.step op).after.run ops).1,
          ((inbox.step op).after.run ops).2) := rfl
    rw [hrun]
    constructor
    case conserves =>
      have hfirst := hlawful.conserves
      rw [hbefore, hop] at hfirst
      rw [settled_cons, List.flatMap_cons, ← List.append_assoc, hfirst, List.append_assoc,
        hconserves, List.map_append, List.append_assoc]
    case counts =>
      rw [settled_cons, discards_append, hcounts, hlawful.counts, hbefore, Nat.add_assoc]
    case fits =>
      rw [← hcapacity]
      exact hfits
    case closed =>
      rw [hclosed, hlawful.closed, hbefore, hop, or_assoc]
      simp
    case lawful =>
      rw [← hcapacity]
      exact List.forall_mem_cons.2 ⟨⟨hlawful, rfl⟩, hall⟩

/-- Receiving as often as frames are queued gives all of them, through whatever handles. -/
theorem answers_run_receive {inbox : Inbox} {handles : List Nat}
    (h : handles.length = inbox.frames.length) :
    (inbox.run (handles.map (⟨·, .receive⟩))).1.map Step.answer =
      inbox.frames.map fun frame => .received (.frame frame) := by
  induction handles generalizing inbox with
  | nil =>
    rw [List.eq_nil_of_length_eq_zero h.symm]
    rfl
  | cons handle handles ih =>
    obtain ⟨frame, rest, hframes⟩ := List.exists_cons_of_length_eq_add_one h.symm
    have hstep := step_receive_of_cons hframes handle
    have hlength : handles.length = ({ inbox with frames := rest } : Inbox).frames.length := by
      rw [hframes] at h
      exact Nat.succ.inj h
    have hrest := ih hlength
    rw [List.map_cons, run, hstep, hframes]
    exact congrArg (Answer.received (.frame frame) :: ·) hrest

theorem answer_receive_eq_closed_iff (inbox : Inbox) (handle : Nat) :
    (inbox.step ⟨handle, .receive⟩).answer = .received .closed ↔
      inbox.frames = [] ∧ inbox.closed = true := by
  cases hframes : inbox.frames with
  | nil =>
    rw [step_receive_of_nil hframes]
    cases inbox.closed <;> simp
  | cons frame rest =>
    rw [step_receive_of_cons hframes]
    simp

/-- The account of a run from an empty inbox, whose end may be any point of a longer run: the pushed
frames are those that were delivered or discarded, the ones that left the queue first in front, and
then those that are queued. -/
structure Accounted (capacity : Nat) (ops : List Op) (steps : List Step) (last : Inbox) :
    Prop where
  conserves : ops.flatMap Op.pushes = (settled steps).map Prod.fst ++ last.frames
  fits : last.frames.length ≤ max capacity 1
  counts : last.dropped = discards (settled steps)
  makesRoom : ∀ s ∈ steps, ∀ frame, (frame, .discarded) ∈ s.settled →
    ∃ pushed, s.op.action = .push pushed ∧ s.before.frames ++ [pushed] = frame :: s.after.frames ∧
      s.after.frames.length = max capacity 1
  refuses : ∀ s ∈ steps, s.answer = .pushed false ↔ ∃ frame, (frame, .discarded) ∈ s.settled
  closes : ∀ handle, (last.step ⟨handle, .receive⟩).answer = .received .closed ↔
    last.frames = [] ∧ ∃ op ∈ ops, op.action = .close
  /-- What is queued can still be received, closed or not. -/
  delivers : ∀ handles : List Nat, handles.length = last.frames.length →
    (last.run (handles.map (⟨·, .receive⟩))).1.map Step.answer =
      last.frames.map fun frame => .received (.frame frame)

/-- Every run of operations on an inbox, through any handles, is accounted for. -/
theorem accounted (capacity : Nat) (ops : List Op) :
    Accounted capacity ops ((ofCapacity capacity).run ops).1 ((ofCapacity capacity).run ops).2 := by
  have hempty : (ofCapacity capacity).frames.length ≤ (ofCapacity capacity).capacity :=
    Nat.zero_le _
  obtain ⟨hconserves, hcounts, hfits, hclosed, hlawful⟩ := tally hempty ops
  constructor
  case conserves => exact hconserves
  case fits => exact hfits
  case counts => exact hcounts.trans (Nat.zero_add _)
  case makesRoom =>
    intro s hs frame hframe
    obtain ⟨hstep, hcapacity⟩ := hlawful s hs
    obtain ⟨pushed, haction, hsplit, hlength⟩ := hstep.makesRoom frame hframe
    exact ⟨pushed, haction, hsplit, hlength.trans hcapacity⟩
  case refuses =>
    intro s hs
    exact (hlawful s hs).1.refuses
  case closes =>
    intro handle
    have hfresh : (ofCapacity capacity).closed = false := rfl
    rw [answer_receive_eq_closed_iff, hclosed, hfresh]
    simp
  case delivers =>
    intro handles hlength
    exact answers_run_receive hlength

end LanguageClient.Wire.Inbox
