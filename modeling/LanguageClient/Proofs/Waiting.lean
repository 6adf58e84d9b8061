import LanguageClient.Wire.Await

namespace LanguageClient.Wire

namespace Inbox

theorem answerIn_map_fst {α : Type} (answer? : Bytes → Option α) (frames : List Bytes) :
    (answerIn answer? frames).map Prod.fst = frames.findSome? answer? := by
  induction frames with
  | nil => rfl
  | cons frame rest ih =>
    rw [answerIn, List.findSome?_cons]
    cases answer? frame with
    | some answer => rfl
    | none => exact ih

theorem firstAnswer_map_fst {α : Type} (answer? : Bytes → Option α) (inbox : Inbox) :
    (inbox.firstAnswer answer?).map Prod.fst = inbox.frames.findSome? answer? := by
  rw [← answerIn_map_fst, firstAnswer, Option.map_map]
  rfl

end Inbox

/-- The frames that arrive during a wait, and whether no more can come at its end. -/
structure Traffic where
  frames : List Bytes
  closed : Bool

namespace Traffic

/-- How a wait ends that meets this traffic. -/
def awaited {α : Type} (t : Traffic) (answer? : Bytes → Option α) : Awaited α :=
  match t.frames.findSome? answer? with
  | some answer => .found answer
  | none => if t.closed then .closed else .timedOut

def after (frames : List Bytes) (t : Traffic) : Traffic := { t with frames := frames ++ t.frames }

theorem awaited_after {α : Type} (answer? : Bytes → Option α) (frames : List Bytes)
    (t : Traffic) :
    (t.after frames).awaited answer? =
      match frames.findSome? answer? with
      | some answer => .found answer
      | none => t.awaited answer? := by
  rw [awaited, after, List.findSome?_append]
  cases frames.findSome? answer? with
  | some answer => rfl
  | none => rfl

end Traffic

namespace Mailbox

variable {κ : Type} [Mailbox κ]

def emptied (mailbox : κ) : κ := setInbox (inbox mailbox).drain.2 mailbox

/-- What arrives at a mailbox within some nanoseconds if everything is thrown away. -/
def traffic (left : Nat) (mailbox : κ) : Traffic :=
  let later : Traffic :=
    if (inbox mailbox).closed then ⟨[], true⟩
    else match due (emptied mailbox) with
      | some wait =>
        if 0 < wait ∧ wait ≤ left then traffic (left - wait) (pass wait (emptied mailbox))
        else ⟨[], false⟩
      | none => ⟨[], false⟩
  later.after (inbox mailbox).frames
termination_by left

/-- The first answer in the inbox ends the wait at once, and an inbox without an answer does not
change how the rest of the wait ends. -/
theorem awaitWithin_fst {α : Type} (answer? : Bytes → Option α) (left : Nat) (mailbox : κ) :
    (awaitWithin answer? left mailbox).1 = (traffic left mailbox).awaited answer? := by
  induction left, mailbox using traffic.induct with
  | case1 left mailbox ih =>
    rw [awaitWithin, traffic, Traffic.awaited_after, ← Inbox.firstAnswer_map_fst]
    cases (inbox mailbox).firstAnswer answer? with
    | some found => rfl
    | none =>
      change (if (inbox mailbox).closed then (_, _, _)
        else match due (emptied mailbox) with | some wait => _ | none => _).1 = _
      by_cases hclosed : (inbox mailbox).closed
      · rw [if_pos hclosed, if_pos hclosed]
        rfl
      · rw [if_neg hclosed, if_neg hclosed]
        cases due (emptied mailbox) with
        | none => rfl
        | some wait =>
          by_cases hwait : 0 < wait ∧ wait ≤ left
          · simp only [if_pos hwait]
            exact ih wait hwait
          · simp only [if_neg hwait]
            rfl

/-- What one look at a mailbox gives: the wait ends, or it goes on after some nanoseconds. -/
inductive Look (α κ : Type) where
  | ends (awaited : Awaited α) (nanos : Nat) (mailbox : κ)
  | waits (nanos : Nat) (mailbox : κ)

def Look.mailbox {α κ : Type} : Look α κ → κ
  | .ends _ _ mailbox => mailbox
  | .waits _ mailbox => mailbox

def look {α : Type} (answer? : Bytes → Option α) (left : Nat) (mailbox : κ) : Look α κ :=
  match (inbox mailbox).firstAnswer answer? with
  | some (answer, rest) => .ends (.found answer) 0 (setInbox rest mailbox)
  | none =>
    if (inbox mailbox).closed then .ends .closed 0 (emptied mailbox)
    else match due (emptied mailbox) with
      | some wait =>
        if 0 < wait ∧ wait ≤ left then .waits wait (pass wait (emptied mailbox))
        else .ends .timedOut left (pass left (emptied mailbox))
      | none => .ends .timedOut left (pass left (emptied mailbox))

theorem look_waits {α : Type} {answer? : Bytes → Option α} {left wait : Nat}
    {mailbox after : κ} (h : look answer? left mailbox = .waits wait after) :
    0 < wait ∧ wait ≤ left := by
  rw [look] at h
  split at h
  · cases h
  · split at h
    · cases h
    · split at h
      · split at h
        case isTrue hwait =>
          cases h
          exact hwait
        case isFalse => cases h
      · cases h

theorem look_ends {α : Type} {answer? : Bytes → Option α} {left nanos : Nat}
    {awaited : Awaited α} {mailbox after : κ}
    (h : look answer? left mailbox = .ends awaited nanos after) : nanos ≤ left := by
  rw [look] at h
  split at h
  · cases h
    exact Nat.zero_le left
  · split at h
    · cases h
      exact Nat.zero_le left
    · split at h
      · split at h
        · cases h
        · cases h
          exact Nat.le_refl left
      · cases h
        exact Nat.le_refl left

theorem awaitWithin_eq_look {α : Type} (answer? : Bytes → Option α) (left : Nat) (mailbox : κ) :
    awaitWithin answer? left mailbox =
      match look answer? left mailbox with
      | .ends awaited nanos after => (awaited, nanos, after)
      | .waits wait after =>
        let (awaited, nanos, last) := awaitWithin answer? (left - wait) after
        (awaited, wait + nanos, last) := by
  rw [awaitWithin, look]
  cases (inbox mailbox).firstAnswer answer? with
  | some found => rfl
  | none =>
    change (if (inbox mailbox).closed then _
      else match due (emptied mailbox) with | some wait => _ | none => _) = _
    by_cases hclosed : (inbox mailbox).closed
    · simp only [if_pos hclosed]
      rfl
    · simp only [if_neg hclosed]
      cases due (emptied mailbox) with
      | none => rfl
      | some wait =>
        by_cases hwait : 0 < wait ∧ wait ≤ left
        · simp only [if_pos hwait]
          rfl
        · simp only [if_neg hwait]
          rfl

/-- A property of mailboxes that neither reading nor time changes. -/
structure Lasting (P : κ → Prop) : Prop where
  setInbox {mailbox : κ} {box : Inbox} (h : P mailbox)
    (hclosed : box.closed = (inbox mailbox).closed) : P (Mailbox.setInbox box mailbox)
  pass {mailbox : κ} (h : P mailbox) (nanos : Nat) : P (Mailbox.pass nanos mailbox)

namespace Lasting

variable {P : κ → Prop} {mailbox : κ}

theorem emptied (hP : Lasting P) (h : P mailbox) : P (emptied mailbox) := hP.setInbox h rfl

theorem look {α : Type} (hP : Lasting P) (answer? : Bytes → Option α) (left : Nat)
    (h : P mailbox) : P (look answer? left mailbox).mailbox := by
  rw [Mailbox.look, Inbox.firstAnswer]
  cases Inbox.answerIn answer? (inbox mailbox).frames with
  | some found => exact hP.setInbox h rfl
  | none =>
    dsimp only [Option.map_none]
    by_cases hclosed : (inbox mailbox).closed
    · rw [if_pos hclosed]
      exact hP.emptied h
    · rw [if_neg hclosed]
      cases due (Mailbox.emptied mailbox) with
      | none => exact hP.pass (hP.emptied h) left
      | some wait =>
        dsimp only
        split
        case isTrue => exact hP.pass (hP.emptied h) wait
        case isFalse => exact hP.pass (hP.emptied h) left

theorem awaitWithin {α : Type} (hP : Lasting P) (answer? : Bytes → Option α) (left : Nat)
    (h : P mailbox) : P (awaitWithin answer? left mailbox).2.2 := by
  induction left using Nat.strongRecOn generalizing mailbox with
  | ind left ih =>
    have hlooked := hP.look answer? left h
    rw [awaitWithin_eq_look]
    cases hlook : Mailbox.look answer? left mailbox with
    | ends awaited nanos after =>
      rw [hlook] at hlooked
      exact hlooked
    | waits wait after =>
      rw [hlook] at hlooked
      obtain ⟨hpos, hle⟩ := look_waits hlook
      exact ih (left - wait) (by omega) hlooked

theorem receive (hP : Lasting P) (nanos : Nat) (h : P mailbox) :
    P (receive nanos mailbox).2.2 := by
  have hwaited := hP.awaitWithin some nanos h
  rw [Mailbox.receive]
  rcases hwait : Mailbox.awaitWithin some nanos mailbox with ⟨awaited, passed, after⟩
  rw [hwait] at hwaited
  cases awaited with
  | found frame => exact hwaited
  | timedOut => exact hwaited
  | closed => exact hwaited

theorem await {α : Type} (hP : Lasting P) (answer? : Bytes → Option α) (budget : PollBudget)
    (h : P mailbox) : P (await answer? budget mailbox).2.2 := by
  rw [Mailbox.await]
  cases budget.total.isZero with
  | true => exact h
  | false =>
    rw [if_neg Bool.false_ne_true]
    exact hP.awaitWithin answer? _ h

end Lasting

/-- What a wait with a budget looks at. Without any time that is nothing. -/
def arrivals (budget : PollBudget) (mailbox : κ) : Traffic :=
  if budget.total.isZero then ⟨[], false⟩ else traffic budget.total.toNanos mailbox

theorem await_fst {α : Type} (answer? : Bytes → Option α) (budget : PollBudget) (mailbox : κ) :
    (await answer? budget mailbox).1 = (arrivals budget mailbox).awaited answer? := by
  rw [await, arrivals]
  cases budget.total.isZero with
  | true => rfl
  | false =>
    rw [if_neg Bool.false_ne_true, if_neg Bool.false_ne_true]
    exact awaitWithin_fst answer? _ mailbox

end Mailbox

end LanguageClient.Wire
