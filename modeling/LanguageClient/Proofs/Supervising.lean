import LanguageClient.Proofs.Waiting
import LanguageClient.Server.Supervised

namespace LanguageClient.Server

open Wire

/-- What was done with the processes of a server that has one at a time, the newest first, and the
process that it has after that. -/
inductive Orderly : List ProcessEvent → Option Nat → Prop where
  | empty : Orderly [] none
  | launched {events : List ProcessEvent} {pid : Nat} (h : Orderly events none)
      (hnew : ∀ event ∈ events, event.pid ≠ pid) : Orderly (.launched pid :: events) (some pid)
  | retired {events : List ProcessEvent} {pid : Nat} (h : Orderly events (some pid)) :
      Orderly (.retired pid :: events) none

namespace Orderly

variable {events : List ProcessEvent} {held : Option Nat} {pid : Nat}

theorem not_mem_of_new {event : ProcessEvent} (hnew : ∀ event ∈ events, event.pid ≠ pid)
    (hpid : event.pid = pid) : event ∉ events :=
  fun hmem => hnew event hmem hpid

theorem count_eq (h : Orderly events held) (hmem : .launched pid ∈ events) :
    events.count (.launched pid) = 1 ∧
      events.count (.retired pid) = if held = some pid then 0 else 1 := by
  induction h with
  | empty => cases hmem
  | @launched events new h hnew ih =>
    by_cases hpid : pid = new
    · subst hpid
      have hfresh : ProcessEvent.launched pid ∉ events := not_mem_of_new hnew rfl
      have hkept : ProcessEvent.retired pid ∉ events := not_mem_of_new hnew rfl
      simp [List.count_eq_zero_of_not_mem hfresh, List.count_eq_zero_of_not_mem hkept]
    · obtain ⟨hlaunched, hretired⟩ := ih (by simpa [hpid] using hmem)
      simp [hlaunched, hretired, Ne.symm hpid]
  | @retired events last h ih =>
    obtain ⟨hlaunched, hretired⟩ := ih (by simpa using hmem)
    by_cases hpid : pid = last
    · subst hpid
      simp [hlaunched, hretired]
    · simp [hlaunched, hretired, Ne.symm hpid]

theorem launched_mem (h : Orderly events held)
    (hpid : held = some pid ∨ .retired pid ∈ events) : .launched pid ∈ events := by
  induction h with
  | empty => simp at hpid
  | launched h hnew ih =>
    rcases hpid with hheld | hmem
    · cases hheld
      exact .head _
    · exact .tail _ (ih (.inr (by simpa using hmem)))
  | retired h ih =>
    rcases hpid with hheld | hmem
    · cases hheld
    · rcases List.mem_cons.1 hmem with hlast | hmem
      · cases hlast
        exact .tail _ (ih (.inl rfl))
      · exact .tail _ (ih (.inr hmem))

theorem earlier {later before : List ProcessEvent}
    (h : Orderly (later ++ .launched pid :: before) held) : Orderly before none := by
  induction later generalizing held with
  | nil =>
    cases h with
    | launched h hnew => exact h
  | cons event later ih =>
    cases h with
    | launched h hnew => exact ih h
    | retired h => exact ih h

theorem retired_mem (h : Orderly events none) (hmem : .launched pid ∈ events) :
    .retired pid ∈ events := by
  have hcount := (h.count_eq hmem).2
  rw [if_neg (Option.some_ne_none pid).symm] at hcount
  exact List.count_pos_iff.1 (by omega)

end Orderly

namespace Child

theorem pid_settle (c : Child) : (settle c).pid = c.pid := by
  rw [settle]
  dsimp only
  split <;> rfl

theorem pid_write (body : Bytes) (c : Child) : (c.write body).2.pid = c.pid := by
  rw [write]
  split
  case isTrue => rfl
  case isFalse => exact pid_settle _

theorem pid_pass (nanos : Nat) (c : Child) : (pass nanos c).pid = c.pid := by
  rw [pass]
  dsimp only
  split
  case isTrue => exact pid_settle _
  case isFalse => rfl

theorem lasting_pid (pid : Nat) : Mailbox.Lasting fun c : Child => c.pid = pid where
  setInbox h _ := h
  pass h nanos := (pid_pass nanos _).trans h

end Child

section

variable {κ : Type} [Link κ] {P : κ → Prop}

theorem writeThen_keeps (hwrite : ∀ {link : κ} (body : Bytes), P link → P (Link.write body link).2)
    {next : κ → Except Fault Unit × Nat × κ} (hnext : ∀ {link : κ}, P link → P (next link).2.2)
    (body : Bytes) (nanos : Nat) {link : κ} (h : P link) :
    P (writeThen body nanos next link).2.2 := by
  have hwritten := hwrite body h
  rw [writeThen]
  rcases hresult : Link.write body link with ⟨result, after⟩
  rw [hresult] at hwritten
  cases result with
  | error fault => exact hwritten
  | ok => exact hnext hwritten

theorem conclude_keeps (hwrite : ∀ {link : κ} (body : Bytes), P link → P (Link.write body link).2)
    (attempts : Nat) {awaited : Awaited (Except ServerFault Unit) × Nat × κ} (h : P awaited.2.2) :
    P (conclude attempts awaited).2.2 := by
  obtain ⟨awaited, nanos, link⟩ := awaited
  cases awaited with
  | timedOut => exact h
  | closed => exact h
  | found verdict =>
    cases verdict with
    | error fault => exact h
    | ok => exact writeThen_keeps hwrite id _ _ h

theorem handshake_keeps (hP : Mailbox.Lasting P)
    (hwrite : ∀ {link : κ} (body : Bytes), P link → P (Link.write body link).2) (process : Nat)
    (workspace : Option Path) (budget : PollBudget) {link : κ} (h : P link) :
    P (handshake process workspace budget link).2.2 := by
  have hwritten := hwrite (introduction process workspace).body h
  rw [handshake]
  rcases hresult : Link.write (introduction process workspace).body link with ⟨result, after⟩
  rw [hresult] at hwritten
  cases result with
  | error fault =>
    rw [writeThen, hresult]
    exact hwritten
  | ok =>
    rw [writeThen_of_ok hresult]
    exact conclude_keeps hwrite _ (hP.await verdict? budget hwritten)

end

theorem Adapter.exists_receive {σ : Type} [Adapter σ] (wait : Duration) (server : σ)
    (a : Ambient) :
    ∃ result nanos after, Adapter.receive wait server a = (result, after, a.pass nanos) ∧
      ∀ {P : σ → Prop}, Mailbox.Lasting P → P server → P after := by
  rw [receive]
  cases inbox? server with
  | none => exact ⟨_, 0, server, rfl, fun _ h => h⟩
  | some inbox =>
    have hkept : ∀ {P : σ → Prop}, Mailbox.Lasting P → P server →
        P (Mailbox.receive wait.toNanos server).2.2 := fun hP h => hP.receive _ h
    -- The result is named before the match is opened, or the kernel would compute the wait.
    generalize Mailbox.receive wait.toNanos server = received at hkept ⊢
    obtain ⟨received, nanos, after⟩ := received
    cases received with
    | frame body => exact ⟨_, nanos, after, rfl, hkept⟩
    | timeout => exact ⟨_, nanos, after, rfl, hkept⟩
    | closed => exact ⟨_, nanos, after, rfl, hkept⟩

namespace Phase

/-- Which process is held in a phase that an operation may leave behind. -/
inductive Holds : Phase → Option Nat → Prop where
  | uninitialized : Holds .uninitialized none
  | ready (child : Child) : Holds (.ready child) (some child.pid)
  | failed (reason : String) : Holds (.failed reason) none

end Phase

namespace Supervised

theorem pid?_of_holds {s : Supervised} {held : Option Nat} (h : s.phase.Holds held) :
    s.pid? = held := by
  rw [pid?]
  generalize s.phase = phase at h
  cases h with
  | uninitialized => rfl
  | ready child => rfl
  | failed reason => rfl

theorem lasting_holds (held : Option Nat) :
    Mailbox.Lasting fun s : Supervised => s.phase.Holds held := by
  constructor
  case setInbox =>
    intro s box h hclosed
    rcases s with ⟨language, host, launch, budget, capacity, grace, phase⟩
    cases h with
    | uninitialized => exact .uninitialized
    | ready child => exact .ready { child with inbox := box }
    | failed reason => exact .failed reason
  case pass =>
    intro s h nanos
    rcases s with ⟨language, host, launch, budget, capacity, grace, phase⟩
    cases h with
    | uninitialized => exact .uninitialized
    | ready child =>
      rw [← child.pid_pass nanos]
      exact .ready (child.pass nanos)
    | failed reason => exact .failed reason

theorem running?_eq_some_iff {s : Supervised} {child : Child} :
    s.running? = some child ↔ s.phase = .ready child ∧ child.isListening = true := by
  rw [running?]
  cases s.phase with
  | uninitialized => simp
  | initializing => simp
  | failed reason => simp
  | ready held =>
    rw [Option.ite_none_right_eq_some, Option.some_inj, Phase.ready.injEq]
    constructor
    · rintro ⟨hlistening, rfl⟩
      exact ⟨rfl, hlistening⟩
    · rintro ⟨rfl, hlistening⟩
      exact ⟨hlistening, rfl⟩

theorem send_of_not_running {s : Supervised} (h : s.running? = none) (body : Bytes) :
    s.send body = (.error .notReady, s) := by
  rw [send, h]

theorem send_of_running {s : Supervised} {child : Child} (h : s.running? = some child)
    (body : Bytes) :
    s.send body =
      ((child.write body).1.mapError .transport,
        { s with phase := .ready (child.write body).2 }) := by
  rw [send, h]
  dsimp only
  rcases child.write body with ⟨result, after⟩
  cases result with
  | ok => rfl
  | error fault => rfl

theorem holds_send {s : Supervised} {held : Option Nat} (h : s.phase.Holds held) (body : Bytes) :
    (s.send body).2.phase.Holds held := by
  cases hrunning : s.running? with
  | none =>
    rw [send_of_not_running hrunning]
    exact h
  | some child =>
    rw [(running?_eq_some_iff.1 hrunning).1] at h
    cases h
    rw [send_of_running hrunning, ← child.pid_write body]
    exact .ready _

theorem journal_retire (child : Child) (grace : Duration) (a : Ambient) :
    (retire child grace a).journal = .retired child.pid :: a.journal := by
  change ProcessEvent.retired (Child.write _ (Child.write _ child).2).2.pid :: a.journal = _
  rw [Child.pid_write, Child.pid_write]

def launched (s : Supervised) (program : Program) (a : Ambient) : Child :=
  .ofProgram a.freshPid program s.inboxCapacity

theorem pid_of_handshake {s : Supervised} {program : Program} {workspace : Path} {a : Ambient}
    {result : Except Fault Unit} {nanos : Nat} {child : Child}
    (h : Server.handshake 0 (some workspace) s.handshake (s.launched program a) =
      (result, nanos, child)) : child.pid = a.freshPid := by
  have hpid : (s.launched program a).pid = a.freshPid := rfl
  have hkept := handshake_keeps (Child.lasting_pid a.freshPid)
    (fun body h => (Child.pid_write body _).trans h) 0 (some workspace) s.handshake hpid
  rwa [h] at hkept

/-- What a start comes to. A server that is not ready is stopped first, and a process that fails
its handshake is retired. -/
inductive Starts (workspace : Path) (s : Supervised) (a : Ambient) :
    Except Fault Unit → Supervised → Ambient → Prop where
  | ready {child : Child} (hrunning : s.running? = some child) : Starts workspace s a (.ok ()) s a
  | refused {refusal : Host.Refusal} (hrunning : s.running? = none)
      (hlaunch : s.host.launch s.launch = .error refusal) :
      Starts workspace s a (.error (launchFault s.launch refusal))
        { s with phase := .failed (launchFault s.launch refusal).message } (s.stop a).2
  | connected {program : Program} {nanos : Nat} {child : Child} (hrunning : s.running? = none)
      (hlaunch : s.host.launch s.launch = .ok program)
      (hhandshake : Server.handshake 0 (some workspace) s.handshake
        (s.launched program (s.stop a).2) = (.ok (), nanos, child)) :
      Starts workspace s a (.ok ()) { s with phase := .ready child }
        (((s.stop a).2.note (.launched child.pid)).pass nanos)
  | rejected {program : Program} {nanos : Nat} {child : Child} {fault : Fault}
      (hrunning : s.running? = none) (hlaunch : s.host.launch s.launch = .ok program)
      (hhandshake : Server.handshake 0 (some workspace) s.handshake
        (s.launched program (s.stop a).2) = (.error fault, nanos, child)) :
      Starts workspace s a (.error fault) { s with phase := .failed fault.message }
        (retire child s.grace (((s.stop a).2.note (.launched child.pid)).pass nanos))

theorem stop_fst (s : Supervised) (a : Ambient) :
    (s.stop a).1 = { s with phase := .uninitialized } := by
  rw [stop]
  cases s.phase with
  | uninitialized => rfl
  | initializing => rfl
  | ready child => rfl
  | failed reason => rfl

theorem start_of_not_running {s : Supervised} (h : s.running? = none) (workspace : Path)
    (a : Ambient) : s.start workspace a = s.adopt (s.connect workspace (s.stop a).2) := by
  rw [start, h]
  dsimp only [Option.isSome_none]
  rw [if_neg Bool.false_ne_true]
  rcases hstop : s.stop a with ⟨idle, after⟩
  have hidle := s.stop_fst a
  rw [hstop] at hidle
  subst hidle
  rfl

theorem starts_start (workspace : Path) (s : Supervised) (a : Ambient) :
    Starts workspace s a (s.start workspace a).1 (s.start workspace a).2.1
      (s.start workspace a).2.2 := by
  cases hrunning : s.running? with
  | some child =>
    rw [start, hrunning]
    exact .ready hrunning
  | none =>
    rw [start_of_not_running hrunning, connect]
    cases hlaunch : s.host.launch s.launch with
    | error refusal => exact .refused hrunning hlaunch
    | ok program =>
      dsimp only
      rcases hhandshake : Server.handshake 0 (some workspace) s.handshake
          (s.launched program (s.stop a).2) with ⟨result, nanos, child⟩
      have hpid := pid_of_handshake hhandshake
      rw [launched] at hhandshake
      rw [hhandshake, ← hpid]
      cases result with
      | ok => exact .connected hrunning hlaunch hhandshake
      | error fault => exact .rejected hrunning hlaunch hhandshake

end Supervised

/-- The events that a journal has on top of an earlier one, and the process that is held after
them. -/
structure Accounts (before events : List ProcessEvent) (held : Option Nat) (a : Ambient) :
    Prop where
  journal : a.journal = events ++ before
  orderly : Orderly events held
  bounded : ∀ event ∈ events, event.pid ≤ a.journal.length

namespace Accounts

variable {before events : List ProcessEvent} {held : Option Nat} {a : Ambient}

theorem of_journal_eq {a' : Ambient} (h : Accounts before events held a)
    (hjournal : a'.journal = a.journal) : Accounts before events held a' where
  journal := hjournal.trans h.journal
  orderly := h.orderly
  bounded := hjournal ▸ h.bounded

theorem launched (h : Accounts before events none a) :
    Accounts before (.launched a.freshPid :: events) (some a.freshPid)
      (a.note (.launched a.freshPid)) where
  journal := congrArg (ProcessEvent.launched a.freshPid :: ·) h.journal
  orderly := .launched h.orderly fun event hmem => by
    have hle := h.bounded event hmem
    exact Nat.ne_of_lt (Nat.lt_succ_of_le hle)
  bounded := List.forall_mem_cons.2
    ⟨Nat.le_refl _, fun event hmem => Nat.le_succ_of_le (h.bounded event hmem)⟩

theorem retired {child : Child} (h : Accounts before events (some child.pid) a)
    (grace : Duration) :
    Accounts before (.retired child.pid :: events) none (Supervised.retire child grace a) := by
  have hjournal := Supervised.journal_retire child grace a
  have hlaunched := h.bounded _ (h.orderly.launched_mem (.inl rfl))
  constructor
  case journal => rw [hjournal, h.journal, List.cons_append]
  case orderly => exact .retired h.orderly
  case bounded =>
    rw [hjournal]
    exact List.forall_mem_cons.2
      ⟨Nat.le_succ_of_le hlaunched, fun event hmem => Nat.le_succ_of_le (h.bounded event hmem)⟩

end Accounts

namespace Supervised

/-- What may happen to a server: it is asked for something, or its process ends its output, or time
passes, in which the process goes on. A start may find other programs than the one before. -/
inductive Move where
  | start (host : Host) (workspace : Path)
  | send (body : Bytes)
  | receive (wait : Duration)
  | stop
  | hush
  | pass (nanos : Nat)

/-- The server after its process ended its output. -/
def hush (s : Supervised) : Supervised := Mailbox.setInbox (Mailbox.inbox s).close s

def move (s : Supervised) (a : Ambient) : Move → Supervised × Ambient
  | .start host workspace => ({ s with host }.start workspace a).2
  | .send body => ((s.send body).2, a)
  | .receive wait => (Adapter.receive wait s a).2
  | .stop => s.stop a
  | .hush => (s.hush, a)
  | .pass nanos => (Mailbox.pass nanos s, a.pass nanos)

def run (s : Supervised) (a : Ambient) : List Move → Supervised × Ambient
  | [] => (s, a)
  | move :: rest =>
    let (s, a) := s.move a move
    s.run a rest

section

variable {before events : List ProcessEvent} {held : Option Nat} {s : Supervised} {a : Ambient}

theorem holds_hush (h : s.phase.Holds held) : s.hush.phase.Holds held := by
  rcases s with ⟨language, host, launch, budget, capacity, grace, phase⟩
  cases h with
  | uninitialized => exact .uninitialized
  | ready child => exact .ready { child with inbox := child.inbox.close }
  | failed reason => exact .failed reason

/-- No process is held by a server that was stopped, so another may be launched. -/
theorem accounts_stop (hs : s.phase.Holds held) (h : Accounts before events held a) :
    ∃ last, Accounts before (last ++ events) none (s.stop a).2 := by
  rw [stop]
  cases hphase : s.phase with
  | ready child =>
    rw [hphase] at hs
    cases hs
    exact ⟨[.retired child.pid], h.retired s.grace⟩
  | initializing =>
    rw [hphase] at hs
    cases hs
  | uninitialized =>
    rw [hphase] at hs
    cases hs
    exact ⟨[], h⟩
  | failed reason =>
    rw [hphase] at hs
    cases hs
    exact ⟨[], h⟩

theorem accounts_starts {workspace : Path} {s' : Supervised} {a' : Ambient}
    {result : Except Fault Unit} (hs : s.phase.Holds held) (h : Accounts before events held a)
    (hstarts : Starts workspace s a result s' a') :
    ∃ more held', s'.phase.Holds held' ∧ Accounts before (more ++ events) held' a' := by
  obtain ⟨last, hidle⟩ := accounts_stop hs h
  cases hstarts with
  | ready hrunning => exact ⟨[], held, hs, h⟩
  | refused hrunning hlaunch => exact ⟨last, none, .failed _, hidle⟩
  | connected hrunning hlaunch hhandshake =>
    have hlaunched := hidle.launched
    rw [← pid_of_handshake hhandshake] at hlaunched
    exact ⟨_ :: last, _, .ready _, hlaunched.of_journal_eq rfl⟩
  | @rejected program nanos child fault hrunning hlaunch hhandshake =>
    have hlaunched := hidle.launched
    rw [← pid_of_handshake hhandshake] at hlaunched
    have hpassed : Accounts before _ _ (((s.stop a).2.note (.launched child.pid)).pass nanos) :=
      hlaunched.of_journal_eq rfl
    exact ⟨_ :: _ :: last, none, .failed _, hpassed.retired s.grace⟩

theorem accounts_receive (hs : s.phase.Holds held) (h : Accounts before events held a)
    (wait : Duration) :
    (Adapter.receive wait s a).2.1.phase.Holds held ∧
      Accounts before events held (Adapter.receive wait s a).2.2 := by
  obtain ⟨result, nanos, after, hreceive, hlasting⟩ := Adapter.exists_receive wait s a
  rw [hreceive]
  exact ⟨hlasting (lasting_holds held) hs, h.of_journal_eq rfl⟩

theorem accounts_move (hs : s.phase.Holds held) (h : Accounts before events held a) (m : Move) :
    ∃ more held', (s.move a m).1.phase.Holds held' ∧
      Accounts before (more ++ events) held' (s.move a m).2 := by
  cases m with
  | start host workspace =>
    have hhost : { s with host }.phase.Holds held := hs
    exact accounts_starts hhost h (starts_start workspace { s with host } a)
  | send body => exact ⟨[], held, holds_send hs body, h⟩
  | receive wait => exact ⟨[], held, accounts_receive hs h wait⟩
  | stop =>
    obtain ⟨last, hidle⟩ := accounts_stop hs h
    refine ⟨last, none, ?_, hidle⟩
    rw [move, stop_fst]
    exact .uninitialized
  | hush => exact ⟨[], held, holds_hush hs, h⟩
  | pass nanos => exact ⟨[], held, (lasting_holds held).pass hs nanos, h.of_journal_eq rfl⟩

theorem accounts_run (hs : s.phase.Holds held) (h : Accounts before events held a)
    (moves : List Move) :
    ∃ more held', (s.run a moves).1.phase.Holds held' ∧
      Accounts before (more ++ events) held' (s.run a moves).2 := by
  induction moves generalizing s a events held with
  | nil => exact ⟨[], held, hs, h⟩
  | cons m rest ih =>
    obtain ⟨more, held', hs', h'⟩ := accounts_move hs h m
    obtain ⟨later, last, hs'', h''⟩ := ih hs' h'
    rw [← List.append_assoc] at h''
    exact ⟨later ++ more, last, hs'', h''⟩

theorem Starts.isOk_iff {workspace : Path} {s' : Supervised} {a' : Ambient}
    {result : Except Fault Unit} (h : Starts workspace s a result s' a') :
    result.isOk = true ↔ ∃ child, s'.phase = .ready child := by
  cases h with
  | ready hrunning => exact iff_of_true rfl ⟨_, (running?_eq_some_iff.1 hrunning).1⟩
  | refused hrunning hlaunch => exact iff_of_false Bool.false_ne_true nofun
  | connected hrunning hlaunch hhandshake => exact iff_of_true rfl ⟨_, rfl⟩
  | rejected hrunning hlaunch hhandshake => exact iff_of_false Bool.false_ne_true nofun

theorem Starts.phase_of_error {workspace : Path} {s' : Supervised} {a' : Ambient} {fault : Fault}
    (h : Starts workspace s a (.error fault) s' a') : s'.phase = .failed fault.message := by
  cases h with
  | refused hrunning hlaunch => rfl
  | rejected hrunning hlaunch hhandshake => rfl

theorem Starts.launched_mem {workspace : Path} {s' : Supervised} {a' : Ambient}
    {result : Except Fault Unit} (h : Starts workspace s a result s' a')
    (hrunning : s.running? = none) {program : Program}
    (hlaunch : s.host.launch s.launch = .ok program) :
    .launched (s.stop a).2.freshPid ∈ a'.journal := by
  cases h with
  | ready hready =>
    rw [hrunning] at hready
    cases hready
  | refused _ hrefused =>
    rw [hlaunch] at hrefused
    cases hrefused
  | connected _ _ hhandshake =>
    rw [← pid_of_handshake hhandshake]
    exact .head _
  | rejected _ _ hhandshake =>
    rw [journal_retire, ← pid_of_handshake hhandshake]
    exact .tail _ (.head _)

theorem running?_eq_none_of_failed {reason : String} (h : s.phase = .failed reason) :
    s.running? = none := by
  rw [running?, h]

theorem stop_of_failed {reason : String} (h : s.phase = .failed reason) (a : Ambient) :
    s.stop a = ({ s with phase := .uninitialized }, a) := by
  rw [stop, h]

theorem start_of_failed {reason : String} (h : s.phase = .failed reason) (workspace : Path)
    (a : Ambient) : s.start workspace a = { s with phase := .uninitialized }.start workspace a := by
  rw [start_of_not_running (running?_eq_none_of_failed h), stop_of_failed h]
  rfl

theorem start_of_ready {child : Child} (h : s.phase = .ready child)
    (hopen : child.inbox.closed = false) (workspace : Path) :
    s.start workspace a = (.ok (), s, a) := by
  have hrunning : s.running? = some child :=
    running?_eq_some_iff.2 ⟨h, by rw [Child.isListening, hopen]; rfl⟩
  rw [start, hrunning]
  rfl

theorem send_refused_iff (s : Supervised) (body : Bytes) :
    (s.send body).1 = .error .notReady ↔ s.running? = none := by
  cases hrunning : s.running? with
  | none =>
    rw [send_of_not_running hrunning]
    exact iff_of_true rfl rfl
  | some child =>
    rw [send_of_running hrunning]
    refine iff_of_false ?_ nofun
    cases (child.write body).1 with
    | ok => exact nofun
    | error fault => exact nofun

end

/-- A server of which every process is accounted for, when these are the things done with its
processes so far, the newest first. -/
structure LeakFree (events : List ProcessEvent) (s : Supervised) (a : Ambient) : Prop where
  /-- A process was launched once, and retired once unless it is the one that is held. -/
  once : ∀ pid, .launched pid ∈ events → events.count (.launched pid) = 1 ∧
    events.count (.retired pid) = if s.pid? = some pid then 0 else 1
  launched : ∀ pid, s.pid? = some pid ∨ .retired pid ∈ events → .launched pid ∈ events
  alone : ∀ later pid earlier, events = later ++ .launched pid :: earlier →
    ∀ other, .launched other ∈ earlier → .retired other ∈ earlier
  /-- Nothing is left running when the server is given up. -/
  dropped : ∃ last, (s.stop a).2.journal = last ++ a.journal ∧ (s.stop a).1.pid? = none ∧
    ∀ pid, .launched pid ∈ last ++ events → (last ++ events).count (.retired pid) = 1
  settled : s.phase ≠ .initializing
  start_isOk_iff : ∀ host workspace, ({ s with host }.start workspace a).1.isOk = true ↔
    ∃ child, ({ s with host }.start workspace a).2.1.phase = .ready child
  start_error : ∀ host workspace fault, ({ s with host }.start workspace a).1 = .error fault →
    ({ s with host }.start workspace a).2.1.phase = .failed fault.message
  /-- A start that failed leaves nothing behind that a later one would notice. -/
  retries : ∀ reason, s.phase = .failed reason → ∀ host workspace,
    { s with host }.start workspace a = { s with host, phase := .uninitialized }.start workspace a
  relaunches : ∀ reason, s.phase = .failed reason → ∀ host workspace program,
    host.launch s.launch = .ok program →
      .launched a.freshPid ∈ ({ s with host }.start workspace a).2.2.journal
  rests : ∀ child, s.phase = .ready child → child.inbox.closed = false → ∀ host workspace,
    { s with host }.start workspace a = (.ok (), { s with host }, a)
  inbox : (Adapter.inbox? s).isSome = Adapter.isReady s
  sends : ∀ body, (Adapter.send body s).1 ≠ .error .notReady ↔ Adapter.isReady s = true

theorem leakFree_of_accounts {before events : List ProcessEvent} {held : Option Nat}
    {s : Supervised} {a : Ambient} (hs : s.phase.Holds held)
    (h : Accounts before events held a) : LeakFree events s a := by
  have hpid := pid?_of_holds hs
  constructor
  case once =>
    intro pid hmem
    rw [hpid]
    exact h.orderly.count_eq hmem
  case launched =>
    intro pid hmem
    rw [hpid] at hmem
    exact h.orderly.launched_mem hmem
  case alone =>
    intro later pid earlier hsplit other hmem
    have horderly := h.orderly
    rw [hsplit] at horderly
    exact horderly.earlier.retired_mem hmem
  case dropped =>
    obtain ⟨last, hidle⟩ := accounts_stop hs h
    refine ⟨last, ?_, by rw [stop_fst]; rfl, fun pid hmem => (hidle.orderly.count_eq hmem).2⟩
    rw [hidle.journal, h.journal, List.append_assoc]
  case settled =>
    intro hphase
    rw [hphase] at hs
    cases hs
  case start_isOk_iff => exact fun host workspace => (starts_start workspace _ a).isOk_iff
  case start_error =>
    intro host workspace fault herror
    have hstarts := starts_start workspace { s with host } a
    rw [herror] at hstarts
    exact hstarts.phase_of_error
  case retries =>
    intro reason hfailed host workspace
    have hphase : { s with host }.phase = .failed reason := hfailed
    exact start_of_failed hphase workspace a
  case relaunches =>
    intro reason hfailed host workspace program hlaunch
    have hphase : { s with host }.phase = .failed reason := hfailed
    have hmem := (starts_start workspace { s with host } a).launched_mem
      (running?_eq_none_of_failed hphase) hlaunch
    rwa [stop_of_failed hphase] at hmem
  case rests =>
    intro child hready hopen host workspace
    have hphase : { s with host }.phase = .ready child := hready
    exact start_of_ready hphase hopen workspace
  case inbox =>
    rw [Adapter.inbox?]
    change Option.isSome (if s.running?.isSome then _ else _) = s.running?.isSome
    cases s.running?.isSome with
    | false => rfl
    | true => rfl
  case sends =>
    intro body
    change (s.send body).1 ≠ .error .notReady ↔ s.running?.isSome = true
    rw [ne_eq, send_refused_iff, Option.isSome_iff_ne_none]

/-- A start that overruns forgets a process: it was launched, and it is neither held nor retired. -/
theorem leaks_abandon {before events : List ProcessEvent} {held : Option Nat} {s : Supervised}
    {a : Ambient} (hs : s.phase.Holds held) (h : Accounts before events held a) :
    ∃ last, (s.abandon a).2.journal =
        .launched (s.stop a).2.freshPid :: (last ++ events) ++ before ∧
      .retired (s.stop a).2.freshPid ∉ last ++ events ∧ (s.abandon a).1.pid? = none := by
  obtain ⟨last, hidle⟩ := accounts_stop hs h
  have hlaunched := hidle.launched
  refine ⟨last, hlaunched.journal, ?_, ?_⟩
  · intro hmem
    have hcount := (hlaunched.orderly.count_eq (.head _)).2
    rw [if_pos rfl] at hcount
    exact List.count_eq_zero.1 hcount (.tail _ hmem)
  · rw [abandon, pid?]

/-- No process of a new server is forgotten, whatever happens to it, as long as no start overruns. -/
theorem leakFree_run (s : Supervised) (a : Ambient) (moves : List Move) :
    ∃ events, ({ s with phase := .uninitialized }.run a moves).2.journal = events ++ a.journal ∧
      LeakFree events ({ s with phase := .uninitialized }.run a moves).1
        ({ s with phase := .uninitialized }.run a moves).2 := by
  have hfresh : { s with phase := .uninitialized }.phase.Holds none := .uninitialized
  have hempty : Accounts a.journal [] none a := ⟨rfl, .empty, List.forall_mem_nil _⟩
  obtain ⟨events, held, hholds, haccounts⟩ := accounts_run hfresh hempty moves
  rw [List.append_nil] at haccounts
  exact ⟨events, haccounts.journal, leakFree_of_accounts hholds haccounts⟩

end Supervised

end LanguageClient.Server
