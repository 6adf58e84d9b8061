import LanguageClient.Proofs.Rehearsal
import Mathlib.Data.List.Forall2

namespace LanguageClient.Server

open Wire

/-- Servers whose inbox is a part of them that can be replaced without touching the rest. -/
class LawfulAdapter (σ : Type) [Adapter σ] : Prop where
  inbox_setInbox (inbox : Inbox) {server : σ} (h : Adapter.offersInbox server = true) :
    Mailbox.inbox (Mailbox.setInbox inbox server) = inbox
  setInbox_setInbox (first second : Inbox) (server : σ) :
    Mailbox.setInbox second (Mailbox.setInbox first server) = Mailbox.setInbox second server
  isReady_setInbox {inbox : Inbox} {server : σ}
    (h : inbox.closed = (Mailbox.inbox server).closed) :
    Adapter.isReady (Mailbox.setInbox inbox server) = Adapter.isReady server
  offersInbox_setInbox {inbox : Inbox} {server : σ}
    (h : inbox.closed = (Mailbox.inbox server).closed) :
    Adapter.offersInbox (Mailbox.setInbox inbox server) = Adapter.offersInbox server

instance : LawfulAdapter Scripted where
  inbox_setInbox _ _ _ := rfl
  setInbox_setInbox _ _ _ := rfl
  isReady_setInbox _ := rfl
  offersInbox_setInbox _ := rfl

theorem Supervised.isSome_running?_setInbox {inbox : Inbox} {server : Supervised}
    (h : inbox.closed = (Mailbox.inbox server).closed) :
    (Mailbox.setInbox inbox server).running?.isSome = server.running?.isSome := by
  rcases server with ⟨language, host, launch, handshake, capacity, grace, phase⟩
  cases phase with
  | uninitialized => rfl
  | initializing => rfl
  | failed reason => rfl
  | ready child =>
    have hclosed : inbox.closed = child.inbox.closed := h
    change (if !inbox.closed then some _ else none : Option Child).isSome =
      (if !child.inbox.closed then some child else none).isSome
    rw [hclosed]
    cases child.inbox.closed with
    | false => rfl
    | true => rfl

instance : LawfulAdapter Supervised where
  inbox_setInbox inbox server h := by
    rcases server with ⟨language, host, launch, handshake, capacity, grace, phase⟩
    cases phase with
    | ready child => rfl
    | uninitialized => cases h
    | initializing => cases h
    | failed reason => cases h
  setInbox_setInbox first second server := by
    rcases server with ⟨language, host, launch, handshake, capacity, grace, phase⟩
    cases phase with
    | ready child => rfl
    | uninitialized => rfl
    | initializing => rfl
    | failed reason => rfl
  isReady_setInbox h := Supervised.isSome_running?_setInbox h
  offersInbox_setInbox h := Supervised.isSome_running?_setInbox h

end LanguageClient.Server

namespace LanguageClient.Workspace

open Document Server Suggest Wire

/-- Puts frames into an inbox in place of those that wait there. -/
def leaveUnread {κ : Type} [Mailbox κ] (frames : List Bytes) (mailbox : κ) : κ :=
  Mailbox.setInbox { Mailbox.inbox mailbox with frames } mailbox

section

variable {σ : Type} [Adapter σ]

def Registry.withUnread (r : Registry σ) (unread : Language → List Bytes) : Registry σ :=
  { r with servers := fun language => (r.servers language).map (leaveUnread (unread language)) }

theorem Registry.languageFor?_withUnread (r : Registry σ) (unread : Language → List Bytes)
    (p : Path) : (r.withUnread unread).languageFor? p = r.languageFor? p := by
  simp only [languageFor?, withUnread, Option.isSome_map]

variable [LawfulAdapter σ]

theorem emptied_leaveUnread (frames : List Bytes) {server : σ}
    (h : Adapter.offersInbox server = true) :
    Mailbox.emptied (leaveUnread frames server) = Mailbox.emptied server := by
  rw [Mailbox.emptied, leaveUnread, LawfulAdapter.inbox_setInbox _ h,
    LawfulAdapter.setInbox_setInbox]
  rfl

theorem Registry.dispatch?_withUnread (r : Registry σ) (unread : Language → List Bytes)
    (p : Path) (body : Bytes) : (r.withUnread unread).dispatch? p body = r.dispatch? p body := by
  rw [dispatch?, dispatch?, addressee?, addressee?, languageFor?_withUnread]
  cases r.languageFor? p with
  | none => rfl
  | some language =>
    rw [withUnread]
    simp only [Option.bind_eq_bind, Option.bind_some]
    cases r.servers language with
    | none => rfl
    | some server =>
      have hready : Adapter.isReady (leaveUnread (unread language) server) =
        Adapter.isReady server := LawfulAdapter.isReady_setInbox rfl
      have hoffers : Adapter.offersInbox (leaveUnread (unread language) server) =
        Adapter.offersInbox server := LawfulAdapter.offersInbox_setInbox rfl
      simp only [Option.map_some, Option.bind_some, hready, hoffers]
      by_cases h : (Adapter.isReady server && Adapter.offersInbox server) = true
      · obtain ⟨_, hserves⟩ := (Bool.and_eq_true _ _).mp h
        rw [if_pos h, if_pos h]
        simp only [Option.bind_some, emptied_leaveUnread _ hserves]
      · rw [if_neg h, if_neg h]

end

/-- What a request meets: a document, the servers as they are by then, frames that wait unread in
their inboxes, and the document as it is when the reply comes. -/
structure Encounter (σ : Type) where
  request : CompletionRequest
  document : Snapshot
  servers : Registry σ
  unread : Language → List Bytes
  ambient : Ambient
  later : Snapshot := document

/-- What happens to a completion: the worker handles a request, or the user does something. -/
inductive Step (σ : Type) where
  | handle (e : Encounter σ)
  | select (index : Nat)
  | accept (document : Snapshot)
  | dismiss

section

variable {σ : Type} [Adapter σ]

def Encounter.traffic? (budget : PollBudget) (e : Encounter σ) : Option Traffic :=
  e.servers.traffic? budget e.request e.document

/-- Traffic with the same first frame that is not unrelated to a request, or else with none and the
same end. -/
def DecidesAlike (id : Int) (t₁ t₂ : Traffic) : Prop :=
  firstRelated? id t₁.frames = firstRelated? id t₂.frames ∧
    (firstRelated? id t₁.frames = none → t₁.closed = t₂.closed)

/-- Unrelated frames may come, go and move anywhere. -/
theorem DecidesAlike.of_filter_eq {id : Int} {t₁ t₂ : Traffic}
    (hrelated : t₁.frames.filter (¬ Unrelated id ·) = t₂.frames.filter (¬ Unrelated id ·))
    (hclosed : t₁.closed = t₂.closed) : DecidesAlike id t₁ t₂ := by
  refine ⟨?_, fun _ => hclosed⟩
  rw [firstRelated?, firstRelated?, ← List.head?_filter, ← List.head?_filter, hrelated]

/-- Encounters of the same request that differ in unrelated traffic and in unread frames only. -/
structure Encounter.Agree (budget : PollBudget) (e₁ e₂ : Encounter σ) : Prop where
  request : e₁.request = e₂.request
  document : e₁.document = e₂.document
  later : e₁.later = e₂.later
  traffic : Option.Rel (DecidesAlike e₁.request.id) (e₁.traffic? budget) (e₂.traffic? budget)

/-- Steps by which the user does the same and requests meet what agrees. -/
inductive Step.Agree (budget : PollBudget) : Step σ → Step σ → Prop where
  | handle {e₁ e₂ : Encounter σ} (h : e₁.Agree budget e₂) : Agree budget (.handle e₁) (.handle e₂)
  | select (index : Nat) : Agree budget (.select index) (.select index)
  | accept (document : Snapshot) : Agree budget (.accept document) (.accept document)
  | dismiss : Agree budget .dismiss .dismiss

theorem Encounter.traffic?_withUnread [LawfulAdapter σ] (budget : PollBudget)
    (e : Encounter σ) :
    (e.servers.withUnread e.unread).traffic? budget e.request e.document = e.traffic? budget := by
  rw [traffic?, Registry.traffic?, Registry.traffic?, Registry.dispatch?_withUnread]

theorem DecidesAlike.ofTraffic_eq {id : Int} {t₁ t₂ : Traffic} (h : DecidesAlike id t₁ t₂) :
    Verdict.ofTraffic id t₁ = Verdict.ofTraffic id t₂ := by
  obtain ⟨hfirst, hclosed⟩ := h
  rw [Verdict.ofTraffic, Verdict.ofTraffic, ← hfirst]
  cases hrelated : firstRelated? id t₁.frames with
  | none => rw [hclosed hrelated]
  | some frame => rfl

theorem ofTraffic?_eq_of_rel {id : Int} {o₁ o₂ : Option Traffic}
    (h : Option.Rel (DecidesAlike id) o₁ o₂) :
    Verdict.ofTraffic? id o₁ = Verdict.ofTraffic? id o₂ := by
  cases h with
  | some halike => exact halike.ofTraffic_eq
  | none => rfl

def Encounter.verdict (budget : PollBudget) (e : Encounter σ) : Verdict :=
  .ofTraffic? e.request.id (e.traffic? budget)

theorem Encounter.Agree.verdict_eq {budget : PollBudget} {e₁ e₂ : Encounter σ}
    (h : e₁.Agree budget e₂) : e₁.verdict budget = e₂.verdict budget := by
  rw [verdict, verdict, ← h.request]
  exact ofTraffic?_eq_of_rel h.traffic

def Step.menuAfter (budget : PollBudget) (limit : Nat) (menu : Menu) : Step σ → Menu
  | .handle e => (e.verdict budget).conclude limit e.request e.later menu
  | .select index => (menu.select index).2
  | .accept _ => if menu.selected?.isSome then menu.dismiss else menu
  | .dismiss => menu.dismiss

/-- The menus after each step, told from what decides about the requests. -/
def menusAfter (budget : PollBudget) (limit : Nat) (menu : Menu) : List (Step σ) → List Menu
  | [] => []
  | step :: rest =>
    step.menuAfter budget limit menu ::
      menusAfter budget limit (step.menuAfter budget limit menu) rest

theorem Step.Agree.menuAfter_eq {budget : PollBudget} {step₁ step₂ : Step σ}
    (h : step₁.Agree budget step₂) (limit : Nat) (menu : Menu) :
    step₁.menuAfter budget limit menu = step₂.menuAfter budget limit menu := by
  cases h with
  | handle hagree => rw [menuAfter, menuAfter, hagree.verdict_eq, hagree.request, hagree.later]
  | select index => rfl
  | accept document => rfl
  | dismiss => rfl

theorem menusAfter_eq_of_agree {budget : PollBudget} {steps₁ steps₂ : List (Step σ)}
    (h : List.Forall₂ (Step.Agree budget) steps₁ steps₂) (limit : Nat) (menu : Menu) :
    menusAfter budget limit menu steps₁ = menusAfter budget limit menu steps₂ := by
  induction h generalizing menu with
  | nil => rfl
  | cons hstep hrest ih => rw [menusAfter, menusAfter, hstep.menuAfter_eq, ih]

namespace Completion

def perform (c : Completion) : Step σ → Completion
  | .handle e =>
    (c.settle e.request e.document (e.servers.withUnread e.unread) e.ambient e.later).1
  | .select index => (c.select index).2
  | .accept document => ((c.accept document).map Prod.snd).getD c
  | .dismiss => c.dismiss

/-- The menus that the user sees, one after each step. -/
def trace (c : Completion) : List (Step σ) → List Menu
  | [] => []
  | step :: rest => (c.perform step).menu :: (c.perform step).trace rest

variable [LawfulAdapter σ]

theorem perform_eq {c : Completion} (hbudget : c.budget.total.isZero = false) (step : Step σ) :
    ∃ pending, c.perform step =
      { c with menu := step.menuAfter c.budget c.limit c.menu, pending } := by
  cases step with
  | handle e =>
    have hsettle :=
      settle_fst c e.request e.document (e.servers.withUnread e.unread) e.ambient e.later
    rw [Registry.heard?_eq_traffic? _ hbudget, e.traffic?_withUnread] at hsettle
    exact hsettle
  | select index => exact ⟨c.pending, rfl⟩
  | accept document =>
    refine ⟨c.pending, ?_⟩
    rw [perform, accept, Step.menuAfter]
    cases c.menu.selected? with
    | none => rfl
    | some item => rfl
  | dismiss => exact ⟨c.pending, rfl⟩

theorem trace_eq_menusAfter {c : Completion} (hbudget : c.budget.total.isZero = false)
    (steps : List (Step σ)) : c.trace steps = menusAfter c.budget c.limit c.menu steps := by
  induction steps generalizing c with
  | nil => rfl
  | cons step rest ih =>
    obtain ⟨pending, hperform⟩ := perform_eq hbudget step
    rw [trace, menusAfter, hperform]
    exact congrArg _ (ih hbudget)

/-- What the user sees of a run is decided by the first frame after each request that is not
unrelated to it, so runs that agree on these frames look alike. -/
theorem trace_determined {c : Completion} (hbudget : c.budget.total.isZero = false)
    (steps : List (Step σ)) :
    c.trace steps = menusAfter c.budget c.limit c.menu steps ∧
      ∀ others, List.Forall₂ (Step.Agree c.budget) steps others →
        c.trace steps = c.trace others := by
  refine ⟨trace_eq_menusAfter hbudget steps, ?_⟩
  intro others hagree
  rw [trace_eq_menusAfter hbudget, trace_eq_menusAfter hbudget]
  exact menusAfter_eq_of_agree hagree c.limit c.menu

end Completion

end

def answeringServer (frames : List Bytes) : Scripted where
  language := .go
  inbox := .ofCapacity 8
  ready := true
  cues := [⟨"textDocument/completion", fun _ => frames, false⟩]

theorem answers_answeringServer {frames : List Bytes} (h : frames.length ≤ 8) :
    (answeringServer frames).Answers "textDocument/completion" frames where
  ready := rfl
  accepts := rfl
  offers := rfl
  opened := rfl
  fits := h
  cue := ⟨[], rfl⟩

def rehearsal (id : Int) (unread frames : List Bytes) : Encounter Scripted where
  request := ⟨id, ⟨"/a.go"⟩, 0, 2⟩
  document := ⟨"pr", 2, [0]⟩
  servers := { servers := fun language =>
    if language = .go then some (answeringServer frames) else none }
  unread _ := unread
  ambient := {}

theorem traffic?_rehearsal (id : Int)
    (hcall : ((Json.ofChars?
      ((rehearsal id [] []).request.call (rehearsal id [] []).document).json.chars).map
        fun call => ((call.get? "method").bind Json.asString?,
          (call.get? "id").bind Json.asInt64?)) = some (some "textDocument/completion", some id))
    (budget : PollBudget) (unread : List Bytes) {frames : List Bytes}
    (hfits : frames.length ≤ 8) :
    (rehearsal id unread frames).traffic? budget = some ⟨frames, false⟩ := by
  obtain ⟨call, hread, hmembers⟩ := Option.map_eq_some_iff.1 hcall
  obtain ⟨hmethod, hid⟩ := Prod.mk.inj hmembers
  have hbytes : Json.ofBytes?
      ((rehearsal id [] []).request.call (rehearsal id [] []).document).body = some call := by
    rw [← hread]
    exact Json.ofBytes?_encode _
  have hlanguage : (rehearsal id unread frames).servers.languageFor? ⟨"/a.go"⟩ = some .go := by
    have hgo : Language.ofPath? ⟨"/a.go"⟩ = some .go := by decide +kernel
    rw [Registry.languageFor?, hgo]
    rfl
  exact traffic?_of_answers budget hlanguage rfl (answers_answeringServer hfits) hbytes hmethod hid

def replyTo (id : Int) (member : String × Json) : Bytes :=
  (Json.obj [("id", .int id), member]).bytes

def quietRun : List (Step Scripted) :=
  [.handle (rehearsal 7 [] [replyTo 7 ("result", .arr [.obj [("label", .str "print")]])]),
    .select 0,
    .handle (rehearsal 8 [] [replyTo 8 ("error", .null)])]

/-- The same run among frames left unread, calls of the server, other replies and garbage. -/
def noisyRun : List (Step Scripted) :=
  [.handle (rehearsal 7 [replyTo 7 ("result", .arr [])]
      [Utf8.encode "garbage".toList, replyTo 7 ("method", .str "workspace/configuration"),
        replyTo 7 ("result", .arr [.obj [("label", .str "print")]]),
        replyTo 7 ("result", .arr [])]),
    .select 0,
    .handle (rehearsal 8 [Utf8.encode "garbage".toList]
      [replyTo 7 ("result", .arr []), replyTo 8 ("error", .null)])]

theorem agree_quietRun_noisyRun (budget : PollBudget) :
    List.Forall₂ (Step.Agree budget) quietRun noisyRun := by
  have hcall₇ := traffic?_rehearsal 7 (by decide +kernel) budget
  have hcall₈ := traffic?_rehearsal 8 (by decide +kernel) budget
  have hreply₇ : ¬ Unrelated 7 (replyTo 7 ("result", .arr [.obj [("label", .str "print")]])) := by
    rw [replyTo, Json.bytes, unrelated_encode_iff]
    decide +kernel
  have hreply₈ : ¬ Unrelated 8 (replyTo 8 ("error", .null)) := by
    rw [replyTo, Json.bytes, unrelated_encode_iff]
    decide +kernel
  have hgarbage : Unrelated 7 (Utf8.encode "garbage".toList) := by
    rw [unrelated_encode_iff]
    decide +kernel
  have hmethod : Unrelated 7 (replyTo 7 ("method", .str "workspace/configuration")) := by
    rw [replyTo, Json.bytes, unrelated_encode_iff]
    decide +kernel
  have hlate : Unrelated 8 (replyTo 7 ("result", .arr [])) := by
    rw [replyTo, Json.bytes, unrelated_encode_iff]
    decide +kernel
  refine .cons (.handle ⟨rfl, rfl, rfl, ?_⟩)
    (.cons (.select 0) (.cons (.handle ⟨rfl, rfl, rfl, ?_⟩) .nil))
  · rw [hcall₇ _ (by decide), hcall₇ _ (by decide)]
    refine .some ⟨?_, fun _ => rfl⟩
    change firstRelated? 7 _ = firstRelated? 7 _
    rw [firstRelated?_cons_of_related hreply₇, firstRelated?_cons_of_unrelated hgarbage,
      firstRelated?_cons_of_unrelated hmethod, firstRelated?_cons_of_related hreply₇]
  · rw [hcall₈ _ (by decide), hcall₈ _ (by decide)]
    refine .some ⟨?_, fun _ => rfl⟩
    change firstRelated? 8 _ = firstRelated? 8 _
    rw [firstRelated?_cons_of_related hreply₈, firstRelated?_cons_of_unrelated hlate,
      firstRelated?_cons_of_related hreply₈]

def defaultCompletion : Completion := .ofConfig {}

theorem trace_quietRun_eq_noisyRun :
    defaultCompletion.budget.total.isZero = false ∧
      List.Forall₂ (Step.Agree defaultCompletion.budget) quietRun noisyRun ∧
      defaultCompletion.trace quietRun = defaultCompletion.trace noisyRun := by
  have hbudget : defaultCompletion.budget.total.isZero = false := by decide
  have hagree := agree_quietRun_noisyRun defaultCompletion.budget
  exact ⟨hbudget, hagree, (Completion.trace_determined hbudget quietRun).2 noisyRun hagree⟩

end LanguageClient.Workspace
