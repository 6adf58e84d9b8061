import LanguageClient.Proofs.Measuring
import LanguageClient.Proofs.Printing
import LanguageClient.Proofs.Registering
import LanguageClient.Proofs.Routing
import LanguageClient.Proofs.Settling

namespace LanguageClient

namespace Wire.Mailbox

variable {κ : Type} [Mailbox κ]

theorem awaitWithin_le {α : Type} (answer? : Bytes → Option α) (left : Nat) (mailbox : κ) :
    (awaitWithin answer? left mailbox).2.1 ≤ left := by
  induction left using Nat.strongRecOn generalizing mailbox with
  | ind left ih =>
    rw [awaitWithin_eq_look]
    cases hlook : look answer? left mailbox with
    | ends awaited nanos after => exact look_ends hlook
    | waits wait after =>
      obtain ⟨hpos, hle⟩ := look_waits hlook
      have hrest := ih (left - wait) (by omega) after
      change wait + (awaitWithin answer? (left - wait) after).2.1 ≤ left
      omega

theorem await_le {α : Type} (answer? : Bytes → Option α) (budget : PollBudget) (mailbox : κ) :
    (await answer? budget mailbox).2.1 ≤ budget.total.toNanos := by
  rw [await]
  generalize budget.total.isZero = isZero, budget.total.toNanos = total
  cases isZero with
  | true => exact Nat.zero_le total
  | false =>
    rw [if_neg Bool.false_ne_true]
    exact awaitWithin_le answer? total mailbox

end Wire.Mailbox

namespace Suggest.Menu

/-- If there are items one of them is selected. -/
def Selects (m : Menu) : Prop := m.items ≠ [] → m.selectedIndex < m.items.length

theorem selects_publish (m : Menu) (entries : List Json) (cursor : Document.Cursor) (limit : Nat) :
    (m.publish (rank entries cursor limit)).Selects :=
  fun hitems => firstMatch_lt cursor.word hitems

theorem selects_clear (m : Menu) : m.clear.Selects := fun hitems => absurd rfl hitems

end Suggest.Menu

namespace Workspace.Completion

open Document Server Suggest Wire

variable {σ : Type} [Adapter σ] {c c' : Completion} {request : CompletionRequest}
  {document : Snapshot} {r r' : Registry σ} {a a' : Ambient} {taken : Option Language}

theorem Sends.menu_eq {body : Bytes} (h : c.Sends request body r taken c' r') :
    c'.menu = c.menu ∧ c'.budget = c.budget := by
  cases h with
  | unaddressed haddressee => exact ⟨rfl, rfl⟩
  | refused haddressee hsend => exact ⟨rfl, rfl⟩
  | sent haddressee hsend => exact ⟨rfl, rfl⟩

theorem selects_finish (h : c.menu.Selects) (request : CompletionRequest) (document : Snapshot)
    (awaited : Awaited Json) : (c.finish request document awaited).2.menu.Selects := by
  cases awaited with
  | found body =>
    rw [finish, Completion.apply.eq_def]
    cases Reply.ofJson body with
    | failed => exact Menu.selects_clear _
    | entries entries => exact Menu.selects_publish _ _ _ _
  | timedOut => exact h
  | closed => exact Menu.selects_clear _

/-- However a request ends, that is recorded in a menu in which an item is selected. -/
theorem Completes.exists_settle (h : c.Completes request document r a c' r' a')
    (hmenu : c.menu.Selects) :
    ∃ (menu : Menu) (outcome : Outcome), menu.Selects ∧
      c'.menu = menu.settle request.id outcome := by
  cases h with
  | dropped hsends =>
    refine ⟨c.menu, .dropped, hmenu, ?_⟩
    rw [drop, hsends.menu_eq.1]
  | @awaited sent _ _ _ _ awaited _ hsends hserver hwait =>
    let taken : Completion := { sent with pending := (sent.pending.take request.id).2 }
    have htaken : taken.menu.Selects := by
      change sent.menu.Selects
      rw [hsends.menu_eq.1]
      exact hmenu
    exact ⟨_, _, selects_finish htaken request document awaited, rfl⟩

theorem Completes.now_le (h : c.Completes request document r a c' r' a') :
    a'.now ≤ a.now + c.budget.total.toNanos := by
  cases h with
  | dropped hsends => exact Nat.le_add_right _ _
  | @awaited sent _ _ server _ _ nanos hsends hserver hwait =>
    have hle := Mailbox.await_le (answer? request.id) sent.budget server
    rw [hwait, hsends.menu_eq.2] at hle
    exact Nat.add_le_add_left hle a.now

end Workspace.Completion

namespace CommandLine

open Document Server Suggest Workspace

instance (ending : Ending) : Decidable (ending = .overflow) :=
  match ending with
  | .overflow => isTrue rfl
  | .success | .failure _ => isFalse fun h => by cases h

/-- A run that failed: nothing is printed, and something is said about the failure. -/
structure Report.Failed (report : Report) : Prop where
  ending : ∃ fault, report.ending = .failure fault
  output : report.output = ""
  errorText : report.errorText ≠ ""

theorem Report.failed_failed (fault : Fault) : (Report.failed fault).Failed where
  ending := ⟨fault, rfl⟩
  output := rfl
  errorText := by
    intro h
    have hlast : (Report.failed fault).errorText.toList = fault.message.toList ++ ['\n'] := by
      rw [errorText, failed, String.toList_append]
      rfl
    rw [h] at hlast
    exact absurd hlast (by simp)

theorem Report.Failed.ending_ne {report : Report} (h : report.Failed) :
    report.ending ≠ .success := by
  obtain ⟨fault, hfault⟩ := h.ending
  rw [hfault]
  exact nofun

/-- A run of the completion command: its configuration and arguments, how reading files goes, its
servers and the time. -/
structure CompletionRun (σ : Type) where
  config : Config
  file : Path
  line : UInt32
  character : UInt32
  workspace : Option Path
  read : Path → Except Missing String
  registry : Registry σ
  ambient : Ambient

namespace CompletionRun

section

variable {σ : Type} [Adapter σ] (run : CompletionRun σ)

/-- What the run comes to without the shutdown at its end. -/
def completed : Report × Registry σ × Ambient :=
  complete run.config run.file run.line run.character run.workspace (run.read run.file) run.registry
    run.ambient

def result : Report × Registry σ × Ambient :=
  execute (.complete run.file run.line run.character run.workspace) run.config run.read run.registry
    run.ambient

/-- The file has a language and was read, and this is what starting its server came to. -/
structure Begins (language : Language) (text : String) (started : Except Ending Language)
    (r : Registry σ) (a : Ambient) : Prop where
  language : Language.ofPath? run.file = some language
  read : run.read run.file = .ok text
  start : startServer run.file run.workspace run.registry run.ambient = (started, r, a)

/-- The server of the file was started and took the opening of the file. -/
inductive Opens : String → Registry σ → Ambient → Prop where
  | intro {language : Language} {text : String} {started r : Registry σ} {ready a : Ambient}
      (hbegins : run.Begins language text (.ok language) started ready)
      (hmeasured : DocumentSync.overruns run.file started ready = false)
      (hopen : DocumentSync.didOpen run.file text started ready = (true, r, a)) :
      Opens text r a

/-- The request was carried out before a deadline, and this is what it left behind. -/
inductive Settles : Int → Nat → Completion → Registry σ → Ambient → Prop where
  | intro {text : String} {opened r : Registry σ} {begun asked a : Ambient} {id : Int}
      {wait : Duration} {c : Completion} (hopens : run.Opens text opened begun)
      (hdraw : begun.drawId = (id, asked)) (hwait : wait? run.config asked = some wait)
      (hsettle : (Completion.ofConfig run.config).settle ⟨id, run.file, run.line, run.character⟩
        (Snapshot.openAt text run.line run.character) opened asked = (c, r, a)) :
      Settles id (asked.now + wait.toNanos) c r a

/-- A wait ends later than the clock can show: that for the handshake when a server is started, or
that for the request. -/
inductive BreaksOff : Prop where
  | starting {language : Language} {text : String} {r : Registry σ} {a : Ambient}
      (hbegins : run.Begins language text (.error .overflow) r a)
  | opening {language : Language} {text : String} {r : Registry σ} {a : Ambient}
      (hbegins : run.Begins language text (.ok language) r a)
      (hoverruns : DocumentSync.overruns run.file r a = true)
  | waiting {text : String} {r : Registry σ} {a asked : Ambient} {id : Int}
      (hopens : run.Opens text r a) (hdraw : a.drawId = (id, asked))
      (hwait : wait? run.config asked = none)
  | closing {id : Int} {deadline : Nat} {c : Completion} {r : Registry σ} {a : Ambient}
      (hsettles : run.Settles id deadline c r a)
      (hoverruns : DocumentSync.overruns run.file r a = true)

/-- What the run reports is what became of the request. -/
structure Faithful : Prop where
  success_iff : run.result.1.ending = .success ↔
    ∃ id deadline c r a n, run.Settles id deadline c r a ∧
      c.menu.lastOutcome = some (.resolved n)
  prints {id : Int} {deadline : Nat} {c : Completion} {r : Registry σ} {a : Ambient}
    (hsettles : run.Settles id deadline c r a) (hsuccess : run.result.1.ending = .success) :
    Prints run.result.1.output c.menu
  failed : run.result.1.ending ≠ .success → run.result.1.Failed
  inTime {id : Int} {deadline : Nat} {c : Completion} {r : Registry σ} {a : Ambient}
    (hsettles : run.Settles id deadline c r a) : c.menu.hasSettled id = true ∧ a.now < deadline
  /-- Were it not, that would be reported. -/
  unsettled (menu : Menu) (id : Int) (h : menu.hasSettled id = false) : (Report.ofMenu menu id).Failed
  /-- Once the wait is over the file is closed, and nothing else is done before the shutdown. -/
  closes {id : Int} {deadline : Nat} {c : Completion} {r : Registry σ} {a : Ambient}
    (hsettles : run.Settles id deadline c r a) :
    run.completed.2 = (DocumentSync.didClose run.file r a).2
  shutdown : run.result.2 = run.completed.2.1.shutdown run.completed.2.2 ∧
    run.completed.2.1.Stops Language.all run.result.2.1

/-- How a run goes before the shutdown. -/
inductive Course : Report → Registry σ → Ambient → Prop where
  | unsupported (hlanguage : Language.ofPath? run.file = none) :
      Course (.failed (.unsupported run.file)) run.registry run.ambient
  | unreadable {language : Language} {reason : Missing}
      (hlanguage : Language.ofPath? run.file = some language)
      (hread : run.read run.file = .error reason) :
      Course (.failed (.unreadable run.file reason)) run.registry run.ambient
  | unstarted {language : Language} {text : String} {ending : Ending} {r : Registry σ}
      {a : Ambient} (hbegins : run.Begins language text (.error ending) r a) :
      Course { ending } r a
  | overran {language : Language} {text : String} {r : Registry σ} {a : Ambient}
      (hbegins : run.Begins language text (.ok language) r a)
      (hoverruns : DocumentSync.overruns run.file r a = true) :
      Course { ending := .overflow } r a
  | unopened {language : Language} {text : String} {started r : Registry σ} {ready a : Ambient}
      (hbegins : run.Begins language text (.ok language) started ready)
      (hmeasured : DocumentSync.overruns run.file started ready = false)
      (hopen : DocumentSync.didOpen run.file text started ready = (false, r, a)) :
      Course (.failed (.unavailable language)) r a
  | unmeasured {text : String} {r : Registry σ} {a asked : Ambient} {id : Int}
      (hopens : run.Opens text r a) (hdraw : a.drawId = (id, asked))
      (hwait : wait? run.config asked = none) :
      Course { ending := .overflow } r asked
  | unclosed {id : Int} {deadline : Nat} {c : Completion} {r : Registry σ} {a : Ambient}
      (hsettles : run.Settles id deadline c r a)
      (hoverruns : DocumentSync.overruns run.file r a = true) :
      Course { ending := .overflow } r a
  | closed {id : Int} {deadline : Nat} {c : Completion} {r : Registry σ} {a : Ambient}
      (hsettles : run.Settles id deadline c r a)
      (hmeasured : DocumentSync.overruns run.file r a = false) :
      Course (.ofMenu c.menu id) (DocumentSync.didClose run.file r a).2.1
        (DocumentSync.didClose run.file r a).2.2

variable {run} {report : Report} {r r' : Registry σ} {a a' : Ambient}

theorem startServer_cases {file : Path} {workspace : Option Path}
    {started : Except Ending Language} (h : startServer file workspace r a = (started, r', a')) :
    (∃ language, started = .ok language ∧ Language.ofPath? file = some language) ∨
      started = .error .overflow ∨ ∃ fault, started = .error (.failure fault) := by
  rw [startServer] at h
  split at h
  · cases h
    exact .inr (.inr ⟨_, rfl⟩)
  case h_2 language hlanguage =>
    split at h
    · cases h
      exact .inr (.inr ⟨_, rfl⟩)
    · dsimp only at h
      split at h
      · cases h
        exact .inr (.inl rfl)
      · split at h
        · cases h
          exact .inl ⟨language, rfl, hlanguage⟩
        · cases h
          exact .inr (.inr ⟨_, rfl⟩)

theorem Opens.exists_course {text : String} (hopens : run.Opens text r a) :
    ∃ report r a, run.Course report r a := by
  rcases hdraw : a.drawId with ⟨id, asked⟩
  cases hwait : wait? run.config asked with
  | none => exact ⟨_, _, _, .unmeasured hopens hdraw hwait⟩
  | some wait =>
    rcases hsettle : (Completion.ofConfig run.config).settle
      ⟨id, run.file, run.line, run.character⟩
      (Snapshot.openAt text run.line run.character) r asked with ⟨c, r', a'⟩
    have hsettles := Settles.intro hopens hdraw hwait hsettle
    cases hoverruns : DocumentSync.overruns run.file r' a' with
    | true => exact ⟨_, _, _, .unclosed hsettles hoverruns⟩
    | false => exact ⟨_, _, _, .closed hsettles hoverruns⟩

theorem Begins.exists_course {language : Language} {text : String}
    (hbegins : run.Begins language text (.ok language) r a) :
    ∃ report r a, run.Course report r a := by
  cases hmeasured : DocumentSync.overruns run.file r a with
  | true => exact ⟨_, _, _, .overran hbegins hmeasured⟩
  | false =>
    rcases hopen : DocumentSync.didOpen run.file text r a with ⟨_ | _, opened, begun⟩
    · exact ⟨_, _, _, .unopened hbegins hmeasured hopen⟩
    · exact (Opens.intro hbegins hmeasured hopen).exists_course

theorem exists_course (run : CompletionRun σ) : ∃ report r a, run.Course report r a := by
  cases hlanguage : Language.ofPath? run.file with
  | none => exact ⟨_, _, _, .unsupported hlanguage⟩
  | some language =>
    cases hread : run.read run.file with
    | error reason => exact ⟨_, _, _, .unreadable hlanguage hread⟩
    | ok text =>
      rcases hstart : startServer run.file run.workspace run.registry run.ambient with
        ⟨started, r, a⟩
      obtain ⟨_, rfl, hfound⟩ | rfl | ⟨_, rfl⟩ := startServer_cases hstart
      · cases hfound.symm.trans hlanguage
        exact Begins.exists_course ⟨hlanguage, hread, hstart⟩
      · exact ⟨_, _, _, .unstarted ⟨hlanguage, hread, hstart⟩⟩
      · exact ⟨_, _, _, .unstarted ⟨hlanguage, hread, hstart⟩⟩

theorem Opens.completed_eq {text : String} (h : run.Opens text r a) :
    run.completed = completeOpened run.config run.file run.line run.character text r a := by
  obtain ⟨hbegins, hmeasured, hopen⟩ := h
  simp only [completed, complete.eq_def, hbegins.language, hbegins.read, hbegins.start, hmeasured,
    hopen, Bool.false_eq_true, ↓reduceIte]

theorem Settles.completed_eq {id : Int} {deadline : Nat} {c : Completion}
    (h : run.Settles id deadline c r a) :
    run.completed =
      if DocumentSync.overruns run.file r a then ({ ending := .overflow }, r, a)
      else (.ofMenu c.menu id, (DocumentSync.didClose run.file r a).2) := by
  obtain ⟨hopens, hdraw, hwait, hsettle⟩ := h
  rw [hopens.completed_eq, completeOpened, hdraw]
  dsimp only
  rw [hwait, completeWithin]
  dsimp only
  rw [hsettle]

theorem Course.completed_eq (h : run.Course report r a) : run.completed = (report, r, a) := by
  cases h with
  | unsupported hlanguage => rw [completed, complete.eq_def, hlanguage]
  | unreadable hlanguage hread => rw [completed, complete.eq_def, hlanguage, hread]
  | unstarted hbegins =>
    simp only [completed, complete.eq_def, hbegins.language, hbegins.read, hbegins.start]
  | overran hbegins hoverruns =>
    simp only [completed, complete.eq_def, hbegins.language, hbegins.read, hbegins.start, hoverruns,
      ↓reduceIte]
  | unopened hbegins hmeasured hopen =>
    simp only [completed, complete.eq_def, hbegins.language, hbegins.read, hbegins.start, hmeasured,
      hopen, Bool.false_eq_true, ↓reduceIte]
  | unmeasured hopens hdraw hwait =>
    rw [hopens.completed_eq, completeOpened, hdraw]
    dsimp only
    rw [hwait, completeWithin]
  | unclosed hsettles hoverruns => rw [hsettles.completed_eq, if_pos hoverruns]
  | closed hsettles hmeasured =>
    rw [hsettles.completed_eq, hmeasured, if_neg Bool.false_ne_true]

theorem Begins.unique {language language' : Language} {text text' : String}
    {started started' : Except Ending Language} (h : run.Begins language text started r a)
    (h' : run.Begins language' text' started' r' a') :
    text = text' ∧ started = started' ∧ r = r' ∧ a = a' := by
  have htext := h.read.symm.trans h'.read
  have hstart := h.start.symm.trans h'.start
  cases htext
  cases hstart
  exact ⟨rfl, rfl, rfl, rfl⟩

theorem Opens.unique {text text' : String} (h : run.Opens text r a)
    (h' : run.Opens text' r' a') : text = text' ∧ r = r' ∧ a = a' := by
  obtain ⟨hbegins, _, hopen⟩ := h
  obtain ⟨hbegins', _, hopen'⟩ := h'
  obtain ⟨rfl, _, rfl, rfl⟩ := hbegins.unique hbegins'
  cases hopen.symm.trans hopen'
  exact ⟨rfl, rfl, rfl⟩

theorem Settles.unique {id id' : Int} {deadline deadline' : Nat} {c c' : Completion}
    (h : run.Settles id deadline c r a) (h' : run.Settles id' deadline' c' r' a') :
    id = id' ∧ c = c' ∧ r = r' ∧ a = a' := by
  obtain ⟨hopens, hdraw, _, hsettle⟩ := h
  obtain ⟨hopens', hdraw', _, hsettle'⟩ := h'
  obtain ⟨rfl, rfl, rfl⟩ := hopens.unique hopens'
  rw [hdraw] at hdraw'
  cases hdraw'
  rw [hsettle] at hsettle'
  cases hsettle'
  exact ⟨rfl, rfl, rfl, rfl⟩

theorem wait?_eq_some {config : Config} {wait : Duration} (h : wait? config a = some wait) :
    config.completion.total.toNanos < wait.toNanos := by
  rw [wait?, Option.filter_eq_some_iff] at h
  rw [Duration.add?_eq_some_iff.1 h.1, toNanos_settleSlack]
  omega

/-- The command waits longer for a request than the worker does for the reply. -/
theorem overruns_of_wait? {config : Config} {wait : Duration} (h : wait? config a = some wait)
    (request : CompletionRequest) (document : Snapshot) (r : Registry σ) :
    (Completion.ofConfig config).overruns request document r a = false := by
  have hlonger := wait?_eq_some h
  rw [wait?, Option.filter_eq_some_iff, Ambient.canWait, decide_eq_true_eq] at h
  have hclock : a.canWait (Completion.ofConfig config).budget.total = true :=
    decide_eq_true (Nat.lt_trans (Nat.add_lt_add_left hlonger a.now) h.2)
  rw [Completion.overruns, hclock]
  exact Bool.and_false _

theorem Settles.menu {id : Int} {deadline : Nat} {c : Completion}
    (h : run.Settles id deadline c r a) :
    c.menu.hasSettled id = true ∧ c.menu.Selects ∧ a.now < deadline := by
  obtain @⟨text, opened, _, _, asked, _, id, _, _, _, _, hwait, hsettle⟩ := h
  obtain ⟨c', r', a', hcompletes⟩ := Completion.exists_completes (Completion.ofConfig run.config)
    ⟨id, run.file, run.line, run.character⟩ (Snapshot.openAt text run.line run.character) opened
    asked
  rw [hcompletes.settle_eq] at hsettle
  cases hsettle
  have hempty : (Completion.ofConfig run.config).menu.Selects := fun hitems => absurd rfl hitems
  obtain ⟨menu, outcome, hselects, hmenu⟩ := hcompletes.exists_settle hempty
  refine ⟨?_, ?_, ?_⟩
  · rw [hmenu]
    exact (menu.hasSettled_settle id outcome id).2 (.inr (Int.le_refl id))
  · rw [hmenu]
    exact hselects
  · have hnow := hcompletes.now_le
    exact Nat.lt_of_le_of_lt hnow (Nat.add_lt_add_left (wait?_eq_some hwait) asked.now)

theorem ofMenu_cases (menu : Menu) (id : Int) :
    (menu.hasSettled id = true ∧ (∃ n, menu.lastOutcome = some (.resolved n)) ∧
        Report.ofMenu menu id =
          { output := String.join (itemLines menu), ending := .success }) ∨
      ¬ (menu.hasSettled id = true ∧ ∃ n, menu.lastOutcome = some (.resolved n)) ∧
        (Report.ofMenu menu id).Failed := by
  rw [Report.ofMenu]
  cases hsettled : menu.hasSettled id with
  | false =>
    refine .inr ⟨?_, Report.failed_failed _⟩
    rintro ⟨hsettled, _⟩
    cases hsettled
  | true =>
    cases hlast : menu.lastOutcome with
    | none =>
      refine .inr ⟨?_, Report.failed_failed _⟩
      rintro ⟨_, _, hlast⟩
      cases hlast
    | some outcome =>
      cases outcome with
      | resolved n => exact .inl ⟨rfl, ⟨n, rfl⟩, rfl⟩
      | timedOut | failed | dropped =>
        refine .inr ⟨?_, Report.failed_failed _⟩
        rintro ⟨_, _, hlast⟩
        cases hlast

theorem ending_ofMenu_ne (menu : Menu) (id : Int) : (Report.ofMenu menu id).ending ≠ .overflow := by
  obtain ⟨_, _, hreport⟩ | ⟨_, hfailed⟩ := ofMenu_cases menu id
  · rw [hreport]
    exact nofun
  · obtain ⟨fault, hfault⟩ := hfailed.ending
    rw [hfault]
    exact nofun

theorem ofMenu_success_iff {menu : Menu} {id : Int} :
    (Report.ofMenu menu id).ending = .success ↔
      menu.hasSettled id = true ∧ ∃ n, menu.lastOutcome = some (.resolved n) := by
  obtain ⟨hsettled, hresolved, hreport⟩ | ⟨hunresolved, hfailed⟩ := ofMenu_cases menu id
  · rw [hreport]
    exact iff_of_true rfl ⟨hsettled, hresolved⟩
  · exact iff_of_false hfailed.ending_ne hunresolved

theorem failed_ofMenu {menu : Menu} {id : Int}
    (h : (Report.ofMenu menu id).ending ≠ .success) : (Report.ofMenu menu id).Failed := by
  obtain ⟨_, _, hreport⟩ | ⟨_, hfailed⟩ := ofMenu_cases menu id
  · rw [hreport] at h
    exact absurd rfl h
  · exact hfailed

theorem prints_ofMenu {menu : Menu} {id : Int} (hmenu : menu.Selects)
    (h : (Report.ofMenu menu id).ending = .success) :
    Prints (Report.ofMenu menu id).output menu := by
  obtain ⟨_, _, hreport⟩ | ⟨_, hfailed⟩ := ofMenu_cases menu id
  · rw [hreport]
    exact prints_itemLines hmenu
  · exact absurd h hfailed.ending_ne

theorem result_of_overflow (h : run.completed.1.ending = .overflow) :
    run.result = run.completed := by
  rw [result, execute]
  dsimp only
  rw [← completed]
  generalize run.completed = completed at h
  obtain ⟨report, r, a⟩ := completed
  dsimp only at h ⊢
  rw [h]

theorem result_of_ending (h : run.completed.1.ending ≠ .overflow) :
    run.result = (run.completed.1, run.completed.2.1.shutdown run.completed.2.2) := by
  rw [result, execute]
  dsimp only
  rw [← completed]
  generalize run.completed = completed at h
  obtain ⟨report, r, a⟩ := completed
  dsimp only at h ⊢
  cases hending : report.ending with
  | success => rfl
  | failure fault => rfl
  | overflow => exact absurd hending h

theorem BreaksOff.ending_eq (h : run.BreaksOff) : run.result.1.ending = .overflow := by
  have hcourse : ∃ report r a, run.Course report r a ∧ report.ending = .overflow := by
    cases h with
    | starting hbegins => exact ⟨_, _, _, .unstarted hbegins, rfl⟩
    | opening hbegins hoverruns => exact ⟨_, _, _, .overran hbegins hoverruns, rfl⟩
    | waiting hopens hdraw hwait => exact ⟨_, _, _, .unmeasured hopens hdraw hwait, rfl⟩
    | closing hsettles hoverruns => exact ⟨_, _, _, .unclosed hsettles hoverruns, rfl⟩
  obtain ⟨report, r, a, hcourse, hending⟩ := hcourse
  have hcompleted : run.completed.1.ending = .overflow := by
    rw [hcourse.completed_eq]
    exact hending
  rw [result_of_overflow hcompleted]
  exact hcompleted

theorem not_faithful_of_overflow (h : run.result.1.ending = .overflow) : ¬ run.Faithful := by
  intro hfaithful
  have hsuccess : run.result.1.ending ≠ .success := by
    rw [h]
    exact nofun
  obtain ⟨fault, hfault⟩ := (hfaithful.failed hsuccess).ending
  rw [h] at hfault
  cases hfault

theorem unsettled_failed (menu : Menu) (id : Int) (h : menu.hasSettled id = false) :
    (Report.ofMenu menu id).Failed := by
  apply failed_ofMenu
  intro hsuccess
  rw [(ofMenu_success_iff.1 hsuccess).1] at h
  cases h

theorem faithful_of_failed (hcourse : run.Course report r a) (hfailed : report.Failed)
    (hunopened : ∀ text r a, ¬ run.Opens text r a) : run.Faithful := by
  have hnever {id : Int} {deadline : Nat} {c : Completion} {r : Registry σ} {a : Ambient} :
      ¬ run.Settles id deadline c r a := by
    rintro ⟨hopens, _, _, _⟩
    exact hunopened _ _ _ hopens
  have hending : run.completed.1.ending ≠ .overflow := by
    obtain ⟨fault, hfault⟩ := hfailed.ending
    rw [hcourse.completed_eq, hfault]
    exact nofun
  have hresult : run.result.1 = report := by
    rw [result_of_ending hending, hcourse.completed_eq]
  constructor
  case success_iff =>
    rw [hresult]
    refine iff_of_false hfailed.ending_ne ?_
    rintro ⟨_, _, _, _, _, _, hsettles, _⟩
    exact hnever hsettles
  case prints =>
    intro _ _ _ _ _ hsettles
    exact absurd hsettles hnever
  case failed =>
    intro _
    rw [hresult]
    exact hfailed
  case inTime =>
    intro _ _ _ _ _ hsettles
    exact absurd hsettles hnever
  case unsettled => exact unsettled_failed
  case closes =>
    intro _ _ _ _ _ hsettles
    exact absurd hsettles hnever
  case shutdown =>
    rw [result_of_ending hending]
    exact ⟨rfl, Registry.stops_shutdown _ _⟩

theorem result_of_settles {id : Int} {deadline : Nat} {c : Completion}
    (hsettles : run.Settles id deadline c r a)
    (hmeasured : DocumentSync.overruns run.file r a = false) :
    run.result.1 = Report.ofMenu c.menu id ∧
      run.result.2 = run.completed.2.1.shutdown run.completed.2.2 := by
  have hcompleted := (Course.closed hsettles hmeasured).completed_eq
  have hending : run.completed.1.ending ≠ .overflow := by
    rw [hcompleted]
    exact ending_ofMenu_ne c.menu id
  have hresult := result_of_ending hending
  rw [hresult]
  exact ⟨congrArg Prod.fst hcompleted, rfl⟩

/-- A run that gets as far as closing the file is faithful. -/
theorem faithful_of_settles {id : Int} {deadline : Nat} {c : Completion}
    (hsettles : run.Settles id deadline c r a)
    (hmeasured : DocumentSync.overruns run.file r a = false) : run.Faithful := by
  obtain ⟨hresult, hshutdown⟩ := result_of_settles hsettles hmeasured
  obtain ⟨hsettled, hselects, _⟩ := hsettles.menu
  constructor
  case success_iff =>
    rw [hresult, ofMenu_success_iff]
    constructor
    · rintro ⟨_, n, hlast⟩
      exact ⟨id, deadline, c, r, a, n, hsettles, hlast⟩
    · rintro ⟨_, _, _, _, _, n, hsettles', hlast⟩
      obtain ⟨_, rfl, _, _⟩ := hsettles.unique hsettles'
      exact ⟨hsettled, n, hlast⟩
  case prints =>
    intro _ _ _ _ _ hsettles' hsuccess
    obtain ⟨_, rfl, _, _⟩ := hsettles.unique hsettles'
    rw [hresult] at hsuccess ⊢
    exact prints_ofMenu hselects hsuccess
  case failed =>
    intro hsuccess
    rw [hresult] at hsuccess ⊢
    exact failed_ofMenu hsuccess
  case inTime =>
    intro _ _ _ _ _ hsettles'
    obtain ⟨hsettled', _, hnow⟩ := hsettles'.menu
    exact ⟨hsettled', hnow⟩
  case unsettled => exact unsettled_failed
  case closes =>
    intro _ _ _ _ _ hsettles'
    obtain ⟨_, _, rfl, rfl⟩ := hsettles.unique hsettles'
    rw [(Course.closed hsettles hmeasured).completed_eq]
  case shutdown =>
    rw [hshutdown]
    exact ⟨rfl, Registry.stops_shutdown _ _⟩

/-- A run of the completion command is faithful exactly if it does not break off. -/
theorem faithful_iff_not_breaksOff (run : CompletionRun σ) : run.Faithful ↔ ¬ run.BreaksOff := by
  constructor
  · intro hfaithful hbreaks
    exact not_faithful_of_overflow hbreaks.ending_eq hfaithful
  intro h
  obtain ⟨report, r, a, hcourse⟩ := exists_course run
  cases hcourse with
  | unsupported hlanguage =>
    apply faithful_of_failed (.unsupported hlanguage) (Report.failed_failed _)
    rintro _ _ _ ⟨hbegins, _, _⟩
    cases hlanguage.symm.trans hbegins.language
  | unreadable hlanguage hread =>
    apply faithful_of_failed (.unreadable hlanguage hread) (Report.failed_failed _)
    rintro _ _ _ ⟨hbegins, _, _⟩
    cases hread.symm.trans hbegins.read
  | unstarted hbegins =>
    obtain ⟨_, hok, _⟩ | herror | ⟨fault, herror⟩ := startServer_cases hbegins.start
    · cases hok
    · cases herror
      exact absurd (.starting hbegins) h
    · cases herror
      apply faithful_of_failed (.unstarted hbegins) (Report.failed_failed fault)
      rintro _ _ _ ⟨hbegins', _, _⟩
      obtain ⟨_, hstarted, _⟩ := hbegins.unique hbegins'
      cases hstarted
  | overran hbegins hoverruns => exact absurd (.opening hbegins hoverruns) h
  | unopened hbegins hmeasured hopen =>
    apply faithful_of_failed (.unopened hbegins hmeasured hopen) (Report.failed_failed _)
    rintro _ _ _ ⟨hbegins', _, hopen'⟩
    obtain ⟨rfl, _, rfl, rfl⟩ := hbegins.unique hbegins'
    cases hopen.symm.trans hopen'
  | unmeasured hopens hdraw hwait => exact absurd (.waiting hopens hdraw hwait) h
  | unclosed hsettles hoverruns => exact absurd (.closing hsettles hoverruns) h
  | closed hsettles hmeasured => exact faithful_of_settles hsettles hmeasured

/-- Servers that keep a record have one message on it after the wait: that the file was closed, for
the server of the file if it gets ready for that. -/
theorem handed_completed {run : CompletionRun (Recorded σ)} {id : Int} {deadline : Nat}
    {c : Completion} {r : Registry (Recorded σ)} {a : Ambient}
    (hsettles : run.Settles id deadline c r a)
    (hmeasured : DocumentSync.overruns run.file r a = false) (sync : DocumentSync)
    (language : Language) :
    run.completed.2.1.handed language =
      r.handed language ++ addressedTo language (sync.notification? (.closed run.file) r a).toList := by
  obtain ⟨told, _, r', a', hannounces⟩ := sync.exists_announces (.closed run.file) r a
  rw [(Course.closed hsettles hmeasured).completed_eq, ← hannounces.handed_eq]
  have hclose := congrArg (fun result => result.2.2.1) hannounces.announce_eq
  exact congrArg (Registry.handed · language) hclose

end

/-- A run with a server that takes everything, and with the longest budget for the request. -/
def boundless : CompletionRun (Recorded Scripted) where
  config := { completion := ⟨4294967295, 18446744073709551615⟩ }
  file := ⟨"/w/a.go"⟩
  line := 0
  character := 2
  workspace := none
  read _ := .ok "pr"
  registry :=
    { servers := fun language =>
        if language = .go then some { server := { language, inbox := .ofCapacity 8 } } else none }
  ambient := {}

/-- The file is opened, but it is not closed, and the run does not get to shut its servers down. -/
theorem unfaithful_boundless :
    ¬ boundless.Faithful ∧ (boundless.result.2.1.handed .go).map Handover.accepted = [true] ∧
      boundless.result.2.1.isReady .go = true := by
  have hresult : boundless.result.1.ending = .overflow ∧
      (boundless.result.2.1.handed .go).map Handover.accepted = [true] ∧
      boundless.result.2.1.isReady .go = true := by decide +kernel
  exact ⟨not_faithful_of_overflow hresult.1, hresult.2⟩

end CompletionRun

end CommandLine

end LanguageClient
