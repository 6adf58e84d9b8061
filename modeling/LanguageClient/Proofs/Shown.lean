import LanguageClient.Proofs.Noninterference

namespace LanguageClient.Workspace

open Document Server Suggest Wire

/-- A request whose turn has come, with the document, the servers and the time at which it has, and
the document as it is when the reply comes. -/
structure Occasion (σ : Type) where
  request : CompletionRequest
  document : Snapshot
  servers : Registry σ
  ambient : Ambient
  later : Snapshot := document

/-- What happens to a completion: a request settles, or the user does something. -/
inductive Event (σ : Type) where
  | settle (o : Occasion σ)
  | gesture (g : Gesture)

/-- A request that settled, and the menus before and after it. -/
structure Settlement (σ : Type) where
  occasion : Occasion σ
  outcome : Outcome
  before : Menu
  after : Menu

def Reply.entries? : Reply → Option (List Json)
  | .entries offered => some offered
  | .failed => none

/-- Whether a request ended by something that the server did: a reply, or closing its output. -/
def answered : Outcome → Bool
  | .resolved _ | .failed => true
  | .timedOut | .dropped => false

section

variable {σ : Type}

def lastAnswered? (past : List (Settlement σ)) : Option (Settlement σ) :=
  past.reverse.find? (answered ·.outcome)

/-- The items that the last answered request put into the menu. -/
def itemsLeft (past : List (Settlement σ)) : List Item :=
  ((lastAnswered? past).map fun s => s.after.items).getD []

theorem itemsLeft_of_answered {s : Settlement σ} (h : answered s.outcome = true)
    (past : List (Settlement σ)) : itemsLeft (past ++ [s]) = s.after.items := by
  rw [itemsLeft, lastAnswered?, List.reverse_concat, List.find?_cons, h]
  rfl

theorem itemsLeft_of_not_answered {s : Settlement σ} (h : answered s.outcome = false)
    (past : List (Settlement σ)) : itemsLeft (past ++ [s]) = itemsLeft past := by
  rw [itemsLeft, lastAnswered?, List.reverse_concat, List.find?_cons, h]
  rfl

/-- A menu with the items of the last answered request, which is hidden if there are none. -/
structure Recalls (past : List (Settlement σ)) (menu : Menu) : Prop where
  items : menu.items = itemsLeft past
  nonempty : menu.visible = true → menu.items ≠ []

theorem Recalls.of_obeys {past : List (Settlement σ)} {before after : Menu}
    (h : Recalls past before) (hobeys : Completion.Obeys before after) : Recalls past after where
  items := hobeys.items.trans h.items
  nonempty hshown := by
    rw [hobeys.items]
    exact h.nonempty (hobeys.visible hshown)

variable [Adapter σ]

/-- The entries that the reply to a request offers, if one comes in time and offers any. -/
def Occasion.entries? (budget : PollBudget) (o : Occasion σ) : Option (List Json) := do
  let t ← o.servers.heard? budget o.request o.document
  let frame ← firstRelated? o.request.id t.frames
  (Reply.ofJson (← Json.ofBytes? frame)).entries?

def Occasion.cursor (o : Occasion σ) : Cursor :=
  .resolve o.later o.request.line o.request.character

/-- The menu shows the result of the request that has just settled, and nothing else. -/
def Settlement.Faithful (budget : PollBudget) (limit : Nat) (s : Settlement σ) : Prop :=
  s.after.lastOutcome = some s.outcome ∧
    match s.outcome with
    | .resolved count =>
      (∃ entries, s.occasion.entries? budget = some entries ∧
        s.after.items = (rank entries s.occasion.cursor limit).items) ∧
      count = s.after.items.length ∧ (s.after.visible = true ↔ 0 < count)
    | .failed | .timedOut | .dropped => s.after.items = [] ∧ s.after.visible = false

/-- The menu shows what it showed before the request settled. -/
structure Settlement.Stale (s : Settlement σ) : Prop where
  items : s.after.items = s.before.items
  selectedIndex : s.after.selectedIndex = s.before.selectedIndex
  visible : s.after.visible = s.before.visible

theorem Settlement.faithful_iff_of_not_answered {s : Settlement σ}
    (hlast : s.after.lastOutcome = some s.outcome) (h : answered s.outcome = false)
    (budget : PollBudget) (limit : Nat) :
    s.Faithful budget limit ↔ s.after.items = [] ∧ s.after.visible = false := by
  rw [Faithful, hlast]
  cases houtcome : s.outcome with
  | resolved count =>
    rw [houtcome] at h
    cases h
  | failed =>
    rw [houtcome] at h
    cases h
  | timedOut => exact and_iff_right rfl
  | dropped => exact and_iff_right rfl

namespace Completion

def settlement (c : Completion) (o : Occasion σ) : Settlement σ where
  occasion := o
  outcome := (c.process o.request o.document o.servers o.ambient o.later).1
  before := c.menu
  after := (c.settle o.request o.document o.servers o.ambient o.later).1.menu

def react (c : Completion) : Event σ → Completion
  | .settle o => (c.settle o.request o.document o.servers o.ambient o.later).1
  | .gesture g => c.obey g

def settled (c : Completion) : Event σ → List (Settlement σ)
  | .settle o => [c.settlement o]
  | .gesture _ => []

def settlements (c : Completion) : List (Event σ) → List (Settlement σ)
  | [] => []
  | event :: events => c.settled event ++ (c.react event).settlements events

theorem menu_react_settle (c : Completion) (o : Occasion σ) :
    (c.react (.settle o)).menu = (c.settlement o).after := rfl

theorem lastOutcome_settlement (c : Completion) (o : Occasion σ) :
    (c.settlement o).after.lastOutcome = some (c.settlement o).outcome := rfl

theorem after_settlement (c : Completion) (o : Occasion σ) :
    (c.settlement o).after =
      (Verdict.ofTraffic? o.request.id (o.servers.heard? c.budget o.request o.document)).conclude
        c.limit o.request o.later c.menu := by
  obtain ⟨pending, hsettle⟩ := settle_fst c o.request o.document o.servers o.ambient o.later
  rw [settlement, hsettle]

section

variable {c : Completion} {o : Occasion σ} {t : Traffic} {frame : Bytes} {body : Json}

theorem after_of_unsent (h : o.servers.heard? c.budget o.request o.document = none) :
    (c.settlement o).after = c.menu.settle o.request.id .dropped := by
  rw [after_settlement, h]
  rfl

theorem after_of_no_reply (h : o.servers.heard? c.budget o.request o.document = some t)
    (hfirst : firstRelated? o.request.id t.frames = none) :
    (c.settlement o).after =
      if t.closed then c.menu.clear.settle o.request.id .failed
      else c.menu.settle o.request.id .timedOut := by
  rw [after_settlement, h, Verdict.ofTraffic?, Verdict.ofTraffic, hfirst]
  cases t.closed with
  | true => rfl
  | false => rfl

theorem after_of_failed (h : o.servers.heard? c.budget o.request o.document = some t)
    (hfirst : firstRelated? o.request.id t.frames = some frame)
    (hbody : Json.ofBytes? frame = some body) (hreply : Reply.ofJson body = .failed) :
    (c.settlement o).after = c.menu.clear.settle o.request.id .failed := by
  rw [after_settlement, h, Verdict.ofTraffic?, Verdict.ofTraffic, hfirst]
  simp only [Verdict.conclude, hbody, Option.map_some, hreply]

theorem after_of_entries {entries : List Json}
    (h : o.servers.heard? c.budget o.request o.document = some t)
    (hfirst : firstRelated? o.request.id t.frames = some frame)
    (hbody : Json.ofBytes? frame = some body) (hreply : Reply.ofJson body = .entries entries) :
    (c.settlement o).after = (c.menu.publish (rank entries o.cursor c.limit)).settle o.request.id
      (.resolved (rank entries o.cursor c.limit).items.length) := by
  rw [after_settlement, h, Verdict.ofTraffic?, Verdict.ofTraffic, hfirst]
  simp only [Verdict.conclude, hbody, Option.map_some, hreply]
  rfl

end

theorem outcome_settlement {c : Completion} {o : Occasion σ} {menu : Menu} {outcome : Outcome}
    (h : (c.settlement o).after = menu.settle o.request.id outcome) :
    (c.settlement o).outcome = outcome := by
  have hlast := lastOutcome_settlement c o
  rw [h] at hlast
  exact (Option.some.inj hlast).symm

theorem faithful_of_clear {c : Completion} {o : Occasion σ}
    (h : (c.settlement o).after = c.menu.clear.settle o.request.id .failed) :
    answered (c.settlement o).outcome = true ∧
      (c.settlement o).Faithful c.budget c.limit := by
  have houtcome := outcome_settlement h
  refine ⟨by rw [houtcome]; rfl, lastOutcome_settlement c o, ?_⟩
  rw [houtcome, h]
  exact ⟨rfl, rfl⟩

theorem faithful_of_publish {c : Completion} {o : Occasion σ} {entries : List Json}
    (hentries : o.entries? c.budget = some entries)
    (h : (c.settlement o).after = (c.menu.publish (rank entries o.cursor c.limit)).settle
      o.request.id (.resolved (rank entries o.cursor c.limit).items.length)) :
    answered (c.settlement o).outcome = true ∧
      (c.settlement o).Faithful c.budget c.limit := by
  have houtcome := outcome_settlement h
  refine ⟨by rw [houtcome]; rfl, lastOutcome_settlement c o, ?_⟩
  rw [houtcome, h]
  refine ⟨⟨entries, hentries, rfl⟩, rfl, ?_⟩
  change (!(rank entries o.cursor c.limit).items.isEmpty) = true ↔ _
  rw [Bool.not_eq_true', List.isEmpty_eq_false_iff, List.length_pos_iff]

theorem stale_of_settle {c : Completion} {o : Occasion σ} {outcome : Outcome}
    (hanswered : answered outcome = false)
    (h : (c.settlement o).after = c.menu.settle o.request.id outcome) :
    answered (c.settlement o).outcome = false ∧ (c.settlement o).Stale := by
  refine ⟨by rw [outcome_settlement h]; exact hanswered, ?_⟩
  constructor
  case items => rw [h]; rfl
  case selectedIndex => rw [h]; rfl
  case visible => rw [h]; rfl

theorem faithful_or_stale (c : Completion) (o : Occasion σ) :
    answered (c.settlement o).outcome = true ∧ (c.settlement o).Faithful c.budget c.limit ∨
      answered (c.settlement o).outcome = false ∧ (c.settlement o).Stale := by
  cases hheard : o.servers.heard? c.budget o.request o.document with
  | none => exact .inr (stale_of_settle rfl (after_of_unsent hheard))
  | some t =>
    cases hfirst : firstRelated? o.request.id t.frames with
    | none =>
      have hafter := after_of_no_reply hheard hfirst
      cases hclosed : t.closed with
      | true =>
        rw [hclosed, if_pos rfl] at hafter
        exact .inl (faithful_of_clear hafter)
      | false =>
        rw [hclosed, if_neg Bool.false_ne_true] at hafter
        exact .inr (stale_of_settle rfl hafter)
    | some frame =>
      obtain ⟨body, hbody⟩ := ofBytes?_firstRelated? hfirst
      cases hreply : Reply.ofJson body with
      | failed => exact .inl (faithful_of_clear (after_of_failed hheard hfirst hbody hreply))
      | entries entries =>
        have hentries : o.entries? c.budget = some entries := by
          simp [Occasion.entries?, hheard, hfirst, hbody, hreply, Reply.entries?]
        exact .inl (faithful_of_publish hentries (after_of_entries hheard hfirst hbody hreply))

theorem react_settle (c : Completion) (o : Occasion σ) :
    ∃ pending, c.react (.settle o) = { c with menu := (c.settlement o).after, pending } := by
  obtain ⟨pending, hsettle⟩ := settle_fst c o.request o.document o.servers o.ambient o.later
  refine ⟨pending, ?_⟩
  rw [after_settlement]
  exact hsettle

theorem recalls_settlement {c : Completion} {past : List (Settlement σ)}
    (h : Recalls past c.menu) (o : Occasion σ) :
    Recalls (past ++ [c.settlement o]) (c.settlement o).after := by
  rcases faithful_or_stale c o with ⟨hanswered, _, hshows⟩ | ⟨hanswered, hstale⟩
  · refine ⟨(itemsLeft_of_answered hanswered past).symm, fun hvisible => ?_⟩
    cases houtcome : (c.settlement o).outcome with
    | resolved count =>
      rw [houtcome] at hshows
      obtain ⟨_, hcount, hshown⟩ := hshows
      rw [← List.length_pos_iff, ← hcount]
      exact hshown.1 hvisible
    | failed =>
      rw [houtcome] at hshows
      rw [hshows.2] at hvisible
      exact absurd hvisible Bool.false_ne_true
    | timedOut =>
      rw [houtcome] at hanswered
      exact absurd hanswered Bool.false_ne_true
    | dropped =>
      rw [houtcome] at hanswered
      exact absurd hanswered Bool.false_ne_true
  · refine ⟨?_, fun hvisible => ?_⟩
    · rw [hstale.items, itemsLeft_of_not_answered hanswered]
      exact h.items
    · rw [hstale.items]
      exact h.nonempty (hstale.visible ▸ hvisible)

theorem recalls_react {c : Completion} {past : List (Settlement σ)}
    (h : Recalls past c.menu) (event : Event σ) :
    Recalls (past ++ c.settled event) (c.react event).menu ∧
      (c.react event).budget = c.budget ∧ (c.react event).limit = c.limit := by
  cases event with
  | settle o =>
    obtain ⟨pending, hreact⟩ := react_settle c o
    rw [hreact]
    exact ⟨recalls_settlement h o, rfl, rfl⟩
  | gesture g =>
    obtain ⟨menu, hobey, hobeys⟩ := c.obey_eq g
    rw [Completion.settled, List.append_nil, react, hobey]
    exact ⟨h.of_obeys hobeys, rfl, rfl⟩

theorem exists_settlement {c : Completion} {past : List (Settlement σ)}
    (h : Recalls past c.menu) {events : List (Event σ)} {earlier later : List (Settlement σ)}
    {s : Settlement σ} (hsplit : c.settlements events = earlier ++ s :: later) :
    ∃ (c' : Completion) (o : Occasion σ), s = c'.settlement o ∧
      Recalls (past ++ earlier) c'.menu ∧ c'.budget = c.budget ∧ c'.limit = c.limit := by
  -- By induction on the events. What the first one settles is earlier for all that settles later.
  induction events generalizing c past earlier with
  | nil => cases earlier <;> cases hsplit
  | cons event rest ih =>
    obtain ⟨hrecalls, hbudget, hlimit⟩ := recalls_react h event
    rw [← hbudget, ← hlimit]
    cases event with
    | gesture g =>
      rw [Completion.settled, List.append_nil] at hrecalls
      exact ih hrecalls hsplit
    | settle o =>
      cases earlier with
      | nil =>
        obtain ⟨hfirst, _⟩ := List.cons.inj hsplit
        rw [hbudget, hlimit, List.append_nil]
        exact ⟨c, o, hfirst.symm, h, rfl, rfl⟩
      | cons first earlier =>
        obtain ⟨hfirst, hrest⟩ := List.cons.inj hsplit
        rw [Completion.settled, hfirst] at hrecalls
        have hlater := ih hrecalls hrest
        rwa [List.append_assoc] at hlater

/-- In a run of a new client, the menu shows the result of a request that has just settled exactly
when the request was answered or nothing was left of an earlier one. Any other request leaves the
items of the last answered one where they are, shown as they were. -/
theorem faithful_iff {config : Config} {events : List (Event σ)}
    {earlier later : List (Settlement σ)} {s : Settlement σ}
    (h : (ofConfig config).settlements events = earlier ++ s :: later) :
    (s.Faithful config.completion config.maxCompletions.toNat ↔
      answered s.outcome = true ∨ itemsLeft earlier = []) ∧
    (answered s.outcome = false → s.Stale ∧ s.after.items = itemsLeft earlier) := by
  have hfresh : Recalls ([] : List (Settlement σ)) (ofConfig config).menu := ⟨rfl, nofun⟩
  obtain ⟨c, o, rfl, hrecalls, hbudget, hlimit⟩ := exists_settlement hfresh h
  rw [List.nil_append] at hrecalls
  rw [show config.completion = c.budget from hbudget.symm,
    show config.maxCompletions.toNat = c.limit from hlimit.symm]
  rcases faithful_or_stale c o with ⟨hanswered, hfaithful⟩ | ⟨hanswered, hstale⟩
  · rw [hanswered]
    exact ⟨iff_of_true hfaithful (.inl rfl), nofun⟩
  · have hitems : (c.settlement o).after.items = itemsLeft earlier :=
      hstale.items.trans hrecalls.items
    have hhidden : (c.settlement o).after.items = [] → (c.settlement o).after.visible = false := by
      intro hempty
      rw [hstale.items] at hempty
      rw [hstale.visible, ← Bool.not_eq_true]
      exact fun hvisible => hrecalls.nonempty hvisible hempty
    refine ⟨?_, fun _ => ⟨hstale, hitems⟩⟩
    rw [Settlement.faithful_iff_of_not_answered (lastOutcome_settlement c o) hanswered,
      hanswered, ← hitems, or_iff_right Bool.false_ne_true]
    exact and_iff_left_of_imp hhidden

end Completion

end

/-- What a rehearsed request meets, with nothing left unread. -/
def occasion (id : Int) (frames : List Bytes) : Occasion Scripted where
  request := (rehearsal id [] frames).request
  document := (rehearsal id [] frames).document
  servers := (rehearsal id [] frames).servers
  ambient := (rehearsal id [] frames).ambient

theorem heard?_occasion (id : Int)
    (hcall : ((Json.ofChars?
      ((rehearsal id [] []).request.call (rehearsal id [] []).document).json.chars).map
        fun call => ((call.get? "method").bind Json.asString?,
          (call.get? "id").bind Json.asInt64?)) = some (some "textDocument/completion", some id))
    (frames : List Bytes) (hfits : frames.length ≤ 8) :
    (occasion id frames).servers.heard? defaultCompletion.budget (occasion id frames).request
      (occasion id frames).document = some ⟨frames, false⟩ := by
  rw [Registry.heard?_eq_traffic? _ (by decide)]
  exact traffic?_rehearsal id hcall _ [] hfits

def printReply : Bytes := replyTo 7 ("result", .arr [.obj [("label", .str "print")]])

def printItem : Item := ⟨"print", "", 0, "print", ⟨⟨0, 0⟩, ⟨0, 2⟩⟩, "!Cprint"⟩

/-- A request that is answered, and a later one that is not. -/
def staleRun : List (Event Scripted) :=
  [.settle (occasion 7 [printReply]), .settle (occasion 8 [])]

def firstSettlement : Settlement Scripted := defaultCompletion.settlement (occasion 7 [printReply])

def secondSettlement : Settlement Scripted :=
  (defaultCompletion.react (.settle (occasion 7 [printReply]))).settlement (occasion 8 [])

theorem exists_entries_printReply :
    ∃ body entries, Json.ofBytes? printReply = some body ∧ Reply.ofJson body = .entries entries ∧
      rank entries (occasion 7 [printReply]).cursor defaultCompletion.limit = ⟨[printItem], 0⟩ := by
  have hranked : ((Json.ofBytes? printReply).bind fun body =>
      (Reply.ofJson body).entries?.map fun entries =>
        let ranked := rank entries (occasion 7 [printReply]).cursor defaultCompletion.limit
        (ranked.items, ranked.selected)) = some ([printItem], 0) := by
    rw [printReply, replyTo, Json.bytes, Json.ofBytes?_encode]
    decide +kernel
  obtain ⟨body, hbody, hreply⟩ := Option.bind_eq_some_iff.1 hranked
  obtain ⟨entries, hentries, hitems⟩ := Option.map_eq_some_iff.1 hreply
  obtain ⟨hitems, hselected⟩ := Prod.mk.inj hitems
  refine ⟨body, entries, hbody, ?_, ?_⟩
  · cases hof : Reply.ofJson body with
    | failed =>
      rw [hof] at hentries
      cases hentries
    | entries offered =>
      rw [hof] at hentries
      rw [Option.some.inj hentries]
  · rw [← hitems, ← hselected]

theorem after_firstSettlement :
    firstSettlement.after = (Menu.publish {} ⟨[printItem], 0⟩).settle 7 (.resolved 1) := by
  have hrelated : ¬ Unrelated 7 printReply := by
    rw [printReply, replyTo, Json.bytes, unrelated_encode_iff]
    decide +kernel
  have hheard := heard?_occasion 7 (by decide +kernel) [printReply] (by decide)
  obtain ⟨body, entries, hbody, hentries, hranked⟩ := exists_entries_printReply
  have hafter := Completion.after_of_entries hheard (firstRelated?_cons_of_related hrelated [])
    hbody hentries
  rw [hranked] at hafter
  exact hafter

theorem after_secondSettlement :
    secondSettlement.after =
      ((Menu.publish {} ⟨[printItem], 0⟩).settle 7 (.resolved 1)).settle 8 .timedOut := by
  obtain ⟨pending, hreact⟩ := Completion.react_settle defaultCompletion (occasion 7 [printReply])
  have hbudget : (defaultCompletion.react (.settle (occasion 7 [printReply]))).budget =
    defaultCompletion.budget := by rw [hreact]
  have hheard := heard?_occasion 8 (by decide +kernel) [] (by decide)
  rw [← hbudget] at hheard
  have hid : (occasion 8 []).request.id = 8 := rfl
  rw [secondSettlement, Completion.after_of_no_reply hheard rfl, if_neg Bool.false_ne_true, hid,
    Completion.menu_react_settle, ← firstSettlement, after_firstSettlement]

theorem outcome_secondSettlement : secondSettlement.outcome = .timedOut :=
  Completion.outcome_settlement after_secondSettlement

theorem answered_secondSettlement : answered secondSettlement.outcome = false := by
  rw [outcome_secondSettlement]
  rfl

theorem settlements_staleRun :
    defaultCompletion.settlements staleRun = [firstSettlement] ++ secondSettlement :: [] := rfl

theorem stale_secondSettlement :
    defaultCompletion.settlements staleRun = [firstSettlement] ++ secondSettlement :: [] ∧
      secondSettlement.Stale ∧ secondSettlement.after.items = itemsLeft [firstSettlement] := by
  have hsplit : (Completion.ofConfig {}).settlements staleRun =
    [firstSettlement] ++ secondSettlement :: [] := settlements_staleRun
  exact ⟨hsplit, (Completion.faithful_iff hsplit).2 answered_secondSettlement⟩

/-- After a request that timed out, an item of the one before it is shown and can be accepted. -/
theorem unfaithful_after_timeOut :
    secondSettlement ∈ defaultCompletion.settlements staleRun ∧
      secondSettlement.outcome = .timedOut ∧
      ¬ secondSettlement.Faithful defaultCompletion.budget defaultCompletion.limit ∧
      ((staleRun.foldl Completion.react defaultCompletion).accept ⟨"pr", 2, [0]⟩).map Prod.fst =
        some ⟨0, 2, "print"⟩ := by
  have hmember : secondSettlement ∈ defaultCompletion.settlements staleRun := by
    rw [settlements_staleRun]
    exact List.mem_append_right _ (.head _)
  have hlast : secondSettlement.after.lastOutcome = some secondSettlement.outcome :=
    Completion.lastOutcome_settlement _ _
  refine ⟨hmember, outcome_secondSettlement, ?_, ?_⟩
  · rw [Settlement.faithful_iff_of_not_answered hlast answered_secondSettlement,
      after_secondSettlement]
    exact fun hempty => List.cons_ne_nil _ _ hempty.1
  · have hmenu : (staleRun.foldl Completion.react defaultCompletion).menu =
        secondSettlement.after := by
      rw [staleRun, List.foldl_cons, List.foldl_cons, List.foldl_nil, Completion.menu_react_settle,
        secondSettlement]
    rw [Completion.accept, hmenu, after_secondSettlement]
    decide +kernel

end LanguageClient.Workspace
