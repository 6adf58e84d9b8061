import LanguageClient.Proofs.Progress

namespace LanguageClient.Workspace

open Document Server Suggest Wire

namespace Worker

/-- What has become of a client since its worker broke off with a request: that request and those
queued behind it are never settled, its entry stays, and whatever is asked for is dropped. -/
structure Forsaken {σ : Type} (request : CompletionRequest) (w after : Worker σ) : Prop where
  stage : after.stage = .gone request
  pending : after.completion.pending.requests = [request]
  drawn : ∀ earlier ∈ w.asked, earlier.id < after.ambient.nextId
  dropped : ∃ new, after.asked = w.asked ++ new ∧
    after.settled = w.settled ++ new.map (·, .dropped) ∧
      ∀ later ∈ new, ∀ earlier ∈ w.asked, earlier.id < later.id

section

variable {σ : Type} [Adapter σ] {w after : Worker σ} {request : CompletionRequest}

omit [Adapter σ] in
theorem forsaken_of_gone (hstage : after.stage = .gone request)
    (hpending : after.completion.pending.requests = [request])
    (hdrawn : ∀ earlier ∈ w.asked, earlier.id < after.ambient.nextId)
    (hasked : after.asked = w.asked) (hsettled : after.settled = w.settled) :
    Forsaken request w after where
  stage := hstage
  pending := hpending
  drawn := hdrawn
  dropped := ⟨[], by rw [hasked, List.append_nil],
    by rw [hsettled, List.map_nil, List.append_nil], List.forall_mem_nil _⟩

omit [Adapter σ] in
theorem Forsaken.ask (h : Forsaken request w after) (path : Path) (line character : UInt32) :
    Forsaken request w (after.ask path line character) := by
  have hgone : after.stage.isGone = true := by
    rw [h.stage]
    rfl
  obtain ⟨new, hasked, hsettled, hlater⟩ := h.dropped
  rw [Worker.ask]
  dsimp only
  rw [hgone, if_pos rfl]
  constructor
  case stage => exact h.stage
  case pending => exact h.pending
  case drawn => exact fun earlier hearlier => Int.lt_trans (h.drawn earlier hearlier) (Int.lt_succ _)
  case dropped =>
    refine ⟨new ++ [⟨after.ambient.nextId, path, line, character⟩], ?_, ?_, ?_⟩
    · rw [← List.append_assoc, ← hasked]
      rfl
    · rw [List.map_append, ← List.append_assoc, ← hsettled]
      rfl
    · intro later hmem
      rcases List.mem_append.1 hmem with hnew | hlast
      · exact hlater later hnew
      · rw [List.mem_singleton.1 hlast]
        exact h.drawn

theorem Forsaken.move (h : Forsaken request w after) (m : Move σ) :
    Forsaken request w (after.move m) := by
  cases m with
  | ask path line character => exact h.ask path line character
  | work =>
    rw [Worker.move, work, h.stage]
    exact h
  | gesture g =>
    obtain ⟨menu, hobey, _⟩ := after.completion.obey_eq g
    rw [Worker.move, hobey]
    exact ⟨h.stage, h.pending, h.drawn, h.dropped⟩
  | meanwhile document servers ambient drawn =>
    refine ⟨h.stage, h.pending, fun earlier hearlier => ?_, h.dropped⟩
    exact Int.lt_of_lt_of_le (h.drawn earlier hearlier)
      (Int.le_add_of_nonneg_right (Int.natCast_nonneg drawn))

theorem Forsaken.run (h : Forsaken request w after) (moves : List (Move σ)) :
    Forsaken request w (after.run moves) := by
  induction moves generalizing after with
  | nil => exact h
  | cons m rest ih => exact ih (h.move m)

omit [Adapter σ] in
theorem Forsaken.unsettled (h : Forsaken request w after) (hw : w.Consistent)
    {lost : CompletionRequest} (hlost : lost ∈ w.stage.request?.toList ++ w.queue) :
    lost ∉ after.settled.map Prod.fst := by
  obtain ⟨new, _, hsettled, hlater⟩ := h.dropped
  have hids := hw.ids
  have hasked : lost ∈ w.asked := by
    rw [← hw.order, List.append_assoc]
    exact List.mem_append_right _ hlost
  rw [← hw.order, List.append_assoc, List.pairwise_append] at hids
  rw [hsettled, List.map_append, List.mem_append]
  rintro (hearlier | hnew)
  · exact Int.lt_irrefl _ (hids.2.2 lost hearlier lost hlost)
  · rw [List.map_map] at hnew
    obtain ⟨later, hmem, rfl⟩ := List.mem_map.1 hnew
    exact Int.lt_irrefl _ (hlater _ hmem _ hasked)

omit [Adapter σ] in
theorem Advances.forsaken (h : Advances w after) (hw : w.Consistent)
    (hgone : after.stage.isGone = true) :
    ∃ request, w.stage.request? = some request ∧ Forsaken request w after := by
  cases h with
  | @breakOff request _ _ hstage =>
    obtain ⟨_, hpending⟩ := hw.at_stage hstage
    exact ⟨request, by rw [hstage]; rfl, forsaken_of_gone rfl hpending hw.drawn rfl rfl⟩
  | rest | stay =>
    rw [hw.atWork] at hgone
    cases hgone
  | _ => cases hgone

/-- A run that is not in time goes well up to where the worker breaks off with a request. -/
theorem exists_forsaken (h : w.Consistent) {moves : List (Move σ)} (hlate : ¬ w.InTime moves) :
    ∃ earlier later request, moves = earlier ++ later ∧ (w.run earlier).Consistent ∧
      (w.run earlier).stage.request? = some request ∧
      Forsaken request (w.run earlier) (w.run moves) := by
  induction moves generalizing w with
  | nil => exact absurd trivial hlate
  | cons m rest ih =>
    by_cases hclock : m.works = true → w.beginsWait = true →
        w.ambient.canWait w.completion.budget.total = true
    case pos =>
      have hrest : ¬ (w.move m).InTime rest := fun hrest => hlate ⟨hclock, hrest⟩
      obtain ⟨earlier, later, request, rfl, hconsistent, hrequest, hforsaken⟩ :=
        ih (consistent_move h hclock) hrest
      exact ⟨m :: earlier, later, request, rfl, hconsistent, hrequest, hforsaken⟩
    case neg =>
      obtain ⟨hworks, hends⟩ := Classical.not_imp.1 hclock
      cases m with
      | work =>
        have hgone : w.work.stage.isGone = true := by
          rw [← Bool.not_eq_false]
          exact fun hatWork => hends ((isGone_work_eq_false_iff h.atWork).1 hatWork)
        obtain ⟨request, hrequest, hforsaken⟩ := w.advances_work.forsaken h hgone
        exact ⟨[], .work :: rest, request, rfl, h, hrequest, hforsaken.run rest⟩
      | ask | gesture | meanwhile => cases hworks

/-- A worker that is left alone breaks off with a request that overruns. -/
theorem forsaken_of_overruns (h : w.Consistent) (hstage : w.stage = .taken request)
    (hoverruns : w.completion.overruns request w.document w.servers w.ambient = true) :
    w.Reaches w.work.work ∧ Forsaken request w w.work.work := by
  refine ⟨.head (.head (.refl _)), ?_⟩
  obtain ⟨_, hpending⟩ := h.at_stage hstage
  rw [Completion.overruns, Bool.and_eq_true, Bool.not_eq_true', Completion.send_eq] at hoverruns
  obtain ⟨hsend, hclock⟩ := hoverruns
  cases haddressee : w.servers.addressee? request.path with
  | none =>
    rw [haddressee] at hsend
    cases hsend
  | some found =>
    obtain ⟨language, server⟩ := found
    rcases hsent : Adapter.send (request.call w.document).body (Mailbox.emptied server) with
      ⟨result, sent⟩
    simp only [haddressee, hsent] at hsend
    cases result with
    | error fault => cases hsend
    | ok =>
      rw [work_work_of_sent hstage haddressee hsent, hclock, if_neg Bool.false_ne_true]
      exact forsaken_of_gone rfl (Pending.requests_insert hpending request) h.drawn rfl rfl

end

end Worker

end LanguageClient.Workspace
