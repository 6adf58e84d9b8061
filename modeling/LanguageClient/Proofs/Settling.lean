import LanguageClient.Suggest.Menu
import Mathlib.Data.List.MinMax

namespace LanguageClient.Suggest

/-- How one request ended. -/
structure Ending where
  id : Int
  outcome : Outcome

namespace Menu

def settleAll (m : Menu) : List Ending → Menu
  | [] => m
  | ending :: rest => (m.settle ending.id ending.outcome).settleAll rest

section

variable {m : Menu} {endings earlier later : List Ending} {ending highest last : Ending}

theorem settleAll_append (m : Menu) (earlier later : List Ending) :
    m.settleAll (earlier ++ later) = (m.settleAll earlier).settleAll later := by
  induction earlier generalizing m with
  | nil => rfl
  | cons ending rest ih => exact ih _

theorem hasSettled_settle (m : Menu) (id : Int) (outcome : Outcome) (asked : Int) :
    (m.settle id outcome).hasSettled asked = true ↔ m.hasSettled asked = true ∨ asked ≤ id := by
  rw [settle, hasSettled]
  by_cases hid : m.hasSettled id = true
  · rw [if_pos hid]
    change m.hasSettled asked = true ↔ _
    rw [hasSettled] at hid ⊢
    cases hsettled : m.settledRequest with
    | none =>
      rw [hsettled] at hid
      cases hid
    | some settled =>
      rw [hsettled] at hid
      simp only [decide_eq_true_eq] at hid ⊢
      omega
  · rw [if_neg hid]
    simp only [decide_eq_true_eq]
    rw [hasSettled] at hid ⊢
    cases hsettled : m.settledRequest with
    | none => simp
    | some settled =>
      rw [hsettled] at hid
      simp only [decide_eq_true_eq] at hid ⊢
      omega

theorem hasSettled_settleAll (m : Menu) (endings : List Ending) (asked : Int) :
    (m.settleAll endings).hasSettled asked = true ↔
      m.hasSettled asked = true ∨ ∃ ending ∈ endings, asked ≤ ending.id := by
  induction endings generalizing m with
  | nil => simp [settleAll]
  | cons ending rest ih =>
    rw [settleAll, ih, hasSettled_settle, or_assoc]
    simp only [List.mem_cons, exists_eq_or_imp]

theorem settledRequest_eq_some_iff {id : Int} :
    m.settledRequest = some id ↔ ∀ asked, m.hasSettled asked = true ↔ asked ≤ id := by
  simp only [hasSettled]
  cases m.settledRequest with
  | none => exact iff_of_false nofun fun h => Bool.false_ne_true ((h id).2 (Int.le_refl id))
  | some settled =>
    simp only [decide_eq_true_eq, Option.some.injEq]
    constructor
    · rintro rfl asked
      exact Iff.rfl
    · intro h
      exact Int.le_antisymm ((h settled).1 (Int.le_refl settled)) ((h id).2 (Int.le_refl id))

theorem lastOutcome_settleAll (h : endings.getLast? = some last) (m : Menu) :
    (m.settleAll endings).lastOutcome = some last.outcome := by
  obtain ⟨earlier, rfl⟩ := List.getLast?_eq_some_iff.1 h
  rw [settleAll_append]
  rfl

theorem settledRequest_settleAll (hm : m.settledRequest = none) (hmem : highest ∈ endings)
    (hle : ∀ ending ∈ endings, ending.id ≤ highest.id) :
    (m.settleAll endings).settledRequest = some highest.id := by
  rw [settledRequest_eq_some_iff]
  intro asked
  rw [hasSettled_settleAll, hasSettled, hm]
  constructor
  · rintro (hsettled | ⟨ending, hending, hasked⟩)
    · cases hsettled
    · exact Int.le_trans hasked (hle ending hending)
  · exact fun hasked => .inr ⟨highest, hmem, hasked⟩

end

/-- What a menu says after requests ended one of which has the highest id. -/
structure Reports (m : Menu) (endings : List Ending) (highest : Ending) : Prop where
  mem : highest ∈ endings
  le : ∀ ending ∈ endings, ending.id ≤ highest.id
  settledRequest : (m.settleAll endings).settledRequest = some highest.id
  lasting : ∀ earlier later rest, endings = earlier ++ later ++ rest → ∀ asked,
    (m.settleAll earlier).hasSettled asked = true →
      (m.settleAll (earlier ++ later)).hasSettled asked = true
  /-- The outcome is that of the highest request if the one that ended last ended in the same
  way. -/
  lastOutcome_iff : ∀ last, endings.getLast? = some last →
    ((m.settleAll endings).lastOutcome = some highest.outcome ↔ last.outcome = highest.outcome)
  lastOutcome_of_pairwise : endings.Pairwise (fun earlier later => earlier.id < later.id) →
    (m.settleAll endings).lastOutcome = some highest.outcome

theorem exists_highest {endings : List Ending} (h : endings ≠ []) :
    ∃ highest ∈ endings, ∀ ending ∈ endings, ending.id ≤ highest.id := by
  obtain ⟨highest, hhighest⟩ :=
    Option.ne_none_iff_exists'.1 (mt (List.argmax_eq_none (f := Ending.id)).1 h)
  exact ⟨highest, List.argmax_mem hhighest, fun ending hending =>
    List.le_of_mem_argmax hending hhighest⟩

theorem exists_reports {m : Menu} (hm : m.settledRequest = none) {endings : List Ending}
    (h : endings ≠ []) : ∃ highest, m.Reports endings highest := by
  obtain ⟨highest, hmem, hle⟩ := exists_highest h
  have houtcome : ∀ last, endings.getLast? = some last →
      ((m.settleAll endings).lastOutcome = some highest.outcome ↔
        last.outcome = highest.outcome) := by
    intro last hlast
    rw [lastOutcome_settleAll hlast, Option.some.injEq]
  refine ⟨highest, hmem, hle, settledRequest_settleAll hm hmem hle, ?_, houtcome, ?_⟩
  · intro earlier later rest _ asked hasked
    rw [settleAll_append, hasSettled_settleAll]
    exact .inl hasked
  · intro hordered
    obtain ⟨earlier, last, rfl⟩ := (List.eq_nil_or_concat' endings).resolve_left h
    rw [houtcome last List.getLast?_concat]
    rcases List.mem_append.1 hmem with hearlier | hlast
    · -- An earlier one is lower than the last.
      have hlt := (List.pairwise_append.1 hordered).2.2 highest hearlier last (.head _)
      have hge := hle last (List.mem_append_right _ (.head _))
      omega
    · rw [List.mem_singleton.1 hlast]

def disordered : List Ending := [⟨1001, .failed⟩, ⟨1002, .resolved 3⟩, ⟨1000, .timedOut⟩]

theorem exists_reports_disordered :
    ({} : Menu).settledRequest = none ∧ disordered ≠ [] ∧
      ∃ highest, ({} : Menu).Reports disordered highest ∧ highest.id = 1002 ∧
        (({} : Menu).settleAll disordered).lastOutcome = some .timedOut := by
  have hnew : ({} : Menu).settledRequest = none := rfl
  have hsome : disordered ≠ [] := List.cons_ne_nil _ _
  obtain ⟨highest, hreports⟩ := exists_reports hnew hsome
  have hid : some highest.id = some 1002 := hreports.settledRequest.symm.trans (by decide)
  exact ⟨hnew, hsome, highest, hreports, Option.some.inj hid, by decide⟩

/-- The outcome may be that of a lower request than the one that a menu names. -/
theorem lastOutcome_ne_highest :
    ¬ ∀ endings : List Ending, (endings.map Ending.id).Nodup → ∀ highest ∈ endings,
      (∀ ending ∈ endings, ending.id ≤ highest.id) →
        (({} : Menu).settleAll endings).lastOutcome = some highest.outcome := by
  intro h
  have houtcome := h [⟨1001, .failed⟩, ⟨1000, .timedOut⟩] (by decide) ⟨1001, .failed⟩ (.head _)
    (by simp)
  exact absurd houtcome (by decide)

end Menu

end LanguageClient.Suggest
