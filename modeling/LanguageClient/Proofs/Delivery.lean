import LanguageClient.Server.Scripted
import LanguageClient.Workspace.DocumentSync

namespace LanguageClient

namespace Workspace

open Server

/-- What happens to a file. -/
inductive Notice where
  | opened (p : Path) (content : String)
  | changed (p : Path) (version : Int) (content : String)
  | saved (p : Path) (content : Option String)
  | closed (p : Path)

/-- What becomes of a notice: it is suppressed, or the file's server gets it, or it is lost. -/
inductive Fate where
  | suppressed
  | sent
  | lost
  deriving DecidableEq

def Fate.ofSent (sent : Bool) : Fate := if sent then .sent else .lost

/-- A notice and what became of it. -/
structure Entry where
  notice : Notice
  fate : Fate

namespace Entry

/-- The text that a server got for a file. -/
def text? (p : Path) (e : Entry) : Option String :=
  match e.notice, e.fate with
  | .opened q content, .sent => if q == p then some content else none
  | .changed q _ content, .sent => if q == p then some content else none
  | _, _ => none

/-- The file and the text of a change that was not suppressed. -/
def change? (e : Entry) : Option (Path × String) :=
  match e.notice, e.fate with
  | .changed _ _ _, .suppressed => none
  | .changed p _ content, _ => some (p, content)
  | _, _ => none

end Entry

/-- The text that was last delivered for a file, in a log with the newest entry first. -/
def delivered (p : Path) (log : List Entry) : Option String := log.findSome? (Entry.text? p)

theorem delivered_append_cons (p : Path) (after : List Entry) (e : Entry) (before : List Entry) :
    delivered p (after ++ e :: before) =
      (delivered p after).or ((e.text? p).or (delivered p before)) := by
  rw [delivered, List.findSome?_append, List.findSome?_cons]
  cases e.text? p with
  | none => rfl
  | some text => rfl

theorem Entry.text?_of_change? {e : Entry} {p q : Path} {content : String}
    (h : e.change? = some (q, content)) (hq : (q == p) = true) :
    e.text? p = if e.fate = .sent then some content else none := by
  obtain ⟨notice, fate⟩ := e
  cases notice with
  | opened p content => cases h
  | saved p content => cases h
  | closed p => cases h
  | changed p version content =>
    cases fate with
    | suppressed => cases h
    | lost => rfl
    | sent =>
      cases h
      exact if_pos hq

/-- A notice with the servers and the time that it meets, which may be any. -/
structure Visit (σ : Type) where
  notice : Notice
  servers : Registry σ
  ambient : Ambient

namespace DocumentSync

section

variable {σ : Type} [Adapter σ]

/-- Tells of what happened, and says what became of that. -/
def tell (s : DocumentSync) (v : Visit σ) : Fate × DocumentSync :=
  match v.notice with
  | .opened p content => (.ofSent (didOpen p content v.servers v.ambient).1, s)
  | .changed p version content =>
    let result := s.didChange p version content v.servers v.ambient
    (if s.suppresses p content v.ambient.now then .suppressed else .ofSent result.1, result.2.1)
  | .saved p content => (.ofSent (didSave p content v.servers v.ambient).1, s)
  | .closed p => (.ofSent (didClose p v.servers v.ambient).1, s)

/-- What is remembered after visits, and the log of them. -/
def tellAll (s : DocumentSync) (log : List Entry) : List (Visit σ) → DocumentSync × List Entry
  | [] => (s, log)
  | v :: rest => (s.tell v).2.tellAll (⟨v.notice, (s.tell v).1⟩ :: log) rest

/-- The log has no change that was not suppressed, or the latest of them is the one remembered. -/
def Remembers (s : DocumentSync) (log : List Entry) : Prop :=
  match s.last with
  | none => ∀ e ∈ log, e.change? = none
  | some last => ∃ after recorded before, log = after ++ recorded :: before ∧
      recorded.change? = some (last.path, last.content) ∧ ∀ e ∈ after, e.change? = none

theorem Remembers.of_suppresses {s : DocumentSync} {log : List Entry} (h : s.Remembers log)
    {p : Path} {content : String} {now : Nat} (hs : s.suppresses p content now = true) :
    ∃ after recorded before, log = after ++ recorded :: before ∧
      (∃ q, recorded.change? = some (q, content) ∧ (q == p) = true) ∧
      ∀ e ∈ after, e.change? = none := by
  rw [suppresses] at hs
  rw [Remembers] at h
  cases hlast : s.last with
  | none =>
    rw [hlast] at hs
    cases hs
  | some last =>
    rw [hlast] at hs h
    obtain ⟨after, recorded, before, hlog, hrecorded, hafter⟩ := h
    simp only [Bool.and_eq_true, decide_eq_true_eq] at hs
    obtain ⟨⟨_, hpath⟩, hcontent⟩ := hs
    rw [hcontent] at hrecorded
    exact ⟨after, recorded, before, hlog, ⟨last.path, hrecorded, hpath⟩, hafter⟩

theorem Remembers.cons {s : DocumentSync} {log : List Entry} (h : s.Remembers log) {e : Entry}
    (he : e.change? = none) : s.Remembers (e :: log) := by
  rw [Remembers] at h ⊢
  cases hlast : s.last with
  | none =>
    rw [hlast] at h
    exact List.forall_mem_cons.2 ⟨he, h⟩
  | some last =>
    rw [hlast] at h
    obtain ⟨after, recorded, before, hlog, hrecorded, hafter⟩ := h
    exact ⟨e :: after, recorded, before, by rw [hlog, List.cons_append], hrecorded,
      List.forall_mem_cons.2 ⟨he, hafter⟩⟩

theorem didChange_of_suppresses {s : DocumentSync} {p : Path} {content : String}
    {a : Ambient} (h : s.suppresses p content a.now = true) (version : Int) (r : Registry σ) :
    (s.didChange p version content r a).2.1 = s := by
  rw [didChange, if_pos h]

theorem last_didChange {s : DocumentSync} {p : Path} {content : String} {a : Ambient}
    (h : s.suppresses p content a.now = false) (version : Int) (r : Registry σ) :
    (s.didChange p version content r a).2.1.last = some ⟨p, content, a.now⟩ := by
  rw [didChange, if_neg (Bool.not_eq_true _ ▸ h)]

theorem change?_changed_ofSent (p : Path) (version : Int) (content : String) (sent : Bool) :
    Entry.change? ⟨.changed p version content, .ofSent sent⟩ = some (p, content) := by
  cases sent with
  | false => rfl
  | true => rfl

theorem Remembers.tell {s : DocumentSync} {log : List Entry} (h : s.Remembers log)
    (v : Visit σ) : (s.tell v).2.Remembers (⟨v.notice, (s.tell v).1⟩ :: log) := by
  obtain ⟨notice, servers, ambient⟩ := v
  cases notice with
  | opened p content => exact h.cons rfl
  | saved p content => exact h.cons rfl
  | closed p => exact h.cons rfl
  | changed p version content =>
    rw [DocumentSync.tell]
    dsimp only
    cases hs : s.suppresses p content ambient.now with
    | true =>
      rw [didChange_of_suppresses hs, if_pos rfl]
      exact h.cons rfl
    | false =>
      rw [Remembers, last_didChange hs, if_neg Bool.false_ne_true]
      exact ⟨[], _, log, rfl, change?_changed_ofSent p version content _,
        List.forall_mem_nil _⟩

theorem Remembers.tellAll {s : DocumentSync} {log : List Entry} (h : s.Remembers log)
    (visits : List (Visit σ)) :
    (s.tellAll log visits).1.Remembers (s.tellAll log visits).2 := by
  induction visits generalizing s log with
  | nil => exact h
  | cons v rest ih => exact ih (h.tell v)

/-- When a change is suppressed, its text is the one last delivered for the file exactly if the file
was last opened with it since the latest change that was not suppressed, or was not opened since and
that change was sent or repeated what was delivered before. -/
theorem delivered_eq_iff_of_suppresses {window : Duration} (visits : List (Visit σ)) {p : Path}
    {content : String} {now : Nat}
    (h : (tellAll ⟨window, none⟩ [] visits).1.suppresses p content now = true) :
    ∃ after recorded before,
      (tellAll ⟨window, none⟩ [] visits).2 = after ++ recorded :: before ∧
      (∃ q, recorded.change? = some (q, content) ∧ (q == p) = true) ∧
      (∀ e ∈ after, e.change? = none) ∧
      (delivered p (tellAll ⟨window, none⟩ [] visits).2 = some content ↔
        delivered p after = some content ∨
          delivered p after = none ∧
            (recorded.fate = .sent ∨ delivered p before = some content)) := by
  have hfresh : Remembers ⟨window, none⟩ [] := List.forall_mem_nil _
  have hremembers := hfresh.tellAll visits
  obtain ⟨after, recorded, before, hlog, hrecorded, hafter⟩ := hremembers.of_suppresses h
  refine ⟨after, recorded, before, hlog, hrecorded, hafter, ?_⟩
  obtain ⟨q, hchange, hq⟩ := hrecorded
  rw [hlog, delivered_append_cons, Entry.text?_of_change? hchange hq]
  cases delivered p after with
  | some text => simp
  | none =>
    by_cases hsent : recorded.fate = .sent
    · simp [hsent]
    · simp [hsent]

end

def lostChange : Visit Scripted where
  notice := .changed ⟨"/w/game/main.go"⟩ 2 "a"
  servers := { servers := fun language =>
    if language = .go then some { language, inbox := .ofCapacity 64, failingStarts := 1 }
    else none }
  ambient := {}

theorem delivered_eq_iff_after_lostChange :
    (tellAll ⟨.ofMillis 3600000, none⟩ [] [lostChange]).1.suppresses ⟨"/w/game/main.go"⟩ "a"
        1000000000 = true ∧
      ∃ after recorded before,
        (tellAll ⟨.ofMillis 3600000, none⟩ [] [lostChange]).2 = after ++ recorded :: before ∧
        (∃ q, recorded.change? = some (q, "a") ∧ (q == ⟨"/w/game/main.go"⟩) = true) ∧
        (∀ e ∈ after, e.change? = none) ∧
        (delivered ⟨"/w/game/main.go"⟩
            (tellAll ⟨.ofMillis 3600000, none⟩ [] [lostChange]).2 = some "a" ↔
          delivered ⟨"/w/game/main.go"⟩ after = some "a" ∨
            delivered ⟨"/w/game/main.go"⟩ after = none ∧
              (recorded.fate = .sent ∨ delivered ⟨"/w/game/main.go"⟩ before = some "a")) := by
  have hsuppressed : (tellAll ⟨.ofMillis 3600000, none⟩ [] [lostChange]).1.suppresses
      ⟨"/w/game/main.go"⟩ "a" 1000000000 = true := by decide +kernel
  exact ⟨hsuppressed, delivered_eq_iff_of_suppresses [lostChange] hsuppressed⟩

/-- The same change is suppressed a second later, although it was never delivered. -/
theorem suppresses_after_lostChange :
    (tellAll ⟨.ofMillis 3600000, none⟩ [] [lostChange]).1.suppresses ⟨"/w/game/main.go"⟩ "a"
        1000000000 = true ∧
      delivered ⟨"/w/game/main.go"⟩ (tellAll ⟨.ofMillis 3600000, none⟩ [] [lostChange]).2 ≠
        some "a" := by
  decide +kernel

end DocumentSync

end Workspace

end LanguageClient
