import LanguageClient.Proofs.Announcing
import Mathlib.Data.List.Chain

namespace LanguageClient.Workspace

open Server

/-- A change of a file, with the servers and the time that it meets, which may be any. -/
structure Change (σ : Type) where
  path : Path
  version : Int
  content : String
  servers : Registry σ
  ambient : Ambient

namespace Change

variable {σ : Type}

/-- When a change comes, in nanoseconds. -/
abbrev time (c : Change σ) : Nat := c.ambient.now

/-- A change that brings the text of an earlier one once more, for the same file. -/
def Repeats (c earlier : Change σ) : Prop :=
  (earlier.path == c.path) = true ∧ earlier.content = c.content

theorem repeats_self (c : Change σ) : c.Repeats c := ⟨decide_eq_true rfl, rfl⟩

variable [Adapter σ]

def body (c : Change σ) : Bytes := (DocumentSync.changeCall c.path c.version c.content).body

/-- A change whose file has a server that is ready and takes the notification. -/
def Served (c : Change σ) : Prop :=
  ∃ language server, c.servers.languageFor? c.path = some language ∧
    c.servers.servers language = some server ∧ Adapter.isReady server = true ∧
    (Adapter.send c.body server).1.isOk = true

end Change

/-- A change, whether it was sent, and the servers after that. -/
structure Told (σ : Type) where
  change : Change σ
  sent : Bool
  servers : Registry σ

/-- The changes of a log that were sent, the newest first as in the log. -/
def sentOf {σ : Type} (log : List (Told σ)) : List (Change σ) :=
  (log.filter Told.sent).map Told.change

namespace Told

variable {σ : Type} {e : Told σ} {log : List (Told σ)}

theorem sentOf_cons_of_sent (h : e.sent = true) : sentOf (e :: log) = e.change :: sentOf log := by
  rw [sentOf, List.filter_cons_of_pos h]
  rfl

theorem sentOf_cons_of_not_sent (h : e.sent = false) : sentOf (e :: log) = sentOf log := by
  rw [sentOf, List.filter_cons_of_neg (Bool.eq_false_iff.1 h)]
  rfl

theorem time_le_of_head?_sentOf {time : Nat} (h : ∀ e ∈ log, e.change.time ≤ time)
    {last : Change σ} (hlast : (sentOf log).head? = some last) : last.time ≤ time := by
  obtain ⟨e, he, rfl⟩ := List.mem_map.1 (List.mem_of_head? hlast)
  exact h e (List.mem_filter.1 he).1

variable [Adapter σ]

/-- A sent change was handed to the server of its file, and any other to none. -/
def Hands (e : Told σ) : Prop :=
  if e.sent then
    ∃ language server, e.change.servers.languageFor? e.change.path = some language ∧
      e.change.servers.servers language = some server ∧
      e.servers = { e.change.servers with active := some language }.put language
        (Adapter.send e.change.body server).2
  else e.servers = e.change.servers

end Told

/-- A log of changes, the newest first, in which repetitions keep a window and nothing else is held
back. -/
structure Debounced {σ : Type} [Adapter σ] (window : Duration) (log : List (Told σ)) : Prop where
  /-- Two that are sent one after the other and bring the same text are a window apart. -/
  apart : (sentOf log).IsChain fun later earlier =>
    later.Repeats earlier → earlier.time + window.toNanos ≤ later.time
  suppressed {e : Told σ} {before : List (Told σ)} (h : e :: before <:+ log)
    (hsent : e.sent = false) : ∃ last, (sentOf before).head? = some last ∧
      e.change.Repeats last ∧ last.time ≤ e.change.time ∧
      e.change.time < last.time + window.toNanos
  latest {e : Told σ} {before : List (Told σ)} (h : e :: before <:+ log) :
    ∃ last, (sentOf (e :: before)).head? = some last ∧ e.change.Repeats last
  hands {e : Told σ} (h : e ∈ log) : e.Hands

namespace Debounced

variable {σ : Type} [Adapter σ] {window : Duration} {log : List (Told σ)} {e : Told σ}

theorem nil : Debounced window ([] : List (Told σ)) where
  apart := .nil
  suppressed h := by simp at h
  latest h := by simp at h
  hands h := by simp at h

theorem cons (h : Debounced window log) (hhands : e.Hands)
    (hapart : (sentOf (e :: log)).IsChain fun later earlier =>
      later.Repeats earlier → earlier.time + window.toNanos ≤ later.time)
    (hsuppressed : e.sent = false → ∃ last, (sentOf log).head? = some last ∧
      e.change.Repeats last ∧ last.time ≤ e.change.time ∧
      e.change.time < last.time + window.toNanos)
    (hlatest : ∃ last, (sentOf (e :: log)).head? = some last ∧ e.change.Repeats last) :
    Debounced window (e :: log) where
  apart := hapart
  suppressed hsuffix hsent := by
    rcases List.suffix_cons_iff.1 hsuffix with hnewest | hsuffix
    · cases hnewest
      exact hsuppressed hsent
    · exact h.suppressed hsuffix hsent
  latest hsuffix := by
    rcases List.suffix_cons_iff.1 hsuffix with hnewest | hsuffix
    · cases hnewest
      exact hlatest
    · exact h.latest hsuffix
  hands hmem := by
    rcases List.mem_cons.1 hmem with rfl | hmem
    · exact hhands
    · exact h.hands hmem

end Debounced

namespace DocumentSync

section

variable {σ : Type} [Adapter σ]

/-- Tells of a change, and says what became of it. -/
def tellChange (s : DocumentSync) (c : Change σ) : Told σ × DocumentSync :=
  let (sent, s, servers, _) := s.didChange c.path c.version c.content c.servers c.ambient
  (⟨c, sent, servers⟩, s)

/-- What is remembered after changes that follow each other, and the log of them. -/
def changeAll (s : DocumentSync) (log : List (Told σ)) :
    List (Change σ) → DocumentSync × List (Told σ)
  | [] => (s, log)
  | c :: rest => (s.tellChange c).2.changeAll ((s.tellChange c).1 :: log) rest

theorem changes_changeAll (s : DocumentSync) (log : List (Told σ)) (changes : List (Change σ)) :
    ((s.changeAll log changes).2.map Told.change).reverse =
      (log.map Told.change).reverse ++ changes := by
  induction changes generalizing s log with
  | nil => simp [changeAll]
  | cons c rest ih =>
    rw [changeAll, ih, List.map_cons, List.reverse_cons, List.append_assoc]
    rfl

theorem tellChange_of_suppresses {s : DocumentSync} {c : Change σ}
    (h : s.suppresses c.path c.content c.time = true) :
    s.tellChange c = (⟨c, false, c.servers⟩, s) := by
  rw [tellChange, didChange, if_pos h]

/-- A change that is not suppressed is handed to the server of its file, and remembered. -/
theorem tellChange_of_served {s : DocumentSync} {c : Change σ} (hserved : c.Served)
    (h : s.suppresses c.path c.content c.time = false) :
    ∃ servers, s.tellChange c =
      (⟨c, true, servers⟩, { s with last := some ⟨c.path, c.content, c.time⟩ }) ∧
      Told.Hands ⟨c, true, servers⟩ := by
  obtain ⟨language, server, hlanguage, hserver, hready, htakes⟩ := hserved
  let active : Registry σ := { c.servers with active := some language }
  let n : Notice := .changed c.path c.version c.content
  rcases hsend : Adapter.send c.body server with ⟨result, sent⟩
  rw [hsend] at htakes
  have hannounces : s.Announces n c.servers c.ambient result.isOk (s.remember n c.time)
      (active.put language sent) c.ambient :=
    .told h (.ready hlanguage hserver hready) hsend
  have hdidChange : s.didChange c.path c.version c.content c.servers c.ambient = _ :=
    hannounces.announce_eq
  refine ⟨active.put language sent, ?_, language, server, hlanguage, hserver, ?_⟩
  · rw [tellChange, hdidChange, htakes]
    rfl
  · rw [hsend]

/-- The change that was sent last is the one that is remembered. -/
def Recalls (s : DocumentSync) (log : List (Told σ)) : Prop :=
  s.last = (sentOf log).head?.map fun c => ⟨c.path, c.content, c.time⟩

omit [Adapter σ] in
theorem suppresses_iff_of_recalls {s : DocumentSync} {log : List (Told σ)} (h : s.Recalls log)
    (c : Change σ) :
    s.suppresses c.path c.content c.time = true ↔
      ∃ last, (sentOf log).head? = some last ∧ c.Repeats last ∧
        c.time - last.time < s.window.toNanos := by
  rw [suppresses, h]
  cases (sentOf log).head? with
  | none => simp
  | some last => simp [Change.Repeats, and_comm, and_assoc]

theorem window_tellChange (s : DocumentSync) (c : Change σ) :
    (s.tellChange c).2.window = s.window := by
  change (s.didChange c.path c.version c.content c.servers c.ambient).2.1.window = s.window
  rw [didChange]
  split
  case isTrue => rfl
  case isFalse => rfl

theorem recalls_tellChange {s : DocumentSync} {log : List (Told σ)} (h : s.Recalls log)
    {c : Change σ} (hserved : c.Served) :
    (s.tellChange c).2.Recalls ((s.tellChange c).1 :: log) := by
  cases hsuppresses : s.suppresses c.path c.content c.time with
  | true =>
    rw [tellChange_of_suppresses hsuppresses, Recalls, Told.sentOf_cons_of_not_sent rfl]
    exact h
  | false =>
    obtain ⟨servers, htell, _⟩ := tellChange_of_served hserved hsuppresses
    rw [htell, Recalls, Told.sentOf_cons_of_sent rfl]
    rfl

theorem debounced_tellChange {s : DocumentSync} {log : List (Told σ)}
    (h : Debounced s.window log) (hrecalls : s.Recalls log) {c : Change σ} (hserved : c.Served)
    (htimes : ∀ e ∈ log, e.change.time ≤ c.time) :
    Debounced s.window ((s.tellChange c).1 :: log) := by
  have hsuppresses_iff := suppresses_iff_of_recalls hrecalls c
  cases hsuppresses : s.suppresses c.path c.content c.time with
  | true =>
    rw [tellChange_of_suppresses hsuppresses]
    obtain ⟨last, hlast, hrepeats, hsoon⟩ := hsuppresses_iff.1 hsuppresses
    have hle := Told.time_le_of_head?_sentOf htimes hlast
    have hlt : c.time < last.time + s.window.toNanos := by omega
    refine h.cons rfl ?_ ?_ ?_
    · rw [Told.sentOf_cons_of_not_sent rfl]
      exact h.apart
    · intro _
      exact ⟨last, hlast, hrepeats, hle, hlt⟩
    · rw [Told.sentOf_cons_of_not_sent rfl]
      exact ⟨last, hlast, hrepeats⟩
  | false =>
    obtain ⟨servers, htell, hhands⟩ := tellChange_of_served hserved hsuppresses
    rw [htell]
    refine h.cons hhands ?_ ?_ ?_
    · rw [Told.sentOf_cons_of_sent rfl, List.isChain_cons]
      refine ⟨?_, h.apart⟩
      intro last hlast hrepeats
      have hle := Told.time_le_of_head?_sentOf htimes hlast
      have hlate : s.window.toNanos ≤ c.time - last.time := by
        rw [← Nat.not_lt]
        intro hsoon
        rw [hsuppresses_iff.2 ⟨last, hlast, hrepeats, hsoon⟩] at hsuppresses
        cases hsuppresses
      exact Nat.add_le_of_le_sub' hle hlate
    · intro hsent
      cases hsent
    · rw [Told.sentOf_cons_of_sent rfl]
      exact ⟨c, rfl, c.repeats_self⟩

theorem debounced_changeAll {s : DocumentSync} {log : List (Told σ)}
    (h : Debounced s.window log) (hrecalls : s.Recalls log) {changes : List (Change σ)}
    (hserved : ∀ c ∈ changes, c.Served)
    (htimes : changes.Pairwise fun earlier later => earlier.time ≤ later.time)
    (hlater : ∀ c ∈ changes, ∀ e ∈ log, e.change.time ≤ c.time) :
    Debounced s.window (s.changeAll log changes).2 := by
  induction changes generalizing s log with
  | nil => exact h
  | cons c rest ih =>
    obtain ⟨hfirst, hrest⟩ := List.forall_mem_cons.1 hserved
    obtain ⟨hbefore, htimes⟩ := List.pairwise_cons.1 htimes
    obtain ⟨hnow, hafter⟩ := List.forall_mem_cons.1 hlater
    have hwindow := window_tellChange s c
    rw [changeAll, ← hwindow]
    refine ih ?_ (recalls_tellChange hrecalls hfirst) hrest htimes ?_
    · rw [hwindow]
      exact debounced_tellChange h hrecalls hfirst hnow
    · intro later hmem
      refine List.forall_mem_cons.2 ⟨?_, hafter later hmem⟩
      exact hbefore later hmem

/-- Whatever files change and whatever their texts, if no change comes before an earlier one and
every server is ready and takes what it is handed, repetitions keep the window and nothing else is
held back. -/
theorem debounced_run (window : Duration) {changes : List (Change σ)}
    (hserved : ∀ c ∈ changes, c.Served)
    (htimes : changes.Pairwise fun earlier later => earlier.time ≤ later.time) :
    let log := (changeAll ⟨window, none⟩ [] changes).2
    (log.map Told.change).reverse = changes ∧ Debounced window log := by
  intro log
  refine ⟨changes_changeAll _ [] changes, ?_⟩
  have hnothing : ∀ c ∈ changes, ∀ e ∈ ([] : List (Told σ)), e.change.time ≤ c.time :=
    fun c _ => List.forall_mem_nil _
  have hrecalls : Recalls ⟨window, none⟩ ([] : List (Told σ)) := rfl
  exact debounced_changeAll .nil hrecalls hserved htimes hnothing

end

structure Obliging where
  language : Language
  inbox : Wire.Inbox := .ofCapacity 8

instance : Adapter Obliging where
  language := Obliging.language
  start _ s a := (.ok (), s, a)
  isReady _ := true
  send _ s := (.ok (), s)
  offersInbox _ := true
  inbox := Obliging.inbox
  setInbox inbox s := { s with inbox }
  due _ := none
  pass _ s := s
  languageId s p := Server.languageId s.language p
  stop s a := (s, a)

/-- A change that a client tells such a server of at a time, in milliseconds. -/
def changeAt (millis : Nat) (path : Path) (content : String) : Change Obliging where
  path := path
  version := 2
  content := content
  servers := { servers := fun language => some { language } }
  ambient := { now := millis * 1000000 }

theorem served_changeAt {path : Path} {language : Language}
    (h : Language.ofPath? path = some language) (millis : Nat) (content : String) :
    (changeAt millis path content).Served :=
  ⟨language, { language }, Option.filter_eq_some_iff.2 ⟨h, rfl⟩, rfl, rfl, rfl⟩

/-- Two files that take turns, and two spellings of the path of one. -/
def turnsOfTwoFiles : List (Change Obliging) :=
  [changeAt 0 "/w/a.go" "x", changeAt 600 "/w//a.go" "x", changeAt 700 "/w/b.go" "x",
    changeAt 800 "/w/a.go" "x", changeAt 1800 "/w/a.go" "x"]

theorem debounced_turnsOfTwoFiles :
    (∀ c ∈ turnsOfTwoFiles, c.Served) ∧
      (turnsOfTwoFiles.Pairwise fun earlier later => earlier.time ≤ later.time) ∧
      Debounced (.ofMillis 1000) (changeAll ⟨.ofMillis 1000, none⟩ [] turnsOfTwoFiles).2 ∧
      (changeAll ⟨.ofMillis 1000, none⟩ [] turnsOfTwoFiles).2.map Told.sent =
        [true, true, true, false, true] := by
  have hserved : ∀ c ∈ turnsOfTwoFiles, c.Served := by
    simp only [turnsOfTwoFiles, List.forall_mem_cons]
    refine ⟨?_, ?_, ?_, ?_, ?_, List.forall_mem_nil _⟩ <;>
      exact served_changeAt (by decide +kernel : _ = some Language.go) _ _
  have htimes : turnsOfTwoFiles.Pairwise fun earlier later => earlier.time ≤ later.time := by
    decide +kernel
  exact ⟨hserved, htimes, (debounced_run _ hserved htimes).2, by decide +kernel⟩

end DocumentSync

end LanguageClient.Workspace
