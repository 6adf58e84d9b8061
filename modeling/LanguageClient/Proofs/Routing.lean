import LanguageClient.Proofs.Announcing
import LanguageClient.Proofs.Recording
import LanguageClient.Proofs.Requesting

namespace LanguageClient.Workspace

open Document Server Wire

/-- A client in use: its documents, its completion, its servers and the time. -/
structure Session (σ : Type) where
  sync : DocumentSync
  completion : Completion
  registry : Registry σ
  ambient : Ambient

/-- What a client is asked to do next. The reply to a request is awaited in a turn of its own, since
other calls may come in between. -/
inductive Turn where
  | select (p : Path)
  | notice (n : Notice)
  | ask (request : CompletionRequest) (document : Snapshot)
  | hear (request : CompletionRequest) (language : Language) (document : Snapshot)
  | rest (nanos : Nat)

def Turn.path? : Turn → Option Path
  | .select p => some p
  | .notice n => some n.path
  | .ask request _ => some request.path
  | .hear request _ _ => some request.path
  | .rest _ => none

/-- The message for the server of a file that something happens to: it is not suppressed, and the
server is ready for it. -/
def DocumentSync.notification? {σ : Type} [Adapter σ] (s : DocumentSync) (n : Notice)
    (r : Registry σ) (a : Ambient) : Option (Language × Handover) :=
  if s.mutes n a.now then none
  else (r.readied? n.path a).map fun (language, server) =>
    (language, .of server (n.call (Adapter.languageId server n.path)).body)

/-- The message for the server of a file that is completed in: the server takes requests. -/
def Registry.inquiry? {σ : Type} [Adapter σ] (r : Registry σ) (request : CompletionRequest)
    (body : Bytes) : Option (Language × Handover) :=
  (r.addressee? request.path).map fun (language, server) =>
    (language, .of (Mailbox.emptied server) body)

namespace Session

section

variable {σ : Type} [Adapter σ]

def announced (s : Session σ) (n : Notice) : Bool := (s.sync.announce n s.registry s.ambient).1

def turn (s : Session σ) : Turn → Session σ
  | .select p => { s with registry := (s.registry.select p).2 }
  | .notice n =>
    let (_, sync, registry, ambient) := s.sync.announce n s.registry s.ambient
    { s with sync, registry, ambient }
  | .ask request document =>
    match s.completion.send request (request.call document).body s.registry with
    | (none, completion, registry) =>
      { s with completion := completion.drop request, registry }
    | (some _, completion, registry) => { s with completion, registry }
  | .hear request language document =>
    let (outcome, completion, registry, ambient) :=
      s.completion.awaitReply request language document s.registry s.ambient
    { s with
      completion := { completion with menu := completion.menu.settle request.id outcome }
      registry, ambient }
  | .rest nanos =>
    { s with registry := s.registry.pass nanos, ambient := s.ambient.pass nanos }

def run (s : Session σ) : List Turn → Session σ
  | [] => s
  | turn :: rest => (s.turn turn).run rest

/-- Carries a request out with nothing in between. -/
def complete (s : Session σ) (request : CompletionRequest) (document : Snapshot) : Session σ :=
  let (completion, registry, ambient) :=
    s.completion.settle request document s.registry s.ambient
  { s with completion, registry, ambient }

def message? (s : Session σ) : Turn → Option (Language × Handover)
  | .notice n => s.sync.notification? n s.registry s.ambient
  | .ask request document => s.registry.inquiry? request (request.call document).body
  | .select _ | .hear _ _ _ | .rest _ => none

/-- The messages that a run has for servers, in the order of its turns. -/
def messages (s : Session σ) : List Turn → List (Language × Handover)
  | [] => []
  | turn :: rest => (s.message? turn).toList ++ (s.turn turn).messages rest

end

def recorded {σ : Type} (s : Session σ) : Session (Recorded σ) :=
  { s with registry := s.registry.recorded }

def unrecorded {σ : Type} (s : Session (Recorded σ)) : Session σ :=
  { s with registry := s.registry.unrecorded }

theorem unrecorded_recorded {σ : Type} (s : Session σ) : s.recorded.unrecorded = s := by
  rw [recorded, unrecorded, Registry.unrecorded_recorded]

end Session

section

variable {σ : Type} [Adapter σ]

theorem Registry.addressee?_unrecorded (r : Registry (Recorded σ)) (p : Path) :
    r.unrecorded.addressee? p =
      (r.addressee? p).map (Prod.map id Recorded.server) := by
  rw [addressee?, addressee?, languageFor?_unrecorded]
  cases r.languageFor? p with
  | none => rfl
  | some language =>
    simp only [Option.bind_eq_bind, Option.bind_some, unrecorded]
    cases r.servers language with
    | none => rfl
    | some s =>
      simp only [Option.map_some, Option.bind_some]
      rw [apply_ite (Option.map (Prod.map id Recorded.server))]
      rfl

theorem DocumentSync.Prepares.unrecorded {p : Path} {r r' : Registry (Recorded σ)}
    {a a' : Ambient} {found : Option (Language × Recorded σ)} (h : Prepares p r a found r' a') :
    Prepares p r.unrecorded a (found.map (Prod.map id Recorded.server))
      r'.unrecorded a' := by
  cases h with
  | unknown hlanguage => exact .unknown (r.languageFor?_unrecorded p ▸ hlanguage)
  | ready hlanguage hserver hready =>
    exact .ready (r.languageFor?_unrecorded p ▸ hlanguage) (Registry.servers_unrecorded hserver)
      hready
  | rootless hlanguage hserver hready hroot =>
    exact .rootless (r.languageFor?_unrecorded p ▸ hlanguage) (Registry.servers_unrecorded hserver)
      hready hroot
  | started hlanguage hserver hready hroot hstart =>
    rw [Registry.putAfter_unrecorded]
    exact .started (r.languageFor?_unrecorded p ▸ hlanguage) (Registry.servers_unrecorded hserver)
      hready hroot (Recorded.server_of_start hstart).1
  | failed hlanguage hserver hready hroot hstart =>
    rw [Registry.putAfter_unrecorded]
    exact .failed (r.languageFor?_unrecorded p ▸ hlanguage) (Registry.servers_unrecorded hserver)
      hready hroot (Recorded.server_of_start hstart).1

theorem DocumentSync.Announces.unrecorded {s s' : DocumentSync} {n : Notice}
    {r r' : Registry (Recorded σ)} {a a' : Ambient} {told : Bool}
    (h : s.Announces n r a told s' r' a') :
    s.Announces n r.unrecorded a told s' r'.unrecorded a' := by
  cases h with
  | muted hmutes => exact .muted hmutes
  | lost hmutes hprepares => exact .lost hmutes hprepares.unrecorded
  | told hmutes hprepares hsend =>
    rw [Registry.put_unrecorded]
    exact .told hmutes hprepares.unrecorded (Recorded.server_of_send hsend).1

theorem Completion.Sends.unrecorded {c c' : Completion} {request : CompletionRequest}
    {body : Bytes} {r r' : Registry (Recorded σ)} {taken : Option Language}
    (h : c.Sends request body r taken c' r') :
    c.Sends request body r.unrecorded taken c' r'.unrecorded := by
  have haddressee' := r.addressee?_unrecorded request.path
  cases h with
  | unaddressed haddressee =>
    rw [haddressee] at haddressee'
    exact .unaddressed haddressee'
  | refused haddressee hsend =>
    rw [haddressee] at haddressee'
    rw [Registry.put_unrecorded]
    exact .refused haddressee' (Recorded.server_of_send hsend).1
  | sent haddressee hsend =>
    rw [haddressee] at haddressee'
    rw [Registry.put_unrecorded]
    exact .sent haddressee' (Recorded.server_of_send hsend).1

theorem Completion.awaitReply_unrecorded (c : Completion) (request : CompletionRequest)
    (language : Language) (document : Snapshot) (r : Registry (Recorded σ)) (a : Ambient) :
    ∃ outcome c' r' a', c.awaitReply request language document r a = (outcome, c', r', a') ∧
      c.awaitReply request language document r.unrecorded a =
        (outcome, c', r'.unrecorded, a') ∧
      ∀ asked, r'.handed asked = r.handed asked := by
  cases hserver : r.servers language with
  | none =>
    refine ⟨.failed, c, r, a, ?_, ?_, fun asked => rfl⟩
    · rw [awaitReply, hserver]
    · have hnone : r.unrecorded.servers language = none := congrArg (Option.map _) hserver
      rw [awaitReply, hnone]
  | some s =>
    rcases hwait : Mailbox.await (answer? request.id) c.budget s with ⟨awaited, nanos, after⟩
    obtain ⟨hbehind, hhanded⟩ := Recorded.server_of_await hwait
    refine ⟨_, _, _, _, awaitReply_eq document a hserver hwait, ?_,
      Registry.handed_putAfter_of_handed_eq hserver hhanded⟩
    rw [awaitReply_eq document a (Registry.servers_unrecorded hserver) hbehind,
      Registry.putAfter_unrecorded]

theorem Registry.readied?_unrecorded (r : Registry (Recorded σ)) (p : Path) (a : Ambient) :
    r.unrecorded.readied? p a = (r.readied? p a).map (Prod.map id Recorded.server) := by
  obtain ⟨found, r', a', hprepares⟩ := DocumentSync.exists_prepares p r a
  rw [hprepares.readied?_eq, hprepares.unrecorded.readied?_eq]

namespace Session

theorem message?_unrecorded (s : Session (Recorded σ)) (turn : Turn) :
    s.unrecorded.message? turn = s.message? turn := by
  cases turn with
  | select p => rfl
  | notice n =>
    rw [message?, message?, unrecorded]
    dsimp only
    rw [DocumentSync.notification?, Registry.readied?_unrecorded, Option.map_map]
    rfl
  | ask request document =>
    rw [message?, message?, unrecorded]
    dsimp only
    rw [Registry.inquiry?, Registry.addressee?_unrecorded, Option.map_map]
    rfl
  | hear request language document => rfl
  | rest nanos => rfl

theorem turn_unrecorded (s : Session (Recorded σ)) (turn : Turn) :
    (s.turn turn).unrecorded = s.unrecorded.turn turn := by
  cases turn with
  | select p =>
    rw [Session.turn, Session.turn, Registry.select, Registry.select, unrecorded, unrecorded]
    dsimp only
    rw [Registry.languageFor?_unrecorded]
    cases s.registry.languageFor? p with
    | none => rfl
    | some language => rfl
  | notice n =>
    obtain ⟨told, sync, r', a', hannounces⟩ :=
      DocumentSync.exists_announces s.sync n s.registry s.ambient
    rw [Session.turn, Session.turn, unrecorded, unrecorded]
    dsimp only
    rw [hannounces.announce_eq, hannounces.unrecorded.announce_eq]
  | ask request document =>
    obtain ⟨taken, c', r', hsends⟩ :=
      Completion.exists_sends s.completion request (request.call document).body s.registry
    rw [Session.turn, Session.turn, unrecorded, unrecorded]
    dsimp only
    rw [hsends.send_eq, hsends.unrecorded.send_eq]
    cases taken with
    | none => rfl
    | some language => rfl
  | hear request language document =>
    obtain ⟨outcome, c', r', a', hrecorded, hbehind, _⟩ :=
      s.completion.awaitReply_unrecorded request language document s.registry s.ambient
    rw [Session.turn, Session.turn, unrecorded, unrecorded]
    dsimp only
    rw [hrecorded, hbehind]
  | rest nanos =>
    rw [Session.turn, Session.turn, unrecorded, unrecorded]
    dsimp only
    rw [Registry.pass_unrecorded]

theorem run_unrecorded (s : Session (Recorded σ)) (turns : List Turn) :
    (s.run turns).unrecorded = s.unrecorded.run turns ∧
      s.unrecorded.messages turns = s.messages turns := by
  induction turns generalizing s with
  | nil => exact ⟨rfl, rfl⟩
  | cons turn rest ih =>
    obtain ⟨hrun, hmessages⟩ := ih (s.turn turn)
    rw [turn_unrecorded] at hrun hmessages
    rw [run, run, messages, messages, message?_unrecorded, hmessages]
    exact ⟨hrun, rfl⟩

end Session

theorem DocumentSync.Prepares.handed_eq {p : Path} {r r' : Registry (Recorded σ)} {a a' : Ambient}
    {found : Option (Language × Recorded σ)} (h : Prepares p r a found r' a')
    (asked : Language) : r'.handed asked = r.handed asked := by
  cases h with
  | unknown hlanguage => rfl
  | ready hlanguage hserver hready => rfl
  | rootless hlanguage hserver hready hroot => rfl
  | started hlanguage hserver hready hroot hstart =>
    exact Registry.handed_putAfter_of_handed_eq (r := { r with active := _, root := _ }) hserver
      (Recorded.server_of_start hstart).2 asked
  | failed hlanguage hserver hready hroot hstart =>
    exact Registry.handed_putAfter_of_handed_eq (r := { r with active := _, root := _ }) hserver
      (Recorded.server_of_start hstart).2 asked

theorem Registry.handed_put_of_addressee? {r : Registry (Recorded σ)} {p : Path}
    {language : Language} {s sent : Recorded σ} {body : Bytes} {result : Except Server.Fault Unit}
    (haddressee : r.addressee? p = some (language, s))
    (hsend : Adapter.send body (Mailbox.emptied s) = (result, sent)) (asked : Language) :
    (r.put language sent).handed asked =
      r.handed asked ++ addressedTo asked [(language, .of (Mailbox.emptied s) body)] := by
  obtain ⟨_, hserver, _⟩ := addressee?_eq_some_iff.1 haddressee
  have hemptied : r.handed language = (Mailbox.emptied s).handed :=
    (handed_of_servers hserver).trans rfl
  exact handed_put_of_send hemptied hsend asked

theorem Completion.Sends.handed_eq {c c' : Completion} {request : CompletionRequest}
    {body : Bytes} {r r' : Registry (Recorded σ)} {taken : Option Language}
    (h : c.Sends request body r taken c' r') (asked : Language) :
    r'.handed asked = r.handed asked ++ addressedTo asked (r.inquiry? request body).toList := by
  rw [Registry.inquiry?]
  cases h with
  | unaddressed haddressee =>
    rw [haddressee]
    exact (List.append_nil _).symm
  | refused haddressee hsend =>
    rw [haddressee]
    exact Registry.handed_put_of_addressee? haddressee hsend asked
  | sent haddressee hsend =>
    rw [haddressee]
    exact Registry.handed_put_of_addressee? haddressee hsend asked

theorem DocumentSync.Announces.handed_eq {s s' : DocumentSync} {n : Notice}
    {r r' : Registry (Recorded σ)} {a a' : Ambient} {told : Bool}
    (h : s.Announces n r a told s' r' a') (asked : Language) :
    r'.handed asked = r.handed asked ++ addressedTo asked (s.notification? n r a).toList := by
  rw [notification?]
  cases h with
  | muted hmutes =>
    rw [if_pos hmutes]
    exact (List.append_nil _).symm
  | lost hmutes hprepares =>
    rw [hmutes, if_neg Bool.false_ne_true, hprepares.readied?_eq]
    exact (hprepares.handed_eq asked).trans (List.append_nil _).symm
  | told hmutes hprepares hsend =>
    obtain ⟨_, hserver⟩ := hprepares.activeServer?_eq
    rw [hmutes, if_neg Bool.false_ne_true, hprepares.readied?_eq, ← hprepares.handed_eq asked]
    exact Registry.handed_put_of_send (Registry.handed_of_servers hserver) hsend asked

namespace Session

/-- A turn puts its message on the record of the server that it is for, and on no other. -/
theorem handed_turn (s : Session (Recorded σ)) (turn : Turn) (asked : Language) :
    (s.turn turn).registry.handed asked =
      s.registry.handed asked ++ addressedTo asked (s.message? turn).toList := by
  cases turn with
  | select p =>
    rw [Session.turn, Registry.select, message?, Option.toList_none]
    cases s.registry.languageFor? p with
    | none => exact (List.append_nil _).symm
    | some language => exact (List.append_nil _).symm
  | notice n =>
    obtain ⟨told, sync, r', a', hannounces⟩ :=
      DocumentSync.exists_announces s.sync n s.registry s.ambient
    rw [Session.turn, hannounces.announce_eq]
    exact hannounces.handed_eq asked
  | ask request document =>
    obtain ⟨taken, c', r', hsends⟩ :=
      Completion.exists_sends s.completion request (request.call document).body s.registry
    have hhanded := hsends.handed_eq asked
    rw [Session.turn, hsends.send_eq]
    cases taken with
    | none => exact hhanded
    | some language => exact hhanded
  | hear request language document =>
    obtain ⟨outcome, c', r', a', hrecorded, _, hhanded⟩ :=
      s.completion.awaitReply_unrecorded request language document s.registry s.ambient
    rw [Session.turn, hrecorded]
    exact (hhanded asked).trans (List.append_nil _).symm
  | rest nanos =>
    rw [Session.turn]
    exact (Registry.handed_pass s.registry nanos asked).trans (List.append_nil _).symm

theorem handed_run (s : Session (Recorded σ)) (turns : List Turn) (asked : Language) :
    (s.run turns).registry.handed asked =
      s.registry.handed asked ++ addressedTo asked (s.messages turns) := by
  induction turns generalizing s with
  | nil => exact (List.append_nil _).symm
  | cons turn rest ih =>
    rw [run, ih, handed_turn, messages, addressedTo_append, List.append_assoc]

theorem handed_run_recorded (s : Session σ) (turns : List Turn) (language : Language) :
    (s.recorded.run turns).registry.handed language = addressedTo language (s.messages turns) := by
  obtain ⟨_, hmessages⟩ := s.recorded.run_unrecorded turns
  rw [unrecorded_recorded] at hmessages
  rw [handed_run, recorded, Registry.handed_recorded, List.nil_append, hmessages]
  rfl

/-- A turn has a message for the server of a language: the server is found ready for a notice that
is not suppressed, or takes requests. -/
inductive Addresses (s : Session σ) : Turn → Language → Handover → Prop where
  | notice {n : Notice} {language : Language} {server : σ}
      (hmutes : s.sync.mutes n s.ambient.now = false)
      (hreadied : s.registry.readied? n.path s.ambient = some (language, server)) :
      s.Addresses (.notice n) language
        (.of server (n.call (Adapter.languageId server n.path)).body)
  | ask {request : CompletionRequest} {document : Snapshot} {language : Language} {server : σ}
      (haddressee : s.registry.addressee? request.path = some (language, server)) :
      s.Addresses (.ask request document) language
        (.of (Mailbox.emptied server) (request.call document).body)

variable {s : Session σ} {turn : Turn} {language : Language} {message : Handover}

theorem message?_eq_some_iff :
    s.message? turn = some (language, message) ↔ s.Addresses turn language message := by
  constructor
  · intro h
    cases turn with
    | select p => cases h
    | notice n =>
      rw [message?, DocumentSync.notification?, Option.ite_none_left_eq_some] at h
      obtain ⟨hmutes, hmap⟩ := h
      obtain ⟨⟨found, server⟩, hreadied, hmessage⟩ := Option.map_eq_some_iff.1 hmap
      cases hmessage
      exact .notice (Bool.not_eq_true _ ▸ hmutes) hreadied
    | ask request document =>
      rw [message?, Registry.inquiry?] at h
      obtain ⟨⟨found, server⟩, haddressee, hmessage⟩ := Option.map_eq_some_iff.1 h
      cases hmessage
      exact .ask haddressee
    | hear request language document => cases h
    | rest nanos => cases h
  · intro h
    cases h with
    | notice hmutes hreadied =>
      rw [message?, DocumentSync.notification?, hmutes, if_neg Bool.false_ne_true, hreadied]
      rfl
    | ask haddressee =>
      rw [message?, Registry.inquiry?, haddressee]
      rfl

theorem Addresses.path?_eq (h : s.Addresses turn language message) :
    ∃ p, turn.path? = some p ∧ Language.ofPath? p = some language := by
  cases h with
  | notice hmutes hreadied =>
    obtain ⟨_, _, hprepares⟩ := DocumentSync.exists_prepares_of_readied? hreadied
    exact ⟨_, rfl, (Registry.servers_of_languageFor? hprepares.languageFor?_eq).1⟩
  | ask haddressee =>
    obtain ⟨hlanguage, _⟩ := Registry.addressee?_eq_some_iff.1 haddressee
    exact ⟨_, rfl, (Registry.servers_of_languageFor? hlanguage).1⟩

theorem Addresses.ready_eq [LawfulAdapter σ] (hstarts : ReadyOnceStarted σ)
    (h : s.Addresses turn language message) : message.ready = true := by
  cases h with
  | notice hmutes hreadied =>
    obtain ⟨_, _, hprepares⟩ := DocumentSync.exists_prepares_of_readied? hreadied
    exact hprepares.isReady_eq hstarts
  | ask haddressee =>
    obtain ⟨_, _, hready, _⟩ := Registry.addressee?_eq_some_iff.1 haddressee
    exact (isReady_emptied _).trans hready

theorem ready_of_mem_messages [LawfulAdapter σ] (hstarts : ReadyOnceStarted σ) (s : Session σ)
    (turns : List Turn) : ∀ m ∈ s.messages turns, m.2.ready = true := by
  induction turns generalizing s with
  | nil => exact List.forall_mem_nil _
  | cons turn rest ih =>
    intro m hm
    rw [messages, List.mem_append, Option.mem_toList] at hm
    cases hm with
    | inl hmessage => exact (message?_eq_some_iff.1 hmessage).ready_eq hstarts
    | inr hrest => exact ih _ m hrest

theorem announced_eq (s : Session σ) (n : Notice) :
    s.announced n = (s.message? (.notice n)).any (·.2.accepted) := by
  obtain ⟨told, sync, r', a', hannounces⟩ :=
    DocumentSync.exists_announces s.sync n s.registry s.ambient
  rw [announced, hannounces.announce_eq, message?, DocumentSync.notification?]
  cases hannounces with
  | muted hmutes =>
    rw [if_pos hmutes]
    rfl
  | lost hmutes hprepares =>
    rw [hmutes, if_neg Bool.false_ne_true, hprepares.readied?_eq]
    rfl
  | told hmutes hprepares hsend =>
    rw [hmutes, if_neg Bool.false_ne_true, hprepares.readied?_eq]
    exact (congrArg (Except.isOk ·.1) hsend).symm

/-- A request that is carried out with nothing in between takes one turn, or two if it is sent. -/
theorem complete_eq (s : Session σ) (request : CompletionRequest) (document : Snapshot) :
    s.complete request document =
      match (s.completion.send request (request.call document).body s.registry).1 with
      | none => s.turn (.ask request document)
      | some language =>
        (s.turn (.ask request document)).turn (.hear request language document) := by
  obtain ⟨c', r', a', hcompletes⟩ :=
    Completion.exists_completes s.completion request document s.registry s.ambient
  rw [complete, hcompletes.settle_eq]
  cases hcompletes with
  | dropped hsends => rw [Session.turn, hsends.send_eq]
  | awaited hsends hserver hwait =>
    rw [Session.turn, hsends.send_eq]
    dsimp only
    rw [Session.turn, Completion.awaitReply_eq document _ hserver hwait]
    rfl

end Session

end

/-- What a client keeps to that talks to servers of this kind. -/
structure Routes (σ : Type) [Adapter σ] : Prop where
  /-- The servers on record are those that are run. -/
  unrecorded (s : Session σ) (turns : List Turn) :
    (s.recorded.run turns).unrecorded = s.run turns
  /-- A server is handed the messages for its language, in the order of the calls. -/
  handed (s : Session σ) (turns : List Turn) (language : Language) :
    (s.recorded.run turns).registry.handed language = addressedTo language (s.messages turns)
  message? {s : Session σ} {turn : Turn} {language : Language} {message : Handover} :
    s.message? turn = some (language, message) ↔ s.Addresses turn language message
  path?_eq {s : Session σ} {turn : Turn} {language : Language} {message : Handover}
    (h : s.Addresses turn language message) :
    ∃ p, turn.path? = some p ∧ Language.ofPath? p = some language
  ready (s : Session σ) (turns : List Turn) : ∀ m ∈ s.messages turns, m.2.ready = true
  /-- A notice counts as sent exactly if its server takes the message. -/
  announced (s : Session σ) (n : Notice) :
    s.announced n = (s.message? (.notice n)).any (·.2.accepted)
  complete (s : Session σ) (request : CompletionRequest) (document : Snapshot) :
    s.complete request document =
      match (s.completion.send request (request.call document).body s.registry).1 with
      | none => s.turn (.ask request document)
      | some language =>
        (s.turn (.ask request document)).turn (.hear request language document)
  completes (c : Completion) (request : CompletionRequest) (document : Snapshot)
    (r : Registry σ) (a : Ambient) :
    ∃ c' r' a', c.settle request document r a = (c', r', a') ∧
      c.Completes request document r a c' r' a'
  /-- It does so whatever server is active. -/
  settle_eq {c c' : Completion} {request : CompletionRequest} {document : Snapshot}
    {r r' : Registry σ} {a a' : Ambient} (h : c.Completes request document r a c' r' a')
    (active : Option Language) :
    c.settle request document { r with active } a = (c', { r' with active }, a')
  place_eq {c c' : Completion} {request : CompletionRequest} {document : Snapshot}
    {r r' : Registry σ} {a a' : Ambient} (h : c.Completes request document r a c' r' a') :
    r'.active = r.active ∧ r'.root = r.root
  attended {c c' : Completion} {request : CompletionRequest} {document : Snapshot}
    {r r' : Registry σ} {a a' : Ambient} (h : c.Completes request document r a c' r' a') :
    r.Attended r'
  /-- It leaves every server as ready as before, unless bodies or time change that. -/
  isReady_eq {c c' : Completion} {request : CompletionRequest} {document : Snapshot}
    {r r' : Registry σ} {a a' : Ambient} (h : c.Completes request document r a c' r' a')
    (hsteady : SteadyAdapter σ) (language : Language) : r'.isReady language = r.isReady language

/-- A client hands each server the messages for its own files, in the order of the calls, and only
while it is ready. Requests take no notice of which server is active and leave that as it is. -/
theorem routes_of_readyOnceStarted {σ : Type} [Adapter σ] [LawfulAdapter σ]
    (hstarts : ReadyOnceStarted σ) : Routes σ where
  unrecorded s turns := by
    rw [(s.recorded.run_unrecorded turns).1, s.unrecorded_recorded]
  handed := Session.handed_run_recorded
  message? := Session.message?_eq_some_iff
  path?_eq := Session.Addresses.path?_eq
  ready := Session.ready_of_mem_messages hstarts
  announced := Session.announced_eq
  complete := Session.complete_eq
  completes c request document r a := by
    obtain ⟨c', r', a', hcompletes⟩ := Completion.exists_completes c request document r a
    exact ⟨c', r', a', hcompletes.settle_eq, hcompletes⟩
  settle_eq h active := (h.withActive active).settle_eq
  place_eq := Completion.Completes.place_eq
  attended := Completion.Completes.attended
  isReady_eq h hsteady := h.attended.isReady_eq hsteady

theorem readyOnceStarted_scripted : ReadyOnceStarted Scripted where
  isReady_of_start {root server started a after} hstart := by
    change (if 0 < server.failingStarts then _ else _ : Except Server.Fault Unit × _ × _) = _
      at hstart
    split at hstart
    case isTrue => cases hstart
    case isFalse =>
      cases hstart
      rfl

/-- A client of two servers: one fails its first start, the other takes no bodies. -/
def bilingual : Session Scripted where
  sync := ⟨.ofMillis 1000, none⟩
  completion := defaultCompletion
  registry := { servers := fun language =>
    match language with
    | .go => some { language, inbox := .ofCapacity 8, failingStarts := 1 }
    | .python => some { language, inbox := .ofCapacity 8, ready := true, refusesBodies := true }
    | _ => none }
  ambient := {}

def mixedTurns : List Turn :=
  [.notice (.closed ⟨"/w/a.go"⟩), .notice (.closed ⟨"/w/a.go"⟩),
    .ask ⟨7, ⟨"/w/b.py"⟩, 0, 2⟩ ⟨"pr", 2, [0]⟩]

theorem routes_bilingual :
    ReadyOnceStarted Scripted ∧
      (∀ language, (bilingual.recorded.run mixedTurns).registry.handed language =
        addressedTo language (bilingual.messages mixedTurns)) ∧
      (∀ request document language,
        (bilingual.complete request document).registry.isReady language =
          bilingual.registry.isReady language) ∧
      (bilingual.messages mixedTurns).map (fun m => (m.1, m.2.ready, m.2.accepted)) =
        [(.go, true, true), (.python, true, false)] := by
  have hstarts := readyOnceStarted_scripted
  have hroutes := routes_of_readyOnceStarted hstarts
  refine ⟨hstarts, hroutes.handed bilingual mixedTurns, ?_, by decide +kernel⟩
  intro request document language
  obtain ⟨c', r', a', hsettle, hcompletes⟩ :=
    hroutes.completes bilingual.completion request document bilingual.registry bilingual.ambient
  rw [Session.complete, hsettle]
  exact hroutes.isReady_eq hcompletes steadyAdapter_scripted language

end LanguageClient.Workspace
