import LanguageClient.Proofs.Calls
import LanguageClient.Proofs.Framing
import LanguageClient.Proofs.Waiting
import LanguageClient.Server.Handshake

namespace LanguageClient

namespace Wire.Inbox

theorem answerIn_eq_none_iff {α : Type} {answer? : Bytes → Option α} {frames : List Bytes} :
    answerIn answer? frames = none ↔ ∀ frame ∈ frames, answer? frame = none := by
  rw [← Option.map_eq_none_iff, answerIn_map_fst, List.findSome?_eq_none_iff]

theorem answerIn_append_cons {α : Type} {answer? : Bytes → Option α} {before left : List Bytes}
    {frame : Bytes} {answer : α} (hbefore : ∀ other ∈ before, answer? other = none)
    (hframe : answer? frame = some answer) :
    answerIn answer? (before ++ frame :: left) = some (answer, left) := by
  induction before with
  | nil => rw [List.nil_append, answerIn, hframe]
  | cons first before ih =>
    obtain ⟨hfirst, hrest⟩ := List.forall_mem_cons.1 hbefore
    rw [List.cons_append, answerIn, hfirst]
    exact ih hrest

theorem exists_split_of_answerIn {α : Type} {answer? : Bytes → Option α}
    {frames left : List Bytes} {answer : α} (h : answerIn answer? frames = some (answer, left)) :
    ∃ before frame, frames = before ++ frame :: left ∧
      (∀ other ∈ before, answer? other = none) ∧ answer? frame = some answer := by
  induction frames with
  | nil => cases h
  | cons first rest ih =>
    rw [answerIn] at h
    cases hfirst : answer? first with
    | some found =>
      rw [hfirst] at h
      cases h
      exact ⟨[], first, rfl, List.forall_mem_nil _, hfirst⟩
    | none =>
      rw [hfirst] at h
      obtain ⟨before, frame, rfl, hbefore, hframe⟩ := ih h
      exact ⟨first :: before, frame, rfl, List.forall_mem_cons.2 ⟨hfirst, hbefore⟩, hframe⟩

end Wire.Inbox

namespace Server

open Wire

/-- A frame is a response to the introduction with an error or a result. -/
structure Decides (frame : Bytes) (r : Response) : Prop where
  message : Message.ofBytes? frame = some (.response r)
  id : r.id = some introductionId
  answers : r.error.isSome ∨ r.result.isSome

/-- How a handshake ends by the frames in the inbox, and which of them it leaves there. -/
inductive Ends (inbox : Inbox) (attempts : Nat) : Except Fault Unit → List Bytes → Prop where
  | refused {before left : List Bytes} {frame : Bytes} {r : Response} {fault : ServerFault}
      (hs : inbox.frames = before ++ frame :: left)
      (hb : ∀ other ∈ before, ∀ r, ¬ Decides other r) (hd : Decides frame r)
      (he : r.error = some fault) :
      Ends inbox attempts (.error (.refused fault.code fault.message)) left
  | accepted {before left : List Bytes} {frame : Bytes} {r : Response}
      (hs : inbox.frames = before ++ frame :: left)
      (hb : ∀ other ∈ before, ∀ r, ¬ Decides other r) (hd : Decides frame r)
      (he : r.error = none) : Ends inbox attempts (.ok ()) left
  | exited (hn : ∀ frame ∈ inbox.frames, ∀ r, ¬ Decides frame r) (hc : inbox.closed = true) :
      Ends inbox attempts (.error .processExited) []
  | timedOut (hn : ∀ frame ∈ inbox.frames, ∀ r, ¬ Decides frame r) (hc : inbox.closed = false) :
      Ends inbox attempts (.error (.handshakeTimeout attempts)) []

theorem Decides.verdict?_eq {frame : Bytes} {r : Response} (h : Decides frame r) :
    verdict? frame = some (match r.error with | some fault => .error fault | none => .ok ()) := by
  have hanswers := h.answers
  rw [verdict?, h.message]
  dsimp only
  rw [if_pos h.id]
  cases he : r.error with
  | some fault => rfl
  | none =>
    cases hresult : r.result with
    | some result => rfl
    | none => simp [he, hresult] at hanswers

theorem exists_decides {frame : Bytes} {verdict : Except ServerFault Unit}
    (h : verdict? frame = some verdict) : ∃ r, Decides frame r := by
  rw [verdict?] at h
  split at h
  · rename_i r hmessage
    split at h
    · rename_i hid
      refine ⟨r, hmessage, hid, ?_⟩
      split at h
      · rename_i he
        simp [he]
      · rename_i he hresult
        simp [hresult]
      · cases h
    · cases h
  · cases h

theorem verdict?_eq_none_iff {frame : Bytes} :
    verdict? frame = none ↔ ∀ r, ¬ Decides frame r := by
  constructor
  · intro hnone r hd
    rw [hd.verdict?_eq] at hnone
    cases hnone
  · intro h
    cases hverdict : verdict? frame with
    | none => rfl
    | some verdict =>
      obtain ⟨r, hd⟩ := exists_decides hverdict
      exact absurd hd (h r)

/-- The result of a handshake, and the frames that it leaves. -/
def ending (inbox : Inbox) (attempts : Nat) : Except Fault Unit × List Bytes :=
  match Inbox.answerIn verdict? inbox.frames with
  | some (.error fault, left) => (.error (.refused fault.code fault.message), left)
  | some (.ok (), left) => (.ok (), left)
  | none => (.error (if inbox.closed then .processExited else .handshakeTimeout attempts), [])

theorem ends_ending (inbox : Inbox) (attempts : Nat) :
    Ends inbox attempts (ending inbox attempts).1 (ending inbox attempts).2 := by
  rw [ending]
  cases hanswer : Inbox.answerIn verdict? inbox.frames with
  | none =>
    have hn : ∀ frame ∈ inbox.frames, ∀ r, ¬ Decides frame r := fun frame hframe =>
      verdict?_eq_none_iff.1 (Inbox.answerIn_eq_none_iff.1 hanswer frame hframe)
    cases hc : inbox.closed with
    | true => exact .exited hn hc
    | false => exact .timedOut hn hc
  | some found =>
    obtain ⟨verdict, left⟩ := found
    obtain ⟨before, frame, hs, hbefore, hverdict⟩ := Inbox.exists_split_of_answerIn hanswer
    have hb : ∀ other ∈ before, ∀ r, ¬ Decides other r := fun other hother =>
      verdict?_eq_none_iff.1 (hbefore other hother)
    obtain ⟨r, hd⟩ := exists_decides hverdict
    rw [hd.verdict?_eq] at hverdict
    cases he : r.error with
    | some fault =>
      rw [he] at hverdict
      cases hverdict
      exact .refused hs hb hd he
    | none =>
      rw [he] at hverdict
      cases hverdict
      exact .accepted hs hb hd he

theorem Ends.eq_ending {inbox : Inbox} {attempts : Nat} {result : Except Fault Unit}
    {left : List Bytes} (h : Ends inbox attempts result left) :
    ending inbox attempts = (result, left) := by
  rw [ending]
  cases h with
  | refused hs hb hd he =>
    have hnone := fun other hother => verdict?_eq_none_iff.2 (hb other hother)
    rw [hs, Inbox.answerIn_append_cons hnone hd.verdict?_eq, he]
  | accepted hs hb hd he =>
    have hnone := fun other hother => verdict?_eq_none_iff.2 (hb other hother)
    rw [hs, Inbox.answerIn_append_cons hnone hd.verdict?_eq, he]
  | exited hn hc =>
    have hanswer := Inbox.answerIn_eq_none_iff.2 fun frame hframe =>
      verdict?_eq_none_iff.2 (hn frame hframe)
    rw [hanswer, hc]
    rfl
  | timedOut hn hc =>
    have hanswer := Inbox.answerIn_eq_none_iff.2 fun frame hframe =>
      verdict?_eq_none_iff.2 (hn frame hframe)
    rw [hanswer, hc]
    rfl

/-- The calls that a handshake with this result has sent. -/
def handshakeCalls (process : Nat) (workspace : Option Path) : Except Fault Unit → List Call
  | .ok () => [introduction process workspace, confirmation]
  | .error _ => [introduction process workspace]

theorem await_link {α : Type} (answer? : Bytes → Option α) {budget : PollBudget}
    (hb : budget.total.isZero = false) (sink : Sink) (inbox : Inbox) :
    ∃ nanos, Mailbox.await answer? budget (sink, inbox) =
      match Inbox.answerIn answer? inbox.frames with
      | some (answer, left) => (.found answer, nanos, (sink, { inbox with frames := left }))
      | none =>
        (if inbox.closed then .closed else .timedOut, nanos, (sink, { inbox with frames := [] })) := by
  have hbox : Mailbox.inbox (sink, inbox) = inbox := rfl
  have hset : ∀ box, Mailbox.setInbox box (sink, inbox) = (sink, box) := fun _ => rfl
  have hdue : ∀ link : Sink × Inbox, Mailbox.due link = none := fun _ => rfl
  rw [Mailbox.await, hb, if_neg Bool.false_ne_true, Mailbox.awaitWithin, hbox, Inbox.firstAnswer]
  cases Inbox.answerIn answer? inbox.frames with
  | some found => exact ⟨0, rfl⟩
  | none =>
    simp only [Option.map_none, hset, hdue]
    by_cases hclosed : inbox.closed
    · rw [if_pos hclosed, if_pos hclosed]
      exact ⟨0, rfl⟩
    · rw [if_neg hclosed, if_neg hclosed]
      exact ⟨budget.total.toNanos, rfl⟩

theorem Sink.Takes.write_eq {sink : Sink} {bytes body : Bytes} (inbox : Inbox)
    (h : sink.Takes bytes (sink.writeFrame body)) :
    Link.write body (sink, inbox) = (.ok (), ((sink.writeFrame body).2, inbox)) :=
  Prod.ext h.result rfl

theorem handshake_eq {sink : Sink} (hw : sink.Reliable) (inbox : Inbox) (process : Nat)
    (workspace : Option Path) {budget : PollBudget} (hb : budget.total.isZero = false) :
    let ended := ending inbox budget.attempts.toNat
    ∃ nanos after,
      handshake process workspace budget (sink, inbox) =
        (ended.1, nanos, (after, { inbox with frames := ended.2 })) ∧
      after.written = sink.written ++
        (handshakeCalls process workspace ended.1).flatMap fun call => Frame.encode call.body := by
  intro ended
  have hintroduced := hw.writeFrame (introduction process workspace).body
  rw [handshake, writeThen_of_ok (Sink.Takes.write_eq inbox hintroduced)]
  obtain ⟨-, hwritten, hreliable⟩ := hintroduced
  generalize (sink.writeFrame (introduction process workspace).body).2 = greeted at *
  obtain ⟨nanos, hawait⟩ := await_link verdict? hb greeted inbox
  have hconfirmed := hreliable.writeFrame confirmation.body
  have hsent : ∀ fault, greeted.written = sink.written ++
      (handshakeCalls process workspace (.error fault)).flatMap fun call =>
        Frame.encode call.body := by
    intro fault
    rw [hwritten, handshakeCalls, List.flatMap_singleton]
  have hended : ended = ending inbox budget.attempts.toNat := rfl
  rw [hawait]
  rw [ending] at hended
  cases hanswer : Inbox.answerIn verdict? inbox.frames with
  | none =>
    rw [hanswer] at hended
    by_cases hclosed : inbox.closed
    · rw [if_pos hclosed] at hended
      rw [hended, if_pos hclosed]
      exact ⟨nanos, greeted, rfl, hsent _⟩
    · rw [if_neg hclosed] at hended
      rw [hended, if_neg hclosed]
      exact ⟨nanos, greeted, rfl, hsent _⟩
  | some found =>
    obtain ⟨verdict, left⟩ := found
    rw [hanswer] at hended
    cases verdict with
    | error fault =>
      rw [hended]
      exact ⟨nanos, greeted, rfl, hsent _⟩
    | ok accepted =>
      rw [hended]
      dsimp only
      rw [conclude, writeThen_of_ok (Sink.Takes.write_eq _ hconfirmed)]
      refine ⟨nanos, _, rfl, ?_⟩
      rw [hconfirmed.written, hwritten, List.append_assoc]
      rfl

theorem fits_capabilities : capabilities.fits 125 = true := by decide +kernel

theorem fits_introductionParams (process : UInt32) {uri folders : Json}
    (huri : uri.fits 125 = true) (hfolders : folders.fits 125 = true) :
    (Json.obj [("capabilities", capabilities), ("positionEncoding", .str "utf-8"),
      ("processId", .int process.toNat), ("rootUri", uri),
      ("workspaceFolders", folders)]).fits 126 = true := by
  have hword : (process.toNat : Int) < 18446744073709551616 := by
    have hlt := process.toNat_lt
    omega
  have hcapabilities := fits_capabilities
  generalize capabilities = c at *
  simp [Json.fits, Json.fitsMembers, hcapabilities, hword, huri, hfolders]

theorem fits_introduction (process : UInt32) (workspace : Option Path) :
    (introduction process.toNat workspace).fits = true := by
  have hid : (introduction process.toNat workspace).id = some 1 := rfl
  obtain ⟨params, hparams, hfits⟩ : ∃ params,
      (introduction process.toNat workspace).params = some params ∧ params.fits 126 = true := by
    cases workspace with
    | none =>
      have huri : Json.null.fits 125 = true := rfl
      exact ⟨_, rfl, fits_introductionParams process huri huri⟩
    | some root =>
      have huri : (Json.str (Uri.ofPath root)).fits 125 = true := rfl
      have hfolders : (Json.arr [.obj [("name", .str (workspaceName root)),
          ("uri", .str (Uri.ofPath root))]]).fits 125 = true := rfl
      exact ⟨_, rfl, fits_introductionParams process huri hfolders⟩
  rw [Call.fits, hid, hparams, Option.all_some, Option.all_some, hfits]
  decide

theorem fits_confirmation : confirmation.fits = true := by decide +kernel

theorem fits_of_mem_handshakeCalls {process : UInt32} {workspace : Option Path}
    {result : Except Fault Unit} {call : Call}
    (h : call ∈ handshakeCalls process.toNat workspace result) : call.fits = true := by
  cases result with
  | error fault =>
    rw [handshakeCalls, List.mem_singleton] at h
    exact h ▸ fits_introduction process workspace
  | ok accepted =>
    rw [handshakeCalls] at h
    rcases List.mem_cons.1 h with rfl | h
    · exact fits_introduction process workspace
    · exact List.mem_singleton.1 h ▸ fits_confirmation

/-- What is written between two states of a pipe are calls as frames, whose bodies read back as the
calls, and a reader who reads the frames gets these bodies. -/
structure Says (before after : Sink) (calls : List Call) : Prop where
  written : after.written = before.written ++ calls.flatMap fun call => Frame.encode call.body
  values : ∀ call ∈ calls, Json.ofBytes? call.body = some call.json.normalize
  messages : ∀ call ∈ calls, Message.ofBytes? call.body = some call.message
  read : (∀ call ∈ calls, call.body.length ≤ Frame.bodyLimit) →
    ∀ (source : Source) (trailing : Bytes), source.Reliable →
      before.written ++ source.remaining = after.written ++ trailing →
      (Frame.readMany calls.length source).1 = calls.map (fun call => .ok call.body) ∧
        (Frame.readMany calls.length source).2.remaining = trailing

theorem says_of_written {before after : Sink} {calls : List Call}
    (hfits : ∀ call ∈ calls, call.fits = true)
    (hwritten : after.written =
      before.written ++ calls.flatMap fun call => Frame.encode call.body) :
    Says before after calls where
  written := hwritten
  values call h := Call.ofBytes?_body (hfits call h)
  messages call h := Message.ofBytes?_body (hfits call h)
  read hshort source trailing hs hr := by
    have hbodies : ∀ body ∈ calls.map Call.body, body.length ≤ Frame.bodyLimit := by
      intro body hbody
      obtain ⟨call, hcall, rfl⟩ := List.mem_map.1 hbody
      exact hshort call hcall
    rw [hwritten, List.append_assoc] at hr
    have hremaining : source.remaining = (calls.map Call.body).flatMap Frame.encode ++ trailing := by
      rw [List.flatMap_map]
      exact List.append_cancel_left hr
    have hread := Frame.readMany_flatMap_encode hbodies hs hremaining
    rwa [List.length_map, List.map_map] at hread

/-- The first reply to the introduction with an error or a result decides a handshake and what is
left in the inbox. Only a good one is confirmed, and nothing else is ever written. -/
theorem handshake_decided {sink : Sink} (hw : sink.Reliable) (inbox : Inbox) (process : UInt32)
    (workspace : Option Path) {budget : PollBudget} (hb : budget.total.isZero = false) :
    ∃ result nanos after left,
      handshake process.toNat workspace budget (sink, inbox) =
        (result, nanos, (after, { inbox with frames := left })) ∧
      Ends inbox budget.attempts.toNat result left ∧
      (∀ other rest, Ends inbox budget.attempts.toNat other rest → other = result ∧ rest = left) ∧
      Says sink after (handshakeCalls process.toNat workspace result) ∧
      (handshakeCalls process.toNat workspace result).map Call.message =
        .request (.int introductionId) "initialize" ::
          (match result with | .ok () => [.notification "initialized"] | .error _ => []) := by
  obtain ⟨nanos, after, hhandshake, hwritten⟩ :=
    handshake_eq hw inbox process.toNat workspace hb
  refine ⟨_, nanos, after, _, hhandshake, ends_ending inbox _, ?_,
    says_of_written (fun call => fits_of_mem_handshakeCalls) hwritten, ?_⟩
  · intro other rest hends
    rw [hends.eq_ending]
    exact ⟨rfl, rfl⟩
  · cases (ending inbox budget.attempts.toNat).1 with
    | ok accepted => rfl
    | error fault => rfl

theorem verdict?_encode (cs : List Char) :
    verdict? (Utf8.encode cs) =
      ((Json.ofChars? cs).bind Message.ofJson?).bind fun
        | .response r =>
          if r.id = some introductionId then
            match r.error, r.result with
            | some fault, _ => some (.error fault)
            | none, some _ => some (.ok ())
            | none, none => none
          else none
        | _ => none := by
  rw [verdict?, Message.ofBytes?, Json.ofBytes?_encode, Option.bind_eq_bind]
  cases (Json.ofChars? cs).bind Message.ofJson? with
  | none => rfl
  | some message => cases message <;> rfl

/-- What decides nothing: no JSON, a notification, a request with the id of the introduction, a
reply to something else, and a reply without a result. -/
def idleTexts : List (List Char) :=
  ["no".toList, (Json.obj [("method", .str "telemetry/event")]).chars,
    (Json.obj [("id", .int 1), ("method", .str "workspace/configuration")]).chars,
    (Json.obj [("id", .int 7), ("result", .obj [])]).chars,
    (Json.obj [("id", .int 1), ("result", .null)]).chars]

def welcome : List Char := (Json.obj [("id", .int 1), ("result", .obj [])]).chars

def refusal : List Char :=
  (Json.obj [("id", .int 1), ("error", .obj [("code", .int 2), ("message", .str "no")])]).chars

theorem exists_decides_welcome : ∃ r, Decides (Utf8.encode welcome) r ∧ r.error = none := by
  have hgood : ((verdict? (Utf8.encode welcome)).any Except.toBool) = true := by
    rw [verdict?_encode]
    decide +kernel
  obtain ⟨verdict, hverdict, hok⟩ := (Option.any_eq_true _ _).1 hgood
  obtain ⟨r, hd⟩ := exists_decides hverdict
  refine ⟨r, hd, ?_⟩
  rw [hd.verdict?_eq, Option.some.injEq] at hverdict
  cases he : r.error with
  | none => rfl
  | some fault =>
    rw [he] at hverdict
    subst hverdict
    cases hok

theorem handshake_decided_by_welcome :
    let inbox : Inbox :=
      { capacity := 8, frames := (idleTexts ++ [welcome, refusal]).map Utf8.encode }
    ∃ nanos after,
      handshake 5 none ⟨2, 10⟩ (({} : Sink), inbox) =
        (.ok (), nanos, (after, { inbox with frames := [Utf8.encode refusal] })) ∧
      Says {} after [introduction 5 none, confirmation] := by
  intro inbox
  have hw : Sink.Reliable {} := ⟨rfl, rfl, fun _ => Nat.zero_lt_succ _⟩
  have hb : (PollBudget.total ⟨2, 10⟩).isZero = false := by decide
  have hidle : ∀ other ∈ idleTexts.map Utf8.encode, ∀ r, ¬ Decides other r := by
    intro other hother
    obtain ⟨text, htext, rfl⟩ := List.mem_map.1 hother
    rw [← verdict?_eq_none_iff, verdict?_encode, ← Option.isNone_iff_eq_none]
    revert text
    decide +kernel
  obtain ⟨r, hd, he⟩ := exists_decides_welcome
  obtain ⟨result, nanos, after, left, hhandshake, -, hunique, hsays, -⟩ :=
    handshake_decided hw inbox 5 none hb
  obtain ⟨rfl, rfl⟩ := hunique (.ok ()) [Utf8.encode refusal] (.accepted rfl hidle hd he)
  exact ⟨nanos, after, hhandshake, hsays⟩

end Server

end LanguageClient
