import LanguageClient.Proofs.JsonText
import LanguageClient.Workspace.Completion

namespace LanguageClient.Wire

/-- Whether a value is an error with its code and its message, by their names or in this order. -/
def isFault : Json → Bool
  | .obj members =>
    ((members.lookup "code").bind Json.asInt64?).isSome &&
      ((members.lookup "message").bind Json.asString?).isSome
  | .arr [code, message] | .arr [code, message, _] =>
    code.asInt64?.isSome && message.asString?.isSome
  | _ => false

/-- Whether the version and the error of a body are of their types, if it has them. -/
def isTyped (body : Json) : Bool :=
  (body.get? "jsonrpc").all (·.asString?.isSome) &&
    (body.get? "error").all fun value => value.isNull || isFault value

/-- Whether a body is no array, and its method is a name, if it has one. -/
def isPlain : Json → Bool
  | .arr _ => false
  | body => (body.get? "method").all (·.asString?.isSome)

section

variable {α : Type} {read? : Json → Option α} {field : Option Json}

theorem isSome_optional? :
    (optional? read? field).isSome =
      field.all fun value => value.isNull || (read? value).isSome := by
  cases field with
  | none => rfl
  | some value => cases value <;> simp [optional?, Json.isNull]

theorem optional?_eq_some_some_iff (hnull : read? .null = none) {x : α} :
    optional? read? field = some (some x) ↔ field.bind read? = some x := by
  cases field with
  | none => simp [optional?]
  | some value => cases value <;> simp [optional?, hnull]

theorem isSome_of_optional? (hnull : field ≠ some .null) {read : Option α}
    (h : optional? read? field = some read) : read.isSome = field.isSome := by
  cases field with
  | none =>
    cases h
    rfl
  | some value =>
    have hread : (read? value).map some = some read := by
      rw [← h]
      cases value with
      | null => exact absurd rfl hnull
      | _ => rfl
    obtain ⟨_, _, ⟨⟩⟩ := Option.map_eq_some_iff.1 hread
    rfl

end

theorem exists_optional?_some (field : Option Json) : ∃ read, optional? some field = some read := by
  rw [← Option.isSome_iff_exists, isSome_optional?]
  cases field with
  | none => rfl
  | some value => exact Bool.or_true _

theorem isSome_bind_bind {α β γ : Type} (x : Option α) (y : Option β) (f : α → β → γ) :
    (x.bind fun a => y.bind fun b => some (f a b)).isSome = (x.isSome && y.isSome) := by
  cases x with
  | none => rfl
  | some a => cases y <;> rfl

theorem ServerFault.isSome_ofJson?_eq_any (value : Json) :
    (ServerFault.ofJson? value).isSome =
      (fields? ["code", "message", "data"] value).any fun field =>
        ((field "code").bind Json.asInt64?).isSome &&
          ((field "message").bind Json.asString?).isSome := by
  rw [ofJson?]
  cases fields? ["code", "message", "data"] value with
  | none => rfl
  | some field =>
    obtain ⟨data, hdata⟩ := exists_optional?_some (field "data")
    rw [Option.any_some,
      ← isSome_bind_bind _ _ fun code message => ServerFault.mk code message data]
    simp only [Option.bind_eq_bind, Option.bind_some, Option.bind_assoc, hdata]
    rfl

theorem ServerFault.isSome_ofJson? (value : Json) :
    (ServerFault.ofJson? value).isSome = isFault value := by
  rw [isSome_ofJson?_eq_any]
  cases value with
  | obj members => rfl
  | arr items =>
    match items with
    | [] => rfl
    | [code] => exact Bool.and_false _
    | [code, message] => rfl
    | [code, message, data] => rfl
    | _ :: _ :: _ :: _ :: _ => rfl
  | null => rfl
  | bool value => rfl
  | int value => rfl
  | real mantissa exponent => rfl
  | str text => rfl

/-- The version that a response gives, which may be missing. -/
def version? : Option Json → Option String
  | some version => version.asString?
  | none => some ""

theorem isSome_version? (field : Option Json) :
    (version? field).isSome = field.all (·.asString?.isSome) := by
  cases field with
  | none => rfl
  | some version => rfl

theorem Response.ofJson?_obj_eq_some_iff {members : List (String × Json)} {r : Response} :
    ofJson? (.obj members) = some r ↔
      version? (members.lookup "jsonrpc") = some r.version ∧
        optional? Json.asInt64? (members.lookup "id") = some r.id ∧
        optional? some (members.lookup "result") = some r.result ∧
        optional? ServerFault.ofJson? (members.lookup "error") = some r.error := by
  have hread : ofJson? (.obj members) =
      (version? (members.lookup "jsonrpc")).bind fun version =>
        (optional? Json.asInt64? (members.lookup "id")).bind fun id =>
          (optional? some (members.lookup "result")).bind fun result =>
            (optional? ServerFault.ofJson? (members.lookup "error")).bind fun error =>
              some ⟨version, id, result, error⟩ := by
    rw [ofJson?, fields?]
    dsimp only [Option.bind_eq_bind, Option.bind_some]
    cases members.lookup "jsonrpc" with
    | none => rfl
    | some version => rfl
  rcases r with ⟨version, id, result, error⟩
  simp only [hread, Option.bind_eq_some_iff, Option.some.injEq, Response.mk.injEq]
  constructor
  · rintro ⟨_, hversion, _, hid, _, hresult, _, herror, rfl, rfl, rfl, rfl⟩
    exact ⟨hversion, hid, hresult, herror⟩
  · rintro ⟨hversion, hid, hresult, herror⟩
    exact ⟨_, hversion, _, hid, _, hresult, _, herror, rfl, rfl, rfl, rfl⟩

/-- A response is for a request if its id is, and all else in it is of its type. -/
theorem Response.id_ofJson?_obj_iff {members : List (String × Json)} {id : Int} :
    (ofJson? (.obj members)).bind Response.id = some id ↔
      (members.lookup "id").bind Json.asInt64? = some id ∧ isTyped (.obj members) = true := by
  have hversion := isSome_version? (members.lookup "jsonrpc")
  have herror : (optional? ServerFault.ofJson? (members.lookup "error")).isSome = _ :=
    isSome_optional?
  simp only [ServerFault.isSome_ofJson?] at herror
  rw [isTyped, Json.get?, Json.get?, ← hversion, ← herror, Bool.and_eq_true]
  constructor
  · intro h
    obtain ⟨r, hr, hid⟩ := Option.bind_eq_some_iff.1 h
    obtain ⟨hversion, hread, _, herror⟩ := ofJson?_obj_eq_some_iff.1 hr
    rw [hid] at hread
    refine ⟨(optional?_eq_some_some_iff rfl).1 hread, ?_, ?_⟩
    · rw [hversion]
      rfl
    · rw [herror]
      rfl
  · rintro ⟨hid, hversion, herror⟩
    obtain ⟨version, hversion⟩ := Option.isSome_iff_exists.1 hversion
    obtain ⟨error, herror⟩ := Option.isSome_iff_exists.1 herror
    obtain ⟨result, hresult⟩ := exists_optional?_some (members.lookup "result")
    have hr : ofJson? (.obj members) = some ⟨version, some id, result, error⟩ :=
      ofJson?_obj_eq_some_iff.2
        ⟨hversion, (optional?_eq_some_some_iff rfl).2 hid, hresult, herror⟩
    rw [hr]
    rfl

theorem Message.ofBytes?_of_json {frame : Bytes} {body : Json}
    (h : Json.ofBytes? frame = some body) : ofBytes? frame = ofJson? body := by
  rw [ofBytes?, h]
  rfl

theorem Message.answeredId?_ofJson?_of_method {body : Json} {method : String}
    (h : (body.get? "method").bind Json.asString? = some method) :
    (ofJson? body).bind answeredId? = none := by
  rw [ofJson?, h]
  cases body.get? "id" with
  | none => rfl
  | some id => cases id <;> rfl

theorem Message.ofJson?_of_no_method {body : Json} (h : body.get? "method" = none) :
    ofJson? body = (Response.ofJson? body).map .response := by
  rw [ofJson?, h]
  rfl

end LanguageClient.Wire

namespace LanguageClient.Workspace

open Wire

namespace Completion

theorem answers_eq_true_iff {id : Int} {body : Json} :
    answers id body = true ↔
      body.get? "method" = none ∧ (body.get? "id").bind Json.asInt64? = some id := by
  rw [answers, Bool.and_eq_true, decide_eq_true_iff, Option.isNone_iff_eq_none]

theorem answer?_eq_some_iff {id : Int} {frame : Bytes} {body : Json}
    (hbody : Json.ofBytes? frame = some body) :
    answer? id frame = some body ↔ answers id body = true := by
  rw [answer?, hbody, Option.filter_some]
  cases answers id body with
  | true => exact iff_of_true rfl rfl
  | false => exact iff_of_false (Option.some_ne_none body).symm Bool.false_ne_true

end Completion

theorem isPlain_iff {body : Json} :
    isPlain body = true ↔
      (∀ items, body ≠ .arr items) ∧ (body.get? "method").all (·.asString?.isSome) = true := by
  cases body with
  | arr items => exact iff_of_false Bool.false_ne_true fun h => h.1 items rfl
  | _ =>
    refine ⟨fun h => ⟨fun items harray => ?_, h⟩, fun h => h.2⟩
    cases harray

theorem answeredId?_ofJson?_of_no_method {body : Json} (hmethod : body.get? "method" = none) :
    (Message.ofJson? body).bind Message.answeredId? = (Response.ofJson? body).bind Response.id := by
  rw [Message.ofJson?_of_no_method hmethod, Option.bind_map]
  rfl

theorem answeredId?_ofJson?_iff {body : Json} (hplain : isPlain body = true) (id : Int) :
    (Message.ofJson? body).bind Message.answeredId? = some id ↔
      Completion.answers id body = true ∧ isTyped body = true := by
  obtain ⟨harray, hname⟩ := isPlain_iff.1 hplain
  rw [Completion.answers_eq_true_iff]
  cases hmethod : body.get? "method" with
  | some value =>
    rw [hmethod, Option.all_some] at hname
    obtain ⟨name, hname⟩ := Option.isSome_iff_exists.1 hname
    rw [Message.answeredId?_ofJson?_of_method (by rw [hmethod]; exact hname)]
    exact iff_of_false (Option.some_ne_none id).symm fun h => Option.some_ne_none _ h.1.1
  | none =>
    rw [answeredId?_ofJson?_of_no_method hmethod]
    cases body with
    | obj members =>
      rw [Response.id_ofJson?_obj_iff, eq_self, true_and]
      rfl
    | arr items => exact absurd rfl (harray items)
    | _ =>
      refine iff_of_false (Option.some_ne_none id).symm fun h => ?_
      exact Option.some_ne_none id h.1.2.symm

theorem isSome_error_of_answers {id : Int} {body : Json} {r : Response}
    (hr : Message.ofJson? body = some (.response r)) (hanswers : Completion.answers id body = true)
    (hnull : body.get? "error" ≠ some .null) : r.error.isSome = (body.get? "error").isSome := by
  obtain ⟨hmethod, hid⟩ := Completion.answers_eq_true_iff.1 hanswers
  rw [Message.ofJson?_of_no_method hmethod] at hr
  obtain ⟨_, hr, ⟨⟩⟩ := Option.map_eq_some_iff.1 hr
  cases body with
  | obj members =>
    obtain ⟨_, _, _, herror⟩ := Response.ofJson?_obj_eq_some_iff.1 hr
    exact isSome_of_optional? hnull herror
  | _ => cases hid

/-- How far a handshake and a completion agree on a frame. -/
structure Agrees (frame : Bytes) (body : Json) (id : Int) : Prop where
  /-- A handshake takes it for the reply to a request if a completion does, and if the members of
  a response are of their types. -/
  answers : isPlain body = true →
    ((Message.ofBytes? frame).bind Message.answeredId? = some id ↔
      Completion.answer? id frame = some body ∧ isTyped body = true)
  error : ∀ r, Message.ofBytes? frame = some (.response r) → r.id = some id →
    Completion.answer? id frame = some body → body.get? "error" ≠ some .null →
      (r.error.isSome = true ↔ (body.get? "error").isSome = true)

theorem agrees_of_ofBytes? {frame : Bytes} {body : Json} (hbody : Json.ofBytes? frame = some body)
    (id : Int) : Agrees frame body id := by
  have hmessage := Message.ofBytes?_of_json hbody
  constructor
  case answers =>
    intro hplain
    rw [hmessage, Completion.answer?_eq_some_iff hbody]
    exact answeredId?_ofJson?_iff hplain id
  case error =>
    intro r hr _ hanswer hnull
    rw [hmessage] at hr
    rw [isSome_error_of_answers hr ((Completion.answer?_eq_some_iff hbody).1 hanswer) hnull]

/-- A reply that declines a request, with members that a response does not have. -/
def declined : Json :=
  .obj [("error", .obj [("code", .int (-32601)), ("message", .str "no")]), ("id", .int 1000),
    ("jsonrpc", .str "2.0"), ("server", .arr [.null])]

theorem agrees_declined :
    Json.ofBytes? declined.bytes = some declined.normalize ∧
      Agrees declined.bytes declined.normalize 1000 ∧
      (Message.ofBytes? declined.bytes).bind Message.answeredId? = some 1000 := by
  have hbody : Json.ofBytes? declined.bytes = some declined.normalize :=
    Json.ofBytes?_bytes (by decide +kernel)
  have hagrees := agrees_of_ofBytes? hbody 1000
  have hanswers : Completion.answers 1000 declined.normalize = true := by decide +kernel
  refine ⟨hbody, hagrees, (hagrees.answers (by decide +kernel)).2 ⟨?_, by decide +kernel⟩⟩
  exact (Completion.answer?_eq_some_iff hbody).2 hanswers

/-- A reply of which the version is no text. -/
def misversioned : Json :=
  .obj [("id", .int 1000), ("jsonrpc", .int 5), ("result", .arr [])]

def absolved : Json :=
  .obj [("error", .null), ("id", .int 1000), ("jsonrpc", .str "2.0"), ("result", .arr [])]

/-- A handshake and a completion differ over a version that is no text and over an error that is
null. -/
theorem differ_over_misversioned :
    (¬ ∀ frame body id, Json.ofBytes? frame = some body →
      ((Message.ofBytes? frame).bind Message.answeredId? = some id ↔
        Completion.answer? id frame = some body)) ∧
    ¬ ∀ frame body id r, Json.ofBytes? frame = some body →
      Message.ofBytes? frame = some (.response r) → r.id = some id →
        Completion.answer? id frame = some body →
          (r.error.isSome = true ↔ (body.get? "error").isSome = true) := by
  constructor
  · intro h
    have hbody : Json.ofBytes? misversioned.bytes = some misversioned.normalize :=
      Json.ofBytes?_bytes (by decide +kernel)
    have hanswers : Completion.answers 1000 misversioned.normalize = true := by decide +kernel
    have hread := (h _ _ 1000 hbody).2 ((Completion.answer?_eq_some_iff hbody).2 hanswers)
    rw [Message.ofBytes?_of_json hbody] at hread
    have htyped := ((answeredId?_ofJson?_iff (by decide +kernel) 1000).1 hread).2
    exact absurd htyped (by decide +kernel)
  · intro h
    have hbody : Json.ofBytes? absolved.bytes = some absolved.normalize :=
      Json.ofBytes?_bytes (by decide +kernel)
    have hanswers : Completion.answers 1000 absolved.normalize = true := by decide +kernel
    have hr : Message.ofBytes? absolved.bytes =
        some (.response ⟨"2.0", some 1000, some (.arr []), none⟩) := by
      rw [Message.ofBytes?_of_json hbody]
      rfl
    have herror := h _ _ 1000 _ hbody hr rfl ((Completion.answer?_eq_some_iff hbody).2 hanswers)
    exact absurd (herror.2 (by decide +kernel)) Bool.false_ne_true

end LanguageClient.Workspace
