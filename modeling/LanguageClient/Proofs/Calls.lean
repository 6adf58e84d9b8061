import LanguageClient.Proofs.JsonText
import LanguageClient.Wire.Message

namespace LanguageClient

namespace Json

theorem lookup_cons_ite {α : Type} (key : String) (value : α) (members : List (String × α))
    (wanted : String) :
    ((key, value) :: members).lookup wanted =
      if wanted = key then some value else members.lookup wanted := by
  rw [List.lookup_cons]
  by_cases h : wanted = key
  · rw [if_pos h, beq_iff_eq.2 h]
  · rw [if_neg h, beq_eq_false_iff_ne.2 h]

theorem lookup_setMember (key : String) (value : Json) (members : List (String × Json))
    (wanted : String) :
    (setMember key value members).lookup wanted =
      if wanted = key then some value else members.lookup wanted := by
  induction members with
  | nil => exact lookup_cons_ite key value [] wanted
  | cons member rest ih =>
    obtain ⟨k, v⟩ := member
    rw [setMember]
    cases h : compare key k with
    | lt => exact lookup_cons_ite key value _ wanted
    | eq =>
      have hkey : key = k := Std.LawfulEqOrd.eq_of_compare h
      dsimp only
      rw [lookup_cons_ite, lookup_cons_ite, hkey]
      split <;> rfl
    | gt =>
      have hkey : key ≠ k := by
        rintro rfl
        rw [Std.ReflOrd.compare_self] at h
        cases h
      dsimp only
      rw [lookup_cons_ite, lookup_cons_ite, ih]
      by_cases hwanted : wanted = k
      · rw [if_pos hwanted, if_pos hwanted, if_neg]
        exact fun he => hkey (he.symm.trans hwanted)
      · rw [if_neg hwanted, if_neg hwanted]

theorem lookup_sortMembers (members : List (String × Json)) (wanted : String) :
    (sortMembers members).lookup wanted = members.reverse.lookup wanted := by
  rw [sortMembers, ← List.foldr_reverse]
  induction members.reverse with
  | nil => rfl
  | cons member rest ih =>
    obtain ⟨key, value⟩ := member
    rw [List.foldr_cons, lookup_setMember, ih, lookup_cons_ite]

theorem normalizeMembers_eq_map (members : List (String × Json)) :
    normalizeMembers members = members.map fun m => (m.1, m.2.normalize) := by
  induction members with
  | nil => rw [normalizeMembers, List.map_nil]
  | cons member rest ih => rw [normalizeMembers, ih, List.map_cons]

theorem lookup_map {α β : Type} (f : String → α → β) (members : List (String × α))
    (wanted : String) :
    (members.map fun m => (m.1, f m.1 m.2)).lookup wanted =
      (members.lookup wanted).map (f wanted) := by
  induction members with
  | nil => rfl
  | cons member rest ih =>
    obtain ⟨key, value⟩ := member
    rw [List.map_cons, lookup_cons_ite, lookup_cons_ite, ih]
    by_cases h : wanted = key
    · rw [if_pos h, if_pos h, h, Option.map_some]
    · rw [if_neg h, if_neg h]

theorem get?_normalize_obj (members : List (String × Json)) (wanted : String) :
    (normalize (.obj members)).get? wanted = (members.reverse.lookup wanted).map normalize := by
  rw [normalize, get?, lookup_sortMembers, normalizeMembers_eq_map, ← List.map_reverse,
    lookup_map fun _ => normalize]

end Json

namespace Wire

namespace Call

/-- A call whose id is a signed word and whose parameters are not nested too deep. -/
def fits (call : Call) : Bool :=
  call.id.all (fun (id : Int) => -(1 <<< 63) ≤ id && id < 1 <<< 63) &&
    call.params.all (Json.fits 126)

theorem fits_json {call : Call} (h : call.fits = true) : call.json.fits Json.depthLimit = true := by
  obtain ⟨id, method, params⟩ := call
  simp only [fits, Bool.and_eq_true] at h
  obtain ⟨hid, hparams⟩ := h
  have hword : ∀ n, id = some n → (Json.int n).fits 126 = true := by
    rintro n rfl
    simp only [Option.all_some, Bool.and_eq_true, decide_eq_true_eq] at hid
    simp only [Json.fits, Bool.and_eq_true, decide_eq_true_eq]
    omega
  cases id <;> cases params <;> simp_all [json, Json.depthLimit, Json.fits, Json.fitsMembers]

/-- The body of a call is read as its members in order of their keys. -/
theorem ofBytes?_body {call : Call} (h : call.fits = true) :
    Json.ofBytes? call.body = some call.json.normalize :=
  Json.ofBytes?_bytes (fits_json h)

theorem get?_json (call : Call) (key : String) :
    call.json.normalize.get? key =
      if key = "params" then call.params.map Json.normalize
      else if key = "method" then some (.str call.method)
      else if key = "id" then call.id.map .int
      else if key = "jsonrpc" then some (.str "2.0")
      else none := by
  obtain ⟨id, method, params⟩ := call
  rw [json, Json.get?_normalize_obj]
  by_cases hparams : key = "params"
  · subst hparams
    cases id <;> cases params <;> simp [Json.lookup_cons_ite]
  by_cases hmethod : key = "method"
  · subst hmethod
    cases id <;> cases params <;> simp [Json.lookup_cons_ite, Json.normalize]
  by_cases hid : key = "id"
  · subst hid
    cases id <;> cases params <;> simp [Json.lookup_cons_ite, Json.normalize]
  by_cases hversion : key = "jsonrpc"
  · subst hversion
    cases id <;> cases params <;> simp [Json.lookup_cons_ite, Json.normalize]
  · cases id <;> cases params <;>
      simp [Json.lookup_cons_ite, hparams, hmethod, hid, hversion]

end Call

def Call.message (call : Call) : Message :=
  match call.id with
  | some id => .request (.int id) call.method
  | none => .notification call.method

theorem Message.ofBytes?_body {call : Call} (h : call.fits = true) :
    Message.ofBytes? call.body = some call.message := by
  have hmethod := call.get?_json "method"
  have hid := call.get?_json "id"
  rw [if_neg (by decide), if_pos rfl] at hmethod
  rw [if_neg (by decide), if_neg (by decide), if_pos rfl] at hid
  rw [Message.ofBytes?, Call.ofBytes?_body h]
  change Message.ofJson? call.json.normalize = _
  rw [Message.ofJson?, hmethod, hid]
  obtain ⟨id, method, params⟩ := call
  cases id <;> rfl

end Wire

end LanguageClient
