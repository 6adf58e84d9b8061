import LanguageClient.Proofs.Calls
import LanguageClient.Proofs.Routing
import Mathlib.Data.List.Induction
import Mathlib.Data.String.Basic

namespace LanguageClient

namespace Json

/-- Members in order of their keys, one for each key. -/
def KeysSorted (members : List (String × Json)) : Prop :=
  (members.map Prod.fst).Pairwise (· < ·)

instance (members : List (String × Json)) : Decidable (KeysSorted members) :=
  inferInstanceAs (Decidable ((members.map Prod.fst).Pairwise (· < ·)))

mutual

/-- Every object inside the value has its members in order, one for each key. -/
def isNormal : Json → Bool
  | null | bool _ | int _ | real _ _ | str _ => true
  | arr items => itemsNormal items
  | obj members => KeysSorted members && membersNormal members

def itemsNormal : List Json → Bool
  | [] => true
  | item :: rest => item.isNormal && itemsNormal rest

def membersNormal : List (String × Json) → Bool
  | [] => true
  | (_, value) :: rest => value.isNormal && membersNormal rest

end

theorem setMember_of_forall_lt {key : String} {value : Json} {members : List (String × Json)}
    (h : ∀ m ∈ members, m.1 < key) : setMember key value members = members ++ [(key, value)] := by
  induction members with
  | nil => rfl
  | cons member rest ih =>
    have hgt : compare key member.1 = .gt := compare_gt_iff_gt.2 (h member (.head _))
    rw [setMember, hgt]
    dsimp only
    rw [ih fun m hm => h m (.tail _ hm), List.cons_append]

theorem sortMembers_of_keysSorted {members : List (String × Json)} (h : KeysSorted members) :
    sortMembers members = members := by
  induction members using List.reverseRecOn with
  | nil => rfl
  | append_singleton members member ih =>
    obtain ⟨hsorted, _, hlast⟩ := List.pairwise_append.1 (List.pairwise_map.1 h)
    have hstep : sortMembers (members ++ [member]) =
        setMember member.1 member.2 (sortMembers members) := by
      rw [sortMembers, List.foldl_append]
      rfl
    rw [hstep, ih (List.pairwise_map.2 hsorted)]
    exact setMember_of_forall_lt fun m hm => hlast m hm member (.head _)

mutual

theorem normalize_of_isNormal {value : Json} (h : value.isNormal = true) :
    value.normalize = value := by
  match value with
  | null | bool _ | int _ | real _ _ | str _ => rw [normalize] <;> nofun
  | arr items =>
    rw [isNormal] at h
    rw [normalize, normalizeItems_of_itemsNormal h]
  | obj members =>
    rw [isNormal, Bool.and_eq_true, decide_eq_true_eq] at h
    rw [normalize, normalizeMembers_of_membersNormal h.2, sortMembers_of_keysSorted h.1]

theorem normalizeItems_of_itemsNormal {items : List Json} (h : itemsNormal items = true) :
    normalizeItems items = items := by
  match items with
  | [] => rw [normalizeItems]
  | item :: rest =>
    rw [itemsNormal, Bool.and_eq_true] at h
    rw [normalizeItems, normalize_of_isNormal h.1, normalizeItems_of_itemsNormal h.2]

theorem normalizeMembers_of_membersNormal {members : List (String × Json)}
    (h : membersNormal members = true) : normalizeMembers members = members := by
  match members with
  | [] => rw [normalizeMembers]
  | (key, value) :: rest =>
    rw [membersNormal, Bool.and_eq_true] at h
    rw [normalizeMembers, normalize_of_isNormal h.1, normalizeMembers_of_membersNormal h.2]

end

theorem mem_of_mem_setMember {key : String} {value : Json} {members : List (String × Json)}
    {m : String × Json} (h : m ∈ setMember key value members) : m = (key, value) ∨ m ∈ members := by
  induction members with
  | nil => exact .inl (List.mem_singleton.1 h)
  | cons member rest ih =>
    rw [setMember] at h
    cases hkey : compare key member.1 with
    | lt =>
      rw [hkey] at h
      exact List.mem_cons.1 h
    | eq =>
      rw [hkey] at h
      exact (List.mem_cons.1 h).imp_right (.tail _)
    | gt =>
      rw [hkey] at h
      rcases List.mem_cons.1 h with rfl | hrest
      · exact .inr (.head _)
      · exact (ih hrest).imp_right (.tail _)

theorem keysSorted_cons_iff {member : String × Json} {rest : List (String × Json)} :
    KeysSorted (member :: rest) ↔ (∀ m ∈ rest, member.1 < m.1) ∧ KeysSorted rest := by
  rw [KeysSorted, List.map_cons, List.pairwise_cons, List.forall_mem_map, KeysSorted]

theorem keysSorted_setMember (key : String) (value : Json) {members : List (String × Json)}
    (h : KeysSorted members) : KeysSorted (setMember key value members) := by
  induction members with
  | nil => exact List.pairwise_singleton _ _
  | cons member rest ih =>
    obtain ⟨hfirst, hrest⟩ := keysSorted_cons_iff.1 h
    rw [setMember]
    cases hkey : compare key member.1 with
    | lt =>
      have hlt : key < member.1 := compare_lt_iff_lt.1 hkey
      apply keysSorted_cons_iff.2 ⟨?_, h⟩
      rintro m (_ | ⟨_, hm⟩)
      · exact hlt
      · exact hlt.trans (hfirst m hm)
    | eq =>
      have heq : key = member.1 := Std.LawfulEqOrd.eq_of_compare hkey
      exact keysSorted_cons_iff.2 ⟨fun m hm => heq ▸ hfirst m hm, hrest⟩
    | gt =>
      apply keysSorted_cons_iff.2 ⟨?_, ih hrest⟩
      intro m hm
      rcases mem_of_mem_setMember hm with rfl | hm
      · exact compare_gt_iff_gt.1 hkey
      · exact hfirst m hm

theorem membersNormal_iff {members : List (String × Json)} :
    membersNormal members = true ↔ ∀ m ∈ members, m.2.isNormal = true := by
  induction members with
  | nil => simp [membersNormal]
  | cons member rest ih => simp [membersNormal, ih]

theorem isNormal_obj_iff {members : List (String × Json)} :
    (obj members).isNormal = true ↔ KeysSorted members ∧ ∀ m ∈ members, m.2.isNormal = true := by
  rw [isNormal, Bool.and_eq_true, decide_eq_true_eq, membersNormal_iff]

theorem isNormal_obj_sortMembers {members : List (String × Json)}
    (h : membersNormal members = true) : (obj (sortMembers members)).isNormal = true := by
  have hset : KeysSorted (sortMembers members) ∧ ∀ m ∈ sortMembers members, m ∈ members := by
    clear h
    induction members using List.reverseRecOn with
    | nil => exact ⟨.nil, fun m hm => hm⟩
    | append_singleton members member ih =>
      rw [sortMembers, List.foldl_append]
      refine ⟨keysSorted_setMember _ _ ih.1, ?_⟩
      intro m hm
      rcases mem_of_mem_setMember hm with rfl | hm
      · exact List.mem_append_right _ (.head _)
      · exact List.mem_append_left _ (ih.2 m hm)
  exact isNormal_obj_iff.2 ⟨hset.1, fun m hm => membersNormal_iff.1 h m (hset.2 m hm)⟩

mutual

theorem isNormal_normalize (value : Json) : value.normalize.isNormal = true := by
  match value with
  | null | bool _ | int _ | real _ _ | str _ => rw [normalize, isNormal] <;> nofun
  | arr items =>
    rw [normalize, isNormal]
    exact itemsNormal_normalizeItems items
  | obj members =>
    rw [normalize]
    exact isNormal_obj_sortMembers (membersNormal_normalizeMembers members)

theorem itemsNormal_normalizeItems (items : List Json) :
    itemsNormal (normalizeItems items) = true := by
  match items with
  | [] => rw [normalizeItems, itemsNormal]
  | item :: rest =>
    rw [normalizeItems, itemsNormal, isNormal_normalize item, itemsNormal_normalizeItems rest]
    rfl

theorem membersNormal_normalizeMembers (members : List (String × Json)) :
    membersNormal (normalizeMembers members) = true := by
  match members with
  | [] => rw [normalizeMembers, membersNormal]
  | (key, value) :: rest =>
    rw [normalizeMembers, membersNormal, isNormal_normalize value,
      membersNormal_normalizeMembers rest]
    rfl

end

theorem normalize_eq_self_iff {value : Json} : value.normalize = value ↔ value.isNormal = true := by
  constructor
  · intro h
    rw [← h]
    exact isNormal_normalize value
  · exact normalize_of_isNormal

end Json

namespace Wire

namespace Call

open Json

/-- The members of a call in order of their keys. -/
def members (call : Call) : List (String × Json) :=
  (call.id.map fun id => ("id", .int id)).toList ++
    [("jsonrpc", .str "2.0"), ("method", .str call.method)] ++
    (call.params.map fun params => ("params", params)).toList

/-- The body of a call is read as its members, and as the message that it is. -/
structure ReadsBack (call : Call) : Prop where
  value : Json.ofBytes? call.body =
    some (.obj { call with params := call.params.map Json.normalize }.members)
  exact : call.params.all Json.isNormal = true → Json.ofBytes? call.body = some (.obj call.members)
  message : Message.ofBytes? call.body = some call.message

theorem keysSorted_members (call : Call) : KeysSorted call.members := by
  have hkeys : ["id", "jsonrpc", "method", "params"].Pairwise (· < ·) := by decide
  have hsublist : (call.members.map Prod.fst).Sublist ["id", "jsonrpc", "method", "params"] := by
    obtain ⟨id, method, params⟩ := call
    cases id <;> cases params <;> simp [members]
  exact List.Pairwise.sublist hsublist hkeys

theorem normalize_json (call : Call) :
    call.json.normalize = .obj { call with params := call.params.map Json.normalize }.members := by
  have hsorted := keysSorted_members { call with params := call.params.map Json.normalize }
  rw [← Json.sortMembers_of_keysSorted hsorted]
  obtain ⟨id, method, params⟩ := call
  have hid : compare "id" "jsonrpc" = .lt := by decide
  have hversion : compare "jsonrpc" "id" = .gt := by decide
  cases id <;> cases params <;>
    simp [json, members, Json.normalize, normalizeMembers, sortMembers, setMember, hid, hversion]

theorem map_normalize_of_isNormal {params : Option Json} (h : params.all Json.isNormal = true) :
    params.map Json.normalize = params := by
  cases params with
  | none => rfl
  | some params => exact congrArg some (Json.normalize_of_isNormal h)

theorem readsBack_of_fits {call : Call} (h : call.fits = true) : call.ReadsBack where
  value := (ofBytes?_body h).trans (congrArg some call.normalize_json)
  exact hnormal := by
    rw [ofBytes?_body h, normalize_json, map_normalize_of_isNormal hnormal]
  message := Message.ofBytes?_body h

end Call

end Wire

namespace Workspace

open Server Wire

namespace DocumentSync

theorem fits_openCall (p : Path) (languageId content : String) :
    (openCall p languageId content).fits = true := by
  rfl

theorem isNormal_openCall (p : Path) (languageId content : String) :
    (openCall p languageId content).params.all Json.isNormal = true := by
  have hkeys : ["languageId", "text", "uri", "version"].Pairwise (· < ·) := by decide
  rw [openCall, Option.all_some, Json.isNormal_obj_iff]
  refine ⟨List.pairwise_singleton _ _, List.forall_mem_singleton.2 ?_⟩
  exact Json.isNormal_obj_iff.2 ⟨hkeys, by simp [Json.isNormal]⟩

theorem fits_changeCall (p : Path) {version : Int} (hlow : -(1 <<< 63) ≤ version)
    (hhigh : version < 1 <<< 63) (content : String) :
    (changeCall p version content).fits = true := by
  simp [changeCall, Call.fits, Json.fits, Json.fitsMembers, Json.fitsItems]
  omega

theorem isNormal_changeCall (p : Path) (version : Int) (content : String) :
    (changeCall p version content).params.all Json.isNormal = true := by
  have hkeys : ["contentChanges", "textDocument"].Pairwise (· < ·) := by decide
  have hdocument : ["uri", "version"].Pairwise (· < ·) := by decide
  have hchange : (Json.obj [("text", .str content)]).isNormal = true :=
    Json.isNormal_obj_iff.2 ⟨List.pairwise_singleton _ _, by simp [Json.isNormal]⟩
  have hchanges : (Json.arr [.obj [("text", .str content)]]).isNormal = true := by
    rw [Json.isNormal, Json.itemsNormal, hchange]
    rfl
  rw [changeCall, Option.all_some, Json.isNormal_obj_iff]
  refine ⟨hkeys, ?_⟩
  simp only [List.forall_mem_cons]
  refine ⟨hchanges, ?_, List.forall_mem_nil _⟩
  exact Json.isNormal_obj_iff.2 ⟨hdocument, by simp [Json.isNormal]⟩

section

variable {σ : Type} [Adapter σ]

theorem exists_body_of_mem_handed {s : DocumentSync} {n : Notice} {r : Registry σ} {a : Ambient}
    {language : Language} {message : Handover}
    (h : message ∈ (s.announce n r.recorded a).2.2.1.handed language) :
    ∃ languageId, message.body = (n.call languageId).body := by
  obtain ⟨told, s', r', a', hannounces⟩ := exists_announces s n r.recorded a
  rw [hannounces.announce_eq] at h
  change message ∈ r'.handed language at h
  rw [hannounces.handed_eq, Registry.handed_recorded, List.nil_append, addressedTo,
    List.mem_map] at h
  obtain ⟨found, hmem, rfl⟩ := h
  have hsome : s.notification? n r.recorded a = some found :=
    Option.mem_toList.1 (List.mem_filter.1 hmem).1
  rw [notification?, Option.ite_none_left_eq_some, Option.map_eq_some_iff] at hsome
  obtain ⟨_, _, _, rfl⟩ := hsome
  exact ⟨_, rfl⟩

/-- Every call is read as what it is. So are the bodies that tell of an opened or a changed file:
the text in them is the file's text and the URI is that of its path. -/
theorem reads_as_meant {call : Call} (hcall : call.fits = true) {version : Int}
    (hlow : -(1 <<< 63) ≤ version) (hhigh : version < 1 <<< 63) (s : DocumentSync) (p : Path)
    (content : String) (r : Registry σ) (a : Ambient) (language : Language) :
    call.ReadsBack ∧
      (∀ message ∈ (didOpen p content r.recorded a).2.1.handed language, ∃ languageId,
        Json.ofBytes? message.body = some (.obj [
          ("jsonrpc", .str "2.0"), ("method", .str "textDocument/didOpen"),
          ("params", .obj [("textDocument", .obj [
            ("languageId", .str languageId), ("text", .str content),
            ("uri", .str (Uri.ofPath p)), ("version", .int 1)])])])) ∧
      ∀ message ∈ (s.didChange p version content r.recorded a).2.2.1.handed language,
        Json.ofBytes? message.body = some (.obj [
          ("jsonrpc", .str "2.0"), ("method", .str "textDocument/didChange"),
          ("params", .obj [
            ("contentChanges", .arr [.obj [("text", .str content)]]),
            ("textDocument", .obj [
              ("uri", .str (Uri.ofPath p)), ("version", .int version)])])]) := by
  refine ⟨Call.readsBack_of_fits hcall, ?_, ?_⟩
  · intro message hmessage
    obtain ⟨languageId, hbody⟩ :=
      exists_body_of_mem_handed (s := s) (n := .opened p content) hmessage
    have hreads := Call.readsBack_of_fits (fits_openCall p languageId content)
    rw [hbody]
    exact ⟨languageId, hreads.exact (isNormal_openCall p languageId content)⟩
  · intro message hmessage
    obtain ⟨languageId, hbody⟩ :=
      exists_body_of_mem_handed (n := .changed p version content) hmessage
    have hreads := Call.readsBack_of_fits (fits_changeCall p hlow hhigh content)
    rw [hbody]
    exact hreads.exact (isNormal_changeCall p version content)

end

/-- A request whose text has to be escaped. -/
def escapedCall : Call where
  id := some (-7)
  method := "a\"b\\c\n\x01é"
  params := some (.obj [("", .arr [.null, .obj []]), ("k\t", .int 18446744073709551615)])

def goServer : Registry Scripted where
  servers language := if language = .go then some { language, inbox := .ofCapacity 8 } else none

theorem reads_as_meant_escaped :
    escapedCall.fits = true ∧ escapedCall.ReadsBack ∧
      ((didOpen ⟨"/w/my game/a.go"⟩ "\"\\\r\n\x00é" goServer.recorded {}).2.1.handed .go).length =
        1 ∧
      ∀ message ∈
          (didOpen ⟨"/w/my game/a.go"⟩ "\"\\\r\n\x00é" goServer.recorded {}).2.1.handed .go,
        ∃ languageId, Json.ofBytes? message.body = some (.obj [
          ("jsonrpc", .str "2.0"), ("method", .str "textDocument/didOpen"),
          ("params", .obj [("textDocument", .obj [
            ("languageId", .str languageId), ("text", .str "\"\\\r\n\x00é"),
            ("uri", .str (Uri.ofPath ⟨"/w/my game/a.go"⟩)), ("version", .int 1)])])]) := by
  have hfits : escapedCall.fits = true := by decide +kernel
  have hlow : -(1 <<< 63) ≤ (2 : Int) := by decide
  have hreads := reads_as_meant hfits hlow (by decide)
    ⟨.ofMillis 1000, none⟩ ⟨"/w/my game/a.go"⟩ "\"\\\r\n\x00é" goServer {} .go
  exact ⟨hfits, hreads.1, by decide +kernel, hreads.2.1⟩

end DocumentSync

end Workspace

end LanguageClient
