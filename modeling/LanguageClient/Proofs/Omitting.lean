import LanguageClient.Config.Reader
import LanguageClient.Config.Writer
import LanguageClient.Proofs.Members

namespace LanguageClient

open Json (Source Rearranged)

namespace Json.Source

theorem string?_text (text : String) :
    (Source.text (text.toList.map .ofChar)).string? = some text := by
  rw [string?, Piece.text?_map_ofChar, Option.map_some, String.ofList_toList]

theorem string?_ofJson_str (text : String) : (ofJson (.str text)).string? = some text := by
  rw [ofJson, string?_text]

theorem ofJson_ne_null {value : Json} (h : value.isNull = false) :
    ofJson value ≠ .keyword .null := by
  cases value with
  | null => cases h
  | bool value => cases value <;> (rw [ofJson]; nofun)
  | _ => rw [ofJson]; nofun

end Json.Source

namespace Config

/-- Every arrangement of a value is read as this. -/
def ReadsAs {α : Type} (read? : Source → Option α) (value : Json) (x : α) : Prop :=
  ∀ v : Json, v.Rearranged value → read? (Source.ofJson v) = some x

section Values

variable {α β : Type} {read? : Source → Option α} {value : Json} {x : α}

theorem readsAs_of_isScalar (value : Json) (hvalue : Json.IsScalar value)
    (h : read? (Source.ofJson value) = some x) : ReadsAs read? value x := by
  intro v hv
  rw [hv.eq_of_isScalar hvalue, h]

theorem ReadsAs.map (h : ReadsAs read? value x) (f : α → β) :
    ReadsAs (fun s => (read? s).map f) value (f x) := by
  intro v hv
  dsimp only
  rw [h v hv, Option.map_some]

theorem readsAs_option {write : α → Json} (hwrite : ∀ x, (write x).isNull = false)
    (hreads : ∀ x, ReadsAs read? (write x) x) (x? : Option α) :
    ReadsAs (readOption? read?) (jsonOption write x?) x? := by
  cases x? with
  | none => exact readsAs_of_isScalar .null trivial rfl
  | some x =>
    intro v hv
    have hnull : v.isNull = false := hv.isNull_eq.trans (hwrite x)
    have hv : read? (Source.ofJson v) = some x := hreads x v hv
    rw [readOption?, hv, Option.map_some]
    exact Source.ofJson_ne_null hnull

theorem readsAs_nat (bits : Nat) (hbits : bits ≤ 64) {n : Nat} (h : n < 1 <<< bits) :
    ReadsAs (readNat? bits) (jsonNat n) n := by
  apply readsAs_of_isScalar (.int n) trivial
  have hword : 1 <<< bits ≤ 1 <<< 64 := by
    rw [Nat.one_shiftLeft, Nat.one_shiftLeft]
    exact Nat.pow_le_pow_right (by decide) hbits
  have hvalue : (Json.NumberLiteral.ofInt n).value? = some (.int n) :=
    Json.NumberLiteral.value?_ofInt (by omega) (by omega)
  have hrange : (decide ((0 : Int) ≤ n) && decide ((n : Int) < 1 <<< bits)) = true := by
    rw [Bool.and_eq_true, decide_eq_true_eq, decide_eq_true_eq]
    omega
  rw [Source.ofJson, readNat?, hvalue]
  exact if_pos hrange

theorem readsAs_uint32 (n : UInt32) : ReadsAs readUInt32? (jsonNat n.toNat) n := by
  have h := (readsAs_nat 32 (by decide) n.toNat_lt).map UInt32.ofNat
  rwa [UInt32.ofNat_toNat] at h

theorem readsAs_uint64 (n : UInt64) : ReadsAs readUInt64? (jsonNat n.toNat) n := by
  have h := (readsAs_nat 64 (by decide) n.toNat_lt).map UInt64.ofNat
  rwa [UInt64.ofNat_toNat] at h

theorem readsAs_string (text : String) : ReadsAs Source.string? (.str text) text :=
  readsAs_of_isScalar (.str text) trivial (Source.string?_ofJson_str text)

theorem readsAs_path (p : Path) : ReadsAs readPath? (jsonPath p) p :=
  (readsAs_string p.text).map Path.mk

theorem mapM_string?_ofItems (texts : List String) :
    (Source.ofItems (texts.map .str)).mapM Source.string? = some texts := by
  induction texts with
  | nil => rfl
  | cons text rest ih =>
    rw [List.map_cons, Source.ofItems, List.mapM_cons, ih, Source.string?_ofJson_str]
    rfl

theorem readsAs_strings (texts : List String) :
    ReadsAs readStrings? (.arr (texts.map .str)) texts := by
  intro v hv
  have hscalars : ∀ item ∈ texts.map Json.str, Json.IsScalar item := by
    intro item hitem
    obtain ⟨text, _, rfl⟩ := List.mem_map.1 hitem
    trivial
  rw [hv.eq_of_scalars rfl hscalars, Source.ofJson, readStrings?, mapM_string?_ofItems]

theorem readsAs_format (f : Log.Format) : ReadsAs readFormat? (.str f.name) f := by
  apply readsAs_of_isScalar (.str f.name) trivial
  rw [Source.ofJson, readFormat?, Source.string?_text, Option.bind_some, Log.Format.ofName?_name]

end Values

namespace Fields

theorem ofMembers?_ofMembers (names : List String) (given : String → Option Source)
    {members : List (String × Json)} (hnodup : (members.map Prod.fst).Nodup)
    (hgiven : ∀ m ∈ members, given m.1 = none) :
    ∃ given', ofMembers? names given (Source.ofMembers members) = some given' ∧
      ∀ name ∈ names, given' name = ((members.lookup name).map Source.ofJson).or (given name) := by
  -- What is collected so far grows, and stays apart from the members to come: the keys differ.
  induction members generalizing given with
  | nil => exact ⟨given, rfl, fun _ _ => rfl⟩
  | cons member rest ih =>
    obtain ⟨key, value⟩ := member
    rw [List.map_cons, List.nodup_cons] at hnodup
    have hkey : (Json.Piece.text? (key.toList.map .ofChar)).map String.ofList = some key :=
      Source.string?_text key
    rw [Source.ofMembers, ofMembers?, hkey]
    change ∃ given', (if names.contains key then _ else _) = some given' ∧ _
    by_cases hnames : key ∈ names
    · rw [if_pos (List.contains_iff_mem.2 hnames), hgiven _ List.mem_cons_self,
        if_neg (by simp)]
      obtain ⟨given', hread, hlookup⟩ := ih
        (fun asked => if asked = key then some (Source.ofJson value) else given asked) hnodup.2
        (fun m hm => by
          rw [if_neg, hgiven m (List.mem_cons_of_mem _ hm)]
          exact fun he => hnodup.1 (List.mem_map.2 ⟨m, hm, he⟩))
      refine ⟨given', hread, fun name hname => ?_⟩
      rw [hlookup name hname, Json.lookup_cons_ite]
      by_cases he : name = key
      · subst he
        rw [if_pos rfl, if_pos rfl, Json.lookup_eq_none_of_notMem hnodup.1]
        rfl
      · rw [if_neg he, if_neg he]
    · rw [if_neg fun h => hnames (List.contains_iff_mem.1 h)]
      obtain ⟨given', hread, hlookup⟩ :=
        ih given hnodup.2 fun m hm => hgiven m (List.mem_cons_of_mem _ hm)
      refine ⟨given', hread, fun name hname => ?_⟩
      rw [hlookup name hname, Json.lookup_cons_ite, if_neg]
      exact fun he => hnames (he ▸ hname)

/-- The fields are given by arrangements of what stands under their names. -/
def GivenBy (fields : Fields) (names : List String) (members : List (String × Json)) : Prop :=
  ∀ name ∈ names, ∃ value? : Option Json, fields.given name = value?.map Source.ofJson ∧
    Option.Rel Rearranged value? (members.lookup name)

theorem exists_givenBy (names : List String) {v : Json} {members : List (String × Json)}
    (h : v.Rearranged (.obj members)) (hnodup : (members.map Prod.fst).Nodup) :
    ∃ fields, ofSource? names (Source.ofJson v) = some fields ∧ fields.GivenBy names members := by
  obtain ⟨members', rfl, hkeys, hrel⟩ := h.exists_members rfl hnodup
  obtain ⟨given, hread, hlookup⟩ := ofMembers?_ofMembers names (fun _ => none)
    (hkeys.nodup_iff.2 hnodup) fun _ _ => rfl
  refine ⟨⟨given⟩, ?_, fun name hname => ⟨members'.lookup name, ?_, hrel name⟩⟩
  · rw [Source.ofJson, ofSource?, hread, Option.map_some]
  · exact (hlookup name hname).trans Option.or_none

theorem exists_givenBy_without (names : List String) {v : Json} {members : List (String × Json)}
    {left : String → Bool} (h : v.Rearranged ((Json.obj members).without left))
    (hnodup : (members.map Prod.fst).Nodup) :
    ∃ fields, ofSource? names (Source.ofJson v) = some fields ∧
      fields.GivenBy names (members.filter fun m => !left m.1) :=
  exists_givenBy names h (hnodup.sublist (List.filter_sublist.map Prod.fst))

variable {α : Type} {fields : Fields} {names : List String} {members : List (String × Json)}
  {name : String} {read? : Source → Option α} {value : Json} {x : α}

theorem GivenBy.get?_eq (h : fields.GivenBy names members) (hname : name ∈ names)
    (hlookup : members.lookup name = some value) (hreads : ReadsAs read? value x) :
    fields.get? name read? = some x := by
  obtain ⟨value?, hgiven, hrel⟩ := h name hname
  rw [hlookup] at hrel
  cases hrel with
  | some hrel => rw [get?, hgiven, Option.map_some, Option.bind_some, hreads _ hrel]

theorem GivenBy.getD_eq {left : String → Bool}
    (h : fields.GivenBy names (members.filter fun m => !left m.1)) (hname : name ∈ names)
    (hlookup : members.lookup name = some value) (hreads : ReadsAs read? value x) (default : α) :
    fields.getD name read? default = some (if left name then default else x) := by
  obtain ⟨value?, hgiven, hrel⟩ := h name hname
  rw [Json.lookup_filter (fun key => !left key), hlookup] at hrel
  cases hleft : left name with
  | true =>
    rw [hleft] at hrel
    cases hrel with
    | none => rw [getD, hgiven]; rfl
  | false =>
    rw [hleft] at hrel
    cases hrel with
    | some hrel => rw [getD, hgiven, Option.map_some]; exact hreads _ hrel

end Fields

theorem readsAs_budget (b : PollBudget) : ReadsAs readBudget? (budgetJson b) b := by
  intro v hv
  obtain ⟨fields, hfields, hgiven⟩ :=
    Fields.exists_givenBy ["attempts", "interval_ms"] hv
      (by decide : ["attempts", "interval_ms"].Nodup)
  rw [readBudget?, hfields]
  simp only [Option.bind_eq_bind, Option.bind_some, Option.pure_def]
  rw [hgiven.get?_eq (by decide) rfl (readsAs_uint32 b.attempts), Option.bind_some,
    hgiven.get?_eq (by decide) rfl (readsAs_uint64 b.intervalMs), Option.bind_some]

/-- An override whose fields with these names are at their defaults. -/
def overrideOmitting (left : String → Bool) (o : ServerOverride) : ServerOverride :=
  let default : ServerOverride := {}
  { command := if left "command" then default.command else o.command
    args := if left "args" then default.args else o.args
    workingDir := if left "working_dir" then default.workingDir else o.workingDir }

theorem readsAs_override (left : String → Bool) (o : ServerOverride) :
    ReadsAs readOverride? ((overrideJson o).without left) (overrideOmitting left o) := by
  intro v hv
  obtain ⟨fields, hfields, hgiven⟩ := Fields.exists_givenBy_without _ hv
    (by decide : ["command", "args", "working_dir"].Nodup)
  have hpath := readsAs_option (fun _ => rfl) readsAs_path
  have hstrings := readsAs_option (fun _ => rfl) readsAs_strings
  rw [readOverride?, hfields]
  simp only [Option.bind_eq_bind, Option.bind_some, Option.pure_def]
  rw [hgiven.getD_eq (by decide) rfl (hpath o.command), Option.bind_some,
    hgiven.getD_eq (by decide) rfl (hstrings o.args), Option.bind_some,
    hgiven.getD_eq (by decide) rfl (hpath o.workingDir), Option.bind_some]
  rfl

def loggingOmitting (left : String → Bool) (l : Log.Settings) : Log.Settings :=
  let default : Log.Settings := {}
  { filter := if left "filter" then default.filter else l.filter
    format := if left "format" then default.format else l.format }

theorem readsAs_logging (left : String → Bool) (l : Log.Settings) :
    ReadsAs readLogging? ((loggingJson l).without left) (loggingOmitting left l) := by
  intro v hv
  obtain ⟨fields, hfields, hgiven⟩ := Fields.exists_givenBy_without _ hv
    (by decide : ["filter", "format"].Nodup)
  rw [readLogging?, hfields]
  simp only [Option.bind_eq_bind, Option.bind_some, Option.pure_def]
  rw [hgiven.getD_eq (by decide) rfl (readsAs_string l.filter), Option.bind_some,
    hgiven.getD_eq (by decide) rfl (readsAs_format l.format), Option.bind_some]
  rfl

theorem foldlM_addServer? {target : Language → Option ServerOverride}
    {members : List (String × Json)}
    (h : ∀ m ∈ members, ∃ language launch, m.1 = Language.name language ∧
      target language = some launch ∧ readOverride? (Source.ofJson m.2) = some launch)
    (servers : Language → Option ServerOverride) :
    ∃ servers', (Source.ofMembers members).foldlM addServer? servers = some servers' ∧
      ∀ l : Language, servers' l =
        if l.name ∈ members.map Prod.fst then target l else servers l := by
  induction members generalizing servers with
  | nil => exact ⟨servers, rfl, fun l => (if_neg List.not_mem_nil).symm⟩
  | cons member rest ih =>
    obtain ⟨language, launch, hname, htarget, hread⟩ := h member List.mem_cons_self
    have hadd : addServer? servers (member.1.toList.map .ofChar, Source.ofJson member.2) =
        some fun asked => if asked = language then some launch else servers asked := by
      rw [addServer?, Source.string?_text, hname, Option.bind_some,
        Language.ofName?_name, hread]
      rfl
    obtain ⟨servers', hrest, hlookup⟩ := ih (fun m hm => h m (List.mem_cons_of_mem _ hm))
      fun asked => if asked = language then some launch else servers asked
    refine ⟨servers', ?_, fun l => ?_⟩
    · rw [Source.ofMembers, List.foldlM_cons, hadd]
      exact hrest
    · have hhead : l.name = member.1 ↔ l = language :=
        hname ▸ ⟨Language.name_injective, congrArg _⟩
      simp only [hlookup l, List.map_cons, List.mem_cons, hhead]
      by_cases hmem : l.name ∈ rest.map Prod.fst
      · simp only [hmem, or_true, if_true]
      · by_cases hl : l = language
        · simp only [hl, true_or, if_true, htarget, ite_self]
        · simp only [hl, hmem, or_self, if_false]

def launches (servers : Language → Option ServerOverride) : List (String × Json) :=
  Language.all.filterMap fun l => (servers l).map fun o => (l.name, overrideJson o)

theorem mem_launches {servers : Language → Option ServerOverride} {m : String × Json} :
    m ∈ launches servers ↔ ∃ l o, servers l = some o ∧ m = (l.name, overrideJson o) := by
  simp only [launches, List.mem_filterMap, Option.map_eq_some_iff]
  constructor
  · rintro ⟨l, -, o, hl, rfl⟩
    exact ⟨l, o, hl, rfl⟩
  · rintro ⟨l, o, hl, rfl⟩
    exact ⟨l, l.mem_all, o, hl, rfl⟩

theorem name_mem_keys_launches {servers : Language → Option ServerOverride} {l : Language} :
    l.name ∈ (launches servers).map Prod.fst ↔ (servers l).isSome = true := by
  simp only [List.mem_map, mem_launches, Option.isSome_iff_exists]
  constructor
  · rintro ⟨_, ⟨l', o, hl', rfl⟩, hname⟩
    exact ⟨o, Language.name_injective hname ▸ hl'⟩
  · rintro ⟨o, hl⟩
    exact ⟨_, ⟨l, o, hl, rfl⟩, rfl⟩

theorem nodup_keys_launches (servers : Language → Option ServerOverride) :
    ((launches servers).map Prod.fst).Nodup := by
  rw [launches, List.map_filterMap]
  apply List.Nodup.filterMap _ (by decide : Language.all.Nodup)
  intro a b name ha hb
  simp only [Option.map_map, Option.mem_def, Option.map_eq_some_iff, Function.comp] at ha hb
  obtain ⟨_, _, ha⟩ := ha
  obtain ⟨_, _, hb⟩ := hb
  exact Language.name_injective (ha.trans hb.symm)

/-- The members of the table of overrides, without those of theirs that are left out. -/
def launchesWithout (left : String → String → Bool)
    (servers : Language → Option ServerOverride) : List (String × Json) :=
  (launches servers).map fun m => (m.1, m.2.without (left m.1))

theorem keys_launchesWithout (left : String → String → Bool)
    (servers : Language → Option ServerOverride) :
    (launchesWithout left servers).map Prod.fst = (launches servers).map Prod.fst := by
  rw [launchesWithout, List.map_map]
  rfl

theorem exists_of_mem_launchesWithout {left : String → String → Bool}
    {servers : Language → Option ServerOverride} {key : String} {value : Json}
    (h : (key, value) ∈ launchesWithout left servers) :
    ∃ l o, key = Language.name l ∧ servers l = some o ∧
      ReadsAs readOverride? value (overrideOmitting (left l.name) o) := by
  obtain ⟨written, hwritten, heq⟩ := List.mem_map.1 h
  obtain ⟨l, o, hl, rfl⟩ := mem_launches.1 hwritten
  obtain ⟨hname, hvalue⟩ := Prod.mk.inj heq
  exact ⟨l, o, hname.symm, hl, hvalue ▸ readsAs_override (left l.name) o⟩

theorem readsAs_servers (left : String → String → Bool)
    (servers : Language → Option ServerOverride) :
    ReadsAs readServers?
      ((serversJson servers).mapMembers fun language launch => launch.without (left language))
      fun l => (servers l).map (overrideOmitting (left l.name)) := by
  intro v hv
  have hkeys := keys_launchesWithout left servers
  have hnodup : ((launchesWithout left servers).map Prod.fst).Nodup :=
    hkeys ▸ nodup_keys_launches servers
  obtain ⟨members, rfl, hperm, hrel⟩ :=
    hv.exists_members (rfl : _ = Json.obj (launchesWithout left servers)) hnodup
  have htarget : ∀ m ∈ members, ∃ language launch, m.1 = Language.name language ∧
      (servers language).map (overrideOmitting (left language.name)) = some launch ∧
      readOverride? (Source.ofJson m.2) = some launch := by
    intro m hm
    obtain ⟨value, hmem, hvalue⟩ :=
      Rearranged.exists_mem_of_rel hnodup (hperm.nodup_iff.2 hnodup) hrel hm
    obtain ⟨l, o, hname, hl, hreads⟩ := exists_of_mem_launchesWithout hmem
    exact ⟨l, _, hname, by rw [hl, Option.map_some], hreads m.2 hvalue⟩
  obtain ⟨servers', hread, hlookup⟩ := foldlM_addServer? htarget fun _ => none
  rw [Source.ofJson, readServers?, hread]
  congr 1
  funext l
  rw [hlookup l]
  split
  · rfl
  · rename_i hnot
    rw [hperm.mem_iff, hkeys, name_mem_keys_launches, Option.not_isSome_iff_eq_none] at hnot
    rw [hnot, Option.map_none]

/-- Members left out of a document: of the whole, of its `logging`, and of the override of each
language, which is known by its name. -/
structure Omission where
  config : String → Bool
  logging : String → Bool
  servers : String → String → Bool

namespace Omission

def inMember (o : Omission) (key : String) (value : Json) : Json :=
  match key with
  | "servers" => value.mapMembers fun language launch => launch.without (o.servers language)
  | "logging" => value.without o.logging
  | _ => value

def apply (o : Omission) (document : Json) : Json :=
  (document.mapMembers o.inMember).without o.config

end Omission

/-- The configuration whose fields that are left out are at their defaults. -/
def omitting (o : Omission) (c : Config) : Config :=
  let default : Config := {}
  { servers :=
      if o.config "servers" then default.servers
      else fun l => (c.servers l).map (overrideOmitting (o.servers l.name))
    handshake := if o.config "handshake" then default.handshake else c.handshake
    completion := if o.config "completion" then default.completion else c.completion
    debounceMs := if o.config "debounce_ms" then default.debounceMs else c.debounceMs
    maxCompletions :=
      if o.config "max_completions" then default.maxCompletions else c.maxCompletions
    shutdownGraceMs :=
      if o.config "shutdown_grace_ms" then default.shutdownGraceMs else c.shutdownGraceMs
    inboxCapacity := if o.config "inbox_capacity" then default.inboxCapacity else c.inboxCapacity
    logging := if o.config "logging" then default.logging else loggingOmitting o.logging c.logging }

theorem readsAs_config (o : Omission) (c : Config) :
    ReadsAs ofSource? (o.apply c.json) (omitting o c) := by
  intro v hv
  obtain ⟨fields, hfields, hgiven⟩ := Fields.exists_givenBy_without _ hv
    (by decide : ["servers", "handshake", "completion", "debounce_ms", "max_completions",
      "shutdown_grace_ms", "inbox_capacity", "logging"].Nodup)
  rw [ofSource?, hfields]
  simp only [Option.bind_eq_bind, Option.bind_some, Option.pure_def]
  rw [hgiven.getD_eq (by decide) rfl (readsAs_servers o.servers c.servers), Option.bind_some,
    hgiven.getD_eq (by decide) rfl (readsAs_budget c.handshake), Option.bind_some,
    hgiven.getD_eq (by decide) rfl (readsAs_budget c.completion), Option.bind_some,
    hgiven.getD_eq (by decide) rfl (readsAs_uint64 c.debounceMs), Option.bind_some,
    hgiven.getD_eq (by decide) rfl (readsAs_uint64 c.maxCompletions), Option.bind_some,
    hgiven.getD_eq (by decide) rfl (readsAs_uint64 c.shutdownGraceMs), Option.bind_some,
    hgiven.getD_eq (by decide) rfl (readsAs_uint64 c.inboxCapacity), Option.bind_some,
    hgiven.getD_eq (by decide) rfl (readsAs_logging o.logging c.logging), Option.bind_some]
  rfl

theorem fits_jsonNat {n : Nat} (h : n < 1 <<< 64) (depth : Nat) :
    (jsonNat n).fits depth = true := by
  simp only [jsonNat, Json.fits, Bool.and_eq_true, decide_eq_true_eq]
  omega

theorem fits_override (o : ServerOverride) : (overrideJson o).fits 2 = true := by
  have hpath : ∀ p? : Option Path, (jsonOption jsonPath p?).fits 1 = true := by
    intro p?
    cases p? <;> simp [jsonOption, jsonPath, Json.fits]
  have hargs : (jsonOption (fun args => .arr (args.map .str)) o.args).fits 1 = true := by
    cases o.args with
    | none => simp [jsonOption, Json.fits]
    | some args => simp [jsonOption, Json.fits, Json.fitsItems_eq_all]
  simp [overrideJson, Json.fits, Json.fitsMembers, hpath, hargs]

theorem fits_json (c : Config) : c.json.fits 4 = true := by
  have hservers : (serversJson c.servers).fits 3 = true := by
    change (Json.obj (launches c.servers)).fits 3 = true
    rw [Json.fits, Json.fitsMembers_eq_all, List.all_eq_true]
    intro m hm
    obtain ⟨l, o, _, rfl⟩ := mem_launches.1 hm
    exact fits_override o
  have hword : ∀ n : UInt64, (jsonNat n.toNat).fits 3 = true :=
    fun n => fits_jsonNat n.toNat_lt 3
  have hbudget : ∀ b : PollBudget, (budgetJson b).fits 3 = true := by
    intro b
    have hattempts : b.attempts.toNat < 1 <<< 64 := by
      have := b.attempts.toNat_lt
      omega
    simp only [budgetJson, Json.fits, Json.fitsMembers, fits_jsonNat hattempts,
      fits_jsonNat b.intervalMs.toNat_lt, Bool.and_true]
  have hlogging : (loggingJson c.logging).fits 3 = true := by
    simp only [loggingJson, Json.fits, Json.fitsMembers, Bool.and_true]
  simp only [json, Json.fits, Json.fitsMembers, hservers, hbudget, hlogging, hword, Bool.and_true]

theorem fits_apply (o : Omission) {depth : Nat} {document : Json}
    (h : document.fits depth = true) : (o.apply document).fits depth = true := by
  apply Json.fits_without
  apply Json.fits_mapMembers h
  intro depth key value hvalue
  rw [Omission.inMember.eq_def]
  split
  · exact Json.fits_mapMembers hvalue fun _ _ _ hlaunch => Json.fits_without hlaunch _
  · exact Json.fits_without hvalue _
  · exact hvalue

theorem ofText?_apply (o : Omission) (c : Config) {document : Json}
    (h : document.Rearranged (o.apply c.json)) :
    ofText? document.render = some (omitting o c) := by
  have hfits : document.fits 4 = true := (h.fits_eq 4).trans (fits_apply o (fits_json c))
  rw [ofText?, Source.ofText?_render hfits]
  exact readsAs_config o c document h

def Omission.nothing : Omission :=
  ⟨fun _ => false, fun _ => false, fun _ _ => false⟩

theorem Omission.nothing_apply (document : Json) :
    Omission.nothing.apply document = document := by
  rw [apply, nothing, Json.without_false]
  apply Json.mapMembers_eq_self
  intro key value
  rw [inMember.eq_def]
  split
  · exact Json.mapMembers_eq_self (fun _ => Json.without_false) value
  · exact Json.without_false value
  · rfl

theorem omitting_nothing (c : Config) : omitting .nothing c = c := by
  have hservers : omitting .nothing c =
      { c with servers := fun l => (c.servers l).map fun o => o } := rfl
  simp only [hservers, Option.map_id']

/-- A configuration is read back from every text that writes it; where members are left out of
what is written, exactly the fields they stand for are at their defaults. -/
theorem ofText?_written (c : Config) :
    (∀ document : Json, document.Rearranged c.json → ofText? document.render = some c) ∧
      ∀ (o : Omission) (document : Json), document.Rearranged (o.apply c.json) →
        ofText? document.render = some (omitting o c) := by
  refine ⟨fun document h => ?_, fun o document h => ofText?_apply o c h⟩
  have h := ofText?_apply .nothing c ((Omission.nothing_apply c.json).symm ▸ h)
  rwa [omitting_nothing] at h

theorem ofText?_luau_only :
    let written : Config := {
      servers := fun l => if l = .luau then some { args := some ["lsp"] } else none
      completion := ⟨3, 10⟩
      debounceMs := 7
      logging := ⟨"debug", .json⟩ }
    let left : Omission := {
      config := fun key => key ∉ ["servers", "completion", "logging"]
      logging := fun key => key = "filter"
      servers := fun _ key => key ≠ "args" }
    let document : Json := .obj [
      ("logging", .obj [("format", .str "json")]),
      ("completion", .obj [("interval_ms", .int 10), ("attempts", .int 3)]),
      ("servers", .obj [("luau", .obj [("args", .arr [.str "lsp"])])])]
    document.Rearranged (left.apply written.json) ∧
      ofText? document.render =
        some { written with debounceMs := 50, logging := ⟨"info", .json⟩ } := by
  intro written left document
  have hmember : document.Rearranged (.obj [
      ("logging", .obj [("format", .str "json")]),
      ("completion", .obj [("attempts", .int 3), ("interval_ms", .int 10)]),
      ("servers", .obj [("luau", .obj [("args", .arr [.str "lsp"])])])]) :=
    .member [_] _ [_] (.perm (.swap _ _ _))
  have hdocument : document.Rearranged (left.apply written.json) :=
    hmember.trans (.perm (List.reverse_perm [_, _, _]))
  have hservers : (fun l => (written.servers l).map (overrideOmitting (left.servers l.name))) =
      written.servers := by
    funext l
    cases l <;> rfl
  refine ⟨hdocument, ((ofText?_written written).2 left document hdocument).trans ?_⟩
  exact congrArg (fun servers => some { written with
    servers, debounceMs := 50, logging := ⟨"info", .json⟩ }) hservers

end Config

end LanguageClient
