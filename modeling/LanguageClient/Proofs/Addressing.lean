import LanguageClient.Text.Utf8
import LanguageClient.Uri

namespace LanguageClient.Uri

/-- The characters of a URI: the scheme comes first, and there is no backslash and no space. -/
structure IsNormal (cs : List Char) : Prop where
  scheme_prefix : scheme <+: cs
  backslash_not_mem : '\\' ∉ cs
  space_not_mem : ' ' ∉ cs

/-- The text of an absolute path without characters that its URI would say otherwise. -/
structure IsPlain (text : String) : Prop where
  absolute : text.toList.head? = some '/'
  backslash_not_mem : '\\' ∉ text.toList
  percent_not_mem : '%' ∉ text.toList

def unescape : List Char → List Char
  | '%' :: '2' :: '0' :: rest => ' ' :: unescape rest
  | c :: rest => c :: unescape rest
  | [] => []

/-- What a URI says behind its scheme. -/
def pathText (uri : String) : String := String.ofList (unescape (uri.toList.drop scheme.length))

/-- The characters with the scheme in front. What stands behind a drive letter is what is left when
the first byte is cut off, which has to be a whole character. -/
def withScheme? : List Char → Option (List Char)
  | drive :: ':' :: rest =>
    if isAsciiLetter drive then
      (Utf8.cut? (drive :: ':' :: rest) 1).map fun parts =>
        scheme ++ '/' :: drive.toUpper :: parts.2
    else some (withScheme (drive :: ':' :: rest))
  | cs => some (withScheme cs)

/-- The `file` URI of a path's text, made by cutting bytes. -/
def ofText? (text : String) : Option String :=
  (withScheme? (text.toList.map toSlash)).map fun cs => String.ofList (cs.flatMap escapeSpace)

theorem toNat_lt_of_isAsciiLetter {c : Char} (h : isAsciiLetter c = true) : c.toNat < 128 := by
  simp only [isAsciiLetter, Bool.or_eq_true, Bool.and_eq_true, decide_eq_true_eq, Char.le_def,
    UInt32.le_iff_toNat_le] at h
  rcases h with ⟨_, hle⟩ | ⟨_, hle⟩
  · exact Nat.lt_of_le_of_lt hle (by decide)
  · exact Nat.lt_of_le_of_lt hle (by decide)

theorem cut?_of_isAsciiLetter {drive : Char} (h : isAsciiLetter drive = true) (rest : List Char) :
    Utf8.cut? (drive :: rest) 1 = some ([drive], rest) := by
  have hcut := Utf8.cut?_length_encode [drive] rest
  rwa [Utf8.encode_cons_of_lt (toNat_lt_of_isAsciiLetter h)] at hcut

theorem withScheme?_eq (cs : List Char) : withScheme? cs = some (withScheme cs) := by
  unfold withScheme?
  split
  · rename_i drive rest
    split
    · rename_i hdrive
      rw [cut?_of_isAsciiLetter hdrive, withScheme, if_pos hdrive]
      rfl
    · rfl
  · rfl

theorem ofText?_eq (text : String) : ofText? text = some (ofText text) := by
  rw [ofText?, withScheme?_eq, Option.map_some, ofText]

theorem scheme_prefix_withScheme (cs : List Char) : scheme <+: withScheme cs := by
  unfold withScheme
  split
  · split
    · exact List.prefix_append _ _
    · split
      · rename_i hprefix
        exact List.isPrefixOf_iff_prefix.1 hprefix
      · exact List.prefix_append _ _
  · split
    · rename_i hprefix
      exact List.isPrefixOf_iff_prefix.1 hprefix
    · exact List.prefix_append _ _

theorem withScheme_of_prefix {cs : List Char} (h : scheme <+: cs) : withScheme cs = cs := by
  obtain ⟨rest, rfl⟩ := h
  rfl

theorem toUpper_ne_backslash {c : Char} (h : isAsciiLetter c = true) : c.toUpper ≠ '\\' := by
  have hall : ∀ n < 128, isAsciiLetter (.ofNat n) = true → (Char.ofNat n).toUpper ≠ '\\' := by
    decide
  have hc := hall c.toNat (toNat_lt_of_isAsciiLetter h)
  rw [Char.ofNat_toNat] at hc
  exact hc h

theorem backslash_not_mem_withScheme {cs : List Char} (h : '\\' ∉ cs) : '\\' ∉ withScheme cs := by
  have hscheme : '\\' ∉ scheme := by decide
  have hprepend : '\\' ∉ scheme ++ cs := fun hmem => (List.mem_append.1 hmem).elim hscheme h
  unfold withScheme
  split
  · rename_i drive rest
    split
    · rename_i hdrive
      intro hmem
      rcases List.mem_append.1 hmem with hmem | hmem
      · exact hscheme hmem
      rcases List.mem_cons.1 hmem with hslash | hmem
      · exact absurd hslash (by decide)
      rcases List.mem_cons.1 hmem with hupper | hmem
      · exact toUpper_ne_backslash hdrive hupper.symm
      · exact h (List.mem_cons_of_mem _ hmem)
    · split
      · exact h
      · exact hprepend
  · split
    · exact h
    · exact hprepend

theorem backslash_not_mem_map_toSlash (cs : List Char) : '\\' ∉ cs.map toSlash := by
  intro hmem
  obtain ⟨c, _, hc⟩ := List.mem_map.1 hmem
  by_cases h : c = '\\'
  · rw [toSlash, if_pos h] at hc
    exact absurd hc (by decide)
  · rw [toSlash, if_neg h] at hc
    exact h hc

theorem mem_of_mem_escapeSpace {c d : Char} (h : d ∈ escapeSpace c) :
    d ≠ ' ' ∧ (d = c ∨ d ∈ ['%', '2', '0']) := by
  by_cases hc : c = ' '
  · rw [escapeSpace, if_pos hc] at h
    exact ⟨fun hd => absurd (hd ▸ h) (by decide), .inr h⟩
  · rw [escapeSpace, if_neg hc] at h
    obtain rfl := List.mem_singleton.1 h
    exact ⟨hc, .inl rfl⟩

theorem isNormal_toList_ofText (text : String) : IsNormal (ofText text).toList := by
  rw [ofText, String.toList_ofList]
  constructor
  case scheme_prefix =>
    obtain ⟨rest, hrest⟩ := scheme_prefix_withScheme (text.toList.map toSlash)
    rw [← hrest, List.flatMap_append]
    exact List.prefix_append scheme _
  case backslash_not_mem =>
    intro hmem
    obtain ⟨c, hc, hd⟩ := List.mem_flatMap.1 hmem
    rcases (mem_of_mem_escapeSpace hd).2 with rfl | hd
    · exact backslash_not_mem_withScheme (backslash_not_mem_map_toSlash text.toList) hc
    · exact absurd hd (by decide)
  case space_not_mem =>
    intro hmem
    obtain ⟨c, _, hd⟩ := List.mem_flatMap.1 hmem
    exact (mem_of_mem_escapeSpace hd).1 rfl

theorem flatMap_escapeSpace_of_not_mem {cs : List Char} (h : ' ' ∉ cs) :
    cs.flatMap escapeSpace = cs := by
  induction cs with
  | nil => rfl
  | cons c cs ih =>
    rw [List.mem_cons, not_or] at h
    have hc : escapeSpace c = [c] := if_neg fun he => h.1 he.symm
    rw [List.flatMap_cons, hc, ih h.2]
    rfl

theorem map_toSlash_of_not_mem {cs : List Char} (h : '\\' ∉ cs) : cs.map toSlash = cs := by
  induction cs with
  | nil => rfl
  | cons c cs ih =>
    rw [List.mem_cons, not_or] at h
    have hc : toSlash c = c := if_neg fun he => h.1 he.symm
    rw [List.map_cons, hc, ih h.2]

/-- The texts in the normal form are their own URIs, and no others are. -/
theorem ofText_eq_self_iff {text : String} : ofText text = text ↔ IsNormal text.toList := by
  constructor
  · intro h
    rw [← h]
    exact isNormal_toList_ofText text
  · intro h
    rw [ofText, map_toSlash_of_not_mem h.backslash_not_mem, withScheme_of_prefix h.scheme_prefix,
      flatMap_escapeSpace_of_not_mem h.space_not_mem, String.ofList_toList]

theorem unescape_cons {c : Char} (h : c ≠ '%') (rest : List Char) :
    unescape (c :: rest) = c :: unescape rest := by
  rw [unescape]
  rintro rest rfl
  exact absurd rfl h

theorem unescape_flatMap_escapeSpace {cs : List Char} (h : '%' ∉ cs) :
    unescape (cs.flatMap escapeSpace) = cs := by
  induction cs with
  | nil => rfl
  | cons c cs ih =>
    rw [List.mem_cons, not_or] at h
    rw [List.flatMap_cons]
    by_cases hspace : c = ' '
    · subst hspace
      change ' ' :: unescape (cs.flatMap escapeSpace) = ' ' :: cs
      rw [ih h.2]
    · have hc : escapeSpace c = [c] := if_neg hspace
      rw [hc, List.singleton_append, unescape_cons (fun he => h.1 he.symm), ih h.2]

theorem ofText_of_isPlain {text : String} (h : IsPlain text) :
    ofText text = String.ofList (scheme ++ text.toList.flatMap escapeSpace) := by
  obtain ⟨rest, hrest⟩ := List.head?_eq_some_iff.1 h.absolute
  have hscheme : withScheme ('/' :: rest) = scheme ++ '/' :: rest := by
    cases rest with
    | nil => rfl
    | cons c rest =>
      by_cases hc : c = ':'
      · subst hc
        rfl
      · rw [withScheme]
        · rfl
        · rintro _ _ ⟨⟩
          exact hc rfl
  rw [ofText, map_toSlash_of_not_mem h.backslash_not_mem, hrest, hscheme, List.flatMap_append]
  rfl

theorem pathText_ofText {text : String} (h : IsPlain text) : pathText (ofText text) = text := by
  rw [ofText_of_isPlain h, pathText, String.toList_ofList, List.drop_left,
    unescape_flatMap_escapeSpace h.percent_not_mem, String.ofList_toList]

/-- What the URI of a text is like, and how a plain path stands in it. -/
structure Addresses (text uri : String) : Prop where
  /-- No character is cut in two. -/
  made : ofText? text = some uri
  normal : IsNormal uri.toList
  fixed : ofText uri = uri
  path_eq (h : IsPlain text) : pathText uri = text
  eq_of_ofText_eq {other : String} (h : IsPlain text) (hother : IsPlain other)
    (heq : ofText other = uri) : other = text

/-- Every text has a URI in the normal form, which is its own URI, and no two plain paths have the
same one. -/
theorem addresses_ofText (text : String) : Addresses text (ofText text) where
  made := ofText?_eq text
  normal := isNormal_toList_ofText text
  fixed := ofText_eq_self_iff.2 (isNormal_toList_ofText text)
  path_eq h := pathText_ofText h
  eq_of_ofText_eq h hother heq := by
    rw [← pathText_ofText hother, heq, pathText_ofText h]

example : ofText "c:\\My Game\\é.luau" = "file:///C:/My%20Game/é.luau" := by decide

end LanguageClient.Uri
