import LanguageClient.Proofs.Cleaning
import LanguageClient.Proofs.Slicing

namespace LanguageClient.Suggest.Snippet

open Decimal (isDigit)
open Document (IsBoundary)
open Utf8

/-- A text that is scanned in place, and the offset from which the next turn looks on. -/
structure Sweep where
  text : String
  pos : Nat

inductive Move where
  | finish
  | keep (dollar : Nat)
  /-- What stands between two offsets gives way to a text, and the scan goes on with that. -/
  | replace (start stop : Nat) (text : List Char)
  deriving DecidableEq

/-- What stands between the first colon of a placeholder and its closing brace. -/
def defaultAt (text : String) (dollar brace : Nat) : List Char :=
  (((slice? text dollar brace).bind (find? ':')).bind fun colon =>
    slice? text (dollar + colon + 1) brace).getD []

/-- A placeholder gives way to its default; without a closing brace only its beginning goes. -/
def placeholderAt (text : String) (dollar : Nat) : Move :=
  match (rest? text dollar).bind (find? '}') with
  | none => .replace dollar (dollar + 2) []
  | some close => .replace dollar (dollar + close + 1) (defaultAt text dollar (dollar + close))

def tabStopAt (text : String) (dollar : Nat) : Move :=
  let digits := (((encode text.toList).drop (dollar + 1)).takeWhile Bytes.isDigit).length
  .replace dollar (dollar + digits + 1) []

/-- A command goes; without a closing parenthesis only its beginning does. -/
def commandAt (text : String) (dollar : Nat) : Move :=
  match (rest? text dollar).bind (find? ')') with
  | some close => .replace dollar (dollar + close + 1) []
  | none => .replace dollar (dollar + 2) []

def moveAt (text : String) (dollar : Nat) : Move :=
  match (encode text.toList)[dollar + 1]? with
  | none => .finish
  | some next =>
    if next = byte '{' then placeholderAt text dollar
    else if Bytes.isDigit next then tabStopAt text dollar
    else if next = byte '(' then commandAt text dollar
    else .keep dollar

inductive Outcome where
  | ended
  /-- The turn was to replace a range that does not consist of whole characters of the text. -/
  | failed
  | went (s : Sweep)

/-- A move whose offsets lie in a text, in order and on character boundaries. -/
def Move.Whole (text : String) : Move → Prop
  | finish => True
  | keep dollar => IsBoundary text dollar
  | replace start stop _ =>
    start ≤ stop ∧ stop ≤ text.utf8ByteSize ∧ IsBoundary text start ∧ IsBoundary text stop

def Move.perform (text : String) : Move → Outcome
  | finish => .ended
  | keep dollar => .went ⟨text, dollar + 1⟩
  | replace start stop new =>
    match splice? text start stop new with
    | none => .failed
    | some text => .went ⟨text, start⟩

namespace Sweep

def move (s : Sweep) : Move :=
  match (rest? s.text s.pos).bind (find? '$') with
  | none => .finish
  | some found => moveAt s.text (s.pos + found)

def step (s : Sweep) : Outcome := s.move.perform s.text

def room (s : Sweep) : Nat := s.text.utf8ByteSize - s.pos

/-- A scan that has put one text behind it and has another ahead. -/
def between (before ahead : List Char) : Sweep :=
  ⟨String.ofList (before ++ ahead), (encode before).length⟩

end Sweep

/-- What is done with a dollar sign, said of the text before it and the text that it begins. -/
inductive Acts (before : List Char) : List Char → Move → Prop where
  | finish : Acts before ['$'] .finish
  | keep {next : Char} {more : List Char} (h : opens next = false) :
      Acts before ('$' :: next :: more) (.keep (encode before).length)
  | replace {gone new after : List Char} (h : Turn (gone ++ after) [] (new ++ after)) :
      Acts before (gone ++ after)
        (.replace (encode before).length (encode (before ++ gone)).length new)

/-- What a turn does with the text ahead of it. -/
inductive Moves (before : List Char) : List Char → Move → Prop where
  | finish {ahead : List Char} (h : '$' ∉ ahead) : Moves before ahead .finish
  | act {skipped ahead : List Char} {move : Move} (hskipped : '$' ∉ skipped)
      (h : Acts (before ++ skipped) ahead move) : Moves before (skipped ++ ahead) move

section

variable {before ahead : List Char} {next : Char} {move : Move}

theorem getElem?_dollar (before : List Char) {b : UInt8} {bytes : Bytes}
    (h : String.utf8EncodeChar next = b :: bytes) (more : List Char) :
    (encode (before ++ '$' :: next :: more))[(encode before).length + 1]? = some b := by
  rw [encode_append, List.getElem?_append_right (Nat.le_add_right _ _),
    Nat.add_sub_cancel_left, encode_cons_of_lt (by decide), List.getElem?_cons_succ, encode,
    List.flatMap_cons, h]
  rfl

theorem find?_form {c opener : Char} (hdollar : '$' ≠ c) (hopener : opener ≠ c) (more : List Char) :
    find? c ('$' :: opener :: more) =
      (splitAt? c more).map fun p => (encode ('$' :: opener :: p.1)).length := by
  rw [find?, splitAt?, if_neg hdollar, splitAt?, if_neg hopener, Option.map_map, Option.map_map]
  rfl

theorem defaultAt_eq (before inside after : List Char) :
    defaultAt (String.ofList (before ++ '$' :: '{' :: inside ++ after)) (encode before).length
      (encode (before ++ '$' :: '{' :: inside)).length = defaultText inside := by
  rw [defaultAt, slice?_ofList, Option.bind_some, find?_form (by decide) (by decide), defaultText]
  cases hsplit : splitAt? ':' inside with
  | none => rfl
  | some parts =>
    obtain ⟨name, content⟩ := parts
    have htext : before ++ '$' :: '{' :: inside =
        before ++ '$' :: '{' :: name ++ [':'] ++ content := by simp [eq_of_splitAt? hsplit]
    have hstart : (encode before).length + (encode ('$' :: '{' :: name)).length + 1 =
        (encode (before ++ '$' :: '{' :: name ++ [':'])).length := by
      rw [length_encode_append, length_encode_append]
      rfl
    rw [Option.map_some, Option.bind_some, hstart, htext, slice?_ofList]
    rfl

theorem Acts.replace_of_length (before : List Char) {gone new after : List Char} {length : Nat}
    (h : Turn (gone ++ after) [] (new ++ after)) (hlength : (encode gone).length = length) :
    Acts before (gone ++ after)
      (.replace (encode before).length ((encode before).length + length) new) := by
  subst hlength
  rw [← length_encode_append]
  exact .replace h

theorem acts_placeholderAt (before more : List Char) :
    Acts before ('$' :: '{' :: more)
      (placeholderAt (String.ofList (before ++ '$' :: '{' :: more)) (encode before).length) := by
  rw [placeholderAt, rest?_ofList, Option.bind_some, find?_form (by decide) (by decide)]
  cases hsplit : splitAt? '}' more with
  | none =>
    have hturn : Turn (['$', '{'] ++ more) [] ([] ++ more) := .brace (splitAt?_eq_none_iff.1 hsplit)
    exact .replace_of_length before hturn rfl
  | some parts =>
    obtain ⟨inside, after⟩ := parts
    obtain rfl := eq_of_splitAt? hsplit
    have hturn : Turn ('$' :: '{' :: inside ++ ['}'] ++ after) [] (defaultText inside ++ after) := by
      rw [List.append_assoc]
      exact .placeholder (not_mem_of_splitAt? hsplit)
    have hacts := Acts.replace_of_length before hturn
      (length_encode_append ('$' :: '{' :: inside) ['}'])
    have hdefault := defaultAt_eq before inside ('}' :: after)
    rw [length_encode_append, List.append_assoc] at hdefault
    rw [← hdefault, List.append_assoc] at hacts
    exact hacts

theorem acts_commandAt (before more : List Char) :
    Acts before ('$' :: '(' :: more)
      (commandAt (String.ofList (before ++ '$' :: '(' :: more)) (encode before).length) := by
  rw [commandAt, rest?_ofList, Option.bind_some, find?_form (by decide) (by decide)]
  cases hsplit : splitAt? ')' more with
  | none =>
    have hturn : Turn (['$', '('] ++ more) [] ([] ++ more) :=
      .parenthesis (splitAt?_eq_none_iff.1 hsplit)
    exact .replace_of_length before hturn rfl
  | some parts =>
    obtain ⟨inside, after⟩ := parts
    obtain rfl := eq_of_splitAt? hsplit
    have hturn : Turn ('$' :: '(' :: inside ++ [')'] ++ after) [] ([] ++ after) := by
      rw [List.append_assoc]
      exact .command (not_mem_of_splitAt? hsplit)
    have hacts := Acts.replace_of_length before hturn
      (length_encode_append ('$' :: '(' :: inside) [')'])
    rw [List.append_assoc] at hacts
    exact hacts

theorem acts_tabStopAt (before : List Char) (h : isDigit next = true) (more : List Char) :
    Acts before ('$' :: next :: more)
      (tabStopAt (String.ofList (before ++ '$' :: next :: more)) (encode before).length) := by
  have hsplit := List.takeWhile_append_dropWhile (p := isDigit) (l := more)
  have hdrop : (encode (before ++ '$' :: next :: more)).drop ((encode before).length + 1) =
      encode (next :: more) := by
    rw [encode_append, List.drop_append, encode_cons_of_lt (by decide)]
    simp
  have hturn : Turn ('$' :: next :: more.takeWhile isDigit ++ more.dropWhile isDigit) []
      ([] ++ more.dropWhile isDigit) := by
    refine .tabStop h ?_ ?_
    · intro c hc
      exact of_mem_takeWhile hc
    · intro c hc
      exact not_of_head?_dropWhile hc
  have hacts := Acts.replace_of_length before hturn
    (congrArg List.length (encode_cons_of_lt (by decide) _))
  rw [List.cons_append, List.cons_append, hsplit] at hacts
  rw [tabStopAt, String.toList_ofList, hdrop, takeWhile_isDigit_encode,
    List.takeWhile_cons_of_pos h]
  exact hacts

theorem acts_moveAt (before rest : List Char) :
    Acts before ('$' :: rest)
      (moveAt (String.ofList (before ++ '$' :: rest)) (encode before).length) := by
  rw [moveAt, String.toList_ofList]
  cases rest with
  | nil =>
    have hnone : (encode (before ++ ['$']))[(encode before).length + 1]? = none := by
      rw [List.getElem?_eq_none_iff, length_encode_append]
      exact Nat.le_refl _
    rw [hnone]
    exact .finish
  | cons next more =>
    obtain ⟨b, bytes, hbytes, hlead, hdigit⟩ := exists_lead next
    rw [getElem?_dollar before hbytes more]
    dsimp only
    by_cases hbrace : next = '{'
    · subst hbrace
      rw [if_pos ((hlead '{' (by decide)).2 rfl)]
      exact acts_placeholderAt before more
    rw [if_neg (mt (hlead '{' (by decide)).1 hbrace), hdigit]
    by_cases hnumber : isDigit next = true
    · rw [if_pos hnumber]
      exact acts_tabStopAt before hnumber more
    rw [if_neg hnumber]
    by_cases hparenthesis : next = '('
    · subst hparenthesis
      rw [if_pos ((hlead '(' (by decide)).2 rfl)]
      exact acts_commandAt before more
    rw [if_neg (mt (hlead '(' (by decide)).1 hparenthesis)]
    refine .keep ?_
    simp [opens, hbrace, hnumber, hparenthesis]

theorem moves_between (before ahead : List Char) :
    Moves before ahead (Sweep.between before ahead).move := by
  rw [Sweep.move, Sweep.between, rest?_ofList, Option.bind_some]
  cases hsplit : splitAt? '$' ahead with
  | none =>
    have hnone := splitAt?_eq_none_iff.1 hsplit
    rw [find?_eq_none hnone]
    exact .finish hnone
  | some parts =>
    obtain ⟨skipped, rest⟩ := parts
    obtain rfl := eq_of_splitAt? hsplit
    have hskipped := not_mem_of_splitAt? hsplit
    rw [find?_append hskipped]
    dsimp only
    rw [← length_encode_append, ← List.append_assoc]
    exact .act hskipped (acts_moveAt (before ++ skipped) rest)

example : (Sweep.mk "caf\u00e9$\x7b1:\u00f1\x7d" 0).move = .replace 5 12 ['\u00f1'] := by
  decide +kernel

theorem Acts.whole (h : Acts before ahead move) :
    move.Whole (String.ofList (before ++ ahead)) := by
  cases h with
  | finish => trivial
  | keep => exact isBoundary_ofList before _
  | @replace gone _ after =>
    have hstop := isBoundary_ofList (before ++ gone) after
    rw [List.append_assoc] at hstop
    refine ⟨?_, hstop.le, isBoundary_ofList before (gone ++ after), hstop⟩
    exact length_encode_le (List.sublist_append_left before gone)

/-- At a dollar sign the scan ends, or it takes one turn in place. -/
theorem Acts.performs (h : Acts before ahead move) :
    (move.perform (String.ofList (before ++ ahead)) = .ended ∧ expand ahead = ahead) ∨
      ∃ out rest, Turn ahead out rest ∧
        move.perform (String.ofList (before ++ ahead)) = .went (.between (before ++ out) rest) := by
  cases h with
  | finish =>
    left
    rw [Turn.last.expand_eq, expand]
    exact ⟨rfl, rfl⟩
  | @keep next more hnext =>
    right
    refine ⟨_, _, .dollar hnext, ?_⟩
    rw [Move.perform, Sweep.between, length_encode_append, List.append_assoc]
    rfl
  | @replace gone new after hturn =>
    right
    refine ⟨_, _, hturn, ?_⟩
    rw [Move.perform, ← List.append_assoc, splice?_ofList, List.append_nil, Sweep.between,
      ← List.append_assoc]

namespace Sweep

theorem text_between_append (before skipped ahead : List Char) :
    (between before (skipped ++ ahead)).text = String.ofList (before ++ skipped ++ ahead) := by
  rw [between, List.append_assoc]

/-- A turn ends the scan only where there is nothing left to do, and never fails. -/
theorem step_between (before ahead : List Char) :
    ((between before ahead).step = .ended ∧ expand ahead = ahead) ∨
      ∃ out rest, Scans ahead out rest ∧ rest.length < ahead.length ∧
        (between before ahead).step = .went (between (before ++ out) rest) := by
  have hmoves := moves_between before ahead
  rw [step]
  generalize (between before ahead).move = move at hmoves
  cases hmoves with
  | finish hnone =>
    left
    exact ⟨rfl, expand_of_not_mem hnone⟩
  | @act skipped ahead _ hskipped hacts =>
    have hscans := scans_of_not_mem hskipped ahead
    rw [text_between_append]
    rcases hacts.performs with ⟨hended, hself⟩ | ⟨out, rest, hturn, hwent⟩
    · left
      rw [hscans.expand_eq, hself]
      exact ⟨hended, rfl⟩
    · right
      rw [List.append_assoc before skipped out] at hwent
      refine ⟨_, _, hscans.turn hturn, ?_, hwent⟩
      have hlt := hturn.length_lt
      rw [List.length_append]
      omega

variable {s' : Sweep}

theorem expand_of_ended (h : (between before ahead).step = .ended) : expand ahead = ahead := by
  rcases step_between before ahead with ⟨_, hself⟩ | ⟨_, _, _, _, hwent⟩
  · exact hself
  · rw [hwent] at h
    cases h

theorem step_ne_failed (before ahead : List Char) : (between before ahead).step ≠ .failed := by
  intro h
  rcases step_between before ahead with ⟨hended, _⟩ | ⟨_, _, _, _, hwent⟩
  · rw [hended] at h
    cases h
  · rw [hwent] at h
    cases h

theorem exists_scans_of_went (h : (between before ahead).step = .went s') :
    ∃ out rest, Scans ahead out rest ∧ rest.length < ahead.length ∧
      s' = between (before ++ out) rest := by
  rcases step_between before ahead with ⟨hended, _⟩ | ⟨out, rest, hscans, hlt, hwent⟩
  · rw [hended] at h
    cases h
  · rw [hwent] at h
    cases h
    exact ⟨out, rest, hscans, hlt, rfl⟩

end Sweep

end

section

variable {before ahead : List Char} {s s' : Sweep}

namespace Sweep

theorem between_nil (text : String) : between [] text.toList = ⟨text, 0⟩ := by
  rw [between, List.nil_append, String.ofList_toList]
  rfl

theorem room_between (before ahead : List Char) :
    (between before ahead).room = (encode ahead).length := by
  rw [room, between, ← length_encode, length_encode_append, Nat.add_sub_cancel_left]

theorem exists_between (h : s.move ≠ .finish) : ∃ before ahead, s = between before ahead := by
  cases hcut : cut? s.text.toList s.pos with
  | none =>
    rw [move, rest?, hcut] at h
    exact absurd rfl h
  | some parts =>
    obtain ⟨before, ahead⟩ := parts
    refine ⟨before, ahead, ?_⟩
    rw [between, cut?_append hcut, encode_take_of_cut? hcut, String.ofList_toList]

/-- A turn goes on over bytes or deletes some, so fewer are ahead of the next one. -/
theorem room_lt (h : s.step = .went s') : s'.room < s.room := by
  have hmove : s.move ≠ .finish := by
    intro hfinish
    rw [step, hfinish] at h
    cases h
  obtain ⟨before, ahead, rfl⟩ := exists_between hmove
  obtain ⟨out, rest, hscans, hlt, rfl⟩ := exists_scans_of_went h
  rw [room_between, room_between]
  exact length_encode_lt ((List.sublist_append_right out rest).trans hscans.sublist) hlt

set_option linter.unusedVariables false in
def run? (s : Sweep) : Option String :=
  match h : s.step with
  | .ended => some s.text
  | .failed => none
  | .went s' => s'.run?
termination_by s.room
decreasing_by exact room_lt h

theorem run?_eq (h : s = between before ahead) :
    s.run? = some (String.ofList (before ++ expand ahead)) := by
  -- A turn moves what it puts out behind the position, so the text in the end stays the same.
  fun_induction run? s generalizing before ahead with
  | case1 s hended =>
    subst h
    rw [expand_of_ended hended, between]
  | case2 s hfailed =>
    subst h
    exact absurd hfailed (step_ne_failed before ahead)
  | case3 s s' hwent ih =>
    subst h
    obtain ⟨out, rest, hscans, _, hs'⟩ := exists_scans_of_went hwent
    rw [ih hs', hscans.expand_eq, List.append_assoc]

end Sweep

/-- The text that a scan in place leaves, up to and including its first opening parenthesis. -/
def plainInPlace? (text : String) : Option String := do
  let scanned ← Sweep.run? ⟨text, 0⟩
  match find? '(' scanned.toList with
  | some parenthesis => truncate? scanned (parenthesis + 1)
  | none => return scanned

theorem plainInPlace?_eq (text : String) : plainInPlace? text = some (plain text) := by
  rw [plainInPlace?, Sweep.run?_eq (Sweep.between_nil text).symm, List.nil_append, plain]
  dsimp only [Option.bind_eq_bind, Option.bind_some]
  rw [String.toList_ofList]
  cases hsplit : splitAt? '(' (expand text.toList) with
  | none =>
    have hnone := splitAt?_eq_none_iff.1 hsplit
    rw [find?_eq_none hnone, cutCall_of_not_mem hnone]
    rfl
  | some parts =>
    obtain ⟨before, after⟩ := parts
    have hbefore := not_mem_of_splitAt? hsplit
    rw [eq_of_splitAt? hsplit, find?_append hbefore, cutCall_append hbefore]
    have htruncate := truncate?_ofList (before ++ ['(']) after
    rw [length_encode_append, List.append_assoc] at htruncate
    exact htruncate

/-- A scan in place from whose position on the next turn is safe. -/
structure Sweep.InBounds (s : Sweep) : Prop where
  pos_le : s.pos ≤ s.text.utf8ByteSize
  isBoundary_pos : IsBoundary s.text s.pos
  whole : s.move.Whole s.text
  not_failed : s.step ≠ .failed

theorem Sweep.inBounds_between (before ahead : List Char) : (between before ahead).InBounds where
  pos_le := (isBoundary_ofList before ahead).le
  isBoundary_pos := isBoundary_ofList before ahead
  whole := by
    have hmoves := moves_between before ahead
    generalize (between before ahead).move = move at hmoves ⊢
    cases hmoves with
    | finish => trivial
    | act _ hacts =>
      rw [text_between_append]
      exact hacts.whole
  not_failed := step_ne_failed before ahead

/-- Where a scan in place comes by after a number of turns. -/
inductive Reaches (text : String) : Nat → Sweep → Prop where
  | start : Reaches text 0 ⟨text, 0⟩
  | turn {n : Nat} {s s' : Sweep} (h : Reaches text n s) (hstep : s.step = .went s') :
      Reaches text (n + 1) s'

namespace Reaches

variable {text : String} {n : Nat}

theorem exists_scans (h : Reaches text n s) :
    ∃ out rest, Scans text.toList out rest ∧ s = .between out rest := by
  induction h with
  | start => exact ⟨[], text.toList, .start, (Sweep.between_nil text).symm⟩
  | turn _ hstep ih =>
    obtain ⟨before, ahead, hscans, rfl⟩ := ih
    obtain ⟨out, rest, hmore, _, rfl⟩ := Sweep.exists_scans_of_went hstep
    exact ⟨before ++ out, rest, hscans.trans hmore, rfl⟩

theorem add_room_le (h : Reaches text n s) : n + s.room ≤ text.utf8ByteSize := by
  induction h with
  | start => exact Nat.le_of_eq (Nat.zero_add _)
  | turn _ hstep ih =>
    have hlt := Sweep.room_lt hstep
    omega

theorem inBounds (h : Reaches text n s) : s.InBounds := by
  obtain ⟨out, rest, _, rfl⟩ := h.exists_scans
  exact Sweep.inBounds_between out rest

theorem exists_ended (h : Reaches text n s) : ∃ m t, Reaches text m t ∧ t.step = .ended := by
  fun_induction Sweep.run? s generalizing n with
  | case1 s hended => exact ⟨n, s, h, hended⟩
  | case2 s hfailed => exact absurd hfailed h.inBounds.not_failed
  | case3 s s' hwent ih => exact ih (h.turn hwent)

end Reaches

/-- A text whose scan in place comes to an end, every turn on the way in bounds, and leaves the
plain text, which is a part of it. -/
structure SweepsWhole (text : String) : Prop where
  ends : ∃ n s, Reaches text n s ∧ s.step = .ended
  turns_le {n : Nat} {s : Sweep} (h : Reaches text n s) : n ≤ text.utf8ByteSize
  inBounds {n : Nat} {s : Sweep} (h : Reaches text n s) : s.InBounds
  deletes {n : Nat} {s : Sweep} (h : Reaches text n s) : s.text.toList.Sublist text.toList
  leaves_plain : plainInPlace? text = some (plain text)
  plain_sublist : (plain text).toList.Sublist text.toList
  plain_size_le : (plain text).utf8ByteSize ≤ text.utf8ByteSize
  plain_eq_self (hdollar : '$' ∉ text.toList) (hcall : '(' ∉ text.toList) : plain text = text

/-- Every text is scanned in place to its end, with no more turns than it has bytes. -/
theorem sweepsWhole (text : String) : SweepsWhole text := by
  have hsublist : (plain text).toList.Sublist text.toList := by
    rw [toList_plain]
    exact (cutCall_sublist _).trans (expand_sublist _)
  constructor
  case ends => exact Reaches.start.exists_ended
  case turns_le =>
    intro n s h
    have hroom := h.add_room_le
    omega
  case inBounds =>
    intro n s h
    exact h.inBounds
  case deletes =>
    intro n s h
    obtain ⟨out, rest, hscans, rfl⟩ := h.exists_scans
    rw [Sweep.between, String.toList_ofList]
    exact hscans.sublist
  case leaves_plain => exact plainInPlace?_eq text
  case plain_sublist => exact hsublist
  case plain_size_le =>
    have hlength := length_encode_le hsublist
    rwa [length_encode, length_encode, String.ofList_toList, String.ofList_toList]
      at hlength
  case plain_eq_self =>
    intro hdollar hcall
    rw [← String.toList_inj, toList_plain, expand_of_not_mem hdollar, cutCall_of_not_mem hcall]

end

end LanguageClient.Suggest.Snippet
