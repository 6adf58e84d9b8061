import LanguageClient.Proofs.Runs
import LanguageClient.Settings.Flags
import Mathlib.Data.List.TakeWhile

namespace LanguageClient

namespace Options

theorem inlineValue?_eq_none_iff {argument : String} :
    inlineValue? argument = none ↔ '=' ∉ argument.toList := by
  have hhead (c : Char) (h : c ∈ (argument.toList.dropWhile (· ≠ '=')).head?) : c = '=' := by
    simpa using not_of_head?_dropWhile h
  rw [inlineValue?]
  cases hrest : argument.toList.dropWhile (· ≠ '=') with
  | nil =>
    refine iff_of_true rfl fun hmem => ?_
    have hne := List.dropWhile_eq_nil_iff.1 hrest '=' hmem
    simp at hne
  | cons c value =>
    rw [hrest] at hhead
    obtain rfl := hhead c rfl
    refine iff_of_false (Option.some_ne_none _) (not_not_intro ?_)
    apply (List.dropWhile_sublist (· ≠ '=')).subset
    rw [hrest]
    exact List.mem_cons_self

theorem flagOf_append {flag : String} (h : '=' ∉ flag.toList) (value : String) :
    flagOf (flag ++ "=" ++ value) = flag := by
  have hflag (c : Char) (hc : c ∈ flag.toList) : decide (c ≠ '=') = true :=
    decide_eq_true fun he => h (he ▸ hc)
  rw [flagOf, String.toList_append, String.toList_append, List.append_assoc,
    List.takeWhile_append_of_pos hflag]
  change String.ofList (flag.toList ++ []) = flag
  rw [List.append_nil, String.ofList_toList]

theorem flagOf_of_not_mem {argument : String} (h : '=' ∉ argument.toList) :
    flagOf argument = argument := by
  have hall (c : Char) (hc : c ∈ argument.toList) : decide (c ≠ '=') = true :=
    decide_eq_true fun he => h (he ▸ hc)
  rw [flagOf, List.takeWhile_eq_self_iff.2 hall, String.ofList_toList]

theorem flagOf_append_inlineValue? {argument value : String}
    (h : inlineValue? argument = some value) : argument = flagOf argument ++ "=" ++ value := by
  rw [inlineValue?] at h
  split at h
  · rename_i rest hrest
    cases h
    have hparts := List.takeWhile_append_dropWhile (p := (· ≠ '=')) (l := argument.toList)
    rw [hrest] at hparts
    apply String.toList_injective
    simp only [String.toList_append, flagOf, String.toList_ofList, List.append_assoc]
    exact hparts.symm
  · cases h

end Options

namespace Settings

/-- An argument that is a flag of the settings: its name, alone or with a value behind an equals
sign. -/
def WritesFlag (argument : String) : Prop :=
  ∃ flag ∈ flags, argument = flag ∨ ∃ value, argument = flag ++ "=" ++ value

theorem isFlag_iff {argument : String} : isFlag argument = true ↔ WritesFlag argument := by
  have hplain : ∀ flag ∈ flags, '=' ∉ flag.toList := by decide
  rw [isFlag, List.contains_iff_mem]
  constructor
  · intro hmem
    refine ⟨Options.flagOf argument, hmem, ?_⟩
    cases hvalue : Options.inlineValue? argument with
    | none =>
      exact .inl (Options.flagOf_of_not_mem (Options.inlineValue?_eq_none_iff.1 hvalue)).symm
    | some value => exact .inr ⟨value, Options.flagOf_append_inlineValue? hvalue⟩
  · rintro ⟨flag, hmem, rfl | ⟨value, rfl⟩⟩
    · rwa [Options.flagOf_of_not_mem (hplain _ hmem)]
    · rwa [Options.flagOf_append (hplain flag hmem)]

section

variable {α : Type} (text : α → String)

/-- Flags with their values: each is written behind its flag, or it is the next argument, whatever
that looks like. -/
inductive FlagRun : List α → Prop where
  | nil : FlagRun []
  | inline {flag : α} {rest : List α} (hflag : WritesFlag (text flag))
      (hvalue : '=' ∈ (text flag).toList) (hrest : FlagRun rest) : FlagRun (flag :: rest)
  | separate {flag value : α} {rest : List α} (hflag : WritesFlag (text flag))
      (hbare : '=' ∉ (text flag).toList) (hrest : FlagRun rest) : FlagRun (flag :: value :: rest)

/-- Flags with their values but for the last one, whose value is missing. -/
def LacksValue (arguments : List α) : Prop :=
  ∃ run flag, arguments = run ++ [flag] ∧ FlagRun text run ∧ WritesFlag (text flag) ∧
    '=' ∉ (text flag).toList

/-- The flags and the command that arguments are. -/
structure Splits (arguments flags command : List α) : Prop where
  lossless : flags ++ command = arguments
  /-- A value is missing only where the arguments end. -/
  wellFormed : FlagRun text flags ∨ LacksValue text flags ∧ command = []
  maximal : ∀ argument ∈ command.head?, ¬ WritesFlag (text argument)

variable {text}

theorem leading_of_not_writesFlag {command : List α}
    (h : ∀ argument ∈ command.head?, ¬ WritesFlag (text argument)) :
    leading text command = ([], command) := by
  cases command with
  | nil => rfl
  | cons argument rest =>
    have hflag : isFlag (text argument) = false :=
      Bool.eq_false_iff.2 fun hflag => h argument rfl (isFlag_iff.1 hflag)
    rw [leading.eq_def]
    simp only [hflag, Bool.not_false, ↓reduceIte]

theorem leading_inline {flag : α} (hflag : WritesFlag (text flag))
    (hvalue : '=' ∈ (text flag).toList) (rest : List α) :
    leading text (flag :: rest) = (flag :: (leading text rest).1, (leading text rest).2) := by
  cases hinline : Options.inlineValue? (text flag) with
  | none => exact absurd hvalue (Options.inlineValue?_eq_none_iff.1 hinline)
  | some value =>
    rw [leading.eq_def]
    simp only [isFlag_iff.2 hflag, hinline, Bool.not_true, Bool.false_eq_true, ↓reduceIte]

theorem leading_separate {flag : α} (hflag : WritesFlag (text flag))
    (hbare : '=' ∉ (text flag).toList) (value : α) (rest : List α) :
    leading text (flag :: value :: rest) =
      (flag :: value :: (leading text rest).1, (leading text rest).2) := by
  rw [leading.eq_def]
  simp only [isFlag_iff.2 hflag, Options.inlineValue?_eq_none_iff.2 hbare, Bool.not_true,
    Bool.false_eq_true, ↓reduceIte]

theorem leading_singleton {flag : α} (hflag : WritesFlag (text flag))
    (hbare : '=' ∉ (text flag).toList) : leading text [flag] = ([flag], []) := by
  rw [leading.eq_def]
  simp only [isFlag_iff.2 hflag, Options.inlineValue?_eq_none_iff.2 hbare, Bool.not_true,
    Bool.false_eq_true, ↓reduceIte]

theorem FlagRun.leading_append {run : List α} (h : FlagRun text run) (rest : List α) :
    leading text (run ++ rest) = (run ++ (leading text rest).1, (leading text rest).2) := by
  induction h with
  | nil => rfl
  | inline hflag hvalue _ ih =>
    rw [List.cons_append, leading_inline hflag hvalue, ih, List.cons_append]
  | separate hflag hbare _ ih =>
    rw [List.cons_append, List.cons_append, leading_separate hflag hbare, ih, List.cons_append,
      List.cons_append]

theorem Splits.leading_eq {arguments flags command : List α}
    (h : Splits text arguments flags command) : leading text arguments = (flags, command) := by
  obtain ⟨rfl, hflags, hcommand⟩ := h
  rcases hflags with hrun | ⟨⟨run, flag, rfl, hrun, hflag, hbare⟩, rfl⟩
  · rw [hrun.leading_append, leading_of_not_writesFlag hcommand, List.append_nil]
  · rw [List.append_nil, hrun.leading_append, leading_singleton hflag hbare]

theorem Splits.inline {flag : α} {arguments flags command : List α}
    (h : Splits text arguments flags command) (hflag : WritesFlag (text flag))
    (hvalue : '=' ∈ (text flag).toList) :
    Splits text (flag :: arguments) (flag :: flags) command where
  lossless := by rw [List.cons_append, h.lossless]
  wellFormed := by
    rcases h.wellFormed with hrun | ⟨⟨run, last, rfl, hrun, hlast⟩, hcommand⟩
    · exact .inl (.inline hflag hvalue hrun)
    · exact .inr ⟨⟨flag :: run, last, rfl, .inline hflag hvalue hrun, hlast⟩, hcommand⟩
  maximal := h.maximal

theorem Splits.separate {flag : α} {arguments flags command : List α}
    (h : Splits text arguments flags command) (hflag : WritesFlag (text flag))
    (hbare : '=' ∉ (text flag).toList) (value : α) :
    Splits text (flag :: value :: arguments) (flag :: value :: flags) command where
  lossless := by rw [List.cons_append, List.cons_append, h.lossless]
  wellFormed := by
    rcases h.wellFormed with hrun | ⟨⟨run, last, rfl, hrun, hlast⟩, hcommand⟩
    · exact .inl (.separate hflag hbare hrun)
    · exact .inr ⟨⟨flag :: value :: run, last, rfl, .separate hflag hbare hrun, hlast⟩, hcommand⟩
  maximal := h.maximal

theorem exists_splits (text : α → String) :
    ∀ arguments, ∃ flags command, Splits text arguments flags command
  | [] => ⟨[], [], rfl, .inl .nil, fun _ h => by cases h⟩
  | argument :: rest => by
    by_cases hflag : WritesFlag (text argument)
    · by_cases hvalue : '=' ∈ (text argument).toList
      · obtain ⟨flags, command, h⟩ := exists_splits text rest
        exact ⟨_, _, h.inline hflag hvalue⟩
      · cases rest with
        | nil => exact ⟨[argument], [], rfl, .inr ⟨⟨[], argument, rfl, .nil, hflag, hvalue⟩, rfl⟩,
            fun _ h => by cases h⟩
        | cons value rest =>
          obtain ⟨flags, command, h⟩ := exists_splits text rest
          exact ⟨_, _, h.separate hflag hvalue value⟩
    · refine ⟨[], argument :: rest, rfl, .inl .nil, fun other hother => ?_⟩
      cases hother
      exact hflag

/-- Arguments behind the name of the program are split in the one way in which nothing is lost, the
flags are as many as there are, and the command does not begin with one. Its arguments are not split
again. -/
theorem splits_uniquely (text : α → String) (program : α) (arguments : List α) :
    ∃ flags command,
      split text (program :: arguments) = (program :: flags, program :: command) ∧
        (∀ flags' command',
          Splits text arguments flags' command' ↔ flags' = flags ∧ command' = command) ∧
        split text (program :: command) = ([program], program :: command) := by
  obtain ⟨flags, command, h⟩ := exists_splits text arguments
  refine ⟨flags, command, ?_, fun flags' command' => ?_, ?_⟩
  · rw [split, h.leading_eq]
  · constructor
    · intro h'
      have heq := h'.leading_eq.symm.trans h.leading_eq
      cases heq
      exact ⟨rfl, rfl⟩
    · rintro ⟨rfl, rfl⟩
      exact h
  · rw [split, leading_of_not_writesFlag h.maximal]

example : split id ["tether", "--log-filter", "--debounce-ms", "probe", "--log-format", "json"] =
    (["tether", "--log-filter", "--debounce-ms"], ["tether", "probe", "--log-format", "json"]) := by
  decide

end

end Settings

end LanguageClient
