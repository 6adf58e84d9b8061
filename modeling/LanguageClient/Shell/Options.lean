import LanguageClient.Bytes
import LanguageClient.Text.Utf8

namespace LanguageClient.Shell

structure Options where
  /-- A failure ends the script. -/
  strict : Bool := false
  /-- The value of a parameter that is not set ends the script. -/
  careful : Bool := false
  /-- The first argument is the text of the script. -/
  inArgument : Bool := false

namespace Options

/-- Options by letters that make no difference to what a script writes. -/
def idleLetters : List Char := "aCbEfiImsvVx".toList

def idleNames : List String :=
  ["allexport", "debug", "emacs", "ignoreeof", "interactive", "monitor", "noclobber", "noglob",
    "nolog", "notify", "privileged", "stdin", "verbose", "vi", "xtrace"]

/-- Turns an option on or off. The text of a script can only be an argument of the shell itself. -/
def letter? (atStart on : Bool) (o : Options) : Char → Option Options
  | 'e' => some { o with strict := on }
  | 'u' => some { o with careful := on }
  | 'c' => if atStart && on then some { o with inArgument := true } else none
  | 'l' => if atStart then some o else none
  | c => if idleLetters.contains c then some o else none

def name? (on : Bool) (o : Options) (name : String) : Option Options :=
  if name = "errexit" then some { o with strict := on }
  else if name = "nounset" then some { o with careful := on }
  else if idleNames.contains name then some o
  else none

/-- Takes in the letters of a word; the last word given by name for each `o` among them. -/
def letters? (atStart on : Bool) : List Char → Options → List Bytes → Option (Options × List Bytes)
  | [], o, words => some (o, words)
  | 'o' :: cs, o, words => do
    let o ← match words with
      | [] => some o
      | name :: _ => o.name? on (String.ofList (Utf8.decodeLossy name))
    letters? atStart on cs o (words.drop 1)
  | c :: cs, o, words => do letters? atStart on cs (← o.letter? atStart on c) words

/-- Reads options up to the first word that is none or ends them. The words that follow are new
arguments if there are some, or if nothing but two dashes stands before them. -/
def read? (atStart : Bool) : Nat → Options → List Bytes → Option (Options × Option (List Bytes))
  | 0, _, _ => none
  | _ + 1, o, [] => some (o, none)
  | n + 1, o, word :: rest =>
    match Utf8.decodeLossy word with
    | ['-'] => some (o, if rest.isEmpty then none else some rest)
    | ['-', '-'] => some (o, some rest)
    | '-' :: cs => do
      let (o, rest) ← letters? atStart true cs o rest
      read? atStart n o rest
    | '+' :: cs => do
      let (o, rest) ← letters? atStart false cs o rest
      read? atStart n o rest
    | _ => some (o, some (word :: rest))

def letters (o : Options) : List Char :=
  (if o.careful then ['u'] else []) ++ (if o.strict then ['e'] else [])

end Options

end LanguageClient.Shell
