import LanguageClient.Bytes

namespace LanguageClient.Shell

mutual

/-- A piece of a word. Quoted pieces are not split and hold no pattern characters. -/
inductive Part where
  | text (bytes : Bytes) (quoted : Bool)
  | parameter (name : String) (form : Form) (quoted : Bool)
  | output (script : List Command) (quoted : Bool)
  | arithmetic (expression : List Part) (quoted : Bool)

inductive Form where
  | plain
  | length
  | trimStart (longest : Bool) (pattern : List Part)
  | trimEnd (longest : Bool) (pattern : List Part)
  /-- The word instead, where the parameter is not set, or is empty and that counts too; the word
  may be assigned. -/
  | orElse (ifEmpty assigned : Bool) (word : List Part)
  | instead (ifEmpty : Bool) (word : List Part)
  /-- The value, without which the script ends; one that is empty may count as none. -/
  | required (ifEmpty : Bool)
  | unknown

inductive Target where
  | closed
  | null
  | stream (number : Nat)
  | text (word : List Part)

inductive Redirect where
  | mk (stream : Nat) (target : Target)

inductive Command where
  | simple (assignments : List (String × List Part)) (words : List (List Part))
      (redirects : List Redirect)
  | block (body : List Command) (redirects : List Redirect)
  /-- Commands that run in a shell of their own. -/
  | apart (body : List Command)
  | pipe (first second : Command)
  | background (body : Command)
  | loop (whileFails : Bool) (condition body : List Command)
  | each (name : String) (words : List (List Part)) (body : List Command)
  | branch (condition body other : List Command)
  | choose (word : List Part) (arms : List (List (List Part) × List Command))
  | define (name : String) (body : Command)
  | both (first second : Command)
  | either (first second : Command)
  | negate (body : Command)
  /-- A text that is no command. -/
  | unreadable

end

abbrev Word := List Part

abbrev Script := List Command

def Redirect.changed : Redirect → Nat
  | mk stream _ => stream

def Command.sendsElsewhere : Command → Bool
  | simple _ _ redirects | block _ redirects => redirects.any (·.changed = 1)
  | _ => false

end LanguageClient.Shell
