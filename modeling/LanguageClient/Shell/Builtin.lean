import LanguageClient.Shell.Arithmetic
import LanguageClient.Shell.Condition
import LanguageClient.Shell.Printf
import LanguageClient.Shell.State

namespace LanguageClient.Shell

def unit? : List Char → Option Nat
  | [] | ['s'] => some 1
  | ['m'] => some 60
  | ['h'] => some 3600
  | ['d'] => some 86400
  | _ => none

def nanos? (cs : List Char) : Option Nat := do
  let whole := cs.takeWhile Decimal.isDigit
  let (fraction, rest) := match cs.dropWhile Decimal.isDigit with
    | '.' :: rest => (rest.takeWhile Decimal.isDigit, rest.dropWhile Decimal.isDigit)
    | rest => ([], rest)
  if whole.isEmpty && fraction.isEmpty then none
  return (← unit? rest) * (Decimal.value whole * 1000000000 +
    Decimal.value ((fraction ++ List.replicate 9 '0').take 9))

namespace State

def natOf (bytes : Bytes) : Nat := Decimal.value ((nameOf bytes).toList.takeWhile Decimal.isDigit)

def count? (bytes : Bytes) : Option Nat := Decimal.read? (nameOf bytes).toList

/-- Goes on with the number that the first word is; anything else is a mistake. -/
def counted (s : State) (words : List Bytes) (default : Nat) (next : Nat → State) : State :=
  match words with
  | [] => next default
  | word :: _ => match count? word with
    | some n => next n
    | none => s.fail

/-- The number that a parameter stands for in an expression, if it stands for one; nothing stands for
zero. -/
def number? (s : State) (name : String) : Option Int :=
  match Printf.integer (((s.get? name).getD []).reverse.dropWhile Field.isBlank).reverse with
  | (n, true) => if -(1 <<< 63) ≤ n && n < 1 <<< 63 then some n else none
  | _ => none

/-- Sets parameters by words of the form `name=value`; those of a function may be its own. -/
def assignWords (s : State) (own : Bool) (words : List Bytes) : State :=
  words.foldl (fun s w =>
    let name := nameOf (w.takeWhile (· ≠ byte '='))
    let s := if own then s.shadow name else s
    match w.dropWhile (· ≠ byte '=') with
    | _ :: value => s.set name value
    | [] => s) s

/-- Writes a text, which fails when the stream for it is closed. -/
def say (s : State) (text : Bytes) (status : Nat) : State :=
  (s.write text).finish (if (s.streams.lookup 1).isNone && !text.isEmpty then 1 else status)

def echo (s : State) (words : List Bytes) : State :=
  let isOpen := words.head? = some (Utf8.encode ['-', 'n'])
  let (text, whole) := Printf.unescape ([32].intercalate (if isOpen then words.drop 1 else words))
  s.say (if whole && !isOpen then text ++ [10] else text) 0

def nap (s : State) (words : List Bytes) : State :=
  match (words.map fun w => (nameOf w).toList).mapM nanos? with
  | some lengths => if words.isEmpty then s.finish 1 else s.waitUntil (lengths.foldl (· + ·) s.clock)
  | none => if words.any (nameOf · = "infinity") then s.stop .waiting else s.finish 1

/-- Waits for the scripts in the background with these numbers, or for all of them. -/
def await (s : State) (pids : List Nat) : State :=
  let awaited := s.jobs.filter fun job => job.pid ≠ 0 && (pids.isEmpty || pids.contains job.pid)
  if awaited.any (·.ended.isNone) then s.stop .waiting
  else
    let s := awaited.foldl (fun s job => s.reach (job.ended.getD 0)) s
    match pids, awaited with
    | [], _ => s.finish 0
    | _, job :: _ => s.finish job.status
    | _, [] => s.finish 127

def killedStatus (signal : String) : Nat :=
  128 + match signal with
    | "HUP" => 1
    | "INT" => 2
    | "QUIT" => 3
    | "KILL" => 9
    | "TERM" => 15
    | number => (Decimal.read? number.toList).getD 15

def kill (s : State) (words : List Bytes) : State :=
  let (signal, words) := match words.map nameOf with
    | "-s" :: name :: _ => (name, words.drop 2)
    | option :: _ => match option.toList with
      | '-' :: name => (String.ofList name, words.drop 1)
      | _ => ("TERM", words)
    | [] => ("TERM", words)
  let pids := words.map natOf
  let isLive (job : Job) : Bool := pids.contains job.pid && job.ended.all (s.clock < ·)
  if pids.isEmpty then s.finish 2
  else if signal = "0" then
    s.finish (if pids.contains ownPid || s.jobs.any isLive then 0 else 1)
  else if pids.contains ownPid || pids.contains 0 then
    { s with status := killedStatus signal, farewell := [] }.stop .exited
  else { s with
    written := if s.jobs.any isLive then s.written.filter (·.piece.moment ≤ s.clock) else s.written
    jobs := s.jobs.map fun job =>
      if isLive job then { job with ended := some s.clock, status := killedStatus signal }
      else job }.finish (if s.jobs.any fun job => pids.contains job.pid then 0 else 1)

def head (s : State) (words : List Bytes) : State :=
  match words.map nameOf with
  | ["-c", _] => s.copyInput (some (natOf (words.getLastD [])))
  | ["-n", _] => s.copyLines (natOf (words.getLastD []))
  | [option] =>
    if "-c".toList.isPrefixOf option.toList then
      s.copyInput (some (natOf ((words.headD []).drop 2)))
    else if "-n".toList.isPrefixOf option.toList then s.copyLines (natOf ((words.headD []).drop 2))
    else s.copyLines (natOf ((words.headD []).drop 1))
  | _ => s.copyLines 10

def setOptions (s : State) (words : List Bytes) : State :=
  match s.options.read? false (words.length + 1) words with
  | some (options, arguments) =>
    { s with options, arguments := arguments.getD s.arguments }.finish 0
  | none => s.fail

def leaveLoops (s : State) (words : List Bytes) (signal : Nat → Signal) : State :=
  s.counted words 1 fun n =>
    if n = 0 then s.fail
    else if s.loops = 0 then s.finish 0
    else (s.finish 0).stop (signal (min s.loops n))

/-- Commands of the shell before which assignments last. -/
def lasting : List String :=
  [":", ".", "break", "continue", "eval", "exec", "exit", "export", "readonly", "return", "set",
    "shift", "times", "trap", "unset"]

/-- Runs a command that the shell or the system provides; `none` if there is no such command. -/
def builtin? (s : State) (name : String) (words : List Bytes) : Option State :=
  let leave (signal : Signal) : State :=
    s.counted words s.status fun status => { s with status }.stop signal
  let tested (words : List Bytes) : State :=
    s.finish (match Condition.holds? words with
      | some true => 0
      | some false => 1
      | none => 2)
  match name with
  | ":" | "true" => some (s.finish 0)
  | "false" => some (s.finish 1)
  | "printf" =>
    let isOption (w : Bytes) : Bool := w.head? = some 45 && w ≠ [45]
    match words with
    | [] => some (s.finish 2)
    | [45, 45] :: [] => some (s.finish 2)
    | [45, 45] :: template :: rest | template :: rest =>
      if words.head?.any isOption && words.head? ≠ some [45, 45] then some (s.finish 2)
      else
        let (text, status) := Printf.format template rest
        some (s.say text status)
  | "echo" => some (s.echo words)
  | "pwd" => some ((s.write (s.directory ++ [10])).finish 0)
  | "cd" => match words with
    | dir :: _ => some ({ s with directory := dir }.finish 0)
    | [] => some (s.finish 0)
  | "cat" =>
    if words.all fun w => ["-", "-u"].contains (nameOf w) then some (s.copyInput none)
    else some (s.finish (if words.all (nameOf · = "/dev/null") then 0 else 1))
  | "tee" => some (s.copyInput none)
  | "head" => some (s.head words)
  | "sleep" => some (s.nap words)
  | "wait" => some (s.await (words.map natOf))
  | "kill" => some (s.kill words)
  | "trap" => match words.map nameOf with
    | _ :: signals =>
      if signals.any fun t => t = "EXIT" || t = "0" then
        some ({ s with farewell := words.headD [] }.finish 0)
      else some (s.finish 0)
    | [] => some (s.finish 0)
  | "set" => some (s.setOptions words)
  | "exit" => some (leave .exited)
  | "return" => some (leave .returned)
  | "break" => some (s.leaveLoops words .broke)
  | "continue" => some (s.leaveLoops words .continued)
  | "shift" => some (s.counted words 1 fun count =>
      if s.arguments.length < count then s.fail
      else { s with arguments := s.arguments.drop count }.finish 0)
  | "export" => some ((s.assignWords false words).finish 0)
  | "readonly" =>
    let s := (s.assignWords false words).finish 0
    let names := words.map fun w => nameOf (w.takeWhile (· ≠ byte '='))
    some { s with fixed := names ++ s.fixed }
  | "local" => some (if s.isInside then (s.assignWords true words).finish 0 else s.fail)
  | "unset" =>
    some ((words.foldl (fun s w => s.unset (nameOf w)) s).finish 0)
  | "test" => some (tested words)
  | "[" => some (if words.getLast? = some [93] then tested words.dropLast else s.finish 2)
  | _ => none

/-- Words that are no commands by themselves, and commands that are run with the others' help. -/
def keywords : List String :=
  ["!", "\x7b", "\x7d", "case", "do", "done", "elif", "else", "esac", "fi", "for", "if", "then", "until",
    "while", "command", "eval", "read"]

def tools : List String := ["cat", "env", "head", "sleep", "tee"]

def describe (s : State) (word : Bytes) : State :=
  let name := nameOf word
  if tools.contains name then (s.write (Utf8.encode "/usr/bin/".toList ++ word ++ [10])).finish 0
  else if keywords.contains name || (s.functions.lookup name).isSome || (s.builtin? name []).isSome
    then (s.write (word ++ [10])).finish 0
  else s.finish 127

end State

end LanguageClient.Shell
