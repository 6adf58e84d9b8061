import LanguageClient.Shell.Arithmetic
import LanguageClient.Shell.Builtin
import LanguageClient.Shell.Reader

namespace LanguageClient.Shell

def dropLineFeeds (bytes : Bytes) : Bytes := (bytes.reverse.dropWhile (· = 10)).reverse

namespace State

/-- The text of fragments that are not parted into fields. -/
def joined (s : State) (fragments : List Fragment) : Bytes := Fragment.join s.separators fragments

def restore (s : State) (redirects : List Redirect) (before : State) : State :=
  if redirects.isEmpty then s
  else { s with
    input := if redirects.any (·.changed = 0) then before.input else s.input
    streams := before.streams }

/-- Ends a script in which a failure ends it, after one that is not only looked at. -/
def check (s : State) : State :=
  if s.options.strict && !s.lenient && s.status ≠ 0 && s.signal = .next then s.stop .exited else s

def severe (s before : State) : State := { s with lenient := before.lenient }

/-- The state of a loop after a round that began in another state, if there are more rounds. -/
def nextRound? (s before : State) : Except State State :=
  let outside := { s with loops := before.loops }
  match s.signal with
  | .next => .ok s
  | .continued (n + 2) => .error (outside.stop (.continued (n + 1)))
  | .continued _ => .ok (s.stop .next)
  | .broke (n + 2) => .error (outside.stop (.broke (n + 1)))
  | .broke _ => .error (outside.stop .next)
  | _ => .error outside

end State

mutual

def expandPart : Nat → Part → State → List Fragment × State
  | 0, _, s => ([], s.stop .waiting)
  | n + 1, part, s =>
    match part with
    | .text bytes quoted => ([.text bytes quoted], s)
    | .output script quoted =>
      let inner := runFork n script s.catching
      let outer := { s.rejoin inner with
        written := s.uncaught inner, status := s.status, caughtStatus := inner.status % 256 }
      match inner.hungUp? with
      | some moment =>
        let text := (joinPieces (s.caught inner)).filter (· ≠ 0)
        ([.expanded (dropLineFeeds text) quoted], outer.reach moment)
      | none => ([], outer.stop .waiting)
    | .arithmetic expression quoted =>
      let (fragments, s) := expandParts n expression s
      if s.signal ≠ .next then ([], s)
      else
        match Arithmetic.value? s.number? (nameOf (s.joined fragments)).toList with
        | some (v, names) =>
          let text (v : Int) : Bytes := Utf8.encode (Decimal.renderInt v).toList
          ([.expanded (text v) quoted], names.foldr (fun (name, v) s => s.set name (text v)) s)
        | none => ([], s.fail)
    | .parameter name form quoted =>
      let value := (s.get? name).getD []
      let isThere (ifEmpty : Bool) : Bool := (s.get? name).isSome && !(ifEmpty && value.isEmpty)
      match form with
      | .plain =>
        if name = "@" || (name = "*" && !quoted) then
          ((s.arguments.map (.expanded · quoted)).intersperse .gap, s)
        else ([.expanded value quoted], s.demand name)
      | .length => ([.expanded (State.decimal value.length) quoted], s.demand name)
      | .trimStart longest pattern =>
        let (fragments, s) := expandParts n pattern (s.demand name)
        ([.expanded (Glob.trimStart longest (Fragment.pattern [] fragments) value) quoted], s)
      | .trimEnd longest pattern =>
        let (fragments, s) := expandParts n pattern (s.demand name)
        ([.expanded (Glob.trimEnd longest (Fragment.pattern [] fragments) value) quoted], s)
      | .orElse ifEmpty assigned word =>
        if isThere ifEmpty then ([.expanded value quoted], s)
        else
          let (fragments, s) := expandParts n word s
          if !assigned then (fragments.map .loose, s)
          else if name.toList.head?.any Arithmetic.isNameStart then
            ([.expanded (s.joined fragments) quoted], s.set name (s.joined fragments))
          else ([], s.fail)
      | .instead ifEmpty word =>
        if isThere ifEmpty then
          let (fragments, s) := expandParts n word s
          (fragments.map .loose, s)
        else ([.expanded [] quoted], s)
      | .required ifEmpty =>
        if isThere ifEmpty then ([.expanded value quoted], s) else ([], s.fail)
      | .unknown => ([], s.fail)

def expandParts : Nat → Word → State → List Fragment × State
  | 0, _, s => ([], s.stop .waiting)
  | _ + 1, [], s => ([], s)
  | n + 1, part :: rest, s =>
    let (first, s) := expandPart n part s
    if s.signal ≠ .next then ([], s)
    else
      let (more, s) := expandParts n rest s
      (first ++ more, s)

def expandWords : Nat → List Word → State → List Bytes × State
  | 0, _, s => ([], s.stop .waiting)
  | _ + 1, [], s => ([], s)
  | n + 1, word :: rest, s =>
    let (fragments, s) := expandParts n word s
    if s.signal ≠ .next then ([], s)
    else
      let (more, s) := expandWords n rest s
      (Field.ofFragments s.separators fragments ++ more, s)

def assign : Nat → List (String × Word) → State → State
  | 0, _, s => s.stop .waiting
  | _ + 1, [], s => s
  | n + 1, (name, word) :: rest, s =>
    let (fragments, s) := expandParts n word s
    if s.signal ≠ .next then s else assign n rest (s.set name (s.joined fragments))

def invoke : Nat → List Bytes → State → State
  | 0, _, s => s.stop .waiting
  | _ + 1, [], s => s
  | n + 1, first :: words, s =>
    let name := nameOf first
    match s.functions.lookup name with
    | some body =>
      let inside := { s with arguments := words, isInside := true, shadowed := [], loops := 0 }
      let ran := (runOne n body inside).unshadow
      let ran := { ran with
        arguments := s.arguments, isInside := s.isInside, shadowed := s.shadowed, loops := s.loops }
      if ran.signal = .returned then ran.stop .next else ran
    | none => provide n first words s

/-- Runs a command that is no function of the script. -/
def provide : Nat → Bytes → List Bytes → State → State
  | 0, _, _, s => s.stop .waiting
  | n + 1, first, words, s =>
    match nameOf first, words with
    | "command", [] => s.finish 0
    | "command", word :: rest =>
      if nameOf word = "-v" then s.describe (rest.headD [])
      else if nameOf word = "-p" then match rest with
        | [] => s.finish 0
        | word :: rest => provide n word rest s
      else provide n word rest s
    | "env", words => invoke n (words.dropWhile (·.contains (byte '='))) s
    | "read", words =>
      let names := words.map nameOf
      s.readLine (names.contains "-r") (names.filter (·.toList.head? ≠ some '-'))
    | "eval", words =>
      match Reader.script (Utf8.decodeLossy ([32].intercalate words)) with
      | [] => s.finish 0
      | script => runAll n script s
    | name, words => (s.builtin? name words).getD (s.finish 127)

/-- Changes streams of the commands that follow, and says whether all could be changed. -/
def redirect : Nat → List Redirect → State → Bool × State
  | 0, _, s => (false, s.stop .waiting)
  | _ + 1, [], s => (true, s)
  | n + 1, .mk stream target :: rest, s =>
    match stream, target with
    | 0, .closed => redirect n rest { s with input := { s.input with isOpen := false } }
    | 0, .null => redirect n rest { s with input := { ended := some s.clock } }
    | 0, .stream _ => redirect n rest s
    | _, .text word =>
      let (fragments, s) := expandParts n word s
      let piece : Piece := ⟨s.clock, s.joined fragments⟩
      if s.signal ≠ .next then (false, s)
      else redirect n rest { s with input := { pieces := [piece], ended := some s.clock } }
    | number, .closed => redirect n rest { s with streams := s.streams.set number none }
    | number, .null => redirect n rest { s with streams := s.streams.set number (some .discarded) }
    | number, .stream source => match s.streams.lookup source with
      | some output => redirect n rest { s with streams := s.streams.set number (some output) }
      | none => (false, s.finish 2)

/-- Runs a simple command. Redirects of `exec` stay; others end with the command. -/
def runSimple : Nat → List (String × Word) → List Word → List Redirect → State → State
  | 0, _, _, _, s => s.stop .waiting
  | n + 1, assignments, words, redirects, s =>
    let (fields, s) := expandWords n words { s with caughtStatus := 0 }
    if s.signal ≠ .next then s
    else if fields.isEmpty then
      let s := assign n assignments s
      if s.signal = .next then (s.finish s.caughtStatus).check else s
    else
      let before := s.vars
      let s := assign n assignments s
      if s.signal ≠ .next then s
      else
        let (isOpen, inside) := redirect n redirects s
        if !isOpen then
          let failed := inside.restore redirects s
          if State.lasting.contains (nameOf (fields.headD [])) then failed.fail else failed.check
        else if fields.head? = some (Utf8.encode "exec".toList) then
          let ran := invoke n (fields.drop 1) inside
          if fields.length = 1 then ran.finish 0
          else if ran.signal = .next then ran.stop .exited
          else ran
        else
          let ran := invoke n fields inside
          let name := nameOf (fields.headD [])
          let lasts := State.lasting.contains name && (s.functions.lookup name).isNone
          let changed := if lasts then [] else assignments.map (·.1)
          let ran := if changed.isEmpty then ran else { ran with
            vars := ran.vars.filter (fun v => !changed.contains v.1) ++
              before.filter (fun v => changed.contains v.1) }
          (ran.restore redirects s).check

/-- Runs commands in a shell of their own, which says farewell. -/
def runFork : Nat → Script → State → State
  | 0, _, s => s.stop .waiting
  | n + 1, body, s =>
    let ran := runAll n body s.fork
    if ran.signal = .waiting || ran.farewell.isEmpty then ran
    else
      let last := runAll n (Reader.script (Utf8.decodeLossy ran.farewell))
        { ran with signal := .next, farewell := [] }
      if last.signal = .next then last.finish ran.status else last

/-- Runs a command at the same time as what follows it. It reads nothing. -/
def runBackground : Nat → Command → State → State
  | 0, _, s => s.stop .waiting
  | n + 1, body, s =>
    let inner := runFork n [body] { s with input := { ended := some s.clock } }
    let waiting := inner.signal = .waiting
    let job : Job := {
      pid := s.jobs.length + 2
      ended := if waiting then none else some inner.clock
      holdsOutput := s.streams.hold s.depth && !body.sendsElsewhere
      status := inner.status % 256 }
    let joined := s.rejoin inner
    { joined with
      input := s.input, clock := s.clock, jobs := job :: joined.jobs, status := 0, signal := .next }

/-- Runs two commands at the same time, of which the second reads what the first writes. -/
def runPipe : Nat → Command → Command → State → State
  | 0, _, _, s => s.stop .waiting
  | n + 1, first, second, s =>
    let upper := runFork n [first] s.catching
    let lower := runFork n [second] { s with
      input := { pieces := s.caught upper, ended := upper.hungUp? }
      written := s.uncaught upper, wake := upper.wake }
    let joined := s.rejoin lower
    { joined with
      input := (s.rejoin upper).input
      clock := max upper.clock lower.clock
      signal := if upper.signal = .waiting then .waiting else joined.signal }

def runOne : Nat → Command → State → State
  | 0, _, s => s.stop .waiting
  | n + 1, command, s =>
    match command with
    | .simple assignments words redirects => runSimple n assignments words redirects s
    | .block body redirects =>
      let (isOpen, inside) := redirect n redirects s
      (if isOpen then runAll n body inside else inside.check).restore redirects s
    | .apart body => (s.rejoin (runFork n body s)).check
    | .pipe first second => (runPipe n first second s).check
    | .background body => runBackground n body s
    | .loop whileFails condition body => runLoop n whileFails condition body 0 s
    | .each name words body =>
      let (values, s) := expandWords n words s
      if s.signal ≠ .next then s
      else if values.isEmpty then s.finish 0
      else runEach n name values body s
    | .branch condition body other =>
      let s := (runAll n condition { s with lenient := true }).severe s
      if s.signal ≠ .next then s
      else if s.status = 0 then runAll n body s
      else if other.isEmpty then s.finish 0
      else runAll n other s
    | .choose word arms =>
      let (fragments, s) := expandParts n word s
      if s.signal ≠ .next then s else chooseArm n (s.joined fragments) arms s
    | .define name body => { s with functions := (name, body) :: s.functions }.finish 0
    | .both first second =>
      let s := (runOne n first { s with lenient := true }).severe s
      if s.signal = .next && s.status = 0 then runOne n second s else s
    | .either first second =>
      let s := (runOne n first { s with lenient := true }).severe s
      if s.signal = .next && s.status ≠ 0 then runOne n second s else s
    | .negate body =>
      let s := (runOne n body { s with lenient := true }).severe s
      if s.signal = .next then s.finish (if s.status = 0 then 1 else 0) else s
    | .unreadable => s.fail

def chooseArm : Nat → Bytes → List (List Word × Script) → State → State
  | 0, _, _, s => s.stop .waiting
  | _ + 1, _, [], s => s.finish 0
  | n + 1, value, (patterns, body) :: rest, s =>
    let (matched, s) := anyMatches n value patterns s
    if s.signal ≠ .next then s
    else if matched then (if body.isEmpty then s.finish 0 else runAll n body s)
    else chooseArm n value rest s

def anyMatches : Nat → Bytes → List Word → State → Bool × State
  | 0, _, _, s => (false, s.stop .waiting)
  | _ + 1, _, [], s => (false, s)
  | n + 1, value, pattern :: rest, s =>
    let (fragments, s) := expandParts n pattern s
    if Glob.matchesAll (Fragment.pattern [] fragments) value then (true, s)
    else anyMatches n value rest s

/-- Runs a loop. Its status is that of the last round. -/
def runLoop : Nat → Bool → Script → Script → Nat → State → State
  | 0, _, _, _, _, s => s.stop .waiting
  | n + 1, whileFails, condition, body, status, s =>
    let inside := { s with loops := s.loops + 1 }
    let tested := (runAll n condition { inside with lenient := true }).severe s
    match tested.nextRound? s with
    | .error s => s
    | .ok tested =>
      if (tested.status = 0) = whileFails then { tested with loops := s.loops }.finish status
      else match (runAll n body tested).nextRound? s with
        | .error s => s
        | .ok ran => runLoop n whileFails condition body ran.status { ran with loops := s.loops }

def runEach : Nat → String → List Bytes → Script → State → State
  | 0, _, _, _, s => s.stop .waiting
  | _ + 1, _, [], _, s => s
  | n + 1, name, value :: rest, body, s =>
    let inside := { s with loops := s.loops + 1 }.set name value
    match (if inside.signal = .next then runAll n body inside else inside).nextRound? s with
    | .error s => s
    | .ok ran => runEach n name rest body { ran with loops := s.loops }

def runAll : Nat → Script → State → State
  | 0, _, s => s.stop .waiting
  | _ + 1, [], s => s
  | n + 1, command :: rest, s =>
    let s := runOne n command s
    if s.signal = .next then runAll n rest s else s

end

end LanguageClient.Shell
