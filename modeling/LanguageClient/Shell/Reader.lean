import LanguageClient.Shell.Arithmetic
import LanguageClient.Shell.Script
import LanguageClient.Text.Utf8

namespace LanguageClient.Shell.Reader

open Arithmetic (isNameStart isNameChar)

def isBreak (c : Char) : Bool :=
  c = ' ' || c = '\t' || c = '\n' || c = ';' || c = '&' || c = '|' || c = '<' || c = '>' ||
    c = '(' || c = ')'

/-- Words that end a list of commands where a command could begin. -/
def closers : List (List Char) :=
  ["do", "done", "then", "else", "elif", "fi", "esac", "\x7d"].map String.toList

def blanks : List Char → List Char
  | ' ' :: rest => blanks rest
  | '\t' :: rest => blanks rest
  | '\\' :: '\n' :: rest => blanks rest
  | '#' :: rest => rest.dropWhile (· ≠ '\n')
  | cs => cs

def blankLines : Nat → List Char → List Char
  | 0, cs => cs
  | n + 1, cs =>
    match blanks cs with
    | '\n' :: rest => blankLines n rest
    | rest => rest

def literal (cs : List Char) (quoted : Bool) : Part := .text (Utf8.encode cs) quoted

/-- The keyword at the start, if the text begins with exactly this word. -/
def keyword? (word : String) (cs : List Char) : Option (List Char) :=
  let w := word.toList
  if w.isPrefixOf cs then
    match cs.drop w.length with
    | [] => some []
    | c :: rest => if isBreak c then some (c :: rest) else none
  else none

def atCloser (cs : List Char) : Bool :=
  let word := cs.takeWhile fun c => !isBreak c
  closers.contains word || cs.head? = some ')' || [';', ';'].isPrefixOf cs

def backquote : Char := '\x60'

/-- The text before a mark like that, without the backslashes that hide characters from it, and what
follows the mark. -/
def upToBackquote (quoted : Bool) : List Char → Option (List Char × List Char)
  | [] => none
  | '\\' :: c :: rest =>
    let kept := if c = backquote || c = '$' || c = '\\' || (quoted && c = '"') then [c]
      else ['\\', c]
    (upToBackquote quoted rest).map fun (text, rest) => (kept ++ text, rest)
  | c :: rest =>
    if c = backquote then some ([], rest)
    else (upToBackquote quoted rest).map fun (text, rest) => (c :: text, rest)

/-- The text of a word that holds nothing to be expanded. -/
def plainText (w : Word) : Bytes :=
  w.flatMap fun
    | .text bytes _ => bytes
    | _ => []

def isQuoted (w : Word) : Bool :=
  w.any fun
    | .text _ quoted => quoted
    | _ => false

/-- The lines before one that is nothing but a mark, and what follows that line. Tabs at the start
of a line may not count. -/
def linesBefore : Nat → Bool → Bytes → List Char → List Char × List Char
  | 0, _, _, cs => (cs, [])
  | n + 1, indented, mark, cs =>
    let line := cs.takeWhile (· ≠ '\n')
    let rest := cs.drop (line.length + 1)
    let shown := if indented then line.dropWhile (· = '\t') else line
    if Utf8.encode shown = mark || cs.isEmpty then ([], rest)
    else if line.length = cs.length then (shown, rest)
    else
      let (lines, below) := linesBefore n indented mark rest
      (shown ++ '\n' :: lines, below)

def isSpecial (c : Char) : Bool :=
  c = '#' || c = '@' || c = '*' || c = '?' || c = '$' || c = '!' || c = '-'

/-- The name of a parameter at the start of a text; empty if there is none. -/
def parameterName : List Char → List Char
  | c :: rest =>
    if isNameStart c then c :: rest.takeWhile isNameChar
    else if Decimal.isDigit c then c :: rest.takeWhile Decimal.isDigit
    else if isSpecial c then [c]
    else []
  | [] => []

def lengthOf? : List Char → Option (String × List Char)
  | '#' :: cs =>
    let name := parameterName cs
    match name, cs.drop name.length with
    | _ :: _, '}' :: rest => some (String.ofList name, rest)
    | _, _ => none
  | _ => none

mutual

/-- Reads what follows a dollar sign. Here and below the first argument bounds the depth of the
recursion by the length of the script. -/
def dollar : Nat → Bool → List Char → Option (Part × List Char)
  | 0, _, _ => none
  | n + 1, quoted, cs =>
    match cs with
    | '(' :: '(' :: rest =>
      (arithmetic n 0 rest).map fun (expression, rest) => (.arithmetic expression quoted, rest)
    | '(' :: rest => do
      let (script, rest) ← commands n rest
      match rest with
      | ')' :: rest => some (.output script quoted, rest)
      | _ => none
    | '{' :: rest => parameter n quoted rest
    | c :: rest =>
      if isNameStart c then
        let name := cs.takeWhile isNameChar
        some (.parameter (String.ofList name) .plain quoted, cs.drop name.length)
      else if Decimal.isDigit c || isSpecial c then
        some (.parameter (String.ofList [c]) .plain quoted, rest)
      else some (literal ['$'] quoted, cs)
    | [] => some (literal ['$'] quoted, [])

/-- Reads a parameter after its opening brace, up to the closing one. Within quotes, the word that
may stand for its value is quoted as well. -/
def parameter : Nat → Bool → List Char → Option (Part × List Char)
  | 0, _, _ => none
  | n + 1, quoted, cs =>
    match lengthOf? cs with
    | some (name, rest) => some (.parameter name .length quoted, rest)
    | none =>
      let name := parameterName cs
      let finish (form : Form) (rest : List Char) : Part × List Char :=
        (.parameter (String.ofList name) form quoted, rest)
      let patterned (form : Word → Form) (rest : List Char) : Option (Part × List Char) :=
        (braced n rest).map fun (p, rest) => finish (form p) rest
      let worded (form : Word → Form) (rest : List Char) : Option (Part × List Char) :=
        if quoted then (quotedText n (some '\x7d') rest).map fun (w, rest) =>
          finish (form (if w.isEmpty then [literal [] true] else w)) rest
        else patterned form rest
      match name, cs.drop name.length with
      | [], rest => patterned (fun _ => .unknown) rest
      | _, '}' :: rest => some (finish .plain rest)
      | _, '#' :: '#' :: rest => patterned (.trimStart true) rest
      | _, '#' :: rest => patterned (.trimStart false) rest
      | _, '%' :: '%' :: rest => patterned (.trimEnd true) rest
      | _, '%' :: rest => patterned (.trimEnd false) rest
      | _, ':' :: '-' :: rest => worded (.orElse true false) rest
      | _, '-' :: rest => worded (.orElse false false) rest
      | _, ':' :: '=' :: rest => worded (.orElse true true) rest
      | _, '=' :: rest => worded (.orElse false true) rest
      | _, ':' :: '+' :: rest => worded (.instead true) rest
      | _, '+' :: rest => worded (.instead false) rest
      | _, ':' :: '?' :: rest => worded (fun _ => .required true) rest
      | _, '?' :: rest => worded (fun _ => .required false) rest
      | _, rest => patterned (fun _ => .unknown) rest

def braced : Nat → List Char → Option (Word × List Char)
  | 0, _ => none
  | n + 1, cs =>
    match cs with
    | [] => none
    | '}' :: rest => some ([], rest)
    | c :: rest => do
      let (part, rest) ← piece n c rest
      let (word, rest) ← braced n rest
      return (part ++ word, rest)

/-- Reads an expression up to the two parentheses that close it, with the number of those that
are open inside it. -/
def arithmetic : Nat → Nat → List Char → Option (Word × List Char)
  | 0, _, _ => none
  | n + 1, depth, cs =>
    match cs, depth with
    | [], _ => none
    | ')' :: ')' :: rest, 0 => some ([], rest)
    | ')' :: _, 0 => none
    | '$' :: rest, depth => do
      let (part, rest) ← dollar n true rest
      let (word, rest) ← arithmetic n depth rest
      return (part :: word, rest)
    | c :: rest, depth => if c = backquote then do
      let (part, rest) ← backquoted n true rest
      let (word, rest) ← arithmetic n depth rest
      return (part :: word, rest)
    else do
      let depth := if c = '(' then depth + 1 else if c = ')' then depth - 1 else depth
      let (word, rest) ← arithmetic n depth rest
      return (literal [c] true :: word, rest)

def backquoted : Nat → Bool → List Char → Option (Part × List Char)
  | 0, _, _ => none
  | n + 1, quoted, cs => do
    let (text, rest) ← upToBackquote quoted cs
    match ← commands n text with
    | (script, []) => some (.output script quoted, rest)
    | _ => none

/-- Reads the rest of a text that is quoted up to a mark, or up to the end. -/
def quotedText : Nat → Option Char → List Char → Option (Word × List Char)
  | 0, _, _ => none
  | n + 1, mark, cs =>
    match cs with
    | [] => if mark.isNone then some ([], []) else none
    | '$' :: rest => do
      let (part, rest) ← dollar n true rest
      let (word, rest) ← quotedText n mark rest
      return (part :: word, rest)
    | '\\' :: c :: rest => do
      let (word, rest) ← quotedText n mark rest
      let kept :=
        if c = '$' || some c = mark || c = '\\' || c = backquote then [c]
        else if c = '"' && mark.isSome then [c]
        else if c = '\n' then [] else ['\\', c]
      return (literal kept true :: word, rest)
    | c :: rest =>
      if some c = mark then some ([], rest)
      else do
        let (parts, rest) ← if c = backquote then
            (backquoted n true rest).map fun (part, rest) => ([part], rest)
          else if c = '"' && mark.isSome then quotedText n (some '"') rest
          else some ([literal [c] true], rest)
        let (word, rest) ← quotedText n mark rest
        return (parts ++ word, rest)

def piece : Nat → Char → List Char → Option (Word × List Char)
  | 0, _, _ => none
  | n + 1, c, rest =>
    if c = '\'' then
      let inside := rest.takeWhile (· ≠ '\'')
      match rest.dropWhile (· ≠ '\'') with
      | _ :: rest => some ([literal inside true], rest)
      | [] => none
    else if c = '"' then do
      let (word, rest) ← quotedText n (some '"') rest
      return (if word.isEmpty then [literal [] true] else word, rest)
    else if c = backquote then
      (backquoted n false rest).map fun (part, rest) => ([part], rest)
    else if c = '\\' then
      match rest with
      | '\n' :: rest => some ([], rest)
      | d :: rest => some ([literal [d] true], rest)
      | [] => some ([literal ['\\'] true], [])
    else if c = '$' then (dollar n false rest).map fun (part, rest) => ([part], rest)
    else some ([literal [c] false], rest)

def word : Nat → List Char → Option (Word × List Char)
  | 0, _ => none
  | n + 1, cs =>
    match cs with
    | [] => some ([], [])
    | c :: rest =>
      if isBreak c then some ([], cs)
      else do
        let (part, rest) ← piece n c rest
        let (word, rest) ← word n rest
        return (part ++ word, rest)

/-- Reads a text that stands in the lines below, after the sign for it. The line itself goes on
behind the word that ends the text. -/
def textBelow : Nat → Bool → List Char → Option (Word × List Char)
  | 0, _, _ => none
  | n + 1, indented, cs => do
    let (mark, rest) ← word n (blanks cs)
    let line := rest.takeWhile (· ≠ '\n')
    let (body, below) := linesBefore n indented (plainText mark) (rest.drop (line.length + 1))
    if isQuoted mark then return ([literal body true], line ++ '\n' :: below)
    else
      let (body, _) ← quotedText n none body
      return (body, line ++ '\n' :: below)

def redirect? : Nat → List Char → Option (Redirect × List Char)
  | 0, _ => none
  | n + 1, cs =>
    let ds := cs.takeWhile Decimal.isDigit
    let stream (default : Nat) : Nat := if ds.isEmpty then default else Decimal.value ds
    let isDevice (name : String) (w : Word) : Bool := plainText w = Utf8.encode ("/dev/" ++ name).toList
    let target (stream : Nat) (rest : List Char) : Option (Redirect × List Char) :=
      match rest with
      | '&' :: '-' :: rest => some (.mk stream .closed, rest)
      | '&' :: d :: rest =>
        if Decimal.isDigit d then some (.mk stream (.stream (Decimal.digitValue d)), rest) else none
      | rest => do
        let (w, after) ← word n (blanks rest)
        let devices := [("stdin", 0), ("stdout", 1), ("stderr", 2), ("fd/0", 0), ("fd/1", 1),
          ("fd/2", 2)]
        match w, devices.find? (isDevice ·.1 w) with
        | [], _ => none
        | _, some (_, number) => return (.mk stream (.stream number), after)
        | _, none => return (.mk stream .null, after)
    match cs.drop ds.length with
    | '<' :: '<' :: '-' :: rest =>
      (textBelow n true rest).map fun (text, rest) => (.mk (stream 0) (.text text), rest)
    | '<' :: '<' :: rest =>
      (textBelow n false rest).map fun (text, rest) => (.mk (stream 0) (.text text), rest)
    | '>' :: '>' :: rest | '>' :: '|' :: rest | '>' :: rest => target (stream 1) rest
    | '<' :: '>' :: rest | '<' :: rest => target (stream 0) rest
    | _ => none

def redirects : Nat → List Char → List Redirect × List Char
  | 0, cs => ([], cs)
  | n + 1, cs =>
    match redirect? n (blanks cs) with
    | some (r, rest) =>
      let (more, rest) := redirects n rest
      (r :: more, rest)
    | none => ([], cs)

def words : Nat → List Char → Option (List Word × List Redirect × List Char)
  | 0, _ => none
  | n + 1, cs =>
    let cs := blanks cs
    match redirect? n cs with
    | some (r, rest) => do
      let (ws, rs, rest) ← words n rest
      return (ws, r :: rs, rest)
    | none => do
      let (w, rest) ← word n cs
      if w.isEmpty then some ([], [], cs)
      else do
        let (ws, rs, rest) ← words n rest
        return (w :: ws, rs, rest)

def assignments : Nat → List Char → Option (List (String × Word) × List Char)
  | 0, _ => none
  | n + 1, cs =>
    let cs := blanks cs
    let name := cs.takeWhile isNameChar
    match cs.head?.map isNameStart, cs.drop name.length with
    | some true, '=' :: rest => do
      let (value, rest) ← word n rest
      let (more, rest) ← assignments n rest
      return ((String.ofList name, value) :: more, rest)
    | _, _ => some ([], cs)

/-- Reads one command, which may be a list of commands that belong together. -/
def command : Nat → List Char → Option (Command × List Char)
  | 0, _ => none
  | n + 1, cs =>
    let cs := blanks cs
    let name := cs.takeWhile isNameChar
    let afterName := blanks (cs.drop name.length)
    let redirected (read : Command × List Char) : Command × List Char :=
      let (rs, rest) := redirects n read.2
      (if rs.isEmpty then read.1 else .block [read.1] rs, rest)
    if cs.head? = some '(' then do
      let (body, rest) ← commands n (cs.drop 1)
      match rest with
      | ')' :: rest => return redirected (.apart body, rest)
      | _ => none
    else if let some rest := keyword? "\x7b" cs then do
      let (body, rest) ← commands n rest
      let rest ← keyword? "\x7d" rest
      let (rs, rest) := redirects n rest
      return (.block body rs, rest)
    else if let some rest := keyword? "while" cs then (loop n false rest).map redirected
    else if let some rest := keyword? "until" cs then (loop n true rest).map redirected
    else if let some rest := keyword? "for" cs then (each n rest).map redirected
    else if let some rest := keyword? "if" cs then (branch n rest).map redirected
    else if let some rest := keyword? "case" cs then do
      let (w, rest) ← word n (blanks rest)
      let rest ← keyword? "in" (blankLines n rest)
      let (arms, rest) ← arms n rest
      return redirected (.choose w arms, rest)
    else if !name.isEmpty && ['(', ')'].isPrefixOf afterName then do
      let (body, rest) ← command n (blankLines n (afterName.drop 2))
      return (.define (String.ofList name) body, rest)
    else do
      let (vars, rest) ← assignments n cs
      let (ws, rs, rest) ← words n rest
      if vars.isEmpty && ws.isEmpty && rs.isEmpty then none
      else some (.simple vars ws rs, rest)

def loop : Nat → Bool → List Char → Option (Command × List Char)
  | 0, _, _ => none
  | n + 1, whileFails, cs => do
    let (condition, rest) ← commands n cs
    let rest ← keyword? "do" rest
    let (body, rest) ← commands n rest
    let rest ← keyword? "done" rest
    return (.loop whileFails condition body, rest)

def each : Nat → List Char → Option (Command × List Char)
  | 0, _ => none
  | n + 1, cs => do
    let cs := blanks cs
    let name := cs.takeWhile isNameChar
    let rest := blankLines n (cs.drop name.length)
    let (ws, rest) ← match keyword? "in" rest with
      | some rest => (words n rest).map fun (ws, _, rest) => (ws, rest)
      | none => some ([[.parameter "@" .plain true]], rest)
    let rest := if (blanks rest).head? = some ';' then (blanks rest).drop 1 else rest
    let rest ← keyword? "do" (blankLines n rest)
    let (body, rest) ← commands n rest
    let rest ← keyword? "done" rest
    return (.each (String.ofList name) ws body, rest)

def branch : Nat → List Char → Option (Command × List Char)
  | 0, _ => none
  | n + 1, cs => do
    let (condition, rest) ← commands n cs
    let rest ← keyword? "then" rest
    let (body, rest) ← commands n rest
    if let some rest := keyword? "elif" rest then
      let (other, rest) ← branch n rest
      return (.branch condition body [other], rest)
    else if let some rest := keyword? "else" rest then
      let (other, rest) ← commands n rest
      let rest ← keyword? "fi" rest
      return (.branch condition body other, rest)
    else
      let rest ← keyword? "fi" rest
      return (.branch condition body [], rest)

def arms : Nat → List Char → Option (List (List Word × Script) × List Char)
  | 0, _ => none
  | n + 1, cs =>
    let cs := blankLines n cs
    if let some rest := keyword? "esac" cs then some ([], rest)
    else do
      let cs := if cs.head? = some '(' then cs.drop 1 else cs
      let (ps, rest) ← patterns n cs
      let (body, rest) ← commands n rest
      let rest := if [';', ';'].isPrefixOf rest then rest.drop 2 else rest
      let (more, rest) ← arms n rest
      return ((ps, body) :: more, rest)

def patterns : Nat → List Char → Option (List Word × List Char)
  | 0, _ => none
  | n + 1, cs => do
    let (w, rest) ← word n (blanks cs)
    match blanks rest with
    | ')' :: rest => some ([w], rest)
    | '|' :: rest => do
      let (ws, rest) ← patterns n rest
      return (w :: ws, rest)
    | _ => none

/-- Reads commands of which each reads what the one before it writes. -/
def pipeline : Nat → List Char → Option (Command × List Char)
  | 0, _ => none
  | n + 1, cs =>
    if let some rest := keyword? "!" (blanks cs) then
      (pipeline n rest).map fun (c, rest) => (.negate c, rest)
    else do
      let (first, rest) ← command n cs
      match blanks rest with
      | '|' :: '|' :: _ => return (first, rest)
      | '|' :: rest =>
        let (second, rest) ← pipeline n (blankLines n rest)
        return (.pipe first second, rest)
      | _ => return (first, rest)

/-- Reads commands joined by `&&` and `||` behind a first one. -/
def joined : Nat → Command → List Char → Option (Command × List Char)
  | 0, _, _ => none
  | n + 1, first, cs =>
    match blanks cs with
    | '&' :: '&' :: rest => do
      let (second, rest) ← pipeline n (blankLines n rest)
      joined n (.both first second) rest
    | '|' :: '|' :: rest => do
      let (second, rest) ← pipeline n (blankLines n rest)
      joined n (.either first second) rest
    | rest => some (first, rest)

/-- Reads commands up to the end of a line, or to a word or sign that closes the list. -/
def line : Nat → List Char → Option (Script × List Char)
  | 0, _ => none
  | n + 1, cs => do
    let (first, rest) ← pipeline n cs
    let (first, rest) ← joined n first rest
    let goOn (first : Command) (rest : List Char) : Option (Script × List Char) :=
      let rest := blanks rest
      if rest.isEmpty || rest.head? = some '\n' || atCloser rest then some ([first], rest)
      else (line n rest).map fun (more, rest) => (first :: more, rest)
    match blanks rest with
    | '&' :: rest => goOn (.background first) rest
    | ';' :: ';' :: rest => return ([first], ';' :: ';' :: rest)
    | ';' :: rest => goOn first rest
    | rest => return ([first], rest)

def commands : Nat → List Char → Option (Script × List Char)
  | 0, _ => none
  | n + 1, cs =>
    let cs := blankLines n cs
    if cs.isEmpty || atCloser cs then some ([], cs)
    else do
      let (first, rest) ← line n cs
      match rest with
      | '\n' :: rest => do
        let (more, rest) ← commands n rest
        return (first ++ more, rest)
      | rest => if rest.isEmpty || atCloser rest then some (first, rest) else none

end

/-- The commands of lines that each hold whole ones. The first that does not is the last. -/
def lines : Nat → List Char → Script
  | 0, _ => []
  | n + 1, cs =>
    let cs := blankLines n cs
    if cs.isEmpty then []
    else match if atCloser cs then none else line n cs with
      | some (first, []) => first
      | some (first, '\n' :: rest) => first ++ lines n rest
      | _ => [.unreadable]

def script (text : List Char) : Script := lines (text.length * 4 + 16) text

end LanguageClient.Shell.Reader
