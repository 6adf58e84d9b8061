import LanguageClient.Json.Number
import LanguageClient.Text.Radix

namespace LanguageClient.Json

/-- One written element of a string: a character, or the code unit of a `\u` escape. -/
inductive Piece where
  | char (c : Char)
  | unit (u : Nat)
  deriving DecidableEq

/-- The text that the pieces stand for: a high surrogate joins with the low one after it, and any
other surrogate is refused. -/
def Piece.text? : List Piece → Option (List Char)
  | [] => some []
  | .char c :: rest => (text? rest).map (c :: ·)
  | [.unit u] => if 0xD800 ≤ u && u < 0xE000 then none else some [Char.ofNat u]
  | .unit u :: next :: rest =>
    if 0xD800 ≤ u && u < 0xDC00 then
      match next with
      | .unit v =>
        if 0xDC00 ≤ v && v < 0xE000 then
          (text? rest).map (Char.ofNat (0x10000 + (u - 0xD800) * 0x400 + (v - 0xDC00)) :: ·)
        else none
      | .char _ => none
    else if 0xDC00 ≤ u && u < 0xE000 then none
    else (text? (next :: rest)).map (Char.ofNat u :: ·)

inductive Keyword where
  | null
  | true
  | false
  deriving DecidableEq

inductive Token where
  | keyword (k : Keyword)
  | number (l : NumberLiteral)
  | text (pieces : List Piece)
  | openArr
  | closeArr
  | openObj
  | closeObj
  | comma
  | colon

namespace Token

/-- What is being read; the lists hold the newest element first. -/
inductive Mode where
  | between
  | word (seen : List Char)
  | number (seen : List Char)
  | text (seen : List Piece)
  | escape (seen : List Piece)
  | hex (seen : List Piece) (left : Nat) (value : Nat)

/-- The tokens read so far, newest first, and what is being read. -/
structure Lexer where
  tokens : List Token
  mode : Mode

namespace Lexer

def start : Lexer := ⟨[], .between⟩

def isNumberChar (c : Char) : Bool :=
  Decimal.isDigit c || c = '-' || c = '+' || c = '.' || c = 'e' || c = 'E'

def keyword? : List Char → Option Keyword
  | ['n', 'u', 'l', 'l'] => some .null
  | ['t', 'r', 'u', 'e'] => some .true
  | ['f', 'a', 'l', 's', 'e'] => some .false
  | _ => none

def unescape? : Char → Option Char
  | '"' => some '"'
  | '\\' => some '\\'
  | '/' => some '/'
  | 'b' => some '\x08'
  | 'f' => some '\x0c'
  | 'n' => some '\n'
  | 'r' => some '\r'
  | 't' => some '\t'
  | _ => none

def begin? (tokens : List Token) (c : Char) : Option Lexer :=
  match c with
  | ' ' | '\t' | '\n' | '\r' => some ⟨tokens, .between⟩
  | '[' => some ⟨.openArr :: tokens, .between⟩
  | ']' => some ⟨.closeArr :: tokens, .between⟩
  | '{' => some ⟨.openObj :: tokens, .between⟩
  | '}' => some ⟨.closeObj :: tokens, .between⟩
  | ',' => some ⟨.comma :: tokens, .between⟩
  | ':' => some ⟨.colon :: tokens, .between⟩
  | '"' => some ⟨tokens, .text []⟩
  | _ =>
    if Decimal.isDigit c || c = '-' then some ⟨tokens, .number [c]⟩
    else if c.isLower then some ⟨tokens, .word [c]⟩
    else none

def close? (lexer : Lexer) : Option (List Token) :=
  match lexer.mode with
  | .between => some lexer.tokens
  | .word seen => (keyword? seen.reverse).map fun k => .keyword k :: lexer.tokens
  | .number seen => (NumberLiteral.ofChars? seen.reverse).map fun l => .number l :: lexer.tokens
  | .text _ | .escape _ | .hex .. => none

def feed? (lexer : Lexer) (c : Char) : Option Lexer :=
  match lexer.mode with
  | .between => begin? lexer.tokens c
  | .word seen =>
    if c.isLower then some { lexer with mode := .word (c :: seen) }
    else do begin? (← lexer.close?) c
  | .number seen =>
    if isNumberChar c then some { lexer with mode := .number (c :: seen) }
    else do begin? (← lexer.close?) c
  | .text seen =>
    if c = '"' then some ⟨.text seen.reverse :: lexer.tokens, .between⟩
    else if c = '\\' then some { lexer with mode := .escape seen }
    else if c.toNat < 0x20 then none
    else some { lexer with mode := .text (.char c :: seen) }
  | .escape seen =>
    if c = 'u' then some { lexer with mode := .hex seen 4 0 }
    else (unescape? c).map fun d => { lexer with mode := .text (.char d :: seen) }
  | .hex seen left value =>
    (Radix.digit? c).map fun d =>
      let value := value * 16 + d
      if left ≤ 1 then { lexer with mode := .text (.unit value :: seen) }
      else { lexer with mode := .hex seen (left - 1) value }

end Lexer

/-- The tokens of a text. -/
def ofChars? (cs : List Char) : Option (List Token) := do
  let lexer ← cs.foldlM Lexer.feed? Lexer.start
  return (← lexer.close?).reverse

end Token

end LanguageClient.Json
