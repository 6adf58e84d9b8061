import LanguageClient.Json.Basic
import LanguageClient.Text.Decimal
import LanguageClient.Text.Utf8

namespace LanguageClient.Json

def hexDigit (n : Nat) : Char := if n < 10 then Char.ofNat (48 + n) else Char.ofNat (87 + n)

/-- A character as it stands inside a string: quotes, backslashes and control characters below space
are escaped, and nothing else. -/
def escape (c : Char) : List Char :=
  match c with
  | '"' => ['\\', '"']
  | '\\' => ['\\', '\\']
  | '\x08' => ['\\', 'b']
  | '\x0c' => ['\\', 'f']
  | '\n' => ['\\', 'n']
  | '\r' => ['\\', 'r']
  | '\t' => ['\\', 't']
  | _ =>
    if c.toNat < 0x20 then
      ['\\', 'u', '0', '0', hexDigit (c.toNat / 16), hexDigit (c.toNat % 16)]
    else [c]

def quote (text : String) : List Char := '"' :: (text.toList.flatMap escape ++ ['"'])

mutual

def chars : Json → List Char
  | null => "null".toList
  | bool true => "true".toList
  | bool false => "false".toList
  | int n => (Decimal.renderInt n).toList
  | real m e => (Decimal.renderInt m).toList ++ 'e' :: (Decimal.renderInt e).toList
  | str text => quote text
  | arr items => '[' :: (itemChars items ++ [']'])
  | obj members => '{' :: (memberChars members ++ ['}'])

def itemChars : List Json → List Char
  | [] => []
  | [item] => item.chars
  | item :: next :: rest => item.chars ++ ',' :: itemChars (next :: rest)

def memberChars : List (String × Json) → List Char
  | [] => []
  | [(key, value)] => quote key ++ ':' :: value.chars
  | (key, value) :: next :: rest =>
    quote key ++ ':' :: (value.chars ++ ',' :: memberChars (next :: rest))

end

def render (value : Json) : String := String.ofList value.chars

/-- The UTF-8 bytes of the compact text. -/
def bytes (value : Json) : Bytes := Utf8.encode value.chars

end LanguageClient.Json
