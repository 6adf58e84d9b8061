import LanguageClient.Path
import LanguageClient.Text.Blank

namespace LanguageClient

inductive Language where
  | cpp
  | python
  | typescript
  | go
  | luau
  deriving DecidableEq, Inhabited

namespace Language

def all : List Language := [cpp, python, typescript, go, luau]

theorem mem_all (l : Language) : l ∈ all := by cases l <;> decide

def name : Language → String
  | cpp => "cpp"
  | python => "python"
  | typescript => "typescript"
  | go => "go"
  | luau => "luau"

theorem name_injective {a b : Language} (h : a.name = b.name) : a = b := by
  revert h; cases a <;> cases b <;> decide

def ofName? (text : String) : Option Language := all.find? (·.name = text)

theorem ofName?_name (l : Language) : ofName? l.name = some l := by cases l <;> decide

/-- A name that no language answers to, in its normal form. -/
structure Unsupported where
  input : String

def Unsupported.message (e : Unsupported) : String :=
  "unsupported language '" ++ e.input ++ "'"

/-- Reads a language by its name or a common alias, whatever the case and the blanks around. -/
def parse (text : String) : Except Unsupported Language :=
  let normal := String.ofList ((Text.trim text.toList).map Char.toLower)
  match normal with
  | "cpp" | "c++" | "c" => .ok cpp
  | "python" | "py" => .ok python
  | "typescript" | "ts" | "javascript" | "js" => .ok typescript
  | "go" | "golang" => .ok go
  | "luau" | "lua" => .ok luau
  | _ => .error ⟨normal⟩

def ofExtension? : String → Option Language
  | "c" | "cpp" | "cc" | "cxx" | "h" | "hpp" => some cpp
  | "py" => some python
  | "ts" | "tsx" | "js" | "jsx" => some typescript
  | "go" => some go
  | "lua" | "luau" => some luau
  | _ => none

def ofPath? (p : Path) : Option Language := p.extension?.bind ofExtension?

end Language

end LanguageClient
