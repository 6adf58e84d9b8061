namespace LanguageClient.Log

inductive Format where
  | json
  | compact
  deriving DecidableEq, Inhabited

namespace Format

def name : Format → String
  | json => "json"
  | compact => "compact"

def ofName? : String → Option Format
  | "json" => some json
  | "compact" => some compact
  | _ => none

theorem ofName?_name (f : Format) : ofName? f.name = some f := by cases f <;> rfl

/-- The format with this name in any mixture of ASCII cases. -/
def parse? (text : String) : Option Format :=
  ofName? (String.ofList (text.toList.map Char.toLower))

def unknownMessage : String := "Matching variant not found"

end Format

structure Settings where
  filter : String := "info"
  format : Format := .compact
  deriving DecidableEq

end LanguageClient.Log
