import LanguageClient.Config
import LanguageClient.Json.Writer

namespace LanguageClient.Config

def jsonNat (n : Nat) : Json := .int n

def jsonOption {α : Type} (write : α → Json) : Option α → Json
  | some value => write value
  | none => .null

def jsonPath (p : Path) : Json := .str p.text

def budgetJson (b : PollBudget) : Json :=
  .obj [("attempts", jsonNat b.attempts.toNat), ("interval_ms", jsonNat b.intervalMs.toNat)]

def overrideJson (o : ServerOverride) : Json :=
  .obj [
    ("command", jsonOption jsonPath o.command),
    ("args", jsonOption (fun args => .arr (args.map .str)) o.args),
    ("working_dir", jsonOption jsonPath o.workingDir)]

def loggingJson (l : Log.Settings) : Json :=
  .obj [("filter", .str l.filter), ("format", .str l.format.name)]

/-- The overrides that are present, in the order of the languages. -/
def serversJson (servers : Language → Option ServerOverride) : Json :=
  .obj (Language.all.filterMap fun l => (servers l).map fun o => (l.name, overrideJson o))

def json (c : Config) : Json :=
  .obj [
    ("servers", serversJson c.servers),
    ("handshake", budgetJson c.handshake),
    ("completion", budgetJson c.completion),
    ("debounce_ms", jsonNat c.debounceMs.toNat),
    ("max_completions", jsonNat c.maxCompletions.toNat),
    ("shutdown_grace_ms", jsonNat c.shutdownGraceMs.toNat),
    ("inbox_capacity", jsonNat c.inboxCapacity.toNat),
    ("logging", loggingJson c.logging)]

end LanguageClient.Config
