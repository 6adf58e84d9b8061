import LanguageClient.Duration
import LanguageClient.Language
import LanguageClient.Log.Settings

namespace LanguageClient

/-- How long a reply is awaited: a number of waits of one interval each. -/
structure PollBudget where
  attempts : UInt32
  intervalMs : UInt64
  deriving DecidableEq

namespace PollBudget

def interval (b : PollBudget) : Duration := .ofMillis b.intervalMs

def total (b : PollBudget) : Duration := b.interval.saturatingMul b.attempts

end PollBudget

/-- What replaces parts of a server's own launch command. -/
structure ServerOverride where
  command : Option Path := none
  args : Option (List String) := none
  workingDir : Option Path := none

structure Config where
  servers : Language → Option ServerOverride := fun _ => none
  handshake : PollBudget := ⟨40, 250⟩
  completion : PollBudget := ⟨15, 50⟩
  debounceMs : UInt64 := 50
  maxCompletions : UInt64 := 25
  shutdownGraceMs : UInt64 := 200
  inboxCapacity : UInt64 := 256
  logging : Log.Settings := {}

namespace Config

def debounce (c : Config) : Duration := .ofMillis c.debounceMs

def shutdownGrace (c : Config) : Duration := .ofMillis c.shutdownGraceMs

end Config

end LanguageClient
