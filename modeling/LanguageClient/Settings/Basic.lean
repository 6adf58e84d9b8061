import LanguageClient.Config
import LanguageClient.Config.Writer
import LanguageClient.Options.Value

namespace LanguageClient

structure Settings where
  logging : Log.Settings := {}
  handshake : PollBudget := ⟨40, 250⟩
  completion : PollBudget := ⟨15, 50⟩
  debounceMs : UInt64 := 50
  maxCompletions : UInt64 := 25
  shutdownGraceMs : UInt64 := 200
  commands : Language → Option Path := fun _ => none

namespace Settings

inductive Key where
  | logFilter
  | logFormat
  | handshakeAttempts
  | handshakeInterval
  | completionAttempts
  | completionInterval
  | debounce
  | maxCompletions
  | shutdownGrace
  | command (language : Language)
  deriving DecidableEq

namespace Key

def all : List Key :=
  [logFilter, logFormat, handshakeAttempts, handshakeInterval, completionAttempts,
    completionInterval, debounce, maxCompletions, shutdownGrace] ++ Language.all.map command

theorem mem_all (k : Key) : k ∈ all := by
  cases k with
  | command l => cases l <;> decide
  | _ => decide

def words : Key → List String
  | logFilter => ["log", "filter"]
  | logFormat => ["log", "format"]
  | handshakeAttempts => ["handshake", "attempts"]
  | handshakeInterval => ["handshake", "interval", "ms"]
  | completionAttempts => ["completion", "attempts"]
  | completionInterval => ["completion", "interval", "ms"]
  | debounce => ["debounce", "ms"]
  | maxCompletions => ["max", "completions"]
  | shutdownGrace => ["shutdown", "grace", "ms"]
  | command language => [language.name, "command"]

def name (k : Key) : String := "_".intercalate k.words

def flag (k : Key) : String := "--" ++ "-".intercalate k.words

/-- The letter that stands for the flag after one dash: the first of the name that is free, small or
else large. The small `h` asks for help. -/
def letter : Key → Char
  | logFilter => 'l'
  | logFormat => 'L'
  | handshakeAttempts => 'H'
  | handshakeInterval => 'a'
  | completionAttempts => 'c'
  | completionInterval => 'C'
  | debounce => 'd'
  | maxCompletions => 'm'
  | shutdownGrace => 's'
  | command .cpp => 'p'
  | command .python => 'P'
  | command .typescript => 't'
  | command .go => 'g'
  | command .luau => 'u'

def kind : Key → Options.Kind
  | logFilter => .text
  | logFormat => .format
  | handshakeAttempts | completionAttempts => .word32
  | handshakeInterval | completionInterval | debounce | maxCompletions | shutdownGrace => .word64
  | command _ => .path

end Key

/-- The configuration of the client. A language with a command of its own has an override. -/
def config (s : Settings) : Config where
  servers language := (s.commands language).map fun command => { command := some command }
  handshake := s.handshake
  completion := s.completion
  debounceMs := s.debounceMs
  maxCompletions := s.maxCompletions
  shutdownGraceMs := s.shutdownGraceMs
  logging := s.logging

def valueJson (s : Settings) : Key → Json
  | .logFilter => .str s.logging.filter
  | .logFormat => .str s.logging.format.name
  | .handshakeAttempts => .int s.handshake.attempts.toNat
  | .handshakeInterval => .int s.handshake.intervalMs.toNat
  | .completionAttempts => .int s.completion.attempts.toNat
  | .completionInterval => .int s.completion.intervalMs.toNat
  | .debounce => .int s.debounceMs.toNat
  | .maxCompletions => .int s.maxCompletions.toNat
  | .shutdownGrace => .int s.shutdownGraceMs.toNat
  | .command language => Config.jsonOption Config.jsonPath (s.commands language)

def json (s : Settings) : Json := .obj (Key.all.map fun k => (k.name, s.valueJson k))

end Settings

end LanguageClient
