import LanguageClient.Language
import LanguageClient.Wire.Frame
import LanguageClient.Wire.Inbox

namespace LanguageClient.Wire

def listenerName (language : Language) : String := "lsp-reader-" ++ language.name

/-- How far listening got: what is left of the stream, and whether a fault ended the work. -/
structure Heard where
  rest : Source
  inbox : Inbox
  stopped : Bool

set_option linter.unusedVariables false in
/-- Pushes the frames of a stream into an inbox, up to where the next frame is incomplete. -/
def hear (s : Source) (inbox : Inbox) : Heard :=
  match h : Frame.read s with
  | (.ok body, rest) => hear rest (inbox.push body).2
  | (.error .missingContentLength, rest) => hear rest inbox
  | (.error .invalidHeader, rest) => hear rest inbox
  | (.error .closed, _) => ⟨s, inbox, false⟩
  | (.error _, rest) => ⟨rest, inbox, true⟩
termination_by s.size
decreasing_by
  all_goals
    have := Frame.size_read_lt (s := s) (by simp [h])
    simpa [h] using this

/-- Pushes every frame of a stream into an inbox and closes it. -/
def listen (s : Source) (inbox : Inbox) : Inbox := (hear s inbox).inbox.close

end LanguageClient.Wire
