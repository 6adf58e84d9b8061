import LanguageClient.Settings.File
import LanguageClient.Settings.Flags
import LanguageClient.Settings.Variables

namespace LanguageClient.Settings

/-- The settings for arguments of which the first is the program's name. Flags are stronger than
variables of the environment, and these than the configuration file. How each source is understood
is left to the libraries that settings are loaded with, whose documented rules `Options.Form`,
`Layer` and `Toml` follow. -/
def load (h : Server.Host) (environment : List (String × String)) (arguments : List String) :
    Except Fault Settings :=
  match form.read (arguments.drop 1) with
  | .error _ => .error .flags
  | .ok given => do
    let files ← fileLayers h ((given.text? fileFlag).map Path.mk)
      ((environment.lookup fileVariable).map Path.mk)
    ofLayers (flagLayer given :: variableLayer environment :: files)

end LanguageClient.Settings
