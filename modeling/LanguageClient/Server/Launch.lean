import LanguageClient.Config

namespace LanguageClient.Server

/-- A command with its arguments and the directory it runs in. -/
structure Launch where
  command : Path
  args : List String
  workingDir : Option Path := none

namespace Launch

def overriddenBy (l : Launch) : Option ServerOverride → Launch
  | none => l
  | some o =>
    { command := o.command.getD l.command
      args := o.args.getD l.args
      workingDir := o.workingDir <|> l.workingDir }

end Launch

def bundledLuau (installDir : Path) : Path :=
  ((((installDir.join "servers").join "luau-lsp").join "current").join "linux-x64").join "luau-lsp"

def luauArgs : List String :=
  ["lsp", "--docs=./luau-config/en-us.json", "--definitions=./luau-config/globalTypes.d.lua",
    "--base-luaurc=./luau-config/.luaurc"]

/-- How the Luau server is launched: the bundled one if it is there, else one on the search path. -/
def luauLaunch (installDir : Option Path) (isFile : Path → Bool) : Launch :=
  let bundled := (installDir.map bundledLuau).filter isFile
  ⟨bundled.getD ⟨"luau-lsp"⟩, luauArgs, none⟩

def defaultLaunch (installDir : Option Path) (isFile : Path → Bool) : Language → Launch
  | .cpp => ⟨⟨"clangd"⟩, [], none⟩
  | .python => ⟨⟨"pyright-langserver"⟩, ["--stdio"], none⟩
  | .typescript => ⟨⟨"typescript-language-server"⟩, ["--stdio"], none⟩
  | .go => ⟨⟨"gopls"⟩, [], none⟩
  | .luau => luauLaunch installDir isFile

/-- The name by which a language's server knows the language of a file. -/
def languageId (language : Language) (p : Path) : String :=
  match language with
  | .cpp => if p.extension? = some "c" then "c" else "cpp"
  | .python => "python"
  | .typescript => match p.extension? with
    | some "tsx" => "typescriptreact"
    | some "js" => "javascript"
    | some "jsx" => "javascriptreact"
    | _ => "typescript"
  | .go => "go"
  | .luau => "luau"

end LanguageClient.Server
