import LanguageClient.Path

namespace LanguageClient.CommandLine

/-- A titled list, each entry with what is said about it. -/
structure Listing where
  title : String
  rows : List (String × String)

/-- The second column begins two blanks after the longest entry. -/
def Listing.text (l : Listing) : String :=
  let width := (l.rows.map (·.1.length)).foldl max 0
  let line (row : String × String) : String :=
    "\n  " ++ row.1 ++ String.ofList (List.replicate (width + 2 - row.1.length) ' ') ++ row.2
  l.title ++ ":" ++ String.join (l.rows.map line)

def paragraphs (ps : List String) : String := "\n\n".intercalate ps ++ "\n"

namespace Help

def about : String := "Drives language servers from a terminal"

def completeAbout : String := "Requests completions at a position and prints them as JSON lines"

def probeAbout : String := "Starts the server for a file's language and runs the handshake"

def note : String :=
  "Configuration flags such as --config-path, --log-filter and --log-format go before the " ++
  "subcommand. Settings may also come from a TOML file or TETHER_* environment variables."

def helpRow : String × String := ("-h, --help", "Print help")

def workspaceRow : String × String :=
  ("    --workspace <DIR>", "Workspace root; defaults to the file's directory")

def program (name : Option String) : String :=
  paragraphs [about, "Usage: " ++ name.getD "tether" ++ " <COMMAND>",
    Listing.text ⟨"Commands", [("complete", completeAbout), ("probe", probeAbout)]⟩,
    Listing.text ⟨"Options", [helpRow]⟩, note]

/-- The usage of a command of the program, which begins with the name that the program was called
by. -/
def usage (name : Option String) (command : String) : String :=
  "Usage: " ++ (name.map (· ++ " ")).getD "" ++ command

def complete (name : Option String) : String :=
  paragraphs [completeAbout,
    usage name "complete [OPTIONS] --line <LINE> --character <CHARACTER> <FILE>",
    Listing.text ⟨"Arguments", [("<FILE>", "Document to complete in")]⟩,
    Listing.text ⟨"Options", [
      ("    --line <LINE>", "Zero-based line"),
      ("    --character <CHARACTER>", "Zero-based byte column"), workspaceRow, helpRow]⟩]

def probe (name : Option String) : String :=
  paragraphs [probeAbout, usage name "probe [OPTIONS] <FILE>",
    Listing.text ⟨"Arguments", [("<FILE>", "Document whose language selects the server")]⟩,
    Listing.text ⟨"Options", [workspaceRow, helpRow]⟩]

/-- The name that the program was called by: the file name of the first argument, if it has one. -/
def programName? (arguments : List String) : Option String :=
  (arguments.head?.bind fun argument => (Path.mk argument).fileName?).map String.ofList

end Help

end LanguageClient.CommandLine
