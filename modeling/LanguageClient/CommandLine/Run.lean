import LanguageClient.CommandLine.Command
import LanguageClient.Log.Filter
import LanguageClient.Settings.Load
import LanguageClient.Workspace.Completion
import LanguageClient.Workspace.DocumentSync

namespace LanguageClient.CommandLine

open Server Suggest Workspace

inductive Fault where
  | misuse
  | settings (fault : Settings.Fault)
  | logging (fault : Log.Fault)
  | unsupported (file : Path)
  | unreadable (file : Path) (reason : Missing)
  | unavailable (language : Language)
  | unsettled (id : Int)
  | incomplete (outcome : Option Outcome)

def outcomeText : Option Outcome → String
  | none => "None"
  | some (.resolved count) =>
    "Some(Resolved \x7b count: " ++ Decimal.render count ++ " \x7d)"
  | some .timedOut => "Some(TimedOut)"
  | some .failed => "Some(Failed)"
  | some .dropped => "Some(Dropped)"

def Fault.message : Fault → String
  | misuse => "the arguments are not understood"
  | settings fault => "failed to load configuration: " ++ fault.message
  | logging fault => "failed to initialise logging: " ++ fault.message
  | unsupported file => "no language server handles " ++ file.text
  | unreadable file reason => "failed to read " ++ file.text ++ ": " ++ reason.message
  | unavailable language => "the " ++ language.name ++ " language server is not available"
  | unsettled id => "completion request " ++ Decimal.renderInt id ++ " did not settle"
  | incomplete outcome => "completion ended without results: " ++ outcomeText outcome

/-- How a run ends. -/
inductive Ending where
  | success
  | failure (fault : Fault)
  /-- The run breaks off, because the end of a wait is too late for the clock or the wait is too
  long to be measured. -/
  | overflow

structure Report where
  output : String := ""
  ending : Ending

namespace Report

def failed (fault : Fault) : Report := { ending := .failure fault }

def errorText (r : Report) : String :=
  match r.ending with
  | .failure fault => fault.message ++ "\n"
  | _ => ""

end Report

/-- How much longer than the budget of a request its end is awaited. -/
def settleSlack : Duration := .ofMillis 1000

def itemLine (item : Item) (selected : Bool) : String :=
  (Json.obj (item.members ++ [("selected", .bool selected)])).render ++ "\n"

def itemLines (menu : Menu) : List String :=
  menu.items.mapIdx fun index item => itemLine item (index == menu.selectedIndex)

/-- What is reported of a request once the wait for it is over. -/
def Report.ofMenu (menu : Menu) (id : Int) : Report :=
  if !menu.hasSettled id then .failed (.unsettled id)
  else match menu.lastOutcome with
    | some (.resolved _) => { output := String.join (itemLines menu), ending := .success }
    | outcome => .failed (.incomplete outcome)

variable {σ : Type} [Adapter σ]

/-- Starts the server of a file for a workspace, which is the file's directory if none is given. -/
def startServer (file : Path) (workspace : Option Path) (r : Registry σ) (a : Ambient) :
    Except Ending Language × Registry σ × Ambient :=
  match Language.ofPath? file with
  | none => (.error (.failure (.unsupported file)), r, a)
  | some language =>
    match r.select file with
    | (false, r) => (.error (.failure (.unavailable language)), r, a)
    | (true, r) =>
      let root := workspace.getD file.directory
      if r.overruns root a then (.error .overflow, r, a)
      else match r.start root a with
        | (true, r, a) => (.ok language, r, a)
        | (false, r, a) => (.error (.failure (.unavailable language)), r, a)

def probe (file : Path) (workspace : Option Path) (r : Registry σ) (a : Ambient) :
    Report × Registry σ × Ambient :=
  match startServer file workspace r a with
  | (.error ending, r, a) => ({ ending }, r, a)
  | (.ok language, r, a) =>
    ({ output := language.name ++ " server ready\n", ending := .success }, r, a)

/-- How long the end of a request is awaited, if that can be measured. -/
def wait? (config : Config) (a : Ambient) : Option Duration :=
  (config.completion.total.add? settleSlack).filter a.canWait

/-- Carries a request for an open file out and closes the file, if the wait for the request can be
measured. -/
def completeWithin (wait : Option Duration) (config : Config) (request : CompletionRequest)
    (document : Document.Snapshot) (r : Registry σ) (a : Ambient) :
    Report × Registry σ × Ambient :=
  match wait with
  | none => ({ ending := .overflow }, r, a)
  | some _ =>
    let (c, r, a) := (Completion.ofConfig config).settle request document r a
    if DocumentSync.overruns request.path r a then ({ ending := .overflow }, r, a)
    else
      let (_, r, a) := DocumentSync.didClose request.path r a
      (.ofMenu c.menu request.id, r, a)

def completeOpened (config : Config) (file : Path) (line character : UInt32) (text : String)
    (r : Registry σ) (a : Ambient) : Report × Registry σ × Ambient :=
  let (id, a) := a.drawId
  completeWithin (wait? config a) config ⟨id, file, line, character⟩
    (.openAt text line character) r a

def complete (config : Config) (file : Path) (line character : UInt32) (workspace : Option Path)
    (read : Except Missing String) (r : Registry σ) (a : Ambient) :
    Report × Registry σ × Ambient :=
  match Language.ofPath? file, read with
  | none, _ => (.failed (.unsupported file), r, a)
  | some _, .error reason => (.failed (.unreadable file reason), r, a)
  | some language, .ok text =>
    match startServer file workspace r a with
    | (.error ending, r, a) => ({ ending }, r, a)
    | (.ok _, r, a) =>
      if DocumentSync.overruns file r a then ({ ending := .overflow }, r, a)
      else match DocumentSync.didOpen file text r a with
        | (false, r, a) => (.failed (.unavailable language), r, a)
        | (true, r, a) => completeOpened config file line character text r a

/-- Carries a command out and shuts every server down, unless the run breaks off. -/
def execute (command : Command) (config : Config) (read : Path → Except Missing String)
    (r : Registry σ) (a : Ambient) : Report × Registry σ × Ambient :=
  let (report, r, a) := match command with
    | .complete file line character workspace =>
      complete config file line character workspace (read file) r a
    | .probe file workspace => probe file workspace r a
  match report.ending with
  | .overflow => (report, r, a)
  | _ =>
    let (r, a) := r.shutdown a
    (report, r, a)

/-- Runs the program with arguments of which the first is its name, in a process whose log may be
set up already. -/
def run (h : Host) (environment : List (String × String)) (logInstalled : Bool)
    (arguments : List String) : Report :=
  let (flags, command) := Settings.splitArguments arguments
  match Call.ofArguments command with
  | .help text => { output := text, ending := .success }
  | .misuse => .failed .misuse
  | .run command =>
    match Settings.load h environment flags with
    | .error fault => .failed (.settings fault)
    | .ok settings =>
      let config := settings.config
      match Log.install config.logging logInstalled with
      | (.error fault, _) => .failed (.logging fault)
      | (.ok (), _) => (execute command config h.readText (supervised h config) {}).1

end LanguageClient.CommandLine
