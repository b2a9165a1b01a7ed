import PluginSurface.CommandLine.Request
import PluginSurface.Config
import PluginSurface.Diagnostic
import PluginSurface.Libraries
import PluginSurface.Report

/-!
# Running a request

A run reads files, writes reports to the standard output, and notices and diagnostics to the
standard error. It ends with 0 if it succeeds, with 2 if the arguments cannot be read, and with 1
if something else is wrong.
-/

namespace PluginSurface.CommandLine

/-- What a run leaves behind. -/
structure Outcome where
  code : Nat
  stdout : String
  stderr : String
deriving DecidableEq, Repr

/-- A character as it is written to the log. Controls that a terminal acts on are written out. -/
def logChar (c : Char) : List Char :=
  let n := c.toNat
  if n ∈ [0x07, 0x08, 0x0C, 0x1B, 0x7F] then
    ['\\', 'x'] ++ (if n < 0x10 then ['0'] else []) ++ Nat.toDigits 16 n
  else if 0x80 ≤ n ∧ n ≤ 0x9F then ['\\', 'u', '\x7b'] ++ Nat.toDigits 16 n ++ ['\x7d']
  else [c]

def logLine (colour : Bool) (n : Notice) : String :=
  let level :=
    match n with
    | .skipped .. => Diagnostic.coloured colour "33" " WARN"
    | .counted .. => Diagnostic.coloured colour "32" " INFO"
  level ++ " " ++ String.ofList (n.message.toList.flatMap logChar) ++ "\n"

def log (colour : Bool) (notices : List Notice) : String :=
  String.join (notices.map (logLine colour))

def bareError (message : String) : String := "error: " ++ message ++ "\n"

/-- Why a file that is there cannot be read. -/
def notText : String := "stream did not contain valid UTF-8"

def configErrorText (e : ConfigError) : String :=
  bareError <|
    match e with
    | .unreadable _ => e.message ++ ": " ++ notText
    | .notFound _ | .malformed _ => e.message

def loadErrorText (colour : Bool) (e : LoadError) : String :=
  match e with
  | .entryNotFound path =>
    ((Diagnostic.plain .error "entry file not found").withLocation path
      |>.withSuggestion "Pass --reference/--candidate or set `entry` in plugin-parity.toml").render
      colour
  | .malformed path source error =>
    path.text ++ ":" ++ toString (error.line source) ++ ": " ++ error.message ++ "\n" ++
      ((Diagnostic.plain .error "failed to parse declaration file").withLocation path
        |>.withSuggestion "Run with --verbose to see which files were loaded").render colour
  | .unreadable _ => bareError (e.message ++ ": " ++ notText)
  | .endless _ => bareError e.message

def emptinessWarning (colour : Bool) (label : String) (s : Surface) : String :=
  if s.isEmpty then
    ((Diagnostic.plain .warning ("no plugins found in the " ++ label ++ " surface")).withLocation
        s.entry
      |>.withContext ("filter: " ++ Text.quote s.filter)
      |>.withSuggestion "Check that the filter is a substring of the declaration file paths"
      |>.withSuggestion ("Run `plugin-parity inspect <ENTRY> --filter ''` to list plugins in " ++
        "every loaded file")).render colour
  else ""

/-- Where the surface of a side comes from: what is chosen goes before the configuration. -/
def SideChoice.source (c : SideChoice) (dir : Path) (configured : SurfaceSource) : SurfaceSource :=
  ⟨(c.entry.map dir.join).getD configured.entry, c.filter.getD configured.filter⟩

def CompareRequest.side (r : CompareRequest) : Side → SideChoice
  | .reference => r.reference
  | .candidate => r.candidate

def CompareRequest.source (r : CompareRequest) (dir : Path) (config : Config) (s : Side) :
    SurfaceSource :=
  (r.side s).source dir (config.source s)

def CompareRequest.run (libs : Libraries) (r : CompareRequest) (tree : FileTree) (dir : Path)
    (colour : Bool) : Outcome :=
  match Config.discover libs.readToml tree dir r.config with
  | .error e => ⟨1, "", configErrorText e⟩
  | .ok config =>
    let mode := if r.byIdentity then .identity else config.equality
    match Parity.load libs.readJson tree config.options (r.source dir config .reference)
        (r.source dir config .candidate) mode with
    | (.error e, notices) => ⟨1, "", log colour notices ++ loadErrorText colour e⟩
    | (.ok p, notices) =>
      ⟨0, Report.comparison libs.width p.rows p.summary r.ascii,
        log colour notices ++ emptinessWarning colour Side.reference.word p.reference ++
          emptinessWarning colour Side.candidate.word p.candidate⟩

def InspectRequest.source (r : InspectRequest) (dir : Path) : SurfaceSource :=
  ⟨dir.join r.entry, r.filter⟩

def InspectRequest.run (libs : Libraries) (r : InspectRequest) (tree : FileTree) (dir : Path)
    (colour : Bool) : Outcome :=
  match Surface.load libs.readJson tree .default (r.source dir) with
  | .error e => ⟨1, "", loadErrorText colour e⟩
  | .ok (s, notices) =>
    ⟨0, Report.surface libs.width s (tree.canonical dir) r.ascii,
      log colour notices ++ emptinessWarning colour "inspected" s⟩

def programName : String := "plugin-parity"

def Shell.script (s : Shell) : String :=
  let words := " ".intercalate Request.commandWords
  match s with
  | bash => "complete -W \"" ++ words ++ "\" " ++ programName ++ "\n"
  | elvish =>
    "set edit:completion:arg-completer[" ++ programName ++ "] = \x7b|@args| put " ++ words ++
      " \x7d\n"
  | fish => "complete -c " ++ programName ++ " -f -a \"" ++ words ++ "\"\n"
  | powershell =>
    "Register-ArgumentCompleter -Native -CommandName " ++ programName ++ " -ScriptBlock \x7b \"" ++
      "\", \"".intercalate Request.commandWords ++ "\" \x7d\n"
  | zsh => "compctl -k \"(" ++ words ++ ")\" " ++ programName ++ "\n"

def helpText : String :=
  "Compare bundler plugin surfaces from their type declarations\n\n" ++
    "Usage: " ++ programName ++ " [--no-color] [--verbose] <COMMAND>\n\n" ++
    "Commands:\n" ++
    "  compare      [--reference <PATH>] [--reference-filter <TEXT>] [--candidate <PATH>]\n" ++
    "               [--candidate-filter <TEXT>] [--config <PATH>] " ++
    "[--identity-equality] [--ascii]\n" ++
    "  inspect      <ENTRY> [--filter <TEXT>] [--ascii]\n" ++
    "  completions  <SHELL>\n"

def Ending.outcome : Ending → Outcome
  | help => ⟨0, helpText, ""⟩
  | version => ⟨0, programName ++ " 0.1.0\n", ""⟩
  | usage e => ⟨2, "", bareError e.message⟩

def Request.run (libs : Libraries) (r : Request) (tree : FileTree) (dir : Path) : Outcome :=
  match r.command with
  | .compare c => c.run libs tree dir r.colour
  | .inspect i => i.run libs tree dir r.colour
  | .completions shell => ⟨0, shell.script, ""⟩

/-- Runs the program in a directory with its arguments and the configuration that the environment
names. -/
def run (libs : Libraries) (tree : FileTree) (dir : Path) (environment : Option String)
    (args : List String) : Outcome :=
  match Request.ofArguments environment args with
  | .ok r => r.run libs tree dir
  | .error ending => ending.outcome

end PluginSurface.CommandLine
