import PluginSurface.CommandLine.Arguments
import PluginSurface.Path

/-!
# Requests

What the arguments of the program ask for: a comparison, the plugins of one entry file, or the
completions of a shell.
-/

namespace PluginSurface.CommandLine

/-- What was chosen for one side of a comparison. -/
structure SideChoice where
  entry : Option Path
  filter : Option String
deriving DecidableEq, Repr

/-- The arguments of a comparison. -/
structure CompareRequest where
  reference : SideChoice
  candidate : SideChoice
  config : Option Path
  byIdentity : Bool
  ascii : Bool
deriving DecidableEq, Repr

/-- The arguments for the plugins of one entry file. -/
structure InspectRequest where
  entry : Path
  filter : String
  ascii : Bool
deriving DecidableEq, Repr

/-- The shells that there are completions for. -/
inductive Shell where
  | bash
  | elvish
  | fish
  | powershell
  | zsh
deriving DecidableEq, Repr

def Shell.word : Shell → String
  | bash => "bash"
  | elvish => "elvish"
  | fish => "fish"
  | powershell => "powershell"
  | zsh => "zsh"

def Shell.ofWord? (word : String) : Option Shell :=
  [bash, elvish, fish, powershell, zsh].find? (·.word == word)

/-- The commands of the program. -/
inductive Command where
  | compare (r : CompareRequest)
  | inspect (r : InspectRequest)
  | completions (shell : Shell)
deriving DecidableEq, Repr

/-- A command, and whether output to a terminal is coloured. -/
structure Request where
  command : Command
  colour : Bool
deriving DecidableEq, Repr

namespace Request

def sharedOptions : List OptionRule :=
  [⟨"verbose", some 'v', .flag⟩, ⟨"no-color", none, .flag⟩,
    ⟨"help", some 'h', .ends .help⟩]

def outerRules : ArgumentRules :=
  ⟨sharedOptions ++ [⟨"version", some 'V', .ends .version⟩], .command⟩

/-- The arguments of a comparison. It takes no word. -/
def compareRules : ArgumentRules :=
  ⟨sharedOptions ++ [⟨"reference", none, .path⟩, ⟨"reference-filter", none, .value⟩,
    ⟨"candidate", none, .path⟩, ⟨"candidate-filter", none, .value⟩,
    ⟨"config", none, .path⟩,
    ⟨"identity-equality", none, .flag⟩, ⟨"ascii", none, .flag⟩],
    .atMostOne fun word ↦ throw (.unknownArgument word)⟩

def inspectRules : ArgumentRules :=
  ⟨sharedOptions ++ [⟨"filter", none, .value⟩, ⟨"ascii", none, .flag⟩],
    .atMostOne (Arguments.checkPath "ENTRY")⟩

def completionsRules : ArgumentRules :=
  ⟨sharedOptions, .atMostOne fun word ↦
    if (Shell.ofWord? word).isSome then return else throw (.unknownShell word)⟩

/-- The only word that a command takes. -/
def onlyWord (a : Arguments) (name : String) : Except UsageError String :=
  match a.words.head? with
  | some word => return word
  | none => throw (.wordMissing name)

/-- The arguments of a comparison. Unless one is chosen, the configuration is that of the
environment. -/
def compareOf (environment : Option String) (a : Arguments) : Except UsageError Command := do
  let config ←
    match a.value? "config", environment with
    | some path, _ => pure (some path)
    | none, some path =>
      Arguments.checkPath "config" path
      pure (some path)
    | none, none => pure none
  return .compare {
    reference := ⟨(a.value? "reference").map Path.mk, a.value? "reference-filter"⟩
    candidate := ⟨(a.value? "candidate").map Path.mk, a.value? "candidate-filter"⟩
    config := config.map Path.mk
    byIdentity := a.has "identity-equality"
    ascii := a.has "ascii" }

def inspectOf (a : Arguments) : Except UsageError Command := do
  return .inspect ⟨⟨← onlyWord a "ENTRY"⟩, (a.value? "filter").getD "", a.has "ascii"⟩

def completionsOf (a : Arguments) : Except UsageError Command := do
  let word ← onlyWord a "SHELL"
  match Shell.ofWord? word with
  | some shell => return .completions shell
  | none => throw (.unknownShell word)

def commandWords : List String := ["compare", "inspect", "completions"]

/-- What a request for help comes to. It may name one command, or itself. -/
def helpOf : List String → Ending
  | [] => .help
  | [word] => if word == "help" || commandWords.contains word then .help
    else .usage (.unknownCommand word)
  | _ :: word :: _ => .usage (.unknownCommand word)

def readCommand (environment : Option String) (word : String) (args : List String) :
    Except Ending (Arguments × Command) := do
  let within (rules : ArgumentRules) (command : Arguments → Except UsageError Command) := do
    let a ← Arguments.read rules ⟨[], []⟩ args
    return (a, ← Arguments.orUsage (command a))
  match word with
  | "compare" => within compareRules (compareOf environment)
  | "inspect" => within inspectRules inspectOf
  | "completions" => within completionsRules completionsOf
  | "help" => throw (helpOf args)
  | _ => throw (.usage (.unknownCommand word))

def ofArguments (environment : Option String) (args : List String) : Except Ending Request := do
  let outer ← Arguments.read outerRules ⟨[], []⟩ args
  match outer.words with
  | [] => throw (.usage .commandMissing)
  | word :: rest =>
    let (inner, command) ← readCommand environment word rest
    return ⟨command, !(outer.has "no-color" || inner.has "no-color")⟩

end Request

end PluginSurface.CommandLine
