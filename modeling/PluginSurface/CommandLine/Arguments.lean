/-!
# Arguments

Arguments are options, which begin with a dash, and words. A value stands behind its option or, with
an equals sign, in the same argument; behind two dashes alone there are only words. An argument
that cannot be read ends the reading, and so does an option that asks for something else than a
run; what comes first counts.
-/

namespace PluginSurface.CommandLine

/-- What is wrong with arguments. -/
inductive UsageError where
  | unknownArgument (arg : String)
  | valueMissing (option : String)
  | valueUnwanted (option : String)
  | repeated (option : String)
  | empty (name : String)
  | commandMissing
  | unknownCommand (word : String)
  | wordMissing (name : String)
  | unknownShell (word : String)
deriving DecidableEq, Repr

def UsageError.message : UsageError → String
  | unknownArgument arg => "unexpected argument '" ++ arg ++ "'"
  | valueMissing option => "a value is required for '--" ++ option ++ "'"
  | valueUnwanted option => "no value is allowed for '--" ++ option ++ "'"
  | repeated option => "'--" ++ option ++ "' cannot be used more than once"
  | empty name => "the value for '" ++ name ++ "' is empty"
  | commandMissing => "a command is required"
  | unknownCommand word => "unknown command '" ++ word ++ "'"
  | wordMissing name => "'" ++ name ++ "' is required"
  | unknownShell word => "unknown shell '" ++ word ++ "'"

/-- Why there is nothing to run. -/
inductive Ending where
  | help
  | version
  | usage (e : UsageError)
deriving DecidableEq, Repr

/-- What an option does: it is given or not, it takes a value or a path, or it ends the reading. -/
inductive OptionKind where
  | flag
  | value
  | path
  | ends (ending : Ending)
deriving DecidableEq, Repr

/-- An option with its long name and, if it has one, its letter. -/
structure OptionRule where
  name : String
  letter : Option Char
  kind : OptionKind
deriving DecidableEq, Repr

/-- What the words among arguments are: the first one is a command, to which everything behind it
belongs, or there may be one that passes a check. -/
inductive WordRule where
  | command
  | atMostOne (check : String → Except UsageError Unit)

/-- The arguments that may be given. -/
structure ArgumentRules where
  options : List OptionRule
  words : WordRule

/-- Arguments that were read: the options, each with its value if it takes one, and the words. -/
structure Arguments where
  options : List (String × Option String)
  words : List String
deriving DecidableEq, Repr

namespace Arguments

def has (a : Arguments) (name : String) : Bool := a.options.any (·.1 == name)

def value? (a : Arguments) (name : String) : Option String := (a.options.lookup name).join

def checkPath (name text : String) : Except UsageError Unit :=
  if text.isEmpty then throw (.empty name) else return

def note (a : Arguments) (name : String) (value : Option String) : Except UsageError Arguments :=
  if a.has name then throw (.repeated name)
  else return { a with options := a.options ++ [(name, value)] }

def noteValue (a : Arguments) (rule : OptionRule) (value : String) :
    Except UsageError Arguments := do
  if rule.kind = .path then checkPath rule.name value
  a.note rule.name (some value)

def noteWord (check : String → Except UsageError Unit) (a : Arguments) (word : String) :
    Except UsageError Arguments := do
  unless a.words.isEmpty do throw (.unknownArgument word)
  check word
  return { a with words := [word] }

/-- The name in a long option, and the value behind its equals sign. -/
def splitLong (arg : List Char) : String × Option String :=
  let name := String.ofList (arg.takeWhile (· != '='))
  match arg.dropWhile (· != '=') with
  | [] => (name, none)
  | _ :: value => (name, some (String.ofList value))

/-- Whether an argument begins as an option does. A dash alone does not. -/
def isOption (arg : String) : Bool := arg.startsWith "-" && arg != "-"

def orUsage {α : Type} (r : Except UsageError α) : Except Ending α := r.mapError .usage

/-- Reads the letters behind a dash. None of them takes a value. -/
def readLetters (rules : List OptionRule) (a : Arguments) : List Char → Except Ending Arguments
  | [] => return a
  | letter :: more => do
    match rules.find? (·.letter == some letter) with
    | some ⟨name, _, .flag⟩ => readLetters rules (← orUsage (a.note name none)) more
    | some ⟨_, _, .ends ending⟩ => throw ending
    | _ => throw (.usage (.unknownArgument (String.ofList ['-', letter])))

def read (rules : ArgumentRules) (a : Arguments) : List String → Except Ending Arguments
  | [] => return a
  | arg :: rest =>
    match arg.toList with
    | ['-', '-'] =>
      match rules.words with
      | .command => throw (.usage (.unknownArgument arg))
      | .atMostOne check => orUsage (rest.foldlM (noteWord check) a)
    | '-' :: '-' :: long =>
      let (name, attached) := splitLong long
      match rules.options.find? (·.name == name), attached with
      | none, _ => throw (.usage (.unknownArgument arg))
      | some ⟨_, _, .flag⟩, none => do read rules (← orUsage (a.note name none)) rest
      | some ⟨_, _, .ends ending⟩, none => throw ending
      | some ⟨_, _, .flag⟩, some _ | some ⟨_, _, .ends _⟩, some _ =>
        throw (.usage (.valueUnwanted name))
      | some rule, some v => do read rules (← orUsage (a.noteValue rule v)) rest
      | some rule, none =>
        match rest with
        | v :: rest =>
          if isOption v then throw (.usage (.valueMissing name))
          else do read rules (← orUsage (a.noteValue rule v)) rest
        | [] => throw (.usage (.valueMissing name))
    | '-' :: letter :: letters => do
      read rules (← readLetters rules.options a (letter :: letters)) rest
    | _ =>
      match rules.words with
      | .command => return { a with words := arg :: rest }
      | .atMostOne check => do read rules (← orUsage (noteWord check a arg)) rest

end Arguments

end PluginSurface.CommandLine
