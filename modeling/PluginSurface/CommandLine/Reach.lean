import PluginSurface.CommandLine.Run

/-!
# What a run looks at

The files and directories that a run has to know, as far as that can be told from those that are
known already. A run that knows all of them can be carried out.
-/

namespace PluginSurface.CommandLine

/-- Files that are named outright, and directories in which files are looked for. -/
structure Reach where
  files : List Path
  directories : List Path

namespace Reach

def append (a b : Reach) : Reach := ⟨a.files ++ b.files, a.directories ++ b.directories⟩

instance : Append Reach := ⟨append⟩

def isPath (specifier : String) : Bool := specifier.startsWith "." || specifier.startsWith "/"

def referencePath? : Reference → Option String
  | .path value => some value
  | .types _ => none

def ofUnit (u : SourceUnit) : List Path :=
  let paths := u.tree.specifiers.filter isPath ++ u.tree.references.filterMap referencePath?
  paths.map fun path ↦ (u.path.directory.join ⟨path⟩).normalize.directory

variable (libs : Libraries) (tree : FileTree)

def ofSource (options : CompilerOptions) (source : SurfaceSource) : Reach :=
  let units :=
    match Program.load libs.readJson tree options source.entry with
    | .ok program => program.units.toList
    | .error _ => []
  ⟨[source.entry], source.entry.directory :: units.flatMap ofUnit⟩

def ofCommand (dir : Path) : Command → Reach
  | .compare r =>
    let chosen : Reach := ⟨[dir.join (r.config.getD Config.defaultFile)], [dir]⟩
    match Config.discover libs.readToml tree dir r.config with
    | .error _ => chosen
    | .ok config =>
      chosen ++ ofSource libs tree config.options (r.source dir config .reference) ++
        ofSource libs tree config.options (r.source dir config .candidate)
  | .inspect r => ofSource libs tree .default (r.source dir)
  | .completions _ => ⟨[], []⟩

/-- What the program looks at when it is run in a directory with its arguments and the configuration
that the environment names. -/
def ofArguments (dir : Path) (environment : Option String) (args : List String) : Reach :=
  match Request.ofArguments environment args with
  | .ok r => ofCommand libs tree dir r.command
  | .error _ => ⟨[], []⟩

end Reach

end PluginSurface.CommandLine
