import PluginSurface.CommandLine.Reach
import PluginSurface.Libraries.Linked

/-!
# The program

Files are read until everything that the run looks at is known; then it is carried out, with the
libraries that it is linked with.
-/

namespace PluginSurface

def namesOf (p : Path) : List String :=
  p.normalize.components.filterMap fun
    | .name text => some text
    | _ => none

def isSource (name : String) : Bool :=
  [".ts", ".tsx", ".mts", ".cts", ".json", ".toml"].any fun e ↦ name.endsWith e

/-- Reads a file. A file that cannot be read has no text. -/
def readFile (path : String) : IO FileTree := do
  try
    return .file (String.fromUTF8? (← IO.FS.readBinFile path))
  catch _ => return .file none

/-- Reads a directory with everything in it. A link to a directory that is being
read is left out. -/
partial def readDirectory (above : List String) (path : String) : IO FileTree := do
  try
    let real ← IO.FS.realPath path
    if real.toString ∈ above then return .directory []
    let entries ← (← real.readDir).mapM fun entry ↦ do
      let inner := path ++ "/" ++ entry.fileName
      let node ←
        if ← entry.path.isDir then readDirectory (real.toString :: above) inner
        else if isSource entry.fileName then readFile inner
        else pure (.file none)
      return (entry.fileName, node)
    return .directory entries.toList
  catch _ => return .directory []

/-- Adds a directory, and the packages that can be found from it, unless they are known. -/
def addDirectory (tree : FileTree) (dir : Path) : IO FileTree := do
  let mut tree := tree
  for path in dir :: dir.ancestors.map (·.join ⟨"node_modules"⟩) do
    let real ← try pure (some (← IO.FS.realPath path.text)) catch _ => pure none
    if let some real := real then
      if (← real.isDir) && !tree.isDirectory path then
        tree := tree.insert (namesOf path) (← readDirectory [] path.text)
  return tree

def addFile (tree : FileTree) (file : Path) : IO FileTree := do
  if (tree.read? file).isSome then return tree
  let real ← try pure (some (← IO.FS.realPath file.text)) catch _ => pure none
  match real with
  | some real =>
    if (← real.pathExists) && !(← real.isDir) then
      return tree.insert (namesOf file) (← readFile file.text)
    else return tree
  | none => return tree

/-- Reads what a run looks at, and what that leads to, until nothing new is found. -/
partial def readReach (dir : Path) (environment : Option String) (args : List String)
    (asked : List Path) (tree : FileTree) : IO FileTree := do
  let reach := CommandLine.Reach.ofArguments .linked tree dir environment args
  let paths := (reach.directories ++ reach.files).filter (· ∉ asked)
  if paths.isEmpty then return tree
  let tree ← reach.directories.foldlM addDirectory tree
  let tree ← reach.files.foldlM addFile tree
  readReach dir environment args (asked ++ paths) tree

end PluginSurface

def main (args : List String) : IO UInt32 := do
  let dir : PluginSurface.Path := ⟨(← IO.currentDir).toString⟩
  let environment ← IO.getEnv "PLUGIN_PARITY_CONFIG"
  let tree ← PluginSurface.readReach dir environment args [] PluginSurface.FileTree.empty
  let outcome := PluginSurface.CommandLine.run .linked tree dir environment args
  (← IO.getStderr).putStr outcome.stderr
  (← IO.getStdout).putStr outcome.stdout
  return outcome.code.toUInt32
