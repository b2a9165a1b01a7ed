import PluginSurface.Data.Json
import PluginSurface.FileTree
import PluginSurface.Program.Options

/-!
# From specifiers to files

A relative specifier is a path seen from the directory of the file that mentions it. Any other names
a package, which is looked for in the `node_modules` of that directory and of those above it. Only
source and declaration files are found. How the text of a manifest is read is left open.
-/

namespace PluginSurface.Resolve

/-- The endings of the files that a name without an ending stands for, in order of preference. -/
def endings : List String := [".ts", ".tsx", ".d.ts"]

def isRelative (specifier : String) : Bool :=
  specifier.startsWith "./" || specifier.startsWith "../" || specifier == "." ||
    specifier == ".." || specifier.startsWith "/"

def dropEnding? (text ending : String) : Option String :=
  if text.endsWith ending then
    some (String.ofList (text.toList.take (text.length - ending.length)))
  else none

/-- The files that stand for a compiled file: for each ending of such a file its name without the
ending and the endings of the files that it is compiled from or declared in. -/
def compiledEndings : List (String × List String) :=
  [(".js", [".ts", ".tsx", ".d.ts"]), (".jsx", [".ts", ".tsx", ".d.ts"]),
    (".mjs", [".ts", ".tsx", ".d.mts"]), (".cjs", [".ts", ".tsx", ".d.cts"])]

def fileCandidates (base : Path) : List Path :=
  let itself := if endings.any (fun e ↦ base.text.endsWith e) then [base] else []
  let sources := (compiledEndings.findSome? fun (ending, sources) ↦
    (dropEnding? base.text ending).map fun stem ↦ sources.map fun e ↦ ⟨stem ++ e⟩).getD []
  itself ++ sources ++ endings.map base.append

variable (readJson : String → Option Json) (tree : FileTree) (options : CompilerOptions)

def file? (base : Path) : Option Path := (fileCandidates base).find? tree.isFile

def index? (dir : Path) : Option Path :=
  (endings.map fun e ↦ dir.join ⟨"index" ++ e⟩).find? tree.isFile

/-- The manifest of the package in a directory. A malformed one counts as none. -/
def manifest? (dir : Path) : Option Json :=
  (tree.read? (dir.join ⟨"package.json"⟩)).bind readJson

mutual

/-- The target of an entry of an export map: a text, or what its conditions lead to, of which the
one for types comes first. -/
def exportTarget? : Json → Option String
  | .string target => some target
  | .object fields =>
    let targets := exportTargets fields
    let under (condition : String) : Option String :=
      (targets.reverse.find? (·.1 == condition)).bind (·.2)
    under "types" <|> under "default" <|> under "import" <|> under "require"
  | _ => none

def exportTargets : List (String × Json) → List (String × Option String)
  | [] => []
  | (key, value) :: rest => (key, exportTarget? value) :: exportTargets rest

end

/-- The entry of a manifest's export map for a subpath, which begins with a dot. A map without
subpaths is the entry for the package itself. -/
def exportValue? (manifest : Json) (subpath : String) : Option Json := do
  let exports ← manifest.get? "exports"
  let hasSubpaths :=
    match exports with
    | .object fields => fields.any (·.1.startsWith ".")
    | _ => false
  if hasSubpaths then exports.get? subpath
  else if subpath == "." then some exports
  else none

def exported? (root : Path) (subpath : String) : Option Path := do
  guard options.module.usesExportMaps
  let target ← exportTarget? (← exportValue? (← manifest? readJson tree root) subpath)
  file? tree (root.join ⟨target⟩).normalize

def typings? (dir : Path) (manifest : Json) : Option Path := do
  let typings ← (manifest.get? "types").bind Json.string? <|>
    (manifest.get? "typings").bind Json.string?
  let target := (dir.join ⟨typings⟩).normalize
  file? tree target <|> index? tree target

def directory? (dir : Path) : Option Path := do
  guard (tree.isDirectory dir)
  let named := do
    let manifest ← manifest? readJson tree dir
    exported? readJson tree options dir "." <|> typings? tree dir manifest
  named <|> index? tree dir

def slashed (stretches : List (List Char)) : String :=
  String.ofList (['/'].intercalate stretches)

/-- A package specifier as the name of the package, with its scope, and the path inside it. -/
def splitPackage (specifier : String) : String × Option String :=
  let parts := Path.stretches specifier.toList
  let named := if specifier.startsWith "@" then 2 else 1
  (slashed (parts.take named),
    if parts.length ≤ named then none else some (slashed (parts.drop named)))

/-- The name under which the declarations for a package are published: a scope is joined to the
name by two underscores. -/
def typesName (package : String) : String :=
  match package.toList with
  | '@' :: rest =>
    match Path.stretches rest with
    | scope :: name :: more => String.ofList (scope ++ ['_', '_']) ++ slashed (name :: more)
    | _ => String.ofList rest
  | _ => package

/-- The file that a package at `root`, or a path inside it, stands for. -/
def inPackage? (root : Path) (subpath : Option String) : Option Path := do
  guard (tree.isDirectory root)
  match subpath with
  | none => directory? readJson tree options root
  | some sub =>
    let target := root.join ⟨sub⟩
    exported? readJson tree options root ("./" ++ sub) <|> file? tree target <|>
      directory? readJson tree options target

/-- The file that a package specifier stands for in the `node_modules` of one directory. -/
def packageAt? (specifier : String) (dir : Path) : Option Path := do
  let modules := dir.join ⟨"node_modules"⟩
  guard (tree.isDirectory modules)
  let (package, subpath) := splitPackage specifier
  inPackage? readJson tree options (modules.join ⟨package⟩) subpath <|>
    inPackage? readJson tree options ((modules.join ⟨"@types"⟩).join ⟨typesName package⟩)
      subpath

def package? (specifier : String) (dir : Path) : Option Path :=
  dir.ancestors.findSome? (packageAt? readJson tree options specifier)

/-- The file that a specifier stands for in a file of the directory `dir`. -/
def module? (specifier : String) (dir : Path) : Option Path :=
  if isRelative specifier then
    let base := (dir.join ⟨specifier⟩).normalize
    file? tree base <|> directory? readJson tree options base
  else package? readJson tree options specifier dir

/-- The file that a `types` directive stands for. Published declarations come before the packages
themselves. -/
def types? (name : String) (dir : Path) : Option Path :=
  let published := dir.ancestors.findSome? fun dir ↦
    directory? readJson tree options
      (((dir.join ⟨"node_modules"⟩).join ⟨"@types"⟩).join ⟨typesName name⟩)
  published <|> package? readJson tree options name dir

end PluginSurface.Resolve
