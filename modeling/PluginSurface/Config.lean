import PluginSurface.Data.Toml
import PluginSurface.Parity

/-!
# Configuration

Settings that hold where the command line says nothing else. They are read from a file; paths in it
are seen from the directory that it lies in. Keys without a meaning are passed over. How the text of
the file is read is left open.
-/

namespace PluginSurface

/-- The sides of a comparison. -/
inductive Side where
  | reference
  | candidate
deriving DecidableEq, Repr

namespace Side

def word : Side → String
  | reference => "reference"
  | candidate => "candidate"

def defaultEntry : Side → Path
  | reference => ⟨"webpack.ts"⟩
  | candidate => ⟨"rspack.ts"⟩

def defaultFilter : Side → String
  | reference => "webpack"
  | candidate => "@rspack/core"

end Side

/-- What a configuration says about one side. -/
structure SideConfig where
  entry : Option Path
  filter : Option String
deriving DecidableEq, Repr

/-- A configuration, with the directory that its paths are seen from. -/
structure Config where
  reference : SideConfig
  candidate : SideConfig
  equality : ShapeEquality
  options : CompilerOptions
  root : Path
deriving DecidableEq, Repr

/-- Why there is no configuration. -/
inductive ConfigError where
  | notFound (path : Path)
  | unreadable (path : Path)
  | malformed (path : Path)
deriving DecidableEq, Repr

def ConfigError.message : ConfigError → String
  | notFound path => "configuration file not found: " ++ path.text
  | unreadable path => "failed to read " ++ path.text
  | malformed path => "failed to parse " ++ path.text

namespace Toml

def isSection : Toml → Bool
  | .table _ | .array _ | .datetime _ => true
  | _ => false

/-- A setting of a section: a table gives it under its key, an array at its place. -/
def setting? (place : Nat) (key : String) : Toml → Option Toml
  | .table entries => entries.lookup key
  | .array items => items[place]?
  | _ => none

/-- The choice that a value names: by its word, or by a table that has the word as its only key with
nothing under it. -/
def choice? {α : Type} (ofWord? : String → Option α) : Toml → Option α
  | .string word => ofWord? word
  | .table [(word, detail)] => do
    guard detail.isEmpty
    ofWord? word
  | _ => none

def orDefault {α : Type} (default : α) (decode : Toml → Option α) : Option Toml → Option α
  | none => some default
  | some value => decode value

end Toml

def SideConfig.ofToml? (body : Toml) : Option SideConfig := do
  guard body.isSection
  return {
    entry := ← (body.setting? 0 "entry").mapM fun t ↦ Path.mk <$> t.string?
    filter := ← (body.setting? 1 "filter").mapM Toml.string? }

def ShapeEquality.ofToml? (body : Toml) : Option ShapeEquality := do
  guard body.isSection
  Toml.orDefault .structural (Toml.choice? ofWord?) (body.setting? 0 "structured_equality")

def CompilerOptions.ofToml? (body : Toml) : Option CompilerOptions := do
  guard body.isSection
  return {
    module := ← Toml.orDefault default.module (Toml.choice? ModuleKind.ofWord?)
      (body.setting? 0 "module")
    strictNullChecks := ← Toml.orDefault default.strictNullChecks Toml.boolean?
      (body.setting? 1 "strict_null_checks") }

namespace Config

def empty (root : Path) : Config :=
  ⟨⟨none, none⟩, ⟨none, none⟩, .structural, .default, root⟩

def ofToml? (root : Path) (t : Toml) : Option Config := do
  let start := empty root
  return {
    reference := ← Toml.orDefault start.reference SideConfig.ofToml? (t.setting? 0 "reference")
    candidate := ← Toml.orDefault start.candidate SideConfig.ofToml? (t.setting? 1 "candidate")
    equality := ← Toml.orDefault start.equality ShapeEquality.ofToml? (t.setting? 2 "compare")
    options := ← Toml.orDefault start.options CompilerOptions.ofToml? (t.setting? 3 "compiler")
    root := root }

section

variable (readToml : String → Option Toml) (tree : FileTree)

def load (path : Path) : Except ConfigError Config := do
  let some text := tree.read? path | throw (.unreadable path)
  let some config := (readToml text).bind (ofToml? path.directory) | throw (.malformed path)
  return config

def defaultFile : Path := ⟨"plugin-parity.toml"⟩

/-- The configuration that holds in a directory. A chosen file has to be there; the default one is
read if it is. -/
def discover (dir : Path) (chosen : Option Path) : Except ConfigError Config :=
  match chosen with
  | some path =>
    let path := dir.join path
    if tree.isFile path then load readToml tree path else throw (.notFound path)
  | none =>
    let path := dir.join defaultFile
    if tree.isFile path then load readToml tree path else return empty dir

end

def side (c : Config) : Side → SideConfig
  | .reference => c.reference
  | .candidate => c.candidate

def source (c : Config) (s : Side) : SurfaceSource :=
  ⟨c.root.join ((c.side s).entry.getD s.defaultEntry), (c.side s).filter.getD s.defaultFilter⟩

end Config

end PluginSurface
