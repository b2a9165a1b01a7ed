import PluginSurface.Binding.Symbol
import PluginSurface.Text.Blank
import PluginSurface.Ty.Render

/-!
# Environments

Where a written type stands: its file and scope, and the types that names are bound to there, as
type parameters are.
-/

namespace PluginSurface

/-- Where names are looked up: first among the bound ones, then in the scope. -/
structure TypeEnv where
  file : Nat
  scope : Nat
  bindings : Names Ty

namespace TypeEnv

def bind (env : TypeEnv) (name : String) (t : Ty) : TypeEnv :=
  { env with bindings := (name, t) :: env.bindings }

def bindNames (env : TypeEnv) (names : List String) : TypeEnv :=
  names.foldl (fun env name ↦ env.bind name (.param name)) env

def bindTypeParams (env : TypeEnv) (params : List TypeParam) : TypeEnv :=
  env.bindNames (params.map (·.name))

def bound? (env : TypeEnv) (name : String) : Option Ty := env.bindings.lookup name

/-- What a placeholder of a template stands for: the type that its text is bound to, or the text. -/
def placeholder (env : TypeEnv) (inner : List Char) : List Char :=
  match env.bound? (String.ofList (Text.trimBlank inner)) with
  | some t => t.render.toList
  | none => inner

/-- The text of a template with the bound names in its placeholders replaced. The first argument is
the text of the placeholder that is being read, in reverse; one that is not closed stays as it
is. -/
def templateText (env : TypeEnv) : Option (List Char) → List Char → List Char
  | none, [] => []
  | none, '$' :: '\x7b' :: rest => '$' :: '\x7b' :: templateText env (some []) rest
  | none, c :: rest => c :: templateText env none rest
  | some inner, [] => inner.reverse
  | some inner, c :: rest =>
    if c = '\x7d' then env.placeholder inner.reverse ++ c :: templateText env none rest
    else templateText env (some (c :: inner)) rest

/-- A template literal with the bound names in its placeholders replaced. -/
def template (env : TypeEnv) (raw : String) : String :=
  String.ofList (env.templateText none raw.toList)

end TypeEnv

end PluginSurface
