import PluginSurface.Plugin
import PluginSurface.Program.Load
import PluginSurface.Syntax.Subtree

/-!
# The search for plugins

A program is searched file by file, each file from its first statement to its last. A statement
that declares a plugin hides the statements inside it; every other one is looked into. Constants
count only at the outermost level of a file. Main statement: `Statement.nested_eq`, by which the
findings inside a statement are known from those inside its children.
-/

namespace PluginSurface

/-- What a statement is to the search. A constant that could be a plugin is bundled if other
constants are declared with it. -/
inductive Finding where
  | plugin (kind : PluginKind) (name : Name)
  | bundled (name : Name)
  | other

/-- A finding with the statement that it is about. -/
structure Found where
  statement : Statement
  finding : Finding

def Name.isPlugin (n : Name) : Bool := isPluginName n.text

namespace Statement

def classFinding (name : Option Name) : Finding :=
  match name.filter Name.isPlugin with
  | some name => .plugin .classDecl name
  | none => .other

def constantFinding : List Declarator → Finding
  | [⟨name, type⟩] =>
    match name.filter Name.isPlugin with
    | some name =>
      if (type.bind TypeExpr.constructSignature?).isSome then .plugin .constConstructible name
      else .other
    | none => .other
  | declarators =>
    match (declarators.filterMap Declarator.name).find? Name.isPlugin with
    | some name => .bundled name
    | none => .other

/-- What a statement is to the search. Constants have to be outermost in their file and exported as
ambient ones, in these words and no others. -/
def finding (outermost : Bool) (s : Statement) : Finding :=
  match s.decl with
  | .classDecl decl => classFinding decl.name
  | .variable _ declarators =>
    if outermost ∧ s.modifiers =
      [.exported, .ambient] then constantFinding declarators else .other
  | _ => .other

/-- A statement with its finding, before the findings inside it unless it hides them. -/
def withInner (outermost : Bool) (s : Statement) (inner : List Found) : List Found :=
  let finding := s.finding outermost
  ⟨s, finding⟩ ::
    match finding with
    | .plugin .. => []
    | _ => inner

def nested (s : Statement) : List Found := s.fold fun s inner ↦ s.withInner false inner.flatten

def found (s : Statement) : List Found := s.withInner true (s.children.flatMap nested)

theorem nested_eq (s : Statement) : s.nested = s.withInner false (s.children.flatMap nested) := by
  simp [nested, fold_eq (s := s), List.flatMap_def]
  rfl

end Statement

namespace SourceUnit

def isSelected (filter : String) (u : SourceUnit) : Bool := u.path.text.contains filter

def locationOf (u : SourceUnit) (name : Name) : Location :=
  ⟨u.path, lineAt u.text name.span.start⟩

def found (u : SourceUnit) : List Found := u.tree.statements.flatMap Statement.found

def entity? (u : SourceUnit) (file : Nat) (f : Found) : Option Entity :=
  match f.finding with
  | .plugin kind name => some ⟨name.text, kind, file, f.statement.id, u.locationOf name⟩
  | _ => none

def bundled? (u : SourceUnit) (f : Found) : Option (String × Location) :=
  match f.finding with
  | .bundled name => some (name.text, u.locationOf name)
  | _ => none

end SourceUnit

namespace Program

/-- The units that are searched with a filter, each with its place. -/
def selected (p : Program) (filter : String) : List (SourceUnit × Nat) :=
  p.units.toList.zipIdx.filter (·.1.isSelected filter)

def entities (p : Program) (filter : String) : List Entity :=
  (p.selected filter).flatMap fun (u, file) ↦ u.found.filterMap (u.entity? file)

def bundled (p : Program) (filter : String) : List (String × Location) :=
  (p.selected filter).flatMap fun (u, _) ↦ u.found.filterMap u.bundled?

end Program

end PluginSurface
