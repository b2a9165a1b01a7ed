import PluginSurface.Proofs.Syntax.Nesting
import PluginSurface.Search

/-!
# Editing declarations

An edit changes interfaces and aliases, wherever they are declared in a tree of statements, and
nothing else. So the edited tree has the statements of the tree in the same places, and a search
finds the same plugins in it.
-/

namespace PluginSurface

/-- What is done to each interface and to each alias. They keep their names. -/
structure TypeEdit where
  interfaces : InterfaceDecl → InterfaceDecl
  aliases : AliasDecl → AliasDecl
  interfaces_name : ∀ i, (interfaces i).name = i.name
  aliases_name : ∀ a, (aliases a).name = a.name

/-- Changes nothing. -/
def TypeEdit.none : TypeEdit := ⟨id, id, fun _ ↦ rfl, fun _ ↦ rfl⟩

mutual

def Statement.edit (e : TypeEdit) : Statement → Statement
  | ⟨id, modifiers, decl, span⟩ => ⟨id, modifiers, decl.edit e, span⟩

def Decl.edit (e : TypeEdit) : Decl → Decl
  | .classDecl c => .classDecl (c.edit e)
  | .interfaceDecl i => .interfaceDecl (e.interfaces i)
  | .aliasDecl a => .aliasDecl (e.aliases a)
  | .variable keyword declarators => .variable keyword declarators
  | .function name signature body => .function name signature (editBody e body)
  | .enumDecl name members => .enumDecl name members
  | .moduleDecl name body => .moduleDecl name (editBody e body)
  | .importDecl decl => .importDecl decl
  | .importEquals name target => .importEquals name target
  | .exportDecl decl => .exportDecl decl
  | .exportAssignment isEquals entity => .exportAssignment isEquals entity
  | .block body => .block (editAll e body)
  | .other => .other

def ClassDecl.edit (e : TypeEdit) : ClassDecl → ClassDecl
  | ⟨name, typeParams, base, interfaces, members⟩ =>
    ⟨name, typeParams, base, interfaces, editMembers e members⟩

def editMembers (e : TypeEdit) : List ClassMember → List ClassMember
  | [] => []
  | m :: rest => m.edit e :: editMembers e rest

def ClassMember.edit (e : TypeEdit) : ClassMember → ClassMember
  | ⟨modifiers, kind, span⟩ => ⟨modifiers, kind.edit e, span⟩

def ClassMemberKind.edit (e : TypeEdit) : ClassMemberKind → ClassMemberKind
  | .constructor params body => .constructor params (editBody e body)
  | .property name optional type => .property name optional type
  | .method name optional signature body => .method name optional signature (editBody e body)
  | .getter name type body => .getter name type (editBody e body)
  | .setter name param body => .setter name param (editBody e body)
  | .index index => .index index
  | .staticBlock body => .staticBlock (editAll e body)

def editBody (e : TypeEdit) : Option (List Statement) → Option (List Statement)
  | none => none
  | some body => some (editAll e body)

def editAll (e : TypeEdit) : List Statement → List Statement
  | [] => []
  | s :: rest => s.edit e :: editAll e rest

end

variable (e : TypeEdit)

theorem editAll_eq_map (body : List Statement) : editAll e body = body.map (Statement.edit e) := by
  induction body with
  | nil => simp [editAll]
  | cons s rest ih => simp [editAll, ih]

theorem editMembers_eq_map (ms : List ClassMember) :
    editMembers e ms = ms.map (ClassMember.edit e) := by
  induction ms with
  | nil => simp [editMembers]
  | cons m rest ih => simp [editMembers, ih]

/-! ## Places -/

namespace Statement

@[simp] theorem id_edit (s : Statement) : (s.edit e).id = s.id := by
  cases s
  simp [edit]

@[simp] theorem modifiers_edit (s : Statement) : (s.edit e).modifiers = s.modifiers := by
  cases s
  simp [edit]

@[simp] theorem decl_edit (s : Statement) : (s.edit e).decl = s.decl.edit e := by
  cases s
  simp [edit]

end Statement

theorem ClassMember.body_edit (m : ClassMember) :
    (m.edit e).body = m.body.map (Statement.edit e) := by
  obtain ⟨modifiers, kind, span⟩ := m
  have hbody (body : Option (List Statement)) :
      (editBody e body).getD [] = (body.getD []).map (Statement.edit e) := by
    cases body <;> simp [editBody, editAll_eq_map]
  cases kind <;> simp [ClassMember.edit, ClassMemberKind.edit, body, hbody, editAll_eq_map]

theorem ClassDecl.members_edit (c : ClassDecl) :
    (c.edit e).members = c.members.map (ClassMember.edit e) := by
  cases c
  simp [ClassDecl.edit, editMembers_eq_map]

namespace Statement

/-- What stands inside an edited statement is what stands inside the statement, edited. -/
theorem children_edit (s : Statement) : (s.edit e).children = s.children.map (edit e) := by
  obtain ⟨id, modifiers, decl, span⟩ := s
  have hbody (body : Option (List Statement)) :
      (editBody e body).getD [] = (body.getD []).map (Statement.edit e) := by
    cases body <;> simp [editBody, editAll_eq_map]
  cases decl with
  | classDecl c =>
      simp only [children, decl_edit, Decl.edit, ClassDecl.members_edit, List.flatMap_map,
        List.map_flatMap, ClassMember.body_edit]
  | function name signature body => simp [children, Decl.edit, hbody]
  | moduleDecl name body => simp [children, Decl.edit, hbody]
  | block body => simp [children, Decl.edit, editAll_eq_map]
  | _ => simp [children, Decl.edit]

theorem subtree_edit (s : Statement) : (s.edit e).subtree = s.subtree.map (edit e) := by
  induction s using Statement.children_induction with
  | h s ih =>
      rw [subtree_eq, subtree_eq s, children_edit, List.map_cons, List.map_flatMap,
        List.flatMap_map]
      exact congrArg _ (List.flatMap_congr fun t ht ↦ ih t ht)

end Statement

/-! ## The edit that changes nothing -/

mutual

theorem Statement.edit_none : ∀ s : Statement, s.edit .none = s
  | ⟨id, modifiers, decl, span⟩ => by rw [Statement.edit, Decl.edit_none decl]

theorem Decl.edit_none : ∀ d : Decl, d.edit .none = d
  | .classDecl c => by rw [Decl.edit, ClassDecl.edit_none c]
  | .function name signature body => by rw [Decl.edit, editBody_none body]
  | .moduleDecl name body => by rw [Decl.edit, editBody_none body]
  | .block body => by rw [Decl.edit, editAll_none body]
  | .interfaceDecl _ | .aliasDecl _ => by rw [Decl.edit]; rfl
  | .variable .. | .enumDecl .. | .importDecl _ | .importEquals .. | .exportDecl _
  | .exportAssignment .. | .other => by rw [Decl.edit]

theorem ClassDecl.edit_none : ∀ c : ClassDecl, c.edit .none = c
  | ⟨name, typeParams, base, interfaces, members⟩ => by
      rw [ClassDecl.edit, editMembers_none members]

theorem editMembers_none : ∀ ms, editMembers .none ms = ms
  | [] => by rw [editMembers]
  | m :: rest => by rw [editMembers, ClassMember.edit_none m, editMembers_none rest]

theorem ClassMember.edit_none : ∀ m : ClassMember, m.edit .none = m
  | ⟨modifiers, kind, span⟩ => by rw [ClassMember.edit, ClassMemberKind.edit_none kind]

theorem ClassMemberKind.edit_none : ∀ k : ClassMemberKind, k.edit .none = k
  | .constructor params body => by rw [ClassMemberKind.edit, editBody_none body]
  | .method name optional signature body => by rw [ClassMemberKind.edit, editBody_none body]
  | .getter name type body => by rw [ClassMemberKind.edit, editBody_none body]
  | .setter name param body => by rw [ClassMemberKind.edit, editBody_none body]
  | .staticBlock body => by rw [ClassMemberKind.edit, editAll_none body]
  | .property .. | .index _ => by rw [ClassMemberKind.edit]

theorem editBody_none : ∀ body, editBody .none body = body
  | none => by rw [editBody]
  | some body => by rw [editBody, editAll_none body]

theorem editAll_none : ∀ body, editAll .none body = body
  | [] => by rw [editAll]
  | s :: rest => by rw [editAll, Statement.edit_none s, editAll_none rest]

end

/-! ## Files and programs -/

def SourceFile.edit (f : SourceFile) : SourceFile := ⟨editAll e f.statements, f.references⟩

def SourceUnit.edit (u : SourceUnit) : SourceUnit := { u with tree := u.tree.edit e }

/-- The program with the declarations in each file edited. The files stay what they are otherwise,
and so does what their specifiers stand for. -/
def Program.edit (edits : Nat → TypeEdit) (p : Program) : Program :=
  { p with units := p.units.mapIdx fun file u ↦ u.edit (edits file) }

namespace Statement

@[simp] theorem marksModule_edit (s : Statement) : (s.edit e).marksModule = s.marksModule := by
  obtain ⟨id, modifiers, decl, span⟩ := s
  cases decl <;> simp [marksModule, has, Decl.edit]

end Statement

namespace SourceFile

@[simp] theorem isModule_edit (f : SourceFile) : (f.edit e).isModule = f.isModule := by
  simp [isModule, edit, editAll_eq_map, List.any_map, Function.comp_def]

theorem allStatements_edit (f : SourceFile) :
    (f.edit e).allStatements = f.allStatements.map (Statement.edit e) := by
  simp only [allStatements, edit, editAll_eq_map, List.flatMap_map, List.map_flatMap,
    Statement.subtree_edit]

theorem statement?_edit (f : SourceFile) (id : Nat) :
    (f.edit e).statement? id = (f.statement? id).map (Statement.edit e) := by
  have hid : (·.id == id) ∘ Statement.edit e = (·.id == id) :=
    funext fun s ↦ congrArg (· == id) (s.id_edit e)
  rw [statement?, allStatements_edit, List.find?_map, hid, statement?]

end SourceFile

/-! ## The search -/

def Found.edit (f : Found) : Found := ⟨f.statement.edit e, f.finding⟩

namespace Statement

theorem finding_edit (outermost : Bool) (s : Statement) :
    (s.edit e).finding outermost = s.finding outermost := by
  obtain ⟨id, modifiers, decl, span⟩ := s
  cases decl with
  | classDecl c =>
      cases c
      simp [finding, Decl.edit, ClassDecl.edit]
  | _ => simp [finding, Decl.edit]

theorem withInner_edit (outermost : Bool) (s : Statement) (inner : List Found) :
    (s.edit e).withInner outermost (inner.map (Found.edit e)) =
      (s.withInner outermost inner).map (Found.edit e) := by
  unfold withInner
  rw [finding_edit]
  cases s.finding outermost <;> simp [Found.edit]

theorem nested_edit (s : Statement) : (s.edit e).nested = s.nested.map (Found.edit e) := by
  induction s using Statement.children_induction with
  | h s ih =>
      rw [nested_eq, nested_eq s, children_edit, ← withInner_edit, List.flatMap_map,
        List.map_flatMap]
      exact congrArg _ (List.flatMap_congr ih)

theorem found_edit (s : Statement) : (s.edit e).found = s.found.map (Found.edit e) := by
  rw [found, found, children_edit, ← withInner_edit, List.flatMap_map, List.map_flatMap]
  exact congrArg _ (List.flatMap_congr fun t _ ↦ nested_edit e t)

end Statement

namespace SourceUnit

theorem found_edit (u : SourceUnit) : (u.edit e).found = u.found.map (Found.edit e) := by
  simp only [found, edit, SourceFile.edit, editAll_eq_map, List.flatMap_map, List.map_flatMap,
    Statement.found_edit]

theorem entities_edit (u : SourceUnit) (file : Nat) :
    (u.edit e).found.filterMap ((u.edit e).entity? file) = u.found.filterMap (u.entity? file) := by
  rw [found_edit, List.filterMap_map]
  refine List.filterMap_congr fun f _ ↦ ?_
  simp [entity?, Found.edit, locationOf, edit]

end SourceUnit

namespace Program

variable (edits : Nat → TypeEdit) (p : Program)

@[simp] theorem units_edit (file : Nat) :
    (p.edit edits).units[file]? = p.units[file]?.map (SourceUnit.edit (edits file)) := by
  simp [edit]

theorem zipIdx_edit : (p.edit edits).units.toList.zipIdx =
    p.units.toList.zipIdx.map fun x ↦ (x.1.edit (edits x.2), x.2) := by
  refine List.ext_getElem? fun file ↦ ?_
  simp [edit, Option.map_map, Function.comp_def]

/-- The search of an edited program finds the same plugins. -/
theorem entities_edit (filter : String) : (p.edit edits).entities filter = p.entities filter := by
  simp only [entities, selected, zipIdx_edit, List.filter_map, List.flatMap_map,
    SourceUnit.entities_edit]
  rfl

theorem unitAt?_eq (path : Path) :
    p.unitAt? path = (p.units.map SourceUnit.path).findIdx? (·.same path) := by
  rw [Array.findIdx?_map]
  rfl

/-- What specifiers stand for depends on the paths of the files and on what is resolved in each. -/
theorem resolvedModule_congr {p p' : Program}
    (hpath : p'.units.map SourceUnit.path = p.units.map SourceUnit.path)
    (hresolved : p'.units.map SourceUnit.resolved = p.units.map SourceUnit.resolved) (file : Nat)
    (specifier : String) : p'.resolvedModule file specifier = p.resolvedModule file specifier := by
  have hfound (p : Program) : p.resolvedModule file specifier =
      ((p.units.map SourceUnit.resolved)[file]?.bind fun resolved ↦
        resolved.find? (·.1 == specifier)).bind fun found ↦
          (p.units.map SourceUnit.path).findIdx? (·.same found.2) := by
    simp only [← unitAt?_eq, Array.getElem?_map, resolvedModule, Option.bind_eq_bind]
    cases p.units[file]? <;> rfl
  rw [hfound, hfound, hpath, hresolved]

theorem resolvedModule_edit (file : Nat) (specifier : String) :
    (p.edit edits).resolvedModule file specifier = p.resolvedModule file specifier := by
  refine resolvedModule_congr ?_ ?_ file specifier
  all_goals
    refine Array.ext_getElem? fun file ↦ ?_
    simp [edit, Option.map_map, Function.comp_def, SourceUnit.edit]

end Program

end PluginSurface
