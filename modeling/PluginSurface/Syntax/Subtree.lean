import PluginSurface.Syntax.Statement

/-!
# Statements inside statements

A statement is folded from the inside out: the results for its children are combined to one for the
statement. Main statement: `Statement.fold_eq`, by which a fold is known from what it does at each
statement.
-/

namespace PluginSurface

variable {α : Type}

mutual

/-- Combines the results for the children of a statement, from the innermost statements out. -/
def Statement.fold (f : Statement → List α → α) : Statement → α
  | ⟨id, modifiers, decl, span⟩ => f ⟨id, modifiers, decl, span⟩ (Statement.foldDecl f decl)

def Statement.foldDecl (f : Statement → List α → α) : Decl → List α
  | .classDecl c => Statement.foldClass f c
  | .function _ _ body => Statement.foldBody f body
  | .moduleDecl _ body => Statement.foldBody f body
  | .block body => Statement.foldAll f body
  | _ => []

def Statement.foldClass (f : Statement → List α → α) : ClassDecl → List α
  | ⟨_, _, _, _, members⟩ => Statement.foldMembers f members

def Statement.foldMembers (f : Statement → List α → α) : List ClassMember → List α
  | [] => []
  | m :: rest => Statement.foldMember f m ++ Statement.foldMembers f rest

def Statement.foldMember (f : Statement → List α → α) : ClassMember → List α
  | ⟨_, kind, _⟩ => Statement.foldKind f kind

def Statement.foldKind (f : Statement → List α → α) : ClassMemberKind → List α
  | .constructor _ body => Statement.foldBody f body
  | .method _ _ _ body => Statement.foldBody f body
  | .getter _ _ body => Statement.foldBody f body
  | .setter _ _ body => Statement.foldBody f body
  | .staticBlock body => Statement.foldAll f body
  | .property .. => []
  | .index _ => []

def Statement.foldBody (f : Statement → List α → α) : Option (List Statement) → List α
  | none => []
  | some body => Statement.foldAll f body

def Statement.foldAll (f : Statement → List α → α) : List Statement → List α
  | [] => []
  | s :: rest => s.fold f :: Statement.foldAll f rest

end

namespace Statement

variable (f : Statement → List α → α)

theorem foldAll_eq_map (body : List Statement) : foldAll f body = body.map (fold f) := by
  induction body with
  | nil => simp [foldAll]
  | cons s rest ih => simp [foldAll, ih]

theorem foldBody_eq_map (body : Option (List Statement)) :
    foldBody f body = (body.getD []).map (fold f) := by
  cases body <;> simp [foldBody, foldAll_eq_map]

theorem foldMember_eq_map (m : ClassMember) : foldMember f m = m.body.map (fold f) := by
  obtain ⟨_, kind, _⟩ := m
  cases kind <;> simp [foldMember, foldKind, ClassMember.body, foldBody_eq_map, foldAll_eq_map]

theorem foldMembers_eq_map (ms : List ClassMember) :
    foldMembers f ms = (ms.flatMap ClassMember.body).map (fold f) := by
  induction ms with
  | nil => simp [foldMembers]
  | cons m rest ih => simp [foldMembers, ih, foldMember_eq_map]

theorem foldClass_eq_map (c : ClassDecl) :
    foldClass f c = (c.members.flatMap ClassMember.body).map (fold f) := by
  obtain ⟨_, _, _, _, _⟩ := c
  simp [foldClass, foldMembers_eq_map]

theorem foldDecl_eq_map (s : Statement) : foldDecl f s.decl = s.children.map (fold f) := by
  obtain ⟨_, _, decl, _⟩ := s
  cases decl <;> simp [foldDecl, children, foldClass_eq_map, foldBody_eq_map, foldAll_eq_map]

/-- A fold applies `f` to a statement and the results for its children. -/
theorem fold_eq (s : Statement) : s.fold f = f s (s.children.map (fold f)) := by
  rw [← foldDecl_eq_map]
  obtain ⟨_, _, _, _⟩ := s
  simp [fold]

/-- The statement and all those inside it, each before those inside it. -/
def subtree (s : Statement) : List Statement := s.fold fun s inner ↦ s :: inner.flatten

theorem subtree_eq (s : Statement) : s.subtree = s :: s.children.flatMap subtree := by
  simp [subtree, fold_eq (s := s), List.flatMap_def]
  rfl

end Statement

namespace SourceFile

def allStatements (f : SourceFile) : List Statement := f.statements.flatMap Statement.subtree

def statement? (f : SourceFile) (id : Nat) : Option Statement :=
  f.allStatements.find? (·.id == id)

end SourceFile

end PluginSurface
