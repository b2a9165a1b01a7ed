import PluginSurface.Typing.Resolve

/-!
# The names that a type mentions

What a written type resolves to depends on what the names in it stand for. They are listed, as far
as resolving the type looks them up: the arguments of `typeof` and the bounds of type parameters
are not looked at.
-/

namespace PluginSurface

/-- A name in a written type: a path that is looked up in the scope of the type, or in a module. -/
inductive Mention where
  | entity (path : List String)
  | imported (specifier : String) (path : List String)

mutual

def TypeExpr.mentions : TypeExpr → List Mention
  | .reference path args => .entity path :: mentionsOfTypes args
  | .query path _ => [.entity path]
  | .union members | .intersection members => mentionsOfTypes members
  | .array element => element.mentions
  | .tuple elements => mentionsOfElements elements
  | .function _ _ signature => signature.mentions
  | .members members => mentionsOfMembers members
  | .operator _ operand => operand.mentions
  | .indexed object index => object.mentions ++ index.mentions
  | .imported isTypeof specifier path args =>
    if isTypeof || path.isEmpty then [] else .imported specifier path :: mentionsOfTypes args
  | .conditional check bound yes no =>
    check.mentions ++ bound.mentions ++ yes.mentions ++ no.mentions
  | .infer _ bound => mentionsOfType? bound
  | .mapped _ _ bound rename _ value =>
    bound.mentions ++ mentionsOfType? rename ++ mentionsOfType? value
  | .predicate _ _ type => mentionsOfType? type
  | .keyword _ | .this | .literal _ | .template _ => []

def mentionsOfType? : Option TypeExpr → List Mention
  | none => []
  | some type => type.mentions

def mentionsOfTypes : List TypeExpr → List Mention
  | [] => []
  | type :: rest => type.mentions ++ mentionsOfTypes rest

def mentionsOfElements : List TupleElement → List Mention
  | [] => []
  | ⟨_, _, _, type⟩ :: rest => type.mentions ++ mentionsOfElements rest

def mentionsOfParams : List Param → List Mention
  | [] => []
  | ⟨_, _, _, _, type⟩ :: rest => mentionsOfType? type ++ mentionsOfParams rest

def Signature.mentions : Signature → List Mention
  | ⟨_, params, result⟩ => mentionsOfParams params ++ mentionsOfType? result

def TypeMember.mentions : TypeMember → List Mention
  | .property _ _ _ type | .getter _ type => mentionsOfType? type
  | .method _ _ signature | .call signature | .construct signature => signature.mentions
  | .index ⟨_, _, key, value⟩ => key.mentions ++ mentionsOfType? value
  | .setter _ (some ⟨_, _, _, _, type⟩) => mentionsOfType? type
  | .setter _ none => []

def mentionsOfMembers : List TypeMember → List Mention
  | [] => []
  | member :: rest => member.mentions ++ mentionsOfMembers rest

end

def ClassMember.mentions (m : ClassMember) : List Mention :=
  match m.kind with
  | .constructor params _ => mentionsOfParams params
  | .property _ _ type | .getter _ type _ => mentionsOfType? type
  | .method _ _ signature _ => signature.mentions
  | .setter _ param _ => mentionsOfParams param.toList
  | .index _ | .staticBlock _ => []

/-- The names in the defaults of type parameters. -/
def mentionsOfDefaults (params : List TypeParam) : List Mention :=
  params.flatMap fun p ↦ mentionsOfType? p.default

/-- The names that are looked up when the declaration is opened. -/
def DeclarationKind.mentions : DeclarationKind → List Mention
  | .classDecl decl => mentionsOfDefaults decl.typeParams ++ mentionsOfType? decl.base ++
      decl.members.flatMap ClassMember.mentions
  | .interfaceDecl decl => mentionsOfDefaults decl.typeParams ++
      mentionsOfTypes decl.bases ++ mentionsOfMembers decl.members
  | .aliasDecl decl => mentionsOfDefaults decl.typeParams ++ decl.type.mentions
  | .variable type => mentionsOfType? type
  | .function | .enum | .namespaceDecl | .moduleDecl | .link _ => []

theorem mem_mentionsOfTypes {types : List TypeExpr} {type : TypeExpr} (h : type ∈ types) :
    type.mentions ⊆ mentionsOfTypes types := by
  induction types with
  | nil => cases h
  | cons first rest ih =>
      rw [mentionsOfTypes]
      rcases List.mem_cons.mp h with rfl | h
      · exact List.subset_append_left _ _
      · exact List.Subset.trans (ih h) (List.subset_append_right _ _)

theorem mem_mentionsOfParams {params : List Param} {p : Param} (h : p ∈ params) :
    mentionsOfType? p.type ⊆ mentionsOfParams params := by
  induction params with
  | nil => cases h
  | cons first rest ih =>
      obtain ⟨_, _, _, _, type⟩ := first
      rw [mentionsOfParams]
      rcases List.mem_cons.mp h with rfl | h
      · exact List.subset_append_left _ _
      · exact List.Subset.trans (ih h) (List.subset_append_right _ _)

theorem mentionsOfTypes_toList (type : Option TypeExpr) :
    mentionsOfTypes type.toList = mentionsOfType? type := by
  cases type <;> simp [mentionsOfTypes, mentionsOfType?]

theorem mentionsOfParams_toList (param : Option Param) :
    mentionsOfParams param.toList = mentionsOfType? (param.bind (·.type)) := by
  rcases param with _ | ⟨_, _, _, _, type⟩ <;> simp [mentionsOfParams, mentionsOfType?]

namespace Checker

/-- What a name in a type stands for, in a file and a scope of it. -/
def mentioned? (c : Checker) (file scope : Nat) : Mention → Option Nat
  | .entity path => c.entity? path scope
  | .imported specifier path => Typing.importedSymbol? c ⟨file, scope, []⟩ specifier path

/-- All symbols that the names stand for are `named`. -/
def Mentions (c : Checker) (named : Nat → Prop) (file scope : Nat) (ms : List Mention) : Prop :=
  ∀ m ∈ ms, ∀ id ∈ c.mentioned? file scope m, named id

namespace Mentions

variable {c : Checker} {named : Nat → Prop} {file scope : Nat} {ms ms' : List Mention}

theorem mono (h : c.Mentions named file scope ms') (hsub : ms ⊆ ms') :
    c.Mentions named file scope ms :=
  fun m hm ↦ h m (hsub hm)

theorem left (h : c.Mentions named file scope (ms ++ ms')) : c.Mentions named file scope ms :=
  h.mono (List.subset_append_left _ _)

theorem right (h : c.Mentions named file scope (ms ++ ms')) : c.Mentions named file scope ms' :=
  h.mono (List.subset_append_right _ _)

theorem tail {m : Mention} (h : c.Mentions named file scope (m :: ms)) :
    c.Mentions named file scope ms :=
  h.mono (List.subset_cons_self _ _)

theorem entity {path : List String} (h : c.Mentions named file scope (.entity path :: ms))
    {id : Nat} (hid : c.entity? path scope = some id) : named id :=
  h (.entity path) List.mem_cons_self id hid

theorem imported {specifier : String} {path : List String}
    (h : c.Mentions named file scope (.imported specifier path :: ms)) {id : Nat}
    (hid : Typing.importedSymbol? c ⟨file, scope, []⟩ specifier path = some id) : named id :=
  h (.imported specifier path) List.mem_cons_self id hid

end Mentions

end Checker

namespace Typing

/-! ## Environments -/

@[simp] theorem file_bindNames (env : TypeEnv) (names : List String) :
    (env.bindNames names).file = env.file := by
  unfold TypeEnv.bindNames
  induction names generalizing env with
  | nil => rfl
  | cons name rest ih => exact ih (env.bind name (.param name))

@[simp] theorem scope_bindNames (env : TypeEnv) (names : List String) :
    (env.bindNames names).scope = env.scope := by
  unfold TypeEnv.bindNames
  induction names generalizing env with
  | nil => rfl
  | cons name rest ih => exact ih (env.bind name (.param name))

@[simp] theorem file_instantiate (typeAt : TypeEnv → TypeExpr → Ty) (env : TypeEnv)
    (params : List TypeParam) (args : List Ty) :
    (instantiate typeAt env params args).file = env.file := by
  induction params generalizing env args with
  | nil => simp [instantiate]
  | cons p rest ih => cases args <;> simp [instantiate, ih, TypeEnv.bind]

@[simp] theorem scope_instantiate (typeAt : TypeEnv → TypeExpr → Ty) (env : TypeEnv)
    (params : List TypeParam) (args : List Ty) :
    (instantiate typeAt env params args).scope = env.scope := by
  induction params generalizing env args with
  | nil => simp [instantiate]
  | cons p rest ih => cases args <;> simp [instantiate, ih, TypeEnv.bind]

/-! ## Declarations -/

theorem aliasDecl?_eq_some {d : Declaration} {x : Declaration × AliasDecl}
    (h : aliasDecl? d = some x) : ∃ decl, d.kind = .aliasDecl decl ∧ x = (d, decl) := by
  unfold aliasDecl? at h
  split at h
  next decl hkind => exact ⟨decl, hkind, (Option.some.inj h).symm⟩
  next => cases h

theorem variableType?_eq_some {d : Declaration} {x : Declaration × TypeExpr}
    (h : variableType? d = some x) :
    ∃ type, d.kind = .variable (some type) ∧ x = (d, type) := by
  unfold variableType? at h
  split at h
  next type hkind => exact ⟨type, hkind, (Option.some.inj h).symm⟩
  next => cases h

end Typing

open Typing in
/-- The written type names a symbol, with arguments. -/
inductive Checker.Uses (c : Checker) (env : TypeEnv) (id : Nat) (args : List TypeExpr) :
    TypeExpr → Prop
  | reference {path : List String} (hbound : boundType? path env = none)
      (h : c.entity? path env.scope = some id) : Uses c env id args (.reference path args)
  | imported {specifier : String} {path : List String} (hpath : path ≠ [])
      (h : importedSymbol? c env specifier path = some id) :
      Uses c env id args (.imported false specifier path args)

end PluginSurface
