import PluginSurface.Proofs.Syntax.Nesting
import PluginSurface.Syntax.Specifiers

/-!
# The types in a source text

Every place in which a type can stand, in a type, a member or a statement. The keys of index
signatures and the bounds and defaults of the type parameters that a declaration introduces are
places that are not searched for modules; all other places are. Main statement:
`SourceFile.mem_specifiers`, by which the modules of a source text are those that its
declarations name and those of the import types in the places that are searched.
-/

namespace PluginSurface

/-! ## Places -/

/-- Which places are looked at: all of them, or those that are searched for modules. -/
inductive Places where
  | all
  | searched
deriving DecidableEq, Repr

namespace Places

/-- Types in a place that is not searched. -/
def unsearched (places : Places) (types : List TypeExpr) : List TypeExpr :=
  match places with
  | .all => types
  | .searched => []

theorem unsearched_subset (places : Places) (types : List TypeExpr) :
    places.unsearched types ⊆ types := by
  cases places <;> simp [unsearched]

end Places

def Param.types (p : Param) : List TypeExpr := p.type.toList

def TypeParam.types (p : TypeParam) : List TypeExpr := p.bound.toList ++ p.default.toList

def Signature.types (s : Signature) : List TypeExpr :=
  s.params.flatMap Param.types ++ s.typeParams.flatMap TypeParam.types ++ s.result.toList

def IndexSignature.types (places : Places) (i : IndexSignature) : List TypeExpr :=
  places.unsearched [i.key] ++ i.value.toList

def TypeMember.types (places : Places) : TypeMember → List TypeExpr
  | .property _ _ _ type | .getter _ type => type.toList
  | .method _ _ signature | .call signature | .construct signature => signature.types
  | .index i => i.types places
  | .setter _ param => param.toList.flatMap Param.types

namespace TypeExpr

/-- The types directly inside a type. -/
def parts (places : Places) : TypeExpr → List TypeExpr
  | .imported _ _ _ args | .reference _ args | .query _ args => args
  | .union ms | .intersection ms => ms
  | .array element => [element]
  | .operator _ operand => [operand]
  | .tuple elements => elements.map (·.type)
  | .function _ _ signature => signature.types
  | .members ms => ms.flatMap (TypeMember.types places)
  | .indexed object index => [object, index]
  | .conditional check bound yes no => [check, bound, yes, no]
  | .infer _ bound => bound.toList
  | .mapped _ _ bound rename _ value => bound :: (rename.toList ++ value.toList)
  | .predicate _ _ type => type.toList
  | .keyword _ | .this | .literal _ | .template _ => []

/-- One type stands in another, or is the other itself. -/
inductive Within (places : Places) (t : TypeExpr) : TypeExpr → Prop
  | self : Within places t t
  | part {s part : TypeExpr} (hpart : part ∈ s.parts places) (h : Within places t part) :
    Within places t s

/-- The module that a type names itself. -/
def imports : TypeExpr → List String
  | .imported _ specifier _ _ => [specifier]
  | _ => []

/-- An import type of the module stands in the type. -/
def Imports (places : Places) (specifier : String) (t : TypeExpr) : Prop :=
  ∃ s : TypeExpr, s.Within places t ∧ specifier ∈ s.imports

end TypeExpr

def ClassMember.types (places : Places) (m : ClassMember) : List TypeExpr :=
  match m.kind with
  | .constructor params _ => params.flatMap Param.types
  | .property _ _ type | .getter _ type _ => type.toList
  | .method _ _ signature _ => signature.types
  | .setter _ param _ => param.toList.flatMap Param.types
  | .index i => i.types places
  | .staticBlock _ => []

namespace Statement

/-- The types in a statement, without those in the statements inside it. -/
def types (places : Places) (s : Statement) : List TypeExpr :=
  match s.decl with
  | .classDecl c =>
    places.unsearched (c.typeParams.flatMap TypeParam.types) ++
      (c.base.toList ++ c.interfaces ++ c.members.flatMap (ClassMember.types places))
  | .interfaceDecl i =>
    places.unsearched (i.typeParams.flatMap TypeParam.types) ++
      (i.bases ++ i.members.flatMap (TypeMember.types places))
  | .aliasDecl a => places.unsearched (a.typeParams.flatMap TypeParam.types) ++ [a.type]
  | .variable _ declarators => declarators.flatMap (·.type.toList)
  | .function _ signature _ => signature.types
  | .enumDecl .. | .moduleDecl .. | .importDecl _ | .importEquals .. | .exportDecl _
  | .exportAssignment .. | .block _ | .other => []

/-- The module that an import or export declaration names. -/
def declaredModule? (s : Statement) : Option String :=
  match s.decl with
  | .importDecl decl => some decl.specifier
  | .importEquals _ (.require specifier) => some specifier
  | .exportDecl decl => decl.specifier
  | _ => none

end Statement

namespace SourceFile

/-- An import type of the module stands in the source text. -/
def Imports (places : Places) (specifier : String) (f : SourceFile) : Prop :=
  ∃ s ∈ f.allStatements, ∃ t ∈ s.types places, t.Imports places specifier

/-- An import or export declaration of the source text names the module. -/
def Declares (specifier : String) (f : SourceFile) : Prop :=
  ∃ s ∈ f.allStatements, s.declaredModule? = some specifier

end SourceFile

/-! ## Searching a type -/

theorem specifiersOfTypes_eq (types : List TypeExpr) :
    specifiersOfTypes types = types.flatMap TypeExpr.specifiers := by
  induction types with
  | nil => rfl
  | cons type rest ih => rw [specifiersOfTypes, ih, List.flatMap_cons]

theorem specifiersOfType?_eq (type : Option TypeExpr) :
    specifiersOfType? type = type.toList.flatMap TypeExpr.specifiers := by
  cases type <;> simp [specifiersOfType?]

theorem specifiersOfElements_eq (elements : List TupleElement) :
    specifiersOfElements elements = (elements.map (·.type)).flatMap TypeExpr.specifiers := by
  induction elements with
  | nil => rfl
  | cons element rest ih =>
      obtain ⟨_, _, _, type⟩ := element
      rw [specifiersOfElements, ih, List.map_cons, List.flatMap_cons]

theorem specifiersOfParams_eq (params : List Param) :
    specifiersOfParams params = (params.flatMap Param.types).flatMap TypeExpr.specifiers := by
  induction params with
  | nil => rfl
  | cons p rest ih =>
      obtain ⟨_, _, _, _, type⟩ := p
      rw [specifiersOfParams, ih, specifiersOfType?_eq, List.flatMap_cons, List.flatMap_append,
        Param.types]

theorem specifiersOfTypeParams_eq (params : List TypeParam) :
    specifiersOfTypeParams params =
      (params.flatMap TypeParam.types).flatMap TypeExpr.specifiers := by
  induction params with
  | nil => rfl
  | cons p rest ih =>
      obtain ⟨_, bound, default⟩ := p
      rw [specifiersOfTypeParams, ih, specifiersOfType?_eq, specifiersOfType?_eq, List.flatMap_cons,
        TypeParam.types, List.flatMap_append, List.flatMap_append]

theorem Signature.specifiers_eq (s : Signature) :
    s.specifiers = s.types.flatMap TypeExpr.specifiers := by
  obtain ⟨typeParams, params, result⟩ := s
  rw [Signature.specifiers, specifiersOfParams_eq, specifiersOfTypeParams_eq, specifiersOfType?_eq,
    Signature.types, List.flatMap_append, List.flatMap_append]

theorem TypeMember.specifiers_eq (m : TypeMember) :
    m.specifiers = (m.types .searched).flatMap TypeExpr.specifiers := by
  cases m with
  | property name optional readonly type | getter name type => exact specifiersOfType?_eq type
  | method name optional signature | call signature | construct signature =>
      exact signature.specifiers_eq
  | index i =>
      obtain ⟨readonly, keyName, key, value⟩ := i
      rw [TypeMember.specifiers, specifiersOfType?_eq]
      rfl
  | setter name param =>
      rcases param with _ | ⟨name, modifiers, optional, rest, type⟩
      · rfl
      · rw [TypeMember.specifiers, specifiersOfType?_eq]
        simp [types, Param.types]

theorem specifiersOfMembers_eq (members : List TypeMember) :
    specifiersOfMembers members =
      (members.flatMap (TypeMember.types .searched)).flatMap TypeExpr.specifiers := by
  induction members with
  | nil => rfl
  | cons m rest ih =>
      rw [specifiersOfMembers, ih, m.specifiers_eq, List.flatMap_cons, List.flatMap_append]

namespace TypeExpr

/-- The modules of a type are the one that it names and those of its parts. -/
theorem specifiers_eq (t : TypeExpr) :
    t.specifiers = t.imports ++ (t.parts .searched).flatMap specifiers := by
  cases t with
  | imported isTypeof specifier path args | reference path args | query path args
  | union members | intersection members =>
      rw [specifiers, specifiersOfTypes_eq]
      rfl
  | tuple elements => rw [specifiers, specifiersOfElements_eq]; rfl
  | function isConstructor isAbstract signature => rw [specifiers, signature.specifiers_eq]; rfl
  | members members => rw [specifiers, specifiersOfMembers_eq]; rfl
  | infer name bound | predicate asserts param bound => rw [specifiers, specifiersOfType?_eq]; rfl
  | mapped readonly key bound rename optional value =>
      rw [specifiers, specifiersOfType?_eq, specifiersOfType?_eq]
      simp [imports, parts]
  | array | operator | indexed | conditional | keyword | this | literal | template =>
      simp [specifiers, imports, parts]

end TypeExpr

/-! ## The types in a type are smaller -/

theorem sizeOf_toList_lt {α : Type} [SizeOf α] {o : Option α} {a : α} (h : a ∈ o.toList) :
    sizeOf a < sizeOf o := by
  obtain rfl := Option.mem_toList.mp h
  rw [Option.some.sizeOf_spec]
  omega

theorem Param.sizeOf_lt {p : Param} {t : TypeExpr} (h : t ∈ p.types) : sizeOf t < sizeOf p := by
  have hlt := sizeOf_toList_lt h
  obtain ⟨_, _, _, _, type⟩ := p
  simp at hlt ⊢
  omega

theorem TypeParam.sizeOf_lt {p : TypeParam} {t : TypeExpr} (h : t ∈ p.types) :
    sizeOf t < sizeOf p := by
  obtain ⟨_, bound, default⟩ := p
  rcases List.mem_append.mp h with h | h <;>
    · have hlt := sizeOf_toList_lt h
      simp at hlt ⊢
      omega

theorem sizeOf_lt_of_mem_flatMap {α : Type} [SizeOf α] {f : α → List TypeExpr}
    (hf : ∀ a, ∀ t ∈ f a, sizeOf t < sizeOf a) {xs : List α} {t : TypeExpr}
    (h : t ∈ xs.flatMap f) : sizeOf t < sizeOf xs := by
  obtain ⟨a, ha, ht⟩ := List.mem_flatMap.mp h
  have hlt := List.sizeOf_lt_of_mem ha
  have := hf a t ht
  omega

theorem Signature.sizeOf_lt {s : Signature} {t : TypeExpr} (h : t ∈ s.types) :
    sizeOf t < sizeOf s := by
  obtain ⟨typeParams, params, result⟩ := s
  rcases List.mem_append.mp h with h | h
  · rcases List.mem_append.mp h with h | h
    · have hlt := sizeOf_lt_of_mem_flatMap (fun _ _ ↦ Param.sizeOf_lt) h
      simp at hlt ⊢
      omega
    · have hlt := sizeOf_lt_of_mem_flatMap (fun _ _ ↦ TypeParam.sizeOf_lt) h
      simp at hlt ⊢
      omega
  · have hlt := sizeOf_toList_lt h
    simp at hlt ⊢
    omega

theorem TypeMember.sizeOf_lt {places : Places} {m : TypeMember} {t : TypeExpr}
    (h : t ∈ m.types places) : sizeOf t < sizeOf m := by
  cases m with
  | property name optional readonly type | getter name type =>
      have hlt := sizeOf_toList_lt h
      simp
      omega
  | method name optional signature | call signature | construct signature =>
      have hlt := Signature.sizeOf_lt h
      simp
      omega
  | index i =>
      obtain ⟨readonly, keyName, key, value⟩ := i
      rcases List.mem_append.mp h with h | h
      · obtain rfl := List.mem_singleton.mp (places.unsearched_subset _ h)
        simp
        omega
      · have hlt := sizeOf_toList_lt h
        simp at hlt ⊢
        omega
  | setter name param =>
      obtain ⟨p, hp, ht⟩ := List.mem_flatMap.mp h
      have hlt := Param.sizeOf_lt ht
      have hlt' := sizeOf_toList_lt hp
      simp
      omega

namespace TypeExpr

theorem sizeOf_lt_of_mem_parts {places : Places} {part t : TypeExpr} (h : part ∈ t.parts places) :
    sizeOf part < sizeOf t := by
  cases t with
  | imported isTypeof specifier path args | reference path args | query path args
  | union members | intersection members =>
      have hlt := List.sizeOf_lt_of_mem h
      simp [parts] at hlt ⊢
      omega
  | tuple elements =>
      obtain ⟨element, helement, rfl⟩ := List.mem_map.mp h
      have hlt := List.sizeOf_lt_of_mem helement
      obtain ⟨_, _, _, type⟩ := element
      simp at hlt ⊢
      omega
  | function isConstructor isAbstract signature =>
      have hlt := Signature.sizeOf_lt h
      simp
      omega
  | members members =>
      have hlt := sizeOf_lt_of_mem_flatMap (fun _ _ ↦ TypeMember.sizeOf_lt) h
      simp
      omega
  | infer name bound | predicate asserts param bound =>
      have hlt := sizeOf_toList_lt h
      simp
      omega
  | mapped readonly key bound rename optional value =>
      rcases List.mem_cons.mp h with rfl | h
      · simp
        omega
      rcases List.mem_append.mp h with h | h <;>
        · have hlt := sizeOf_toList_lt h
          simp
          omega
  | array element =>
      obtain rfl := List.mem_singleton.mp h
      simp
  | operator op element =>
      obtain rfl := List.mem_singleton.mp h
      rw [operator.sizeOf_spec]
      omega
  | indexed object index =>
      simp only [parts, List.mem_cons, List.not_mem_nil, or_false] at h
      rcases h with rfl | rfl <;>
        · rw [indexed.sizeOf_spec]
          omega
  | conditional check bound yes no =>
      simp only [parts, List.mem_cons, List.not_mem_nil, or_false] at h
      rcases h with rfl | rfl | rfl | rfl <;>
        · rw [conditional.sizeOf_spec]
          omega
  | keyword | this | literal | template => cases h

/-- What holds of a type whenever it holds of its parts holds of all types. -/
theorem parts_induction {P : TypeExpr → Prop} (places : Places)
    (h : ∀ t, (∀ part ∈ t.parts places, P part) → P t) (t : TypeExpr) : P t :=
  h t fun part _hpart ↦ parts_induction places h part
termination_by sizeOf t
decreasing_by exact sizeOf_lt_of_mem_parts _hpart

theorem imports_iff {places : Places} {specifier : String} {t : TypeExpr} :
    t.Imports places specifier ↔
      specifier ∈ t.imports ∨ ∃ part ∈ t.parts places, part.Imports places specifier := by
  constructor
  · rintro ⟨s, hs, hspecifier⟩
    cases hs with
    | self => exact .inl hspecifier
    | part hpart h => exact .inr ⟨_, hpart, s, h, hspecifier⟩
  · rintro (h | ⟨part, hpart, s, hs, h⟩)
    · exact ⟨t, .self, h⟩
    · exact ⟨s, .part hpart hs, h⟩

theorem mem_specifiers {specifier : String} (t : TypeExpr) :
    specifier ∈ t.specifiers ↔ t.Imports .searched specifier := by
  induction t using parts_induction .searched with
  | h t ih =>
      rw [specifiers_eq, List.mem_append, List.mem_flatMap, imports_iff]
      exact or_congr_right (exists_congr fun part ↦ and_congr_right fun hpart ↦ ih part hpart)

end TypeExpr

/-! ## Searching a source text -/

theorem ClassMember.specifiers_eq (m : ClassMember) :
    m.specifiers = (m.types .searched).flatMap TypeExpr.specifiers := by
  obtain ⟨modifiers, kind, span⟩ := m
  cases kind with
  | constructor params body => exact specifiersOfParams_eq params
  | property name optional type | getter name type body => exact specifiersOfType?_eq type
  | method name optional signature body => exact signature.specifiers_eq
  | setter name param body => exact specifiersOfParams_eq param.toList
  | index i => exact specifiersOfType?_eq i.value
  | staticBlock body => rfl

theorem Statement.ownSpecifiers_eq (s : Statement) :
    s.ownSpecifiers =
      s.declaredModule?.toList ++ (s.types .searched).flatMap TypeExpr.specifiers := by
  obtain ⟨id, modifiers, decl, span⟩ := s
  cases decl with
  | classDecl c =>
      simp [ownSpecifiers, declaredModule?, types, Places.unsearched,
        funext ClassMember.specifiers_eq, List.flatMap_assoc]
  | interfaceDecl i =>
      simp [ownSpecifiers, declaredModule?, types, Places.unsearched,
        funext TypeMember.specifiers_eq, List.flatMap_assoc]
  | «variable» keyword declarators =>
      simp [ownSpecifiers, declaredModule?, types, specifiersOfType?_eq, List.flatMap_assoc]
  | function name signature body => exact signature.specifiers_eq
  | importEquals name target => cases target <;> rfl
  | aliasDecl | importDecl | exportDecl | enumDecl | moduleDecl | exportAssignment
  | block | other =>
      simp [ownSpecifiers, declaredModule?, types, Places.unsearched]

namespace SourceFile

/-- The modules that a source text mentions are those that its declarations name and those of
the import types in the places that are searched. -/
theorem mem_specifiers {f : SourceFile} {specifier : String} :
    specifier ∈ f.specifiers ↔ f.Declares specifier ∨ f.Imports .searched specifier := by
  simp only [specifiers, Declares, Imports, List.mem_flatMap, Statement.ownSpecifiers_eq,
    List.mem_append, Option.mem_toList, TypeExpr.mem_specifiers, and_or_left, exists_or]

/-- The bound of a type parameter of an alias is a place, but it is not searched. -/
example :
    let bound : TypeExpr := .imported false "./a" ["A"] []
    let f : SourceFile := ⟨[⟨0, [.exported], .aliasDecl ⟨⟨"O", ⟨0, 0⟩⟩,
      [⟨"T", some bound, none⟩], .reference ["T"] []⟩, ⟨0, 0⟩⟩], []⟩
    f.Imports .all "./a" ∧ f.specifiers = [] :=
  ⟨⟨_, List.mem_cons_self, _, List.mem_cons_self, _, .self, List.mem_cons_self⟩, rfl⟩

end SourceFile

end PluginSurface
