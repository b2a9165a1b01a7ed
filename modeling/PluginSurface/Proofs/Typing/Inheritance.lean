import Mathlib.Data.List.Perm.Subperm
import Mathlib.Logic.Relation
import PluginSurface.Proofs.Typing.DeclaredMembers
import PluginSurface.Proofs.Typing.OptionFields

/-!
# Inherited members

A class or interface that is open is not opened again, so its bases are not visited once but along
each chain of bases that does not come back. This is enough: what can be reached at all can be
reached along such a chain. So the properties of a class or interface are those of everything that
it extends, in circles and diamonds too.
-/

namespace PluginSurface

/-! ## Hierarchies -/

/-- The names of the properties that a class member gives to the instances of its class. -/
def ClassMember.keys (m : ClassMember) : List String :=
  let visible (name : PropertyName) := if Typing.isHidden name then [] else [name.key]
  match m.kind with
  | .constructor params _ => (params.filter Param.isProperty).map (·.name)
  | .property name _ _ | .method name _ _ _ | .getter name _ _ | .setter name _ _ => visible name
  | .index _ | .staticBlock _ => []

namespace DeclarationKind

/-- The names of the properties that a declaration gives to instances: of a class the members that
are neither static nor hidden, of an interface all members with a name. -/
def instanceKeys : DeclarationKind → List String
  | .classDecl decl => (decl.members.filter (!·.isStatic)).flatMap ClassMember.keys
  | .interfaceDecl decl => decl.members.filterMap TypeMember.key?
  | _ => []

def typeParams : DeclarationKind → List TypeParam
  | .classDecl decl => decl.typeParams
  | .interfaceDecl decl => decl.typeParams
  | _ => []

/-- The types that a class or interface extends, as written. -/
def bases : DeclarationKind → List TypeExpr
  | .classDecl decl => decl.base.toList
  | .interfaceDecl decl => decl.bases
  | _ => []

end DeclarationKind

/-- Whether references to the symbol have the properties of its declarations: it is a class or
interface, but not one of the arrays. -/
def Symbol.hasInstances (s : Symbol) : Bool :=
  s.declarations.any Typing.declaresInstances &&
    !(s.outer.isEmpty && (s.name == "Array" || s.name == "ReadonlyArray"))

namespace Checker

open Typing

variable (c : Checker)

def instanceKeys (id : Nat) : List String :=
  (c.binding.symbol id).declarations.flatMap (·.kind.instanceKeys)

/-- The class or interface that a type in the `extends` clause of a declaration names, unless it
names a type parameter or anything else. -/
def base? (d : Declaration) : TypeExpr → Option Nat
  | .reference path _ =>
    if path ∈ d.kind.typeParams.map ([·.name]) then none
    else (c.entity? path d.scope).filter fun id ↦ (c.binding.symbol id).hasInstances
  | _ => none

/-- All types that the declarations of a symbol extend are named directly. -/
def ExtendsDirectly (id : Nat) : Prop :=
  ∀ d ∈ (c.binding.symbol id).declarations, ∀ type ∈ d.kind.bases, (c.base? d type).isSome

instance (id : Nat) : Decidable (c.ExtendsDirectly id) := by
  unfold ExtendsDirectly
  infer_instance

/-- A declaration of the symbol extends the other one. -/
def Extends (id base : Nat) : Prop :=
  ∃ d ∈ (c.binding.symbol id).declarations, ∃ type ∈ d.kind.bases,
    c.base? d type = some base

/-- The symbol or anything that it extends, directly or not. -/
def Inherits : Nat → Nat → Prop := Relation.ReflTransGen c.Extends

/-- What a list of properties has in common with the hierarchy above a class or interface. -/
structure Flattens (id : Nat) (ps : List Property) : Prop where
  distinct : (ps.map Property.name).Nodup
  complete : ∀ key, key ∈ ps.map Property.name ↔ ∃ j, c.Inherits id j ∧
    key ∈ c.instanceKeys j
  ownFirst : ∃ own inherited, ps = own ++ inherited ∧
    (∀ key, key ∈ own.map Property.name ↔ key ∈ c.instanceKeys id) ∧
    ∀ key ∈ inherited.map Property.name, key ∉ c.instanceKeys id

end Checker

/-! ## Chains that do not come back -/

/-- Steps to something that is not on a list. -/
def Avoiding {α : Type} (r : α → α → Prop) (closed : List α) (a b : α) : Prop :=
  r a b ∧ b ∉ closed

/-- Where a chain ends that avoids some things, a chain ends that also does not come back to its
beginning. -/
theorem reflTransGen_avoiding {α : Type} {r : α → α → Prop} {closed : List α} {a b : α} :
    Relation.ReflTransGen (Avoiding r closed) a b ↔ b = a ∨
      ∃ next, Avoiding r (a :: closed) a next ∧
        Relation.ReflTransGen (Avoiding r (a :: closed)) next b := by
  constructor
  · intro h
    induction h with
    | refl => exact .inl rfl
    | @tail last b _ hstep ih =>
        by_cases hb : b = a
        · exact .inl hb
        have hstep : Avoiding r (a :: closed) last b :=
          ⟨hstep.1, by simpa [hb] using hstep.2⟩
        rcases ih with rfl | ⟨next, hnext, hrest⟩
        · exact .inr ⟨b, hstep, .refl⟩
        · exact .inr ⟨next, hnext, hrest.tail hstep⟩
  · have hmono {x y : α} (h : Avoiding r (a :: closed) x y) : Avoiding r closed x y :=
      ⟨h.1, fun hy ↦ h.2 (List.mem_cons_of_mem a hy)⟩
    rintro (rfl | ⟨next, hnext, hrest⟩)
    · exact .refl
    · exact .head (hmono hnext) (Relation.ReflTransGen.mono (fun _ _ ↦ hmono) _ _ hrest)

namespace Typing

/-! ## Declared keys -/

variable {c : Checker} {trail : TypeTrail} {args : List Ty}

theorem bound?_instantiate {typeAt : TypeEnv → TypeExpr → Ty} {env : TypeEnv} {name : String}
    {params : List TypeParam} (h : name ∉ params.map (·.name)) (args : List Ty) :
    (instantiate typeAt env params args).bound? name = env.bound? name := by
  induction params generalizing env args with
  | nil => rw [instantiate]
  | cons p rest ih =>
      rw [List.map_cons, List.mem_cons, not_or] at h
      have hbind (t : Ty) : (env.bind p.name t).bound? name = env.bound? name := by
        simp [TypeEnv.bound?, TypeEnv.bind, List.lookup_cons, beq_false_of_ne h.1]
      cases args <;> rw [instantiate, ih h.2, hbind]

theorem boundType?_instantiate (typeAt : TypeEnv → TypeExpr → Ty) (d : Declaration)
    {path : List String} {params : List TypeParam} (h : path ∉ params.map ([·.name]))
    (args : List Ty) :
    boundType? path (instantiate typeAt (declarationEnv d) params args) = none := by
  match path with
  | [] | _ :: _ :: _ => rfl
  | [single] =>
    refine (bound?_instantiate (fun hsingle ↦ h ?_) args).trans rfl
    obtain ⟨p, hp, rfl⟩ := List.mem_map.mp hsingle
    exact List.mem_map_of_mem hp

theorem any_classMembers (ask : TypeRules) (env : TypeEnv) (m : ClassMember) (key : String) :
    (classMembers ask trail env m).any (·.key? == some key) = true ↔ key ∈ m.keys := by
  obtain ⟨modifiers, kind, span⟩ := m
  cases kind with
  | constructor params body => simp [classMembers, ClassMember.keys, Member.key?, and_assoc]
  | property name | method name | getter name | setter name =>
      cases hname : isHidden name
      · simp [classMembers, ClassMember.keys, hname, Member.key?, eq_comm (a := key)]
      · simp [classMembers, ClassMember.keys, hname]
  | index index | staticBlock body => simp [classMembers, ClassMember.keys]

theorem has_addOwn (n : Nat) (d : Declaration) (key : String) :
    Members.has key (addOwn (rulesWithin c n) trail args [] d) = true ↔
      key ∈ d.kind.instanceKeys := by
  unfold addOwn addDeclaration DeclarationKind.instanceKeys
  cases d.kind with
  | classDecl decl =>
      refine (Bool.eq_iff_iff.mp (Members.addsUnder_addMember.foldl.has [] _ key)).trans ?_
      rw [Members.has, List.any_nil, Bool.false_or, List.any_flatMap, List.any_eq_true,
        List.mem_flatMap]
      exact exists_congr fun m ↦ and_congr_right fun _ ↦ any_classMembers _ _ m key
  | interfaceDecl decl =>
      refine (Bool.eq_iff_iff.mp (Members.addsUnder_addNew.foldl.has [] _ key)).trans ?_
      have hobject := has_objectAt_within trail c n
        (instantiate ((rulesWithin c n).typeAt trail) (declarationEnv d) decl.typeParams args)
        decl.members key
      simp only [Members.has] at hobject
      simp [Members.has, hobject]
  | _ => simp [Members.has]

theorem has_ownParts (n : Nat) (id : Nat) (key : String) :
    Members.has key (ownParts c (rulesWithin c n) trail id args).1 = true ↔
      key ∈ c.instanceKeys id := by
  unfold ownParts
  rw [foldl_addDeclaration_fst, (addsUnder_addOwn _ _ _).foldl.has]
  simp only [Members.has, List.any_nil, Bool.false_or, List.any_eq_true, Checker.instanceKeys,
    List.mem_flatMap]
  exact exists_congr fun d ↦ and_congr_right fun _ ↦
    (List.any_eq_true.symm.trans (has_addOwn n d key))

/-! ## Extended types -/

theorem base?_eq_some {d : Declaration} {type : TypeExpr} {base : Nat}
    (h : c.base? d type = some base) : ∃ path typeArgs, type = .reference path typeArgs ∧
      path ∉ d.kind.typeParams.map ([·.name]) ∧ c.entity? path d.scope = some base ∧
      (c.binding.symbol base).hasInstances = true := by
  cases type with
  | reference path typeArgs =>
      rw [Checker.base?] at h
      by_cases hpath : path ∈ d.kind.typeParams.map ([·.name])
      · rw [if_pos hpath] at h
        cases h
      · rw [if_neg hpath] at h
        obtain ⟨hentity, hinstances⟩ := Option.filter_eq_some_iff.mp h
        exact ⟨path, typeArgs, rfl, hpath, hentity, hinstances⟩
  | _ => cases h

theorem declaredType_of_hasInstances {ask : TypeRules} {id : Nat}
    (h : (c.binding.symbol id).hasInstances = true) :
    declaredType c ask trail id args = .reference id (c.binding.qualifiedName id) args := by
  rw [Symbol.hasInstances, Bool.and_eq_true, Bool.not_eq_true'] at h
  rw [declaredType, h.2, if_neg Bool.false_ne_true, if_pos h.1]

/-- A base that is named directly is a reference to it, where the declaration stands. -/
theorem typeAt_base {d : Declaration} {type : TypeExpr} {base : Nat}
    (h : c.base? d type = some base) (n : Nat) (typeAt : TypeEnv → TypeExpr → Ty) :
    ∃ name baseArgs, (rulesWithin c n).typeAt trail
      (instantiate typeAt (declarationEnv d) d.kind.typeParams args) type =
        .reference base name baseArgs := by
  obtain ⟨path, typeArgs, rfl, hpath, hentity, hinstances⟩ := base?_eq_some h
  have hbound := boundType?_instantiate typeAt d hpath args
  cases n with
  | zero | succ n =>
      simp only [rulesWithin, rules, typeRule, hbound, namedType, scope_instantiate]
      simp only [declarationEnv, hentity, declaredType_of_hasInstances hinstances]
      exact ⟨_, _, rfl⟩

theorem addDeclaration_snd (ask : TypeRules) (found : List Property × List Ty) (d : Declaration) :
    (addDeclaration ask trail args found d).2 = found.2 ++ d.kind.bases.map (ask.typeAt trail
      (instantiate (ask.typeAt trail) (declarationEnv d) d.kind.typeParams args)) := by
  unfold addDeclaration DeclarationKind.bases DeclarationKind.typeParams
  cases d.kind with
  | classDecl decl | interfaceDecl decl => rfl
  | _ => simp

theorem ownParts_snd (ask : TypeRules) (id : Nat) :
    (ownParts c ask trail id args).2 = (c.binding.symbol id).declarations.flatMap fun d ↦
      let trail := { trail with heritage := id :: trail.heritage }
      d.kind.bases.map (ask.typeAt trail
        (instantiate (ask.typeAt trail) (declarationEnv d) d.kind.typeParams args)) := by
  have hfold (trail : TypeTrail) (ds : List Declaration) (found : List Property × List Ty) :
      (ds.foldl (addDeclaration ask trail args) found).2 = found.2 ++ ds.flatMap fun d ↦
        d.kind.bases.map (ask.typeAt trail
          (instantiate (ask.typeAt trail) (declarationEnv d) d.kind.typeParams args)) := by
    induction ds generalizing found with
    | nil => exact (List.append_nil _).symm
    | cons d rest ih =>
        rw [List.foldl_cons, ih, addDeclaration_snd, List.flatMap_cons, List.append_assoc]
  exact hfold _ _ _

/-- Where all bases of a symbol are named directly, the types of its bases are references to the
symbols that it extends. -/
theorem exists_mem_bases_iff {id : Nat} (hdirect : c.ExtendsDirectly id) (n : Nat) {P : Ty → Prop}
    {Q : Nat → Prop}
    (hPQ : ∀ base, c.Extends id base → ∀ name args,
      P (.reference base name args) ↔ Q base) :
    (∃ t ∈ (ownParts c (rulesWithin c n) trail id args).2, P t) ↔
      ∃ base, c.Extends id base ∧ Q base := by
  simp only [ownParts_snd, List.mem_flatMap, List.mem_map]
  constructor
  · rintro ⟨_, ⟨d, hd, type, htype, rfl⟩, hP⟩
    obtain ⟨base, hbase⟩ := Option.isSome_iff_exists.mp (hdirect d hd type htype)
    obtain ⟨name, baseArgs, ht⟩ := typeAt_base hbase n _
    have hextends : c.Extends id base := ⟨d, hd, type, htype, hbase⟩
    rw [ht] at hP
    exact ⟨base, hextends, (hPQ base hextends name baseArgs).mp hP⟩
  · rintro ⟨base, hextends, hQ⟩
    obtain ⟨d, hd, type, htype, hbase⟩ := hextends
    obtain ⟨name, baseArgs, ht⟩ := typeAt_base hbase n _
    exact ⟨_, ⟨d, hd, type, htype, ht⟩,
      (hPQ base ⟨d, hd, type, htype, hbase⟩ name baseArgs).mpr hQ⟩

/-! ## The hierarchy -/

theorem mem_foldl_addNew {key : String} {ps qs : List Property} :
    Members.has key (qs.foldl Members.addNew ps) = true ↔
      Members.has key ps = true ∨ Members.has key qs = true := by
  rw [Members.addsUnder_addNew.foldl.has, Bool.or_eq_true]
  rfl

/-- A trail on which the open classes and interfaces leave levels for all that are not open. -/
structure Leaves (c : Checker) (n : Nat) (trail : TypeTrail) : Prop where
  nodup : trail.heritage.Nodup
  lt : ∀ id ∈ trail.heritage, id < c.binding.symbols.size
  levels : c.binding.symbols.size ≤ n + trail.heritage.length

/-- Behind a symbol that can be opened there is a level, and one that can be opened less. -/
theorem Leaves.exists_succ {n : Nat} (h : Leaves c n trail) {id : Nat}
    (hid : id < c.binding.symbols.size) (hclosed : id ∉ trail.heritage) :
    ∃ m, n = m + 1 ∧ Leaves c m { trail with heritage := id :: trail.heritage } := by
  have hnodup : (id :: trail.heritage).Nodup := List.nodup_cons.mpr ⟨hclosed, h.nodup⟩
  have hlt : ∀ other ∈ id :: trail.heritage, other < c.binding.symbols.size :=
    List.forall_mem_cons.mpr ⟨hid, h.lt⟩
  have hlength : (id :: trail.heritage).length ≤ (List.range c.binding.symbols.size).length :=
    (List.subperm_of_subset hnodup fun other hother ↦
      List.mem_range.mpr (hlt other hother)).length_le
  rw [List.length_cons, List.length_range] at hlength
  obtain ⟨m, rfl⟩ := Nat.exists_eq_succ_of_ne_zero (show n ≠ 0 by have := h.levels; omega)
  exact ⟨m, rfl, hnodup, hlt, by have := h.levels; simp only [List.length_cons]; omega⟩

theorem propertiesOf_succ (n : Nat) {id : Nat} (hclosed : id ∉ trail.heritage) (name : String)
    (args : List Ty) : (rulesWithin c (n + 1)).propertiesOf trail (.reference id name args) =
      ((ownParts c (rulesWithin c n) trail id args).2.flatMap
        ((rulesWithin c n).propertiesOf { trail with heritage := id :: trail.heritage })).foldl
          Members.addNew (ownParts c (rulesWithin c n) trail id args).1 := by
  have hrules : rulesWithin c (n + 1) = rules c (rulesWithin c n) := rfl
  rw [hrules]
  simp only [rules, propertiesRule]
  rw [declaredProperties_eq hclosed]

theorem propertiesOf_open (n : Nat) {id : Nat} (hopen : id ∈ trail.heritage) (name : String)
    (args : List Ty) : (rulesWithin c n).propertiesOf trail (.reference id name args) = [] := by
  cases n with
  | zero | succ n =>
      simp only [rulesWithin, rules, propertiesRule]
      exact declaredProperties_of_mem hopen args

theorem lt_of_extends {id base : Nat} (h : c.Extends id base) : base < c.binding.symbols.size := by
  obtain ⟨d, _, type, _, hbase⟩ := h
  obtain ⟨_, _, _, _, _, hinstances⟩ := base?_eq_some hbase
  rw [Symbol.hasInstances, Bool.and_eq_true, List.any_eq_true] at hinstances
  obtain ⟨⟨other, hother, _⟩, _⟩ := hinstances
  exact Binding.lt_of_mem_declarations hother

/-- The names of the properties of a class or interface that is not open are those of all that is
reached without anything that is open. -/
theorem has_propertiesOf_within {n : Nat} (h : Leaves c n trail) {id : Nat}
    (hid : id < c.binding.symbols.size) (hclosed : id ∉ trail.heritage)
    (hdirect : ∀ j, c.Inherits id j → c.ExtendsDirectly j) (name : String) (args : List Ty)
    (key : String) :
    Members.has key ((rulesWithin c n).propertiesOf trail (.reference id name args)) = true ↔
      ∃ j, Relation.ReflTransGen (Avoiding c.Extends trail.heritage) id j ∧
        key ∈ c.instanceKeys j := by
  induction n generalizing trail id name args with
  | zero =>
      obtain ⟨m, hm, _⟩ := h.exists_succ hid hclosed
      cases hm
  | succ n ih =>
      obtain ⟨m, hm, hleaves⟩ := h.exists_succ hid hclosed
      obtain rfl : n = m := Nat.succ.inj hm
      -- A base that is open gives nothing; any other is itself a case of the induction.
      have hbase (base : Nat) (hextends : c.Extends id base) (name : String) (args : List Ty) :
          Members.has key ((rulesWithin c n).propertiesOf
              { trail with heritage := id :: trail.heritage }
                (.reference base name args)) = true ↔
            base ∉ id :: trail.heritage ∧ ∃ j, Relation.ReflTransGen
              (Avoiding c.Extends (id :: trail.heritage)) base j ∧ key ∈ c.instanceKeys j := by
        by_cases hopen : base ∈ id :: trail.heritage
        · rw [propertiesOf_open n hopen]
          simp [Members.has, hopen]
        · rw [ih hleaves (lt_of_extends hextends) hopen
            (fun j hj ↦ hdirect j (.head hextends hj))]
          exact (and_iff_right hopen).symm
      rw [propertiesOf_succ n hclosed, mem_foldl_addNew, has_ownParts, Members.has,
        List.any_flatMap, List.any_eq_true, exists_mem_bases_iff (hdirect id .refl) n hbase]
      constructor
      · rintro (hkey | ⟨base, hextends, hopen, j, hj, hkey⟩)
        · exact ⟨id, .refl, hkey⟩
        · exact ⟨j, reflTransGen_avoiding.mpr
            (.inr ⟨base, ⟨hextends, hopen⟩, hj⟩), hkey⟩
      · rintro ⟨j, hj, hkey⟩
        rcases reflTransGen_avoiding.mp hj with rfl | ⟨base, ⟨hextends, hopen⟩, hj⟩
        · exact .inl hkey
        · exact .inr ⟨base, hextends, hopen, j, hj, hkey⟩

end Typing

namespace Checker

open Typing

variable {c : Checker}

theorem symbol_of_not_lt {id : Nat} (h : ¬id < c.binding.symbols.size) :
    c.binding.symbol id = .fresh "" [] := Binding.symbol_of_le (not_lt.mp h)

theorem leaves_nil : Leaves c c.trailLimit ⟨[], []⟩ where
  nodup := List.nodup_nil
  lt _ h := absurd h List.not_mem_nil
  levels := by
    unfold trailLimit
    simp only [List.length_nil]
    omega

/-- Own properties have the names of the members that the declarations of the symbol have. -/
theorem has_ownProperties_iff {id : Nat} {args : List Ty} (key : String) :
    Members.has key (c.ownProperties id args) = true ↔ key ∈ c.instanceKeys id := by
  unfold ownProperties inner
  cases hlimit : c.trailLimit with
  | zero =>
      have hid : ¬id < c.binding.symbols.size := by
        unfold trailLimit at hlimit
        omega
      simp [ownParts, instanceKeys, symbol_of_not_lt hid, Symbol.fresh, Members.has]
  | succ n => exact has_ownParts n id key

theorem has_propertiesOf {id : Nat} (hdirect : ∀ j, c.Inherits id j → c.ExtendsDirectly j)
    (name : String) (args : List Ty) (key : String) :
    Members.has key (c.propertiesOf (.reference id name args)) = true ↔
      ∃ j, c.Inherits id j ∧ key ∈ c.instanceKeys j := by
  have hall : Avoiding c.Extends [] = c.Extends := by
    funext a b
    simp [Avoiding]
  by_cases hid : id < c.binding.symbols.size
  · have hwithin := has_propertiesOf_within leaves_nil hid List.not_mem_nil hdirect name args key
    rwa [hall] at hwithin
  · have hsymbol := symbol_of_not_lt hid
    have hinherited : c.inheritedProperties id args = [] := by
      simp [inheritedProperties, ownParts, hsymbol, Symbol.fresh]
    have hself (j : Nat) : c.Inherits id j ↔ j = id := by
      refine (Relation.reflTransGen_iff_eq fun base hbase ↦ ?_)
      obtain ⟨d, hd, _⟩ := hbase
      simp [hsymbol, Symbol.fresh] at hd
    rw [propertiesOf_reference, hinherited, List.append_nil, has_ownProperties_iff]
    simp only [hself, exists_eq_left]

/-- The properties of a class or interface are those of everything that it extends, however the
hierarchy goes together: each name stands once, and those that it declares itself come first. -/
theorem flattens_propertiesOf (c : Checker) {id : Nat}
    (hdirect : ∀ j, c.Inherits id j → c.ExtendsDirectly j) (name : String) (args : List Ty) :
    c.Flattens id (c.propertiesOf (.reference id name args)) where
  distinct := by
    unfold propertiesOf
    rw [typing_eq]
    simp only [rules, propertiesRule]
    exact distinct_declaredProperties id args
  complete key := by rw [← Members.has_iff, has_propertiesOf hdirect]
  ownFirst := by
    refine ⟨_, _, propertiesOf_reference c id name args, fun key ↦
      ?_, fun key hkey hown ↦ ?_⟩
    · rw [← Members.has_iff, has_ownProperties_iff]
    · rw [← has_ownProperties_iff] at hown
      rw [← Members.has_iff, not_has_inheritedProperties hown] at hkey
      cases hkey

theorem extendsDirectly_of_lt
    (h : ∀ j < c.binding.symbols.size, c.ExtendsDirectly j) (j : Nat) : c.ExtendsDirectly j := by
  by_cases hj : j < c.binding.symbols.size
  · exact h j hj
  · intro d hd
    simp [symbol_of_not_lt hj, Symbol.fresh] at hd

end Checker

/-- A class that is an interface too. As an interface it extends both sides of a diamond, and as a
class it extends a class that extends it in turn. -/
def tangledProgram : Program :=
  let name (text : String) : Name := ⟨text, ⟨0, 0⟩⟩
  let reference (text : String) : TypeExpr := .reference [text] []
  let property (text : String) (word : Keyword) : TypeMember :=
    .property (.identifier text) false false (some (.keyword word))
  let interface (text : String) (bases : List TypeExpr) (members : List TypeMember) : Decl :=
    .interfaceDecl ⟨name text, [], bases, members⟩
  let member (modifiers : List Modifier) (kind : ClassMemberKind) : ClassMember :=
    ⟨modifiers, kind, ⟨0, 0⟩⟩
  let base : ClassDecl := ⟨some (name "Base"), [], some (reference "Bottom"), [],
    [member [] (.constructor [⟨"token", [.privateAccess], false, false, none⟩] none),
      member [] (.property (.hash "#secret") false none),
      member [.static] (.property (.identifier "shared") false none),
      member [] (.property (.identifier "left") false none)]⟩
  let bottom : ClassDecl := ⟨some (name "Bottom"), [], some (reference "Base"), [],
    [member [] (.getter (.identifier "own") none none)]⟩
  let statement (id : Nat) (decl : Decl) : Statement := ⟨id, [.ambient], decl, ⟨0, 0⟩⟩
  let tree : SourceFile := ⟨[statement 0 (interface "Top" [] [property "id" .string]),
    statement 1 (interface "Left" [reference "Top"] [property "left" .boolean]),
    statement 2 (interface "Right" [reference "Top"] [property "right" .boolean]),
    statement 3 (.classDecl bottom),
    statement 4 (interface "Bottom" [reference "Left", reference "Right"] [property "id" .number]),
    statement 5 (.classDecl base)], []⟩
  ⟨⟨.commonjs, false⟩, #[⟨⟨"/index.d.ts"⟩, "", tree, []⟩]⟩

theorem flattens_tangled :
    let c := Checker.ofProgram tangledProgram
    let ps := c.propertiesOf (.reference 3 "Bottom" [])
    (∀ j, c.Inherits 3 j → c.ExtendsDirectly j) ∧
      ps.map Property.name = ["own", "id", "token", "left", "right"] ∧ c.Flattens 3 ps := by
  intro c ps
  have hdirect : ∀ j < c.binding.symbols.size, c.ExtendsDirectly j := by decide +kernel
  have hall := Checker.extendsDirectly_of_lt hdirect
  exact ⟨fun j _ ↦ hall j, by decide +kernel, c.flattens_propertiesOf (fun j _ ↦ hall j)
    "Bottom" []⟩

/-- A program with an interface that has a member with a name that a class would hide. -/
def hashInterface : InterfaceDecl :=
  ⟨⟨"S", ⟨0, 0⟩⟩, [], [], [.property (.hash "#x") false false (some (.keyword .number)),
    .property (.identifier "y") false false (some (.keyword .string))]⟩

def hashProgram : Program :=
  ⟨⟨.commonjs, false⟩, #[
    ⟨⟨"/index.d.ts"⟩, "",
      ⟨[⟨0, [], .interfaceDecl hashInterface, ⟨0, 0⟩⟩], []⟩, []⟩]⟩

/-- An interface does not hide such members: the interface extends nothing, and the hidden name is a
name of its properties. -/
theorem hidden_mem_propertiesOf :
    let c := Checker.ofProgram hashProgram
    (∀ j, c.Inherits 0 j → c.ExtendsDirectly j) ∧ (∀ j, c.Inherits 0 j ↔ j = 0) ∧
      (c.binding.symbol 0).declarations.map (·.kind) = [.interfaceDecl hashInterface] ∧
      Typing.isHidden (.hash "#x") = true ∧
      (c.propertiesOf (.reference 0 "S" [])).map Property.name = ["#x", "y"] := by
  intro c
  have hdirect : ∀ j < c.binding.symbols.size, c.ExtendsDirectly j := by decide +kernel
  have hkinds :
      (c.binding.symbol 0).declarations.map (·.kind) = [.interfaceDecl hashInterface] := by
    with_unfolding_all rfl
  refine ⟨fun j _ ↦ Checker.extendsDirectly_of_lt hdirect j, fun j ↦ ?_, hkinds, rfl,
    by decide +kernel⟩
  refine Relation.reflTransGen_iff_eq fun base hbase ↦ ?_
  obtain ⟨d, hd, type, htype, _⟩ := hbase
  have hkind := List.mem_map_of_mem (f := (·.kind)) hd
  rw [hkinds, List.mem_singleton] at hkind
  rw [hkind] at htype
  cases htype

end PluginSurface
