import PluginSurface.Proofs.Typing.Inheritance
import PluginSurface.Proofs.Typing.OpenTrails

/-!
# What is written for a property

The type of a property comes from what its member says about it. Under a name that one member has
alone, nothing else counts: not the other members, not the other declarations, and not what is
inherited.
-/

namespace PluginSurface

/-- What a member says about the type of its property. -/
inductive MemberType where
  | type (type : Option TypeExpr)
  | method (signature : Signature)

namespace MemberType

def mentions : MemberType → List Mention
  | .type t => mentionsOfType? t
  | .method signature => signature.mentions

def resolve (ask : TypeRules) (trail : TypeTrail) (env : TypeEnv) : MemberType → Ty
  | .type t => Typing.annotated ask trail env t
  | .method signature => .function (ask.signatureAt trail env signature)

end MemberType

/-- The name under which a member is collected, with what it says about its type. -/
def TypeMember.memberType? : TypeMember → Option (String × MemberType)
  | .property name _ _ type | .getter name type => some (name.key, .type type)
  | .setter name param => some (name.key, .type (param.bind (·.type)))
  | .method name _ signature => some (name.key, .method signature)
  | .call _ | .construct _ | .index _ => none

def ClassMember.memberTypes (m : ClassMember) : List (String × MemberType) :=
  let visible (name : PropertyName) (a : MemberType) :=
    if Typing.isHidden name then [] else [(name.key, a)]
  match m.kind with
  | .constructor params _ => (params.filter Param.isProperty).map fun p ↦ (p.name, .type p.type)
  | .property name _ type | .getter name type _ => visible name (.type type)
  | .setter name param _ => visible name (.type (param.bind (·.type)))
  | .method name _ signature _ => visible name (.method signature)
  | .index _ | .staticBlock _ => []

/-- What a declaration says about the properties of its instances. -/
def DeclarationKind.memberTypes : DeclarationKind → List (String × MemberType)
  | .classDecl decl => (decl.members.filter (!·.isStatic)).flatMap ClassMember.memberTypes
  | .interfaceDecl decl => decl.members.filterMap TypeMember.memberType?
  | _ => []

/-- The type of the property that a member is collected as. -/
def Member.typed? : Member → Option (String × Ty)
  | .property name _ _ type | .getter name type | .setter name type => some (name, type)
  | .method name _ f => some (name, .function f)
  | .call _ | .construct _ | .index _ => none

namespace Checker

variable (c : Checker)

/-- What the declarations of a symbol say about its own property of a name. -/
def memberTypes (id : Nat) (key : String) : List (Declaration × MemberType) :=
  (c.binding.symbol id).declarations.flatMap fun d ↦
    (d.kind.memberTypes.filter (·.1 == key)).map fun x ↦ (d, x.2)

/-- The type that the properties of a type have under a name, where some are open already. -/
def propertyType? (trail : TypeTrail) (t : Ty) (key : String) : Option Ty :=
  ((c.typing.propertiesOf trail t).find? (·.name == key)).map Property.type

end Checker

/-! ## Mentions -/

theorem TypeMember.mentions_memberType? {m : TypeMember} {x : String × MemberType}
    (h : m.memberType? = some x) : x.2.mentions = m.mentions := by
  cases m with
  | call | construct | index => cases h
  | property | getter | method =>
      obtain rfl := Option.some.inj h
      simp only [MemberType.mentions, TypeMember.mentions]
  | setter name param =>
      obtain rfl := Option.some.inj h
      rcases param with _ | ⟨_, _, _, _, type⟩ <;>
        simp [MemberType.mentions, TypeMember.mentions, mentionsOfType?]

theorem mem_mentionsOfMembers {ms : List TypeMember} {m : TypeMember} (h : m ∈ ms) :
    m.mentions ⊆ mentionsOfMembers ms := by
  induction ms with
  | nil => cases h
  | cons first rest ih =>
      rw [mentionsOfMembers]
      rcases List.mem_cons.mp h with rfl | h
      · exact List.subset_append_left _ _
      · exact List.Subset.trans (ih h) (List.subset_append_right _ _)

theorem ClassMember.mentions_memberTypes {m : ClassMember} {x : String × MemberType}
    (h : x ∈ m.memberTypes) : x.2.mentions ⊆ m.mentions := by
  obtain ⟨modifiers, kind, span⟩ := m
  cases kind with
  | constructor params body =>
      obtain ⟨p, hp, rfl⟩ := List.mem_map.mp h
      exact mem_mentionsOfParams (List.mem_filter.mp hp).1
  | property name | getter name | method name | setter name =>
      cases hname : Typing.isHidden name <;> simp [memberTypes, hname] at h
      subst h
      simp [MemberType.mentions, mentions, mentionsOfParams_toList]
  | index | staticBlock => cases h

theorem DeclarationKind.mentions_memberTypes {k : DeclarationKind} {x : String × MemberType}
    (h : x ∈ k.memberTypes) : x.2.mentions ⊆ k.mentions := by
  cases k with
  | classDecl decl =>
      obtain ⟨m, hm, hx⟩ := List.mem_flatMap.mp h
      refine List.subset_append_of_subset_right _ fun mention hmention ↦ ?_
      exact List.mem_flatMap.mpr
        ⟨m, (List.mem_filter.mp hm).1, ClassMember.mentions_memberTypes hx hmention⟩
  | interfaceDecl decl =>
      obtain ⟨m, hm, hx⟩ := List.mem_filterMap.mp h
      rw [TypeMember.mentions_memberType? hx]
      exact List.subset_append_of_subset_right _ (mem_mentionsOfMembers hm)
  | _ => cases h

theorem Checker.mentions_memberTypes {c : Checker} {id : Nat} {key : String} {d : Declaration}
    {a : MemberType} (h : (d, a) ∈ c.memberTypes id key) :
    d ∈ (c.binding.symbol id).declarations ∧ a.mentions ⊆ d.kind.mentions := by
  obtain ⟨other, hother, hmap⟩ := List.mem_flatMap.mp h
  obtain ⟨x, hx, heq⟩ := List.mem_map.mp hmap
  cases heq
  exact ⟨hother, DeclarationKind.mentions_memberTypes (List.mem_filter.mp hx).1⟩

/-! ## Members under one name -/

theorem exists_eq_singleton_of_filterMap {α β : Type} {f : α → Option β}
    {as : List α} {b : β}
    (hf : ∀ a ∈ as, (f a).isSome) (h : as.filterMap f = [b]) :
    ∃ a, as = [a] ∧ f a = some b := by
  obtain ⟨before, a, after, rfl, hbefore, ha, hafter⟩ := List.filterMap_eq_cons_iff.mp h
  rw [List.filterMap_eq_nil_iff] at hafter
  have hnil {rest : List α} (hrest : rest ⊆ before ++ a :: after)
      (hnone : ∀ x ∈ rest, f x = none) : rest = [] :=
    List.eq_nil_iff_forall_not_mem.mpr fun x hx ↦ by simpa [hnone x hx] using hf x (hrest hx)
  obtain rfl := hnil (List.subset_append_left _ _) hbefore
  obtain rfl := hnil (by simp) hafter
  exact ⟨a, rfl, ha⟩

theorem exists_of_flatMap_eq_singleton {α β : Type} {f : α → List β} {as : List α} {b : β}
    (h : as.flatMap f = [b]) : ∃ before a after, as = before ++ a :: after ∧ f a = [b] ∧
      ∀ other ∈ before ++ after, f other = [] := by
  induction as with
  | nil => cases h
  | cons a rest ih =>
      rw [List.flatMap_cons, List.append_eq_singleton_iff] at h
      rcases h with ⟨ha, hrest⟩ | ⟨ha, hrest⟩
      · obtain ⟨before, found, after, rfl, hfound, hothers⟩ := ih hrest
        exact ⟨a :: before, found, after, rfl, hfound, List.forall_mem_cons.mpr
          ⟨ha, hothers⟩⟩
      · exact ⟨[], a, rest, rfl, ha, List.flatMap_eq_nil_iff.mp hrest⟩

namespace Members

theorem typed?_of_key? {m : Member} {key : String} (h : m.key? = some key) :
    ∃ t, m.typed? = some (key, t) := by
  cases m with
  | call | construct | index => cases h
  | _ =>
      obtain rfl := Option.some.inj h
      exact ⟨_, rfl⟩

theorem map_type_addMember {m : Member} {key : String} {t : Ty} (h : m.typed? = some (key, t)) :
    (addMember [] m).map Property.type = [t] := by
  cases m with
  | call | construct | index => cases h
  | _ =>
      obtain ⟨rfl, rfl⟩ := Prod.mk.inj (Option.some.inj h)
      rfl

theorem filterMap_typed?_filter (ms : List Member) (key : String) :
    (ms.filter (·.key? == some key)).filterMap Member.typed? =
      (ms.filterMap Member.typed?).filter (·.1 == key) := by
  rw [List.filterMap_filter, List.filter_filterMap]
  refine List.filterMap_congr fun m _ ↦ ?_
  cases m with
  | call | construct | index => rfl
  | _ => simp [Member.key?, Member.typed?, Option.filter]

/-- Under a name that one member has, there is the property of this member. -/
theorem filter_foldl_addMember {ms : List Member} {key : String} {t : Ty}
    (h : (ms.filterMap Member.typed?).filter (·.1 == key) = [(key, t)]) :
    ((ms.foldl addMember []).filter (·.name == key)).map Property.type = [t] := by
  rw [← filterMap_typed?_filter] at h
  obtain ⟨m, hm, htyped⟩ := exists_eq_singleton_of_filterMap (fun m hm ↦ by
    obtain ⟨t, ht⟩ := typed?_of_key? (beq_iff_eq.mp (List.mem_filter.mp hm).2)
    exact ht ▸ rfl) h
  rw [filter_foldl filter_addMember, hm]
  exact map_type_addMember htyped

theorem filter_foldl_addNew_of_has {own : List Property} {key : String} (h : has key own = true)
    (ps : List Property) :
    (ps.foldl addNew own).filter (·.name == key) = own.filter (·.name == key) := by
  induction ps generalizing own with
  | nil => rfl
  | cons p rest ih =>
      rw [List.foldl_cons, ih (by rw [addsUnder_addNew.has, h, Bool.true_or])]
      by_cases hp : p.name = key
      · rw [addNew_of_has (hp ▸ h)]
      · exact addsUnder_addNew.other own p key (beq_false_of_ne hp)

end Members

/-! ## The members of a declaration -/

namespace Typing

open Members

variable {c : Checker} {trail : TypeTrail} {args : List Ty}

/-- The environment of the members of a class or interface with arguments. -/
def instanceEnv (ask : TypeRules) (trail : TypeTrail) (d : Declaration) (args : List Ty) :
    TypeEnv :=
  instantiate (ask.typeAt trail) (declarationEnv d) d.kind.typeParams args

theorem filterMap_classMembers (ask : TypeRules) (env : TypeEnv) (m : ClassMember) :
    (classMembers ask trail env m).filterMap Member.typed? =
      m.memberTypes.map fun x ↦ (x.1, x.2.resolve ask trail env) := by
  obtain ⟨modifiers, kind, span⟩ := m
  cases kind with
  | constructor params body =>
      simp [classMembers, ClassMember.memberTypes, Member.typed?, List.filterMap_map,
        Function.comp_def, MemberType.resolve]
  | property name | getter name | method name | setter name =>
      cases hname : isHidden name <;>
        simp [classMembers, ClassMember.memberTypes, hname, Member.typed?, MemberType.resolve]
  | index | staticBlock => rfl

theorem typeRule?_typing (env : TypeEnv) (type : Option TypeExpr) :
    typeRule? c c.typing trail env type = annotated c.typing trail env type := by
  cases type with
  | none => rw [typeRule?, annotated]
  | some type => rw [typeRule?, annotated, typing_typeAt]

theorem typed?_memberRule (env : TypeEnv) (m : TypeMember) :
    (memberRule c c.typing trail env m).typed? =
      m.memberType?.map fun x ↦ (x.1, x.2.resolve c.typing trail env) := by
  cases m with
  | call | construct => rw [memberRule]; rfl
  | index i => cases i; rw [memberRule]; rfl
  | property | getter =>
      rw [memberRule, typeRule?_typing]
      rfl
  | method =>
      rw [memberRule, ← typing_signatureAt]
      rfl
  | setter name param =>
      have hparam : paramTypeRule c c.typing trail env param =
          annotated c.typing trail env (param.bind (·.type)) := by
        rcases param with _ | ⟨_, _, _, _, _ | type⟩
        · simp [paramTypeRule, annotated]
        · simp [paramTypeRule, annotated]
        · simp [paramTypeRule, annotated, typing_typeAt]
      rw [memberRule, hparam]
      rfl

theorem filterMap_memberRules (c : Checker) (trail : TypeTrail) (env : TypeEnv)
    (ms : List TypeMember) :
    (memberRules c c.typing trail env ms).filterMap Member.typed? =
      (ms.filterMap TypeMember.memberType?).map fun x ↦
      (x.1, x.2.resolve c.typing trail env) := by
  rw [memberRules_eq_map, List.filterMap_map, List.map_filterMap]
  exact List.filterMap_congr fun m _ ↦ typed?_memberRule env m

theorem map_fst_memberTypes (k : DeclarationKind) :
    k.memberTypes.map Prod.fst = k.instanceKeys := by
  cases k with
  | classDecl decl =>
      rw [DeclarationKind.memberTypes, DeclarationKind.instanceKeys, List.map_flatMap]
      refine List.flatMap_congr fun m _ ↦ ?_
      obtain ⟨modifiers, kind, span⟩ := m
      cases kind with
      | constructor params body => simp [ClassMember.memberTypes, ClassMember.keys]
      | property name | getter name | method name | setter name =>
          cases hname : isHidden name <;> simp [ClassMember.memberTypes, ClassMember.keys, hname]
      | index | staticBlock => rfl
  | interfaceDecl decl =>
      rw [DeclarationKind.memberTypes, DeclarationKind.instanceKeys, List.map_filterMap]
      refine List.filterMap_congr fun m _ ↦ ?_
      cases m <;> rfl
  | _ => rfl

/-- Of the properties under a name that one member of a declaration has, the type is what that
member says. -/
theorem filter_addOwn {d : Declaration} {key : String} {a : MemberType}
    (h : d.kind.memberTypes.filter (·.1 == key) = [(key, a)]) :
    ((addOwn c.typing trail args [] d).filter (·.name == key)).map Property.type =
      [a.resolve c.typing trail (instanceEnv c.typing trail d args)] := by
  let env := instanceEnv c.typing trail d args
  have hresolved : (d.kind.memberTypes.map fun x ↦ (x.1, x.2.resolve c.typing trail env)).filter
      (·.1 == key) = [(key, a.resolve c.typing trail env)] := by
    rw [List.filter_map]
    exact congrArg (List.map fun x ↦ (x.1, x.2.resolve c.typing trail env)) h
  cases hkind : d.kind with
  | classDecl decl =>
      have hmembers : ((decl.members.filter (!·.isStatic)).flatMap
          (classMembers c.typing trail env)).filterMap Member.typed? =
            d.kind.memberTypes.map fun x ↦ (x.1, x.2.resolve c.typing trail env) := by
        rw [hkind, DeclarationKind.memberTypes, List.filterMap_flatMap, List.map_flatMap]
        exact List.flatMap_congr fun m _ ↦ filterMap_classMembers _ env m
      have hown : addOwn c.typing trail args [] d = ((decl.members.filter (!·.isStatic)).flatMap
          (classMembers c.typing trail env)).foldl addMember [] := by
        simp only [addOwn, addDeclaration, hkind, env, instanceEnv, DeclarationKind.typeParams]
      rw [hown]
      exact filter_foldl_addMember (hmembers ▸ hresolved)
  | interfaceDecl decl =>
      have hown : addOwn c.typing trail args [] d =
          ((memberRules c c.typing trail env decl.members).foldl addMember []).foldl addNew [] := by
        simp only [addOwn, addDeclaration, hkind, typing_objectAt, toObject, env, instanceEnv,
          DeclarationKind.typeParams]
      have hmembers := filterMap_memberRules c trail env decl.members
      rw [hkind, DeclarationKind.memberTypes, ← hmembers] at hresolved
      have htypes := filter_foldl_addMember hresolved
      obtain ⟨p, hp, htype⟩ := List.map_eq_singleton_iff.mp htypes
      rw [hown, filter_foldl filter_addNew, hp, ← htype]
      rfl
  | _ =>
      rw [hkind] at h
      cases h

/-- A declaration has no properties under a name that it says nothing about. -/
theorem not_has_addOwn {d : Declaration} {key : String}
    (h : d.kind.memberTypes.filter (·.1 == key) = []) :
    has key (addOwn c.typing trail args [] d) = false := by
  refine Bool.eq_false_iff.mpr fun hhas ↦ ?_
  rw [Checker.typing, has_addOwn, ← map_fst_memberTypes] at hhas
  obtain ⟨x, hx, rfl⟩ := List.mem_map.mp hhas
  exact List.filter_eq_nil_iff.mp h x hx (beq_self_eq_true _)

/-- Where one declaration says one thing about a name, that is the type of the property, resolved
where the declaration stands. -/
theorem propertyType?_of_memberTypes {id : Nat} {key : String} {d : Declaration} {a : MemberType}
    (h : c.memberTypes id key = [(d, a)]) (hclosed : id ∉ trail.heritage) (name : String)
    (args : List Ty) :
    c.propertyType? trail (.reference id name args) key =
      some (a.resolve c.typing (trail.openHeritage id)
        (instanceEnv c.typing (trail.openHeritage id) d args)) := by
  obtain ⟨before, other, after, hds, hother, halone⟩ := exists_of_flatMap_eq_singleton h
  obtain ⟨x, hx, heq⟩ := List.map_eq_singleton_iff.mp hother
  obtain ⟨rfl, rfl⟩ := Prod.mk.inj heq
  have hkey : x.1 = key := beq_iff_eq.mp
    (List.mem_filter.mp (hx ▸ List.mem_singleton_self x : x ∈ _)).2
  have hown : ((ownParts c c.typing trail id args).1.filter (·.name == key)).map Property.type =
      [x.2.resolve c.typing (trail.openHeritage id)
        (instanceEnv c.typing (trail.openHeritage id) other args)] := by
    rw [ownParts, foldl_addDeclaration_fst, hds,
      (addsUnder_addOwn _ _ _).foldl_alone fun d hd ↦
        not_has_addOwn (List.map_eq_nil_iff.mp (halone d hd))]
    exact filter_addOwn (hkey ▸ hx)
  have hhas : has key (ownParts c c.typing trail id args).1 = true := by
    by_contra hnone
    rw [filter_name_eq_nil (Bool.eq_false_iff.mpr hnone)] at hown
    cases hown
  rw [Checker.propertyType?, typing_propertiesOf, propertiesRule, declaredProperties_eq hclosed,
    ← List.head?_filter, filter_foldl_addNew_of_has hhas, ← List.head?_map, hown,
    List.head?_cons]

end Typing

end PluginSurface
