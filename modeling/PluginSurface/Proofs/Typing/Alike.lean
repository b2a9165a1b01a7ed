import PluginSurface.Proofs.Binding.MirrorLinks
import PluginSurface.Proofs.Typing.Opening
import PluginSurface.Proofs.Typing.SameByName

/-!
# Resolving alike in a program that is edited

In a program that mirrors another, types resolve alike as long as no edited declaration is opened.
What may be opened is said by the trails that are `safe`; the lists of properties are compared by a
relation, so that those of an edited interface can be compared too. Main statement:
`Checker.Alike.opensAlike`.
-/

namespace PluginSurface

theorem Members.congruence_sameByName : Congruence SameByName where
  refl := SameByName.refl
  trans h h' name := (h name).trans (h' name)
  find? h name := congrArg (Option.map Property.type) (h.find?_eq name)
  flatten := SameByName.flatten
  addNew h hqs := h.addNew hqs
  addMeet h := (SameByName.refl []).addMeet h
  addMember h _ := h.addMember fun _ ↦ rfl

/-- The second interface is the first one up to the order of members with different names. -/
structure InterfaceDecl.SameByKey (i i' : InterfaceDecl) : Prop where
  typeParams : i'.typeParams = i.typeParams
  bases : i'.bases = i.bases
  members : TypeMember.SameByKey i.members i'.members

/-- The order of members with different names does not matter to the properties of an object. -/
def TypeRules.Orderless (ask : TypeRules) : Prop :=
  ∀ trail env ms ms', TypeMember.SameByKey ms ms' →
    Members.SameByName (ask.objectAt trail env ms).properties
      (ask.objectAt trail env ms').properties

/-- Two programs that mirror each other such that nothing edited is opened on safe trails, except
interfaces of which only the order of members is edited where the relation on properties allows
it. -/
structure Checker.Alike (R : List Property → List Property → Prop) (safe : TypeTrail → Prop)
    (edits : Nat → TypeEdit) (named : Nat → Prop) (c c' : Checker) : Prop where
  mirrors : c.Mirrors edits named c'
  congruence : Members.Congruence R
  mentions : ∀ id, ∀ d ∈ (c.binding.symbol id).declarations,
    c.Mentions named d.file d.scope d.kind.mentions
  safe_types : ∀ trail id, safe trail → safe { trail with types := id :: trail.types }
  safe_heritage : ∀ trail id, safe trail → safe { trail with heritage := id :: trail.heritage }
  aliases : ∀ id, ∀ d ∈ (c.binding.symbol id).declarations, ∀ a, d.kind = .aliasDecl a →
    (edits d.file).aliases a = a
  interfaces :
    ∀ id, ∀ d ∈ (c.binding.symbol id).declarations, ∀ i, d.kind = .interfaceDecl i →
    (edits d.file).interfaces i = i ∨ (∀ trail, safe trail → id ∈ trail.heritage) ∨
      i.SameByKey ((edits d.file).interfaces i) ∧ ∀ ps qs, Members.SameByName ps qs → R ps qs

namespace Typing

/-! ## The order of members -/

theorem memberRules_eq_map (c : Checker) (ask : TypeRules) (trail : TypeTrail) (env : TypeEnv)
    (ms : List TypeMember) :
    memberRules c ask trail env ms = ms.map (memberRule c ask trail env) := by
  induction ms with
  | nil => simp [memberRules]
  | cons m rest ih => simp [memberRules, ih]

theorem key?_memberRule (c : Checker) (ask : TypeRules) (trail : TypeTrail) (env : TypeEnv)
    (m : TypeMember) : (memberRule c ask trail env m).key? = m.key? := by
  cases m with
  | index i =>
      cases i
      rw [memberRule]
      rfl
  | _ =>
      rw [memberRule]
      rfl

theorem sameByName_toObject (c : Checker) (ask : TypeRules) (trail : TypeTrail) (env : TypeEnv)
    {ms ms' : List TypeMember} (h : TypeMember.SameByKey ms ms') :
    Members.SameByName (Members.toObject (memberRules c ask trail env ms)).properties
      (Members.toObject (memberRules c ask trail env ms')).properties := by
  refine (Members.SameByName.refl []).addMember fun name ↦ ?_
  rw [memberRules_eq_map, memberRules_eq_map, List.filter_map, List.filter_map]
  simp only [Function.comp_def, key?_memberRule]
  exact congrArg _ (h name)

theorem orderless_rules (c : Checker) (ask : TypeRules) : (rules c ask).Orderless :=
  fun trail env _ _ h ↦ sameByName_toObject c ask trail env h

theorem orderless_noRules : noRules.Orderless := fun _ _ _ _ _ ↦ .refl []

/-! ## Edited declarations -/

variable {R : List Property → List Property → Prop} {safe : TypeTrail → Prop}
  {edits : Nat → TypeEdit} {named : Nat → Prop} {c c' : Checker} {ask : TypeRules}
  {trail : TypeTrail}

theorem declarationEnv_edit (edits : Nat → TypeEdit) (d : Declaration) :
    declarationEnv (d.edit edits) = declarationEnv d := rfl

theorem declaresInstances_edit (edits : Nat → TypeEdit) (d : Declaration) :
    declaresInstances (d.edit edits) = declaresInstances d := by
  obtain ⟨file, scope, kind⟩ := d
  cases kind <;> rfl

theorem aliasDecl?_edit (edits : Nat → TypeEdit) (d : Declaration) :
    aliasDecl? (d.edit edits) =
      (aliasDecl? d).map fun x ↦ (x.1.edit edits, (edits x.1.file).aliases x.2) := by
  obtain ⟨file, scope, kind⟩ := d
  cases kind <;> rfl

theorem variableType?_edit (edits : Nat → TypeEdit) (d : Declaration) :
    variableType? (d.edit edits) = (variableType? d).map fun x ↦ (x.1.edit edits, x.2) := by
  obtain ⟨file, scope, kind⟩ := d
  match kind with
  | .variable none | .variable (some _) => rfl
  | .classDecl _ | .interfaceDecl _ | .aliasDecl _ | .function | .enum | .namespaceDecl
  | .moduleDecl | .link _ => rfl

section

variable {s s' : Symbol} (hs : s.Mirrors edits s')

include hs

theorem any_declaresInstances :
    s'.declarations.any declaresInstances = s.declarations.any declaresInstances := by
  rw [hs.declarations, List.any_map]
  simp only [Function.comp_def, declaresInstances_edit]

theorem findSome?_aliasDecl? : s'.declarations.findSome? aliasDecl? =
    (s.declarations.findSome? aliasDecl?).map
      fun x ↦ (x.1.edit edits, (edits x.1.file).aliases x.2) := by
  simp only [hs.declarations, List.findSome?_map, Function.comp_def, aliasDecl?_edit,
    List.map_findSome?]

theorem findSome?_variableType? : s'.declarations.findSome? variableType? =
    (s.declarations.findSome? variableType?).map fun x ↦ (x.1.edit edits, x.2) := by
  simp only [hs.declarations, List.findSome?_map, Function.comp_def, variableType?_edit,
    List.map_findSome?]

end

/-- Bodies of class members are not read. -/
theorem classMembers_edit (e : TypeEdit) (ask : TypeRules) (trail : TypeTrail) (env : TypeEnv)
    (m : ClassMember) : classMembers ask trail env (m.edit e) = classMembers ask trail env m := by
  obtain ⟨modifiers, kind, span⟩ := m
  cases kind <;> simp [classMembers, ClassMember.edit, ClassMemberKind.edit]

theorem instanceMembers_edit (e : TypeEdit) (env : TypeEnv) (ms : List ClassMember) :
    ((editMembers e ms).filter (!·.isStatic)).flatMap (classMembers ask trail env) =
      (ms.filter (!·.isStatic)).flatMap (classMembers ask trail env) := by
  have hstatic (m : ClassMember) : (m.edit e).isStatic = m.isStatic := by
    cases m
    rw [ClassMember.edit]
    rfl
  rw [editMembers_eq_map, List.filter_map, List.flatMap_map]
  simp only [Function.comp_def, hstatic, classMembers_edit]

/-- An edited declaration of what is not open adds the same, up to the order of members. -/
theorem addDeclaration_edit (h : c.Alike R safe edits named c') (horder : ask.Orderless)
    {outer : TypeTrail} (houter : safe outer)
    {id : Nat} (hid : id ∉ outer.heritage) {d : Declaration}
    (hd : d ∈ (c.binding.symbol id).declarations) (args : List Ty)
    (found : List Property × List Ty) :
    SameParts R (addDeclaration ask trail args found d)
      (addDeclaration ask trail args found (d.edit edits)) := by
  have hinterface := h.interfaces id d hd
  obtain ⟨file, scope, kind⟩ := d
  cases kind with
  | classDecl decl =>
      obtain ⟨name, typeParams, base, interfaces, members⟩ := decl
      simp only [addDeclaration, Declaration.edit, DeclarationKind.edit, ClassDecl.edit,
        declarationEnv, instanceMembers_edit]
      exact ⟨h.congruence.refl _, rfl⟩
  | interfaceDecl decl =>
      rcases hinterface decl rfl with hsame | hopen | ⟨hsame, hR⟩
      · simp only [addDeclaration, Declaration.edit, DeclarationKind.edit, declarationEnv, hsame]
        exact ⟨h.congruence.refl _, rfl⟩
      · exact absurd (hopen outer houter) hid
      · simp only [addDeclaration, Declaration.edit, DeclarationKind.edit, declarationEnv,
          hsame.typeParams, hsame.bases]
        exact ⟨h.congruence.addNew (h.congruence.refl _)
          (hR _ _ (horder _ _ _ _ hsame.members)), rfl⟩
  | _ => exact ⟨h.congruence.refl _, rfl⟩

end Typing

namespace Checker.Alike

open Typing

variable {R : List Property → List Property → Prop} {safe : TypeTrail → Prop}
  {edits : Nat → TypeEdit} {named : Nat → Prop} {c c' : Checker} {ask : TypeRules}
  {trail : TypeTrail} (h : c.Alike R safe edits named c')

include h

theorem ownParts (hsafe : safe trail) (horder : ask.Orderless) {id : Nat}
    (hid : id ∉ trail.heritage) (args : List Ty) :
    SameParts R (Typing.ownParts c ask trail id args) (Typing.ownParts c' ask trail id args) := by
  unfold Typing.ownParts
  rw [(h.mirrors.binding.symbol id).declarations, List.foldl_map]
  refine List.foldl_rel (r := SameParts R) (.refl h.congruence _) fun d hd _ _ hfound ↦ ?_
  exact (addDeclaration_sameParts h.congruence d args hfound).trans h.congruence
    (addDeclaration_edit h horder hsafe hid hd args _)

theorem aliasType {id : Nat} (hid : named id) {d : Declaration} {decl : AliasDecl}
    (hd : d ∈ (c.binding.symbol id).declarations) (hkind : d.kind = .aliasDecl decl)
    (args : List Ty) :
    Typing.aliasType c' ask trail id (d.edit edits) ((edits d.file).aliases decl) args =
      Typing.aliasType c ask trail id d decl args := by
  simp only [Typing.aliasType, h.mirrors.qualifiedName hid, h.aliases id d hd decl hkind,
    declarationEnv_edit]

theorem declaredType {id : Nat} (hid : named id) (args : List Ty) :
    Typing.declaredType c' ask trail id args = Typing.declaredType c ask trail id args := by
  have hs := h.mirrors.binding.symbol id
  simp only [Typing.declaredType, hs.outer, h.mirrors.binding.name id hid,
    any_declaresInstances hs, findSome?_aliasDecl? hs, h.mirrors.qualifiedName hid]
  split
  · rfl
  split
  · rfl
  cases hfound : (c.binding.symbol id).declarations.findSome? aliasDecl? with
  | none => rfl
  | some x =>
      obtain ⟨d, hd, hx⟩ := List.exists_of_findSome?_eq_some hfound
      obtain ⟨decl, hkind, rfl⟩ := aliasDecl?_eq_some hx
      exact h.aliasType hid hd hkind args

theorem queryType {path : List String} {env : TypeEnv}
    (hpath : c.Mentions named env.file env.scope [.entity path]) :
    Typing.queryType c' ask trail path env = Typing.queryType c ask trail path env := by
  unfold Typing.queryType
  rw [h.mirrors.sameLinks.entity?]
  split
  · rfl
  next id hentity =>
    rw [findSome?_variableType? (h.mirrors.binding.symbol id),
      h.mirrors.qualifiedName (hpath.entity hentity)]
    cases (c.binding.symbol id).declarations.findSome? variableType? <;> rfl

theorem opensAlike : c.OpensAlike R safe named TypeRules.Orderless c' where
  sameLinks := h.mirrors.sameLinks
  options := h.mirrors.options
  congruence := h.congruence
  law_rules := orderless_rules c'
  law_noRules := orderless_noRules
  mentions := h.mentions
  safe_types := h.safe_types
  safe_heritage := h.safe_heritage
  ownParts horder hsafe hid := h.ownParts hsafe horder hid
  declaredType _ hid := h.declaredType hid
  queryType _ hpath := h.queryType hpath

end Checker.Alike

end PluginSurface
