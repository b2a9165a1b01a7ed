import PluginSurface.Proofs.Typing.Members

/-!
# Resolved types keep what the rules keep

Each rule for types, signatures, members and properties keeps an invariant, if the questions that it
asks are answered with it. What is asked about mentions only symbols that are named. By induction on
the levels that may be opened, the checker keeps the invariant.
-/

namespace PluginSurface.Typing

variable {c : Checker} {named : Nat → Prop} {P : Ty → Prop}

theorem propertiesRules_eq_map (c : Checker) (ask : TypeRules) (trail : TypeTrail) (ts : List Ty) :
    propertiesRules c ask trail ts = ts.map (propertiesRule c ask trail) := by
  induction ts with
  | nil => simp [propertiesRules]
  | cons t rest ih => simp [propertiesRules, ih]

theorem everywhere_undeclared (hP : InvariantFor c named P) (name : String) {args : List Ty}
    (hargs : ∀ t ∈ args, t.Everywhere P) : (undeclared name args).Everywhere P := by
  unfold undeclared
  split
  next element =>
    have helement := hargs element List.mem_cons_self
    split
    · exact .array (hP.plain _ rfl rfl) helement
    split
    · exact .array (hP.plain _ rfl rfl) helement
    · exact .named (hP.plain _ rfl rfl) hargs
  next => exact .named (hP.plain _ rfl rfl) hargs

theorem everywhere_operate (hP : InvariantFor c named P) (op : TypeOperator) {t : Ty}
    (h : t.Everywhere P) : (operate op t).Everywhere P := by
  unfold operate
  split
  · cases h with
    | array _ element => exact .array (hP.plain _ rfl rfl) element
  · cases h with
    | tuple _ elements => exact .tuple (hP.plain _ rfl rfl) elements
  · exact h
  · exact hP.everywhere_verbatim _
  · exact hP.everywhere_verbatim _

variable {ask : TypeRules} {trail : TypeTrail} {env : TypeEnv}

/-! ## Properties -/

section

variable (hP : InvariantFor c named P) (hask : ask.Keep c named P)

include hP hask

theorem everywhere_annotated (henv : env.Everywhere P) (type : Option TypeExpr)
    (htype : c.Mentions named env.file env.scope (mentionsOfType? type)) :
    (annotated ask trail env type).Everywhere P := by
  cases type with
  | none => exact hP.everywhere_primitive _
  | some type => exact hask.typeAt trail env type henv htype

theorem everywhere_classMembers (henv : env.Everywhere P) (m : ClassMember)
    (hm : c.Mentions named env.file env.scope m.mentions) :
    ∀ member ∈ classMembers ask trail env m, member.Everywhere P := by
  have hvisible (name : PropertyName) {member shown : Member}
      (hshown : shown ∈ if isHidden name then [] else [member]) (h : member.Everywhere P) :
      shown.Everywhere P := by
    split at hshown
    · simp at hshown
    · exact List.mem_singleton.mp hshown ▸ h
  intro member hmember
  obtain ⟨modifiers, kind, span⟩ := m
  cases kind with
  | constructor params body =>
      obtain ⟨p, hp, rfl⟩ := List.mem_map.mp hmember
      exact everywhere_annotated hP hask henv p.type
        (hm.mono (mem_mentionsOfParams (List.mem_filter.mp hp).1))
  | property name optional type | getter name type body =>
      exact hvisible name hmember (everywhere_annotated hP hask henv type hm)
  | method name optional signature body =>
      exact hvisible name hmember (hask.signatureAt trail env signature henv hm)
  | setter name param body =>
      exact hvisible name hmember
        (everywhere_annotated hP hask henv _ (mentionsOfParams_toList param ▸ hm))
  | index | staticBlock => cases hmember

theorem everywhere_addDeclaration {args : List Ty} (hargs : ∀ t ∈ args, t.Everywhere P)
    {ps : List Property} {bases : List Ty} (hps : Members.Everywhere P ps)
    (hbases : ∀ t ∈ bases, t.Everywhere P) (d : Declaration)
    (hd : c.Mentions named d.file d.scope d.kind.mentions) :
    Members.Everywhere P (addDeclaration ask trail args (ps, bases) d).1 ∧
      ∀ t ∈ (addDeclaration ask trail args (ps, bases) d).2, t.Everywhere P := by
  have hinside (params : List TypeParam)
      (hparams : c.Mentions named d.file d.scope (mentionsOfDefaults params)) :
      (instantiate (ask.typeAt trail) (declarationEnv d) params args).Everywhere P :=
    everywhere_instantiate hP (hask.typeAt trail) (everywhere_declarationEnv d) params hparams hargs
  have hmore (params : List TypeParam) (types : List TypeExpr)
      (hparams : c.Mentions named d.file d.scope (mentionsOfDefaults params))
      (htypes : c.Mentions named d.file d.scope (mentionsOfTypes types)) :
      ∀ t ∈ bases ++ types.map (ask.typeAt trail
        (instantiate (ask.typeAt trail) (declarationEnv d) params args)), t.Everywhere P := by
    intro t ht
    rcases List.mem_append.mp ht with ht | ht
    · exact hbases t ht
    · obtain ⟨type, htype, rfl⟩ := List.mem_map.mp ht
      refine hask.typeAt _ _ type (hinside params hparams) ?_
      simpa [declarationEnv] using htypes.mono (mem_mentionsOfTypes htype)
  cases hkind : d.kind with
  | classDecl decl =>
      rw [hkind] at hd
      dsimp only [DeclarationKind.mentions] at hd
      have hparams := hd.left.left
      have hbase : c.Mentions named d.file d.scope (mentionsOfTypes decl.base.toList) := by
        rw [mentionsOfTypes_toList]
        exact hd.left.right
      simp only [addDeclaration, hkind]
      refine ⟨hps.foldl_addMember hP fun member hmember ↦ ?_, hmore _ _ hparams hbase⟩
      obtain ⟨m, hm, hmember⟩ := List.mem_flatMap.mp hmember
      refine everywhere_classMembers hP hask (hinside _ hparams) m ?_ member hmember
      simpa [declarationEnv] using hd.right.mono fun x hx ↦
        List.mem_flatMap.mpr ⟨m, (List.mem_filter.mp hm).1, hx⟩
  | interfaceDecl decl =>
      rw [hkind] at hd
      dsimp only [DeclarationKind.mentions] at hd
      have hparams := hd.left.left
      simp only [addDeclaration, hkind]
      have hobject := hask.objectAt trail _ decl.members (hinside decl.typeParams hparams)
        (by simpa [declarationEnv] using hd.right)
      cases hobject with
      | object _ properties _ _ _ _ =>
          exact ⟨hps.foldl_addNew properties, hmore _ _ hparams hd.left.right⟩
  | _ => simpa only [addDeclaration, hkind] using ⟨hps, hbases⟩

theorem everywhere_foldl_addDeclaration (inner : TypeTrail) {args : List Ty}
    (hargs : ∀ t ∈ args, t.Everywhere P) {ds : List Declaration}
    (hds : ∀ d ∈ ds, c.Mentions named d.file d.scope d.kind.mentions)
    {ps : List Property} {bases : List Ty} (hps : Members.Everywhere P ps)
    (hbases : ∀ t ∈ bases, t.Everywhere P) :
    Members.Everywhere P (ds.foldl (addDeclaration ask inner args) (ps, bases)).1 ∧
      ∀ t ∈ (ds.foldl (addDeclaration ask inner args) (ps, bases)).2, t.Everywhere P := by
  induction ds generalizing ps bases with
  | nil => exact ⟨hps, hbases⟩
  | cons d rest ih =>
      obtain ⟨hd, hrest⟩ := List.forall_mem_cons.mp hds
      have hfound : Members.Everywhere P (addDeclaration ask inner args (ps, bases) d).1 ∧
          ∀ t ∈ (addDeclaration ask inner args (ps, bases) d).2, t.Everywhere P :=
        everywhere_addDeclaration hP hask hargs hps hbases d hd
      exact ih hrest hfound.1 hfound.2

theorem everywhere_declaredProperties {id : Nat} (hid : named id) {args : List Ty}
    (hargs : ∀ t ∈ args, t.Everywhere P) :
    Members.Everywhere P (declaredProperties c ask trail id args) := by
  unfold declaredProperties
  split
  · simp [Members.Everywhere]
  · obtain ⟨hown, hbases⟩ := everywhere_foldl_addDeclaration hP hask
      ⟨trail.types, id :: trail.heritage⟩ hargs (hP.mentions id hid)
      (fun p hp ↦ absurd hp List.not_mem_nil) (fun t ht ↦ absurd ht List.not_mem_nil)
    refine hown.foldl_addNew fun p hp ↦ ?_
    obtain ⟨base, hbase, hp⟩ := List.mem_flatMap.mp hp
    exact hask.propertiesOf _ base (hbases base hbase) p hp

theorem everywhere_propertiesRule {t : Ty} (h : t.Everywhere P) :
    Members.Everywhere P (propertiesRule c ask trail t) := by
  induction h with
  | object _ properties _ _ _ _ _ _ _ _ => rwa [propertiesRule]
  | aliased _ _ _ _ ih => rwa [propertiesRule]
  | reference here arguments _ =>
      rw [propertiesRule]
      exact everywhere_declaredProperties hP hask ((hP.reference _ _ _).mp here) arguments
  | intersection _ _ ih =>
      rw [propertiesRule, meetProperties, propertiesRules_eq_map]
      refine Members.Everywhere.foldl_addMeet hP (by simp [Members.Everywhere]) fun p hp ↦ ?_
      obtain ⟨ps, hps, hp⟩ := List.mem_flatten.mp hp
      obtain ⟨member, hmember, rfl⟩ := List.mem_map.mp hps
      exact ih member hmember p hp
  | _ => simp [propertiesRule, Members.Everywhere]

/-! ## Names -/

theorem everywhere_aliasType {id : Nat} (hid : named id) {d : Declaration} {decl : AliasDecl}
    (hd : d ∈ (c.binding.symbol id).declarations) (hkind : d.kind = .aliasDecl decl)
    {args : List Ty} (hargs : ∀ t ∈ args, t.Everywhere P) :
    (aliasType c ask trail id d decl args).Everywhere P := by
  have hmentions := hP.mentions id hid d hd
  rw [hkind] at hmentions
  dsimp only [DeclarationKind.mentions] at hmentions
  simp only [aliasType]
  split
  · exact .named (hP.plain _ rfl rfl) hargs
  · have henv := everywhere_instantiate hP (hask.typeAt ⟨id :: trail.types, trail.heritage⟩)
      (everywhere_declarationEnv d) decl.typeParams hmentions.left hargs
    have htarget := hask.typeAt ⟨id :: trail.types, trail.heritage⟩ _ decl.type henv
      (by simpa [declarationEnv] using hmentions.right)
    split
    · exact .aliased (hP.plain _ rfl rfl) hargs htarget
    · exact htarget

theorem everywhere_declaredType {id : Nat} (hid : named id) {args : List Ty}
    (hargs : ∀ t ∈ args, t.Everywhere P) : (declaredType c ask trail id args).Everywhere P := by
  simp only [declaredType]
  split
  · exact everywhere_undeclared hP _ hargs
  split
  · exact .reference ((hP.reference _ _ _).mpr hid) hargs
  split
  next d decl hfound =>
    obtain ⟨d', hd, hx⟩ := List.exists_of_findSome?_eq_some hfound
    obtain ⟨decl', hkind, heq⟩ := aliasDecl?_eq_some hx
    obtain ⟨rfl, rfl⟩ := Prod.mk.inj heq
    exact everywhere_aliasType hP hask hid hd hkind hargs
  · exact .named (hP.plain _ rfl rfl) hargs

theorem everywhere_queryType (path : List String) (env : TypeEnv)
    (hpath : c.Mentions named env.file env.scope [.entity path]) :
    (queryType c ask trail path env).Everywhere P := by
  unfold queryType
  split
  · exact hP.everywhere_verbatim _
  next id hentity =>
    split
    next d type hfound =>
      split
      · exact hP.everywhere_verbatim _
      · obtain ⟨d', hd, hx⟩ := List.exists_of_findSome?_eq_some hfound
        obtain ⟨type', hkind, heq⟩ := variableType?_eq_some hx
        obtain ⟨rfl, rfl⟩ := Prod.mk.inj heq
        have hmentions := hP.mentions id (hpath.entity hentity) d hd
        rw [hkind] at hmentions
        exact hask.typeAt _ _ type (everywhere_declarationEnv d) hmentions
    · exact hP.everywhere_verbatim _

theorem everywhere_namedType (path : List String) {args : List Ty} (env : TypeEnv)
    (hpath : ∀ id, c.entity? path env.scope = some id → named id)
    (hargs : ∀ t ∈ args, t.Everywhere P) :
    (namedType c ask trail path args env).Everywhere P := by
  unfold namedType
  split
  next id hentity => exact everywhere_declaredType hP hask (hpath id hentity) hargs
  · exact everywhere_undeclared hP _ hargs

theorem everywhere_indexedType {object index : Ty} (hobject : object.Everywhere P) :
    (indexedType c ask trail object index).Everywhere P := by
  simp only [indexedType]
  split
  · split
    next p hp =>
      exact everywhere_propertiesRule hP hask hobject p (List.mem_of_find?_eq_some hp)
    next => exact hP.everywhere_verbatim _
  · exact hP.everywhere_verbatim _

end

/-! ## Types -/

mutual

theorem everywhere_typeRule (hP : InvariantFor c named P) (hask : ask.Keep c named P)
    {env : TypeEnv} (henv : env.Everywhere P) :
    ∀ type, c.Mentions named env.file env.scope type.mentions →
      (typeRule c ask trail env type).Everywhere P
  | .keyword word, _ => by
      rw [typeRule]
      cases word with
      | intrinsic => exact hP.everywhere_verbatim _
      | _ => exact hP.everywhere_primitive _
  | .this, _ => by
      rw [typeRule]
      exact hP.everywhere_verbatim _
  | .literal value, _ => by
      rw [typeRule]
      exact .literal (hP.plain _ rfl rfl)
  | .reference path args, htype => by
      rw [TypeExpr.mentions] at htype
      rw [typeRule]
      split
      next hbound => exact everywhere_boundType henv hbound
      next =>
        exact everywhere_namedType hP hask path env (fun _ ↦ htype.entity)
          (everywhere_typeRules hP hask henv args htype.tail)
  | .union members, htype => by
      rw [TypeExpr.mentions] at htype
      simp only [typeRule]
      exact hP.everywhere_union (everywhere_typeRules hP hask henv members htype)
  | .intersection members, htype => by
      rw [TypeExpr.mentions] at htype
      rw [typeRule]
      exact hP.everywhere_meet (everywhere_typeRules hP hask henv members htype)
  | .array element, htype => by
      rw [TypeExpr.mentions] at htype
      rw [typeRule]
      exact .array (hP.plain _ rfl rfl) (everywhere_typeRule hP hask henv element htype)
  | .tuple elements, htype => by
      rw [TypeExpr.mentions] at htype
      rw [typeRule]
      exact .tuple (hP.plain _ rfl rfl) (everywhere_itemRules hP hask henv elements htype)
  | .function isConstructor isAbstract signature, htype => by
      rw [TypeExpr.mentions] at htype
      rw [typeRule]
      cases everywhere_signatureRule hP hask henv signature htype with
      | function _ params result => exact .function (hP.plain _ rfl rfl) params result
  | .members members, htype => by
      rw [TypeExpr.mentions] at htype
      rw [typeRule]
      exact Members.everywhere_toObject hP (everywhere_memberRules hP hask henv members htype)
  | .query path _, htype => by
      rw [TypeExpr.mentions] at htype
      rw [typeRule]
      exact everywhere_queryType hP hask path env htype
  | .operator op operand, htype => by
      rw [TypeExpr.mentions] at htype
      rw [typeRule]
      exact everywhere_operate hP op (everywhere_typeRule hP hask henv operand htype)
  | .indexed object index, htype => by
      rw [TypeExpr.mentions] at htype
      rw [typeRule]
      exact everywhere_indexedType hP hask (everywhere_typeRule hP hask henv object htype.left)
  | .imported isTypeof specifier path args, htype => by
      rw [TypeExpr.mentions] at htype
      simp only [typeRule]
      split
      · exact hP.everywhere_verbatim _
      next hresolved =>
        rw [if_neg hresolved] at htype
        split
        next id hid =>
          exact everywhere_declaredType hP hask (htype.imported hid)
            (everywhere_typeRules hP hask henv args htype.tail)
        next => exact hP.everywhere_verbatim _
  | .conditional check bound yes no, _ => by
      rw [typeRule]
      exact hP.everywhere_verbatim _
  | .infer name bound, _ => by
      cases bound <;> rw [typeRule] <;> exact hP.everywhere_verbatim _
  | .mapped readonly key bound rename optional value, _ => by
      cases rename <;> rw [typeRule] <;> exact hP.everywhere_verbatim _
  | .template raw, _ => by
      rw [typeRule]
      exact hP.everywhere_verbatim _
  | .predicate asserts param type, _ => by
      cases type <;> rw [typeRule] <;> exact hP.everywhere_verbatim _

theorem everywhere_optionalTypeRule (hP : InvariantFor c named P) (hask : ask.Keep c named P)
    {env : TypeEnv} (henv : env.Everywhere P) :
    ∀ type, c.Mentions named env.file env.scope (mentionsOfType? type) →
      (typeRule? c ask trail env type).Everywhere P
  | none, _ => by
      rw [typeRule?]
      exact hP.everywhere_primitive _
  | some type, htype => by
      rw [mentionsOfType?] at htype
      rw [typeRule?]
      exact everywhere_typeRule hP hask henv type htype

theorem everywhere_typeRules (hP : InvariantFor c named P) (hask : ask.Keep c named P)
    {env : TypeEnv} (henv : env.Everywhere P) :
    ∀ types, c.Mentions named env.file env.scope (mentionsOfTypes types) →
      ∀ t ∈ typeRules c ask trail env types, t.Everywhere P
  | [], _, t, ht => by simp [typeRules] at ht
  | type :: rest, htypes, t, ht => by
      rw [mentionsOfTypes] at htypes
      rw [typeRules] at ht
      rcases List.mem_cons.mp ht with rfl | ht
      · exact everywhere_typeRule hP hask henv type htypes.left
      · exact everywhere_typeRules hP hask henv rest htypes.right t ht

theorem everywhere_itemRules (hP : InvariantFor c named P) (hask : ask.Keep c named P)
    {env : TypeEnv} (henv : env.Everywhere P) :
    ∀ elements, c.Mentions named env.file env.scope (mentionsOfElements elements) →
      ∀ i ∈ itemRules c ask trail env elements, i.type.Everywhere P
  | [], _, i, hi => by simp [itemRules] at hi
  | ⟨_, _, _, type⟩ :: rest, helements, i, hi => by
      rw [mentionsOfElements] at helements
      rw [itemRules] at hi
      rcases List.mem_cons.mp hi with rfl | hi
      · exact everywhere_typeRule hP hask henv type helements.left
      · exact everywhere_itemRules hP hask henv rest helements.right i hi

theorem everywhere_paramRules (hP : InvariantFor c named P) (hask : ask.Keep c named P)
    {env : TypeEnv} (henv : env.Everywhere P) :
    ∀ params, c.Mentions named env.file env.scope (mentionsOfParams params) →
      ∀ p ∈ paramRules c ask trail env params, p.type.Everywhere P
  | [], _, p, hp => by simp [paramRules] at hp
  | ⟨_, _, _, _, type⟩ :: rest, hparams, p, hp => by
      rw [mentionsOfParams] at hparams
      rw [paramRules] at hp
      rcases List.mem_cons.mp hp with rfl | hp
      · exact everywhere_optionalTypeRule hP hask henv type hparams.left
      · exact everywhere_paramRules hP hask henv rest hparams.right p hp

theorem everywhere_signatureRule (hP : InvariantFor c named P) (hask : ask.Keep c named P)
    {env : TypeEnv} (henv : env.Everywhere P) :
    ∀ signature : Signature, c.Mentions named env.file env.scope signature.mentions →
      (Ty.function (signatureRule c ask trail env signature)).Everywhere P
  | ⟨typeParams, params, result⟩, hsignature => by
      rw [Signature.mentions] at hsignature
      have hinner := hP.everywhere_bindNames henv (typeParams.map (·.name))
      rw [signatureRule]
      refine .function (hP.plain _ rfl rfl) (everywhere_paramRules hP hask hinner params ?_)
        (everywhere_optionalTypeRule hP hask hinner result ?_)
      · simpa using hsignature.left
      · simpa using hsignature.right

theorem everywhere_memberRules (hP : InvariantFor c named P) (hask : ask.Keep c named P)
    {env : TypeEnv} (henv : env.Everywhere P) :
    ∀ members, c.Mentions named env.file env.scope (mentionsOfMembers members) →
      ∀ m ∈ memberRules c ask trail env members, m.Everywhere P
  | [], _, m, hm => by simp [memberRules] at hm
  | member :: rest, hmembers, m, hm => by
      rw [mentionsOfMembers] at hmembers
      rw [memberRules] at hm
      rcases List.mem_cons.mp hm with rfl | hm
      · exact everywhere_memberRule hP hask henv member hmembers.left
      · exact everywhere_memberRules hP hask henv rest hmembers.right m hm

theorem everywhere_memberRule (hP : InvariantFor c named P) (hask : ask.Keep c named P)
    {env : TypeEnv} (henv : env.Everywhere P) :
    ∀ member : TypeMember, c.Mentions named env.file env.scope member.mentions →
      (memberRule c ask trail env member).Everywhere P
  | .property name optional readonly type, hmember => by
      rw [TypeMember.mentions] at hmember
      rw [memberRule]
      exact everywhere_optionalTypeRule hP hask henv type hmember
  | .method name optional signature, hmember => by
      rw [TypeMember.mentions] at hmember
      rw [memberRule]
      exact everywhere_signatureRule hP hask henv signature hmember
  | .call signature, hmember => by
      rw [TypeMember.mentions] at hmember
      rw [memberRule]
      exact everywhere_signatureRule hP hask henv signature hmember
  | .construct signature, hmember => by
      rw [TypeMember.mentions] at hmember
      rw [memberRule]
      cases everywhere_signatureRule hP hask henv signature hmember with
      | function _ params result => exact .function (hP.plain _ rfl rfl) params result
  | .index ⟨readonly, keyName, key, value⟩, hmember => by
      rw [TypeMember.mentions] at hmember
      rw [memberRule]
      exact ⟨everywhere_typeRule hP hask henv key hmember.left,
        everywhere_optionalTypeRule hP hask henv value hmember.right⟩
  | .getter name type, hmember => by
      rw [TypeMember.mentions] at hmember
      rw [memberRule]
      exact everywhere_optionalTypeRule hP hask henv type hmember
  | .setter name (some ⟨_, _, _, _, some type⟩), hmember => by
      rw [TypeMember.mentions, mentionsOfType?] at hmember
      rw [memberRule, paramTypeRule]
      exact everywhere_typeRule hP hask henv type hmember
  | .setter name (some ⟨_, _, _, _, none⟩), _ => by
      rw [memberRule, paramTypeRule]
      · exact hP.everywhere_primitive _
      · simp
  | .setter name none, _ => by
      rw [memberRule, paramTypeRule]
      · exact hP.everywhere_primitive _
      · simp

end

/-! ## The checker -/

theorem keep_rules (hP : InvariantFor c named P) (hask : ask.Keep c named P) :
    (rules c ask).Keep c named P where
  typeAt _ _ type henv := everywhere_typeRule hP hask henv type
  signatureAt _ _ signature henv := everywhere_signatureRule hP hask henv signature
  objectAt _ _ members henv hmembers :=
    Members.everywhere_toObject hP (everywhere_memberRules hP hask henv members hmembers)
  propertiesOf _ _ h := everywhere_propertiesRule hP hask h

theorem keep_noRules (hP : InvariantFor c named P) : noRules.Keep c named P where
  typeAt _ _ _ _ _ := hP.everywhere_primitive _
  signatureAt _ _ _ _ _ :=
    .function (hP.plain _ rfl rfl) (by simp [noRules]) (hP.everywhere_primitive _)
  objectAt _ _ _ _ _ := Members.everywhere_toObject hP fun _ hm ↦ absurd hm List.not_mem_nil
  propertiesOf _ _ _ := by simp [noRules, Members.Everywhere]

theorem keep_rulesWithin (hP : InvariantFor c named P) (n : Nat) :
    (rulesWithin c n).Keep c named P := by
  induction n with
  | zero => exact keep_rules hP (keep_noRules hP)
  | succ n ih => exact keep_rules hP ⟨ih.typeAt, ih.signatureAt, ih.objectAt, ih.propertiesOf⟩

end PluginSurface.Typing

namespace PluginSurface.Checker

open Typing

variable {c : Checker} {P : Ty → Prop}

theorem everywhere_typeAt (hP : Invariant c P) {env : TypeEnv} (henv : env.Everywhere P)
    (type : TypeExpr) : (c.typeAt env type).Everywhere P :=
  (keep_rulesWithin hP.invariantFor c.trailLimit).typeAt _ env type henv fun _ _ _ _ ↦ trivial

theorem everywhere_propertiesOf (hP : Invariant c P) {t : Ty} (h : t.Everywhere P) :
    Members.Everywhere P (c.propertiesOf t) :=
  (keep_rulesWithin hP.invariantFor c.trailLimit).propertiesOf _ t h

end PluginSurface.Checker
