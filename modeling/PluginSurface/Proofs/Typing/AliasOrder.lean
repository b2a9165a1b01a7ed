import PluginSurface.Proofs.Typing.AlteredTypes
import PluginSurface.Proofs.Typing.MemberOrder

/-!
# The order of members behind an alias

Where the members of a type in braces that an alias stands for are put in another order, what the
alias stands for has its members in the other order, wherever the alias is used. Types are told
apart by the full name of the alias and by what it stands for, so two aliases of one name can be one
type before and two types after: everything else stays the same as long as no other alias is
mistaken for this one.

Main statement: `Reordering.Permutes.alters`.
-/

namespace PluginSurface

/-! ## Objects with the members in another order -/

/-- The property as which a member is collected where no other has its name. -/
def Member.property? : Member → Option Property
  | .property name optional readonly type => some ⟨name, optional, readonly, false, type⟩
  | .method name optional f => some ⟨name, optional, false, true, .function f⟩
  | .getter name type => some ⟨name, false, true, false, type⟩
  | .setter name type => some ⟨name, false, false, false, type⟩
  | .call _ | .construct _ | .index _ => none

def TypeMember.isCall : TypeMember → Bool
  | .call _ => true
  | _ => false

def TypeMember.isConstruct : TypeMember → Bool
  | .construct _ => true
  | _ => false

def TypeMember.isIndex : TypeMember → Bool
  | .index _ => true
  | _ => false

theorem Member.name_property? (m : Member) : m.property?.map Property.name = m.key? := by
  cases m <;> rfl

namespace Members

theorem addMember_of_new {ps : List Property} {m : Member}
    (h : ∀ key, m.key? = some key → has key ps = false) :
    addMember ps m = ps ++ m.property?.toList := by
  cases m with
  | property name | method name | getter name | setter name =>
      simp only [addMember, addNew, change, h name rfl, Bool.false_eq_true, if_false]
      rfl
  | call | construct | index => exact (List.append_nil ps).symm

/-- Members with distinct names are collected one by one. -/
theorem foldl_addMember_of_nodup {ms : List Member} (hms : (ms.filterMap Member.key?).Nodup)
    {ps : List Property} (hps : ∀ key ∈ ms.filterMap Member.key?, has key ps = false) :
    ms.foldl addMember ps = ps ++ ms.filterMap Member.property? := by
  induction ms generalizing ps with
  | nil => exact (List.append_nil ps).symm
  | cons m rest ih =>
      have hm : addMember ps m = ps ++ m.property?.toList := addMember_of_new fun key hkey ↦
        hps key (List.mem_filterMap.mpr ⟨m, List.mem_cons_self, hkey⟩)
      have hrest : (rest.filterMap Member.key?).Nodup :=
        hms.sublist ((List.sublist_cons_self m rest).filterMap _)
      rw [List.foldl_cons, hm, ih hrest, List.append_assoc]
      · cases h : m.property? <;> simp [h]
      · intro key hkey
        have hold : has key ps = false :=
          hps key ((List.sublist_cons_self m rest).filterMap _ |>.subset hkey)
        rw [has_append, hold, Bool.false_or]
        have hname := m.name_property?
        cases h : m.property? with
        | none => rfl
        | some p =>
            rw [h, Option.map_some] at hname
            rw [List.filterMap_cons_some hname.symm] at hms
            have hne : p.name ≠ key := fun heq ↦ (List.nodup_cons.mp hms).1 (heq ▸ hkey)
            simpa [has] using hne

theorem properties_toObject {ms : List Member} (h : (ms.filterMap Member.key?).Nodup) :
    (toObject ms).properties = ms.filterMap Member.property? :=
  foldl_addMember_of_nodup h fun _ _ ↦ rfl

end Members

namespace Typing

/-- Each member is resolved to one of its kind. -/
theorem isSome_memberRule (c : Checker) (ask : TypeRules) (trail : TypeTrail) (env : TypeEnv)
    (m : TypeMember) :
    (Members.call? (memberRule c ask trail env m)).isSome = m.isCall ∧
      (Members.construct? (memberRule c ask trail env m)).isSome = m.isConstruct ∧
      (Members.index? (memberRule c ask trail env m)).isSome = m.isIndex := by
  cases m with
  | index i =>
      cases i
      rw [memberRule]
      exact ⟨rfl, rfl, rfl⟩
  | _ =>
      rw [memberRule]
      exact ⟨rfl, rfl, rfl⟩

/-- In whatever place permuted members with distinct names are resolved, the object has its members
in the same other order. -/
theorem exists_memberOrder {ms ms' : List TypeMember} (h : ms.Perm ms')
    (hkeys : (ms.filterMap TypeMember.key?).Nodup) :
    ∃ order : MemberOrder, ∀ c ask trail env,
      Members.toObject (memberRules c ask trail env ms') =
        (Members.toObject (memberRules c ask trail env ms)).arrange order := by
  obtain ⟨properties, hproperties⟩ :=
    Arrangement.exists_of_perm (fun m ↦ m.key?.isSome) h
  obtain ⟨calls, hcalls⟩ :=
    Arrangement.exists_of_perm TypeMember.isCall h
  obtain ⟨constructs, hconstructs⟩ :=
    Arrangement.exists_of_perm TypeMember.isConstruct h
  obtain ⟨indexes, hindexes⟩ :=
    Arrangement.exists_of_perm TypeMember.isIndex h
  refine ⟨⟨properties, calls, constructs, indexes⟩, fun c ask trail env ↦ ?_⟩
  let f := memberRule c ask trail env
  have hnodup {ms : List TypeMember} (h : (ms.filterMap TypeMember.key?).Nodup) :
      ((ms.map f).filterMap Member.key?).Nodup := by
    rw [List.filterMap_map]
    exact (List.filterMap_congr fun m _ ↦ key?_memberRule c ask trail env m) ▸ h
  have hkeys' := (h.filterMap TypeMember.key?).nodup_iff.mp hkeys
  have hproperty (m : TypeMember) : (f m).property?.isSome = m.key?.isSome := by
    rw [← key?_memberRule c ask trail env m, ← Member.name_property?, Option.isSome_map]
  have hkind (m : TypeMember) := isSome_memberRule c ask trail env m
  rw [memberRules_eq_map, memberRules_eq_map]
  have hobject {ms : List TypeMember} (h : (ms.filterMap TypeMember.key?).Nodup) :
      Members.toObject (ms.map f) = ⟨ms.filterMap fun m ↦ (f m).property?,
        ms.filterMap fun m ↦ Members.call? (f m), ms.filterMap fun m ↦ Members.construct? (f m),
        ms.filterMap fun m ↦ Members.index? (f m)⟩ := by
    have hps := Members.properties_toObject (hnodup h)
    rw [List.filterMap_map] at hps
    simp only [Members.toObject, List.filterMap_map] at hps ⊢
    rw [hps]
    rfl
  rw [hobject hkeys, hobject hkeys', hproperties _ hproperty, hcalls _ fun m ↦ (hkind m).1,
    hconstructs _ fun m ↦ (hkind m).2.1, hindexes _ fun m ↦ (hkind m).2.2]
  rfl

end Typing

open Typing

/-! ## What an alias stands for -/

/-- With the arguments the symbol stands for an alias, at some level on some trail, and the type
behind it resolves to the object. -/
def Checker.StandsFor (c : Checker) (id : Nat) (args : List Ty) (o : ObjectTy) : Prop :=
  ∃ n trail d a, (c.binding.symbol id).declarations.findSome? aliasDecl? = some (d, a) ∧
    aliasBody (c.level n) trail id d a args = .object o ∧
    declaredType c (c.level n) trail id args =
      .aliased (c.binding.qualifiedName id) args (.object o)

namespace Typing

/-- What a type in braces behind an alias resolves to, at a level that is not the last one. -/
theorem aliasBody_members (c : Checker) (ask : TypeRules) (trail : TypeTrail) (id : Nat)
    (d : Declaration) {a : AliasDecl} {ms : List TypeMember} (htype : a.type = .members ms)
    (args : List Ty) :
    aliasBody (rules c ask) trail id d a args = .object (Members.toObject
      (memberRules c ask ⟨id :: trail.types, trail.heritage⟩
        (instantiate ((rules c ask).typeAt ⟨id :: trail.types, trail.heritage⟩)
          (declarationEnv d) a.typeParams args) ms)) := by
  have htarget (trail : TypeTrail) (env : TypeEnv) : (rules c ask).typeAt trail env a.type =
      .object (Members.toObject (memberRules c ask trail env ms)) := by
    simp only [htype, rules, typeRule]
  exact htarget _ _

section

variable {c c' : Checker} {trail : TypeTrail} {id n : Nat} {d d' : Declaration} {a a' : AliasDecl}
  {args : List Ty} {χ : Alteration} {R : List Property → List Property → Prop}

theorem aliasType_eq_of_body {o : ObjectTy} (hid : id ∉ trail.types) (ask : TypeRules)
    (ho : aliasBody ask trail id d a args = .object o) : aliasType c ask trail id d a args =
      .aliased (c.binding.qualifiedName id) args (.object o) := by
  rw [aliasType_of_not_mem hid, ho]
  rfl

/-- An alias for a type in braces that gets its members in the order of the alteration stands for
the altered object. -/
theorem aliasType_arrange {ask ask' : TypeRules} (hask : c.AlteredAt χ R c' ask ask')
    (hname : c'.binding.qualifiedName (χ.number id) = c.binding.qualifiedName id)
    (henv : declarationEnv d' = declarationEnv d) (hparams : a'.typeParams = a.typeParams)
    {ms ms' : List TypeMember} (htype : a.type = .members ms) (htype' : a'.type = .members ms')
    (horder : ∀ c ask trail env, Members.toObject (memberRules c ask trail env ms') =
      (Members.toObject (memberRules c ask trail env ms)).arrange χ.order)
    (hfits : ∀ o, id ∉ trail.types → aliasBody ask trail id d a args = .object o →
      χ.fits (c.binding.qualifiedName id) (o.outline args) = true) :
    aliasType c' ask' (trail.alter χ) (χ.number id) d' a' (args.map (Ty.alter χ)) =
      (aliasType c ask trail id d a args).alter χ := by
  refine aliasType_alter_of_body hname fun hid ↦ ?_
  obtain ⟨n, rfl, rfl⟩ := hask.level
  cases n with
  | zero => rfl
  | succ n =>
      have hanswers := hask.toAltered
      rw [Checker.level_succ, Checker.level_succ] at hanswers
      rw [Checker.level_succ] at hfits ⊢
      rw [Checker.level_succ]
      let inner : TypeTrail := ⟨id :: trail.types, trail.heritage⟩
      have hinside := instantiate_alter hanswers inner (declarationEnv d) a.typeParams args
      have hobject (env : TypeEnv) :
          Members.toObject (memberRules c' (c'.level n) (inner.alter χ) (env.alter χ) ms) =
            (Members.toObject (memberRules c (c.level n) inner env ms)).alter χ :=
        hanswers.objectAt inner env ms
      have hopened :
          (⟨χ.number id :: (trail.alter χ).types, (trail.alter χ).heritage⟩ : TypeTrail) =
        inner.alter χ := rfl
      have hold := aliasBody_members c (c.level n) trail id d htype args
      have hnew := aliasBody_members c' (c'.level n) (trail.alter χ) (χ.number id) d' htype'
        (args.map (Ty.alter χ))
      rw [hopened, henv, hparams, show declarationEnv d = (declarationEnv d).alter χ from rfl,
        hinside, horder, hobject] at hnew
      rw [hold, hnew, Ty.alter, Alteration.target, ← Ty.alterAll_eq_map, ObjectTy.outline_alter,
        if_pos (hfits _ hid hold)]

end

end Typing

namespace Reordering

variable {r : Reordering} {p : Program} {a : AliasDecl}

/-- The first alias that the symbol stands for is the one in the file. -/
def Opens (r : Reordering) (p : Program) (a : AliasDecl) (id : Nat) : Prop :=
  ∃ d, ((Binding.ofProgram p).symbol id).declarations.findSome? aliasDecl? = some (d, a) ∧
    d.file = r.file

/-- No other alias of the same full name ever stands, at arguments that read the same, for an object
whose members read the same in some order. Such an alias could not be told from this one by its name
and outline, which is all that an alteration goes by. -/
def IsUnmistaken (r : Reordering) (p : Program) (a : AliasDecl) : Prop :=
  ∀ id, r.Opens p a id → ∀ other ≠ id,
    (Binding.ofProgram p).qualifiedName other = (Binding.ofProgram p).qualifiedName id →
    ∀ args o args' o', (Checker.ofProgram p).StandsFor id args o →
      (Checker.ofProgram p).StandsFor other args' o' → o'.outline args' ≠ o.outline args

/-- Where each alias has a full name of its own, none is mistaken for another. -/
theorem isUnmistaken_of_names
    (h : ∀ id < (Binding.ofProgram p).symbols.size,
      ∀ other < (Binding.ofProgram p).symbols.size,
      (((Binding.ofProgram p).symbol id).declarations.findSome? aliasDecl?).isSome →
      (((Binding.ofProgram p).symbol other).declarations.findSome? aliasDecl?).isSome →
      (Binding.ofProgram p).qualifiedName other = (Binding.ofProgram p).qualifiedName id →
      other = id) : r.IsUnmistaken p a := by
  have hlt (id : Nat) (x : Declaration × AliasDecl)
      (hx : ((Binding.ofProgram p).symbol id).declarations.findSome? aliasDecl? = some x) :
      id < (Binding.ofProgram p).symbols.size := by
    obtain ⟨d, hd, -⟩ := List.exists_of_findSome?_eq_some hx
    exact Binding.lt_of_mem_declarations hd
  rintro id ⟨d, hd, -⟩ other hne hname args o args' o' - ⟨_, _, d', a', hd', -⟩
  exact absurd (h id (hlt id _ hd) other (hlt other _ hd') (hd ▸ rfl) (hd' ▸ rfl) hname) hne

open Classical in
/-- What the alias stands for gets its members in another order. -/
noncomputable def alteration (r : Reordering) (p : Program) (a : AliasDecl) (order : MemberOrder) :
    Alteration where
  number := Equiv.refl Nat
  fits name outline := decide (∃ id args o, r.Opens p a id ∧
    (Binding.ofProgram p).qualifiedName id = name ∧ (Checker.ofProgram p).StandsFor id args o ∧
    o.outline args = outline)
  order := order

theorem fits_alteration {order : MemberOrder} {name : String} {outline : Outline} :
    (r.alteration p a order).fits name outline = true ↔ ∃ id args o, r.Opens p a id ∧
      (Binding.ofProgram p).qualifiedName id = name ∧
      (Checker.ofProgram p).StandsFor id args o ∧ o.outline args = outline := by
  simp only [alteration, decide_eq_true_eq]

namespace Permutes

variable (h : r.Permutes p (.aliasDecl a))

include h

theorem exists_members : ∃ ms, a.type = .members ms ∧ ms.Perm r.members ∧
    (ms.filterMap TypeMember.key?).Nodup := by
  obtain ⟨ms, hms, hperm, hkeys⟩ := h.perm
  refine ⟨ms, ?_, hperm.symm, hkeys⟩
  change a.type.members? = some ms at hms
  cases htype : a.type <;> rw [htype] at hms <;> cases hms
  rfl

/-- The names in an object that the alias stands for are distinct. -/
theorem distinct_of_standsFor {id : Nat} (hid : r.Opens p a id) {args : List Ty} {o : ObjectTy}
    (ho : (Checker.ofProgram p).StandsFor id args o) : Members.Distinct o.properties := by
  obtain ⟨ms, htype, -, -⟩ := h.exists_members
  obtain ⟨d, hfirst, -⟩ := hid
  obtain ⟨n, trail, d', a', hfirst', hbody, -⟩ := ho
  cases hfirst.symm.trans hfirst'
  cases n with
  | zero => cases hbody
  | succ n =>
      rw [Checker.level_succ, aliasBody_members _ _ _ _ _ htype] at hbody
      cases hbody
      exact Members.distinct_toObject _

/-- An object that fits has distinct names, so its properties are the same under each name. -/
theorem sameByName_of_fits {order : MemberOrder} {name : String} {args : List Ty} {o : ObjectTy}
    (hfits : (r.alteration p a order).fits name (o.outline args) = true) :
    Members.SameByName o.properties (o.arrange order).properties := by
  obtain ⟨id, args', o', hid, -, hstands, houtline⟩ := fits_alteration.mp hfits
  have hnames : (o'.properties.map Property.name).Perm (o.properties.map Property.name) := by
    have hmap := congrArg (fun x ↦ x.properties.map Prod.fst) houtline
    simpa [ObjectTy.outline, Function.comp_def] using hmap
  have hdistinct : Members.Distinct o.properties :=
    hnames.nodup_iff.mp (h.distinct_of_standsFor hid hstands)
  exact .of_perm (order.properties.apply_perm o.properties).symm hdistinct

/-- The first alias of a symbol is the one in the file, or stays as it is. -/
theorem opens_or_aliases_eq {id : Nat} {d : Declaration} {decl : AliasDecl}
    (hfirst : ((Binding.ofProgram p).symbol id).declarations.findSome? aliasDecl? =
      some (d, decl)) :
    decl = a ∧ r.Opens p a id ∨ (r.edits d.file).aliases decl = decl ∧ ¬r.Opens p a id := by
  obtain ⟨d', hd, hfound⟩ := List.exists_of_findSome?_eq_some hfirst
  obtain ⟨decl', hkind, heq⟩ := aliasDecl?_eq_some hfound
  obtain ⟨rfl, rfl⟩ := Prod.mk.inj heq
  by_cases heq : d.file = r.file ∧ decl.name = r.name
  · have hk := h.eq_of_mem hd heq.1 (by rw [hkind]; exact congrArg some heq.2)
    rw [hkind] at hk
    obtain rfl := DeclarationKind.aliasDecl.inj hk
    exact .inl ⟨rfl, d, hfirst, heq.1⟩
  · refine .inr ⟨edits_onAlias_of_ne heq, fun ⟨d', hfirst', hfile⟩ ↦ ?_⟩
    obtain ⟨rfl, rfl⟩ := Prod.mk.inj (Option.some.inj (hfirst.symm.trans hfirst'))
    exact heq ⟨hfile, Option.some.inj h.name⟩

/-- What a symbol that declares an alias stands for is the altered one. -/
theorem aliasDecl?_alter (hun : r.IsUnmistaken p a) {order : MemberOrder}
    (horder : ∀ ms, a.type = .members ms → ∀ c ask trail env,
      Members.toObject (memberRules c ask trail env r.members) =
        (Members.toObject (memberRules c ask trail env ms)).arrange order)
    {ask ask' : TypeRules}
    (hask : (Checker.ofProgram p).AlteredAt (r.alteration p a order) Members.SameByName
      (Checker.ofProgram (p.reorder r)) ask ask')
    {trail : TypeTrail} {id : Nat} {args : List Ty} {d : Declaration} {decl : AliasDecl}
    (hfirst : ((Binding.ofProgram p).symbol id).declarations.findSome? aliasDecl? = some (d, decl))
    (hstands : declaredType (Checker.ofProgram p) ask trail id args =
      aliasType (Checker.ofProgram p) ask trail id d decl args) :
    aliasType (Checker.ofProgram (p.reorder r)) ask' (trail.alter (r.alteration p a order)) id
        (d.edit r.edits) ((r.edits d.file).aliases decl)
        (args.map (Ty.alter (r.alteration p a order))) =
      (aliasType (Checker.ofProgram p) ask trail id d decl args).alter
        (r.alteration p a order) := by
  have hname : (Checker.ofProgram (p.reorder r)).binding.qualifiedName id =
      (Checker.ofProgram p).binding.qualifiedName id :=
    (Checker.mirrors_ofProgram (p.mirrors_edit r.edits)).qualifiedName (.inl trivial)
  have hstandsFor (o : ObjectTy) (hid : id ∉ trail.types)
      (ho : aliasBody ask trail id d decl args = .object o) :
      (Checker.ofProgram p).StandsFor id args o := by
    obtain ⟨n, rfl, -⟩ := hask.level
    exact ⟨n, trail, d, decl, hfirst, ho, hstands.trans (aliasType_eq_of_body hid _ ho)⟩
  rcases h.opens_or_aliases_eq hfirst with ⟨rfl, hopens⟩ | ⟨hsame, hopens⟩
  · obtain ⟨ms, htype, -, -⟩ := h.exists_members
    have ⟨d', hfirst', hfile⟩ := hopens
    cases hfirst.symm.trans hfirst'
    rw [hfile, edits_onAlias (Option.some.inj h.name) (by rw [htype]; rfl)]
    exact aliasType_arrange hask hname (declarationEnv_edit r.edits d) (by rfl) htype (by rfl)
      (horder ms htype) fun o hid ho ↦
        fits_alteration.mpr ⟨id, args, o, hopens, rfl, hstandsFor o hid ho, rfl⟩
  · rw [hsame]
    refine Typing.aliasType_alter hask.toAltered hname (declarationEnv_edit r.edits d) rfl rfl
      fun o hid ho ↦ Bool.eq_false_iff.mpr fun hfits ↦ ?_
    obtain ⟨id', args', o', hopens', hname', hstands', houtline⟩ := fits_alteration.mp hfits
    exact hun id' hopens' id (fun heq ↦ hopens (heq ▸ hopens')) hname'.symm args' o' args o
      hstands' (hstandsFor o hid ho) houtline.symm

/-- Classes and interfaces stay as they are, but for bodies of class members. -/
theorem addDeclaration_edit {id : Nat} {d : Declaration}
    (hd : d ∈ ((Binding.ofProgram p).symbol id).declarations) (ask : TypeRules)
    (trail : TypeTrail) (args : List Ty) (found : List Property × List Ty) :
    addDeclaration ask trail args found (d.edit r.edits) =
      addDeclaration ask trail args found d := by
  have hinterface (i : InterfaceDecl) (hkind : d.kind = .interfaceDecl i) :
      (r.edits d.file).interfaces i = i := by
    refine edits_onInterface_of_ne fun heq ↦ ?_
    have hk := h.eq_of_mem hd heq.1 (by rw [hkind]; exact congrArg some heq.2)
    rw [hkind] at hk
    cases hk
  obtain ⟨file, scope, kind⟩ := d
  cases kind with
  | classDecl decl =>
      obtain ⟨name, typeParams, base, interfaces, members⟩ := decl
      simp only [addDeclaration, Declaration.edit, DeclarationKind.edit, ClassDecl.edit,
        declarationEnv, instanceMembers_edit]
  | interfaceDecl decl =>
      simp only [addDeclaration, Declaration.edit, DeclarationKind.edit, declarationEnv,
        hinterface decl rfl]
  | _ => rfl

/-- What is behind each name is the same, but for the order of the members behind the alias. -/
theorem alters (hun : r.IsUnmistaken p a) : ∃ order, (Checker.ofProgram p).Alters
    (r.alteration p a order) Members.SameByName (Checker.ofProgram (p.reorder r)) := by
  obtain ⟨ms, htype, hperm, hkeys⟩ := h.exists_members
  obtain ⟨order, horder⟩ := exists_memberOrder hperm hkeys
  have horder (ms' : List TypeMember) (htype' : a.type = .members ms') :=
    TypeExpr.members.inj (htype.symm.trans htype') ▸ horder
  have hmirrors :
      (Checker.ofProgram p).Mirrors r.edits (named p) (Checker.ofProgram (p.reorder r)) :=
    Checker.mirrors_ofProgram (p.mirrors_edit r.edits)
  have hsymbol := hmirrors.binding.symbol
  refine ⟨order, {
    congruence := Members.congruence_sameByName
    arranged := fun _ _ _ ↦ h.sameByName_of_fits
    options := rfl
    trailLimit := hmirrors.sameLinks.trailLimit
    entity? := fun path scope ↦ (hmirrors.sameLinks.entity? path scope).trans Option.map_id'.symm
    importedSymbol? := fun env specifier path ↦
      (importedSymbol?_sameLinks hmirrors.sameLinks env specifier path).trans Option.map_id'.symm
    qualifiedName := fun id ↦ hmirrors.qualifiedName (.inl trivial)
    name := fun id ↦ hmirrors.binding.name id (.inl trivial)
    outer := fun id ↦ congrArg List.isEmpty (hsymbol id).outer
    declaresInstances := fun id ↦ any_declaresInstances (hsymbol id)
    addDeclaration := fun ask trail args id ↦ ?_
    variableType? := fun id ↦ ?_
    aliasDecl? := fun {ask ask'} hask trail id args hstands ↦ ?_ }⟩
  · change ((Checker.ofProgram (p.reorder r)).binding.symbol id).declarations.foldl _ _ = _
    rw [(hsymbol id).declarations, List.foldl_map]
    exact List.foldl_ext _ _ _ fun found d hd ↦ h.addDeclaration_edit hd ask trail args found
  · change
      (((Checker.ofProgram (p.reorder r)).binding.symbol id).declarations.findSome? _).map _ = _
    rw [findSome?_variableType? (hsymbol id), Option.map_map]
    rfl
  · change
      (((Checker.ofProgram (p.reorder r)).binding.symbol id).declarations.findSome? _).map _ = _
    rw [findSome?_aliasDecl? (hsymbol id), Option.map_map]
    refine Option.map_congr fun x hx ↦ ?_
    exact h.aliasDecl?_alter hun horder hask hx (hstands x hx)

end Permutes

end Reordering

end PluginSurface
