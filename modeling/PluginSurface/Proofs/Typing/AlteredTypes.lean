import PluginSurface.Proofs.Ty.Alteration
import PluginSurface.Proofs.Typing.Opening

/-!
# Resolving to altered types

In a program in which what is behind each name is altered, so is each written type: each rule gives
the altered type, if the questions that it asks are answered so. The properties of a type may come
in another order, so lists of them are compared by a relation. Main statements:
`Checker.Alters.typeAt` and `Checker.Alters.propertiesOf`.
-/

namespace PluginSurface

variable {χ : Alteration} {R : List Property → List Property → Prop}

/-! ## Environments -/

def TypeEnv.alter (χ : Alteration) (env : TypeEnv) : TypeEnv :=
  { env with bindings := env.bindings.map fun e ↦ (e.1, e.2.alter χ) }

namespace TypeEnv

variable (env : TypeEnv)

@[simp] theorem file_alter : (env.alter χ).file = env.file := rfl

@[simp] theorem scope_alter : (env.alter χ).scope = env.scope := rfl

theorem bindNames_alter (names : List String) :
    (env.alter χ).bindNames names = (env.bindNames names).alter χ := by
  unfold bindNames
  induction names generalizing env with
  | nil => rfl
  | cons name rest ih => exact ih (env.bind name (.param name))

theorem bindTypeParams_alter (params : List TypeParam) :
    (env.alter χ).bindTypeParams params = (env.bindTypeParams params).alter χ :=
  env.bindNames_alter _

theorem bound?_alter (name : String) :
    (env.alter χ).bound? name = (env.bound? name).map (Ty.alter χ) := by
  obtain ⟨file, scope, bindings⟩ := env
  change (bindings.map fun e ↦ (e.1, e.2.alter χ)).lookup name =
    (bindings.lookup name).map (Ty.alter χ)
  induction bindings with
  | nil => rfl
  | cons e rest ih =>
      rw [List.map_cons, List.lookup_cons, List.lookup_cons]
      split
      · rfl
      · exact ih

theorem placeholder_alter (inner : List Char) :
    (env.alter χ).placeholder inner = env.placeholder inner := by
  unfold placeholder
  rw [bound?_alter]
  cases env.bound? (String.ofList (Text.trimBlank inner)) with
  | none => rfl
  | some t => simp only [Option.map_some, Ty.render_alter]

theorem templateText_alter (inner : Option (List Char)) (text : List Char) :
    (env.alter χ).templateText inner text = env.templateText inner text := by
  fun_induction env.templateText inner text with
  | case1 | case4 => rw [templateText]
  | case2 rest ih => rw [templateText, ih]
  | case3 c rest hplain ih =>
      rw [templateText, ih]
      exact hplain
  | case5 inner rest ih => rw [templateText, if_pos rfl, placeholder_alter, ih]
  | case6 inner c rest hc ih => rw [templateText, if_neg hc, ih]

theorem template_alter (raw : String) : (env.alter χ).template raw = env.template raw := by
  rw [template, template, templateText_alter]

end TypeEnv

def TypeTrail.alter (χ : Alteration) (trail : TypeTrail) : TypeTrail :=
  ⟨trail.types.map χ.number, trail.heritage.map χ.number⟩

/-- The second rules answer as the first ones with the types altered, with the properties up to the
relation. -/
structure TypeRules.Altered (χ : Alteration) (R : List Property → List Property → Prop)
    (ask ask' : TypeRules) : Prop where
  typeAt : ∀ trail env type,
    ask'.typeAt (trail.alter χ) (env.alter χ) type = (ask.typeAt trail env type).alter χ
  signatureAt :
    ∀ trail env signature, ask'.signatureAt (trail.alter χ) (env.alter χ) signature =
    (ask.signatureAt trail env signature).alter χ
  objectAt : ∀ trail env members, ask'.objectAt (trail.alter χ) (env.alter χ) members =
    (ask.objectAt trail env members).alter χ
  propertiesOf : ∀ trail t, R ((ask.propertiesOf trail t).map (Property.alter χ))
    (ask'.propertiesOf (trail.alter χ) (t.alter χ))

/-- Answers questions that lead less than that many openings deep. -/
def Checker.level (c : Checker) : Nat → TypeRules
  | 0 => Typing.noRules
  | n + 1 => Typing.rulesWithin c n

namespace Checker

theorem level_succ (c : Checker) (n : Nat) : c.level (n + 1) = Typing.rules c (c.level n) := by
  cases n <;> rfl

theorem typing_eq_level (c : Checker) : c.typing = c.level (c.trailLimit + 1) := rfl

/-- The rules of two checkers at one level, where the second answer with the types altered. -/
structure AlteredAt (χ : Alteration) (R : List Property → List Property → Prop)
    (c c' : Checker) (ask ask' : TypeRules) : Prop extends ask.Altered χ R ask' where
  level : ∃ n, ask = c.level n ∧ ask' = c'.level n

open Typing

/-- What is behind each name is altered: what an alias stands for at each level, if the questions
behind it are answered so, and the types that a variable or a class or interface is declared with as
they are. -/
structure Alters (χ : Alteration) (R : List Property → List Property → Prop) (c c' : Checker) :
    Prop where
  congruence : Members.Congruence R
  arranged : ∀ name args (o : ObjectTy), χ.fits name (o.outline args) = true →
    R o.properties (o.arrange χ.order).properties
  options : c'.program.options = c.program.options
  trailLimit : c'.trailLimit = c.trailLimit
  entity? : ∀ path scope, c'.entity? path scope = (c.entity? path scope).map χ.number
  importedSymbol? : ∀ env specifier path,
    importedSymbol? c' env specifier path = (importedSymbol? c env specifier path).map χ.number
  qualifiedName : ∀ id, c'.binding.qualifiedName (χ.number id) = c.binding.qualifiedName id
  name : ∀ id, (c'.binding.symbol (χ.number id)).name = (c.binding.symbol id).name
  outer :
    ∀ id, (c'.binding.symbol (χ.number id)).outer.isEmpty = (c.binding.symbol id).outer.isEmpty
  declaresInstances :
    ∀ id, (c'.binding.symbol (χ.number id)).declarations.any declaresInstances =
    (c.binding.symbol id).declarations.any declaresInstances
  addDeclaration : ∀ ask trail args id,
    (c'.binding.symbol (χ.number id)).declarations.foldl (addDeclaration ask trail args) ([], []) =
      (c.binding.symbol id).declarations.foldl (addDeclaration ask trail args) ([], [])
  variableType? :
    ∀ id, ((c'.binding.symbol (χ.number id)).declarations.findSome? variableType?).map
      (fun x ↦ (declarationEnv x.1, x.2)) =
    ((c.binding.symbol id).declarations.findSome? variableType?).map
      fun x ↦ (declarationEnv x.1, x.2)
  aliasDecl? : ∀ {ask ask'}, c.AlteredAt χ R c' ask ask' → ∀ trail id args,
    (∀ x, (c.binding.symbol id).declarations.findSome? aliasDecl? = some x →
      declaredType c ask trail id args = aliasType c ask trail id x.1 x.2 args) →
    ((c'.binding.symbol (χ.number id)).declarations.findSome? aliasDecl?).map
        (fun x ↦ aliasType c' ask' (trail.alter χ) (χ.number id) x.1 x.2
          (args.map (Ty.alter χ))) =
      ((c.binding.symbol id).declarations.findSome? aliasDecl?).map
        fun x ↦ (aliasType c ask trail id x.1 x.2 args).alter χ

end Checker

namespace Typing

/-! ## Types without names -/

theorem keyword_alter (word : Keyword) : (keyword word).alter χ = keyword word := by
  cases word <;> rfl

theorem undeclared_alter (name : String) (args : List Ty) :
    undeclared name (args.map (Ty.alter χ)) = (undeclared name args).alter χ := by
  match args with
  | [] => simp [undeclared, Ty.alter]
  | [element] =>
      simp only [undeclared, List.map_cons, List.map_nil]
      split
      · rfl
      split
      · rfl
      · simp [Ty.alter]
  | _ :: _ :: _ => simp [undeclared, Ty.alter]

theorem operate_alter (op : TypeOperator) (t : Ty) :
    operate op (t.alter χ) = (operate op t).alter χ := by
  cases op with
  | readonly => cases t <;> rfl
  | keyof => simp only [operate, Ty.renderOperand_alter, Ty.alter]
  | unique => simp only [operate, Ty.render_alter, Ty.alter]

theorem keepsName_alter (t : Ty) : keepsName (t.alter χ) = keepsName t := by
  cases t <;> rfl

/-! ## Members -/

section

variable {ask ask' : TypeRules} (hask : ask.Altered χ R ask') (trail : TypeTrail)

include hask

theorem typesAt_alter (env : TypeEnv) (types : List TypeExpr) :
    types.map (ask'.typeAt (trail.alter χ) (env.alter χ)) =
      (types.map (ask.typeAt trail env)).map (Ty.alter χ) := by
  rw [List.map_map]
  exact List.map_congr_left fun type _ ↦ hask.typeAt trail env type

theorem instantiate_alter (env : TypeEnv) (params : List TypeParam) (args : List Ty) :
    instantiate (ask'.typeAt (trail.alter χ)) (env.alter χ) params
        (args.map (Ty.alter χ)) =
      (instantiate (ask.typeAt trail) env params args).alter χ := by
  induction params generalizing env args with
  | nil => simp [instantiate]
  | cons p rest ih =>
      cases args with
      | cons arg args => exact ih (env.bind p.name arg) args
      | nil =>
          rw [List.map_nil]
          unfold instantiate
          cases p.default with
          | none => exact ih (env.bind p.name (.param p.name)) []
          | some default =>
              dsimp only
              rw [hask.typeAt]
              exact ih (env.bind p.name (ask.typeAt trail env default)) []

theorem annotated_alter (env : TypeEnv) (type : Option TypeExpr) :
    annotated ask' (trail.alter χ) (env.alter χ) type =
      (annotated ask trail env type).alter χ := by
  cases type with
  | none => rfl
  | some type => exact hask.typeAt trail env type

theorem classMembers_alter (env : TypeEnv) (m : ClassMember) :
    classMembers ask' (trail.alter χ) (env.alter χ) m =
      (classMembers ask trail env m).map (Member.alter χ) := by
  have hvisible (name : PropertyName) (member : Member) :
      (if isHidden name then [] else [member.alter χ]) =
        (if isHidden name then [] else [member]).map (Member.alter χ) := by
    split <;> rfl
  obtain ⟨modifiers, kind, span⟩ := m
  cases kind with
  | constructor params body =>
      simp only [classMembers, List.map_map]
      refine List.map_congr_left fun p _ ↦ ?_
      simp only [annotated_alter hask, Function.comp_apply, Member.alter]
  | property name optional type =>
      simp only [classMembers, annotated_alter hask, ← hvisible, Member.alter]
  | method name optional signature body =>
      simp only [classMembers, hask.signatureAt, ← hvisible, Member.alter]
  | getter name type body =>
      simp only [classMembers, annotated_alter hask, ← hvisible, Member.alter]
  | setter name param body =>
      simp only [classMembers, annotated_alter hask, ← hvisible, Member.alter]
  | index index | staticBlock body => rfl

theorem addDeclaration_alter (args : List Ty) (ps : List Property) (bases : List Ty)
    (d : Declaration) :
    addDeclaration ask' (trail.alter χ) (args.map (Ty.alter χ))
        (ps.map (Property.alter χ), bases.map (Ty.alter χ)) d =
      ((addDeclaration ask trail args (ps, bases) d).1.map (Property.alter χ),
        (addDeclaration ask trail args (ps, bases) d).2.map (Ty.alter χ)) := by
  obtain ⟨file, scope, kind⟩ := d
  have henv (params : List TypeParam) := instantiate_alter hask trail
    (declarationEnv ⟨file, scope, kind⟩) params args
  have hempty : (declarationEnv ⟨file, scope, kind⟩).alter χ =
      declarationEnv ⟨file, scope, kind⟩ := rfl
  rw [hempty] at henv
  cases kind with
  | interfaceDecl i =>
      simp only [addDeclaration, henv, hask.objectAt, typesAt_alter hask, ← List.map_append,
        ObjectTy.properties_alter, Members.foldl_alter Members.addNew_alter]
  | classDecl c =>
      have hmembers (env : TypeEnv) (ms : List ClassMember) :
          ms.flatMap (classMembers ask' (trail.alter χ) (env.alter χ)) =
            (ms.flatMap (classMembers ask trail env)).map (Member.alter χ) := by
        rw [List.map_flatMap]
        exact List.flatMap_congr fun m _ ↦ classMembers_alter hask trail env m
      simp only [addDeclaration, henv, hmembers, typesAt_alter hask, ← List.map_append,
        Members.foldl_alter Members.addMember_alter]
  | _ => rfl

end


section

variable {c c' : Checker} (h : c.Alters χ R c') {ask ask' : TypeRules}
  (hask : ask.Altered χ R ask') (trail : TypeTrail)

include h hask

theorem declaredProperties_alter (id : Nat) (args : List Ty) :
    R ((declaredProperties c ask trail id args).map (Property.alter χ))
      (declaredProperties c' ask' (trail.alter χ) (χ.number id) (args.map (Ty.alter χ))) := by
  have hiff : χ.number id ∈ (trail.alter χ).heritage ↔ id ∈ trail.heritage :=
    List.mem_map_of_injective χ.number.injective
  by_cases hid : id ∈ trail.heritage
  · rw [declaredProperties_of_mem hid, declaredProperties_of_mem (hiff.mpr hid)]
    exact h.congruence.refl []
  have hopened :
      (⟨(trail.alter χ).types, χ.number id :: (trail.alter χ).heritage⟩ : TypeTrail) =
      TypeTrail.alter χ ⟨trail.types, id :: trail.heritage⟩ := rfl
  have hfold (trail : TypeTrail) (ds : List Declaration) (ps : List Property) (bases : List Ty) :
      ds.foldl (addDeclaration ask' (trail.alter χ) (args.map (Ty.alter χ)))
        (ps.map (Property.alter χ), bases.map (Ty.alter χ)) =
      ((ds.foldl (addDeclaration ask trail args) (ps, bases)).1.map (Property.alter χ),
        (ds.foldl (addDeclaration ask trail args) (ps, bases)).2.map (Ty.alter χ)) := by
    induction ds generalizing ps bases with
    | nil => rfl
    | cons d rest ih =>
        rw [List.foldl_cons, List.foldl_cons, addDeclaration_alter hask trail]
        exact ih _ _
  have hown : ownParts c' ask' (trail.alter χ) (χ.number id) (args.map (Ty.alter χ)) =
      ((ownParts c ask trail id args).1.map (Property.alter χ),
        (ownParts c ask trail id args).2.map (Ty.alter χ)) := by
    unfold ownParts
    rw [h.addDeclaration, hopened]
    exact hfold _ _ [] []
  rw [declaredProperties_eq hid, declaredProperties_eq (mt hiff.mp hid), hown, hopened,
    ← Members.foldl_alter Members.addNew_alter]
  refine h.congruence.addNew (h.congruence.refl _) ?_
  rw [List.flatMap_def, List.flatMap_def, List.map_flatten, List.map_map, List.map_map]
  refine h.congruence.flatten (List.forall₂_map_left_iff.mpr
    (List.forall₂_map_right_iff.mpr ?_))
  exact List.forall₂_same.mpr fun t _ ↦ hask.propertiesOf _ t

end

variable {c c' : Checker} {ask ask' : TypeRules} {trail : TypeTrail}

/-- Behind an alias the properties may come in the other order. -/
theorem propertiesRule_target (h : c.Alters χ R c') (name : String) (args : List Ty) (t : Ty) :
    R (propertiesRule c' ask' trail t) (propertiesRule c' ask' trail (χ.target name args t)) := by
  cases t with
  | object o =>
      simp only [Alteration.target, propertiesRule]
      split
      next hfits => exact h.arranged name args o hfits
      next => exact h.congruence.refl _
  | _ => exact h.congruence.refl _

mutual

theorem propertiesRule_alter (h : c.Alters χ R c') (hask : ask.Altered χ R ask') :
    (t : Ty) → R ((propertiesRule c ask trail t).map (Property.alter χ))
      (propertiesRule c' ask' (trail.alter χ) (t.alter χ))
  | .object o => by
      simp only [Ty.alter, propertiesRule, ObjectTy.properties_alter]
      exact h.congruence.refl _
  | .aliased name args target => by
      simp only [Ty.alter, propertiesRule]
      exact h.congruence.trans (propertiesRule_alter h hask target) (propertiesRule_target h ..)
  | .reference id _ args => by
      simp only [Ty.alter, propertiesRule, Ty.alterAll_eq_map]
      exact declaredProperties_alter h hask trail id args
  | .intersection members => by
      have hmeet := Members.foldl_alter (χ := χ) Members.addMeet_alter
        (propertiesRules c ask trail members).flatten []
      simp only [Ty.alter, propertiesRule, meetProperties]
      rw [← hmeet, List.map_flatten, List.map_nil]
      exact h.congruence.addMeet (h.congruence.flatten (propertiesRules_alter h hask members))
  | .primitive _ | .literal _ | .union _ | .array .. | .tuple .. | .function _
  | .param _ | .named ..
  | .verbatim _ => by
      simp only [Ty.alter, propertiesRule, List.map_nil]
      exact h.congruence.refl []

theorem propertiesRules_alter (h : c.Alters χ R c') (hask : ask.Altered χ R ask') :
    (ts : List Ty) → List.Forall₂ R ((propertiesRules c ask trail ts).map
      (List.map (Property.alter χ))) (propertiesRules c' ask' (trail.alter χ) (Ty.alterAll χ ts))
  | [] => by
      simp only [Ty.alterAll, propertiesRules, List.map_nil]
      exact .nil
  | t :: rest => by
      simp only [Ty.alterAll, propertiesRules, List.map_cons]
      exact .cons (propertiesRule_alter h hask t) (propertiesRules_alter h hask rest)

end

/-! ## Names -/

/-- An access that is not by a literal name stays as it is written. -/
theorem indexedType_of_ne {object index : Ty}
    (h : ¬∃ key, index.unaliased = .literal (.string key)) :
    indexedType c ask trail object index =
      .verbatim (object.renderOperand ++ "[" ++ index.render ++ "]") := by
  unfold indexedType
  split
  next key hkey => exact absurd ⟨key, hkey⟩ h
  next => rfl

/-- What the type behind an alias resolves to while the alias is open. -/
def aliasBody (ask : TypeRules) (trail : TypeTrail) (id : Nat) (d : Declaration) (a : AliasDecl)
    (args : List Ty) : Ty :=
  let inner : TypeTrail := { trail with types := id :: trail.types }
  ask.typeAt inner (instantiate (ask.typeAt inner) (declarationEnv d) a.typeParams args) a.type

theorem aliasType_of_not_mem {id : Nat} (hid : id ∉ trail.types) (d : Declaration) (a : AliasDecl)
    (args : List Ty) : aliasType c ask trail id d a args =
      if keepsName (aliasBody ask trail id d a args) then
        .aliased (c.binding.qualifiedName id) args (aliasBody ask trail id d a args)
      else aliasBody ask trail id d a args := if_neg hid

section

variable {id : Nat} {d d' : Declaration} {a a' : AliasDecl} {args : List Ty}

theorem keepsName_target (name : String) (args : List Ty) (t : Ty) :
    keepsName (χ.target name args t) = keepsName t := by
  cases t <;> rfl

/-- An alias is altered if the type behind it is, with its members in the other order if it fits. -/
theorem aliasType_alter_of_body
    (hname : c'.binding.qualifiedName (χ.number id) = c.binding.qualifiedName id)
    (hbody : id ∉ trail.types →
      aliasBody ask' (trail.alter χ) (χ.number id) d' a' (args.map (Ty.alter χ)) =
        χ.target (c.binding.qualifiedName id) (args.map (Ty.alter χ))
          ((aliasBody ask trail id d a args).alter χ)) :
    aliasType c' ask' (trail.alter χ) (χ.number id) d' a' (args.map (Ty.alter χ)) =
      (aliasType c ask trail id d a args).alter χ := by
  have hiff : χ.number id ∈ (trail.alter χ).types ↔ id ∈ trail.types :=
    List.mem_map_of_injective χ.number.injective
  by_cases hid : id ∈ trail.types
  · simp only [aliasType, if_pos hid, if_pos (hiff.mpr hid), hname, Ty.alter, Ty.alterAll_eq_map]
  rw [aliasType_of_not_mem hid, aliasType_of_not_mem (mt hiff.mp hid), hbody hid, hname,
    keepsName_target, keepsName_alter]
  cases aliasBody ask trail id d a args <;> simp only [keepsName, Ty.alter, Ty.alterAll_eq_map,
    Alteration.target, if_true, Bool.false_eq_true, if_false]

/-- An alias of the same type in the same environment stands for the altered type, as long as this
is no object that is put in another order. -/
theorem aliasType_alter (hask : ask.Altered χ R ask')
    (hname : c'.binding.qualifiedName (χ.number id) = c.binding.qualifiedName id)
    (henv : declarationEnv d' = declarationEnv d) (hparams : a'.typeParams = a.typeParams)
    (htype : a'.type = a.type) (hfits : ∀ o, id ∉ trail.types →
      aliasBody ask trail id d a args = .object o →
        χ.fits (c.binding.qualifiedName id) (o.outline args) = false) :
    aliasType c' ask' (trail.alter χ) (χ.number id) d' a' (args.map (Ty.alter χ)) =
      (aliasType c ask trail id d a args).alter χ := by
  have hbody : aliasBody ask' (trail.alter χ) (χ.number id) d' a' (args.map (Ty.alter χ)) =
      (aliasBody ask trail id d a args).alter χ := by
    let inner : TypeTrail := ⟨id :: trail.types, trail.heritage⟩
    have hinside := instantiate_alter hask inner (declarationEnv d) a.typeParams args
    have htypeAt := hask.typeAt inner
    unfold aliasBody
    rw [henv, hparams, htype, ← htypeAt]
    exact congrArg (ask'.typeAt (inner.alter χ) · a.type) hinside
  refine aliasType_alter_of_body hname fun hid ↦ ?_
  have htarget (o : ObjectTy) (ho : (aliasBody ask trail id d a args).alter χ = .object o) :
      χ.fits (c.binding.qualifiedName id) (o.outline (args.map (Ty.alter χ))) = false := by
    obtain ⟨o', ho', rfl⟩ := Ty.alter_eq_object ho
    rw [← Ty.alterAll_eq_map, ObjectTy.outline_alter]
    exact hfits o' hid ho'
  rw [hbody, χ.target_eq htarget]

end

section

variable (h : c.Alters χ R c')

include h

theorem declaredType_alter (hask : c.AlteredAt χ R c' ask ask') (id : Nat) (args : List Ty) :
    declaredType c' ask' (trail.alter χ) (χ.number id) (args.map (Ty.alter χ)) =
      (declaredType c ask trail id args).alter χ := by
  have halias := h.aliasDecl? hask trail id args
  unfold declaredType at halias ⊢
  simp only [h.name, h.outer, h.declaresInstances, h.qualifiedName] at halias ⊢
  split
  · exact undeclared_alter _ args
  split
  · simp only [Ty.alter, Ty.alterAll_eq_map]
  next hbuiltin hinstances =>
    have hboth := halias fun x hx ↦ by rw [if_neg hbuiltin, if_neg hinstances, hx]
    cases hfound : (c.binding.symbol id).declarations.findSome? aliasDecl? with
    | none =>
        rw [hfound, Option.map_none, Option.map_eq_none_iff] at hboth
        rw [hboth]
        simp only [Ty.alter, Ty.alterAll_eq_map]
    | some x =>
        rw [hfound, Option.map_some] at hboth
        obtain ⟨x', hfound', hx⟩ := Option.map_eq_some_iff.mp hboth
        rw [hfound']
        exact hx

theorem queryType_alter (hask : ask.Altered χ R ask') (path : List String) (env : TypeEnv) :
    queryType c' ask' (trail.alter χ) path (env.alter χ) =
      (queryType c ask trail path env).alter χ := by
  unfold queryType
  rw [TypeEnv.scope_alter, h.entity?]
  cases c.entity? path env.scope with
  | none => rfl
  | some id =>
      have hvariable := h.variableType? id
      simp only [Option.map_some, h.qualifiedName]
      cases hfound : (c.binding.symbol id).declarations.findSome? variableType? with
      | none =>
          rw [hfound, Option.map_none, Option.map_eq_none_iff] at hvariable
          rw [hvariable]
          rfl
      | some x =>
          rw [hfound, Option.map_some] at hvariable
          obtain ⟨⟨d', type'⟩, hfound', hx⟩ := Option.map_eq_some_iff.mp hvariable
          obtain ⟨henv, rfl⟩ := Prod.mk.inj hx
          have hiff : χ.number id ∈ (trail.alter χ).types ↔ id ∈ trail.types :=
            List.mem_map_of_injective χ.number.injective
          rw [hfound']
          simp only [hiff]
          split
          · rfl
          · rw [henv]
            exact hask.typeAt ⟨id :: trail.types, trail.heritage⟩ (declarationEnv x.1) _

theorem namedType_alter (hask : c.AlteredAt χ R c' ask ask') (path : List String) (args : List Ty)
    (env : TypeEnv) :
    namedType c' ask' (trail.alter χ) path (args.map (Ty.alter χ)) (env.alter χ) =
      (namedType c ask trail path args env).alter χ := by
  unfold namedType
  rw [TypeEnv.scope_alter, h.entity?]
  cases c.entity? path env.scope with
  | none => exact undeclared_alter _ args
  | some id => exact declaredType_alter h hask id args

theorem importedSymbol?_alter (env : TypeEnv) (specifier : String) (path : List String) :
    importedSymbol? c' (env.alter χ) specifier path =
      (importedSymbol? c env specifier path).map χ.number := h.importedSymbol? env specifier path

theorem indexedType_alter (hask : ask.Altered χ R ask') (object index : Ty) :
    indexedType c' ask' (trail.alter χ) (object.alter χ) (index.alter χ) =
      (indexedType c ask trail object index).alter χ := by
  by_cases hkey : ∃ key, index.unaliased = .literal (.string key)
  · obtain ⟨key, hkey⟩ := hkey
    have hproperties : R ((propertiesRule c ask trail object).map (Property.alter χ))
        (propertiesRule c' ask' (trail.alter χ) (object.alter χ)) :=
        propertiesRule_alter h hask object
    have hfind := h.congruence.find? hproperties key
    have hname : (fun p : Property ↦ p.name == key) ∘ Property.alter χ = (·.name == key) := by
      funext p
      simp only [Function.comp_apply, Property.name_alter]
    rw [List.find?_map, hname, Option.map_map] at hfind
    unfold indexedType
    rw [(Ty.unaliased_alter_eq_literal index).mpr hkey, hkey]
    dsimp only
    cases hfound : (propertiesRule c ask trail object).find? (·.name == key) with
    | none =>
        rw [hfound, Option.map_none, eq_comm, Option.map_eq_none_iff] at hfind
        rw [hfind]
        simp only [Ty.alter, Ty.renderOperand_alter, Ty.render_alter]
    | some p =>
        rw [hfound, Option.map_some, eq_comm] at hfind
        obtain ⟨p', hfound', hp⟩ := Option.map_eq_some_iff.mp hfind
        rw [hfound']
        exact hp.trans p.type_alter
  · have hkey' : ¬∃ key, (index.alter χ).unaliased = .literal (.string key) :=
      fun ⟨key, h⟩ ↦ hkey ⟨key, (Ty.unaliased_alter_eq_literal index).mp h⟩
    rw [indexedType_of_ne hkey, indexedType_of_ne hkey']
    simp only [Ty.alter, Ty.renderOperand_alter, Ty.render_alter]

end

theorem boundType?_alter (path : List String) (env : TypeEnv) :
    boundType? path (env.alter χ) = (boundType? path env).map (Ty.alter χ) := by
  match path with
  | [single] => exact env.bound?_alter single
  | [] | _ :: _ :: _ => rfl

/-! ## Types -/

theorem alter_ofKind (f : FunctionTy) (isConstructor isAbstract : Bool) :
    { f.alter χ with isConstructor := isConstructor, isAbstract := isAbstract } =
      FunctionTy.alter χ { f with isConstructor := isConstructor, isAbstract := isAbstract } := by
  cases f
  rfl

mutual

theorem typeRule_alter (h : c.Alters χ R c') (hask : c.AlteredAt χ R c' ask ask')
    (env : TypeEnv) : (type : TypeExpr) →
      typeRule c' ask' (trail.alter χ) (env.alter χ) type =
        (typeRule c ask trail env type).alter χ
  | .keyword word => by simp only [typeRule, keyword_alter]
  | .this | .literal _ => by simp only [typeRule, Ty.alter]
  | .template raw => by simp only [typeRule, Ty.alter, env.template_alter]
  | .reference path args => by
      simp only [typeRule, boundType?_alter, typeRules_alter h hask env args]
      cases boundType? path env with
      | some t => rfl
      | none => exact namedType_alter h hask path _ env
  | .union members => by
      simp only [typeRule, typeRules_alter h hask env members, h.options, Ty.join_alter,
        Ty.widenNullables_alter]
      split <;> rfl
  | .intersection members => by
      simp only [typeRule, typeRules_alter h hask env members, Ty.meet_alter]
  | .array element => by
      simp only [typeRule, typeRule_alter h hask env element, Ty.alter]
  | .tuple elements => by
      simp only [typeRule, itemRules_alter h hask env elements, Ty.alter]
  | .function isConstructor isAbstract signature => by
      simp only [typeRule, signatureRule_alter h hask env signature, Ty.alter,
        alter_ofKind]
  | .members members => by
      simp only [typeRule, memberRules_alter h hask env members, Members.toObject_alter,
        Ty.alter]
  | .query path args => by simp only [typeRule, queryType_alter h hask.toAltered path env]
  | .operator op operand => by
      simp only [typeRule, typeRule_alter h hask env operand, operate_alter]
  | .indexed object index => by
      simp only [typeRule, typeRule_alter h hask env object, typeRule_alter h hask env index,
        indexedType_alter h hask.toAltered]
  | .imported isTypeof specifier path args => by
      simp only [typeRule, importedSymbol?_alter h, typeRules_alter h hask env args]
      split
      · rfl
      · cases importedSymbol? c env specifier path with
        | none => rfl
        | some id => exact declaredType_alter h hask id _
  | .conditional check bound yes no => by
      simp only [typeRule, env.bindNames_alter, typeRule_alter h hask _ check,
        typeRule_alter h hask _ bound, typeRule_alter h hask _ yes,
        typeRule_alter h hask _ no, Ty.render_alter, Ty.alter]
  | .infer name none => by simp only [typeRule, Ty.alter]
  | .infer name (some bound) => by
      simp only [typeRule, typeRule_alter h hask env bound, Ty.render_alter, Ty.alter]
  | .mapped readonly key bound rename optional value => by
      match rename with
      | none =>
          simp only [typeRule, env.bindNames_alter, typeRule_alter h hask env bound,
            optionalTypeRule_alter h hask _ value, Ty.render_alter]
          rfl
      | some rename =>
          simp only [typeRule, env.bindNames_alter, typeRule_alter h hask env bound,
            typeRule_alter h hask _ rename, optionalTypeRule_alter h hask _ value,
            Ty.render_alter]
          rfl
  | .predicate asserts param none => by simp only [typeRule, Ty.alter]
  | .predicate asserts param (some type) => by
      simp only [typeRule, typeRule_alter h hask env type, Ty.render_alter, Ty.alter]

theorem optionalTypeRule_alter (h : c.Alters χ R c') (hask : c.AlteredAt χ R c' ask ask')
    (env : TypeEnv) : (type : Option TypeExpr) →
      typeRule? c' ask' (trail.alter χ) (env.alter χ) type =
        (typeRule? c ask trail env type).alter χ
  | none => by simp only [typeRule?, Ty.alter]
  | some type => by simp only [typeRule?, typeRule_alter h hask env type]

theorem typeRules_alter (h : c.Alters χ R c') (hask : c.AlteredAt χ R c' ask ask')
    (env : TypeEnv) : (types : List TypeExpr) →
      typeRules c' ask' (trail.alter χ) (env.alter χ) types =
        (typeRules c ask trail env types).map (Ty.alter χ)
  | [] => by simp only [typeRules, List.map_nil]
  | type :: rest => by
      simp only [typeRules, typeRule_alter h hask env type, typeRules_alter h hask env rest,
        List.map_cons]

theorem itemRules_alter (h : c.Alters χ R c') (hask : c.AlteredAt χ R c' ask ask')
    (env : TypeEnv) : (elements : List TupleElement) →
      itemRules c' ask' (trail.alter χ) (env.alter χ) elements =
        TupleItem.alterAll χ (itemRules c ask trail env elements)
  | [] => by simp only [itemRules, TupleItem.alterAll]
  | ⟨_, _, _, type⟩ :: rest => by
      simp only [itemRules, typeRule_alter h hask env type, itemRules_alter h hask env rest,
        TupleItem.alterAll, TupleItem.alter]

theorem paramRules_alter (h : c.Alters χ R c') (hask : c.AlteredAt χ R c' ask ask')
    (env : TypeEnv) : (params : List Param) →
      paramRules c' ask' (trail.alter χ) (env.alter χ) params =
        ParamTy.alterAll χ (paramRules c ask trail env params)
  | [] => by simp only [paramRules, ParamTy.alterAll]
  | ⟨_, _, _, _, type⟩ :: rest => by
      simp only [paramRules, optionalTypeRule_alter h hask env type,
        paramRules_alter h hask env rest, ParamTy.alterAll, ParamTy.alter]

theorem signatureRule_alter (h : c.Alters χ R c') (hask : c.AlteredAt χ R c' ask ask')
    (env : TypeEnv) : (signature : Signature) →
      signatureRule c' ask' (trail.alter χ) (env.alter χ) signature =
        (signatureRule c ask trail env signature).alter χ
  | ⟨typeParams, params, result⟩ => by
      simp only [signatureRule, env.bindTypeParams_alter, paramRules_alter h hask _ params,
        optionalTypeRule_alter h hask _ result, FunctionTy.alter]

theorem memberRules_alter (h : c.Alters χ R c') (hask : c.AlteredAt χ R c' ask ask')
    (env : TypeEnv) : (members : List TypeMember) →
      memberRules c' ask' (trail.alter χ) (env.alter χ) members =
        (memberRules c ask trail env members).map (Member.alter χ)
  | [] => by simp only [memberRules, List.map_nil]
  | m :: rest => by
      simp only [memberRules, memberRule_alter h hask env m, memberRules_alter h hask env rest,
        List.map_cons]

theorem memberRule_alter (h : c.Alters χ R c') (hask : c.AlteredAt χ R c' ask ask')
    (env : TypeEnv) : (m : TypeMember) →
      memberRule c' ask' (trail.alter χ) (env.alter χ) m =
        (memberRule c ask trail env m).alter χ
  | .property name optional readonly type => by
      simp only [memberRule, optionalTypeRule_alter h hask env type, Member.alter]
  | .method name optional signature => by
      simp only [memberRule, signatureRule_alter h hask env signature, Member.alter]
  | .call signature => by
      simp only [memberRule, signatureRule_alter h hask env signature, Member.alter]
  | .construct signature => by
      simp only [memberRule, signatureRule_alter h hask env signature, Member.alter]
      cases signatureRule c ask trail env signature
      rfl
  | .index ⟨readonly, keyName, key, value⟩ => by
      simp only [memberRule, typeRule_alter h hask env key,
        optionalTypeRule_alter h hask env value, Member.alter, IndexTy.alter]
  | .getter name type => by
      simp only [memberRule, optionalTypeRule_alter h hask env type, Member.alter]
  | .setter name (some ⟨_, _, _, _, some type⟩) => by
      simp only [memberRule, paramTypeRule, typeRule_alter h hask env type, Member.alter]
  | .setter name (some ⟨_, _, _, _, none⟩) | .setter name none => by
      rw [memberRule, memberRule, paramTypeRule, paramTypeRule] <;> simp [Member.alter, Ty.alter]

end

/-! ## The checker -/

theorem altered_rules (h : c.Alters χ R c') (hask : c.AlteredAt χ R c' ask ask') :
    (rules c ask).Altered χ R (rules c' ask') where
  typeAt _ env type := typeRule_alter h hask env type
  signatureAt _ env signature := signatureRule_alter h hask env signature
  objectAt trail env members := by
    change Members.toObject (memberRules c' ask' (trail.alter χ) (env.alter χ) members) =
      (Members.toObject (memberRules c ask trail env members)).alter χ
    rw [memberRules_alter h hask, Members.toObject_alter]
  propertiesOf _ t := propertiesRule_alter h hask.toAltered t

theorem altered_noRules (hR : Members.Congruence R) : noRules.Altered χ R noRules where
  typeAt _ _ _ := rfl
  signatureAt _ _ _ := rfl
  objectAt _ _ _ := rfl
  propertiesOf _ _ := hR.refl []

theorem altered_level (h : c.Alters χ R c') (n : Nat) : (c.level n).Altered χ R (c'.level n) := by
  induction n with
  | zero => exact altered_noRules h.congruence
  | succ n ih => exact Checker.level_succ c n ▸ Checker.level_succ c' n ▸
      altered_rules h ⟨ih, n, rfl, rfl⟩

end Typing

namespace Checker.Alters

variable {c c' : Checker} (h : c.Alters χ R c')

include h

theorem typing : c.typing.Altered χ R c'.typing := by
  have hlevel := Typing.altered_level h (c.trailLimit + 1)
  rwa [← typing_eq_level, ← h.trailLimit, ← typing_eq_level] at hlevel

/-- A written type resolves to the altered type. -/
theorem typeAt (env : TypeEnv) (type : TypeExpr) :
    c'.typeAt (env.alter χ) type = (c.typeAt env type).alter χ :=
  h.typing.typeAt ⟨[], []⟩ env type

theorem propertiesOf (t : Ty) :
    R ((c.propertiesOf t).map (Property.alter χ)) (c'.propertiesOf (t.alter χ)) :=
  h.typing.propertiesOf ⟨[], []⟩ t

end Checker.Alters

end PluginSurface
