import Mathlib.Logic.Equiv.Defs
import PluginSurface.Proofs.Ty.Arrangement
import PluginSurface.Typing.Members

/-!
# Altered types

A type is altered by a permutation of the symbol numbers, which changes the references in it, and by
another order of the members of objects behind an alias. Everything that is done with types commutes
with this: they read the same, they are equal when they were, and unions, intersections and lists of
properties are built alike. Main statements: `Ty.render_alter`, `Ty.join_alter`, `Ty.meet_alter` and
`Members.toObject_alter`.
-/

namespace PluginSurface

/-- The numbers of the symbols are permuted, and the members of what an alias stands for are put in
another order where its name and its outline fit. -/
structure Alteration where
  number : Equiv.Perm Nat
  fits : String → Outline → Bool
  order : MemberOrder

namespace Alteration

/-- What an alias with the arguments stands for, with its members in the other order if it fits. -/
def target (χ : Alteration) (name : String) (args : List Ty) : Ty → Ty
  | .object o => .object (if χ.fits name (o.outline args) then o.arrange χ.order else o)
  | t => t

theorem target_eq {χ : Alteration} {name : String} {args : List Ty} {t : Ty}
    (h : ∀ o, t = .object o → χ.fits name (o.outline args) = false) :
    χ.target name args t = t := by
  cases t with
  | object o => simp only [target, h o rfl, Bool.false_eq_true, if_false]
  | _ => rfl

def symm (χ : Alteration) : Alteration := ⟨χ.number.symm, χ.fits, χ.order.symm⟩

theorem number_symm (χ : Alteration) (id : Nat) : χ.symm.number (χ.number id) = id :=
  χ.number.symm_apply_apply id

end Alteration

mutual

/-- The altered type. -/
def Ty.alter (χ : Alteration) : Ty → Ty
  | .primitive p => .primitive p
  | .literal value => .literal value
  | .union members => .union (Ty.alterAll χ members)
  | .intersection members => .intersection (Ty.alterAll χ members)
  | .array element readonly => .array (element.alter χ) readonly
  | .tuple elements readonly => .tuple (TupleItem.alterAll χ elements) readonly
  | .function f => .function (f.alter χ)
  | .object o => .object (o.alter χ)
  | .reference symbol name args => .reference (χ.number symbol) name (Ty.alterAll χ args)
  | .aliased name args target =>
    let args := Ty.alterAll χ args
    .aliased name args (χ.target name args (target.alter χ))
  | .param name => .param name
  | .named name args => .named name (Ty.alterAll χ args)
  | .verbatim text => .verbatim text

def Ty.alterAll (χ : Alteration) : List Ty → List Ty
  | [] => []
  | t :: rest => t.alter χ :: Ty.alterAll χ rest

def TupleItem.alter (χ : Alteration) : TupleItem → TupleItem
  | ⟨label, optional, rest, type⟩ => ⟨label, optional, rest, type.alter χ⟩

def TupleItem.alterAll (χ : Alteration) : List TupleItem → List TupleItem
  | [] => []
  | item :: rest => item.alter χ :: TupleItem.alterAll χ rest

def ParamTy.alter (χ : Alteration) : ParamTy → ParamTy
  | ⟨name, optional, rest, type⟩ => ⟨name, optional, rest, type.alter χ⟩

def ParamTy.alterAll (χ : Alteration) : List ParamTy → List ParamTy
  | [] => []
  | p :: rest => p.alter χ :: ParamTy.alterAll χ rest

def FunctionTy.alter (χ : Alteration) : FunctionTy → FunctionTy
  | ⟨isConstructor, isAbstract, typeParams, params, result⟩ =>
    ⟨isConstructor, isAbstract, typeParams, ParamTy.alterAll χ params, result.alter χ⟩

def FunctionTy.alterAll (χ : Alteration) : List FunctionTy → List FunctionTy
  | [] => []
  | f :: rest => f.alter χ :: FunctionTy.alterAll χ rest

def IndexTy.alter (χ : Alteration) : IndexTy → IndexTy
  | ⟨keyName, key, value, readonly⟩ => ⟨keyName, key.alter χ, value.alter χ, readonly⟩

def IndexTy.alterAll (χ : Alteration) : List IndexTy → List IndexTy
  | [] => []
  | i :: rest => i.alter χ :: IndexTy.alterAll χ rest

def Property.alter (χ : Alteration) : Property → Property
  | ⟨name, optional, readonly, isMethod, type⟩ =>
    ⟨name, optional, readonly, isMethod, type.alter χ⟩

def Property.alterAll (χ : Alteration) : List Property → List Property
  | [] => []
  | p :: rest => p.alter χ :: Property.alterAll χ rest

def ObjectTy.alter (χ : Alteration) : ObjectTy → ObjectTy
  | ⟨properties, calls, constructs, indexes⟩ =>
    ⟨Property.alterAll χ properties, FunctionTy.alterAll χ calls,
      FunctionTy.alterAll χ constructs, IndexTy.alterAll χ indexes⟩

end

variable {χ : Alteration}

@[simp] theorem Ty.alterAll_eq_map (ts : List Ty) :
    Ty.alterAll χ ts = ts.map (Ty.alter χ) := by
  induction ts with
  | nil => rfl
  | cons t rest ih => rw [Ty.alterAll, ih, List.map_cons]

@[simp] theorem TupleItem.alterAll_eq_map (items : List TupleItem) :
    TupleItem.alterAll χ items = items.map (TupleItem.alter χ) := by
  induction items with
  | nil => rfl
  | cons item rest ih => rw [TupleItem.alterAll, ih, List.map_cons]

@[simp] theorem ParamTy.alterAll_eq_map (ps : List ParamTy) :
    ParamTy.alterAll χ ps = ps.map (ParamTy.alter χ) := by
  induction ps with
  | nil => rfl
  | cons p rest ih => rw [ParamTy.alterAll, ih, List.map_cons]

@[simp] theorem FunctionTy.alterAll_eq_map (fs : List FunctionTy) :
    FunctionTy.alterAll χ fs = fs.map (FunctionTy.alter χ) := by
  induction fs with
  | nil => rfl
  | cons f rest ih => rw [FunctionTy.alterAll, ih, List.map_cons]

@[simp] theorem IndexTy.alterAll_eq_map (is : List IndexTy) :
    IndexTy.alterAll χ is = is.map (IndexTy.alter χ) := by
  induction is with
  | nil => rfl
  | cons i rest ih => rw [IndexTy.alterAll, ih, List.map_cons]

@[simp] theorem Property.alterAll_eq_map (ps : List Property) :
    Property.alterAll χ ps = ps.map (Property.alter χ) := by
  induction ps with
  | nil => rfl
  | cons p rest ih => rw [Property.alterAll, ih, List.map_cons]

@[simp] theorem Property.name_alter (p : Property) : (p.alter χ).name = p.name := by
  cases p
  rfl

@[simp] theorem ObjectTy.properties_alter (o : ObjectTy) :
    (o.alter χ).properties = o.properties.map (Property.alter χ) := by
  obtain ⟨ps, cs, ks, is⟩ := o
  simp only [ObjectTy.alter, Property.alterAll_eq_map]

/-! ## Text -/

namespace Ty

@[simp] theorem isFunctionLike_alter (t : Ty) :
    (t.alter χ).isFunctionLike = t.isFunctionLike := by
  cases t with
  | object o =>
      obtain ⟨ps, cs, ks, is⟩ := o
      rw [alter, isFunctionLike, isFunctionLike]
      match ps, cs, ks, is with
      | [], [_], [], [] => rfl
      | [], [], [_], [] => rfl
      | _ :: _, _, _, _ => rfl
      | [], [], [], _ => cases is <;> rfl
      | [], _ :: _ :: _, _, _ => rfl
      | [], [_], _ :: _, _ => rfl
      | [], [_], [], _ :: _ => rfl
      | [], [], _ :: _ :: _, _ => rfl
      | [], [], [_], _ :: _ => rfl
  | _ => rfl

@[simp] theorem needsParens_alter (t : Ty) : (t.alter χ).needsParens = t.needsParens := by
  have h := isFunctionLike_alter (χ := χ) t
  cases t with
  | union | intersection => rfl
  | _ => exact h

end Ty

mutual

@[simp] theorem Ty.render_alter : (t : Ty) → (t.alter χ).render = t.render
  | .primitive _ | .literal _ | .param _ | .verbatim _ => by simp only [Ty.alter]
  | .union ts => by simp only [Ty.alter, Ty.render, renderUnion_alter ts]
  | .intersection ts => by simp only [Ty.alter, Ty.render, renderOperands_alter ts]
  | .reference _ _ ts | .named _ ts => by simp only [Ty.alter, Ty.render, renderTys_alter ts]
  | .array t _ => by
      simp only [Ty.alter, Ty.render, Ty.needsParens_alter, t.render_alter]
  | .tuple items _ => by simp only [Ty.alter, Ty.render, renderItems_alter items]
  | .function f => by simp only [Ty.alter, Ty.render, f.render_alter]
  | .object o => by simp only [Ty.alter, Ty.render, o.render_alter]
  | .aliased _ ts t => by simp only [Ty.alter, Ty.render, renderTys_alter ts]

theorem renderTys_alter : (ts : List Ty) → renderTys (Ty.alterAll χ ts) = renderTys ts
  | [] => rfl
  | t :: rest => by
      simp only [Ty.alterAll, renderTys, t.render_alter, renderTys_alter rest]

theorem renderUnion_alter : (ts : List Ty) →
    renderUnion (Ty.alterAll χ ts) = renderUnion ts
  | [] => rfl
  | t :: rest => by
      simp only [Ty.alterAll, renderUnion, Ty.isFunctionLike_alter, t.render_alter,
        renderUnion_alter rest]

theorem renderOperands_alter : (ts : List Ty) →
    renderOperands (Ty.alterAll χ ts) = renderOperands ts
  | [] => rfl
  | t :: rest => by
      simp only [Ty.alterAll, renderOperands, Ty.needsParens_alter, t.render_alter,
        renderOperands_alter rest]

theorem renderItems_alter : (items : List TupleItem) →
    renderItems (TupleItem.alterAll χ items) = renderItems items
  | [] => rfl
  | ⟨_, _, _, t⟩ :: rest => by
      simp only [TupleItem.alterAll, TupleItem.alter, renderItems, TupleItem.render,
        t.render_alter, renderItems_alter rest]

theorem renderParamTys_alter : (ps : List ParamTy) →
    renderParamTys (ParamTy.alterAll χ ps) = renderParamTys ps
  | [] => rfl
  | ⟨_, _, _, t⟩ :: rest => by
      simp only [ParamTy.alterAll, ParamTy.alter, renderParamTys, ParamTy.render,
        t.render_alter, renderParamTys_alter rest]

@[simp] theorem FunctionTy.render_alter : (f : FunctionTy) → (f.alter χ).render = f.render
  | ⟨_, _, _, ps, t⟩ => by
      simp only [FunctionTy.alter, FunctionTy.render, renderParamTys_alter ps,
        t.render_alter]

@[simp] theorem FunctionTy.renderMember_alter :
    (f : FunctionTy) → (f.alter χ).renderMember = f.renderMember
  | ⟨_, _, _, ps, t⟩ => by
      simp only [FunctionTy.alter, FunctionTy.renderMember, renderParamTys_alter ps,
        t.render_alter]

theorem renderSignatures_alter : (fs : List FunctionTy) →
    renderSignatures (FunctionTy.alterAll χ fs) = renderSignatures fs
  | [] => rfl
  | f :: rest => by
      simp only [FunctionTy.alterAll, renderSignatures, f.renderMember_alter,
        renderSignatures_alter rest]

@[simp] theorem IndexTy.render_alter : (i : IndexTy) → (i.alter χ).render = i.render
  | ⟨_, k, v, _⟩ => by
      simp only [IndexTy.alter, IndexTy.render, k.render_alter, v.render_alter]

theorem renderIndexes_alter : (is : List IndexTy) →
    renderIndexes (IndexTy.alterAll χ is) = renderIndexes is
  | [] => rfl
  | i :: rest => by
      simp only [IndexTy.alterAll, renderIndexes, i.render_alter, renderIndexes_alter rest]

@[simp] theorem Property.render_alter : (p : Property) → (p.alter χ).render = p.render
  | ⟨_, _, _, isMethod, t⟩ => by
      have ht := t.render_alter
      cases t with
      | function f =>
          have hf := f.renderMember_alter
          rw [Ty.alter] at ht
          cases isMethod <;> simp only [Property.alter, Ty.alter, Property.render, ht, hf]
      | _ =>
          rw [Ty.alter] at ht
          simp only [Property.alter, Ty.alter, Property.render, ht]

theorem renderProperties_alter : (ps : List Property) →
    renderProperties (Property.alterAll χ ps) = renderProperties ps
  | [] => rfl
  | p :: rest => by
      simp only [Property.alterAll, renderProperties, p.render_alter,
        renderProperties_alter rest]

@[simp] theorem ObjectTy.render_alter : (o : ObjectTy) → (o.alter χ).render = o.render
  | ⟨ps, cs, ks, is⟩ => by
      have hps := renderProperties_alter ps
      have hcs := renderSignatures_alter cs
      have hks := renderSignatures_alter ks
      have his := renderIndexes_alter is
      match ps, cs, ks, is with
      | [], [f], [], [] | [], [], [f], [] => exact f.render_alter
      | [], [], [], [] => rfl
      | _ :: _, _, _, _ | [], [], [], _ :: _ | [], _ :: _ :: _, _, _ | [], [_], _ :: _, _
      | [], [_], [], _ :: _ | [], [], _ :: _ :: _, _ | [], [], [_], _ :: _ =>
          simp only [ObjectTy.alter, Property.alterAll, FunctionTy.alterAll,
            IndexTy.alterAll, ObjectTy.render] at *
          simp only [hps, hcs, hks, his]

end

/-! ## Equality -/

namespace ObjectTy

theorem outline_alter (args : List Ty) (o : ObjectTy) :
    (o.alter χ).outline (Ty.alterAll χ args) = o.outline args := by
  obtain ⟨ps, cs, ks, is⟩ := o
  have hproperty (p : Property) :
      ((p.alter χ).name, (p.alter χ).render) = (p.name, p.render) := by
    rw [Property.name_alter, Property.render_alter]
  simp only [outline, alter, Ty.alterAll_eq_map, Property.alterAll_eq_map,
    FunctionTy.alterAll_eq_map, IndexTy.alterAll_eq_map, List.map_map, Function.comp_def,
    Ty.render_alter, FunctionTy.renderMember_alter, IndexTy.render_alter, hproperty]

theorem arrange_alter (m : MemberOrder) (o : ObjectTy) :
    (o.arrange m).alter χ = (o.alter χ).arrange m := by
  obtain ⟨ps, cs, ks, is⟩ := o
  simp only [arrange, alter, Property.alterAll_eq_map, FunctionTy.alterAll_eq_map,
    IndexTy.alterAll_eq_map, Arrangement.apply_map]

end ObjectTy

/-- Behind an alias, too, the way back leads to the same type. -/
theorem Alteration.target_symm (χ : Alteration) (name : String) (args : List Ty) {t : Ty}
    (h : (t.alter χ).alter χ.symm = t) :
    χ.symm.target name args ((χ.target name (Ty.alterAll χ args) (t.alter χ)).alter
      χ.symm) = t := by
  cases t with
  | object o =>
      simp only [Ty.alter, Ty.object.injEq] at h
      simp only [Ty.alter, target, ObjectTy.outline_alter]
      cases hfits : χ.fits name (o.outline args) with
      | true =>
          have hback : χ.symm.fits name ((o.arrange χ.order).outline args) = true := by
            rw [ObjectTy.outline_arrange]
            exact hfits
          simp only [if_true, ObjectTy.arrange_alter, h, hback]
          exact congrArg Ty.object (o.arrange_symm χ.order)
      | false =>
          have hback : χ.symm.fits name (o.outline args) = false := hfits
          simp only [Bool.false_eq_true, if_false, h, hback]
  | primitive | literal | param | verbatim => simp only [Ty.alter, target]
  | _ => simpa only [Ty.alter, target] using h

mutual

theorem Ty.alter_symm : (t : Ty) → (t.alter χ).alter χ.symm = t
  | .primitive _ | .literal _ | .param _ | .verbatim _ => by simp [Ty.alter]
  | .union ts | .intersection ts | .named _ ts => by simp only [Ty.alter, Ty.alterAll_symm ts]
  | .reference _ _ ts => by
      simp only [Ty.alter, Ty.alterAll_symm ts, χ.number_symm]
  | .array t _ => by simp only [Ty.alter, t.alter_symm]
  | .tuple items _ => by simp only [Ty.alter, TupleItem.alterAll_symm items]
  | .function f => by simp only [Ty.alter, f.alter_symm]
  | .object o => by simp only [Ty.alter, o.alter_symm]
  | .aliased _ ts t => by
      simp only [Ty.alter, Ty.alterAll_symm ts, χ.target_symm _ ts t.alter_symm]

theorem Ty.alterAll_symm : (ts : List Ty) → Ty.alterAll χ.symm (Ty.alterAll χ ts) = ts
  | [] => rfl
  | t :: rest => by simp only [Ty.alterAll, t.alter_symm, Ty.alterAll_symm rest]

theorem TupleItem.alterAll_symm : (items : List TupleItem) →
    TupleItem.alterAll χ.symm (TupleItem.alterAll χ items) = items
  | [] => rfl
  | ⟨_, _, _, t⟩ :: rest => by
      simp only [TupleItem.alterAll, TupleItem.alter, t.alter_symm,
        TupleItem.alterAll_symm rest]

theorem ParamTy.alterAll_symm : (ps : List ParamTy) →
    ParamTy.alterAll χ.symm (ParamTy.alterAll χ ps) = ps
  | [] => rfl
  | ⟨_, _, _, t⟩ :: rest => by
      simp only [ParamTy.alterAll, ParamTy.alter, t.alter_symm, ParamTy.alterAll_symm rest]

theorem FunctionTy.alter_symm : (f : FunctionTy) → (f.alter χ).alter χ.symm = f
  | ⟨_, _, _, ps, t⟩ => by
      simp only [FunctionTy.alter, ParamTy.alterAll_symm ps, t.alter_symm]

theorem FunctionTy.alterAll_symm : (fs : List FunctionTy) →
    FunctionTy.alterAll χ.symm (FunctionTy.alterAll χ fs) = fs
  | [] => rfl
  | f :: rest => by
      simp only [FunctionTy.alterAll, f.alter_symm, FunctionTy.alterAll_symm rest]

theorem IndexTy.alterAll_symm : (is : List IndexTy) →
    IndexTy.alterAll χ.symm (IndexTy.alterAll χ is) = is
  | [] => rfl
  | ⟨_, k, v, _⟩ :: rest => by
      simp only [IndexTy.alterAll, IndexTy.alter, k.alter_symm, v.alter_symm,
        IndexTy.alterAll_symm rest]

theorem Property.alterAll_symm : (ps : List Property) →
    Property.alterAll χ.symm (Property.alterAll χ ps) = ps
  | [] => rfl
  | ⟨_, _, _, _, t⟩ :: rest => by
      simp only [Property.alterAll, Property.alter, t.alter_symm,
        Property.alterAll_symm rest]

theorem ObjectTy.alter_symm : (o : ObjectTy) → (o.alter χ).alter χ.symm = o
  | ⟨ps, cs, ks, is⟩ => by
      simp only [ObjectTy.alter, Property.alterAll_symm ps, FunctionTy.alterAll_symm cs,
        FunctionTy.alterAll_symm ks, IndexTy.alterAll_symm is]

end

theorem Ty.alter_eq_object {t : Ty} {o : ObjectTy} (h : t.alter χ = .object o) :
    ∃ o', t = .object o' ∧ o'.alter χ = o := by
  cases t with
  | object o' => exact ⟨o', rfl, by simpa only [Ty.alter, Ty.object.injEq] using h⟩
  | _ => simp [Ty.alter] at h

theorem Ty.alter_injective : Function.Injective (Ty.alter χ) :=
  Function.LeftInverse.injective Ty.alter_symm

@[simp] theorem Ty.alter_inj {t u : Ty} : t.alter χ = u.alter χ ↔ t = u :=
  Ty.alter_injective.eq_iff

namespace Ty

@[simp] theorem renderOperand_alter (t : Ty) : (t.alter χ).renderOperand = t.renderOperand := by
  rw [renderOperand, renderOperand, needsParens_alter, render_alter]

/-! ## Unions and intersections -/

/-- A literal stands behind the same aliases. -/
theorem unaliased_alter_eq_literal {value : Literal} :
    (t : Ty) → ((t.alter χ).unaliased = .literal value ↔ t.unaliased = .literal value)
  | .aliased name args target => by
      have htarget (u : Ty) : (χ.target name (alterAll χ args) u).unaliased = .literal value ↔
          u.unaliased = .literal value := by
        cases u with
        | object => simp only [Alteration.target, unaliased, reduceCtorEq]
        | _ => rfl
      rw [alter, unaliased, unaliased]
      exact (htarget _).trans (unaliased_alter_eq_literal target)
  | .literal _ => Iff.rfl
  | .primitive _ | .union _ | .intersection _ | .array .. | .tuple .. | .function _ | .object _
  | .reference .. | .param _ | .named .. | .verbatim _ => by
      simp only [alter, unaliased, reduceCtorEq]

/-- The properties of altered types can be listed if those of the types can. -/
theorem isCallableOnly_alter (o : ObjectTy) : (o.alter χ).isCallableOnly = o.isCallableOnly := by
  obtain ⟨ps, cs, ks, is⟩ := o
  simp only [ObjectTy.isCallableOnly, ObjectTy.alter, Property.alterAll_eq_map,
    FunctionTy.alterAll_eq_map, IndexTy.alterAll_eq_map, List.isEmpty_map]

end Ty

mutual

@[simp] theorem Ty.isStructured_alter : (t : Ty) → (t.alter χ).isStructured = t.isStructured
  | .object o => by simp only [Ty.alter, Ty.isStructured, Ty.isCallableOnly_alter]
  | .aliased name args target => by
      have htarget (u : Ty) :
          (χ.target name (Ty.alterAll χ args) u).isStructured = u.isStructured := by
        cases u with
        | object o =>
            simp only [Alteration.target, Ty.isStructured]
            split
            · rw [ObjectTy.isCallableOnly_arrange]
            · rfl
        | _ => rfl
      rw [Ty.alter, Ty.isStructured, Ty.isStructured]
      exact (htarget _).trans target.isStructured_alter
  | .intersection members => by
      simp only [Ty.alter, Ty.isStructured, Ty.allStructured_alter members]
  | .primitive _ | .literal _ | .union _ | .array .. | .tuple .. | .function _ | .reference ..
  | .param _ | .named .. | .verbatim _ => by simp only [Ty.alter, Ty.isStructured]

theorem Ty.allStructured_alter : (ts : List Ty) →
    Ty.allStructured (Ty.alterAll χ ts) = Ty.allStructured ts
  | [] => rfl
  | t :: rest => by
      simp only [Ty.alterAll, Ty.allStructured, t.isStructured_alter, Ty.allStructured_alter rest]

end

namespace Ty

variable {ts : List Ty}

@[simp] theorem mem_map_alter {t : Ty} : t.alter χ ∈ ts.map (alter χ) ↔ t ∈ ts :=
  List.mem_map_of_injective alter_injective

@[simp] theorem primitive_mem_map_alter {p : Primitive} :
    .primitive p ∈ ts.map (alter χ) ↔ .primitive p ∈ ts :=
  mem_map_alter (t := .primitive p)

@[simp] theorem literal_mem_map_alter {value : Literal} :
    .literal value ∈ ts.map (alter χ) ↔ .literal value ∈ ts :=
  mem_map_alter (t := .literal value)

theorem insertLast_alter (ts : List Ty) (t : Ty) :
    insertLast (ts.map (alter χ)) (t.alter χ) = (insertLast ts t).map (alter χ) := by
  simp only [insertLast, mem_map_alter, apply_ite (List.map (alter χ)), List.map_append,
    List.map_cons, List.map_nil]

theorem distinct_alter (ts : List Ty) :
    distinct (ts.map (alter χ)) = (distinct ts).map (alter χ) := by
  have hfold (kept : List Ty) : (ts.map (alter χ)).foldl insertLast (kept.map (alter χ)) =
      (ts.foldl insertLast kept).map (alter χ) := by
    induction ts generalizing kept with
    | nil => rfl
    | cons t rest ih =>
        rw [List.map_cons, List.foldl_cons, List.foldl_cons, insertLast_alter, ih]
  exact hfold []

theorem unionMembers_alter (t : Ty) :
    (t.alter χ).unionMembers = t.unionMembers.map (alter χ) := by
  cases t with
  | union ts => rw [alter, unionMembers, unionMembers, alterAll_eq_map]
  | primitive p => cases p <;> rfl
  | _ => rfl

theorem intersectionMembers_alter (t : Ty) :
    (t.alter χ).intersectionMembers = t.intersectionMembers.map (alter χ) := by
  cases t with
  | intersection ts => rw [alter, intersectionMembers, intersectionMembers, alterAll_eq_map]
  | _ => rfl

theorem base?_alter (t : Ty) : (t.alter χ).base? = t.base? := by
  cases t <;> rfl

theorem base?_eq_primitive {t base : Ty} (h : t.base? = some base) :
    ∃ p, base = .primitive p := by
  unfold base? at h
  split at h <;> cases h <;> exact ⟨_, rfl⟩

theorem joinBooleans_alter (ts : List Ty) :
    joinBooleans (ts.map (alter χ)) = (joinBooleans ts).map (alter χ) := by
  simp only [joinBooleans, literal_mem_map_alter]
  split
  · rw [← distinct_alter, List.map_map, List.map_map]
    refine congrArg distinct (List.map_congr_left fun t _ ↦ ?_)
    cases t with
    | literal value => cases value <;> rfl
    | _ => rfl
  · rfl

theorem absorbLiterals_alter (ts : List Ty) :
    absorbLiterals (ts.map (alter χ)) = (absorbLiterals ts).map (alter χ) := by
  unfold absorbLiterals
  rw [List.filter_map]
  refine congrArg (List.map _) (List.filter_congr fun t _ ↦ ?_)
  simp only [Function.comp_apply, base?_alter]
  split
  next base hbase =>
    obtain ⟨p, rfl⟩ := base?_eq_primitive hbase
    simp only [primitive_mem_map_alter]
  next => rfl

theorem unionKey_alter (t : Ty) : (t.alter χ).unionKey = t.unionKey := by
  have hrank : (t.alter χ).unionRank = t.unionRank := by cases t <;> rfl
  rw [unionKey, unionKey, hrank, render_alter]

theorem sortMembers_alter (ts : List Ty) :
    sortMembers (ts.map (alter χ)) = (sortMembers ts).map (alter χ) := by
  refine (List.map_mergeSort fun t _ u _ ↦ ?_).symm
  rw [unionKey_alter, unionKey_alter]

theorem unionOf_alter (ts : List Ty) :
    unionOf (ts.map (alter χ)) = (unionOf ts).alter χ := by
  match ts with
  | [] | [_] => rfl
  | _ :: _ :: _ => simp [unionOf, alter]

theorem join_alter (ts : List Ty) : join (ts.map (alter χ)) = (join ts).alter χ := by
  have hflat : (ts.map (alter χ)).flatMap unionMembers =
      (ts.flatMap unionMembers).map (alter χ) := by
    rw [List.flatMap_map, List.map_flatMap]
    exact List.flatMap_congr fun t _ ↦ unionMembers_alter t
  simp only [join, hflat, distinct_alter, primitive_mem_map_alter, joinBooleans_alter,
    absorbLiterals_alter, sortMembers_alter, unionOf_alter, apply_ite (alter χ)]
  rfl

theorem isNullable_alter (t : Ty) : (t.alter χ).isNullable = t.isNullable := by
  have hprimitive (p : Primitive) : t.alter χ = .primitive p ↔ t = .primitive p :=
    alter_inj (u := .primitive p)
  simp only [isNullable, hprimitive]

theorem widenNullables_alter (t : Ty) :
    (t.alter χ).widenNullables = t.widenNullables.alter χ := by
  cases t with
  | union ts =>
      have hkept : (ts.map (alter χ)).filter (!·.isNullable) =
          (ts.filter (!·.isNullable)).map (alter χ) := by
        simp only [List.filter_map, Function.comp_def, isNullable_alter]
      have hnullable : (ts.map (alter χ)).filter isNullable =
          (ts.filter isNullable).map (alter χ) := by
        simp only [List.filter_map, Function.comp_def, isNullable_alter]
      simp only [alter, widenNullables, alterAll_eq_map, hkept, hnullable]
      cases ts.filter (!·.isNullable) with
      | nil => exact join_alter _
      | cons t rest => exact join_alter (t :: rest)
  | _ => rfl

theorem meet_alter (ts : List Ty) : meet (ts.map (alter χ)) = (meet ts).alter χ := by
  have hflat : (ts.map (alter χ)).flatMap intersectionMembers =
      (ts.flatMap intersectionMembers).map (alter χ) := by
    rw [List.flatMap_map, List.map_flatMap]
    exact List.flatMap_congr fun t _ ↦ intersectionMembers_alter t
  simp only [meet, hflat, distinct_alter]
  match distinct (ts.flatMap intersectionMembers) with
  | [] | [_] => rfl
  | _ :: _ :: _ => simp [alter]

end Ty

/-! ## Members -/

namespace Property

variable (p q : Property)

@[simp] theorem type_alter : (p.alter χ).type = p.type.alter χ := by cases p; rfl

theorem meet_alter : (q.alter χ).meet (p.alter χ) = (q.meet p).alter χ := by
  have htype := Ty.meet_alter (χ := χ) [p.type, q.type]
  obtain ⟨_, _, _, _, t⟩ := p
  obtain ⟨_, _, _, _, u⟩ := q
  simp only [meet, alter, ← htype, List.map_cons, List.map_nil]

theorem overload_alter (f : FunctionTy) :
    (p.alter χ).overload (f.alter χ) = (p.overload f).alter χ := by
  obtain ⟨name, optional, readonly, isMethod, t⟩ := p
  cases isMethod with
  | false => rfl
  | true =>
      cases t with
      | object o =>
          obtain ⟨ps, cs, ks, is⟩ := o
          simp [overload, alter, Ty.alter, ObjectTy.alter, ObjectTy.empty]
      | _ => rfl

end Property

def Member.alter (χ : Alteration) : Member → Member
  | .property name optional readonly type => .property name optional readonly (type.alter χ)
  | .method name optional f => .method name optional (f.alter χ)
  | .call f => .call (f.alter χ)
  | .construct f => .construct (f.alter χ)
  | .index i => .index (i.alter χ)
  | .getter name type => .getter name (type.alter χ)
  | .setter name type => .setter name (type.alter χ)

namespace Members

variable {ps : List Property}

theorem has_alter (name : String) (ps : List Property) :
    has name (ps.map (Property.alter χ)) = has name ps := by
  simp [has, Function.comp_def]

theorem change_alter {f g : Property → Property}
    (h : ∀ p : Property, g (p.alter χ) = (f p).alter χ) (new : Property) (ps : List Property) :
    change g (new.alter χ) (ps.map (Property.alter χ)) =
      (change f new ps).map (Property.alter χ) := by
  unfold change
  rw [Property.name_alter, has_alter]
  split
  · rw [List.map_map, List.map_map]
    refine List.map_congr_left fun p _ ↦ ?_
    simp only [Function.comp_apply, Property.name_alter]
    split
    · exact h p
    · rfl
  · simp

theorem addNew_alter (ps : List Property) (p : Property) :
    addNew (ps.map (Property.alter χ)) (p.alter χ) =
      (addNew ps p).map (Property.alter χ) :=
  change_alter (f := id) (g := id) (fun _ ↦ rfl) p ps

theorem addMeet_alter (ps : List Property) (p : Property) :
    addMeet (ps.map (Property.alter χ)) (p.alter χ) =
      (addMeet ps p).map (Property.alter χ) :=
  change_alter (fun q ↦ Property.meet_alter q p) p ps

theorem addMember_alter (ps : List Property) (m : Member) :
    addMember (ps.map (Property.alter χ)) (m.alter χ) =
      (addMember ps m).map (Property.alter χ) := by
  cases m with
  | property name optional readonly type =>
      exact addNew_alter ps ⟨name, optional, readonly, false, type⟩
  | method name optional f =>
      exact change_alter (fun p ↦ p.overload_alter f) ⟨name, optional, false, true,
        .function f⟩ ps
  | getter name type =>
      exact change_alter (f := .withGetter type) (g := .withGetter (type.alter χ))
        (fun ⟨_, _, _, _, _⟩ ↦ rfl) ⟨name, false, true, false, type⟩ ps
  | setter name type =>
      exact change_alter (f := .withSetter) (g := .withSetter) (fun ⟨_, _, _, _, _⟩ ↦ rfl)
        ⟨name, false, false, false, type⟩ ps
  | call | construct | index => rfl

/-- A list is collected alike if each step is. -/
theorem foldl_alter {α : Type} {r : α → α} {add : List Property → α → List Property}
    (h : ∀ ps x, add (ps.map (Property.alter χ)) (r x) = (add ps x).map (Property.alter χ))
    (xs : List α) (ps : List Property) :
    (xs.map r).foldl add (ps.map (Property.alter χ)) =
      (xs.foldl add ps).map (Property.alter χ) := by
  induction xs generalizing ps with
  | nil => rfl
  | cons x rest ih => rw [List.map_cons, List.foldl_cons, List.foldl_cons, h, ih]

theorem toObject_alter (ms : List Member) :
    toObject (ms.map (Member.alter χ)) = (toObject ms).alter χ := by
  have hproperties := foldl_alter (χ := χ) addMember_alter ms []
  have hcall (m : Member) : call? (m.alter χ) = (call? m).map (FunctionTy.alter χ) := by
    cases m <;> rfl
  have hconstruct (m : Member) :
      construct? (m.alter χ) = (construct? m).map (FunctionTy.alter χ) := by
    cases m <;> rfl
  have hindex (m : Member) : index? (m.alter χ) = (index? m).map (IndexTy.alter χ) := by
    cases m <;> rfl
  rw [List.map_nil] at hproperties
  simp only [toObject, ObjectTy.alter, hproperties, List.filterMap_map, List.map_filterMap,
    Function.comp_def, hcall, hconstruct, hindex, Property.alterAll_eq_map,
    FunctionTy.alterAll_eq_map, IndexTy.alterAll_eq_map]

end Members

end PluginSurface
