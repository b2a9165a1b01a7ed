import Mathlib.Logic.Function.Iterate
import PluginSurface.Proofs.Ty.Elementary

/-!
# The readonly marks of nested arrays

A readonly array or tuple is written without parentheses where it is the element of an array, so
its mark reads as if it stood on the outermost array. The hoisted type has the marks of each nest
of arrays on the outermost levels.

Main statement: `Ty.render_hoisted`, a type and its hoisted form have the same text.
-/

namespace PluginSurface

namespace Ty

/-! ## Hoisting -/

/-- How many levels of a nest of arrays, the tuple in it included, are readonly. -/
def marks : Ty → Nat
  | .array element readonly => readonly.toNat + element.marks
  | .tuple _ readonly => readonly.toNat
  | _ => 0

/-- How many levels of a nest of arrays can be readonly. -/
def levels : Ty → Nat
  | .array element _ => element.levels + 1
  | .tuple .. => 1
  | _ => 0

/-- Makes the outermost level readonly that is not. -/
def markOuter : Ty → Ty
  | .array element false => .array element true
  | .array element true => .array element.markOuter true
  | .tuple items _ => .tuple items true
  | t => t

mutual

/-- The type without the marks of its nest of arrays, and with all nests further inside hoisted. -/
def bare : Ty → Ty
  | .array element _ => .array element.bare false
  | .tuple items _ => .tuple (hoistItems items) false
  | .union members => .union (hoistAll members)
  | .intersection members => .intersection (hoistAll members)
  | .function f => .function (hoistSignature f)
  | t => t

def hoistAll : List Ty → List Ty
  | [] => []
  | t :: rest => markOuter^[t.marks] t.bare :: hoistAll rest

def hoistItems : List TupleItem → List TupleItem
  | [] => []
  | ⟨label, optional, rest, type⟩ :: items =>
    ⟨label, optional, rest, markOuter^[type.marks] type.bare⟩ :: hoistItems items

def hoistParams : List ParamTy → List ParamTy
  | [] => []
  | ⟨name, optional, rest, type⟩ :: ps =>
    ⟨name, optional, rest, markOuter^[type.marks] type.bare⟩ :: hoistParams ps

def hoistSignature : FunctionTy → FunctionTy
  | ⟨isConstructor, isAbstract, typeParams, params, result⟩ =>
    ⟨isConstructor, isAbstract, typeParams, hoistParams params,
      markOuter^[result.marks] result.bare⟩

end

/-- The type with the marks of each nest of arrays on its outermost levels. -/
def hoisted (t : Ty) : Ty := markOuter^[t.marks] t.bare

theorem hoistAll_eq_map (ts : List Ty) : hoistAll ts = ts.map hoisted := by
  induction ts with
  | nil => rfl
  | cons t rest ih => rw [hoistAll, ih, List.map_cons, hoisted]

theorem hoistItems_eq_map (items : List TupleItem) :
    hoistItems items = items.map fun i ↦ { i with type := i.type.hoisted } := by
  induction items with
  | nil => rfl
  | cons item rest ih =>
      obtain ⟨label, optional, rest, type⟩ := item
      rw [hoistItems, ih, List.map_cons, hoisted]

theorem hoistParams_eq_map (ps : List ParamTy) :
    hoistParams ps = ps.map fun p ↦ { p with type := p.type.hoisted } := by
  induction ps with
  | nil => rfl
  | cons p rest ih =>
      obtain ⟨name, optional, rest, type⟩ := p
      rw [hoistParams, ih, List.map_cons, hoisted]

/-! ## Its text -/

/-- The text of so many marks. -/
def markText : Nat → String
  | 0 => ""
  | n + 1 => "readonly " ++ markText n

theorem markText_add (m n : Nat) : markText (m + n) = markText m ++ markText n := by
  induction m with
  | zero => simp [markText]
  | succ m ih => rw [Nat.succ_add, markText, markText, ih, String.append_assoc]

theorem markText_toNat (b : Bool) : markText b.toNat = if b then "readonly " else "" := by
  cases b <;> simp [markText]

theorem renderOperand_array (t : Ty) (b : Bool) :
    (array t b).renderOperand = markText b.toNat ++ t.renderOperand ++ "[]" := by
  rw [markText_toNat]
  rfl

theorem renderOperand_tuple (items : List TupleItem) (b : Bool) :
    (tuple items b).renderOperand =
      markText b.toNat ++ "[" ++ ", ".intercalate (renderItems items) ++ "]" := by
  rw [markText_toNat]
  rfl

theorem renderOperand_of_not_needsParens {t : Ty} (h : t.needsParens = false) :
    t.renderOperand = t.render := by
  simp [renderOperand, h, parenthesized]

/-- A level that is made readonly puts one more mark in front of the text. -/
theorem renderOperand_markOuter {t : Ty} (h : t.marks < t.levels) :
    (markOuter t).renderOperand = "readonly " ++ t.renderOperand ∧
      (markOuter t).marks = t.marks + 1 ∧ (markOuter t).levels = t.levels := by
  induction t using markOuter.induct with
  | case1 element =>
      refine ⟨?_, ?_, rfl⟩
      · simp [markOuter, renderOperand_array, markText, String.append_assoc]
      · simp [markOuter, marks, Nat.add_comm]
  | case2 element ih =>
      simp only [marks, levels, Bool.toNat_true] at h
      obtain ⟨htext, hmarks, hlevels⟩ := ih (by omega)
      refine ⟨?_, ?_, ?_⟩
      · simp [markOuter, renderOperand_array, htext, markText, String.append_assoc]
      · simp only [markOuter, marks, hmarks]
        omega
      · simp only [markOuter, levels, hlevels]
  | case3 items readonly =>
      cases readonly with
      | true => simp [marks, levels] at h
      | false =>
          refine ⟨?_, rfl, rfl⟩
          simp only [markOuter, renderOperand_tuple, Bool.toNat_true, Bool.toNat_false, markText,
            String.append_empty, String.empty_append, String.append_assoc]
  | case4 t _ _ _ => cases t <;> simp_all [levels]

theorem renderOperand_iterate {t : Ty} {n : Nat} (h : t.marks + n ≤ t.levels) :
    (markOuter^[n] t).renderOperand = markText n ++ t.renderOperand := by
  induction n generalizing t with
  | zero => simp [markText]
  | succ n ih =>
      obtain ⟨htext, hmarks, hlevels⟩ := renderOperand_markOuter (t := t) (by omega)
      rw [Function.iterate_succ_apply, ih (by omega), htext, ← String.append_assoc,
        show markText n ++ "readonly " = markText (n + 1) by
          rw [markText_add]; simp [markText]]

theorem marks_le_levels (t : Ty) : t.marks ≤ t.levels := by
  induction t using marks.induct with
  | case1 element readonly ih =>
      have hone : readonly.toNat ≤ 1 := Bool.toNat_le readonly
      simp only [marks, levels]
      omega
  | case2 items readonly => exact Bool.toNat_le readonly
  | case3 t _ _ => cases t <;> simp_all [marks]

theorem marks_bare (t : Ty) : t.bare.marks = 0 := by
  induction t using marks.induct with
  | case1 element readonly ih => simp [bare, marks, ih]
  | case2 items readonly => rfl
  | case3 t _ _ => cases t <;> simp_all [bare, marks]

theorem levels_bare (t : Ty) : t.bare.levels = t.levels := by
  induction t using marks.induct with
  | case1 element readonly ih => simp [bare, levels, ih]
  | case2 items readonly => rfl
  | case3 t _ _ => cases t <;> simp_all [bare, levels]

theorem renderOperand_hoisted (t : Ty) :
    t.hoisted.renderOperand = markText t.marks ++ t.bare.renderOperand := by
  refine renderOperand_iterate ?_
  rw [marks_bare, levels_bare, Nat.zero_add]
  exact marks_le_levels t

/-- What readonly marks do not change is the same of the hoisted type and of the bare one. -/
theorem apply_hoisted {α : Type*} {f : Ty → α} (hf : ∀ u : Ty, f u.markOuter = f u) (t : Ty) :
    f t.hoisted = f t.bare := by
  have hiterate : ∀ (n : Nat) (u : Ty), f (markOuter^[n] u) = f u := by
    intro n
    induction n with
    | zero => exact fun _ ↦ rfl
    | succ n ih => exact fun u ↦ (ih _).trans (hf u)
  exact hiterate _ _

theorem isFunctionLike_hoisted (t : Ty) : t.hoisted.isFunctionLike = t.isFunctionLike := by
  have hmark : ∀ u : Ty, u.markOuter.isFunctionLike = u.isFunctionLike := by
    intro u
    cases u using markOuter.induct <;> simp_all [markOuter, isFunctionLike]
  rw [apply_hoisted hmark]
  cases t <;> rfl

theorem needsParens_hoisted (t : Ty) : t.hoisted.needsParens = t.needsParens := by
  have hmark : ∀ u : Ty, u.markOuter.needsParens = u.needsParens := by
    intro u
    cases u using markOuter.induct <;> simp_all [markOuter, needsParens, isFunctionLike]
  rw [apply_hoisted hmark]
  cases t <;> rfl

/-- A type as a member of a union. -/
def renderAlternative (t : Ty) : String := parenthesized t.isFunctionLike t.render

theorem renderUnion_eq_map (ts : List Ty) : renderUnion ts = ts.map renderAlternative := by
  induction ts with
  | nil => rfl
  | cons t rest ih => rw [renderUnion, ih, List.map_cons, renderAlternative]

theorem renderOperands_eq_map (ts : List Ty) : renderOperands ts = ts.map renderOperand := by
  induction ts with
  | nil => rfl
  | cons t rest ih => rw [renderOperands, ih, List.map_cons, renderOperand]

theorem renderItems_eq_map (items : List TupleItem) :
    renderItems items = items.map TupleItem.render := by
  induction items with
  | nil => rfl
  | cons item rest ih => rw [renderItems, ih, List.map_cons]

theorem renderParamTys_eq_map (ps : List ParamTy) : renderParamTys ps = ps.map ParamTy.render := by
  induction ps with
  | nil => rfl
  | cons p rest ih => rw [renderParamTys, ih, List.map_cons]

theorem hoisted_union (ts : List Ty) : (union ts).hoisted = .union (ts.map hoisted) := by
  rw [← hoistAll_eq_map]
  rfl

theorem hoisted_intersection (ts : List Ty) :
    (intersection ts).hoisted = .intersection (ts.map hoisted) := by
  rw [← hoistAll_eq_map]
  rfl

theorem hoisted_function (f : FunctionTy) :
    (function f).hoisted = .function { f with
      params := f.params.map fun p ↦ { p with type := p.type.hoisted }
      result := f.result.hoisted } := by
  obtain ⟨isConstructor, isAbstract, typeParams, params, result⟩ := f
  rw [← hoistParams_eq_map]
  rfl

theorem bare_tuple (items : List TupleItem) (b : Bool) :
    (tuple items b).bare = .tuple (items.map fun i ↦
      { i with type := i.type.hoisted }) false := by
  rw [← hoistItems_eq_map]
  rfl

/-- Hoisting the marks of an elementary type does not show in its text. -/
theorem render_hoisted {t : Ty} (h : t.Elementary) : t.hoisted.render = t.render := by
  have hoperand : ∀ {u : Ty}, u.hoisted.render = u.render →
      u.hoisted.renderOperand = u.renderOperand := by
    intro u hu
    rw [renderOperand, renderOperand, needsParens_hoisted, hu]
  induction h with
  | primitive p => rfl
  | literal _ => rfl
  | @array t readonly _ ih =>
      have hbare : markText t.marks ++ t.bare.renderOperand = t.renderOperand := by
        rw [← renderOperand_hoisted, hoperand ih]
      rw [← renderOperand_of_not_needsParens (needsParens_hoisted _),
        ← renderOperand_of_not_needsParens (t := array t readonly) rfl, renderOperand_hoisted,
        bare, renderOperand_array, renderOperand_array, marks, markText_add, ← hbare]
      simp only [Bool.toNat_false, markText, String.empty_append, String.append_assoc]
  | @tuple items readonly _ _ ih =>
      rw [← renderOperand_of_not_needsParens (needsParens_hoisted _),
        ← renderOperand_of_not_needsParens (t := tuple items readonly) rfl, renderOperand_hoisted,
        bare_tuple]
      have hitems : renderItems (items.map fun i ↦ { i with type := i.type.hoisted }) =
          renderItems items := by
        rw [renderItems_eq_map, renderItems_eq_map, List.map_map]
        refine List.map_congr_left fun i hi ↦ ?_
        have htype := ih i hi
        obtain ⟨label, optional, rest, type⟩ := i
        simp only [Function.comp_apply, TupleItem.render, htype]
      simp only [marks, renderOperand_tuple, hitems, Bool.toNat_false, markText,
        String.empty_append, String.append_assoc]
  | @function f _ _ _ _ ihparams ihresult =>
      obtain ⟨isConstructor, isAbstract, typeParams, params, result⟩ := f
      rw [hoisted_function]
      have hparams : renderParamTys (params.map fun p ↦ { p with type := p.type.hoisted }) =
          renderParamTys params := by
        rw [renderParamTys_eq_map, renderParamTys_eq_map, List.map_map]
        refine List.map_congr_left fun p hp ↦ ?_
        have htype := ihparams p hp
        obtain ⟨name, optional, rest, type⟩ := p
        simp only [Function.comp_apply, ParamTy.render, htype]
      simp only [render, FunctionTy.render, hparams, ihresult]
  | @union ts _ _ _ ih =>
      rw [hoisted_union, render, render, renderUnion_eq_map, renderUnion_eq_map, List.map_map]
      refine congrArg _ (List.map_congr_left fun t ht ↦ ?_)
      simp only [Function.comp_apply, renderAlternative, isFunctionLike_hoisted, ih t ht]
  | @intersection ts _ _ _ ih =>
      rw [hoisted_intersection, render, render, renderOperands_eq_map, renderOperands_eq_map,
        List.map_map]
      exact congrArg _ (List.map_congr_left fun t ht ↦ hoperand (ih t ht))

end Ty

end PluginSurface
