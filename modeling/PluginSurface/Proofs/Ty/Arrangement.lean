import Mathlib.Data.List.Basic
import Mathlib.Data.Multiset.MapFold
import PluginSurface.Ty.Render

/-!
# Objects with their members in another order

An order for the entries of a list is given by the neighbours that are swapped one pair after
the other, so it can be taken for lists of any kind. Each permutation of a list comes from
one. Where an alias stands for an object, the names and texts of the members make out the
object up to their order.
-/

namespace PluginSurface

/-- An order for the entries of lists. Neighbours are swapped one pair after the other, each of them
given by the place of its first entry; where a list has no such pair, it stays as it is. -/
structure Arrangement where
  swaps : List Nat

namespace Arrangement

variable {α β : Type}

def swap : Nat → List α → List α
  | 0, a :: b :: rest => b :: a :: rest
  | n + 1, a :: rest => a :: swap n rest
  | _, l => l

def apply (a : Arrangement) (l : List α) : List α := a.swaps.foldl (fun l n ↦ swap n l) l

/-- The order from which the arrangement leads back. -/
def symm (a : Arrangement) : Arrangement := ⟨a.swaps.reverse⟩

theorem swap_swap (n : Nat) (l : List α) : swap n (swap n l) = l := by
  induction n generalizing l with
  | zero =>
      match l with
      | [] | [_] | _ :: _ :: _ => rfl
  | succ n ih =>
      match l with
      | [] => rfl
      | a :: rest => exact congrArg (a :: ·) (ih rest)

theorem swap_map (f : α → β) (n : Nat) (l : List α) : swap n (l.map f) = (swap n l).map f := by
  induction n generalizing l with
  | zero =>
      match l with
      | [] | [_] | _ :: _ :: _ => rfl
  | succ n ih =>
      match l with
      | [] => rfl
      | a :: rest => exact congrArg (f a :: ·) (ih rest)

theorem swap_perm (n : Nat) (l : List α) : (swap n l).Perm l := by
  induction n generalizing l with
  | zero =>
      match l with
      | [] | [_] => exact .refl _
      | a :: b :: rest => exact .swap a b rest
  | succ n ih =>
      match l with
      | [] => exact .refl _
      | a :: rest => exact (ih rest).cons a

theorem apply_map (a : Arrangement) (f : α → β) (l : List α) :
    a.apply (l.map f) = (a.apply l).map f := by
  unfold apply
  induction a.swaps generalizing l with
  | nil => rfl
  | cons n rest ih => rw [List.foldl_cons, List.foldl_cons, swap_map, ih]

theorem symm_apply (a : Arrangement) (l : List α) : a.symm.apply (a.apply l) = l := by
  unfold apply symm
  induction a.swaps generalizing l with
  | nil => rfl
  | cons n rest ih =>
      rw [List.foldl_cons, List.reverse_cons, List.foldl_append, ih, List.foldl_cons, swap_swap]
      rfl

theorem apply_perm (a : Arrangement) (l : List α) : (a.apply l).Perm l := by
  unfold apply
  induction a.swaps generalizing l with
  | nil => exact .refl l
  | cons n rest ih => exact (ih (swap n l)).trans (swap_perm n l)

theorem apply_append (a b : List Nat) (l : List α) :
    apply ⟨a ++ b⟩ l = apply ⟨b⟩ (apply ⟨a⟩ l) := List.foldl_append

/-- One place further on, the entries behind the first are arranged. -/
theorem apply_succ_cons (a : List Nat) (x : α) (l : List α) :
    apply ⟨a.map (· + 1)⟩ (x :: l) = x :: apply ⟨a⟩ l := by
  unfold apply
  induction a generalizing l with
  | nil => rfl
  | cons n rest ih => exact ih (swap n l)

/-- What is read off a permuted list is arranged, in one order for everything that is read off the
same entries. -/
theorem exists_of_perm (test : α → Bool) {l l' : List α} (h : l.Perm l') :
    ∃ a : Arrangement, ∀ {γ : Type} (f : α → Option γ), (∀ x, (f x).isSome = test x) →
      l'.filterMap f = a.apply (l.filterMap f) := by
  induction h with
  | nil => exact ⟨⟨[]⟩, fun _ _ ↦ rfl⟩
  | @cons x l l' _ ih =>
      obtain ⟨a, ha⟩ := ih
      cases hx : test x with
      | false =>
          refine ⟨a, fun f hf ↦ ?_⟩
          have hnone : f x = none := Option.not_isSome_iff_eq_none.mp (by rw [hf, hx]; nofun)
          rw [List.filterMap_cons_none hnone, List.filterMap_cons_none hnone, ha f hf]
      | true =>
          refine ⟨⟨a.swaps.map (· + 1)⟩, fun f hf ↦ ?_⟩
          obtain ⟨y, hy⟩ := Option.isSome_iff_exists.mp ((hf x).trans hx)
          rw [List.filterMap_cons_some hy, List.filterMap_cons_some hy, apply_succ_cons, ha f hf]
  | swap x y l =>
      cases hx : test x && test y with
      | false =>
          refine ⟨⟨[]⟩, fun f hf ↦ ?_⟩
          rw [← hf, ← hf] at hx
          cases hfx : f x <;> cases hfy : f y <;> simp [hfx, hfy, apply] at hx ⊢
      | true =>
          refine ⟨⟨[0]⟩, fun f hf ↦ ?_⟩
          rw [← hf, ← hf, Bool.and_eq_true] at hx
          obtain ⟨u, hu⟩ := Option.isSome_iff_exists.mp hx.1
          obtain ⟨v, hv⟩ := Option.isSome_iff_exists.mp hx.2
          simp [hu, hv, apply, swap]
  | trans _ _ ih ih' =>
      obtain ⟨a, ha⟩ := ih
      obtain ⟨b, hb⟩ := ih'
      refine ⟨⟨a.swaps ++ b.swaps⟩, fun f hf ↦ ?_⟩
      rw [apply_append, hb f hf, ha f hf]

end Arrangement

/-- An order for the members of an object, of each kind for themselves. -/
structure MemberOrder where
  properties : Arrangement
  calls : Arrangement
  constructs : Arrangement
  indexes : Arrangement

def MemberOrder.symm (m : MemberOrder) : MemberOrder :=
  ⟨m.properties.symm, m.calls.symm, m.constructs.symm, m.indexes.symm⟩

/-- What an alias stands for as it reads, if this is an object: the texts of the type arguments, and
the names and texts of the members in any order. -/
structure Outline where
  args : List String
  properties : Multiset (String × String)
  calls : Multiset String
  constructs : Multiset String
  indexes : Multiset String

namespace ObjectTy

def arrange (m : MemberOrder) (o : ObjectTy) : ObjectTy :=
  ⟨m.properties.apply o.properties, m.calls.apply o.calls, m.constructs.apply o.constructs,
    m.indexes.apply o.indexes⟩

def outline (args : List Ty) (o : ObjectTy) : Outline :=
  ⟨args.map Ty.render, o.properties.map fun p ↦ (p.name, p.render),
    o.calls.map FunctionTy.renderMember,
    o.constructs.map FunctionTy.renderMember, o.indexes.map IndexTy.render⟩

variable (m : MemberOrder) (o : ObjectTy)

theorem arrange_symm : (o.arrange m).arrange m.symm = o := by
  obtain ⟨ps, cs, ks, is⟩ := o
  simp only [arrange, MemberOrder.symm, Arrangement.symm_apply]

theorem outline_arrange (args : List Ty) : (o.arrange m).outline args = o.outline args := by
  simp only [outline, arrange, Outline.mk.injEq, Multiset.coe_eq_coe, true_and]
  exact ⟨(m.properties.apply_perm _).map _, (m.calls.apply_perm _).map _,
    (m.constructs.apply_perm _).map _, (m.indexes.apply_perm _).map _⟩

theorem isCallableOnly_arrange : (o.arrange m).isCallableOnly = o.isCallableOnly := by
  simp only [isCallableOnly, arrange, (m.properties.apply_perm _).isEmpty_eq,
    (m.calls.apply_perm _).isEmpty_eq, (m.constructs.apply_perm _).isEmpty_eq,
    (m.indexes.apply_perm _).isEmpty_eq]

end ObjectTy

end PluginSurface
