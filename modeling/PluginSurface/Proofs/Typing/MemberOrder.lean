import Mathlib.Algebra.BigOperators.Group.List.Basic
import PluginSurface.Proofs.Binding.Counting
import PluginSurface.Proofs.Typing.Alike

/-!
# The order of members

The members of an interface, or of a type in braces that an alias stands for, may be put in another
order. Those of an interface may be in any order: while they are resolved it is open, so nothing in
them is looked up in its own members, and each property is found by its name, not by its place. Main
statements: `Reordering.Permutes.typeAt_eq` and `Reordering.Permutes.ownProperties_perm`.
-/

namespace PluginSurface

/-- The name of the interface or alias that is declared, with its place in the text. -/
def DeclarationKind.typeName? : DeclarationKind → Option Name
  | .interfaceDecl i => some i.name
  | .aliasDecl a => some a.name
  | _ => none

/-- The members of a declaration in braces. -/
def DeclarationKind.members? : DeclarationKind → Option (List TypeMember)
  | .interfaceDecl i => some i.members
  | .aliasDecl a => a.type.members?
  | _ => none

/-- New members for the interface or alias that is declared with a name in a file. -/
structure Reordering where
  file : Nat
  name : Name
  members : List TypeMember

namespace Reordering

variable (r : Reordering)

def onInterface (i : InterfaceDecl) : InterfaceDecl :=
  if i.name = r.name then { i with members := r.members } else i

/-- An alias for something else than a type in braces stays as it is. -/
def onAlias (a : AliasDecl) : AliasDecl :=
  if a.name = r.name ∧ a.type.members?.isSome then { a with type := .members r.members } else a

theorem name_onInterface (i : InterfaceDecl) : (r.onInterface i).name = i.name := by
  unfold onInterface
  split <;> rfl

theorem name_onAlias (a : AliasDecl) : (r.onAlias a).name = a.name := by
  unfold onAlias
  split <;> rfl

def edits (file : Nat) : TypeEdit :=
  if file = r.file then ⟨r.onInterface, r.onAlias, r.name_onInterface,
    r.name_onAlias⟩ else .none

/-- The declaration `k` is the only one with the name in the file, and the new members are its
members in any order, with a key of its own for each one that has a name. -/
structure Permutes (p : Program) (k : DeclarationKind) : Prop where
  once : ∃ u, p.units[r.file]? = some u ∧
    (u.tree.allStatements.filterMap Statement.typeKind?).filter (·.typeName? = some r.name) = [k]
  perm : ∃ ms, k.members? = some ms ∧ r.members.Perm ms ∧
    (ms.filterMap TypeMember.key?).Nodup

end Reordering

/-- The program with the new members. -/
def Program.reorder (p : Program) (r : Reordering) : Program := p.edit r.edits

theorem Program.mirrors_edit (p : Program) (edits : Nat → TypeEdit) :
    p.Mirrors edits True (p.edit edits) where
  options := rfl
  units := by
    rw [zipIdx_edit, List.forall₂_map_right_iff]
    exact List.forall₂_same.mpr fun x _ ↦ ⟨rfl, rfl, rfl, fun _ ↦ rfl⟩
  resolvedModule := p.resolvedModule_edit edits

namespace Reordering

variable {r : Reordering} {p : Program} {k : DeclarationKind}

theorem typeName?_isType {k : DeclarationKind} {name : Name} (h : k.typeName? = some name) :
    k.isType := by
  cases k with
  | interfaceDecl i | aliasDecl a => trivial
  | _ => cases h

/-- Whether a declaration is the one that gets new members. -/
def test (r : Reordering) : TypeTest where
  holds file k := file = r.file ∧ k.typeName? = some r.name
  isType _ _ h := typeName?_isType (of_decide_eq_true h).2

/-- A sum over numbered entries, of which only those with one number count. -/
theorem sum_zipIdx_le_one {α : Type} {f : α × Nat → Nat} (file : Nat)
    (hzero : ∀ x n, n ≠ file → f (x, n) = 0) (l : List α) (start : Nat)
    (hone : ∀ i x, l[i]? = some x → start + i = file → f (x, file) ≤ 1) :
    ((l.zipIdx start).map f).sum ≤ 1 := by
  induction l generalizing start with
  | nil => simp
  | cons a rest ih =>
      rw [List.zipIdx_cons, List.map_cons, List.sum_cons]
      by_cases hstart : start = file
      · subst hstart
        have hrest : ((rest.zipIdx (start + 1)).map f).sum = 0 := by
          refine List.sum_eq_zero fun n hn ↦ ?_
          obtain ⟨⟨x, i⟩, hx, rfl⟩ := List.mem_map.mp hn
          exact hzero x i (Nat.lt_of_succ_le (List.le_snd_of_mem_zipIdx hx)).ne'
        rw [hrest]
        exact hone 0 a rfl (Nat.add_zero start)
      · rw [hzero a start hstart, Nat.zero_add]
        exact ih (start + 1) fun i x hx hi ↦ hone (i + 1) x hx (by omega)

namespace Permutes

variable (h : r.Permutes p k)

include h

theorem name : k.typeName? = some r.name := by
  obtain ⟨u, _, honce⟩ := h.once
  have hmem : k ∈ (u.tree.allStatements.filterMap Statement.typeKind?).filter
      (·.typeName? = some r.name) := honce ▸ List.mem_cons_self
  simpa using (List.mem_filter.mp hmem).2

/-- A declaration of the binding with the name in the file is the one. -/
theorem eq_of_mem {id : Nat} {d : Declaration}
    (hd : d ∈ ((Binding.ofProgram p).symbol id).declarations) (hfile : d.file = r.file)
    (hname : d.kind.typeName? = some r.name) : d.kind = k := by
  obtain ⟨u, hu, s, hs, hkind⟩ :=
    Binding.exists_statement_of_mem hd (typeName?_isType hname)
  obtain ⟨u', hu', honce⟩ := h.once
  rw [hfile, hu'] at hu
  cases hu
  have hmem : d.kind ∈ (u.tree.allStatements.filterMap Statement.typeKind?).filter
      (·.typeName? = some r.name) :=
    List.mem_filter.mpr ⟨List.mem_filterMap.mpr ⟨s, hs, hkind⟩, by simpa using hname⟩
  rw [honce] at hmem
  exact List.mem_singleton.mp hmem

/-- What has the name in the file belongs to one symbol. -/
theorem symbol_unique {id id' : Nat} {d d' : Declaration}
    (hd : d ∈ ((Binding.ofProgram p).symbol id).declarations) (hfile : d.file = r.file)
    (hname : d.kind.typeName? = some r.name)
    (hd' : d' ∈ ((Binding.ofProgram p).symbol id').declarations) (hfile' : d'.file = r.file)
    (hname' : d'.kind.typeName? = some r.name) : id = id' := by
  refine Binding.eq_of_mem_of_mem (t := r.test) ?_ hd (decide_eq_true ⟨hfile, hname⟩) hd'
    (decide_eq_true ⟨hfile', hname'⟩)
  refine sum_zipIdx_le_one r.file (fun u file hne ↦ ?_) _ 0 fun i u hu hi ↦ ?_
  · refine List.countP_eq_zero.mpr fun s _ hs ↦ ?_
    obtain ⟨k, _, hk⟩ := (Option.any_eq_true _ _).mp hs
    exact hne (of_decide_eq_true hk).1
  · obtain ⟨u', hu', honce⟩ := h.once
    rw [Nat.zero_add] at hi
    rw [hi, Array.getElem?_toList, hu'] at hu
    cases hu
    have hcount := congrArg List.length honce
    rw [← List.countP_eq_length_filter, List.countP_filterMap] at hcount
    refine le_of_eq_of_le (List.countP_congr fun s _ ↦ ?_) hcount.le
    cases s.typeKind? <;> simp [test]

end Permutes

/-- The edits leave everything but the one declaration as it is. -/
theorem edits_onInterface_of_ne {file : Nat} {i : InterfaceDecl}
    (h : ¬(file = r.file ∧ i.name = r.name)) : (r.edits file).interfaces i = i := by
  unfold edits
  split
  next hfile => exact if_neg fun hname ↦ h ⟨hfile, hname⟩
  next => rfl

theorem edits_onAlias_of_ne {file : Nat} {a : AliasDecl}
    (h : ¬(file = r.file ∧ a.name = r.name)) : (r.edits file).aliases a = a := by
  unfold edits
  split
  next hfile => exact if_neg fun hname ↦ h ⟨hfile, hname.1⟩
  next => rfl

theorem edits_onInterface {i : InterfaceDecl} (hname : i.name = r.name) :
    (r.edits r.file).interfaces i = { i with members := r.members } := by
  rw [edits, if_pos rfl]
  exact if_pos hname

theorem edits_onAlias {a : AliasDecl} (hname : a.name = r.name) (hbraces : a.type.members?.isSome) :
    (r.edits r.file).aliases a = { a with type := .members r.members } := by
  rw [edits, if_pos rfl]
  exact if_pos ⟨hname, hbraces⟩

/-! ## Programs alike -/

/-- All symbols of a program and its edited form have equal names. -/
abbrev named (p : Program) (id : Nat) : Prop :=
  True ∨ ¬(Checker.ofProgram p).binding.IsFile id

theorem mentions_named {file scope : Nat} {ms : List Mention} :
    (Checker.ofProgram p).Mentions (named p) file scope ms :=
  fun _ _ _ _ ↦ .inl trivial

namespace Permutes

/-- Where an interface gets new members, types resolve alike and properties are the same under each
name. On trails on which the interface is open, properties are the same. -/
theorem alike_of_interface {i : InterfaceDecl} (h : r.Permutes p (.interfaceDecl i))
    {R : List Property → List Property → Prop} (hR : Members.Congruence R)
    {safe : TypeTrail → Prop}
    (htypes : ∀ trail id, safe trail → safe { trail with types := id :: trail.types })
    (hheritage : ∀ trail id, safe trail → safe { trail with heritage := id :: trail.heritage })
    (hsafe : (∀ id, ∀ d ∈ ((Binding.ofProgram p).symbol id).declarations, d.file = r.file →
        d.kind = .interfaceDecl i → ∀ trail, safe trail → id ∈ trail.heritage) ∨
      ∀ ps qs, Members.SameByName ps qs → R ps qs) :
    (Checker.ofProgram p).Alike R safe r.edits (named p) (Checker.ofProgram (p.reorder r)) where
  mirrors := Checker.mirrors_ofProgram (p.mirrors_edit r.edits)
  congruence := hR
  mentions _ _ _ := mentions_named
  safe_types := htypes
  safe_heritage := hheritage
  aliases id d hd a hkind := by
    refine edits_onAlias_of_ne fun heq ↦ ?_
    have hk := h.eq_of_mem hd heq.1 (by rw [hkind]; exact congrArg some heq.2)
    rw [hkind] at hk
    cases hk
  interfaces id d hd i' hkind := by
    by_cases heq : d.file = r.file ∧ i'.name = r.name
    · have hk := h.eq_of_mem hd heq.1 (by rw [hkind]; exact congrArg some heq.2)
      obtain rfl : i' = i := by
        rw [hkind] at hk
        exact DeclarationKind.interfaceDecl.inj hk
      refine .inr (hsafe.imp (fun hopen ↦ hopen id d hd heq.1 hkind) fun hR ↦ ⟨?_, hR⟩)
      rw [heq.1, edits_onInterface heq.2]
      obtain ⟨ms, hms, hperm, hkeys⟩ := h.perm
      cases hms
      exact ⟨rfl, rfl, TypeMember.sameByKey_of_perm hperm.symm hkeys⟩
    · exact .inl (edits_onInterface_of_ne heq)

end Permutes

end Reordering

/-! ## Own and inherited properties -/

namespace Members

theorem addNew_of_has {p : Property} {ps : List Property} (h : has p.name ps = true) :
    addNew ps p = ps := by
  unfold addNew change
  rw [if_pos h]
  conv_rhs => rw [← List.map_id ps]
  exact List.map_congr_left fun q _ ↦ by split <;> rfl

theorem addNew_of_not_has {p : Property} {ps : List Property} (h : has p.name ps = false) :
    addNew ps p = ps ++ [p] := by
  unfold addNew change
  rw [h]
  rfl

theorem has_append (name : String) (ps qs : List Property) :
    has name (ps ++ qs) = (has name ps || has name qs) := List.any_append

/-- What is added to a list are the new ones. -/
theorem foldl_addNew_append (own more qs : List Property) :
    qs.foldl addNew (own ++ more) =
      own ++ (qs.filter fun q ↦ !has q.name own).foldl addNew more := by
  induction qs generalizing more with
  | nil => rfl
  | cons q rest ih =>
      rw [List.foldl_cons, List.filter_cons]
      cases hown : has q.name own with
      | true =>
          rw [addNew_of_has (by rw [has_append, hown, Bool.true_or])]
          exact ih more
      | false =>
          cases hmore : has q.name more with
          | true =>
              rw [addNew_of_has (by rw [has_append, hmore, Bool.or_true]), ih]
              simp [addNew_of_has hmore]
          | false =>
              rw [addNew_of_not_has (by rw [has_append, hown, hmore]; rfl), List.append_assoc, ih]
              simp [addNew_of_not_has hmore]

end Members

namespace Checker

open Typing

variable (c : Checker)

/-- Answers the questions that the first rules ask. -/
def inner : TypeRules :=
  match c.trailLimit with
  | 0 => noRules
  | n + 1 => rulesWithin c n

theorem typing_eq : c.typing = rules c c.inner := by
  unfold typing inner
  cases c.trailLimit with
  | zero => rfl
  | succ n => rfl

/-- The properties that the declarations of a class or interface declare. -/
def ownProperties (id : Nat) (args : List Ty) : List Property :=
  (ownParts c c.inner ⟨[], []⟩ id args).1

/-- The properties of the types that a class or interface extends, except under the names that it
declares itself. -/
def inheritedProperties (id : Nat) (args : List Ty) : List Property :=
  (((ownParts c c.inner ⟨[], []⟩ id args).2.flatMap
    (c.inner.propertiesOf ⟨[], [id]⟩)).filter
    fun q ↦ !Members.has q.name (c.ownProperties id args)).foldl Members.addNew []

theorem propertiesOf_reference (id : Nat) (name : String) (args : List Ty) :
    c.propertiesOf (.reference id name args) =
      c.ownProperties id args ++ c.inheritedProperties id args := by
  have hfold := Members.foldl_addNew_append (c.ownProperties id args) []
    ((ownParts c c.inner ⟨[], []⟩ id args).2.flatMap (c.inner.propertiesOf ⟨[], [id]⟩))
  rw [List.append_nil] at hfold
  have hproperties : c.propertiesOf (.reference id name args) =
      declaredProperties c c.inner ⟨[], []⟩ id args := by
    unfold propertiesOf
    rw [typing_eq]
    simp only [rules, propertiesRule]
  rw [hproperties, declaredProperties_eq List.not_mem_nil]
  exact hfold

section

variable {R : List Property → List Property → Prop} {safe : TypeTrail → Prop}
  {named : Nat → Prop} {law : TypeRules → Prop} {c} {c' : Checker}
  (h : c.OpensAlike R safe named law c')

include h

theorem alike_inner : c.inner.Alike R safe c named c'.inner := by
  unfold inner
  rw [h.sameLinks.trailLimit]
  cases c.trailLimit with
  | zero => exact .refl h.congruence safe c named noRules
  | succ n => exact alike_rulesWithin h n

omit h in
theorem law_inner (hrules : ∀ ask, law (rules c ask)) (hnoRules : law noRules) : law c.inner := by
  unfold inner
  cases c.trailLimit with
  | zero => exact hnoRules
  | succ n => exact law_rulesWithin hrules n

theorem alike_typing : c.typing.Alike R safe c named c'.typing := by
  rw [typing_eq, typing_eq]
  exact alike_rules h (alike_inner h) (law_inner h.law_rules h.law_noRules)

end

end Checker

namespace Reordering.Permutes

open Typing

variable {r : Reordering} {p : Program}

/-! ## Interfaces -/

section

variable {i : InterfaceDecl} (h : r.Permutes p (.interfaceDecl i))

include h

theorem opensAlike_sameByName : (Checker.ofProgram p).OpensAlike Members.SameByName (fun _ ↦ True)
    (named p) TypeRules.Orderless (Checker.ofProgram (p.reorder r)) :=
  (h.alike_of_interface Members.congruence_sameByName (fun _ _ _ ↦ trivial)
    (fun _ _ _ ↦ trivial) (.inr fun _ _ h ↦ h)).opensAlike

theorem typeAt_eq (env : TypeEnv) (type : TypeExpr) :
    (Checker.ofProgram (p.reorder r)).typeAt env type = (Checker.ofProgram p).typeAt env type :=
  (Checker.alike_typing h.opensAlike_sameByName).typeAt _ env type trivial mentions_named

/-- The properties of each type are permuted. -/
theorem propertiesOf_perm (t : Ty) :
    ((Checker.ofProgram (p.reorder r)).propertiesOf t).Perm
      ((Checker.ofProgram p).propertiesOf t) :=
  ((Checker.alike_typing h.opensAlike_sameByName).propertiesOf _ t trivial).perm.symm

/-- The own properties of the interface are permuted, and the inherited ones stay as they are. -/
theorem ownProperties_perm {id : Nat} {d : Declaration}
    (hd : d ∈ ((Binding.ofProgram p).symbol id).declarations) (hfile : d.file = r.file)
    (hkind : d.kind = .interfaceDecl i) (args : List Ty) :
    ((Checker.ofProgram (p.reorder r)).ownProperties id args).Perm
        ((Checker.ofProgram p).ownProperties id args) ∧
      (Checker.ofProgram (p.reorder r)).inheritedProperties id args =
        (Checker.ofProgram p).inheritedProperties id args := by
  have hopen :
      (Checker.ofProgram p).Alike Eq (fun trail ↦ id ∈ trail.heritage) r.edits (named p)
      (Checker.ofProgram (p.reorder r)) := by
    refine h.alike_of_interface Members.congruence_eq (fun _ _ hid ↦ hid)
      (fun _ _ hid ↦ List.mem_cons_of_mem _ hid) (.inl ?_)
    intro id' d' hd' hfile' hkind' trail hid
    have hunique := h.symbol_unique hd hfile (by rw [hkind]; exact h.name) hd' hfile'
      (by rw [hkind']; exact h.name)
    exact hunique ▸ hid
  have hheld : id ∉ (⟨[], []⟩ : TypeTrail).heritage := List.not_mem_nil
  obtain ⟨hown, hbases⟩ := ownParts_alike h.opensAlike_sameByName
    (Checker.alike_inner h.opensAlike_sameByName)
    (Checker.law_inner (orderless_rules _) orderless_noRules) trivial hheld args
  have hproperties (t : Ty) := (Checker.alike_inner hopen.opensAlike).propertiesOf ⟨[], [id]⟩ t
    List.mem_cons_self
  refine ⟨hown.perm.symm, ?_⟩
  have hhas (name : String) :
      Members.has name ((Checker.ofProgram (p.reorder r)).ownProperties id args) =
        Members.has name ((Checker.ofProgram p).ownProperties id args) :=
    (hown.perm.any_eq).symm
  unfold Checker.inheritedProperties
  simp only [hhas, hbases]
  rw [funext hproperties]

end

end Reordering.Permutes

end PluginSurface
