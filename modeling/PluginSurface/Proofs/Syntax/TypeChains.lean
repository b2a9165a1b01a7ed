import PluginSurface.Proofs.Syntax.Answers
import PluginSurface.Proofs.Syntax.Parts

/-!
# Chains of types

A chain of types leads from a type to one directly inside it, and so on. The brackets behind a type
make a type around it without opening a level; all other rules that make types around each other are
few on one level. So in a chain of types that are read there are at most five types for each level
that are no such suffixes, but any number of suffixes.

Main statement: `TypeGrammar.shallow_within`.
-/

namespace PluginSurface

open PluginSurface.Parser

namespace TypeExpr

/-- Whether the type is another one with brackets behind it. -/
def isSuffix : TypeExpr → Bool
  | .array _ | .indexed _ _ => true
  | _ => false

/-- Each type stands directly in the one before it. -/
def IsChain (types : List TypeExpr) : Prop := List.IsChain (fun t u ↦ u ∈ t.parts .all) types

/-- In chains that begin with the type at most `n` types are no suffixes. -/
def Shallow (n : Nat) (t : TypeExpr) : Prop :=
  ∀ more, IsChain (t :: more) → (t :: more).countP (!·.isSuffix) ≤ n

namespace Shallow

variable {m n : Nat} {t : TypeExpr}

theorem mono (h : Shallow m t) (hle : m ≤ n) : Shallow n t := fun more hmore ↦
  Nat.le_trans (h more hmore) hle

/-- What comes behind the first type of a chain begins with one of its parts. -/
theorem countP_le (hparts : ∀ part ∈ t.parts .all, Shallow n part) {more : List TypeExpr}
    (h : IsChain (t :: more)) : more.countP (!·.isSuffix) ≤ n := by
  cases more with
  | nil => exact Nat.zero_le n
  | cons part rest =>
      obtain ⟨hpart, hrest⟩ := List.isChain_cons_cons.mp h
      exact hparts part hpart rest hrest

theorem around (hparts : ∀ part ∈ t.parts .all, Shallow n part) : Shallow (n + 1) t := by
  intro more hmore
  have hle := countP_le hparts hmore
  rw [List.countP_cons]
  split <;> omega

theorem suffix (hsuffix : t.isSuffix = true) (hparts : ∀ part ∈ t.parts .all, Shallow n part) :
    Shallow n t := by
  intro more hmore
  rw [List.countP_cons_of_neg (by simp [hsuffix])]
  exact countP_le hparts hmore

/-- A chain is continued in front by the types around its first one. -/
theorem of_within {u : TypeExpr} (hwithin : u.Within .all t) (h : Shallow n t) : Shallow n u := by
  induction hwithin with
  | self => exact h
  | @part t part hpart _ ih =>
      refine ih fun more hmore ↦ ?_
      have hle := h (part :: more) (List.isChain_cons_cons.mpr ⟨hpart, hmore⟩)
      rw [List.countP_cons] at hle
      exact Nat.le_of_add_right_le hle

end Shallow

end TypeExpr

namespace TypeGrammar

open TypeExpr

variable {m k : Nat} {type : Parser TypeExpr}

/-- One more type around types of a list. -/
theorem allOf_shallow_mono {types : List TypeExpr} (h : AllOf (Shallow m) types) (hle : m ≤ k) :
    AllOf (Shallow k) types :=
  fun t ht ↦ (h t ht).mono hle

section

variable {P : TypeExpr → Prop} {signature : Signature} (h : AllOf P signature.types)

include h

theorem allOf_params : AllOf P (signature.params.flatMap Param.types) :=
  fun t ht ↦ h t (List.mem_append_left _ (List.mem_append_left _ ht))

theorem allOf_firstParam : AllOf P (signature.params.head?.toList.flatMap Param.types) := by
  intro t ht
  obtain ⟨p, hp, ht⟩ := List.mem_flatMap.mp ht
  have hp := List.mem_of_head? (Option.mem_toList.mp hp)
  exact allOf_params h t (List.mem_flatMap.mpr ⟨p, hp, ht⟩)

theorem allOf_result : AllOf P signature.result.toList :=
  fun t ht ↦ h t (List.mem_append_right _ ht)

end

section

variable (htype : Ensures (Shallow m) type)

include htype

theorem ensures_ascription : Ensures (fun o ↦ AllOf (Shallow m) o.toList) (ascription type) :=
  (ensures_afterMark ":" htype).mono fun _ ↦ allOf_toList

theorem ensures_typeParam : Ensures (fun p ↦ AllOf (Shallow m) p.types) (typeParam type) := by
  refine ensures_then fun _ ↦ ensures_then fun _ ↦ ?_
  refine ensures_bind (ensures_afterWord "extends" htype) fun bound hbound ↦ ?_
  refine ensures_map (ensures_afterMark "=" htype) fun default hdefault ↦ ?_
  exact allOf_append (allOf_toList hbound) (allOf_toList hdefault)

theorem ensures_typeParams :
    Ensures (fun ps ↦ AllOf (Shallow m) (ps.flatMap TypeParam.types)) (typeParams type) := by
  refine ensures_then fun _ ↦ ensures_ite ?_ (ensures_pure nofun)
  exact (ensures_listUntil ">" fun _ ↦ ensures_typeParam htype).mono fun _ ↦ allOf_flatMap

theorem ensures_typeArgs : Ensures (AllOf (Shallow m)) (typeArgs type) :=
  ensures_then fun _ ↦ ensures_ite (ensures_listUntil ">" fun _ ↦ htype) (ensures_pure nofun)

theorem ensures_param (place : Nat) :
    Ensures (fun p ↦ AllOf (Shallow m) p.types) (param type place) := by
  refine ensures_then fun _ ↦ ensures_then fun _ ↦ ensures_then fun _ ↦
    ensures_then fun _ ↦ ?_
  extract_lets named
  have hnamed (name : String) : Ensures (fun p ↦ AllOf (Shallow m) p.types) (named name) := by
    refine ensures_then fun optional ↦
      ensures_bind (ensures_ascription htype) fun type htype ↦ ?_
    refine ensures_then fun _ ↦ ?_
    exact ensures_ite (ensures_then fun _ ↦ ensures_pure htype) (ensures_pure htype)
  exact ensures_ite (ensures_then fun _ ↦ ensures_then hnamed) (ensures_then hnamed)

theorem ensures_params :
    Ensures (fun ps ↦ AllOf (Shallow m) (ps.flatMap Param.types)) (params type) :=
  ensures_then fun _ ↦ (ensures_listUntil ")" (ensures_param htype)).mono fun _ ↦ allOf_flatMap

/-- The type that a predicate tests for stands in the predicate. -/
theorem ensures_resultType : Ensures (Shallow (m + 1)) (resultType type) := by
  refine ensures_then fun _ ↦ ensures_then fun _ ↦ ensures_ite ?_ (ensures_ite ?_ ?_)
  · refine ensures_then fun _ ↦ ensures_then fun _ ↦ ?_
    exact ensures_map (ensures_afterWord "is" htype) fun _ h ↦ .around (allOf_toList h)
  · refine ensures_then fun _ ↦ ensures_then fun _ ↦ ?_
    exact ensures_map htype fun _ h ↦ .around (by simpa [parts] using h)
  · exact htype.mono fun _ h ↦ h.mono (Nat.le_succ m)

theorem ensures_signature :
    Ensures (fun s ↦ AllOf (Shallow (m + 1)) s.types) (signature type) := by
  refine ensures_bind (ensures_typeParams htype) fun typeParams htypeParams ↦ ?_
  refine ensures_bind (ensures_params htype) fun params hparams ↦ ?_
  refine ensures_map (ensures_afterMark ":" (ensures_resultType htype)) fun result hresult ↦ ?_
  have hle := Nat.le_succ m
  exact allOf_append
    (allOf_append (allOf_shallow_mono hparams hle) (allOf_shallow_mono htypeParams hle))
    (allOf_toList hresult)

theorem ensures_indexSignature (readonly : Bool) :
    Ensures (fun i ↦ AllOf (Shallow m) (i.types .all)) (indexSignature type readonly) := by
  refine ensures_then fun _ ↦ ensures_then fun _ ↦ ensures_then fun _ ↦ ?_
  refine ensures_bind htype fun key hkey ↦ ensures_then fun _ ↦ ?_
  exact ensures_map (ensures_ascription htype) fun _ hvalue ↦ allOf_cons hkey hvalue

/-- An accessor keeps the result or the first parameter of its signature. -/
theorem ensures_accessor {isGetter : Bool} {name : PropertyName} :
    Ensures (fun member : TypeMember ↦ AllOf (Shallow (m + 1)) (member.types .all)) (do
      let signature ← signature type
      return if isGetter then TypeMember.getter name signature.result
        else .setter name signature.params.head?) := by
  refine ensures_map (ensures_signature htype) fun signature hsignature ↦ ?_
  split
  · exact allOf_result hsignature
  · exact allOf_firstParam hsignature

theorem ensures_namedMember (readonly : Bool) :
    Ensures (fun member : TypeMember ↦ AllOf (Shallow (m + 1)) (member.types .all))
      (namedMember type readonly) := by
  refine ensures_then fun _ ↦ ensures_ite ?_ (ensures_then fun _ ↦ ensures_ite ?_ ?_)
  · exact ensures_then fun _ ↦ ensures_then fun _ ↦ ensures_accessor htype
  · exact ensures_map (ensures_indexSignature htype readonly) fun _ h ↦
      allOf_shallow_mono h (Nat.le_succ m)
  · refine ensures_then fun _ ↦ ensures_then fun _ ↦ ensures_then fun _ ↦ ensures_ite ?_ ?_
    · exact ensures_map (ensures_signature htype) fun _ h ↦ h
    · exact ensures_map (ensures_ascription htype) fun _ h ↦ allOf_shallow_mono h (Nat.le_succ m)

theorem ensures_typeMember :
    Ensures (fun member : TypeMember ↦ AllOf (Shallow (m + 1)) (member.types .all))
      (typeMember type) := by
  refine ensures_then fun _ ↦ ensures_ite ?_ (ensures_then fun _ ↦ ensures_then fun _ ↦
    ensures_ite ?_ ?_)
  · exact ensures_map (ensures_signature htype) fun _ h ↦ h
  · exact ensures_then fun _ ↦ ensures_map (ensures_signature htype) fun _ h ↦ h
  · refine ensures_then fun _ ↦ ensures_then fun _ ↦
      ensures_ite ?_ (ensures_namedMember htype _)
    exact ensures_then fun _ ↦ ensures_namedMember htype _

theorem ensures_typeMembers :
    Ensures (fun ms ↦ AllOf (Shallow (m + 1)) (ms.flatMap (TypeMember.types .all)))
      (typeMembers type) := by
  refine (ensures_braced _ ?_).mono fun _ ↦ allOf_flatMap
  exact ensures_bind (ensures_typeMember htype) fun _ h ↦ ensures_then fun _ ↦ ensures_pure h

/-! ## Primary types -/

omit htype in
theorem shallow_leaf {t : TypeExpr} (h : t.parts .all = []) : Shallow (m + 1) t :=
  .around (h ▸ nofun)

/-- Arguments stand directly in the type with the name. -/
theorem ensures_withArgs {make : List TypeExpr → TypeExpr}
    (h : ∀ args, (make args).parts .all = args) :
    Ensures (Shallow (m + 1)) (do return make (← typeArgs type)) :=
  ensures_map (ensures_typeArgs htype) fun args hargs ↦ .around ((h args).symm ▸ hargs)

theorem ensures_importType (isTypeof : Bool) :
    Ensures (Shallow (m + 1)) (importType type isTypeof) := by
  refine ensures_then fun _ ↦ ensures_then fun _ ↦ ensures_then fun _ ↦
    ensures_then fun _ ↦ ?_
  extract_lets rest
  have hrest : Ensures (Shallow (m + 1)) (rest ()) :=
    ensures_then fun _ ↦ ensures_then fun _ ↦ ensures_withArgs htype fun _ ↦ rfl
  exact ensures_ite (ensures_then fun _ ↦ ensures_ite (ensures_then fun _ ↦ hrest) hrest) hrest

theorem ensures_namedType : Ensures (Shallow (m + 1)) (namedType type) := by
  refine ensures_then fun _ ↦ ensures_then fun _ ↦
    ensures_ite ?_ (ensures_ite ?_ (ensures_ite ?_ (ensures_ite (ensures_importType htype _) ?_)))
  · exact ensures_then fun _ ↦ ensures_pure (shallow_leaf rfl)
  · exact ensures_then fun _ ↦ ensures_pure (shallow_leaf rfl)
  · refine ensures_then fun _ ↦ ensures_then fun _ ↦ ensures_then fun _ ↦
      ensures_ite (ensures_importType htype _) (ensures_then fun _ ↦ ensures_then fun _ ↦ ?_)
    exact ensures_ite (ensures_pure (shallow_leaf rfl)) (ensures_withArgs htype fun _ ↦ rfl)
  · extract_lets referred
    have hreferred : Ensures (Shallow (m + 1)) (referred ()) :=
      ensures_then fun _ ↦ ensures_withArgs htype fun _ ↦ rfl
    refine ensures_ite ?_ hreferred
    split
    · exact ensures_then fun _ ↦ ensures_pure (shallow_leaf rfl)
    · exact hreferred

theorem ensures_mappedType : Ensures (Shallow (m + 1)) (mappedType type) := by
  refine ensures_then fun _ ↦ ensures_then fun _ ↦ ensures_then fun _ ↦ ensures_then fun _ ↦
    ensures_then fun _ ↦ ensures_bind htype fun bound hbound ↦ ?_
  refine ensures_bind (ensures_afterWord "as" htype) fun rename hrename ↦ ?_
  refine ensures_then fun _ ↦ ensures_then fun _ ↦ ?_
  refine ensures_bind (ensures_ascription htype) fun value hvalue ↦ ?_
  refine ensures_then fun _ ↦ ensures_then fun _ ↦ ensures_pure (.around ?_)
  exact allOf_cons hbound (allOf_append (allOf_toList hrename) hvalue)

theorem ensures_tupleElement : Ensures (fun e ↦ Shallow m e.type) (tupleElement type) := by
  refine ensures_then fun _ ↦ ensures_then fun _ ↦ ensures_then fun _ ↦ ?_
  extract_lets element
  have helement (label : Option String × Bool) :
      Ensures (fun e ↦ Shallow m e.type) (element label) :=
    ensures_bind htype fun _ h ↦ ensures_then fun _ ↦ ensures_pure h
  refine ensures_then fun _ ↦ ensures_then fun _ ↦ ensures_ite ?_ (ensures_then helement)
  exact ensures_then fun _ ↦ ensures_then fun _ ↦ ensures_then fun _ ↦ ensures_then helement

theorem ensures_tupleType : Ensures (Shallow (m + 1)) (tupleType type) := by
  refine ensures_then fun _ ↦ ?_
  refine ensures_map (ensures_listUntil "]" fun _ ↦ ensures_tupleElement htype)
    fun _ h ↦ .around ?_
  simpa [parts] using h

/-- The members of a type have types in predicates of the types that they are written with. -/
theorem ensures_primaryType : Ensures (Shallow (m + 2)) (primaryType type) := by
  have hsucc {p : Parser TypeExpr} (hp : Ensures (Shallow (m + 1)) p) :
      Ensures (Shallow (m + 2)) p :=
    hp.mono fun _ h ↦ h.mono (Nat.le_succ _)
  have hleaf {p : Parser Token} {make : Token → TypeExpr} (h : ∀ t, (make t).parts .all = []) :
      Ensures (Shallow (m + 2)) (do return make (← p)) :=
    ensures_then fun t ↦ ensures_pure (shallow_leaf (h t))
  refine ensures_then fun t ↦ ?_
  split
  · exact hleaf fun _ ↦ rfl
  · exact hleaf fun _ ↦ rfl
  · exact hleaf fun _ ↦ rfl
  · exact hsucc (ensures_namedType htype)
  · refine ensures_ite ?_ (ensures_ite ?_ (ensures_ite (hsucc (ensures_tupleType htype)) ?_))
    · refine ensures_then fun _ ↦ ensures_bind htype fun inner hinner ↦
        ensures_then fun _ ↦ ?_
      exact ensures_pure (hinner.mono (by omega))
    · refine ensures_then fun _ ↦ ensures_ite (hsucc (ensures_mappedType htype)) ?_
      exact ensures_map (ensures_typeMembers htype) fun _ h ↦ .around h
    · refine ensures_then fun _ ↦ ensures_ite ?_ (ensures_unexpected _)
      exact ensures_then fun _ ↦ hleaf fun _ ↦ rfl
  · exact ensures_unexpected _

/-- Brackets behind a type are suffixes. -/
theorem ensures_postfixType : Ensures (Shallow (m + 2)) (postfixType type) := by
  refine ensures_bind (ensures_primaryType htype) fun first hfirst ↦ ?_
  refine ensures_rounds (I := Shallow (m + 2)) (fun object hobject ↦ ?_) hfirst
  refine ensures_then fun _ ↦ ensures_ite ?_ (ensures_pure hobject)
  refine ensures_then fun _ ↦ ensures_then fun _ ↦ ensures_ite (ensures_pure ?_) ?_
  · exact .suffix rfl (by simpa [parts] using hobject)
  · refine ensures_bind htype fun index hindex ↦ ensures_then fun _ ↦ ensures_pure ?_
    exact .suffix rfl (by simpa [parts] using ⟨hobject, hindex.mono (by omega)⟩)

theorem ensures_functionType : Ensures (Shallow (m + 2)) (functionType type) := by
  refine ensures_then fun _ ↦ ensures_then fun _ ↦ ?_
  refine ensures_bind (ensures_typeParams htype) fun typeParams htypeParams ↦ ?_
  refine ensures_bind (ensures_params htype) fun params hparams ↦ ensures_then fun _ ↦ ?_
  refine ensures_map (ensures_resultType htype) fun result hresult ↦ .around ?_
  have hle := Nat.le_succ m
  exact allOf_append
    (allOf_append (allOf_shallow_mono hparams hle) (allOf_shallow_mono htypeParams hle))
    (allOf_cons hresult nofun)

end

/-! ## Operators, unions and conditional types -/

theorem ensures_chain (mark : String) {combine : List TypeExpr → TypeExpr}
    (hcombine : ∀ ts, (combine ts).parts .all = ts) {operand : Parser TypeExpr}
    (hoperand : Ensures (Shallow k) operand) :
    Ensures (Shallow (k + 1)) (chain mark combine operand) := by
  refine ensures_then fun _ ↦ ensures_bind (ensures_separated mark hoperand) fun several h ↦ ?_
  split
  · exact ensures_pure ((h _ (by simp)).mono (Nat.le_succ k))
  · exact ensures_pure (.around (hcombine _ ▸ h))

theorem ensures_inferBound (htype : Ensures (Shallow m) type) :
    Ensures (fun o ↦ AllOf (Shallow m) o.toList) (inferBound type) := by
  refine ensures_attempt (ensures_then fun _ ↦ ensures_then fun _ ↦
    ensures_ite ?_ (ensures_pure nofun))
  refine ensures_bind htype fun bound hbound ↦ ensures_then fun _ ↦ ?_
  exact ensures_ite (ensures_pure nofun) (ensures_pure (allOf_cons hbound nofun))

section

variable {types : Bool → Parser TypeExpr}
  (htypes : ∀ conditional, Ensures (Shallow m) (types conditional))

include htypes

theorem ensures_operandRule {inner : Parser TypeExpr} (hinner : Ensures (Shallow (m + 1)) inner) :
    Ensures (Shallow (m + 2)) (operandRule types inner) := by
  refine ensures_then fun _ ↦ ensures_then fun _ ↦ ?_
  extract_lets rest
  have hrest : Ensures (Shallow (m + 2)) (rest ()) := by
    refine ensures_then fun _ ↦ ensures_ite ?_ (ensures_postfixType (htypes true))
    refine ensures_then fun _ ↦ ensures_then fun _ ↦ ?_
    refine ensures_map (ensures_inferBound (htypes false)) fun bound hbound ↦ ?_
    exact .around (allOf_shallow_mono hbound (Nat.le_succ m))
  refine ensures_ite ?_ hrest
  split
  · exact ensures_then fun _ ↦ ensures_map (ensures_nested hinner) fun _ h ↦
      .around (allOf_cons h nofun)
  · exact hrest

/-- On one level there are a predicate in a member, the members, an intersection, a union and a
conditional type. -/
theorem ensures_typeRule {operand : Parser TypeExpr} (hoperand : Ensures (Shallow (m + 2)) operand)
    (conditional : Bool) : Ensures (Shallow (m + 5)) (typeRule operand types conditional) := by
  refine ensures_nested (ensures_withBound _ (ensures_then fun _ ↦ ensures_ite ?_ ?_))
  · exact (ensures_functionType (htypes true)).mono fun _ h ↦ h.mono (by omega)
  have hcheck : Ensures (Shallow (m + 4)) (chain "|" .union (chain "&" .intersection operand)) :=
    ensures_chain "|" (fun _ ↦ rfl) (ensures_chain "&" (fun _ ↦ rfl) hoperand)
  refine ensures_bind hcheck fun check hcheck ↦ ?_
  extract_lets plain
  have hplain : Ensures (Shallow (m + 5)) (plain ()) := ensures_pure (hcheck.mono (Nat.le_succ _))
  refine ensures_ite (ensures_then fun _ ↦ ensures_ite ?_ hplain) hplain
  refine ensures_bind (htypes false) fun bound hbound ↦ ensures_then fun _ ↦ ?_
  refine ensures_bind (htypes true) fun yes hyes ↦ ensures_then fun _ ↦ ?_
  refine ensures_map (htypes true) fun no hno ↦ .around ?_
  have hle : m ≤ m + 4 := Nat.le_add_right m 4
  exact allOf_cons hcheck (allOf_cons (hbound.mono hle) (allOf_cons (hyes.mono hle)
    (allOf_cons (hno.mono hle) nofun)))

end

/-- Where at most `n` levels are left, types are read with at most five types for each level in a
chain, beside suffixes; an operand has two more, the members and a predicate. -/
theorem shallow_within (n : Nat) :
    (∀ conditional, Ensures (Shallow (5 * n)) ((within n).type conditional)) ∧
      Ensures (Shallow (5 * n + 2)) (within n).operand := by
  induction n with
  | zero =>
      have hdeep {m : Nat} : Ensures (Shallow m) tooDeep := ensures_fail _
      exact ⟨fun _ ↦ hdeep, ensures_operandRule (fun _ ↦ hdeep) hdeep⟩
  | succ n ih =>
      obtain ⟨htype, hoperand⟩ := ih
      have hrule := ensures_typeRule htype hoperand
      exact ⟨hrule, ensures_operandRule hrule (hoperand.mono fun _ h ↦ h.mono (by omega))⟩

end TypeGrammar

end PluginSurface
