import PluginSurface.Proofs.Ty.Everywhere
import PluginSurface.Proofs.Typing.Mentions

/-!
# What resolving keeps

A property of types is kept by resolving if it holds of what the rules build themselves: plain
types, collected objects, and canonical unions and intersections. Then it holds everywhere in each
resolved type and in the types of its properties, whatever the program. Of references it may hold
only where the symbol is `named`: then it is kept for types that mention only such symbols.
-/

namespace PluginSurface

/-- `P` holds everywhere in the types that names are bound to. -/
def TypeEnv.Everywhere (P : Ty → Prop) (env : TypeEnv) : Prop :=
  ∀ name t, (name, t) ∈ env.bindings → t.Everywhere P

/-- `P` holds everywhere in the types of a member. -/
def Member.Everywhere (P : Ty → Prop) : Member → Prop
  | .property _ _ _ type | .getter _ type | .setter _ type => type.Everywhere P
  | .method _ _ f | .call f | .construct f => (Ty.function f).Everywhere P
  | .index i => i.key.Everywhere P ∧ i.value.Everywhere P

def Members.Everywhere (P : Ty → Prop) (ps : List Property) : Prop :=
  ∀ p ∈ ps, p.type.Everywhere P

/-- The answers have `P` everywhere if the questions do and mention only symbols
that are `named`. -/
structure TypeRules.Keep (c : Checker) (named : Nat → Prop) (P : Ty → Prop) (ask : TypeRules) :
    Prop where
  typeAt : ∀ trail env type, env.Everywhere P →
    c.Mentions named env.file env.scope type.mentions → (ask.typeAt trail env type).Everywhere P
  signatureAt : ∀ trail env signature, env.Everywhere P →
    c.Mentions named env.file env.scope signature.mentions →
    (Ty.function (ask.signatureAt trail env signature)).Everywhere P
  objectAt : ∀ trail env members, env.Everywhere P →
    c.Mentions named env.file env.scope (mentionsOfMembers members) →
    (Ty.object (ask.objectAt trail env members)).Everywhere P
  propertiesOf : ∀ trail t, t.Everywhere P → Members.Everywhere P (ask.propertiesOf trail t)

namespace Typing

/-- `P` holds of the types that the rules build. -/
structure Invariant (c : Checker) (P : Ty → Prop) : Prop where
  plain : ∀ t : Ty, t.isPlain → P t
  object : ∀ ms, P (.object (Members.toObject ms))
  union : ∀ ts us, (∀ t ∈ ts, t.Everywhere P) →
    (if c.program.options.strictNullChecks then Ty.join ts else (Ty.join ts).widenNullables) =
      .union us → P (.union us)
  intersection : ∀ ts us, (∀ t ∈ ts, t.Everywhere P) → Ty.meet ts = .intersection us →
    P (.intersection us)

/-- `P` holds of the types that the rules build and of the references to symbols that are `named`.
The declarations of these mention only such symbols. -/
structure InvariantFor (c : Checker) (named : Nat → Prop) (P : Ty → Prop) : Prop where
  mentions : ∀ id, named id → ∀ d ∈ (c.binding.symbol id).declarations,
    c.Mentions named d.file d.scope d.kind.mentions
  reference : ∀ id name args, P (.reference id name args) ↔ named id
  plain : ∀ t : Ty, t.isPlain → t.symbol? = none → P t
  object : ∀ ms, P (.object (Members.toObject ms))
  union : ∀ ts us, (∀ t ∈ ts, t.Everywhere P) →
    (if c.program.options.strictNullChecks then Ty.join ts else (Ty.join ts).widenNullables) =
      .union us → P (.union us)
  intersection : ∀ ts us, (∀ t ∈ ts, t.Everywhere P) → Ty.meet ts = .intersection us →
    P (.intersection us)

variable {c : Checker} {named : Nat → Prop} {P : Ty → Prop}

theorem Invariant.invariantFor (hP : Invariant c P) : InvariantFor c (fun _ ↦ True) P where
  mentions _ _ _ _ _ _ _ _ := trivial
  reference _ _ _ := iff_true_intro (hP.plain _ rfl)
  plain t ht _ := hP.plain t ht
  object := hP.object
  union := hP.union
  intersection := hP.intersection

namespace InvariantFor

variable (hP : InvariantFor c named P)

include hP

theorem everywhere_primitive (p : Primitive) : (Ty.primitive p).Everywhere P :=
  .primitive (hP.plain _ rfl rfl)

theorem everywhere_verbatim (text : String) : (Ty.verbatim text).Everywhere P :=
  .verbatim (hP.plain _ rfl rfl)

theorem everywhere_union {ts : List Ty} (h : ∀ t ∈ ts, t.Everywhere P) :
    (if c.program.options.strictNullChecks then Ty.join ts
      else (Ty.join ts).widenNullables).Everywhere P := by
  have hjoin : ∀ u ∈ (Ty.join ts).unionMembers, u.Everywhere P := fun u hu ↦
    .of_mem_join (fun _ ↦ hP.plain _ rfl rfl) (fun t ht u hu ↦
      (h t ht).of_mem_unionMembers hu) hu
  have hmembers : ∀ u ∈ Ty.unionMembers (if c.program.options.strictNullChecks then Ty.join ts
      else (Ty.join ts).widenNullables), u.Everywhere P := by
    intro u hu
    split at hu
    · exact hjoin u hu
    · exact .of_mem_widenNullables (fun _ ↦ hP.plain _ rfl rfl) hjoin hu
  generalize ht : (if c.program.options.strictNullChecks then Ty.join ts
    else (Ty.join ts).widenNullables) = t at hmembers ⊢
  cases t with
  | union us => exact .union (hP.union ts us h ht) hmembers
  | primitive p => exact hP.everywhere_primitive p
  | _ => exact hmembers _ (List.mem_singleton_self _)

theorem everywhere_meet {ts : List Ty} (h : ∀ t ∈ ts, t.Everywhere P) :
    (Ty.meet ts).Everywhere P :=
  .meet (fun _ ↦ hP.plain _ rfl rfl) (fun us hus ↦ hP.intersection ts us h hus) h

/-- An object that is only called is collected from its calls. -/
theorem everywhere_overloads {fs : List FunctionTy}
    (h : ∀ f ∈ fs, (Ty.function f).Everywhere P) :
    (Ty.object { ObjectTy.empty with calls := fs }).Everywhere P := by
  have hfold : (fs.map Member.call).foldl Members.addMember [] = [] := by
    induction fs with
    | nil => rfl
    | cons f rest ih =>
        simpa [Members.addMember] using ih fun g hg ↦ h g (List.mem_cons_of_mem f hg)
  have hobject : Members.toObject (fs.map .call) = { ObjectTy.empty with calls := fs } := by
    simp [Members.toObject, hfold, ObjectTy.empty, Members.call?, Members.construct?,
      Members.index?, List.filterMap_map, Function.comp_def]
  refine .object (hobject ▸ hP.object _) ?_ h ?_ ?_ ?_ <;> simp [ObjectTy.empty]

end InvariantFor

/-! ## Environments -/

theorem everywhere_bind {env : TypeEnv} {name : String} {t : Ty} (henv : env.Everywhere P)
    (ht : t.Everywhere P) : (env.bind name t).Everywhere P := by
  intro other u hu
  rcases List.mem_cons.mp hu with heq | hu
  · exact (Prod.mk.inj heq).2 ▸ ht
  · exact henv other u hu

theorem InvariantFor.everywhere_bindNames (hP : InvariantFor c named P) {env : TypeEnv}
    (henv : env.Everywhere P) (names : List String) : (env.bindNames names).Everywhere P := by
  unfold TypeEnv.bindNames
  induction names generalizing env with
  | nil => exact henv
  | cons name rest ih => exact ih (everywhere_bind henv (.param (hP.plain _ rfl rfl)))

theorem everywhere_bindNames (hP : Invariant c P) {env : TypeEnv} (henv : env.Everywhere P)
    (names : List String) : (env.bindNames names).Everywhere P :=
  hP.invariantFor.everywhere_bindNames henv names

theorem everywhere_of_lookup {bindings : Names Ty} {name : String} {t : Ty}
    (h : ∀ name t, (name, t) ∈ bindings → t.Everywhere P)
    (ht : bindings.lookup name = some t) : t.Everywhere P := by
  induction bindings with
  | nil => simp at ht
  | cons entry rest ih =>
      rw [List.lookup_cons] at ht
      split at ht
      · exact h entry.1 t (Option.some.inj ht ▸ List.mem_cons_self)
      · exact ih (fun name t hmem ↦ h name t (List.mem_cons_of_mem entry hmem)) ht

theorem everywhere_boundType {env : TypeEnv} {path : List String} {t : Ty}
    (henv : env.Everywhere P) (ht : boundType? path env = some t) : t.Everywhere P := by
  unfold boundType? at ht
  split at ht
  · exact everywhere_of_lookup henv ht
  · simp at ht

theorem everywhere_instantiate (hP : InvariantFor c named P) {typeAt : TypeEnv → TypeExpr → Ty}
    (htype : ∀ env type, env.Everywhere P →
      c.Mentions named env.file env.scope type.mentions →
      (typeAt env type).Everywhere P) {env : TypeEnv} (henv : env.Everywhere P)
    (params : List TypeParam)
    (hparams : c.Mentions named env.file env.scope (mentionsOfDefaults params)) {args : List Ty}
    (hargs : ∀ t ∈ args, t.Everywhere P) :
    (instantiate typeAt env params args).Everywhere P := by
  induction params generalizing env args with
  | nil => simpa [instantiate] using henv
  | cons p rest ih =>
      rw [mentionsOfDefaults, List.flatMap_cons] at hparams
      cases args with
      | cons arg args =>
          exact ih (everywhere_bind henv (hargs arg List.mem_cons_self)) hparams.right
            fun t ht ↦ hargs t (List.mem_cons_of_mem arg ht)
      | nil =>
          refine ih (everywhere_bind henv ?_) hparams.right (by simp)
          split
          next default hdefault =>
            have hmentions := hparams.left
            rw [hdefault, mentionsOfType?] at hmentions
            exact htype env default henv hmentions
          next => exact .param (hP.plain _ rfl rfl)

theorem everywhere_declarationEnv (d : Declaration) : (declarationEnv d).Everywhere P := by
  simp [TypeEnv.Everywhere, declarationEnv]

end Typing

end PluginSurface
