import PluginSurface.Proofs.Ty.CanonicalForm
import PluginSurface.Proofs.Typing.OptionFields

/-!
# Resolved types are canonical

Wherever a union or an intersection stands in a resolved type, or in the type of one of its
properties, it is in canonical form: names, parameters, aliases and indexed accesses bring in whole
types, but only such as were resolved before.
-/

namespace PluginSurface

namespace Typing

theorem invariant_isCanonical (c : Checker) :
    Invariant c (Ty.IsCanonical c.program.options.strictNullChecks) where
  plain t ht := by
    cases t with
    | union _ | intersection _ | object _ => cases ht
    | _ => trivial
  object _ := trivial
  union ts us h hus := by
    have hcanonical : ∀ vs, Ty.join ts = .union vs → Ty.CanonicalUnion vs := fun _ ↦
      Ty.canonicalUnion_join fun t ht ↦ (h t ht).here.union
    split at hus
    next hstrict => exact ⟨hcanonical us hus, fun hloose ↦
      absurd (hstrict.symm.trans hloose) nofun⟩
    next =>
      obtain ⟨hus, hapart⟩ := Ty.canonicalUnion_widenNullables hcanonical hus
      exact ⟨hus, fun _ ↦ hapart⟩
  intersection _ _ h := Ty.canonicalIntersection_meet fun t ht ↦ (h t ht).here.intersection

end Typing

/-- A type that is resolved where a statement stands, under any type parameters, is canonical
everywhere, and so are the types of its properties. -/
theorem Checker.isCanonical_typeAt (c : Checker) {file node : Nat} {env : TypeEnv}
    (henv : c.envAt? file node = some env) (params : List TypeParam) (type : TypeExpr) :
    let t := c.typeAt (env.bindTypeParams params) type
    t.Everywhere (Ty.IsCanonical c.program.options.strictNullChecks) ∧
      ∀ p ∈ c.propertiesOf t,
        p.type.Everywhere (Ty.IsCanonical c.program.options.strictNullChecks) := by
  intro t
  have hinvariant := Typing.invariant_isCanonical c
  have ht := everywhere_typeAt hinvariant
    (Typing.everywhere_bindNames hinvariant (c.everywhere_env _ henv) (params.map (·.name))) type
  exact ⟨ht, everywhere_propertiesOf hinvariant ht⟩

/-- A program with an alias for an intersection. -/
def taggedProgram : Program :=
  let tagged : AliasDecl := ⟨⟨"Tagged", ⟨0, 0⟩⟩, [⟨"T", none, none⟩],
    .intersection [.reference ["T"] [], .members []]⟩
  let tree : SourceFile := ⟨[⟨0, [.exported], .aliasDecl tagged, ⟨0, 0⟩⟩], []⟩
  ⟨⟨.commonjs, false⟩, #[⟨⟨"/index.d.ts"⟩, "", tree, []⟩]⟩

/-- In `Tagged<string> & (T & Tagged<string>)` as in the target of the alias. -/
theorem isCanonical_typeAt_tagged :
    let c := Checker.ofProgram taggedProgram
    let written : TypeExpr := .reference ["Tagged"] [.keyword .string]
    let type : TypeExpr := .intersection [written, .intersection [.reference ["T"] [], written]]
    let tagged : Ty := .aliased "Tagged" [.string] (.intersection [.string, .object .empty])
    let t : Ty := .intersection [tagged, .param "T"]
    c.envAt? 0 0 = some ⟨0, 1, []⟩ ∧
      c.typeAt (TypeEnv.bindTypeParams ⟨0, 1, []⟩ [⟨"T", none, none⟩]) type = t ∧
      t.Everywhere (Ty.IsCanonical false) := by
  intro c written type tagged t
  have hscope : c.binding.statementScopes.lookup (0, 0) = some 1 := by decide +kernel
  have henv : c.envAt? 0 0 = some ⟨0, 1, []⟩ := congrArg (Option.map _) hscope
  have ht : c.typeAt (TypeEnv.bindTypeParams ⟨0, 1, []⟩ [⟨"T", none, none⟩]) type = t := by
    decide +kernel
  exact ⟨henv, ht, ht ▸ (c.isCanonical_typeAt henv [⟨"T", none, none⟩] type).1⟩

end PluginSurface
