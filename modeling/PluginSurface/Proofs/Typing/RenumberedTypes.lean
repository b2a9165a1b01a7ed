import PluginSurface.Proofs.Binding.RenumberedLinks
import PluginSurface.Proofs.Typing.AlteredTypes

/-!
# Resolving under other symbol numbers

With the numbers of the symbols permuted, each written type resolves to the same type with the
numbers in it permuted. Where the declarations stand in the text does not matter. Main statements:
`Checker.Renumbered.typeAt` and `Checker.Renumbered.propertiesOf`.
-/

namespace PluginSurface

/-- Only the numbers of the symbols are changed. -/
def Alteration.renumbering (σ : Equiv.Perm Nat) : Alteration where
  number := σ
  fits _ _ := false
  order := ⟨⟨[]⟩, ⟨[]⟩, ⟨[]⟩, ⟨[]⟩⟩

variable {σ : Equiv.Perm Nat}

namespace Typing

/-- Where a declaration stands in the text does not matter to what it contributes. -/
theorem addDeclaration_bare (ask : TypeRules) (trail : TypeTrail) (args : List Ty)
    (found : List Property × List Ty) (d : Declaration) :
    addDeclaration ask trail args found d.bare = addDeclaration ask trail args found d := by
  obtain ⟨file, scope, kind⟩ := d
  cases kind with
  | classDecl c =>
      simp only [addDeclaration, Declaration.bare, DeclarationKind.bare, ClassDecl.bare,
        List.filter_map, List.flatMap_map]
      rfl
  | _ => rfl

theorem foldl_declarations (ask : TypeRules) (trail : TypeTrail) (args : List Ty)
    {ds ds' : List Declaration} (h : ds'.map Declaration.bare = ds.map Declaration.bare)
    (found : List Property × List Ty) :
    ds'.foldl (addDeclaration ask trail args) found =
      ds.foldl (addDeclaration ask trail args) found := by
  have hbare (ds : List Declaration) : ds.foldl (addDeclaration ask trail args) found =
      (ds.map Declaration.bare).foldl (addDeclaration ask trail args) found := by
    rw [List.foldl_map]
    exact congrArg (List.foldl · found ds)
      (funext₂ fun found d ↦ (addDeclaration_bare ask trail args found d).symm)
  rw [hbare, h, ← hbare]

/-- The first declaration of a kind is the same in both, up to its place in the text. -/
theorem findSome?_bare {s s' : Symbol} (hs : s.Renumbered σ s') {α : Type}
    {f : Declaration → Option (Declaration × α)} {r : α → α}
    (hf : ∀ d, (f d.bare).map (Prod.map Declaration.bare r) =
      (f d).map (Prod.map Declaration.bare r)) :
    (s'.declarations.findSome? f).map (Prod.map Declaration.bare r) =
      (s.declarations.findSome? f).map (Prod.map Declaration.bare r) := by
  rw [List.map_findSome?, List.map_findSome?]
  exact hs.findSome?_declarations hf

variable {file home : Nat} {c c' : Checker}

/-- Aliases that differ in their places at most stand for the same types with the
numbers permuted. -/
theorem aliasType_renumber (h : c.Renumbered file home σ c') {ask ask' : TypeRules}
    (hask : ask.Altered (.renumbering σ) Eq ask') (trail : TypeTrail) (id : Nat)
    {x x' : Declaration × AliasDecl}
    (hx : Prod.map Declaration.bare AliasDecl.bare x' = Prod.map Declaration.bare AliasDecl.bare x)
    (args : List Ty) :
    aliasType c' ask' (trail.alter (.renumbering σ)) (σ id) x'.1 x'.2
        (args.map (Ty.alter (.renumbering σ))) =
      (aliasType c ask trail id x.1 x.2 args).alter (.renumbering σ) := by
  obtain ⟨hd, hdecl⟩ := Prod.mk.inj hx
  have henv : declarationEnv x'.1.bare = declarationEnv x.1.bare := congrArg declarationEnv hd
  have hparams : x'.2.bare.typeParams = x.2.bare.typeParams := congrArg AliasDecl.typeParams hdecl
  have htype : x'.2.bare.type = x.2.bare.type := congrArg AliasDecl.type hdecl
  exact aliasType_alter hask (h.binding.qualifiedName id) henv hparams htype fun _ _ _ ↦ rfl

end Typing

namespace Checker.Renumbered

open Typing

variable {file home : Nat} {c c' : Checker} (h : c.Renumbered file home σ c')

include h

theorem importedSymbol? (env : TypeEnv) (specifier : String) (path : List String) :
    importedSymbol? c' env specifier path = (importedSymbol? c env specifier path).map σ := by
  unfold Typing.importedSymbol?
  rw [h.moduleSymbol]
  cases c.moduleSymbol ⟨env.file, specifier⟩ with
  | none => rfl
  | some module => exact foldlM_renumber (fun id name ↦ h.export? id name) path module

/-- What is behind each name is the same, but for the numbers. -/
theorem alters : c.Alters (.renumbering σ) Eq c' where
  congruence := Members.congruence_eq
  arranged _ _ _ := nofun
  options := h.options
  trailLimit := h.trailLimit
  entity? := h.entity?
  importedSymbol? := h.importedSymbol?
  qualifiedName := h.binding.qualifiedName
  name id := (h.binding.symbol id).name
  outer id := by
    rw [show (Alteration.renumbering σ).number id = σ id from rfl, (h.binding.symbol id).outer,
      List.isEmpty_map]
  declaresInstances id := (h.binding.symbol id).any_declarations
    fun ⟨_, _, kind⟩ ↦ by cases kind <;> rfl
  addDeclaration ask trail args id :=
    foldl_declarations ask trail args (h.binding.symbol id).declarations ([], [])
  variableType? id := by
    have hbare := findSome?_bare (h.binding.symbol id) (f := variableType?) (r := fun t ↦ t)
      fun ⟨_, _, kind⟩ ↦ by
        match kind with
        | .variable none | .variable (some _) => rfl
        | .classDecl _ | .interfaceDecl _ | .aliasDecl _ | .function | .enum | .namespaceDecl
        | .moduleDecl | .link _ => rfl
    have henv := congrArg (Option.map fun x ↦ (declarationEnv x.1, x.2)) hbare
    rwa [Option.map_map, Option.map_map] at henv
  aliasDecl? {ask ask'} hask trail id args _ := by
    have hbare := findSome?_bare (h.binding.symbol id) (f := aliasDecl?) (r := AliasDecl.bare)
      fun ⟨_, _, kind⟩ ↦ by cases kind <;> rfl
    rw [show (Alteration.renumbering σ).number id = σ id from rfl]
    cases hfound : (c.binding.symbol id).declarations.findSome? Typing.aliasDecl? with
    | none =>
        rw [hfound, Option.map_none, Option.map_eq_none_iff] at hbare
        rw [hbare]
        rfl
    | some x =>
        rw [hfound, Option.map_some] at hbare
        obtain ⟨x', hfound', hx⟩ := Option.map_eq_some_iff.mp hbare
        rw [hfound']
        exact congrArg some (aliasType_renumber h hask.toAltered trail id hx args)

/-- A written type resolves to the same type with the numbers permuted. -/
theorem typeAt (env : TypeEnv) (type : TypeExpr) :
    c'.typeAt (env.alter (.renumbering σ)) type = (c.typeAt env type).alter (.renumbering σ) :=
  h.alters.typeAt env type

theorem propertiesOf (t : Ty) : c'.propertiesOf (t.alter (.renumbering σ)) =
    (c.propertiesOf t).map (Property.alter (.renumbering σ)) :=
  (h.alters.propertiesOf t).symm

end Checker.Renumbered

end PluginSurface
