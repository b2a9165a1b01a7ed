import PluginSurface.Proofs.Binding.FoldedScopes
import PluginSurface.Proofs.Binding.SameLinks

/-!
# Names in bindings in which several scopes stand for one

A name is looked up in a scope as in the one that it stands for, so that paths of names and links
lead to the same symbols. Main statements: `Checker.Folds.entity?` and `Checker.Folds.export?`.
-/

namespace PluginSurface

variable {numbers : Nat → Nat → List Nat} {ρ : Nat → Nat}

/-! ## Symbols -/

namespace Declaration.Folds

variable {ds ds' : List Declaration}

/-- What bodies and places in the text do not matter to is declared in both. -/
theorem any_eq {f : DeclarationKind → Bool} (hf : ∀ k, f k.outline = f k)
    (h : Declaration.Folds ρ ds ds') :
    (ds'.any fun d ↦ f d.kind) = ds.any fun d ↦ f d.kind := by
  induction h with
  | nil => rfl
  | @keep ds ds' d d' _ hd ih =>
      have hkind : f d'.kind = f d.kind := by rw [← hf, hd.kind, hf]
      simp only [List.any_append, ih, List.any_cons, hkind]
  | @again ds ds' _ hexists file scope ih =>
      obtain ⟨d, hd, hkind⟩ := hexists
      rw [List.any_append, ih, List.any_cons, List.any_nil, Bool.or_false, ← hkind]
      cases hfd : f d.kind with
      | false => exact Bool.or_false _
      | true =>
          have hany : (ds.any fun d ↦ f d.kind) = true := List.any_eq_true.mpr ⟨d, hd, hfd⟩
          rw [hany, Bool.or_true]

/-- What is found first in both is the same, in a scope that stands for that of the other, if
it is no namespace. -/
theorem map_findSome?_eq {α β : Type} {f : Declaration → Option α} {g q : α → β}
    (hmoved : ∀ file scope k, (f ⟨file, scope, k⟩).map q = (f ⟨file, ρ scope, k⟩).map g)
    (houtline : ∀ d, (f d.outline).map g = (f d).map g)
    (hspace : ∀ file scope, f ⟨file, scope, .namespaceDecl⟩ = none)
    (h : Declaration.Folds ρ ds ds') : (ds'.findSome? f).map q = (ds.findSome? f).map g := by
  have hsame (d d' : Declaration) (hd : d.Moved ρ d') : (f d').map q = (f d).map g := by
    obtain ⟨file, scope, k⟩ := d
    obtain ⟨file', scope', k'⟩ := d'
    obtain ⟨rfl, rfl, hkind⟩ : file' = file ∧ ρ scope' = scope ∧ k'.outline = k.outline :=
      ⟨hd.file, hd.scope, hd.kind⟩
    rw [hmoved, ← houtline, ← houtline ⟨file', ρ scope', k⟩, Declaration.outline,
      Declaration.outline, hkind]
  rw [List.map_findSome?, List.map_findSome?]
  induction h with
  | nil => rfl
  | @keep ds ds' d d' _ hd ih =>
      have hfirst := hsame d d' hd
      simp only [List.findSome?_append, ih, List.findSome?_singleton, Function.comp_apply, hfirst]
  | again _ _ file scope ih =>
      have hnone : (Option.map q ∘ f) ⟨file, scope, .namespaceDecl⟩ = none :=
        congrArg (Option.map q) (hspace file scope)
      rw [List.findSome?_append, ih, List.findSome?_singleton, hnone, Option.or_none]

end Declaration.Folds

namespace Symbol.Folds

variable {s s' : Symbol} (h : s.Folds ρ s')

include h

theorem isNamespace : s'.isNamespace = s.isNamespace := by
  unfold Symbol.isNamespace
  rw [h.declarations.any_eq (f := (·.isNamespace)) fun k ↦ by cases k <;> rfl,
    h.declarations.any_eq (f := (·.isModule)) fun k ↦ by cases k <;> rfl]

/-- The link of a symbol is the same, in a scope that stands for that of the other. -/
theorem link? : s.link? = s'.link?.map fun x ↦ (x.1, ρ x.2) := by
  unfold Symbol.link?
  rw [h.declarations.any_eq (f := (·.link?.isNone)) fun k ↦ by cases k <;> rfl]
  split
  · rfl
  have hfound :=
    h.declarations.map_findSome?_eq (f := fun d ↦ d.kind.link?.map (·, d.scope)) (g := id)
    (q := fun x ↦ (x.1, ρ x.2)) (fun _ _ k ↦ by cases k <;> rfl)
      (fun ⟨_, _, k⟩ ↦ by cases k <;> rfl)
    fun _ _ ↦ rfl
  rwa [Option.map_id, id, eq_comm] at hfound

end Symbol.Folds

theorem Binding.Folds.qualifiedName {b b' : Binding} (h : b.Folds numbers ρ b') (id : Nat) :
    b'.qualifiedName id = b.qualifiedName id :=
  Binding.qualifiedName_congr (fun other ↦ (h.symbol other).outer)
    (fun other ↦ (h.symbol other).isNamespace) (fun other _ ↦ (h.symbol other).name)
      (h.symbol id).name

/-! ## Links -/

/-- Two programs, in the binding of the second of which several scopes can stand for one
of the first one. -/
structure Checker.Folds (numbers : Nat → Nat → List Nat) (ρ : Nat → Nat)
    (c c' : Checker) : Prop where
  options : c'.program.options = c.program.options
  resolvedModule : ∀ file specifier,
    c'.program.resolvedModule file specifier = c.program.resolvedModule file specifier
  binding : c.binding.Folds numbers ρ c'.binding

namespace Checker.Folds

variable {c c' : Checker} (h : c.Folds numbers ρ c')

include h

theorem lookup (name : String) (scope : Nat) (exclude : Option Nat) :
    c'.binding.lookup name scope exclude = c.binding.lookup name (ρ scope) exclude := by
  have hname (s : Nat) :
      c'.binding.nameIn name exclude s = c.binding.nameIn name exclude (ρ s) := by
    simp only [Binding.nameIn, (h.binding.scope s).names, (h.binding.scope s).container,
      (h.binding.symbol _).exports]
  unfold Binding.lookup
  rw [(h.binding.scope scope).outer, ← List.map_cons, List.findSome?_map, funext hname]
  rfl

theorem moduleSymbol (m : ModuleRef) : c'.moduleSymbol m = c.moduleSymbol m := by
  simp only [Checker.moduleSymbol, h.binding.ambientModules, h.binding.fileModules,
    h.resolvedModule]

theorem entityBy (ask : LinkRule) (trail : LinkTrail) (path : List String) (scope : Nat)
    (exclude : Option Nat) :
    c'.entityBy ask trail path scope exclude = c.entityBy ask trail path (ρ scope) exclude := by
  simp only [Checker.entityBy, h.lookup]

theorem exportEqualsBy (ask : LinkRule) (trail : LinkTrail) (module : Nat) :
    c'.exportEqualsBy ask trail module = c.exportEqualsBy ask trail module := by
  unfold Checker.exportEqualsBy
  rw [(h.binding.symbol module).exportEquals]
  cases (c'.binding.symbol module).exportEquals with
  | none => rfl
  | some whole => exact h.entityBy ask trail whole.1 whole.2 none

theorem followBy (ask : LinkRule) (trail : LinkTrail) (id : Nat) (link : Link) (scope : Nat) :
    c'.followBy ask trail id link scope = c.followBy ask trail id link (ρ scope) := by
  cases link <;> simp only [Checker.followBy, h.moduleSymbol, h.exportEqualsBy, h.entityBy]

theorem targetBy (ask : LinkRule) (trail : LinkTrail) (id : Nat) :
    c'.targetBy ask trail id = c.targetBy ask trail id := by
  unfold Checker.targetBy
  rw [(h.binding.symbol id).link?]
  cases (c'.binding.symbol id).link? with
  | none => rfl
  | some x => simp only [Option.map_some, h.followBy]

theorem exportBy (ask : LinkRule) (trail : LinkTrail) (id : Nat) (name : String) :
    c'.exportBy ask trail id name = c.exportBy ask trail id name := by
  have hwhole : (c'.binding.symbol id).exportEquals.isSome =
      (c.binding.symbol id).exportEquals.isSome := by
    rw [(h.binding.symbol id).exportEquals, Option.isSome_map]
  simp only [Checker.exportBy, hwhole, (h.binding.symbol id).exports,
    (h.binding.symbol id).starExports, h.exportEqualsBy, h.moduleSymbol]

theorem trailLimit : c'.trailLimit = c.trailLimit := by
  rw [Checker.trailLimit, Checker.trailLimit, h.binding.size]

theorem links : c'.links = c.links := Checker.links_congr h.binding.size h.targetBy h.exportBy

/-- A path of names stands for what it stands for in the scope that its scope stands for. -/
theorem entity? (path : List String) (scope : Nat) :
    c'.entity? path scope = c.entity? path (ρ scope) := by
  rw [Checker.entity?, Checker.entity?, h.links, h.entityBy]

theorem export? (id : Nat) (name : String) : c'.export? id name = c.export? id name := by
  rw [Checker.export?, Checker.export?, h.links]

end Checker.Folds

end PluginSurface
