import Mathlib.Data.List.Basic
import PluginSurface.Binding.Links
import PluginSurface.Proofs.Binding.Renumbering
import PluginSurface.Proofs.Binding.SameLinks

/-!
# Names under other symbol numbers

With the numbers of the symbols permuted, a name stands for the symbol with the permuted number:
each lookup, and each link that is followed, gives the same answer up to the permutation.
-/

namespace PluginSurface

/-- Two programs with their bindings, of which the second is the first one with the numbers of the
symbols permuted. -/
structure Checker.Renumbered (file home : Nat) (σ : Equiv.Perm Nat) (c c' : Checker) : Prop where
  options : c'.program.options = c.program.options
  resolvedModule : ∀ other specifier,
    c'.program.resolvedModule other specifier = c.program.resolvedModule other specifier
  binding : c.binding.Renumbered file home σ c'.binding

def LinkTrail.renumber (σ : Equiv.Perm Nat) (trail : LinkTrail) : LinkTrail :=
  ⟨trail.links.map σ, trail.askedFor.map σ⟩

def LinkQuery.renumber (σ : Equiv.Perm Nat) : LinkQuery → LinkQuery
  | .target symbol => .target (σ symbol)
  | .member symbol name => .member (σ symbol) name

/-- The second rule answers as the first one with the numbers permuted. -/
def LinkRule.Renumbered (σ : Equiv.Perm Nat) (ask ask' : LinkRule) : Prop :=
  ∀ trail q, ask' (trail.renumber σ) (q.renumber σ) = (ask trail q).map σ

variable {σ : Equiv.Perm Nat}

/-! ## Declarations -/

namespace DeclarationKind

variable (k : DeclarationKind)

@[simp] theorem link?_bare : k.bare.link? = k.link? := by cases k <;> rfl

@[simp] theorem isNamespace_bare : k.bare.isNamespace = k.isNamespace := by cases k <;> rfl

@[simp] theorem isModule_bare : k.bare.isModule = k.isModule := by cases k <;> rfl

end DeclarationKind

namespace Symbol.Renumbered

variable {s s' : Symbol} (h : s.Renumbered σ s')

include h

/-- What does not depend on the places in the text holds of a declaration in both. -/
theorem any_declarations {f : Declaration → Bool} (hf : ∀ d, f d.bare = f d) :
    s'.declarations.any f = s.declarations.any f := by
  have hbare (ds : List Declaration) : ds.any f = (ds.map Declaration.bare).any f := by
    rw [List.any_map]
    exact congrArg ds.any (funext fun d ↦ (hf d).symm)
  rw [hbare, h.declarations, ← hbare]

theorem findSome?_declarations {α : Type} {f : Declaration → Option α}
    (hf : ∀ d, f d.bare = f d) : s'.declarations.findSome? f = s.declarations.findSome? f := by
  have hbare (ds : List Declaration) :
      ds.findSome? f = (ds.map Declaration.bare).findSome? f := by
    rw [List.findSome?_map]
    exact congrArg (ds.findSome? ·) (funext fun d ↦ (hf d).symm)
  rw [hbare, h.declarations, ← hbare]

theorem isNamespace : s'.isNamespace = s.isNamespace := by
  unfold Symbol.isNamespace
  rw [h.any_declarations fun d ↦ d.kind.isNamespace_bare,
    h.any_declarations fun d ↦ d.kind.isModule_bare]

theorem link? : s'.link? = s.link? := by
  unfold Symbol.link?
  rw [h.any_declarations fun d ↦ congrArg Option.isNone d.kind.link?_bare,
    h.findSome?_declarations fun d ↦ congrArg (Option.map (·, d.scope)) d.kind.link?_bare]

end Symbol.Renumbered

/-! ## Lookups -/

theorem findSome?_renumber {α : Type} {f g : α → Option Nat} (h : ∀ x, g x = (f x).map σ)
    (xs : List α) : xs.findSome? g = (xs.findSome? f).map σ := by
  induction xs with
  | nil => rfl
  | cons x rest ih =>
      rw [List.findSome?_cons, List.findSome?_cons, h x]
      cases f x with
      | none => exact ih
      | some id => rfl

theorem foldlM_renumber {α : Type} {f g : Nat → α → Option Nat}
    (h : ∀ id x, g (σ id) x = (f id x).map σ) (xs : List α) (id : Nat) :
    xs.foldlM g (σ id) = (xs.foldlM f id).map σ := by
  induction xs generalizing id with
  | nil => rfl
  | cons x rest ih =>
      rw [List.foldlM_cons, List.foldlM_cons, h id x]
      cases f id x with
      | none => rfl
      | some next => exact ih next

namespace Binding.Renumbered

variable {file home : Nat} {b b' : Binding} (h : b.Renumbered file home σ b')

include h

theorem nameIn (name : String) (exclude : Option Nat) (scope : Nat) :
    b'.nameIn name (exclude.map σ) scope = (b.nameIn name exclude scope).map σ := by
  have hallowed (found : Option Nat) :
      ((found.map σ).bind fun id ↦ if some id = exclude.map σ then none else some id) =
        (found.bind fun id ↦ if some id = exclude then none else some id).map σ := by
    cases found with
    | none => rfl
    | some id =>
        have hiff : some (σ id) = exclude.map σ ↔ some id = exclude := by
          rw [← Option.map_some, (Option.map_injective σ.injective).eq_iff]
        simp only [Option.map_some, Option.bind_some, hiff]
        split <;> rfl
  have hexports : ((b'.scope scope).container.bind fun m ↦ (b'.symbol m).exports.lookup name) =
      ((b.scope scope).container.bind fun m ↦ (b.symbol m).exports.lookup name).map σ := by
    rw [(h.scope scope).container]
    cases (b.scope scope).container with
    | none => rfl
    | some m => exact (h.symbol m).exports name
  simp only [Binding.nameIn, (h.scope scope).names name, hexports, hallowed,
    Option.orElse_eq_orElse, Option.orElse_eq_or, ← Option.map_or]

theorem lookup (name : String) (scope : Nat) (exclude : Option Nat) :
    b'.lookup name scope (exclude.map σ) = (b.lookup name scope exclude).map σ := by
  unfold Binding.lookup
  rw [(h.scope scope).outer]
  exact findSome?_renumber (fun scope ↦ h.nameIn name exclude scope) _

/-- A symbol keeps its full name. -/
theorem qualifiedName (id : Nat) : b'.qualifiedName (σ id) = b.qualifiedName id :=
  Binding.qualifiedName_map (fun other ↦ (h.symbol other).outer)
    (fun other ↦ (h.symbol other).isNamespace) (fun other _ ↦ (h.symbol other).name)
    (h.symbol id).name

end Binding.Renumbered

namespace Checker.Renumbered

variable {file home : Nat} {c c' : Checker} (h : c.Renumbered file home σ c')

include h

theorem moduleSymbol (m : ModuleRef) : c'.moduleSymbol m = (c.moduleSymbol m).map σ := by
  have hfile : ((c.program.resolvedModule m.file m.specifier).bind fun file ↦
      c'.binding.fileModules.getD file none) =
      ((c.program.resolvedModule m.file m.specifier).bind fun file ↦
        c.binding.fileModules.getD file none).map σ := by
    cases c.program.resolvedModule m.file m.specifier with
    | none => rfl
    | some file => exact h.binding.fileModules file
  have hambient : (if Resolve.isRelative m.specifier then none
      else c'.binding.ambientModules.lookup m.specifier) =
      (if Resolve.isRelative m.specifier then none
        else c.binding.ambientModules.lookup m.specifier).map σ := by
    split
    · rfl
    · exact h.binding.ambientModules m.specifier
  simp only [Checker.moduleSymbol, h.resolvedModule, hfile, hambient, Option.orElse_eq_orElse,
    Option.orElse_eq_or, ← Option.map_or]

/-! ## Links -/

section

variable {ask ask' : LinkRule} (hask : ask.Renumbered σ ask') (trail : LinkTrail)

include hask

omit h in
theorem ask_target (id : Nat) :
    ask' (trail.renumber σ) (.target (σ id)) = (ask trail (.target id)).map σ :=
  hask trail (.target id)

omit h in
theorem ask_member (id : Nat) (name : String) :
    ask' (trail.renumber σ) (.member (σ id) name) = (ask trail (.member id name)).map σ :=
  hask trail (.member id name)

theorem entityBy (path : List String) (scope : Nat) (exclude : Option Nat) :
    c'.entityBy ask' (trail.renumber σ) path scope (exclude.map σ) =
      (c.entityBy ask trail path scope exclude).map σ := by
  cases path with
  | nil => rfl
  | cons first rest =>
      unfold Checker.entityBy
      dsimp only
      rw [h.binding.lookup]
      cases c.binding.lookup first scope exclude with
      | none => rfl
      | some found =>
          simp only [Option.map_some, Option.bind_eq_bind, Option.bind_some, ask_target hask]
          cases ask trail (.target found) with
          | none => rfl
          | some id => exact foldlM_renumber (fun id name ↦ ask_member hask trail id name) rest id

theorem exportEqualsBy (module : Nat) :
    c'.exportEqualsBy ask' (trail.renumber σ) (σ module) =
      (c.exportEqualsBy ask trail module).map σ := by
  unfold Checker.exportEqualsBy
  rw [(h.binding.symbol module).exportEquals]
  cases (c.binding.symbol module).exportEquals with
  | none => rfl
  | some whole => exact h.entityBy hask trail whole.1 whole.2 none

theorem followBy (id : Nat) (link : Link) (scope : Nat) :
    c'.followBy ask' (trail.renumber σ) (σ id) link scope =
      (c.followBy ask trail id link scope).map σ := by
  have hmodule (m : ModuleRef) : (do
        let module ← c'.moduleSymbol m
        return (c'.exportEqualsBy ask' (trail.renumber σ) module).getD module : Option Nat) =
      (do
        let module ← c.moduleSymbol m
        return (c.exportEqualsBy ask trail module).getD module : Option Nat).map σ := by
    rw [h.moduleSymbol]
    cases c.moduleSymbol m with
    | none => rfl
    | some module =>
        simp only [Option.map_some, Option.bind_eq_bind, Option.bind_some,
          h.exportEqualsBy hask trail]
        cases c.exportEqualsBy ask trail module <;> rfl
  match link with
  | .namespace m | .require m => exact hmodule m
  | .entity path => exact h.entityBy hask trail path scope (some id)
  | .member m name =>
      unfold Checker.followBy
      dsimp only
      rw [h.moduleSymbol]
      cases c.moduleSymbol m with
      | none => rfl
      | some module =>
          simp only [Option.map_some, Option.bind_eq_bind, Option.bind_some, ask_member hask,
            h.exportEqualsBy hask trail]
          cases ask trail (.member module name) with
          | some id => rfl
          | none =>
              change (if name == "default" then _ else _) = Option.map σ (if _ then _ else _)
              split <;> rfl

theorem targetBy (id : Nat) :
    c'.targetBy ask' (trail.renumber σ) (σ id) = (c.targetBy ask trail id).map σ := by
  unfold Checker.targetBy
  rw [(h.binding.symbol id).link?]
  cases (c.binding.symbol id).link? with
  | none => rfl
  | some found =>
      have hiff : σ id ∈ (trail.renumber σ).links ↔ id ∈ trail.links :=
        List.mem_map_of_injective σ.injective
      simp only [hiff]
      split
      · rfl
      · have hinner := h.followBy hask ⟨id :: trail.links, trail.askedFor⟩ id found.1 found.2
        have hopened :
            (⟨σ id :: (trail.renumber σ).links, (trail.renumber σ).askedFor⟩ : LinkTrail) =
            LinkTrail.renumber σ ⟨id :: trail.links, trail.askedFor⟩ := rfl
        simp only [hopened, hinner]
        cases c.followBy ask ⟨id :: trail.links, trail.askedFor⟩ id found.1 found.2 with
        | none => rfl
        | some next => exact ask_target hask _ next

theorem exportBy (id : Nat) (name : String) :
    c'.exportBy ask' (trail.renumber σ) (σ id) name = (c.exportBy ask trail id name).map σ := by
  unfold Checker.exportBy
  simp only [(h.binding.symbol id).exportEquals, (h.binding.symbol id).exports name,
    (h.binding.symbol id).starExports, h.exportEqualsBy hask trail]
  split
  · cases c.exportEqualsBy ask trail id with
    | none => rfl
    | some whole => exact ask_member hask trail whole name
  · cases (c.binding.symbol id).exports.lookup name with
    | some member => exact ask_target hask trail member
    | none =>
        change (if name == "default" then _ else _) = Option.map σ (if _ then _ else _)
        split
        · rfl
        · refine findSome?_renumber (fun m ↦ ?_) _
          rw [h.moduleSymbol]
          cases c.moduleSymbol m with
          | none => rfl
          | some module => exact ask_member hask trail module name

theorem linkRule : (c.linkRule ask).Renumbered σ (c'.linkRule ask') := by
  intro trail q
  cases q with
  | target id => exact h.targetBy hask trail id
  | member id name =>
      unfold Checker.linkRule LinkQuery.renumber
      dsimp only
      rw [h.targetBy hask trail id]
      cases c.targetBy ask trail id with
      | none => rfl
      | some found =>
          have hiff : σ found ∈ (trail.renumber σ).askedFor ↔ found ∈ trail.askedFor :=
            List.mem_map_of_injective σ.injective
          simp only [Option.map_some, Option.bind_eq_bind, Option.bind_some, hiff]
          split
          · rfl
          · exact h.exportBy hask ⟨trail.links, found :: trail.askedFor⟩ found name

end

theorem linksWithin (n : Nat) : (c.linksWithin n).Renumbered σ (c'.linksWithin n) := by
  induction n with
  | zero => exact h.linkRule fun _ _ ↦ rfl
  | succ n ih => exact h.linkRule ih

theorem trailLimit : c'.trailLimit = c.trailLimit := by
  rw [Checker.trailLimit, Checker.trailLimit, h.binding.size]

theorem links : c.links.Renumbered σ c'.links := by
  rw [Checker.links, Checker.links, h.trailLimit]
  exact h.linksWithin _

/-- A path of names stands for the symbol with the permuted number. -/
theorem entity? (path : List String) (scope : Nat) :
    c'.entity? path scope = (c.entity? path scope).map σ :=
  h.entityBy h.links ⟨[], []⟩ path scope none

theorem export? (id : Nat) (name : String) :
    c'.export? (σ id) name = (c.export? id name).map σ :=
  ask_member h.links ⟨[], []⟩ id name

end Checker.Renumbered

end PluginSurface
