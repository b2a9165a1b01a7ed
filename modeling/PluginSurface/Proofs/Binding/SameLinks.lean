import PluginSurface.Binding.Links

/-!
# Names that stand for the same symbols

What a name stands for is found through scopes, exports and links. Where these are the same in two
programs, each path of names stands for the same symbol in both.
-/

namespace PluginSurface

namespace Binding

variable {b b' : Binding}

/-- With other numbers for the symbols, a symbol has the same full name if it and the namespaces
around it have the same names. -/
theorem qualifiedName_map {number : Nat → Nat}
    (houter : ∀ id, (b'.symbol (number id)).outer = (b.symbol id).outer.map number)
    (hspace : ∀ id, (b'.symbol (number id)).isNamespace = (b.symbol id).isNamespace)
    (hspaces : ∀ id, (b.symbol id).isNamespace = true →
      (b'.symbol (number id)).name = (b.symbol id).name)
    {id : Nat} (hid : (b'.symbol (number id)).name = (b.symbol id).name) :
    b'.qualifiedName (number id) = b.qualifiedName id := by
  have haround (ids : List Nat) : (((ids.map number).map b'.symbol).takeWhile
      Symbol.isNamespace).map Symbol.name =
        ((ids.map b.symbol).takeWhile Symbol.isNamespace).map Symbol.name := by
    induction ids with
    | nil => rfl
    | cons other rest ih =>
        simp only [List.map_cons, List.takeWhile_cons, hspace other]
        cases hother : (b.symbol other).isNamespace with
        | true => simp only [if_true, List.map_cons, hspaces other hother, ih]
        | false => rfl
  simp only [qualifiedName, List.reverse_cons, List.map_append, List.map_reverse, houter id,
    haround, List.map_cons, List.map_nil, hid]

theorem qualifiedName_congr (houter : ∀ id, (b'.symbol id).outer = (b.symbol id).outer)
    (hspace : ∀ id, (b'.symbol id).isNamespace = (b.symbol id).isNamespace)
    (hspaces : ∀ id, (b.symbol id).isNamespace = true → (b'.symbol id).name =
      (b.symbol id).name)
    {id : Nat} (hid : (b'.symbol id).name = (b.symbol id).name) :
    b'.qualifiedName id = b.qualifiedName id := by
  have houter' (id : Nat) : (b'.symbol id).outer = (b.symbol id).outer.map fun id ↦ id :=
    (houter id).trans (List.map_id' _).symm
  exact qualifiedName_map houter' hspace hspaces hid

end Binding

/-- Links lead to the same symbols in two programs of one size if each step does, whatever it is
answered. -/
theorem Checker.links_congr {c c' : Checker}
    (hsize : c'.binding.symbols.size = c.binding.symbols.size)
    (htarget : ∀ ask trail id, c'.targetBy ask trail id = c.targetBy ask trail id)
    (hexport : ∀ ask trail id name, c'.exportBy ask trail id name =
      c.exportBy ask trail id name) :
    c'.links = c.links := by
  have hrule (ask : LinkRule) : c'.linkRule ask = c.linkRule ask := by
    funext trail q
    cases q <;> simp only [linkRule, htarget, hexport]
  have hwithin (n : Nat) : c'.linksWithin n = c.linksWithin n := by
    induction n with
    | zero => exact hrule _
    | succ n ih => rw [linksWithin, linksWithin, hrule, ih]
  rw [links, links, trailLimit, trailLimit, hsize, hwithin]

/-- Two programs with their bindings, in which symbols have the same links and export the same. -/
structure Checker.SameLinks (c c' : Checker) : Prop where
  resolvedModule : ∀ file specifier,
    c'.program.resolvedModule file specifier = c.program.resolvedModule file specifier
  size : c'.binding.symbols.size = c.binding.symbols.size
  scopes : c'.binding.scopes = c.binding.scopes
  fileModules : c'.binding.fileModules = c.binding.fileModules
  ambientModules : c'.binding.ambientModules = c.binding.ambientModules
  link? : ∀ id, (c'.binding.symbol id).link? = (c.binding.symbol id).link?
  exports : ∀ id name,
    (c'.binding.symbol id).exports.lookup name = (c.binding.symbol id).exports.lookup name
  starExports : ∀ id, (c'.binding.symbol id).starExports = (c.binding.symbol id).starExports
  exportEquals : ∀ id, (c'.binding.symbol id).exportEquals = (c.binding.symbol id).exportEquals

namespace Checker.SameLinks

variable {c c' : Checker} (h : c.SameLinks c')

include h

theorem lookup (name : String) (scope : Nat) (exclude : Option Nat) :
    c'.binding.lookup name scope exclude = c.binding.lookup name scope exclude := by
  have hscope (id : Nat) : c'.binding.scope id = c.binding.scope id := by
    rw [Binding.scope, Binding.scope, h.scopes]
  have hname (scope : Nat) :
      c'.binding.nameIn name exclude scope = c.binding.nameIn name exclude scope := by
    simp only [Binding.nameIn, hscope, h.exports]
  simp only [Binding.lookup, hscope, funext hname]

theorem moduleSymbol (m : ModuleRef) : c'.moduleSymbol m = c.moduleSymbol m := by
  simp only [Checker.moduleSymbol, h.ambientModules, h.fileModules, h.resolvedModule]

/-! ## Links -/

theorem entityBy (ask : LinkRule) (trail : LinkTrail) (path : List String) (scope : Nat)
    (exclude : Option Nat) :
    c'.entityBy ask trail path scope exclude = c.entityBy ask trail path scope exclude := by
  simp only [Checker.entityBy, h.lookup]

theorem exportEqualsBy (ask : LinkRule) (trail : LinkTrail) (module : Nat) :
    c'.exportEqualsBy ask trail module = c.exportEqualsBy ask trail module := by
  simp only [Checker.exportEqualsBy, h.exportEquals, h.entityBy]

theorem followBy (ask : LinkRule) (trail : LinkTrail) (id : Nat) (link : Link) (scope : Nat) :
    c'.followBy ask trail id link scope = c.followBy ask trail id link scope := by
  cases link <;> simp only [Checker.followBy, h.moduleSymbol, h.exportEqualsBy, h.entityBy]

theorem targetBy (ask : LinkRule) (trail : LinkTrail) (id : Nat) :
    c'.targetBy ask trail id = c.targetBy ask trail id := by
  simp only [Checker.targetBy, h.link?, h.followBy]

theorem exportBy (ask : LinkRule) (trail : LinkTrail) (id : Nat) (name : String) :
    c'.exportBy ask trail id name = c.exportBy ask trail id name := by
  simp only [Checker.exportBy, h.exportEquals, h.exports, h.starExports, h.exportEqualsBy,
    h.moduleSymbol]

theorem trailLimit : c'.trailLimit = c.trailLimit := by
  rw [Checker.trailLimit, Checker.trailLimit, h.size]

theorem links : c'.links = c.links := Checker.links_congr h.size h.targetBy h.exportBy

/-- A path of names stands for the same symbol. -/
theorem entity? (path : List String) (scope : Nat) :
    c'.entity? path scope = c.entity? path scope := by
  rw [Checker.entity?, Checker.entity?, h.links, h.entityBy]

theorem export? (id : Nat) (name : String) : c'.export? id name = c.export? id name := by
  rw [Checker.export?, Checker.export?, h.links]

end Checker.SameLinks

end PluginSurface
