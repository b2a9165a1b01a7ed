import PluginSurface.Proofs.Binding.Mirror
import PluginSurface.Proofs.Binding.SameLinks

/-!
# Names in bindings that mirror each other

Symbols in bindings that mirror each other have the same links, the same exports and, as far as they
are named alike, the same full names.
-/

namespace PluginSurface

/-- Two programs with their bindings, of which the second mirrors the first. The symbols that are
`named` have the same names, among them all namespaces. -/
structure Checker.Mirrors (edits : Nat → TypeEdit) (named : Nat → Prop) (c c' : Checker) :
    Prop where
  options : c'.program.options = c.program.options
  resolvedModule : ∀ file specifier,
    c'.program.resolvedModule file specifier = c.program.resolvedModule file specifier
  binding : c.binding.Mirrors edits named c'.binding
  namespaces : ∀ id, (c.binding.symbol id).isNamespace = true → named id

theorem Checker.mirrors_ofProgram {edits : Nat → TypeEdit} {inPlace : Prop} {p p' : Program}
    (h : p.Mirrors edits inPlace p') :
    Mirrors edits (fun id ↦ inPlace ∨ ¬(ofProgram p).binding.IsFile id)
      (ofProgram p) (ofProgram p') where
  options := h.options
  resolvedModule := h.resolvedModule
  binding := Binding.mirrors_ofProgram h
  namespaces id hspace := by
    refine .inr fun hid ↦ ?_
    have hfile := Binding.not_isNamespace_of_isFile hid
    exact Bool.false_ne_true (hfile.symm.trans hspace)

/-! ## Declarations -/

namespace DeclarationKind

variable (e : TypeEdit) (k : DeclarationKind)

@[simp] theorem link?_edit : (k.edit e).link? = k.link? := by cases k <;> rfl

@[simp] theorem isNamespace_edit : (k.edit e).isNamespace = k.isNamespace := by cases k <;> rfl

@[simp] theorem isModule_edit : (k.edit e).isModule = k.isModule := by cases k <;> rfl

end DeclarationKind

namespace Symbol.Mirrors

variable {edits : Nat → TypeEdit} {s s' : Symbol} (h : s.Mirrors edits s')

include h

theorem isNamespace : s'.isNamespace = s.isNamespace := by
  simp [Symbol.isNamespace, h.declarations, List.any_map, Function.comp_def, Declaration.edit]

theorem link? : s'.link? = s.link? := by
  simp [Symbol.link?, h.declarations, List.any_map, List.findSome?_map, Function.comp_def,
    Declaration.edit]

end Symbol.Mirrors

namespace Checker.Mirrors

variable {edits : Nat → TypeEdit} {named : Nat → Prop} {c c' : Checker}
  (h : c.Mirrors edits named c')

include h

theorem qualifiedName {id : Nat} (hid : named id) :
    c'.binding.qualifiedName id = c.binding.qualifiedName id :=
  Binding.qualifiedName_congr (fun other ↦ (h.binding.symbol other).outer)
    (fun other ↦ (h.binding.symbol other).isNamespace)
    (fun other hother ↦ h.binding.name other (h.namespaces other hother)) (h.binding.name id hid)

/-- What a name stands for is found through scopes, exports and links, and those are the same. -/
theorem sameLinks : c.SameLinks c' where
  resolvedModule := h.resolvedModule
  size := h.binding.size
  scopes := h.binding.scopes
  fileModules := h.binding.fileModules
  ambientModules := h.binding.ambientModules
  link? id := (h.binding.symbol id).link?
  exports id _ := by rw [(h.binding.symbol id).exports]
  starExports id := (h.binding.symbol id).starExports
  exportEquals id := (h.binding.symbol id).exportEquals

end Checker.Mirrors

end PluginSurface
