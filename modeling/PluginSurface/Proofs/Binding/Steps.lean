import Mathlib.Order.Nat
import Mathlib.Tactic.ByContra
import PluginSurface.Binding.Bind

/-!
# The steps of binding

What the binder does to the symbols and scopes is a sequence of small steps, each of which adds
something. All numbers stay in range, and what was there stays.
-/

namespace PluginSurface

/-- The numbers in a symbol are in range. -/
structure Symbol.Within (s : Symbol) (symbols scopes : Nat) : Prop where
  outer : ∀ id ∈ s.outer, id < symbols
  declarations : ∀ d ∈ s.declarations, d.scope < scopes
  exports : ∀ e ∈ s.exports, e.2 < symbols
  exportEquals : ∀ e ∈ s.exportEquals, e.2 < scopes

/-- The numbers in a scope are in range. -/
structure Scope.Within (s : Scope) (symbols : Nat) : Prop where
  names : ∀ e ∈ s.names, e.2 < symbols
  container : ∀ id ∈ s.container, id < symbols

theorem Symbol.within_fresh (name : String) {outer : List Nat} {symbols : Nat}
    (houter : ∀ id ∈ outer, id < symbols) (scopes : Nat) :
    (Symbol.fresh name outer).Within symbols scopes :=
  ⟨houter, fun _ h ↦ absurd h List.not_mem_nil, fun _ h ↦ absurd h List.not_mem_nil,
    fun _ h ↦ nomatch h⟩

theorem Symbol.Within.mono {s : Symbol} {symbols scopes symbols' scopes' : Nat}
    (h : s.Within symbols scopes) (hsymbols : symbols ≤ symbols') (hscopes : scopes ≤ scopes') :
    s.Within symbols' scopes' :=
  ⟨fun id hid ↦ (h.outer id hid).trans_le hsymbols,
    fun d hd ↦ (h.declarations d hd).trans_le hscopes,
    fun e he ↦ (h.exports e he).trans_le hsymbols,
    fun e he ↦ (h.exportEquals e he).trans_le hscopes⟩

theorem Scope.Within.mono {s : Scope} {symbols symbols' : Nat} (h : s.Within symbols)
    (hsymbols : symbols ≤ symbols') : s.Within symbols' :=
  ⟨fun e he ↦ (h.names e he).trans_le hsymbols, fun id hid ↦
    (h.container id hid).trans_le hsymbols⟩

/-- What is in a symbol is in a later form of it. -/
structure Symbol.Grows (s t : Symbol) : Prop where
  declarations : s.declarations <+: t.declarations
  exports : s.exports <:+ t.exports
  starExports : s.starExports <+: t.starExports

theorem Symbol.Grows.refl (s : Symbol) : s.Grows s :=
  ⟨List.prefix_rfl, List.suffix_rfl, List.prefix_rfl⟩

theorem Symbol.Grows.trans {s t u : Symbol} (hst : s.Grows t) (htu : t.Grows u) : s.Grows u :=
  ⟨hst.declarations.trans htu.declarations, hst.exports.trans htu.exports,
    hst.starExports.trans htu.starExports⟩

theorem Symbol.fresh_grows (name : String) (outer : List Nat) (s : Symbol) :
    (Symbol.fresh name outer).Grows s :=
  ⟨List.nil_prefix, List.nil_suffix, List.nil_prefix⟩

theorem mem_of_lookup {α β : Type} [BEq α] [LawfulBEq α] {key : α} {value : β}
    {entries : List (α × β)} (h : entries.lookup key = some value) :
    (key, value) ∈ entries := by
  obtain ⟨before, after, rfl, -⟩ := List.lookup_eq_some_iff.mp h
  exact List.mem_append_right before List.mem_cons_self

theorem lookup_cons_of_new {name key : String} {id value : Nat} {names : Names Nat}
    (hnew : names.lookup key = none) (h : names.lookup name = some id) :
    List.lookup name ((key, value) :: names) = some id := by
  rw [List.lookup_cons]
  cases hkey : name == key with
  | true =>
      rw [eq_of_beq hkey, hnew] at h
      cases h
  | false => exact h

namespace Binding

def withSymbol (b : Binding) (id : Nat) (f : Symbol → Symbol) : Binding :=
  { b with symbols := b.symbols.modify id f }

def withScope (b : Binding) (id : Nat) (f : Scope → Scope) : Binding :=
  { b with scopes := b.scopes.modify id f }

theorem symbol_withSymbol (b : Binding) (id : Nat) (f : Symbol → Symbol) (j : Nat) :
    (b.withSymbol id f).symbol j =
      if id = j ∧ j < b.symbols.size then f (b.symbol j) else b.symbol j := by
  unfold symbol withSymbol
  rw [Array.getD_eq_getD_getElem?, Array.getD_eq_getD_getElem?, Array.getElem?_modify]
  by_cases hj : j < b.symbols.size
  · by_cases hid : id = j
    · simp [hid, hj]
    · simp [hid]
  · simp [hj]

theorem symbol_push (b : Binding) (s : Symbol) (j : Nat) :
    ({ b with symbols := b.symbols.push s } : Binding).symbol j =
      if j = b.symbols.size then s else b.symbol j := by
  unfold symbol
  rw [Array.getD_eq_getD_getElem?, Array.getD_eq_getD_getElem?, Array.getElem?_push]
  split
  · rfl
  · rfl

theorem scope_withScope (b : Binding) (id : Nat) (f : Scope → Scope) (j : Nat) :
    (b.withScope id f).scope j =
      if id = j ∧ j < b.scopes.size then f (b.scope j) else b.scope j := by
  unfold scope withScope
  rw [Array.getD_eq_getD_getElem?, Array.getD_eq_getD_getElem?, Array.getElem?_modify]
  by_cases hj : j < b.scopes.size
  · by_cases hid : id = j
    · simp [hid, hj]
    · simp [hid]
  · simp [hj]

theorem scope_push (b : Binding) (s : Scope) (j : Nat) :
    ({ b with scopes := b.scopes.push s } : Binding).scope j =
      if j = b.scopes.size then s else b.scope j := by
  unfold scope
  rw [Array.getD_eq_getD_getElem?, Array.getD_eq_getD_getElem?, Array.getElem?_push]
  split
  · rfl
  · rfl

theorem symbol_of_le {b : Binding} {id : Nat} (h : b.symbols.size ≤ id) :
    b.symbol id = .fresh "" [] := by
  rw [symbol, Array.getD_eq_getD_getElem?, Array.getElem?_eq_none h]
  rfl

theorem scope_of_le {b : Binding} {id : Nat} (h : b.scopes.size ≤ id) :
    b.scope id = ⟨[], [], none⟩ := by
  rw [scope, Array.getD_eq_getD_getElem?, Array.getElem?_eq_none h]
  rfl

theorem lt_of_mem_declarations {b : Binding} {id : Nat} {d : Declaration}
    (h : d ∈ (b.symbol id).declarations) : id < b.symbols.size := by
  by_contra hid
  rw [symbol_of_le (not_lt.mp hid)] at h
  cases h

theorem lt_of_link? {b : Binding} {id : Nat} {link : Link × Nat}
    (h : (b.symbol id).link? = some link) : id < b.symbols.size := by
  by_contra hid
  rw [symbol_of_le (not_lt.mp hid)] at h
  cases h

/-- The symbol declares a module. -/
def IsModule (b : Binding) (id : Nat) : Prop :=
  ∃ d ∈ (b.symbol id).declarations, d.kind = .moduleDecl

theorem IsModule.lt {b : Binding} {id : Nat} (h : b.IsModule id) : id < b.symbols.size := by
  obtain ⟨d, hd, _⟩ := h
  exact lt_of_mem_declarations hd

/-! ## Growth -/

/-- What is in a binding is in a later one. A name keeps its meaning in a scope, and so does that of
a module; an export can be replaced. -/
structure Grows (b c : Binding) : Prop where
  symbols : b.symbols.size ≤ c.symbols.size
  scopes : b.scopes.size ≤ c.scopes.size
  symbol : ∀ id, (b.symbol id).Grows (c.symbol id)
  name : ∀ id < b.symbols.size, (c.symbol id).name = (b.symbol id).name
  names : ∀ scope name id, (b.scope scope).names.lookup name = some id →
    (c.scope scope).names.lookup name = some id
  fileModules : c.fileModules = b.fileModules
  ambientModules : ∀ name id, b.ambientModules.lookup name = some id →
    c.ambientModules.lookup name = some id
  statementScopes : b.statementScopes <:+ c.statementScopes

theorem Grows.refl (b : Binding) : b.Grows b :=
  ⟨le_rfl, le_rfl, fun _ ↦ .refl _, fun _ _ ↦ rfl, fun _ _ _ h ↦ h, rfl, fun _ _ h ↦ h,
    List.suffix_rfl⟩

theorem Grows.trans {b c d : Binding} (hbc : b.Grows c) (hcd : c.Grows d) : b.Grows d :=
  ⟨hbc.symbols.trans hcd.symbols, hbc.scopes.trans hcd.scopes,
    fun id ↦ (hbc.symbol id).trans (hcd.symbol id),
    fun id hid ↦ (hcd.name id (hid.trans_le hbc.symbols)).trans (hbc.name id hid),
    fun scope name id h ↦ hcd.names scope name id (hbc.names scope name id h),
    hcd.fileModules.trans hbc.fileModules,
    fun name id h ↦ hcd.ambientModules name id (hbc.ambientModules name id h),
    hbc.statementScopes.trans hcd.statementScopes⟩

theorem grows_withSymbol (b : Binding) (id : Nat) {f : Symbol → Symbol}
    (hf : ∀ s : Symbol, s.Grows (f s)) (hname : ∀ s : Symbol, (f s).name = s.name) :
    b.Grows (b.withSymbol id f) := by
  refine { Grows.refl b with
    symbols := Array.size_modify.ge, symbol := fun j ↦ ?_, name := fun j _ ↦ ?_ }
  all_goals
    rw [symbol_withSymbol]
    split
  · exact hf _
  · exact .refl _
  · exact hname _
  · rfl

theorem grows_newSymbol (b : Binding) (name : String) (outer : List Nat) :
    b.Grows { b with symbols := b.symbols.push (.fresh name outer) } := by
  refine { Grows.refl b with symbols := by simp, symbol := fun j ↦ ?_, name := fun j hj ↦ ?_ }
  · rw [symbol_push]
    split
    case isTrue hj =>
        rw [symbol_of_le hj.ge]
        exact Symbol.fresh_grows _ _ _
    case isFalse => exact .refl _
  · rw [symbol_push, if_neg hj.ne]

theorem grows_newScope (b : Binding) (s : Scope) :
    b.Grows { b with scopes := b.scopes.push s } := by
  refine { Grows.refl b with scopes := by simp, names := fun j name id hname ↦ ?_ }
  rw [scope_push]
  split
  case isTrue hj =>
      rw [scope_of_le hj.ge] at hname
      cases hname
  case isFalse => exact hname

theorem grows_addName (b : Binding) (scope : Nat) {name : String} (id : Nat)
    (hnew : (b.scope scope).names.lookup name = none) :
    b.Grows (b.withScope scope fun s ↦ { s with names := (name, id) :: s.names }) := by
  refine { Grows.refl b with scopes := Array.size_modify.ge, names :=
    fun j other found hfound ↦ ?_ }
  rw [scope_withScope]
  split
  case isTrue hj =>
      obtain ⟨rfl, _⟩ := hj
      exact lookup_cons_of_new hnew hfound
  case isFalse => exact hfound

theorem IsModule.mono {b c : Binding} {id : Nat} (h : b.IsModule id) (hbc : b.Grows c) :
    c.IsModule id := by
  obtain ⟨d, hd, hkind⟩ := h
  exact ⟨d, (hbc.symbol id).declarations.subset hd, hkind⟩

/-! ## Steps -/

/-- One thing that is done while names are declared. -/
inductive Step (b : Binding) : Binding → Prop
  | newScope (outer : List Nat) (container : Option Nat)
      (hcontainer : ∀ id ∈ container, id < b.symbols.size) :
      Step b { b with scopes := b.scopes.push ⟨outer, [], container⟩ }
  | newSymbol (name : String) (outer : List Nat) (houter : ∀ id ∈ outer, id < b.symbols.size) :
      Step b { b with symbols := b.symbols.push (.fresh name outer) }
  | addDeclaration (id : Nat) (d : Declaration) (hscope : d.scope < b.scopes.size) :
      Step b (b.withSymbol id fun s ↦ { s with declarations := s.declarations ++ [d] })
  | addExport (container : Nat) (name : String) (id : Nat) (hid : id < b.symbols.size)
      (hname : name = "default" ∨ (b.symbol id).name = name) :
      Step b (b.withSymbol container fun s ↦ { s with exports := (name, id) :: s.exports })
  | addStar (container : Nat) (module : ModuleRef) :
      Step b (b.withSymbol container fun s ↦ { s with starExports := s.starExports ++ [module] })
  | exportWhole (container : Nat) (path : List String) (scope : Nat)
      (hscope : scope < b.scopes.size) :
      Step b (b.withSymbol container fun s ↦ { s with exportEquals := some (path, scope) })
  | addName (scope : Nat) (name : String) (id : Nat) (hid : id < b.symbols.size)
      (hnew : (b.scope scope).names.lookup name = none) (hname : (b.symbol id).name = name) :
      Step b (b.withScope scope fun s ↦ { s with names := (name, id) :: s.names })
  | addModule (name : String) (id : Nat) (hid : id < b.symbols.size)
      (hnew : b.ambientModules.lookup name = none) :
      Step b { b with ambientModules := (name, id) :: b.ambientModules }

theorem Step.grows {b c : Binding} (h : Step b c) : b.Grows c := by
  cases h with
  | newScope outer container hcontainer => exact grows_newScope b _
  | newSymbol name outer houter => exact grows_newSymbol b name outer
  | addDeclaration id d hscope =>
      exact grows_withSymbol b id
        (fun s ↦ { Symbol.Grows.refl s with declarations := List.prefix_append _ _ }) fun _ ↦
        rfl
  | addExport container name id hid hname =>
      exact grows_withSymbol b container
        (fun s ↦ { Symbol.Grows.refl s with exports := List.suffix_cons _ _ }) fun _ ↦ rfl
  | addStar container module =>
      exact grows_withSymbol b container
        (fun s ↦ { Symbol.Grows.refl s with starExports := List.prefix_append _ _ }) fun _ ↦ rfl
  | exportWhole container path scope hscope =>
      exact grows_withSymbol b container (fun s ↦ { Symbol.Grows.refl s with }) fun _ ↦ rfl
  | addName scope name id hid hnew hname => exact grows_addName b scope id hnew
  | addModule name id hid hnew =>
      exact { Grows.refl b with ambientModules := fun _ _ h ↦ lookup_cons_of_new hnew h }

/-! ## Closed bindings -/

/-- All numbers are in range, and the symbols of files declare modules. -/
structure Closed (b : Binding) : Prop where
  global : globalScope < b.scopes.size
  symbol : ∀ id, (b.symbol id).Within b.symbols.size b.scopes.size
  scope : ∀ id, (b.scope id).Within b.symbols.size
  fileModules : ∀ file, ∀ id ∈ b.fileModules.getD file none, b.IsModule id
  ambientModules : ∀ e ∈ b.ambientModules, e.2 < b.symbols.size
  statementScopes : ∀ e ∈ b.statementScopes, e.2 < b.scopes.size

theorem Closed.withSymbol {b : Binding} (h : b.Closed) (id : Nat) {f : Symbol → Symbol}
    (hgrows : b.Grows (b.withSymbol id f)) (hf : ∀ s : Symbol,
      s.Within b.symbols.size b.scopes.size → (f s).Within b.symbols.size b.scopes.size) :
    (b.withSymbol id f).Closed := by
  have hsize : (b.withSymbol id f).symbols.size = b.symbols.size := Array.size_modify
  refine ⟨h.global, fun j ↦ ?_, fun j ↦ hsize ▸ h.scope j,
    fun file module hmodule ↦ (h.fileModules file module hmodule).mono hgrows,
    fun e he ↦ hsize ▸ h.ambientModules e he, h.statementScopes⟩
  rw [symbol_withSymbol, hsize]
  split
  · exact hf _ (h.symbol j)
  · exact h.symbol j

theorem Closed.newSymbol {b : Binding} (h : b.Closed) (name : String) {outer : List Nat}
    (houter : ∀ id ∈ outer, id < b.symbols.size) :
    ({ b with symbols := b.symbols.push (.fresh name outer) } : Binding).Closed := by
  have hsize : b.symbols.size ≤ (b.symbols.push (.fresh name outer)).size := by simp
  refine ⟨h.global, fun j ↦ ?_, fun j ↦ (h.scope j).mono hsize,
    fun file module hmodule ↦
      (h.fileModules file module hmodule).mono (grows_newSymbol b name outer),
    fun e he ↦ (h.ambientModules e he).trans_le hsize, h.statementScopes⟩
  rw [symbol_push]
  split
  · exact Symbol.within_fresh name (fun id hid ↦ (houter id hid).trans_le hsize) _
  · exact (h.symbol j).mono hsize le_rfl

theorem Closed.newScope {b : Binding} (h : b.Closed) (outer : List Nat) (container : Option Nat)
    (hcontainer : ∀ id ∈ container, id < b.symbols.size) :
    ({ b with scopes := b.scopes.push ⟨outer, [], container⟩ } : Binding).Closed := by
  have hsize : b.scopes.size ≤ (b.scopes.push ⟨outer, [], container⟩).size := by simp
  refine ⟨h.global.trans_le hsize, fun j ↦ (h.symbol j).mono le_rfl hsize, fun j ↦ ?_,
    h.fileModules, h.ambientModules, fun e he ↦ (h.statementScopes e he).trans_le hsize⟩
  rw [scope_push]
  split
  · exact ⟨fun _ h ↦ absurd h List.not_mem_nil, hcontainer⟩
  · exact h.scope j

theorem Closed.addName {b : Binding} (h : b.Closed) (scope : Nat) (name : String) {id : Nat}
    (hid : id < b.symbols.size) :
    (b.withScope scope fun s ↦ { s with names := (name, id) :: s.names }).Closed := by
  have hsize : (b.withScope scope fun s ↦ { s with names := (name, id) :: s.names }).scopes.size =
    b.scopes.size := Array.size_modify
  refine ⟨hsize ▸ h.global, fun j ↦ hsize ▸ h.symbol j, fun j ↦ ?_, h.fileModules,
    h.ambientModules, fun e he ↦ hsize ▸ h.statementScopes e he⟩
  rw [scope_withScope]
  split
  · exact ⟨List.forall_mem_cons.mpr ⟨hid, (h.scope j).names⟩, (h.scope j).container⟩
  · exact h.scope j

theorem Closed.addFile {b : Binding} (h : b.Closed) {module : Option Nat}
    (hmodule : ∀ id ∈ module, b.IsModule id) :
    ({ b with fileModules := b.fileModules.push module } : Binding).Closed := by
  refine { h with fileModules := fun file id hid ↦ ?_ }
  rw [Array.getD_eq_getD_getElem?, Array.getElem?_push] at hid
  split at hid
  · exact hmodule id hid
  · rw [← Array.getD_eq_getD_getElem?] at hid
    exact h.fileModules file id hid

theorem Step.closed {b c : Binding} (h : Step b c) (hb : b.Closed) : c.Closed := by
  have hgrows := h.grows
  cases h with
  | newScope outer container hcontainer => exact hb.newScope outer container hcontainer
  | newSymbol name outer houter => exact hb.newSymbol name houter
  | addDeclaration id d hscope =>
      refine hb.withSymbol id hgrows fun s hs ↦ { hs with declarations := ?_ }
      exact List.forall_mem_append.mpr ⟨hs.declarations, List.forall_mem_singleton.mpr hscope⟩
  | addExport container name id hid hname =>
      refine hb.withSymbol container hgrows fun s hs ↦ { hs with exports := ?_ }
      exact List.forall_mem_cons.mpr ⟨hid, hs.exports⟩
  | addStar container module => exact hb.withSymbol container hgrows fun s hs ↦ { hs with }
  | exportWhole container path scope hscope =>
      refine hb.withSymbol container hgrows fun s hs ↦ { hs with exportEquals := ?_ }
      rintro e ⟨rfl⟩
      exact hscope
  | addName scope name id hid hnew hname => exact hb.addName scope name hid
  | addModule name id hid hnew =>
      exact { hb with ambientModules := List.forall_mem_cons.mpr ⟨hid, hb.ambientModules⟩ }

/-! ## Named bindings -/

/-- A name stands for a symbol of this name, except that a default export can have any name. -/
structure Named (b : Binding) : Prop where
  exports : ∀ id, ∀ e ∈ (b.symbol id).exports, e.1 = "default" ∨ (b.symbol e.2).name = e.1
  names : ∀ id, ∀ e ∈ (b.scope id).names, (b.symbol e.2).name = e.1

/-- What a name stood for before has kept its name. -/
theorem Grows.named {b c : Binding} (hbc : b.Grows c) (hb : b.Closed) (h : b.Named)
    (hexports : ∀ id, ∀ e ∈ (c.symbol id).exports,
      e ∈ (b.symbol id).exports ∨ e.1 = "default" ∨ (c.symbol e.2).name = e.1)
    (hnames : ∀ id, ∀ e ∈ (c.scope id).names,
      e ∈ (b.scope id).names ∨ (c.symbol e.2).name = e.1) : c.Named where
  exports id e he := (hexports id e he).elim
    (fun hold ↦ (h.exports id e hold).imp_right
      (hbc.name _ ((hb.symbol id).exports e hold)).trans) fun hnew ↦ hnew
  names id e he := (hnames id e he).elim
    (fun hold ↦ (hbc.name _ ((hb.scope id).names e hold)).trans (h.names id e hold))
    fun hnew ↦ hnew

theorem Named.withSymbol {b : Binding} (h : b.Named) (hb : b.Closed) (id : Nat)
    {f : Symbol → Symbol} (hgrows : b.Grows (b.withSymbol id f))
    (hf : ∀ s : Symbol, (f s).exports = s.exports) : (b.withSymbol id f).Named := by
  refine hgrows.named hb h (fun j e he ↦ .inl ?_) fun _ _ ↦ .inl
  rw [symbol_withSymbol] at he
  split at he
  · rwa [hf] at he
  · exact he

theorem Step.named {b c : Binding} (h : Step b c) (hb : b.Closed) (hn : b.Named) : c.Named := by
  have hgrows := h.grows
  cases h with
  | newScope outer container hcontainer =>
      refine hgrows.named hb hn (fun _ _ ↦ .inl) fun j e he ↦ ?_
      rw [scope_push] at he
      split at he
      · cases he
      · exact .inl he
  | newSymbol name outer houter =>
      refine hgrows.named hb hn (fun j e he ↦ ?_) fun _ _ ↦ .inl
      rw [symbol_push] at he
      split at he
      · cases he
      · exact .inl he
  | addExport container name id hid hname =>
      refine hgrows.named hb hn (fun j e he ↦ ?_) fun _ _ ↦ .inl
      rw [symbol_withSymbol] at he
      split at he
      · rcases List.mem_cons.mp he with rfl | hold
        · exact .inr (hname.imp_right (hgrows.name id hid).trans)
        · exact .inl hold
      · exact .inl he
  | addName scope name id hid hnew hname =>
      refine hgrows.named hb hn (fun _ _ ↦ .inl) fun j e he ↦ ?_
      rw [scope_withScope] at he
      split at he
      · rcases List.mem_cons.mp he with rfl | hold
        · exact .inr hname
        · exact .inl hold
      · exact .inl he
  | addDeclaration id d hscope =>
      exact hn.withSymbol hb id hgrows fun _ ↦ rfl
  | addStar container module =>
      exact hn.withSymbol hb container hgrows fun _ ↦ rfl
  | exportWhole container path scope hscope =>
      exact hn.withSymbol hb container hgrows fun _ ↦ rfl
  | addModule name id hid hnew => exact ⟨hn.exports, hn.names⟩

/-! ## Runs -/

/-- Steps in which the scopes of the statements `keys` are noted, one after the other. -/
inductive Steps : List (Nat × Nat) → Binding → Binding → Prop
  | refl (b : Binding) : Steps [] b b
  | step {keys : List (Nat × Nat)} {b c d : Binding} (h : Steps keys b c) (hstep : Step c d) :
      Steps keys b d
  | note {keys : List (Nat × Nat)} {b c : Binding} (h : Steps keys b c) (key : Nat × Nat)
      {scope : Nat} (hscope : scope < c.scopes.size) :
      Steps (keys ++ [key]) b { c with statementScopes := (key, scope) :: c.statementScopes }

theorem Steps.trans {keys more : List (Nat × Nat)} {b c d : Binding} (hbc : Steps keys b c)
    (hcd : Steps more c d) : Steps (keys ++ more) b d := by
  induction hcd with
  | refl c => simpa using hbc
  | step hcd hstep ih => exact (ih hbc).step hstep
  | note hcd key hscope ih =>
      rw [← List.append_assoc]
      exact (ih hbc).note key hscope

theorem Steps.closed {keys : List (Nat × Nat)} {b c : Binding} (h : Steps keys b c)
    (hb : b.Closed) : c.Closed := by
  induction h with
  | refl b => exact hb
  | step h hstep ih => exact hstep.closed (ih hb)
  | note h key hscope ih =>
      have hc := ih hb
      exact { hc with statementScopes := List.forall_mem_cons.mpr ⟨hscope, hc.statementScopes⟩ }

theorem Steps.named {keys : List (Nat × Nat)} {b c : Binding} (h : Steps keys b c)
    (hb : b.Closed) (hn : b.Named) : c.Named := by
  induction h with
  | refl b => exact hn
  | step h hstep ih => exact hstep.named (h.closed hb) (ih hb hn)
  | note h key hscope ih =>
      have hc := ih hb hn
      exact ⟨hc.exports, hc.names⟩

theorem Steps.grows {keys : List (Nat × Nat)} {b c : Binding} (h : Steps keys b c) :
    b.Grows c := by
  induction h with
  | refl b => exact .refl b
  | step h hstep ih => exact ih.trans hstep.grows
  | note h key hscope ih =>
      exact ih.trans { Grows.refl _ with statementScopes := List.suffix_cons _ _ }

/-- The statements whose scopes are noted, by file and number, the last one first. -/
def visited (b : Binding) : List (Nat × Nat) := b.statementScopes.map Prod.fst

theorem Step.visited_eq {b c : Binding} (h : Step b c) : c.visited = b.visited := by
  cases h <;> rfl

theorem Steps.visited_eq {keys : List (Nat × Nat)} {b c : Binding} (h : Steps keys b c) :
    c.visited = keys.reverse ++ b.visited := by
  induction h with
  | refl b => rfl
  | step h hstep ih => exact hstep.visited_eq.trans ih
  | note h key hscope ih =>
      rw [List.reverse_append]
      exact congrArg (key :: ·) ih

end Binding

end PluginSurface
