import Mathlib.Logic.Equiv.Defs
import PluginSurface.Proofs.Binding.Mirror
import PluginSurface.Proofs.Syntax.Places

/-!
# Bindings under other symbol numbers

A binding that differs from another only in the numbers of its symbols is filled in step by step
like the other one: whatever statements are bound in both, the numbers stay permuted in the same
way. Main statement: `Binder.renumbers_bindFile`.

Where the names and members in a declaration stand in the text is left out of the comparison, and so
are the numbers of the statements of one file.
-/

namespace PluginSurface

/-! ## Declarations without places in the text -/

def ClassMember.bare (m : ClassMember) : ClassMember := { m with span := ⟨0, 0⟩ }

def ClassDecl.bare (c : ClassDecl) : ClassDecl :=
  { c with name := c.name.map Name.bare, members := c.members.map ClassMember.bare }

def DeclarationKind.bare : DeclarationKind → DeclarationKind
  | .classDecl c => .classDecl c.bare
  | .interfaceDecl i => .interfaceDecl i.bare
  | .aliasDecl a => .aliasDecl a.bare
  | .variable type => .variable type
  | .function => .function
  | .enum => .enum
  | .namespaceDecl => .namespaceDecl
  | .moduleDecl => .moduleDecl
  | .link l => .link l

@[simp] theorem DeclarationKind.bare_bare (k : DeclarationKind) : k.bare.bare = k.bare := by
  cases k with
  | classDecl c =>
      have hname : Name.bare ∘ Name.bare = Name.bare := rfl
      have hmember : ClassMember.bare ∘ ClassMember.bare = ClassMember.bare := rfl
      simp [bare, ClassDecl.bare, hname, hmember]
  | _ => rfl

def Declaration.bare (d : Declaration) : Declaration := { d with kind := d.kind.bare }

/-! ## The relation -/

/-- Each name stands for the symbol with the permuted number. -/
def NamesRenumbered (σ : Equiv.Perm Nat) (ns ns' : Names Nat) : Prop :=
  ∀ name, ns'.lookup name = (ns.lookup name).map σ

/-- The second symbol is the first one with the numbers permuted. -/
structure Symbol.Renumbered (σ : Equiv.Perm Nat) (s s' : Symbol) : Prop where
  name : s'.name = s.name
  outer : s'.outer = s.outer.map σ
  declarations : s'.declarations.map Declaration.bare = s.declarations.map Declaration.bare
  exports : NamesRenumbered σ s.exports s'.exports
  starExports : s'.starExports = s.starExports
  exportEquals : s'.exportEquals = s.exportEquals

structure Scope.Renumbered (σ : Equiv.Perm Nat) (s s' : Scope) : Prop where
  outer : s'.outer = s.outer
  names : NamesRenumbered σ s.names s'.names
  container : s'.container = s.container.map σ

/-- All statements of the file that are noted are in the scope `home`. -/
def Binding.Keeps (file home : Nat) (b : Binding) : Prop :=
  ∀ e ∈ b.statementScopes, e.1.1 = file → e.2 = home

/-- The second binding is the first one with the numbers of its symbols permuted. The statements of
the file may have other numbers; all are in the scope `home`. -/
structure Binding.Renumbered (file home : Nat) (σ : Equiv.Perm Nat) (b b' : Binding) : Prop where
  size : b'.symbols.size = b.symbols.size
  fixes : ∀ id, b.symbols.size ≤ id → σ id = id
  symbol : ∀ id, (b.symbol id).Renumbered σ (b'.symbol (σ id))
  scopes : b'.scopes.size = b.scopes.size
  scope : ∀ id, (b.scope id).Renumbered σ (b'.scope id)
  fileModules : ∀ f, b'.fileModules.getD f none = (b.fileModules.getD f none).map σ
  ambientModules : NamesRenumbered σ b.ambientModules b'.ambientModules
  statementScopes : ∀ key : Nat × Nat, key.1 ≠ file →
    b'.statementScopes.lookup key = b.statementScopes.lookup key
  keeps : b.Keeps file home
  keeps' : b'.Keeps file home

variable {σ τ : Equiv.Perm Nat} {file home : Nat}

theorem NamesRenumbered.cons {ns ns' : Names Nat} (h : NamesRenumbered σ ns ns') (name : String)
    (id : Nat) : NamesRenumbered σ ((name, id) :: ns) ((name, σ id) :: ns') := by
  intro other
  rw [List.lookup_cons, List.lookup_cons]
  cases other == name with
  | true => rfl
  | false => exact h other

/-- Two names can be added in either order. -/
theorem NamesRenumbered.swap {ns ns' : Names Nat} (h : NamesRenumbered σ ns ns')
    {name name' : String} (hne : name ≠ name') (id id' : Nat) :
    NamesRenumbered σ ((name, id) :: (name', id') :: ns)
      ((name', σ id') :: (name, σ id) :: ns') := by
  intro other
  simp only [List.lookup_cons, h other]
  by_cases hname : other = name
  · subst hname
    simp [beq_false_of_ne hne]
  · simp only [beq_false_of_ne hname]
    split <;> rfl

theorem NamesRenumbered.symm {ns ns' : Names Nat} (h : NamesRenumbered σ ns ns') :
    NamesRenumbered σ.symm ns' ns := by
  intro name
  rw [h name, Option.map_map, Equiv.symm_comp_self, Option.map_id]
  rfl

theorem NamesRenumbered.trans {ns ns' ns'' : Names Nat} (h : NamesRenumbered σ ns ns')
    (h' : NamesRenumbered τ ns' ns'') : NamesRenumbered (σ.trans τ) ns ns'' := by
  intro name
  rw [h' name, h name, Option.map_map]
  rfl

theorem Symbol.renumbered_fresh (name : String) (outer : List Nat) :
    (Symbol.fresh name outer).Renumbered σ (.fresh name (outer.map σ)) :=
  ⟨rfl, rfl, rfl, fun _ ↦ rfl, rfl, rfl⟩

theorem Symbol.Renumbered.trans {s s' s'' : Symbol} (h : s.Renumbered σ s')
    (h' : s'.Renumbered τ s'') : s.Renumbered (σ.trans τ) s'' where
  name := h'.name.trans h.name
  outer := by rw [h'.outer, h.outer, List.map_map]; rfl
  declarations := h'.declarations.trans h.declarations
  exports := h.exports.trans h'.exports
  starExports := h'.starExports.trans h.starExports
  exportEquals := h'.exportEquals.trans h.exportEquals

theorem Symbol.Renumbered.symm {s s' : Symbol} (h : s.Renumbered σ s') :
    s'.Renumbered σ.symm s where
  name := h.name.symm
  outer := by rw [h.outer, List.map_map, Equiv.symm_comp_self, List.map_id]
  declarations := h.declarations.symm
  exports := h.exports.symm
  starExports := h.starExports.symm
  exportEquals := h.exportEquals.symm

theorem Scope.Renumbered.symm {s s' : Scope} (h : s.Renumbered σ s') :
    s'.Renumbered σ.symm s where
  outer := h.outer.symm
  names := h.names.symm
  container := by rw [h.container, Option.map_map, Equiv.symm_comp_self, Option.map_id]; rfl

theorem Scope.Renumbered.trans {s s' s'' : Scope} (h : s.Renumbered σ s')
    (h' : s'.Renumbered τ s'') : s.Renumbered (σ.trans τ) s'' where
  outer := h'.outer.trans h.outer
  names := h.names.trans h'.names
  container := by rw [h'.container, h.container, Option.map_map]; rfl

theorem Symbol.renumbered_refl (s : Symbol) : s.Renumbered (Equiv.refl Nat) s where
  name := rfl
  outer := (List.map_id _).symm
  declarations := rfl
  exports _ := (congrFun Option.map_id _).symm
  starExports := rfl
  exportEquals := rfl

theorem Scope.renumbered_refl (s : Scope) : s.Renumbered (Equiv.refl Nat) s where
  outer := rfl
  names _ := (congrFun Option.map_id _).symm
  container := (congrFun Option.map_id _).symm

namespace Binding

variable {b b' b'' : Binding}

theorem renumbered_refl (h : b.Keeps file home) :
    Renumbered file home (Equiv.refl Nat) b b where
  size := rfl
  fixes _ _ := rfl
  symbol id := (b.symbol id).renumbered_refl
  scopes := rfl
  scope id := (b.scope id).renumbered_refl
  fileModules _ := (congrFun Option.map_id _).symm
  ambientModules _ := (congrFun Option.map_id _).symm
  statementScopes _ _ := rfl
  keeps := h
  keeps' := h

namespace Renumbered

variable (h : Renumbered file home σ b b')

include h

theorem trans (h' : Renumbered file home τ b' b'') :
    Renumbered file home (σ.trans τ) b b'' where
  size := h'.size.trans h.size
  fixes id hid := by
    rw [Equiv.trans_apply, h.fixes id hid, h'.fixes id (h.size.trans_le hid)]
  symbol id := (h.symbol id).trans (h'.symbol (σ id))
  scopes := h'.scopes.trans h.scopes
  scope id := (h.scope id).trans (h'.scope id)
  fileModules f := by
    rw [h'.fileModules, h.fileModules, Option.map_map]
    rfl
  ambientModules := h.ambientModules.trans h'.ambientModules
  statementScopes key hkey := (h'.statementScopes key hkey).trans (h.statementScopes key hkey)
  keeps := h.keeps
  keeps' := h'.keeps'

theorem symm : Renumbered file home σ.symm b' b where
  size := h.size.symm
  fixes id hid := (Equiv.symm_apply_eq σ).mpr (h.fixes id (h.size.symm.trans_le hid)).symm
  symbol id := by
    have hid := (h.symbol (σ.symm id)).symm
    rwa [Equiv.apply_symm_apply] at hid
  scopes := h.scopes.symm
  scope id := (h.scope id).symm
  fileModules f := by
    rw [h.fileModules, Option.map_map, Equiv.symm_comp_self, Option.map_id]
    rfl
  ambientModules := h.ambientModules.symm
  statementScopes key hkey := (h.statementScopes key hkey).symm
  keeps := h.keeps'
  keeps' := h.keeps

theorem apply_size : σ b.symbols.size = b.symbols.size := h.fixes _ le_rfl

theorem apply_lt_iff (id : Nat) : σ id < b'.symbols.size ↔ id < b.symbols.size := by
  rw [h.size]
  constructor
  · intro hlt
    by_contra hid
    exact hid ((h.fixes id (not_lt.mp hid)) ▸ hlt)
  · intro hlt
    by_contra hid
    have hfixed := σ.injective (h.fixes _ (not_lt.mp hid))
    exact hid (hfixed.symm ▸ hlt)

theorem withSymbol (id : Nat) {f f' : Symbol → Symbol}
    (hf : ∀ s s', s.Renumbered σ s' → (f s).Renumbered σ (f' s')) :
    Renumbered file home σ (b.withSymbol id f) (b'.withSymbol (σ id) f') := by
  have hsize (b : Binding) (id : Nat) (f : Symbol → Symbol) :
      (b.withSymbol id f).symbols.size = b.symbols.size := Array.size_modify
  refine { h with size := ?_, fixes := fun j hj ↦ ?_, symbol := fun j ↦ ?_ }
  · rw [hsize, hsize, h.size]
  · exact h.fixes j ((hsize b id f).symm.trans_le hj)
  · rw [symbol_withSymbol, symbol_withSymbol]
    simp only [σ.apply_eq_iff_eq, h.apply_lt_iff]
    split
    · exact hf _ _ (h.symbol j)
    · exact h.symbol j

theorem pushSymbol (name : String) (outer : List Nat) :
    Renumbered file home σ { b with symbols := b.symbols.push (.fresh name outer) }
      { b' with symbols := b'.symbols.push (.fresh name (outer.map σ)) } := by
  refine { h with size := ?_, fixes := fun j hj ↦ h.fixes j ?_, symbol := fun j ↦ ?_ }
  · simpa using h.size
  · exact le_trans (by simp) hj
  · have hiff : σ j = b'.symbols.size ↔ j = b.symbols.size := by
      rw [h.size, ← h.apply_size, σ.apply_eq_iff_eq, h.apply_size]
    rw [symbol_push, symbol_push]
    simp only [hiff]
    split
    · exact Symbol.renumbered_fresh name outer
    · exact h.symbol j

theorem pushScope (outer : List Nat) (container : Option Nat) :
    Renumbered file home σ { b with scopes := b.scopes.push ⟨outer, [], container⟩ }
      { b' with scopes := b'.scopes.push ⟨outer, [], container.map σ⟩ } := by
  refine { h with scopes := ?_, scope := fun j ↦ ?_ }
  · simpa using h.scopes
  · rw [scope_push, scope_push, h.scopes]
    split
    · exact ⟨rfl, fun _ ↦ rfl, rfl⟩
    · exact h.scope j

theorem addName (scope : Nat) (name : String) (id : Nat) :
    Renumbered file home σ
      (b.withScope scope fun s ↦ { s with names := (name, id) :: s.names })
      (b'.withScope scope fun s ↦ { s with names := (name, σ id) :: s.names }) := by
  refine { h with scopes := ?_, scope := fun j ↦ ?_ }
  · simpa [Binding.withScope] using h.scopes
  · rw [scope_withScope, scope_withScope, h.scopes]
    split
    · exact { h.scope j with names := (h.scope j).names.cons name id }
    · exact h.scope j

/-- A statement of another file is noted in both. -/
theorem note {other : Nat} (hother : other ≠ file) (id scope : Nat) :
    Renumbered file home σ
      { b with statementScopes := ((other, id), scope) :: b.statementScopes }
      { b' with statementScopes := ((other, id), scope) :: b'.statementScopes } := by
  refine { h with statementScopes := fun key hkey ↦ ?_, keeps := ?_, keeps' := ?_ }
  · rw [List.lookup_cons, List.lookup_cons]
    split
    · rfl
    · exact h.statementScopes key hkey
  · exact List.forall_mem_cons.mpr ⟨fun heq ↦ absurd heq hother, h.keeps⟩
  · exact List.forall_mem_cons.mpr ⟨fun heq ↦ absurd heq hother, h.keeps'⟩

/-- A statement of the file is noted in the first one alone. -/
theorem noteFirst (id : Nat) :
    Renumbered file home σ
      { b with statementScopes := ((file, id), home) :: b.statementScopes } b' := by
  refine { h with statementScopes := fun key hkey ↦ ?_, keeps := ?_ }
  · rw [List.lookup_cons, beq_false_of_ne fun heq ↦ hkey (congrArg Prod.fst heq)]
    exact h.statementScopes key hkey
  · exact List.forall_mem_cons.mpr ⟨fun _ ↦ rfl, h.keeps⟩

end Renumbered

end Binding

def Place.renumber (σ : Equiv.Perm Nat) (place : Place) : Place :=
  { place with container := place.container.map σ }

namespace Place

variable (place : Place)

@[simp] theorem file_renumber : (place.renumber σ).file = place.file := rfl

@[simp] theorem scope_renumber : (place.renumber σ).scope = place.scope := rfl

@[simp] theorem container_renumber : (place.renumber σ).container = place.container.map σ := rfl

@[simp] theorem ambient_renumber : (place.renumber σ).ambient = place.ambient := rfl

theorem renumber_eq_self (h : ∀ m ∈ place.container, σ m = m) : place.renumber σ = place := by
  obtain ⟨f, scope, container, ambient⟩ := place
  cases container with
  | none => rfl
  | some m => rw [renumber, Option.map_some, h m rfl]

end Place

namespace Binder

variable {α β : Type} {b b' : Binding} {r : α → α} {t : β → β}

/-- Done in bindings of which the second is the first one renumbered, the second action gives the
answer of the first one renumbered, and leaves such bindings. -/
def Renumbers (file home : Nat) (σ : Equiv.Perm Nat) (r : α → α) (b b' : Binding)
    (p p' : Binder α) : Prop :=
  Binding.Renumbered file home σ b b' →
    (p' b').1 = r (p b).1 ∧ Binding.Renumbered file home σ (p b).2 (p' b').2

theorem renumbers_pure (a : α) : Renumbers file home σ r b b' (pure a) (pure (r a)) :=
  fun h ↦ ⟨rfl, h⟩

theorem renumbers_modify {f f' : Binding → Binding}
    (h : Binding.Renumbered file home σ b b' → Binding.Renumbered file home σ (f b) (f' b')) :
    Renumbers file home σ id b b' (modify f : Binder Unit) (modify f') :=
  fun hb ↦ ⟨rfl, h hb⟩

theorem renumbers_get {q q' : Binding → Binder β}
    (h : Binding.Renumbered file home σ b b' → Renumbers file home σ t b b' (q b) (q' b')) :
    Renumbers file home σ t b b' (get >>= q) (get >>= q') :=
  fun hb ↦ h hb hb

theorem Renumbers.bind_of {p p' : Binder α} {q q' : α → Binder β} {Q : α → Prop}
    (hp : Renumbers file home σ r b b' p p') (hpost : Q (p b).1)
    (hq : ∀ a c c', Q a → Renumbers file home σ t c c' (q a) (q' (r a))) :
    Renumbers file home σ t b b' (p >>= q) (p' >>= q') := by
  intro hb
  obtain ⟨hanswer, hc⟩ := hp hb
  change (q' (p' b').1 (p' b').2).1 = t (q (p b).1 (p b).2).1 ∧
    Binding.Renumbered file home σ (q (p b).1 (p b).2).2 (q' (p' b').1 (p' b').2).2
  rw [hanswer]
  exact hq _ _ _ hpost hc

theorem Renumbers.bind {p p' : Binder α} {q q' : α → Binder β}
    (hp : Renumbers file home σ r b b' p p')
    (hq : ∀ a c c', Renumbers file home σ t c c' (q a) (q' (r a))) :
    Renumbers file home σ t b b' (p >>= q) (p' >>= q') :=
  hp.bind_of (Q := fun _ ↦ True) trivial fun a c c' _ ↦ hq a c c'

theorem Renumbers.discard {p p' : Binder α} (hp : Renumbers file home σ r b b' p p') :
    Renumbers file home σ id b b' (discard p) (discard p') :=
  fun hb ↦ ⟨rfl, (hp hb).2⟩

theorem renumbers_forM {xs : List α} {f g : α → Binder Unit}
    (h : ∀ x ∈ xs, ∀ c c', Renumbers file home σ id c c' (f x) (g x)) :
    Renumbers file home σ id b b' (xs.forM f) (xs.forM g) := by
  induction xs generalizing b b' with
  | nil => exact renumbers_pure ()
  | cons x rest ih =>
      exact (h x List.mem_cons_self b b').bind fun _ _ _ ↦
        ih fun y hy ↦ h y (List.mem_cons_of_mem _ hy)

/-! ## Single actions -/

theorem renumbers_newScope (outer : List Nat) (container : Option Nat) :
    Renumbers file home σ id b b' (newScope outer container)
      (newScope outer (container.map σ)) :=
  fun hb ↦ ⟨hb.scopes, hb.pushScope outer container⟩

theorem renumbers_scopeChain (scope : Nat) :
    Renumbers file home σ id b b' (scopeChain scope) (scopeChain scope) := by
  refine renumbers_get fun hb ↦ ?_
  rw [(hb.scope scope).outer]
  exact renumbers_pure _

theorem renumbers_symbolChain (symbol : Option Nat) :
    Renumbers file home σ (List.map σ) b b' (symbolChain symbol)
      (symbolChain (symbol.map σ)) := by
  cases symbol with
  | none => exact renumbers_pure (r := List.map σ) []
  | some id =>
      refine renumbers_get fun hb ↦ ?_
      rw [(hb.symbol id).outer]
      exact renumbers_pure (r := List.map σ) (id :: (b.symbol id).outer)

theorem renumbers_newSymbol (name : String) (parent : Option Nat) :
    Renumbers file home σ σ b b' (newSymbol name parent) (newSymbol name (parent.map σ)) := by
  refine (renumbers_symbolChain parent).bind fun outer c c' hc ↦ ?_
  exact ⟨hc.size.trans hc.apply_size.symm, hc.pushSymbol name outer⟩

theorem renumbers_changeSymbol (symbol : Nat) {f f' : Symbol → Symbol}
    (hf : ∀ s s', s.Renumbered σ s' → (f s).Renumbered σ (f' s')) :
    Renumbers file home σ id b b' (changeSymbol symbol f) (changeSymbol (σ symbol) f') :=
  renumbers_modify fun hb ↦ hb.withSymbol symbol hf

theorem renumbers_addDeclaration (symbol : Nat) {d d' : Declaration} (hd : d'.bare = d.bare) :
    Renumbers file home σ id b b' (addDeclaration symbol d) (addDeclaration (σ symbol) d') := by
  refine renumbers_changeSymbol symbol fun s s' hs ↦ { hs with declarations := ?_ }
  simp [hs.declarations, hd]

theorem renumbers_addExport (container : Nat) (name : String) (symbol : Nat) :
    Renumbers file home σ id b b' (addExport container name symbol)
      (addExport (σ container) name (σ symbol)) :=
  renumbers_changeSymbol container fun _ _ hs ↦ { hs with exports := hs.exports.cons name symbol }

/-! ## Declarations -/

/-- A name is declared alike, whatever the places in the text are. -/
theorem renumbers_declare (place : Place) (exported : Bool) (name : String)
    {kind kind' : DeclarationKind} (hkind : kind'.bare = kind.bare) :
    Renumbers file home σ σ b b' (declare place exported name kind)
      (declare (place.renumber σ) exported name kind') := by
  have hd : Declaration.bare ⟨place.file, place.scope, kind'⟩ =
      Declaration.bare ⟨place.file, place.scope, kind⟩ := by rw [Declaration.bare, hkind]; rfl
  have hcontainer : (if exported then (place.renumber σ).container else none) =
      (if exported then place.container else none).map σ := by cases exported <;> rfl
  unfold declare
  simp only [hcontainer, Place.file_renumber, Place.scope_renumber]
  generalize (if exported then place.container else none) = declaredIn
  refine renumbers_get fun hb ↦ ?_
  have hnew (c c' : Binding) (add : Nat → Binder Unit) (add' : Nat → Binder Unit)
      (hadd : ∀ n c c', Renumbers file home σ id c c' (add n) (add' (σ n))) :
      Renumbers file home σ σ c c'
        (do
          let n ← newSymbol name (b.scope place.scope).container
          addDeclaration n ⟨place.file, place.scope, kind⟩
          add n
          return n)
        (do
          let n ← newSymbol name (b'.scope place.scope).container
          addDeclaration n ⟨place.file, place.scope, kind'⟩
          add' n
          return n) := by
    rw [(hb.scope place.scope).container]
    exact (renumbers_newSymbol name _).bind fun n _ _ ↦
      (renumbers_addDeclaration n hd).bind fun _ _ _ ↦
        (hadd n _ _).bind fun _ _ _ ↦ renumbers_pure n
  have hold (n : Nat) : Renumbers file home σ σ b b'
      (do addDeclaration n ⟨place.file, place.scope, kind⟩; return n)
      (do addDeclaration (σ n) ⟨place.file, place.scope, kind'⟩; return (σ n)) :=
    (renumbers_addDeclaration n hd).bind fun _ _ _ ↦ renumbers_pure n
  cases declaredIn with
  | some m =>
      have hknown := (hb.symbol m).exports name
      simp only [Option.map_some, hknown]
      cases (b.symbol m).exports.lookup name with
      | some n => exact hold n
      | none => exact hnew b b' _ _ fun n _ _ ↦ renumbers_addExport m name n
  | none =>
      have hknown := (hb.scope place.scope).names name
      simp only [Option.map_none, hknown]
      cases (b.scope place.scope).names.lookup name with
      | some n => exact hold n
      | none => exact hnew b b' _ _ fun n _ _ ↦ renumbers_modify fun hc ↦ hc.addName _ name n

theorem renumbers_exportLink (place : Place) (container : Nat) (name : String) (link : Link) :
    Renumbers file home σ id b b' (exportLink place container name link)
      (exportLink (place.renumber σ) (σ container) name link) := by
  refine (renumbers_newSymbol name (some container)).bind fun n _ _ ↦ ?_
  exact (renumbers_addDeclaration n rfl).bind fun _ _ _ ↦ renumbers_addExport container name n

theorem renumbers_exportDefault (place : Place) (symbol : Option Nat) (kind : DeclarationKind) :
    Renumbers file home σ id b b' (exportDefault place symbol kind)
      (exportDefault (place.renumber σ) (symbol.map σ) kind) := by
  obtain ⟨_, _, container, _⟩ := place
  cases container with
  | none => exact renumbers_pure (r := id) ()
  | some m =>
      cases symbol with
      | some n => exact renumbers_addExport m "default" n
      | none =>
          refine (renumbers_newSymbol "default" (some m)).bind fun n _ _ ↦ ?_
          exact (renumbers_addDeclaration n rfl).bind fun _ _ _ ↦ renumbers_addExport m _ n

theorem renumbers_declareMain (place : Place) (exported isDefault : Bool) (name : Option Name)
    (kind : DeclarationKind) :
    Renumbers file home σ id b b' (declareMain place exported isDefault name kind)
      (declareMain (place.renumber σ) exported isDefault name kind) := by
  have hdefault (symbol : Option Nat) (c c' : Binding) : Renumbers file home σ id c c'
      (if isDefault then exportDefault place symbol kind else pure ())
      (if isDefault then exportDefault (place.renumber σ) (symbol.map σ) kind else pure ()) := by
    split
    · exact renumbers_exportDefault place symbol kind
    · exact renumbers_pure (r := id) ()
  unfold declareMain
  cases name with
  | none => exact hdefault none _ _
  | some n => exact (renumbers_declare place exported n.text rfl).bind fun m ↦ hdefault (some m)

theorem renumbers_declareName (place : Place) (exported : Bool) (name : String)
    (kind : DeclarationKind) :
    Renumbers file home σ id b b' (discard (declare place exported name kind))
      (discard (declare (place.renumber σ) exported name kind)) :=
  (renumbers_declare place exported name rfl).discard

theorem renumbers_declareImport (place : Place) (decl : ImportDecl) :
    Renumbers file home σ id b b' (declareImport place decl)
      (declareImport (place.renumber σ) decl) := by
  unfold declareImport
  extract_lets module add rest after module' add' rest' after'
  have hadd (name : String) (link : Link) (c c' : Binding) :
      Renumbers file home σ id c c' (add name link) (add' name link) :=
    renumbers_declareName place false name (.link link)
  have hrest (c c' : Binding) : Renumbers file home σ id c c' (rest ()) (rest' ()) :=
    renumbers_forM fun s _ ↦ hadd s.name _
  have hafter (c c' : Binding) : Renumbers file home σ id c c' (after ()) (after' ()) := by
    unfold after after'
    split
    · exact (hadd _ _ _ _).bind fun _ ↦ hrest
    · exact hrest _ _
  split
  · exact (hadd _ _ _ _).bind fun _ ↦ hafter
  · exact hafter _ _

theorem renumbers_declareExport (place : Place) (container : Nat) (decl : ExportDecl) :
    Renumbers file home σ id b b' (declareExport place container decl)
      (declareExport (place.renumber σ) (σ container) decl) := by
  unfold declareExport
  simp only [Place.file_renumber]
  split
  · exact renumbers_changeSymbol container fun _ _ hs ↦
      { hs with starExports := congrArg (· ++ _) hs.starExports }
  · exact renumbers_exportLink _ _ _ _
  · exact renumbers_pure (r := id) ()
  · exact renumbers_forM fun s _ _ _ ↦ renumbers_exportLink _ _ _ _
  · refine renumbers_forM fun s _ c c' ↦ renumbers_get fun hc ↦ ?_
    rw [(hc.symbol container).exports, Option.isNone_map]
    split
    · exact renumbers_exportLink _ _ _ _
    · exact renumbers_pure (r := id) ()

theorem renumbers_declareOwn (place : Place) (exported isDefault : Bool) (decl : Decl) :
    Renumbers file home σ id b b' (declareOwn place exported isDefault decl)
      (declareOwn (place.renumber σ) exported isDefault decl) := by
  match decl with
  | .classDecl c => exact renumbers_declareMain place exported isDefault c.name _
  | .interfaceDecl i => exact renumbers_declareMain place exported isDefault (some i.name) _
  | .function name _ _ => exact renumbers_declareMain place exported isDefault name _
  | .aliasDecl a => exact renumbers_declareName place exported a.name.text _
  | .enumDecl name _ => exact renumbers_declareName place exported name.text _
  | .importEquals name target =>
      exact renumbers_declareName place exported name _
  | .importDecl decl => exact renumbers_declareImport place decl
  | .variable keyword declarators =>
      refine renumbers_forM fun d _ _ _ ↦ ?_
      split
      · exact renumbers_declareName place exported _ _
      · exact renumbers_pure (r := id) ()
  | .exportDecl decl =>
      obtain ⟨f, scope, container, ambient⟩ := place
      cases container with
      | none => exact renumbers_pure (r := id) ()
      | some m => exact renumbers_declareExport ⟨f, scope, some m, ambient⟩ m decl
  | .exportAssignment isEquals entity =>
      obtain ⟨f, scope, container, ambient⟩ := place
      cases container with
      | none => exact renumbers_pure (r := id) ()
      | some m =>
          cases entity with
          | none => exact renumbers_pure (r := id) ()
          | some path =>
              cases isEquals with
              | true => exact renumbers_changeSymbol m fun _ _ hs ↦
                  { hs with exportEquals := rfl }
              | false => exact renumbers_exportLink ⟨f, scope, some m, ambient⟩ m "default" _
  | .moduleDecl .. | .block _ | .other => exact renumbers_pure (r := id) ()

/-! ## Places -/

theorem renumbers_inside (place : Place) (symbol : Nat) (ambient : Bool) :
    Renumbers file home σ (Place.renumber σ) b b' (inside place symbol ambient)
      (inside (place.renumber σ) (σ symbol) ambient) :=
  (renumbers_scopeChain place.scope).bind fun outer _ _ ↦
    (renumbers_newScope outer (some symbol)).bind fun scope _ _ ↦
      renumbers_pure (r := Place.renumber σ) ⟨place.file, scope, some symbol, ambient⟩

theorem renumbers_enterBody (place : Place) :
    Renumbers file home σ (Place.renumber σ) b b' (enterBody place)
      (enterBody (place.renumber σ)) :=
  (renumbers_scopeChain place.scope).bind fun outer _ _ ↦
    (renumbers_newScope outer none).bind fun scope _ _ ↦
      renumbers_pure (r := Place.renumber σ) ⟨place.file, scope, none, false⟩

theorem renumbers_enterNamespaces (place : Place) (exported : Bool) (segments : List String) :
    Renumbers file home σ (Place.renumber σ) b b' (enterNamespaces place exported segments)
      (enterNamespaces (place.renumber σ) exported segments) := by
  induction segments generalizing place exported b b' with
  | nil => exact renumbers_pure place
  | cons segment rest ih =>
      refine (renumbers_declare place exported segment rfl).bind fun n _ _ ↦ ?_
      exact (renumbers_inside place n place.ambient).bind fun inner _ _ ↦ ih inner true

variable {program program' : Program}

section

variable (hmodule : ∀ file specifier,
  program'.resolvedModule file specifier = program.resolvedModule file specifier)

include hmodule

theorem renumbers_namedModule (place : Place) (specifier : String) :
    Renumbers file home σ σ b b' (namedModule program place specifier)
      (namedModule program' (place.renumber σ) specifier) := by
  refine renumbers_get fun hb ↦ ?_
  have hfile (f : Option Nat) : (f.bind fun f ↦ b'.fileModules.getD f none) =
      (f.bind fun f ↦ b.fileModules.getD f none).map σ := by
    cases f with
    | none => rfl
    | some f => exact hb.fileModules f
  have haugmented : (if (place.renumber σ).container.isSome then
        (program'.resolvedModule (place.renumber σ).file specifier).bind fun f ↦
          b'.fileModules.getD f none
      else none) = (if place.container.isSome then
        (program.resolvedModule place.file specifier).bind fun f ↦ b.fileModules.getD f none
      else none).map σ := by
    rw [hmodule, Place.container_renumber, Option.isSome_map, Place.file_renumber, hfile]
    split <;> rfl
  simp only [haugmented, hb.ambientModules specifier, Option.orElse_eq_orElse, Option.orElse_eq_or,
    ← Option.map_or]
  split
  next n hn =>
    rw [hn]
    exact renumbers_pure n
  next hnone =>
    rw [Option.eq_none_iff_forall_ne_some.mpr hnone]
    refine (renumbers_newSymbol specifier none).bind fun n _ _ ↦ ?_
    refine Renumbers.bind (renumbers_modify fun hc ↦ ?_) fun _ _ _ ↦ renumbers_pure n
    exact { hc with ambientModules := hc.ambientModules.cons specifier n }

theorem renumbers_enterModule (place : Place) (exported : Bool) (name : ModuleName) :
    Renumbers file home σ (Place.renumber σ) b b' (enterModule program place exported name)
      (enterModule program' (place.renumber σ) exported name) := by
  cases name with
  | global => exact renumbers_pure (r := Place.renumber σ) _
  | string specifier =>
      refine (renumbers_namedModule hmodule place specifier).bind fun n _ _ ↦ ?_
      exact (renumbers_addDeclaration n rfl).bind fun _ _ _ ↦ renumbers_inside place n true
  | path segments => exact renumbers_enterNamespaces place exported segments

/-! ## Statements -/

omit hmodule in
theorem exportsAll_renumber (place : Place) (body : List Statement) :
    exportsAll (place.renumber σ) body = exportsAll place body := by
  simp only [exportsAll, Place.container_renumber, Place.ambient_renumber, Option.isSome_map]

/-- Wherever the statements are bound, outside the file, the numbers stay permuted. -/
abbrev RenumbersEach (file home : Nat) (σ : Equiv.Perm Nat) (program program' : Program)
    (body : List Statement) : Prop :=
  ∀ s ∈ body, ∀ (b b' : Binding) (place : Place) (all : Bool), place.file ≠ file →
    Renumbers file home σ id b b' (bindStatement program place all s)
      (bindStatement program' (place.renumber σ) all s)

omit hmodule in
theorem renumbers_bindAll_of {body : List Statement}
    (hbody : RenumbersEach file home σ program program' body) {place : Place}
    (hplace : place.file ≠ file) (all : Bool) :
    Renumbers file home σ id b b' (bindAll program place all body)
      (bindAll program' (place.renumber σ) all body) := by
  rw [bindAll_eq_forM, bindAll_eq_forM]
  exact renumbers_forM fun s hs c c' ↦ hbody s hs c c' place all hplace

omit hmodule in
theorem renumbers_enterBody_of {body : List Statement}
    (hbody : RenumbersEach file home σ program program' body) {place : Place}
    (hplace : place.file ≠ file) :
    Renumbers file home σ id b b' (enterBody place >>= fun inner ↦
      bindAll program inner false body)
      (enterBody (place.renumber σ) >>= fun inner ↦ bindAll program' inner false body) :=
  (renumbers_enterBody place).bind_of (Q := fun inner ↦ inner.file ≠ file) hplace
    fun _ _ _ hinner ↦ renumbers_bindAll_of hbody hinner false

omit hmodule in
theorem renumbers_bindBody_of {body : Option (List Statement)}
    (hbody : RenumbersEach file home σ program program' (body.getD [])) {place : Place}
    (hplace : place.file ≠ file) :
    Renumbers file home σ id b b' (bindBody program place body)
      (bindBody program' (place.renumber σ) body) := by
  cases body with
  | none => exact renumbers_pure (r := id) ()
  | some body => exact renumbers_enterBody_of hbody hplace

omit hmodule in
theorem renumbers_bindModule_of {body : Option (List Statement)}
    (hbody : RenumbersEach file home σ program program' (body.getD [])) {place : Place}
    (hplace : place.file ≠ file) :
    Renumbers file home σ id b b' (bindModule program place body)
      (bindModule program' (place.renumber σ) body) := by
  cases body with
  | none => exact renumbers_pure (r := id) ()
  | some body =>
      rw [bindModule, bindModule, exportsAll_renumber]
      exact renumbers_bindAll_of hbody hplace _

omit hmodule in
theorem renumbers_bindMember_of {m : ClassMember}
    (hbody : RenumbersEach file home σ program program' m.body) {place : Place}
    (hplace : place.file ≠ file) :
    Renumbers file home σ id b b' (bindMember program place m.kind)
      (bindMember program' (place.renumber σ) m.kind) := by
  obtain ⟨modifiers, kind, span⟩ := m
  cases kind with
  | constructor params body | method name optional signature body | getter name type body
  | setter name param body => exact renumbers_bindBody_of hbody hplace
  | staticBlock body => exact renumbers_enterBody_of hbody hplace
  | property | index => exact renumbers_pure (r := id) ()

omit hmodule in
theorem renumbers_bindMembers_of {members : List ClassMember}
    (hbody : RenumbersEach file home σ program program' (members.flatMap ClassMember.body))
    {place : Place} (hplace : place.file ≠ file) :
    Renumbers file home σ id b b' (bindMembers program place members)
      (bindMembers program' (place.renumber σ) members) := by
  induction members generalizing b b' with
  | nil => exact renumbers_pure (r := id) ()
  | cons m rest ih =>
      rw [List.flatMap_cons] at hbody
      have hmember : Renumbers file home σ id b b' (bindMember program place m.kind)
          (bindMember program' (place.renumber σ) m.kind) :=
        renumbers_bindMember_of (fun s hs ↦ hbody s (List.mem_append_left _ hs)) hplace
      obtain ⟨modifiers, kind, span⟩ := m
      exact hmember.bind fun _ _ _ ↦ ih fun s hs ↦ hbody s (List.mem_append_right _ hs)

theorem renumbers_bindInside_of {s : Statement}
    (hbody : RenumbersEach file home σ program program' s.children) {place : Place}
    (hplace : place.file ≠ file) (ambient exported : Bool) :
    Renumbers file home σ id b b' (bindInside program place ambient exported s.decl)
      (bindInside program' (place.renumber σ) ambient exported s.decl) := by
  obtain ⟨n, modifiers, decl, span⟩ := s
  cases decl with
  | moduleDecl name body =>
      exact (renumbers_enterModule hmodule { place with ambient := ambient } exported name).bind_of
        (Q := fun inner ↦ inner.file ≠ file)
        ((file_enterModule _ exported name).trans_ne hplace)
        fun _ _ _ hinner ↦ renumbers_bindModule_of hbody hinner
  | classDecl c =>
      obtain ⟨_, _, _, _, members⟩ := c
      exact renumbers_bindMembers_of hbody hplace
  | function name signature body => exact renumbers_bindBody_of hbody hplace
  | block body => exact renumbers_enterBody_of hbody hplace
  | _ => exact renumbers_pure (r := id) ()

theorem renumbers_bindStatement (s : Statement) {place : Place} (hplace : place.file ≠ file)
    (all : Bool) :
    Renumbers file home σ id b b' (bindStatement program place all s)
      (bindStatement program' (place.renumber σ) all s) := by
  induction s using Statement.children_induction generalizing b b' place all with
  | h s ih =>
      have hinside (c c' : Binding) (ambient exported : Bool) :
          Renumbers file home σ id c c' (bindInside program place ambient exported s.decl)
            (bindInside program' (place.renumber σ) ambient exported s.decl) :=
        renumbers_bindInside_of hmodule (fun t ht _ _ place all hplace ↦ ih t ht hplace all)
          hplace _ _
      obtain ⟨n, modifiers, decl, span⟩ := s
      refine Renumbers.bind (renumbers_modify fun hb ↦ hb.note hplace n place.scope)
        fun _ c c' ↦ ?_
      exact (renumbers_declareOwn place _ _ decl).bind fun _ c c' ↦ hinside c c' _ _

/-- The numbers stay permuted when another file is bound. -/
theorem renumbers_bindFile (u : SourceUnit) {other : Nat} (hother : other ≠ file) :
    Renumbers file home σ id b b' (bindFile program u other) (bindFile program' u other) := by
  unfold bindFile
  extract_lets global rest rest'
  have hall (place : Place) (c c' : Binding) (hplace : place.file ≠ file) :
      Renumbers file home σ id c c' (rest place) (rest' (place.renumber σ)) := by
    unfold rest rest'
    rw [exportsAll_renumber]
    exact renumbers_bindAll_of
      (fun s _ _ _ _ all hplace ↦ renumbers_bindStatement hmodule s hplace all) hplace _
  refine renumbers_get fun hb ↦ ?_
  rw [hb.fileModules]
  cases b.fileModules.getD other none with
  | none => exact hall global b b' hother
  | some m =>
      exact (renumbers_inside global m _).bind_of (Q := fun place ↦ place.file ≠ file) hother
        fun place c c' ↦ hall place c c'

end

end Binder

end PluginSurface
