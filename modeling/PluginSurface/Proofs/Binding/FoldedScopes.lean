import PluginSurface.Proofs.Binding.Spared

/-!
# Bindings in which several scopes stand for one

A binding can have more scopes than another one that says the same: several scopes of it stand for
one scope of the other, and a namespace that has several scopes is declared several times. An action
of the binder that is done in corresponding places of both gives the same answer and leaves such
bindings. Names can be declared in a scope if no other one stands for the same, and exported in any
case. Main statement: `Binder.folding_declareOwn`.
-/

namespace PluginSurface

/-! ## The relation -/

/-- The second declaration is the first one in another scope, up to bodies and
places in the text. -/
structure Declaration.Moved (ρ : Nat → Nat) (d d' : Declaration) : Prop where
  file : d'.file = d.file
  scope : ρ d'.scope = d.scope
  kind : d'.kind.outline = d.kind.outline

/-- The second declarations are the first ones, except that they declare a namespace again. -/
inductive Declaration.Folds (ρ : Nat → Nat) : List Declaration → List Declaration → Prop
  | nil : Declaration.Folds ρ [] []
  | keep {ds ds' : List Declaration} {d d' : Declaration} (h : Declaration.Folds ρ ds ds')
      (hd : d.Moved ρ d') : Declaration.Folds ρ (ds ++ [d]) (ds' ++ [d'])
  | again {ds ds' : List Declaration} (h : Declaration.Folds ρ ds ds')
      (hspace : ∃ d ∈ ds, d.kind = .namespaceDecl) (file scope : Nat) :
      Declaration.Folds ρ ds (ds' ++ [⟨file, scope, .namespaceDecl⟩])

structure Symbol.Folds (ρ : Nat → Nat) (s s' : Symbol) : Prop where
  name : s'.name = s.name
  outer : s'.outer = s.outer
  declarations : Declaration.Folds ρ s.declarations s'.declarations
  exports : s'.exports = s.exports
  starExports : s'.starExports = s.starExports
  exportEquals : s.exportEquals = s'.exportEquals.map fun x ↦ (x.1, ρ x.2)

structure Scope.Folds (ρ : Nat → Nat) (s s' : Scope) : Prop where
  outer : s.outer = s'.outer.map ρ
  names : s'.names = s.names
  container : s'.container = s.container

/-- Each scope of the second binding stands for one of the first binding, with the same names.
Symbols are the same, except that namespaces may be declared again. -/
structure Binding.Folds (numbers : Nat → Nat → List Nat) (ρ : Nat → Nat)
    (b b' : Binding) : Prop where
  size : b'.symbols.size = b.symbols.size
  symbol : ∀ id, (b.symbol id).Folds ρ (b'.symbol id)
  old : ∀ s < b'.scopes.size, ρ s < b.scopes.size
  new : ∀ k, ρ (b'.scopes.size + k) = b.scopes.size + k
  global : ∀ s, ρ s = globalScope ↔ s = globalScope
  scope : ∀ s, (b.scope (ρ s)).Folds ρ (b'.scope s)
  fileModules : b'.fileModules = b.fileModules
  ambientModules : b'.ambientModules = b.ambientModules
  notes : ∀ e ∈ b'.statementScopes, ∃ id, e.1.2 ∈ numbers e.1.1 id ∧
    ((e.1.1, id), ρ e.2) ∈ b.statementScopes

variable {numbers : Nat → Nat → List Nat} {ρ : Nat → Nat}

theorem Symbol.folds_fresh (name : String) (outer : List Nat) :
    (Symbol.fresh name outer).Folds ρ (.fresh name outer) :=
  ⟨rfl, rfl, .nil, rfl, rfl, rfl⟩

structure NameSlot.Folds (ρ : Nat → Nat) (x x' : NameSlot) : Prop where
  name : x'.name = x.name
  container : x'.container = x.container
  scope : ρ x'.scope = x.scope

/-- Corresponding slots in which a name can be entered: it is an export, or no other scope
stands for the same. -/
structure NameSlot.Free (ρ : Nat → Nat) (x x' : NameSlot) : Prop extends x.Folds ρ x' where
  alone : x.container = none → ∀ s, ρ s = x.scope → s = x'.scope

namespace Binding.Folds

variable {b b' : Binding} (h : b.Folds numbers ρ b')

include h

/-- The next scope of the second binding stands for that of the first one, and no
other scope does. -/
theorem eq_size {s : Nat} (hs : ρ s = b.scopes.size) : s = b'.scopes.size := by
  by_cases hlt : s < b'.scopes.size
  · exact absurd hs (h.old s hlt).ne
  · obtain ⟨k, rfl⟩ := Nat.exists_eq_add_of_le (not_lt.mp hlt)
    rw [h.new] at hs
    omega

theorem apply_size : ρ b'.scopes.size = b.scopes.size := h.new 0

theorem withSymbol (id : Nat) {f f' : Symbol → Symbol}
    (hf : ∀ s s' : Symbol, s.Folds ρ s' → (f s).Folds ρ (f' s')) :
    (b.withSymbol id f).Folds numbers ρ (b'.withSymbol id f') := by
  refine { h with size := ?_, symbol := fun j ↦ ?_ }
  · simpa [Binding.withSymbol] using h.size
  · rw [symbol_withSymbol, symbol_withSymbol, h.size]
    split
    · exact hf _ _ (h.symbol j)
    · exact h.symbol j

theorem pushSymbol (name : String) (outer : List Nat) :
    Binding.Folds numbers ρ { b with symbols := b.symbols.push (.fresh name outer) }
      { b' with symbols := b'.symbols.push (.fresh name outer) } := by
  refine { h with size := ?_, symbol := fun j ↦ ?_ }
  · simpa using h.size
  · rw [symbol_push, symbol_push, h.size]
    split
    · exact Symbol.folds_fresh name outer
    · exact h.symbol j

theorem pushScope {outer outer' : List Nat} (houter : outer = outer'.map ρ)
    (container : Option Nat) :
    Binding.Folds numbers ρ { b with scopes := b.scopes.push ⟨outer, [], container⟩ }
      { b' with scopes := b'.scopes.push ⟨outer', [], container⟩ } := by
  refine { h with old := fun s hs ↦ ?_, new := fun k ↦ ?_, scope := fun s ↦ ?_ }
  · rw [Array.size_push] at hs ⊢
    rcases Nat.lt_succ_iff_lt_or_eq.mp hs with hs | rfl
    · exact (h.old s hs).trans (Nat.lt_succ_self _)
    · rw [h.apply_size]
      exact Nat.lt_succ_self _
  · have hnew := h.new (k + 1)
    simp only [Array.size_push]
    rwa [Nat.add_assoc, Nat.add_assoc, Nat.add_comm 1 k]
  · rw [scope_push, scope_push]
    by_cases hs : s = b'.scopes.size
    · rw [if_pos hs, if_pos (hs ▸ h.apply_size)]
      exact ⟨houter, rfl, rfl⟩
    · rw [if_neg hs, if_neg fun heq ↦ hs (h.eq_size heq)]
      exact h.scope s

theorem found {x x' : NameSlot} (hx : x.Folds ρ x') : b'.found x' = b.found x := by
  unfold Binding.found
  rw [hx.container, hx.name]
  cases x.container with
  | none =>
      dsimp only
      rw [(h.scope x'.scope).names, hx.scope]
  | some m =>
      dsimp only
      rw [(h.symbol m).exports]

theorem enter {x x' : NameSlot} (hx : x.Free ρ x') (id : Nat) :
    (b.enter x id).Folds numbers ρ (b'.enter x' id) := by
  unfold Binding.enter
  rw [hx.container, hx.name]
  cases hcontainer : x.container with
  | some m => exact h.withSymbol m fun _ _ hs ↦
      { hs with exports := congrArg ((x.name, id) :: ·) hs.exports }
  | none =>
      dsimp only
      have hsize (b : Binding) (s : Nat) (f : Scope → Scope) :
          (b.withScope s f).scopes.size = b.scopes.size := Array.size_modify
      refine { h with old := fun s hs ↦ ?_, new := fun k ↦ ?_, scope := fun s ↦ ?_ }
      · rw [hsize] at hs ⊢
        exact h.old s hs
      · rw [hsize, hsize]
        exact h.new k
      · rw [scope_withScope, scope_withScope]
        by_cases hs : x'.scope = s ∧ s < b'.scopes.size
        · obtain ⟨rfl, hlt⟩ := hs
          rw [if_pos ⟨hx.scope.symm, h.old _ hlt⟩, if_pos ⟨rfl, hlt⟩]
          exact { h.scope x'.scope with
            names := congrArg ((x.name, id) :: ·) (h.scope x'.scope).names }
        · have hs' : ¬(x.scope = ρ s ∧ ρ s < b.scopes.size) := by
            rintro ⟨heq, hlt⟩
            refine hs ⟨(hx.alone hcontainer s heq.symm).symm, ?_⟩
            by_contra hnew
            obtain ⟨k, rfl⟩ := Nat.exists_eq_add_of_le (not_lt.mp hnew)
            rw [h.new] at hlt
            omega
          rw [if_neg hs', if_neg hs]
          exact h.scope s

theorem enclosing (scope : Nat) : b'.enclosing scope = b.enclosing (ρ scope) := by
  unfold Binding.enclosing
  rw [(h.scope scope).container]
  cases (b.scope (ρ scope)).container with
  | none => rfl
  | some m => exact congrArg (m :: ·) (h.symbol m).outer

theorem ensured {x x' : NameSlot} (hx : x.Free ρ x') :
    (b'.ensured x').2 = (b.ensured x).2 ∧ (b.ensured x).1.Folds numbers ρ (b'.ensured x').1 := by
  unfold Binding.ensured
  rw [h.found hx.toFolds]
  cases b.found x with
  | some id => exact ⟨rfl, h⟩
  | none =>
      refine ⟨h.size, ?_⟩
      dsimp only
      rw [h.size, pushed, pushed, h.enclosing, hx.scope, hx.name]
      exact (h.pushSymbol x.name _).enter hx _

theorem addedTo (id : Nat) {d d' : Declaration} (hd : d.Moved ρ d') :
    (b.addedTo id d).Folds numbers ρ (b'.addedTo id d') :=
  h.withSymbol id fun _ _ hs ↦ { hs with declarations := hs.declarations.keep hd }

/-- A namespace is declared in the second binding again. -/
theorem addedAgain {id : Nat}
    (hspace : ∃ d ∈ (b.symbol id).declarations, d.kind = .namespaceDecl)
    (file scope : Nat) : b.Folds numbers ρ (b'.addedTo id ⟨file, scope, .namespaceDecl⟩) := by
  refine { h with size := ?_, symbol := fun j ↦ ?_ }
  · simpa [Binding.addedTo, Binding.withSymbol] using h.size
  · rw [Binding.addedTo, symbol_withSymbol]
    split
    next hj =>
      obtain ⟨rfl, -⟩ := hj
      exact { h.symbol id with declarations := (h.symbol id).declarations.again hspace file scope }
    next => exact h.symbol j

/-- A name is declared alike. -/
theorem declared {x x' : NameSlot} (hx : x.Free ρ x') {d d' : Declaration} (hd : d.Moved ρ d') :
    (b.declared x d).Folds numbers ρ (b'.declared x' d') := by
  obtain ⟨hid, he⟩ := h.ensured hx
  rw [Binding.declared, Binding.declared, hid]
  exact he.addedTo _ hd

/-- The scopes of a statement are noted, that of the second one under one of the new numbers. -/
theorem noted {file id n : Nat} (hn : n ∈ numbers file id) (scope : Nat) :
    (b.noted (file, id) (ρ scope)).Folds numbers ρ (b'.noted (file, n) scope) := by
  refine { h with notes :=
    List.forall_mem_cons.mpr ⟨⟨id, hn, List.mem_cons_self⟩, fun e he ↦ ?_⟩ }
  obtain ⟨other, hother, hnote⟩ := h.notes e he
  exact ⟨other, hother, List.mem_cons_of_mem _ hnote⟩

/-- The scope of a statement is noted in the second binding once more. -/
theorem noted_again {file id n : Nat} (hn : n ∈ numbers file id) {scope : Nat}
    (hnote : ((file, id), ρ scope) ∈ b.statementScopes) :
    b.Folds numbers ρ (b'.noted (file, n) scope) :=
  { h with notes := List.forall_mem_cons.mpr ⟨⟨id, hn, hnote⟩, h.notes⟩ }

end Binding.Folds

/-! ## Corresponding places -/

structure Place.Folds (ρ : Nat → Nat) (place place' : Place) : Prop where
  file : place'.file = place.file
  scope : ρ place'.scope = place.scope
  container : place'.container = place.container
  ambient : place'.ambient = place.ambient

/-- No other scope stands for that of the place. -/
def Place.Alone (ρ : Nat → Nat) (place place' : Place) : Prop :=
  ∀ s, ρ s = place.scope → s = place'.scope

theorem Place.Folds.moved {place place' : Place} (h : place.Folds ρ place')
    {k k' : DeclarationKind} (hkind : k'.outline = k.outline) :
    Declaration.Moved ρ ⟨place.file, place.scope, k⟩ ⟨place'.file, place'.scope, k'⟩ :=
  ⟨h.file, h.scope, hkind⟩

theorem Place.Folds.slot {place place' : Place} (h : place.Folds ρ place') (exported : Bool)
    (name : String) : (place.slot exported name).Folds ρ (place'.slot exported name) :=
  ⟨rfl, congrArg (if exported then · else none) h.container, h.scope⟩

/-- A name can be entered in corresponding places if it is an export, or if the scope of the place
is one by itself. -/
theorem Place.Folds.slot_free {place place' : Place} (h : place.Folds ρ place') {exported : Bool}
    (hslot : place.Alone ρ place' ∨ exported = true ∧ place.container.isSome = true)
    (name : String) : (place.slot exported name).Free ρ (place'.slot exported name) := by
  refine ⟨h.slot exported name, fun hnone ↦ hslot.resolve_right ?_⟩
  rintro ⟨rfl, hsome⟩
  rw [show place.container = none from hnone] at hsome
  cases hsome

namespace Binder

variable {α β γ δ : Type} {b b' : Binding} {r : α → α → Prop} {t : β → β → Prop}

/-- Done in two bindings of which the second folds to the first one, the actions have related
answers and leave such bindings. -/
def Folding (numbers : Nat → Nat → List Nat) (ρ : Nat → Nat) (r : α → α → Prop)
    (b b' : Binding) (p p' : Binder α) : Prop :=
  b.Folds numbers ρ b' → r (p b).1 (p' b').1 ∧ (p b).2.Folds numbers ρ (p' b').2

theorem folding_pure {a a' : α} (h : r a a') : Folding numbers ρ r b b' (pure a) (pure a') :=
  fun hb ↦ ⟨h, hb⟩

theorem folding_unit : Folding numbers ρ Eq b b' (pure ()) (pure ()) := folding_pure rfl

theorem folding_modify {f f' : Binding → Binding}
    (h : b.Folds numbers ρ b' → (f b).Folds numbers ρ (f' b')) :
    Folding numbers ρ Eq b b' (modify f : Binder Unit) (modify f') :=
  fun hb ↦ ⟨rfl, h hb⟩

theorem folding_get {q q' : Binding → Binder β}
    (h : b.Folds numbers ρ b' → Folding numbers ρ t b b' (q b) (q' b')) :
    Folding numbers ρ t b b' (get >>= q) (get >>= q') :=
  fun hb ↦ h hb hb

theorem Folding.bind {p p' : Binder α} {q q' : α → Binder β}
    (hp : Folding numbers ρ r b b' p p')
    (hq : ∀ a a' c c', r a a' → Folding numbers ρ t c c' (q a) (q' a')) :
    Folding numbers ρ t b b' (p >>= q) (p' >>= q') := by
  intro hb
  obtain ⟨hanswer, hc⟩ := hp hb
  exact hq _ _ _ _ hanswer hc

theorem Folding.andThen {p p' : Binder α} {q q' : α → Binder β}
    (hp : Folding numbers ρ Eq b b' p p')
    (hq : ∀ a c c', Folding numbers ρ t c c' (q a) (q' a)) :
    Folding numbers ρ t b b' (p >>= q) (p' >>= q') :=
  hp.bind fun a _ c c' heq ↦ heq ▸ hq a c c'

theorem Folding.discard {p p' : Binder α} (hp : Folding numbers ρ r b b' p p') :
    Folding numbers ρ Eq b b' (discard p) (discard p') :=
  hp.bind fun _ _ _ _ _ ↦ folding_unit

theorem folding_forM {xs : List γ} {ys : List δ} {f : γ → Binder Unit} {g : δ → Binder Unit}
    (h : List.Forall₂ (fun x y ↦ ∀ c c', Folding numbers ρ Eq c c' (f x) (g y)) xs ys) :
    Folding numbers ρ Eq b b' (xs.forM f) (ys.forM g) := by
  induction h generalizing b b' with
  | nil => exact folding_unit
  | cons hxy _ ih => exact (hxy b b').andThen fun _ _ _ ↦ ih

theorem folding_forM_self {xs : List γ} {f g : γ → Binder Unit}
    (h : ∀ x c c', Folding numbers ρ Eq c c' (f x) (g x)) :
    Folding numbers ρ Eq b b' (xs.forM f) (xs.forM g) :=
  folding_forM (List.forall₂_same.mpr fun x _ ↦ h x)

/-! ## Single actions -/

theorem folding_symbolChain (symbol : Option Nat) :
    Folding numbers ρ Eq b b' (symbolChain symbol) (symbolChain symbol) := by
  cases symbol with
  | none => exact folding_pure rfl
  | some id => exact folding_get fun hb ↦
      folding_pure (congrArg (id :: ·) (hb.symbol id).outer.symm)

theorem folding_newSymbol (name : String) (parent : Option Nat) :
    Folding numbers ρ Eq b b' (newSymbol name parent) (newSymbol name parent) :=
  (folding_symbolChain parent).andThen fun outer _ _ hc ↦
    ⟨hc.size.symm, hc.pushSymbol name outer⟩

theorem folding_changeSymbol (id : Nat) {f f' : Symbol → Symbol}
    (hf : ∀ s s' : Symbol, s.Folds ρ s' → (f s).Folds ρ (f' s')) :
    Folding numbers ρ Eq b b' (changeSymbol id f) (changeSymbol id f') :=
  folding_modify fun hb ↦ hb.withSymbol id hf

theorem folding_addDeclaration (id : Nat) {d d' : Declaration} (hd : d.Moved ρ d') :
    Folding numbers ρ Eq b b' (addDeclaration id d) (addDeclaration id d') :=
  folding_modify fun hb ↦ hb.addedTo id hd

theorem folding_addExport (container : Nat) (name : String) (id : Nat) :
    Folding numbers ρ Eq b b' (addExport container name id) (addExport container name id) :=
  folding_changeSymbol container fun _ _ hs ↦
    { hs with exports := congrArg ((name, id) :: ·) hs.exports }

theorem folding_exportNew (container : Nat) (name : String) {d d' : Declaration}
    (hd : d.Moved ρ d') : Folding numbers ρ Eq b b'
      (do
        let id ← newSymbol name (some container)
        addDeclaration id d
        addExport container name id)
      (do
        let id ← newSymbol name (some container)
        addDeclaration id d'
        addExport container name id) :=
  (folding_newSymbol name _).andThen fun id _ _ ↦
    (folding_addDeclaration id hd).andThen fun _ _ _ ↦ folding_addExport container name id

/-! ## Declarations -/

section

variable {place place' : Place} (hplace : place.Folds ρ place') {exported : Bool}

include hplace

theorem folding_declare
    (hslot : place.Alone ρ place' ∨ exported = true ∧ place.container.isSome = true)
    (name : String) {k k' : DeclarationKind} (hkind : k'.outline = k.outline) :
    Folding numbers ρ Eq b b' (declare place exported name k)
      (declare place' exported name k') := by
  intro hb
  have hx := hplace.slot_free hslot name
  rw [declare_answer, declare_answer, declare_eq, declare_eq]
  exact ⟨(hb.ensured hx).1.symm, hb.declared hx (hplace.moved hkind)⟩

theorem folding_declareName
    (hslot : place.Alone ρ place' ∨ exported = true ∧ place.container.isSome = true)
    {name name' : String} (hname : name' = name) {k k' : DeclarationKind}
    (hkind : k'.outline = k.outline) :
    Folding numbers ρ Eq b b' (discard (declare place exported name k))
      (discard (declare place' exported name' k')) := by
  rw [hname]
  exact (folding_declare hplace hslot name hkind).discard

theorem folding_exportLink (container : Nat) (name : String) (link : Link) :
    Folding numbers ρ Eq b b' (exportLink place container name link)
      (exportLink place' container name link) :=
  folding_exportNew container name (hplace.moved rfl)

theorem folding_exportDefault (named : Option Nat) {k k' : DeclarationKind}
    (hkind : k'.outline = k.outline) :
    Folding numbers ρ Eq b b' (exportDefault place named k) (exportDefault place' named k') := by
  unfold exportDefault
  rw [hplace.container]
  cases place.container with
  | none => exact folding_unit
  | some m =>
      cases named with
      | some id => exact folding_addExport m "default" id
      | none => exact folding_exportNew m "default" (hplace.moved hkind)

theorem folding_declareMain
    (hslot : place.Alone ρ place' ∨ exported = true ∧ place.container.isSome = true)
    (isDefault : Bool) {name name' : Option Name} (hname : name'.map Name.text = name.map Name.text)
    {k k' : DeclarationKind} (hkind : k'.outline = k.outline) :
    Folding numbers ρ Eq b b' (declareMain place exported isDefault name k)
      (declareMain place' exported isDefault name' k') := by
  have hdefault (id : Option Nat) (c c' : Binding) : Folding numbers ρ Eq c c'
      (if isDefault then exportDefault place id k else pure ())
      (if isDefault then exportDefault place' id k' else pure ()) := by
    split
    · exact folding_exportDefault hplace id hkind
    · exact folding_unit
  unfold declareMain
  match name, name', hname with
  | none, none, _ => exact hdefault none _ _
  | some n, some n', hname =>
      rw [Option.map_some, Option.map_some, Option.some_inj] at hname
      dsimp only
      rw [hname]
      exact (folding_declare hplace hslot n.text hkind).andThen fun id ↦ hdefault (some id)

theorem folding_declareImport (halone : place.Alone ρ place') (decl : ImportDecl) :
    Folding numbers ρ Eq b b' (declareImport place decl) (declareImport place' decl) := by
  unfold declareImport
  rw [hplace.file]
  extract_lets module add rest after add' rest' after'
  have hadd (name : String) (link : Link) (c c' : Binding) :
      Folding numbers ρ Eq c c' (add name link) (add' name link) :=
    folding_declareName hplace (.inl halone) rfl rfl
  have hrest (c c' : Binding) : Folding numbers ρ Eq c c' (rest ()) (rest' ()) :=
    folding_forM_self fun s _ _ ↦ hadd s.name _ _ _
  have hafter (c c' : Binding) : Folding numbers ρ Eq c c' (after ()) (after' ()) := by
    unfold after after'
    split
    · exact (hadd _ _ _ _).andThen fun _ ↦ hrest
    · exact hrest _ _
  split
  · exact (hadd _ _ _ _).andThen fun _ ↦ hafter
  · exact hafter _ _

theorem folding_declareExport (container : Nat) (decl : ExportDecl) :
    Folding numbers ρ Eq b b' (declareExport place container decl)
      (declareExport place' container decl) := by
  unfold declareExport
  rw [hplace.file]
  extract_lets module
  split
  · exact folding_changeSymbol container fun _ _ hs ↦
      { hs with starExports := congrArg (· ++ _) hs.starExports }
  · exact folding_exportLink hplace _ _ _
  · exact folding_unit
  · exact folding_forM_self fun s _ _ ↦ folding_exportLink hplace _ _ _
  · refine folding_forM_self fun s c c' ↦ folding_get fun hc ↦ ?_
    rw [(hc.symbol container).exports]
    split
    · exact folding_exportLink hplace _ _ _
    · exact folding_unit

theorem folding_declareOwn {decl decl' : Decl}
    (h : decl.Relates (fun k k' ↦ k'.outline = k.outline) decl')
    (hslot : place.Alone ρ place' ∨
      exported = true ∧ place.container.isSome = true ∧ ∀ d, decl ≠ .importDecl d)
    (isDefault : Bool) :
    Folding numbers ρ Eq b b' (declareOwn place exported isDefault decl)
      (declareOwn place' exported isDefault decl') := by
  have hslot' : place.Alone ρ place' ∨ exported = true ∧ place.container.isSome = true :=
    hslot.imp_right fun h ↦ ⟨h.1, h.2.1⟩
  cases h with
  | classDecl hname hkind => exact folding_declareMain hplace hslot' isDefault hname hkind
  | @interfaceDecl i i' hname hkind =>
      have hname' : (some i'.name).map Name.text = (some i.name).map Name.text :=
        congrArg some hname
      exact folding_declareMain hplace hslot' isDefault hname' hkind
  | aliasDecl hname hkind => exact folding_declareName hplace hslot' hname hkind
  | function hname hkind => exact folding_declareMain hplace hslot' isDefault hname hkind
  | enumDecl hname hkind => exact folding_declareName hplace hslot' hname hkind
  | «variable» hdeclarators =>
      refine folding_forM (hdeclarators.imp fun d d' hd c c' ↦ ?_)
      obtain ⟨hname, hkind⟩ := hd
      match d.name, d'.name, hname with
      | none, none, _ => exact folding_unit
      | some n, some n', hname =>
          exact folding_declareName hplace hslot' (Option.some.inj hname) hkind
  | importDecl decl =>
      exact folding_declareImport hplace (hslot.resolve_right fun h ↦ h.2.2 decl rfl) decl
  | importEquals name target =>
      unfold declareOwn
      rw [hplace.file]
      exact folding_declareName hplace hslot' rfl rfl
  | exportDecl decl =>
      unfold declareOwn
      rw [hplace.container]
      cases place.container with
      | none => exact folding_unit
      | some m => exact folding_declareExport hplace m decl
  | exportAssignment isEquals entity =>
      unfold declareOwn
      rw [hplace.container]
      match place.container, entity, isEquals with
      | none, _, _ | some _, none, _ => exact folding_unit
      | some m, some path, true =>
          refine folding_changeSymbol m fun _ _ hs ↦ { hs with exportEquals := ?_ }
          exact congrArg (fun scope ↦ some (path, scope)) hplace.scope.symm
      | some m, some path, false => exact folding_exportLink hplace m "default" _
  | moduleDecl | block | other => exact folding_unit

end

/-! ## Inner places -/

section

variable {place place' : Place} (hplace : place.Folds ρ place')

include hplace

/-- A new scope in corresponding places is one by itself. -/
theorem folding_pushScope (container : Option Nat) (ambient : Bool) (hb : b.Folds numbers ρ b') :
    (Place.Folds ρ ⟨place.file, b.scopes.size, container, ambient⟩
        ⟨place'.file, b'.scopes.size, container, ambient⟩ ∧
      Place.Alone ρ ⟨place.file, b.scopes.size, container, ambient⟩
        ⟨place'.file, b'.scopes.size, container, ambient⟩) ∧
      Binding.Folds numbers ρ
        { b with
          scopes := b.scopes.push ⟨place.scope :: (b.scope place.scope).outer, [], container⟩ }
        { b' with
          scopes :=
            b'.scopes.push
              ⟨place'.scope :: (b'.scope place'.scope).outer, [], container⟩ } := by
  refine ⟨⟨⟨hplace.file, hb.apply_size, rfl, rfl⟩, fun s hs ↦ hb.eq_size hs⟩,
    hb.pushScope ?_ container⟩
  rw [List.map_cons, hplace.scope, ← (hb.scope place'.scope).outer, hplace.scope]

theorem folding_inside (symbol : Nat) (ambient : Bool) :
    Folding numbers ρ (fun inner inner' ↦ inner.Folds ρ inner' ∧ inner.Alone ρ inner') b b'
      (inside place symbol ambient) (inside place' symbol ambient) :=
  folding_pushScope hplace (some symbol) ambient

theorem folding_enterBody :
    Folding numbers ρ (fun inner inner' ↦ inner.Folds ρ inner' ∧ inner.Alone ρ inner') b b'
      (enterBody place) (enterBody place') :=
  folding_pushScope hplace none false

end

theorem folding_enterNamespaces {place place' : Place} (hplace : place.Folds ρ place')
    {exported : Bool} {segments : List String}
    (hslot : place.Alone ρ place' ∨
      exported = true ∧ place.container.isSome = true ∧ segments ≠ []) :
    Folding numbers ρ (fun inner inner' ↦ inner.Folds ρ inner' ∧ inner.Alone ρ inner') b b'
      (enterNamespaces place exported segments) (enterNamespaces place' exported segments) := by
  induction segments generalizing place place' exported b b' with
  | nil => exact folding_pure ⟨hplace, hslot.resolve_right fun h ↦ h.2.2 rfl⟩
  | cons segment rest ih =>
      refine (folding_declare hplace (hslot.imp_right fun h ↦ ⟨h.1, h.2.1⟩)
        segment rfl).andThen
        fun id c c' ↦ ?_
      rw [hplace.ambient]
      exact (folding_inside hplace id place.ambient).bind fun inner inner' _ _ hinner ↦
        ih hinner.1 (.inl hinner.2)

section

variable {program program' : Program} (hmodule : ∀ file specifier,
  program'.resolvedModule file specifier = program.resolvedModule file specifier)
  {place place' : Place} (hplace : place.Folds ρ place')

include hmodule hplace

theorem folding_namedModule (specifier : String) :
    Folding numbers ρ Eq b b' (namedModule program place specifier)
      (namedModule program' place' specifier) := by
  refine folding_get fun hb ↦ ?_
  simp only [hmodule, hplace.file, hplace.container, hb.fileModules, hb.ambientModules]
  split
  · exact folding_pure rfl
  · refine (folding_newSymbol specifier none).andThen fun id _ _ ↦ ?_
    refine Folding.andThen (folding_modify fun hc ↦ ?_) fun _ _ _ ↦ folding_pure rfl
    exact { hc with ambientModules := congrArg ((specifier, id) :: ·) hc.ambientModules }

theorem folding_enterModule {exported : Bool} {name : ModuleName}
    (hslot : place.Alone ρ place' ∨
      exported = true ∧ place.container.isSome = true ∧ name ≠ .path []) :
    Folding numbers ρ (fun inner inner' ↦ inner.Folds ρ inner' ∧ inner.Alone ρ inner') b b'
      (enterModule program place exported name) (enterModule program' place' exported name) := by
  cases name with
  | global =>
      exact fun hb ↦ ⟨⟨⟨hplace.file, (hb.global _).mpr rfl, rfl, rfl⟩, fun s hs ↦
        (hb.global s).mp hs⟩, hb⟩
  | string specifier =>
      refine (folding_namedModule hmodule hplace specifier).andThen fun id _ _ ↦ ?_
      exact (folding_addDeclaration id (hplace.moved rfl)).andThen fun _ _ _ ↦
        folding_inside hplace id true
  | path segments =>
      refine folding_enterNamespaces hplace (hslot.imp_right fun h ↦
        ⟨h.1, h.2.1, fun heq ↦ ?_⟩)
      exact h.2.2 (congrArg _ heq)

end

end Binder

/-! ## One more scope -/

/-- One more scope, with the number `n`, stands for `scope`. -/
def foldAt (ρ : Nat → Nat) (n scope : Nat) (s : Nat) : Nat :=
  if s < n then ρ s else if s = n then scope else ρ (s - 1)

theorem foldAt_of_lt {n scope s : Nat} (hs : s < n) : foldAt ρ n scope s = ρ s := if_pos hs

@[simp] theorem foldAt_self (n scope : Nat) : foldAt ρ n scope n = scope := by simp [foldAt]

theorem foldAt_add (n scope k : Nat) : foldAt ρ n scope (n + 1 + k) = ρ (n + k) := by
  have hindex : n + 1 + k - 1 = n + k := by omega
  rw [foldAt, if_neg (by omega), if_neg (by omega), hindex]

section

variable {σ : Nat → Nat} {n : Nat} (hσ : ∀ s < n, σ s = ρ s)

include hσ

theorem Declaration.Folds.congr {ds ds' : List Declaration} (h : Declaration.Folds ρ ds ds')
    (hds : ∀ d ∈ ds', d.scope < n) : Declaration.Folds σ ds ds' := by
  induction h with
  | nil => exact .nil
  | @keep ds ds' d d' _ hd ih =>
      rw [List.forall_mem_append, List.forall_mem_singleton] at hds
      exact (ih hds.1).keep ⟨hd.file, (hσ _ hds.2).trans hd.scope, hd.kind⟩
  | again _ hspace file scope ih =>
      exact (ih (List.forall_mem_append.mp hds).1).again hspace file scope

theorem Symbol.Folds.congr {s s' : Symbol} (h : s.Folds ρ s') {symbols : Nat}
    (hs : s'.Within symbols n) : s.Folds σ s' := by
  refine { h with declarations := h.declarations.congr hσ hs.declarations, exportEquals := ?_ }
  rw [h.exportEquals]
  cases hwhole : s'.exportEquals with
  | none => rfl
  | some whole => rw [Option.map_some, Option.map_some, hσ _ (hs.exportEquals whole hwhole)]

theorem Scope.Folds.congr {s s' : Scope} (h : s.Folds ρ s') (hs : ∀ t ∈ s'.outer, t < n) :
    s.Folds σ s' :=
  { h with outer := h.outer.trans (List.map_congr_left fun t ht ↦ (hσ t (hs t ht)).symm) }

end

/-- A scope is added that stands for one that has no names. -/
theorem Binding.Folds.pushAgain {b b' : Binding} (h : b.Folds numbers ρ b') (hb' : b'.Closed)
    (ho : b'.Ordered) {scope : Nat} {outer outer' : List Nat} {container : Option Nat}
    (hscope : b.scope scope = ⟨outer, [], container⟩) (hlt : scope < b.scopes.size)
    (hne : scope ≠ globalScope) (houter : outer = outer'.map ρ)
    (houter' : ∀ t ∈ outer', t < b'.scopes.size) :
    b.Folds numbers (foldAt ρ b'.scopes.size scope)
      { b' with scopes := b'.scopes.push ⟨outer', [], container⟩ } := by
  have hσ : ∀ s < b'.scopes.size, foldAt ρ b'.scopes.size scope s = ρ s :=
    fun s ↦ foldAt_of_lt
  have hsize : (b'.scopes.push ⟨outer', [], container⟩).size = b'.scopes.size + 1 :=
    Array.size_push _
  have hcases (s : Nat) : s < b'.scopes.size ∨ s = b'.scopes.size ∨
      ∃ k, s = b'.scopes.size + 1 + k := by
    rcases lt_trichotomy s b'.scopes.size with hs | hs | hs
    · exact .inl hs
    · exact .inr (.inl hs)
    · exact .inr (.inr (Nat.exists_eq_add_of_lt hs |>.imp fun k hk ↦ by omega))
  refine ⟨h.size, fun id ↦ (h.symbol id).congr hσ (hb'.symbol id), fun s hs ↦ ?_, fun k ↦
    ?_, fun s ↦ ?_,
    fun s ↦ ?_, h.fileModules, h.ambientModules, fun e he ↦ ?_⟩
  · rw [hsize] at hs
    rcases Nat.lt_succ_iff_lt_or_eq.mp hs with hs | rfl
    · rw [hσ s hs]
      exact h.old s hs
    · rwa [foldAt_self]
  · rw [hsize, foldAt_add]
    exact h.new k
  · have hpos := hb'.global
    rcases hcases s with hs | rfl | ⟨k, rfl⟩
    · rw [hσ s hs]
      exact h.global s
    · rw [foldAt_self]
      exact iff_of_false hne hpos.ne'
    · have hold := h.global (b'.scopes.size + k)
      rw [foldAt_add, hold]
      unfold globalScope at hpos ⊢
      omega
  · rw [scope_push]
    rcases hcases s with hs | rfl | ⟨k, rfl⟩
    · rw [if_neg hs.ne, hσ s hs]
      exact (h.scope s).congr hσ (ho.outer s)
    · rw [if_pos rfl, foldAt_self, hscope]
      exact ⟨houter.trans (List.map_congr_left fun t ht ↦
        (hσ t (houter' t ht)).symm), rfl, rfl⟩
    · have hnew : b.scopes.size ≤ foldAt ρ b'.scopes.size scope (b'.scopes.size + 1 + k) := by
        rw [foldAt_add, h.new]
        exact Nat.le_add_right _ _
      rw [if_neg (by omega), scope_of_le hnew, scope_of_le (by omega)]
      exact ⟨rfl, rfl, rfl⟩
  · obtain ⟨id, hid, hnote⟩ := h.notes e he
    refine ⟨id, hid, ?_⟩
    rwa [hσ e.2 (hb'.statementScopes e he)]

end PluginSurface
