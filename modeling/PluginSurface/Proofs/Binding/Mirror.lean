import PluginSurface.Proofs.Binding.Visits
import PluginSurface.Proofs.Syntax.Edits

/-!
# Bindings that mirror each other

Two programs with the same declarations in the same places are bound alike, whatever the members of
the interfaces, the types of the aliases and the names of the files are: the binder only stores
them. Main statement: `Binding.mirrors_ofProgram`.
-/

namespace PluginSurface

def DeclarationKind.edit (e : TypeEdit) : DeclarationKind → DeclarationKind
  | .classDecl c => .classDecl (c.edit e)
  | .interfaceDecl i => .interfaceDecl (e.interfaces i)
  | .aliasDecl a => .aliasDecl (e.aliases a)
  | .variable type => .variable type
  | .function => .function
  | .enum => .enum
  | .namespaceDecl => .namespaceDecl
  | .moduleDecl => .moduleDecl
  | .link l => .link l

/-- The declaration with the edit of its file made in it. -/
def Declaration.edit (edits : Nat → TypeEdit) (d : Declaration) : Declaration :=
  { d with kind := d.kind.edit (edits d.file) }

/-- The second unit is the first one with the declarations edited. If it is said to be in place, its
path is the same. -/
structure SourceUnit.Mirrors (e : TypeEdit) (inPlace : Prop) (u u' : SourceUnit) : Prop where
  tree : u'.tree = u.tree.edit e
  isDeclaration : u'.isDeclaration = u.isDeclaration
  path : inPlace → u'.path = u.path

/-- The files of the second program are those of the first one with the declarations edited, and
specifiers stand for the same files. -/
structure Program.Mirrors (edits : Nat → TypeEdit) (inPlace : Prop) (p p' : Program) : Prop where
  options : p'.options = p.options
  units : List.Forall₂ (fun x x' ↦ x'.2 = x.2 ∧ x.1.Mirrors (edits x.2) inPlace x'.1)
    p.units.toList.zipIdx p'.units.toList.zipIdx
  resolvedModule : ∀ file specifier,
    p'.resolvedModule file specifier = p.resolvedModule file specifier

/-- The second symbol is the first one up to its name, with the declarations edited. -/
structure Symbol.Mirrors (edits : Nat → TypeEdit) (s s' : Symbol) : Prop where
  outer : s'.outer = s.outer
  declarations : s'.declarations = s.declarations.map (Declaration.edit edits)
  exports : s'.exports = s.exports
  starExports : s'.starExports = s.starExports
  exportEquals : s'.exportEquals = s.exportEquals

namespace Binding

/-- The second binding is the first one with the declarations edited, up to the names of the symbols
that are not among `named`. -/
structure Mirrors (edits : Nat → TypeEdit) (named : Nat → Prop) (b b' : Binding) : Prop where
  size : b'.symbols.size = b.symbols.size
  symbol : ∀ id, (b.symbol id).Mirrors edits (b'.symbol id)
  name : ∀ id, named id → (b'.symbol id).name = (b.symbol id).name
  scopes : b'.scopes = b.scopes
  fileModules : b'.fileModules = b.fileModules
  ambientModules : b'.ambientModules = b.ambientModules
  statementScopes : b'.statementScopes = b.statementScopes

variable {edits : Nat → TypeEdit} {named : Nat → Prop} {b b' : Binding}

theorem symbol_mirrors_fresh (name name' : String) (outer : List Nat) :
    (Symbol.fresh name outer).Mirrors edits (.fresh name' outer) :=
  ⟨rfl, rfl, rfl, rfl, rfl⟩

theorem mirrors_empty :
    Mirrors edits named ⟨#[], #[], #[], [], []⟩ ⟨#[], #[], #[], [], []⟩ :=
  ⟨rfl, fun _ ↦ symbol_mirrors_fresh _ _ _, fun _ _ ↦ rfl, rfl, rfl, rfl, rfl⟩

namespace Mirrors

variable (h : Mirrors edits named b b')

include h

theorem scope (id : Nat) : b'.scope id = b.scope id := by
  rw [Binding.scope, Binding.scope, h.scopes]

/-- Behind the last symbol the names are equal. -/
theorem behind : Mirrors edits (fun id ↦ named id ∨ b.symbols.size ≤ id) b b' := by
  refine { h with name := fun id hid ↦ hid.elim (h.name id) fun hid ↦ ?_ }
  rw [symbol_of_le hid, symbol_of_le (h.size.trans_le hid)]

theorem withSymbol (id : Nat) {f f' : Symbol → Symbol}
    (hf : ∀ s s', s.Mirrors edits s' → (f s).Mirrors edits (f' s'))
    (hname : ∀ s s' : Symbol, s'.name = s.name → (f' s').name = (f s).name) :
    Mirrors edits named (b.withSymbol id f) (b'.withSymbol id f') := by
  refine { h with size := ?_, symbol := fun j ↦ ?_, name := fun j hj ↦ ?_ }
  · simpa [Binding.withSymbol] using h.size
  all_goals
    rw [symbol_withSymbol, symbol_withSymbol, h.size]
    split
  · exact hf _ _ (h.symbol j)
  · exact h.symbol j
  · exact hname _ _ (h.name j hj)
  · exact h.name j hj

theorem pushSymbol {name name' : String} (outer : List Nat)
    (hname : named b.symbols.size → name' = name) :
    Mirrors edits named { b with symbols := b.symbols.push (.fresh name outer) }
      { b' with symbols := b'.symbols.push (.fresh name' outer) } := by
  refine { h with size := ?_, symbol := fun j ↦ ?_, name := fun j hj ↦ ?_ }
  · simpa using h.size
  all_goals
    rw [symbol_push, symbol_push, h.size]
    split
  · exact symbol_mirrors_fresh _ _ _
  · exact h.symbol j
  next heq => exact hname (heq ▸ hj)
  · exact h.name j hj

end Mirrors

end Binding

namespace Binder

variable {α β : Type} {edits : Nat → TypeEdit} {named : Nat → Prop} {inPlace : Prop}
  {b b' : Binding}

/-- Done in bindings that mirror each other, the two actions give the same answer and leave bindings
that mirror each other. -/
def Mirrored (edits : Nat → TypeEdit) (named : Nat → Prop) (b b' : Binding) (p p' : Binder α) :
    Prop :=
  Binding.Mirrors edits named b b' →
    (p' b').1 = (p b).1 ∧ Binding.Mirrors edits named (p b).2 (p' b').2

theorem mirrored_pure (a : α) : Mirrored edits named b b' (pure a) (pure a) :=
  fun h ↦ ⟨rfl, h⟩

theorem mirrored_modify {f f' : Binding → Binding}
    (h : Binding.Mirrors edits named b b' → Binding.Mirrors edits named (f b) (f' b')) :
    Mirrored edits named b b' (modify f : Binder Unit) (modify f') :=
  fun hb ↦ ⟨rfl, h hb⟩

theorem mirrored_get {q q' : Binding → Binder β}
    (h : Binding.Mirrors edits named b b' → Mirrored edits named b b' (q b) (q' b')) :
    Mirrored edits named b b' (get >>= q) (get >>= q') :=
  fun hb ↦ h hb hb

theorem Mirrored.bind_of {p p' : Binder α} {q q' : α → Binder β} {Q : α → Prop}
    (hp : Mirrored edits named b b' p p') (hpost : Q (p b).1)
    (hq : ∀ a c c', Q a → Mirrored edits named c c' (q a) (q' a)) :
    Mirrored edits named b b' (p >>= q) (p' >>= q') := by
  intro hb
  obtain ⟨hanswer, hc⟩ := hp hb
  change (q' (p' b').1 (p' b').2).1 = (q (p b).1 (p b).2).1 ∧
    Binding.Mirrors edits named (q (p b).1 (p b).2).2 (q' (p' b').1 (p' b').2).2
  rw [hanswer]
  exact hq _ _ _ hpost hc

theorem Mirrored.bind {p p' : Binder α} {q q' : α → Binder β}
    (hp : Mirrored edits named b b' p p')
    (hq : ∀ a c c', Mirrored edits named c c' (q a) (q' a)) :
    Mirrored edits named b b' (p >>= q) (p' >>= q') :=
  hp.bind_of (Q := fun _ ↦ True) trivial fun a c c' _ ↦ hq a c c'

theorem Mirrored.discard {p p' : Binder α} (hp : Mirrored edits named b b' p p') :
    Mirrored edits named b b' (discard p) (discard p') :=
  hp.bind fun _ _ _ ↦ mirrored_pure ()

theorem mirrored_forM {xs : List α} {ys : List β} {f : α → Binder Unit}
    {g : β → Binder Unit}
    (h : List.Forall₂ (fun x y ↦ ∀ c c', Mirrored edits named c c' (f x) (g y)) xs ys) :
    Mirrored edits named b b' (xs.forM f) (ys.forM g) := by
  induction h generalizing b b' with
  | nil => exact mirrored_pure ()
  | cons hxy _ ih => exact (hxy b b').bind fun _ _ _ ↦ ih

theorem mirrored_forM_self {xs : List α} {f g : α → Binder Unit}
    (h : ∀ x c c', Mirrored edits named c c' (f x) (g x)) :
    Mirrored edits named b b' (xs.forM f) (xs.forM g) :=
  mirrored_forM (List.forall₂_same.mpr fun x _ ↦ h x)

/-! ## Single actions -/

theorem mirrored_newScope (outer : List Nat) (container : Option Nat) :
    Mirrored edits named b b' (newScope outer container) (newScope outer container) := by
  intro hb
  change b'.scopes.size = b.scopes.size ∧ Binding.Mirrors edits named
    { b with scopes := b.scopes.push ⟨outer, [], container⟩ }
    { b' with scopes := b'.scopes.push ⟨outer, [], container⟩ }
  rw [hb.scopes]
  exact ⟨rfl, { hb with scopes := rfl }⟩

theorem mirrored_scopeChain (scope : Nat) :
    Mirrored edits named b b' (scopeChain scope) (scopeChain scope) := by
  refine mirrored_get fun hb ↦ ?_
  rw [hb.scope]
  exact mirrored_pure _

theorem mirrored_symbolChain (symbol : Option Nat) :
    Mirrored edits named b b' (symbolChain symbol) (symbolChain symbol) := by
  cases symbol with
  | none => exact mirrored_pure _
  | some id =>
      refine mirrored_get fun hb ↦ ?_
      rw [(hb.symbol id).outer]
      exact mirrored_pure _

theorem mirrored_newSymbol (name : String) (parent : Option Nat) :
    Mirrored edits named b b' (newSymbol name parent) (newSymbol name parent) := by
  refine (mirrored_symbolChain parent).bind fun outer c c' hc ↦ ?_
  exact ⟨hc.size, hc.pushSymbol outer fun _ ↦ rfl⟩

theorem mirrored_changeSymbol (id : Nat) {f f' : Symbol → Symbol}
    (hf : ∀ s s', s.Mirrors edits s' → (f s).Mirrors edits (f' s'))
    (hname : ∀ s s' : Symbol, s'.name = s.name → (f' s').name = (f s).name) :
    Mirrored edits named b b' (changeSymbol id f) (changeSymbol id f') :=
  mirrored_modify fun hb ↦ hb.withSymbol id hf hname

theorem mirrored_addDeclaration (id : Nat) {d d' : Declaration} (hd : d' = d.edit edits) :
    Mirrored edits named b b' (addDeclaration id d) (addDeclaration id d') := by
  refine mirrored_changeSymbol id (fun s s' hs ↦ { hs with declarations := ?_ }) fun _ _ h ↦ h
  simp [hs.declarations, hd]

theorem mirrored_addExport (container : Nat) (name : String) (id : Nat) :
    Mirrored edits named b b' (addExport container name id) (addExport container name id) :=
  mirrored_changeSymbol container
    (fun _ _ hs ↦ { hs with exports := congrArg ((name, id) :: ·) hs.exports }) fun _ _ h ↦ h

/-! ## Declarations -/

theorem mirrored_declare (place : Place) (exported : Bool) (name : String)
    {kind kind' : DeclarationKind} (hkind : kind' = kind.edit (edits place.file)) :
    Mirrored edits named b b' (declare place exported name kind)
      (declare place exported name kind') := by
  have hd : (⟨place.file, place.scope, kind'⟩ : Declaration) =
      Declaration.edit edits ⟨place.file, place.scope, kind⟩ := by rw [hkind]; rfl
  refine mirrored_get fun hb ↦ ?_
  have hexports (id : Nat) : (b'.symbol id).exports = (b.symbol id).exports :=
    (hb.symbol id).exports
  simp only [hexports, hb.scope]
  split
  · exact (mirrored_addDeclaration _ hd).bind fun _ _ _ ↦ mirrored_pure _
  · refine (mirrored_newSymbol name _).bind fun id c c' ↦ ?_
    refine (mirrored_addDeclaration id hd).bind fun _ d d' ↦ ?_
    split
    · exact (mirrored_addExport _ name id).bind fun _ _ _ ↦ mirrored_pure id
    · refine Mirrored.bind (mirrored_modify fun hd ↦ ?_) fun _ _ _ ↦ mirrored_pure id
      exact { hd with scopes := by rw [hd.scopes] }

theorem mirrored_exportLink (place : Place) (container : Nat) (name : String) (link : Link) :
    Mirrored edits named b b' (exportLink place container name link)
      (exportLink place container name link) := by
  refine (mirrored_newSymbol name _).bind fun id _ _ ↦ ?_
  exact (mirrored_addDeclaration id rfl).bind fun _ _ _ ↦ mirrored_addExport container name id

theorem mirrored_exportDefault (place : Place) (id : Option Nat)
    {kind kind' : DeclarationKind} (hkind : kind' = kind.edit (edits place.file)) :
    Mirrored edits named b b' (exportDefault place id kind) (exportDefault place id kind') := by
  unfold exportDefault
  split
  · split
    · exact mirrored_addExport _ _ _
    · refine (mirrored_newSymbol "default" _).bind fun id _ _ ↦ ?_
      refine (mirrored_addDeclaration id ?_).bind fun _ _ _ ↦ mirrored_addExport _ _ id
      rw [hkind]
      rfl
  · exact mirrored_pure ()

theorem mirrored_declareMain (place : Place) (exported isDefault : Bool) (name : Option Name)
    {kind kind' : DeclarationKind} (hkind : kind' = kind.edit (edits place.file)) :
    Mirrored edits named b b' (declareMain place exported isDefault name kind)
      (declareMain place exported isDefault name kind') := by
  have hdefault (id : Option Nat) (c c' : Binding) : Mirrored edits named c c'
      (if isDefault then exportDefault place id kind else pure ())
      (if isDefault then exportDefault place id kind' else pure ()) := by
    split
    · exact mirrored_exportDefault place id hkind
    · exact mirrored_pure ()
  unfold declareMain
  cases name with
  | none => exact hdefault none _ _
  | some n => exact (mirrored_declare place exported n.text hkind).bind fun id ↦
      hdefault (some id)

theorem mirrored_declareLink (place : Place) (exported : Bool) (name : String) (link : Link) :
    Mirrored edits named b b' (discard (declare place exported name (.link link)))
      (discard (declare place exported name (.link link))) :=
  (mirrored_declare place exported name rfl).discard

theorem mirrored_declareImport (place : Place) (decl : ImportDecl) :
    Mirrored edits named b b' (declareImport place decl) (declareImport place decl) := by
  unfold declareImport
  extract_lets module add rest after
  have hrest (c c' : Binding) : Mirrored edits named c c' (rest ()) (rest ()) :=
    mirrored_forM_self fun s _ _ ↦ mirrored_declareLink place false s.name _
  have hafter (c c' : Binding) : Mirrored edits named c c' (after ()) (after ()) := by
    unfold after
    split
    · exact (mirrored_declareLink place false _ _).bind fun _ ↦ hrest
    · exact hrest _ _
  split
  · exact (mirrored_declareLink place false _ _).bind fun _ ↦ hafter
  · exact hafter _ _

theorem mirrored_declareExport (place : Place) (container : Nat) (decl : ExportDecl) :
    Mirrored edits named b b' (declareExport place container decl)
      (declareExport place container decl) := by
  unfold declareExport
  extract_lets module
  split
  · exact mirrored_changeSymbol container
      (fun _ _ hs ↦ { hs with starExports := congrArg (· ++ _) hs.starExports }) fun _ _ h ↦ h
  · exact mirrored_exportLink _ _ _ _
  · exact mirrored_pure ()
  · exact mirrored_forM_self fun s _ _ ↦ mirrored_exportLink _ _ _ _
  · refine mirrored_forM_self fun s c c' ↦ mirrored_get fun hc ↦ ?_
    rw [(hc.symbol container).exports]
    split
    · exact mirrored_exportLink _ _ _ _
    · exact mirrored_pure ()

theorem mirrored_declareOwn (place : Place) (exported isDefault : Bool) (decl : Decl) :
    Mirrored edits named b b' (declareOwn place exported isDefault decl)
      (declareOwn place exported isDefault (decl.edit (edits place.file))) := by
  match decl with
  | .classDecl c =>
      have hname : (c.edit (edits place.file)).name = c.name := by
        cases c
        rw [ClassDecl.edit]
      simp only [Decl.edit, declareOwn, hname]
      exact mirrored_declareMain place exported isDefault c.name rfl
  | .interfaceDecl i =>
      simp only [Decl.edit, declareOwn, (edits place.file).interfaces_name]
      exact mirrored_declareMain place exported isDefault (some i.name) rfl
  | .aliasDecl a =>
      simp only [Decl.edit, declareOwn, (edits place.file).aliases_name]
      exact (mirrored_declare place exported a.name.text rfl).discard
  | .variable keyword declarators =>
      simp only [Decl.edit, declareOwn]
      refine mirrored_forM_self fun d _ _ ↦ ?_
      split
      · exact (mirrored_declare place exported _ rfl).discard
      · exact mirrored_pure ()
  | .function name signature body =>
      simp only [Decl.edit, declareOwn]
      exact mirrored_declareMain place exported isDefault name rfl
  | .enumDecl name members =>
      simp only [Decl.edit, declareOwn]
      exact (mirrored_declare place exported name.text rfl).discard
  | .importDecl decl =>
      simp only [Decl.edit, declareOwn]
      exact mirrored_declareImport place decl
  | .importEquals name target =>
      simp only [Decl.edit, declareOwn]
      exact mirrored_declareLink place exported name _
  | .exportDecl decl =>
      simp only [Decl.edit, declareOwn]
      split
      · exact mirrored_declareExport place _ decl
      · exact mirrored_pure ()
  | .exportAssignment isEquals entity =>
      simp only [Decl.edit, declareOwn]
      split
      · split
        · exact mirrored_changeSymbol _ (fun _ _ hs ↦ { hs with exportEquals := rfl })
            fun _ _ h ↦ h
        · exact mirrored_exportLink _ _ _ _
      · exact mirrored_pure ()
  | .moduleDecl name body | .block body | .other =>
      simp only [Decl.edit, declareOwn]
      exact mirrored_pure ()

/-! ## Places -/

theorem mirrored_inside (place : Place) (symbol : Nat) (ambient : Bool) :
    Mirrored edits named b b' (inside place symbol ambient) (inside place symbol ambient) :=
  (mirrored_scopeChain place.scope).bind fun outer _ _ ↦
    (mirrored_newScope outer (some symbol)).bind fun _ _ _ ↦ mirrored_pure _

theorem mirrored_enterBody (place : Place) :
    Mirrored edits named b b' (enterBody place) (enterBody place) :=
  (mirrored_scopeChain place.scope).bind fun outer _ _ ↦
    (mirrored_newScope outer none).bind fun _ _ _ ↦ mirrored_pure _

theorem mirrored_enterNamespaces (place : Place) (exported : Bool) (segments : List String) :
    Mirrored edits named b b' (enterNamespaces place exported segments)
      (enterNamespaces place exported segments) := by
  induction segments generalizing place exported b b' with
  | nil => exact mirrored_pure place
  | cons segment rest ih =>
      refine (mirrored_declare place exported segment rfl).bind fun id _ _ ↦ ?_
      exact (mirrored_inside place id place.ambient).bind fun inner _ _ ↦ ih inner true

theorem file_enterNamespaces (place : Place) (exported : Bool) (segments : List String) :
    (enterNamespaces place exported segments b).1.file = place.file := by
  induction segments generalizing place exported b with
  | nil => rfl
  | cons segment rest ih => exact ih _ true

variable {program program' : Program}

theorem file_enterModule (place : Place) (exported : Bool) (name : ModuleName) :
    (enterModule program place exported name b).1.file = place.file := by
  cases name with
  | global | string => rfl
  | path segments => exact file_enterNamespaces place exported segments

section

variable (hmodule : ∀ file specifier,
  program'.resolvedModule file specifier = program.resolvedModule file specifier)

include hmodule

theorem mirrored_namedModule (place : Place) (specifier : String) :
    Mirrored edits named b b' (namedModule program place specifier)
      (namedModule program' place specifier) := by
  refine mirrored_get fun hb ↦ ?_
  simp only [hmodule, hb.fileModules, hb.ambientModules]
  split
  · exact mirrored_pure _
  · refine (mirrored_newSymbol specifier none).bind fun id _ _ ↦ ?_
    refine Mirrored.bind (mirrored_modify fun hc ↦ ?_) fun _ _ _ ↦ mirrored_pure id
    exact { hc with ambientModules := congrArg ((specifier, id) :: ·) hc.ambientModules }

theorem mirrored_enterModule (place : Place) (exported : Bool) (name : ModuleName) :
    Mirrored edits named b b' (enterModule program place exported name)
      (enterModule program' place exported name) := by
  cases name with
  | global => exact mirrored_pure _
  | string specifier =>
      refine (mirrored_namedModule hmodule place specifier).bind fun id _ _ ↦ ?_
      exact (mirrored_addDeclaration id rfl).bind fun _ _ _ ↦ mirrored_inside place id true
  | path segments => exact mirrored_enterNamespaces place exported segments

/-! ## Statements -/

omit hmodule in
theorem exportsAll_edit (e : TypeEdit) (place : Place) (body : List Statement) :
    exportsAll place (body.map (Statement.edit e)) = exportsAll place body := by
  unfold exportsAll
  rw [List.any_map]
  congr 2
  refine congrArg (body.any ·) (funext fun s ↦ ?_)
  obtain ⟨id, modifiers, decl, span⟩ := s
  cases decl <;> simp [Decl.edit]

/-- Binding the statements with the edit of the file made in them mirrors binding the
statements. -/
abbrev MirrorsEach (edits : Nat → TypeEdit) (named : Nat → Prop) (program program' : Program)
    (body : List Statement) : Prop :=
  ∀ s ∈ body, ∀ (b b' : Binding) (place : Place) (all : Bool),
    Mirrored edits named b b' (bindStatement program place all s)
      (bindStatement program' place all (s.edit (edits place.file)))

omit hmodule in
theorem mirrored_bindAll_of {body : List Statement}
    (hbody : MirrorsEach edits named program program' body) (place : Place) (all : Bool) :
    Mirrored edits named b b' (bindAll program place all body)
      (bindAll program' place all (body.map (Statement.edit (edits place.file)))) := by
  rw [bindAll_eq_forM, bindAll_eq_forM]
  refine mirrored_forM (List.forall₂_map_right_iff.mpr (List.forall₂_same.mpr ?_))
  exact fun s hs c c' ↦ hbody s hs c c' place all

omit hmodule in
theorem mirrored_enterBody_of {body : List Statement}
    (hbody : MirrorsEach edits named program program' body) (place : Place) :
    Mirrored edits named b b' (enterBody place >>= fun inner ↦ bindAll program inner false body)
      (enterBody place >>= fun inner ↦
        bindAll program' inner false (body.map (Statement.edit (edits place.file)))) := by
  refine (mirrored_enterBody place).bind_of (Q := fun inner ↦ inner.file = place.file) rfl ?_
  intro inner _ _ hfile
  rw [← hfile]
  exact mirrored_bindAll_of hbody inner false

omit hmodule in
theorem mirrored_bindBody_of {body : Option (List Statement)}
    (hbody : MirrorsEach edits named program program' (body.getD [])) (place : Place) :
    Mirrored edits named b b' (bindBody program place body)
      (bindBody program' place (editBody (edits place.file) body)) := by
  cases body with
  | none => exact mirrored_pure ()
  | some body =>
      rw [editBody, editAll_eq_map]
      exact mirrored_enterBody_of hbody place

omit hmodule in
theorem mirrored_bindModule_of {body : Option (List Statement)}
    (hbody : MirrorsEach edits named program program' (body.getD [])) (place : Place) :
    Mirrored edits named b b' (bindModule program place body)
      (bindModule program' place (editBody (edits place.file) body)) := by
  cases body with
  | none => exact mirrored_pure ()
  | some body =>
      rw [editBody, editAll_eq_map, bindModule, bindModule, exportsAll_edit]
      exact mirrored_bindAll_of hbody place _

omit hmodule in
theorem mirrored_bindMember_of {m : ClassMember}
    (hbody : MirrorsEach edits named program program' m.body) (place : Place) :
    Mirrored edits named b b' (bindMember program place m.kind)
      (bindMember program' place (m.edit (edits place.file)).kind) := by
  obtain ⟨modifiers, kind, span⟩ := m
  rw [ClassMember.edit]
  cases kind with
  | constructor params body | method name optional signature body | getter name type body
  | setter name param body => exact mirrored_bindBody_of hbody place
  | staticBlock body =>
      rw [ClassMemberKind.edit, editAll_eq_map]
      exact mirrored_enterBody_of hbody place
  | property | index => exact mirrored_pure ()

omit hmodule in
theorem mirrored_bindMembers_of {members : List ClassMember}
    (hbody : MirrorsEach edits named program program' (members.flatMap ClassMember.body))
    (place : Place) :
    Mirrored edits named b b' (bindMembers program place members)
      (bindMembers program' place (editMembers (edits place.file) members)) := by
  induction members generalizing b b' with
  | nil => exact mirrored_pure ()
  | cons m rest ih =>
      rw [List.flatMap_cons] at hbody
      have hmember : Mirrored edits named b b' (bindMember program place m.kind)
          (bindMember program' place (m.edit (edits place.file)).kind) :=
        mirrored_bindMember_of (fun s hs ↦ hbody s (List.mem_append_left _ hs)) place
      obtain ⟨modifiers, kind, span⟩ := m
      exact hmember.bind fun _ _ _ ↦ ih fun s hs ↦ hbody s (List.mem_append_right _ hs)

theorem mirrored_bindInside_of {s : Statement}
    (hbody : MirrorsEach edits named program program' s.children) (place : Place)
    (ambient exported : Bool) :
    Mirrored edits named b b' (bindInside program place ambient exported s.decl)
      (bindInside program' place ambient exported (s.decl.edit (edits place.file))) := by
  obtain ⟨id, modifiers, decl, span⟩ := s
  cases decl with
  | moduleDecl name body =>
      refine (mirrored_enterModule hmodule { place with ambient := ambient } exported name).bind_of
        (Q := fun inner ↦ inner.file = place.file) (file_enterModule _ exported name) ?_
      intro inner _ _ hfile
      rw [← hfile]
      exact mirrored_bindModule_of hbody inner
  | classDecl c =>
      obtain ⟨_, _, _, _, members⟩ := c
      simp only [Decl.edit, ClassDecl.edit]
      exact mirrored_bindMembers_of hbody place
  | function name signature body => exact mirrored_bindBody_of hbody place
  | block body =>
      rw [Decl.edit, editAll_eq_map]
      exact mirrored_enterBody_of hbody place
  | _ => exact mirrored_pure ()

theorem mirrored_bindStatement (s : Statement) (place : Place) (all : Bool) :
    Mirrored edits named b b' (bindStatement program place all s)
      (bindStatement program' place all (s.edit (edits place.file))) := by
  induction s using Statement.children_induction generalizing b b' place all with
  | h s ih =>
      have hinside (c c' : Binding) (ambient exported : Bool) :
          Mirrored edits named c c' (bindInside program place ambient exported s.decl)
            (bindInside program' place ambient exported (s.decl.edit (edits place.file))) :=
        mirrored_bindInside_of hmodule (fun t ht _ _ place all ↦ ih t ht place all) place _ _
      obtain ⟨id, modifiers, decl, span⟩ := s
      rw [Statement.edit]
      refine Mirrored.bind (mirrored_modify fun hb ↦ ?_) fun _ c c' ↦ ?_
      · exact { hb with statementScopes := congrArg (_ :: ·) hb.statementScopes }
      · exact (mirrored_declareOwn place _ _ decl).bind fun _ c c' ↦ hinside c c' _ _

/-! ## Programs -/

theorem mirrored_bindFile {u u' : SourceUnit} {file : Nat}
    (hu : u.Mirrors (edits file) inPlace u') :
    Mirrored edits named b b' (bindFile program u file) (bindFile program' u' file) := by
  unfold bindFile
  extract_lets global rest global' rest'
  have hall (place : Place) (c c' : Binding) (hfile : place.file = file) :
      Mirrored edits named c c' (rest place) (rest' place) := by
    unfold rest rest'
    rw [hu.tree, SourceFile.edit, editAll_eq_map, exportsAll_edit, ← hfile]
    exact mirrored_bindAll_of (fun s _ _ _ ↦ mirrored_bindStatement hmodule s) place _
  have hglobal : global' = global := by
    unfold global global'
    rw [hu.isDeclaration]
  refine mirrored_get fun hb ↦ ?_
  rw [hb.fileModules, hglobal]
  split
  · rw [hu.isDeclaration]
    refine (mirrored_inside global _ _).bind_of (Q := fun place ↦ place.file = file) rfl ?_
    exact fun place c c' ↦ hall place c c'
  · exact hall global b b' rfl

end

/-- The files that are modules get a symbol first. Its name is the path of the file. -/
theorem mirrored_declareFile {u u' : SourceUnit} {file : Nat}
    (hu : u.Mirrors (edits file) inPlace u') :
    Mirrored edits (fun _ ↦ inPlace) b b' (declareFile u file) (declareFile u' file) := by
  have hsymbol (c c' : Binding) : Mirrored edits (fun _ ↦ inPlace) c c'
      (newSymbol u.path.text none) (newSymbol u'.path.text none) :=
    fun hc ↦ ⟨hc.size, hc.pushSymbol [] fun h ↦ congrArg Path.text (hu.path h)⟩
  have hadd (module : Option Nat) (c c' : Binding) : Mirrored edits (fun _ ↦ inPlace) c c'
      (modify fun b ↦ { b with fileModules := b.fileModules.push module } : Binder Unit)
      (modify fun b ↦ { b with fileModules := b.fileModules.push module }) :=
    mirrored_modify fun hc ↦ { hc with fileModules := by rw [hc.fileModules] }
  unfold declareFile
  rw [hu.tree, SourceFile.isModule_edit]
  split
  · refine (hsymbol b b').bind fun id _ _ ↦ ?_
    exact (mirrored_addDeclaration id rfl).bind fun _ ↦ hadd (some id)
  · exact hadd none b b'

theorem mirrored_files {f g : SourceUnit → Nat → Binder Unit}
    (h : program.Mirrors edits inPlace program')
    (hf : ∀ u u' file, u.Mirrors (edits file) inPlace u' →
      ∀ c c', Mirrored edits named c c' (f u file) (g u' file)) :
    Mirrored edits named b b' (program.units.toList.zipIdx.forM fun (u, file) ↦ f u file)
      (program'.units.toList.zipIdx.forM fun (u, file) ↦ g u file) := by
  refine mirrored_forM (h.units.imp ?_)
  rintro ⟨u, file⟩ ⟨u', _⟩ ⟨rfl, hu⟩
  exact hf u u' _ hu

theorem mem_fileModules_declareFile (u : SourceUnit) (file : Nat)
    (hb : ∀ id < b.symbols.size, some id ∈ b.fileModules) :
    ∀ id < (declareFile u file b).2.symbols.size, some id ∈
      (declareFile u file b).2.fileModules := by
  unfold declareFile
  cases u.tree.isModule with
  | false => exact fun id hid ↦ Array.mem_push_of_mem none (hb id hid)
  | true =>
      intro id hid
      change id < (Array.modify (b.symbols.push _) b.symbols.size _).size at hid
      change some id ∈ b.fileModules.push (some b.symbols.size)
      rw [Array.size_modify, Array.size_push] at hid
      rcases Nat.lt_succ_iff_lt_or_eq.mp hid with hid | rfl
      · exact Array.mem_push_of_mem _ (hb id hid)
      · exact Array.mem_push_self

theorem mem_fileModules_declareFiles (files : List (SourceUnit × Nat))
    (hb : ∀ id < b.symbols.size, some id ∈ b.fileModules) :
    ∀ id < ((files.forM fun (u, file) ↦ declareFile u file) b).2.symbols.size,
      some id ∈ ((files.forM fun (u, file) ↦ declareFile u file) b).2.fileModules := by
  induction files generalizing b with
  | nil => exact hb
  | cons x rest ih => exact ih (mem_fileModules_declareFile x.1 x.2 hb)

end Binder

namespace Binding

variable {edits : Nat → TypeEdit} {inPlace : Prop} {p p' : Program}

/-- The symbol is that of a file that is a module. -/
def IsFile (b : Binding) (id : Nat) : Prop := some id ∈ b.fileModules

/-- The bindings of two programs that mirror each other do so. If the files are in other places,
only the names of their own symbols are others. -/
theorem mirrors_ofProgram (h : p.Mirrors edits inPlace p') :
    (ofProgram p).Mirrors edits (fun id ↦ inPlace ∨ ¬(ofProgram p).IsFile id)
      (ofProgram p') := by
  let declared (p : Program) : Binding :=
    ((p.units.toList.zipIdx.forM fun (u, file) ↦ Binder.declareFile u file : Binder Unit)
      ⟨#[], #[⟨[], [], none⟩], #[], [], []⟩).2
  have hglobal : Mirrors edits (fun _ ↦ inPlace) ⟨#[], #[⟨[], [], none⟩], #[], [], []⟩
      ⟨#[], #[⟨[], [], none⟩], #[], [], []⟩ := { mirrors_empty with scopes := rfl }
  have hdeclared : Mirrors edits (fun _ ↦ inPlace) (declared p) (declared p') :=
    (Binder.mirrored_files h (f := Binder.declareFile) (g := Binder.declareFile)
      (fun _ _ _ hu _ _ ↦ Binder.mirrored_declareFile hu) hglobal).2
  have hbound : Mirrors edits (fun id ↦ inPlace ∨ (declared p).symbols.size ≤ id)
      (ofProgram p) (ofProgram p') :=
    (Binder.mirrored_files h (f := Binder.bindFile p) (g := Binder.bindFile p')
      (fun _ _ _ hu _ _ ↦ Binder.mirrored_bindFile h.resolvedModule hu) hdeclared.behind).2
  have hfiles : (ofProgram p).fileModules = (declared p).fileModules := by
    obtain ⟨hclosed, _⟩ := Binder.closed_declareFiles p.units.toList.zipIdx Binder.closed_global
    exact (Binder.does_bindFiles p.units.toList.zipIdx hclosed).1.grows.fileModules
  refine { hbound with name := fun id hid ↦ hbound.name id (hid.imp_right fun hid ↦ ?_) }
  refine not_lt.mp fun hlt ↦ hid ?_
  unfold IsFile
  rw [hfiles]
  exact Binder.mem_fileModules_declareFiles _ (fun _ h ↦ absurd h (Nat.not_lt_zero _)) id hlt

/-- The symbol of a file is no namespace. -/
theorem not_isNamespace_of_isFile {id : Nat} (h : (ofProgram p).IsFile id) :
    ((ofProgram p).symbol id).isNamespace = false := by
  obtain ⟨file, hfile⟩ := Array.mem_iff_getElem?.mp h
  obtain ⟨d, hd, hkind⟩ := (closed_ofProgram p).fileModules file id
    (by rw [Array.getD_eq_getD_getElem?, hfile]; rfl)
  have hmodule : ((ofProgram p).symbol id).declarations.any (·.kind.isModule) = true :=
    List.any_eq_true.mpr ⟨d, hd, by rw [hkind]; rfl⟩
  simp [Symbol.isNamespace, hmodule]

end Binding

end PluginSurface
