import Mathlib.Data.List.Forall2
import PluginSurface.Proofs.Binding.Steps

/-!
# Bindings that agree

Two bindings agree if names and numbers are used in them alike: their scopes are the same, and their
symbols correspond to each other one by one. Which differences there may be in what a symbol
declares is said by an `Agreement`. An action of the binder that is done in bindings that agree
gives the same answer in both and leaves bindings that agree, since it reads nothing of a symbol but
the symbols around it and what its exports stand for.
-/

namespace PluginSurface

/-- Which symbols correspond to each other, by their number, which declarations, and which notes of
the scopes of statements. Whatever the binder does to symbols that correspond to each other, they
still do so. -/
structure Agreement where
  symbol : Nat → Symbol → Symbol → Prop
  declaration : Declaration → Declaration → Prop
  notes : List ((Nat × Nat) × Nat) → List ((Nat × Nat) × Nat) → Prop
  outer : ∀ {id s s'}, symbol id s s' → s'.outer = s.outer
  exports :
    ∀ {id s s'}, symbol id s s' → ∀ name, s'.exports.lookup name = s.exports.lookup name
  fresh : ∀ id name outer, symbol id (.fresh name outer) (.fresh name outer)
  addDeclaration : ∀ {id s s' d d'}, symbol id s s' → declaration d d' →
    symbol id { s with declarations := s.declarations ++ [d] }
      { s' with declarations := s'.declarations ++ [d'] }
  addExport : ∀ {id s s'}, symbol id s s' → ∀ name n,
    symbol id { s with exports := (name, n) :: s.exports }
      { s' with exports := (name, n) :: s'.exports }
  addStar : ∀ {id s s'}, symbol id s s' → ∀ module,
    symbol id { s with starExports := s.starExports ++ [module] }
      { s' with starExports := s'.starExports ++ [module] }
  exportWhole : ∀ {id s s'}, symbol id s s' → ∀ whole,
    symbol id { s with exportEquals := whole } { s' with exportEquals := whole }
  link : ∀ file scope l, declaration ⟨file, scope, .link l⟩ ⟨file, scope, .link l⟩
  namespaceDecl : ∀ file scope,
    declaration ⟨file, scope, .namespaceDecl⟩ ⟨file, scope, .namespaceDecl⟩
  moduleDecl :
    ∀ file scope, declaration ⟨file, scope, .moduleDecl⟩ ⟨file, scope, .moduleDecl⟩

variable {A : Agreement}

structure Binding.Agrees (A : Agreement) (b b' : Binding) : Prop where
  size : b'.symbols.size = b.symbols.size
  symbol : ∀ id, A.symbol id (b.symbol id) (b'.symbol id)
  scopes : b'.scopes = b.scopes
  fileModules : b'.fileModules = b.fileModules
  ambientModules : b'.ambientModules = b.ambientModules
  notes : A.notes b.statementScopes b'.statementScopes

namespace Binding.Agrees

variable {b b' : Binding} (h : b.Agrees A b')

include h

theorem scope (id : Nat) : b'.scope id = b.scope id := by
  rw [Binding.scope, Binding.scope, h.scopes]

theorem withSymbol (id : Nat) {f f' : Symbol → Symbol}
    (hf : ∀ j s s', A.symbol j s s' → A.symbol j (f s) (f' s')) :
    (b.withSymbol id f).Agrees A (b'.withSymbol id f') := by
  refine { h with size := ?_, symbol := fun j ↦ ?_ }
  · simpa [Binding.withSymbol] using h.size
  · rw [symbol_withSymbol, symbol_withSymbol, h.size]
    split
    · exact hf _ _ _ (h.symbol j)
    · exact h.symbol j

theorem pushSymbol {s s' : Symbol} (hs : A.symbol b.symbols.size s s') :
    Binding.Agrees A { b with symbols := b.symbols.push s }
      { b' with symbols := b'.symbols.push s' } := by
  refine { h with size := ?_, symbol := fun j ↦ ?_ }
  · simpa using h.size
  · rw [symbol_push, symbol_push, h.size]
    split
    next heq => exact heq ▸ hs
    next => exact h.symbol j

end Binding.Agrees

namespace Binder

variable {α β : Type} {b b' : Binding}

/-- Done in bindings that agree, the two actions give the same answer and leave bindings that
agree. -/
def Agree (A : Agreement) (b b' : Binding) (p p' : Binder α) : Prop :=
  b.Agrees A b' → (p' b').1 = (p b).1 ∧ (p b).2.Agrees A (p' b').2

theorem agree_pure (a : α) : Agree A b b' (pure a) (pure a) := fun h ↦ ⟨rfl, h⟩

theorem agree_modify {f f' : Binding → Binding} (h : b.Agrees A b' → (f b).Agrees A (f' b')) :
    Agree A b b' (modify f : Binder Unit) (modify f') :=
  fun hb ↦ ⟨rfl, h hb⟩

theorem agree_get {q q' : Binding → Binder β}
    (h : b.Agrees A b' → Agree A b b' (q b) (q' b')) : Agree A b b' (get >>= q) (get >>= q') :=
  fun hb ↦ h hb hb

theorem Agree.bind_of {p p' : Binder α} {q q' : α → Binder β} {Q : α → Binding → Prop}
    (hp : Agree A b b' p p') (hpost : Q (p b).1 (p b).2)
    (hq : ∀ a c c', Q a c → Agree A c c' (q a) (q' a)) :
    Agree A b b' (p >>= q) (p' >>= q') := by
  intro hb
  obtain ⟨hanswer, hc⟩ := hp hb
  change (q' (p' b').1 (p' b').2).1 = (q (p b).1 (p b).2).1 ∧
    (q (p b).1 (p b).2).2.Agrees A (q' (p' b').1 (p' b').2).2
  rw [hanswer]
  exact hq _ _ _ hpost hc

theorem Agree.bind {p p' : Binder α} {q q' : α → Binder β} (hp : Agree A b b' p p')
    (hq : ∀ a c c', Agree A c c' (q a) (q' a)) : Agree A b b' (p >>= q) (p' >>= q') :=
  hp.bind_of (Q := fun _ _ ↦ True) trivial fun a c c' _ ↦ hq a c c'

theorem Agree.discard {p p' : Binder α} (hp : Agree A b b' p p') :
    Agree A b b' (discard p) (discard p') :=
  hp.bind fun _ _ _ ↦ agree_pure ()

theorem agree_forM {xs : List α} {ys : List β} {f : α → Binder Unit} {g : β → Binder Unit}
    (h : List.Forall₂ (fun x y ↦ ∀ c c', Agree A c c' (f x) (g y)) xs ys) :
    Agree A b b' (xs.forM f) (ys.forM g) := by
  induction h generalizing b b' with
  | nil => exact agree_pure ()
  | cons hxy _ ih => exact (hxy b b').bind fun _ _ _ ↦ ih

theorem agree_forM_self {xs : List α} {f g : α → Binder Unit}
    (h : ∀ x c c', Agree A c c' (f x) (g x)) : Agree A b b' (xs.forM f) (xs.forM g) :=
  agree_forM (List.forall₂_same.mpr fun x _ ↦ h x)

/-! ## Single actions -/

theorem agree_newScope (outer : List Nat) (container : Option Nat) :
    Agree A b b' (newScope outer container) (newScope outer container) := by
  intro hb
  change b'.scopes.size = b.scopes.size ∧ Binding.Agrees A
    { b with scopes := b.scopes.push ⟨outer, [], container⟩ }
    { b' with scopes := b'.scopes.push ⟨outer, [], container⟩ }
  rw [hb.scopes]
  exact ⟨rfl, { hb with scopes := rfl }⟩

theorem agree_scopeChain (scope : Nat) : Agree A b b' (scopeChain scope) (scopeChain scope) := by
  refine agree_get fun hb ↦ ?_
  rw [hb.scope]
  exact agree_pure _

theorem agree_symbolChain (symbol : Option Nat) :
    Agree A b b' (symbolChain symbol) (symbolChain symbol) := by
  cases symbol with
  | none => exact agree_pure _
  | some id =>
      refine agree_get fun hb ↦ ?_
      rw [A.outer (hb.symbol id)]
      exact agree_pure _

theorem agree_newSymbol (name : String) (parent : Option Nat) :
    Agree A b b' (newSymbol name parent) (newSymbol name parent) := by
  refine (agree_symbolChain parent).bind fun outer c c' hc ↦ ?_
  exact ⟨hc.size, hc.pushSymbol (A.fresh _ name outer)⟩

theorem agree_changeSymbol (id : Nat) {f f' : Symbol → Symbol}
    (hf : ∀ j s s', A.symbol j s s' → A.symbol j (f s) (f' s')) :
    Agree A b b' (changeSymbol id f) (changeSymbol id f') :=
  agree_modify fun hb ↦ hb.withSymbol id hf

theorem agree_addDeclaration (id : Nat) {d d' : Declaration} (hd : A.declaration d d') :
    Agree A b b' (addDeclaration id d) (addDeclaration id d') :=
  agree_changeSymbol id fun _ _ _ hs ↦ A.addDeclaration hs hd

theorem agree_addExport (container : Nat) (name : String) (id : Nat) :
    Agree A b b' (addExport container name id) (addExport container name id) :=
  agree_changeSymbol container fun _ _ _ hs ↦ A.addExport hs name id

/-! ## Declarations -/

section

variable {place : Place} {kind kind' : DeclarationKind}
  (hkind : A.declaration ⟨place.file, place.scope, kind⟩ ⟨place.file, place.scope, kind'⟩)

include hkind

theorem agree_declare (exported : Bool) (name : String) :
    Agree A b b' (declare place exported name kind) (declare place exported name kind') := by
  refine agree_get fun hb ↦ ?_
  have hexports (id : Nat) :
      (b'.symbol id).exports.lookup name = (b.symbol id).exports.lookup name :=
    A.exports (hb.symbol id) name
  simp only [hexports, hb.scope]
  split
  · exact (agree_addDeclaration _ hkind).bind fun _ _ _ ↦ agree_pure _
  · refine (agree_newSymbol name _).bind fun id c c' ↦ ?_
    refine (agree_addDeclaration id hkind).bind fun _ d d' ↦ ?_
    split
    · exact (agree_addExport _ name id).bind fun _ _ _ ↦ agree_pure id
    · refine Agree.bind (agree_modify fun hd ↦ ?_) fun _ _ _ ↦ agree_pure id
      exact { hd with scopes := by rw [hd.scopes] }

theorem agree_declareName (exported : Bool) {name name' : String} (hname : name' = name) :
    Agree A b b' (discard (declare place exported name kind))
      (discard (declare place exported name' kind')) := by
  rw [hname]
  exact (agree_declare hkind exported name).discard

theorem agree_exportDefault (id : Option Nat) :
    Agree A b b' (exportDefault place id kind) (exportDefault place id kind') := by
  unfold exportDefault
  split
  · split
    · exact agree_addExport _ _ _
    · refine (agree_newSymbol "default" _).bind fun id _ _ ↦ ?_
      exact (agree_addDeclaration id hkind).bind fun _ _ _ ↦ agree_addExport _ _ id
  · exact agree_pure ()

theorem agree_declareMain (exported isDefault : Bool) {name name' : Option Name}
    (hname : name'.map Name.text = name.map Name.text) :
    Agree A b b' (declareMain place exported isDefault name kind)
      (declareMain place exported isDefault name' kind') := by
  have hdefault (id : Option Nat) (c c' : Binding) : Agree A c c'
      (if isDefault then exportDefault place id kind else pure ())
      (if isDefault then exportDefault place id kind' else pure ()) := by
    split
    · exact agree_exportDefault hkind id
    · exact agree_pure ()
  unfold declareMain
  match name, name', hname with
  | none, none, _ => exact hdefault none _ _
  | some n, some n', hname =>
      rw [Option.map_some, Option.map_some, Option.some_inj] at hname
      dsimp only
      rw [hname]
      exact (agree_declare hkind exported n.text).bind fun id ↦ hdefault (some id)

end

theorem agree_exportLink (place : Place) (container : Nat) (name : String) (link : Link) :
    Agree A b b' (exportLink place container name link) (exportLink place container name link) := by
  refine (agree_newSymbol name _).bind fun id _ _ ↦ ?_
  exact (agree_addDeclaration id (A.link _ _ link)).bind fun _ _ _ ↦
    agree_addExport container name id

theorem agree_declareLink (place : Place) (exported : Bool) (name : String) (link : Link) :
    Agree A b b' (discard (declare place exported name (.link link)))
      (discard (declare place exported name (.link link))) :=
  agree_declareName (A.link _ _ link) exported rfl

theorem agree_declareImport (place : Place) (decl : ImportDecl) :
    Agree A b b' (declareImport place decl) (declareImport place decl) := by
  unfold declareImport
  extract_lets module add rest after
  have hrest (c c' : Binding) : Agree A c c' (rest ()) (rest ()) :=
    agree_forM_self fun s _ _ ↦ agree_declareLink place false s.name _
  have hafter (c c' : Binding) : Agree A c c' (after ()) (after ()) := by
    unfold after
    split
    · exact (agree_declareLink place false _ _).bind fun _ ↦ hrest
    · exact hrest _ _
  split
  · exact (agree_declareLink place false _ _).bind fun _ ↦ hafter
  · exact hafter _ _

theorem agree_declareExport (place : Place) (container : Nat) (decl : ExportDecl) :
    Agree A b b' (declareExport place container decl) (declareExport place container decl) := by
  unfold declareExport
  extract_lets module
  split
  · exact agree_changeSymbol container fun _ _ _ hs ↦ A.addStar hs _
  · exact agree_exportLink _ _ _ _
  · exact agree_pure ()
  · exact agree_forM_self fun s _ _ ↦ agree_exportLink _ _ _ _
  · refine agree_forM_self fun s c c' ↦ agree_get fun hc ↦ ?_
    rw [A.exports (hc.symbol container)]
    split
    · exact agree_exportLink _ _ _ _
    · exact agree_pure ()

end Binder

/-- The second statement declares the same names in the same way, with declarations that correspond
to each other. What is in the bodies is left open. -/
inductive Decl.Relates (R : DeclarationKind → DeclarationKind → Prop) : Decl → Decl → Prop
  | classDecl {c c' : ClassDecl} (hname : c'.name.map Name.text = c.name.map Name.text)
      (hkind : R (.classDecl c) (.classDecl c')) : Relates R (.classDecl c) (.classDecl c')
  | interfaceDecl {i i' : InterfaceDecl} (hname : i'.name.text = i.name.text)
      (hkind : R (.interfaceDecl i) (.interfaceDecl i')) :
      Relates R (.interfaceDecl i) (.interfaceDecl i')
  | aliasDecl {a a' : AliasDecl} (hname : a'.name.text = a.name.text)
      (hkind : R (.aliasDecl a) (.aliasDecl a')) : Relates R (.aliasDecl a) (.aliasDecl a')
  | «variable» {keyword : VariableKeyword} {ds ds' : List Declarator}
      (h : List.Forall₂ (fun d d' ↦ d'.name.map Name.text = d.name.map Name.text ∧
        R (.variable d.type) (.variable d'.type)) ds ds') :
      Relates R (.variable keyword ds) (.variable keyword ds')
  | function {name name' : Option Name} {signature : Signature}
      {body body' : Option (List Statement)}
      (hname : name'.map Name.text = name.map Name.text) (hkind : R .function .function) :
      Relates R (.function name signature body) (.function name' signature body')
  | enumDecl {name name' : Name} {members : List String} (hname : name'.text = name.text)
      (hkind : R .enum .enum) : Relates R (.enumDecl name members) (.enumDecl name' members)
  | moduleDecl (name : ModuleName) (body body' : Option (List Statement)) :
      Relates R (.moduleDecl name body) (.moduleDecl name body')
  | importDecl (decl : ImportDecl) : Relates R (.importDecl decl) (.importDecl decl)
  | importEquals (name : String) (target : ImportTarget) :
      Relates R (.importEquals name target) (.importEquals name target)
  | exportDecl (decl : ExportDecl) : Relates R (.exportDecl decl) (.exportDecl decl)
  | exportAssignment (isEquals : Bool) (entity : Option (List String)) :
      Relates R (.exportAssignment isEquals entity) (.exportAssignment isEquals entity)
  | block (body body' : List Statement) : Relates R (.block body) (.block body')
  | other : Relates R .other .other

theorem Decl.Relates.imp {R S : DeclarationKind → DeclarationKind → Prop}
    (h : ∀ k k', R k k' → S k k')
    {decl decl' : Decl} (hdecl : decl.Relates R decl') : decl.Relates S decl' := by
  cases hdecl with
  | classDecl hname hkind => exact .classDecl hname (h _ _ hkind)
  | interfaceDecl hname hkind => exact .interfaceDecl hname (h _ _ hkind)
  | aliasDecl hname hkind => exact .aliasDecl hname (h _ _ hkind)
  | «variable» hds => exact .variable (hds.imp fun _ _ hd ↦ hd.imp_right (h _ _))
  | function hname hkind => exact .function hname (h _ _ hkind)
  | enumDecl hname hkind => exact .enumDecl hname (h _ _ hkind)
  | moduleDecl => exact .moduleDecl _ _ _
  | importDecl => exact .importDecl _
  | importEquals => exact .importEquals _ _
  | exportDecl => exact .exportDecl _
  | exportAssignment => exact .exportAssignment _ _
  | block => exact .block _ _
  | other => exact .other

namespace Binder

variable {b b' : Binding} {R : DeclarationKind → DeclarationKind → Prop}

theorem agree_declareOwn {place : Place} (hR : ∀ kind kind', R kind kind' →
      A.declaration ⟨place.file, place.scope, kind⟩ ⟨place.file, place.scope, kind'⟩)
    {decl decl' : Decl} (h : decl.Relates R decl') (exported isDefault : Bool) :
    Agree A b b' (declareOwn place exported isDefault decl)
      (declareOwn place exported isDefault decl') := by
  cases h with
  | classDecl hname hkind => exact agree_declareMain (hR _ _ hkind) exported isDefault hname
  | interfaceDecl hname hkind =>
      exact agree_declareMain (hR _ _ hkind) exported isDefault (congrArg some hname)
  | aliasDecl hname hkind => exact agree_declareName (hR _ _ hkind) exported hname
  | function hname hkind => exact agree_declareMain (hR _ _ hkind) exported isDefault hname
  | enumDecl hname hkind => exact agree_declareName (hR _ _ hkind) exported hname
  | «variable» hdeclarators =>
      refine agree_forM (hdeclarators.imp fun d d' hd c c' ↦ ?_)
      obtain ⟨hname, hkind⟩ := hd
      match d.name, d'.name, hname with
      | none, none, _ => exact agree_pure ()
      | some n, some n', hname =>
          exact agree_declareName (hR _ _ hkind) exported (Option.some.inj hname)
  | importDecl decl => exact agree_declareImport place decl
  | importEquals name target => exact agree_declareLink place exported name _
  | exportDecl decl =>
      obtain ⟨file, scope, container, ambient⟩ := place
      cases container with
      | none => exact agree_pure ()
      | some m => exact agree_declareExport _ m decl
  | exportAssignment isEquals entity =>
      obtain ⟨file, scope, container, ambient⟩ := place
      match container, entity, isEquals with
      | none, _, _ | some _, none, _ => exact agree_pure ()
      | some m, some path, true => exact agree_changeSymbol m fun _ _ _ hs ↦ A.exportWhole hs _
      | some m, some path, false => exact agree_exportLink _ m "default" _
  | moduleDecl | block | other => exact agree_pure ()

/-! ## Places -/

theorem agree_inside (place : Place) (symbol : Nat) (ambient : Bool) :
    Agree A b b' (inside place symbol ambient) (inside place symbol ambient) :=
  (agree_scopeChain place.scope).bind fun outer _ _ ↦
    (agree_newScope outer (some symbol)).bind fun _ _ _ ↦ agree_pure _

theorem agree_enterBody (place : Place) : Agree A b b' (enterBody place) (enterBody place) :=
  (agree_scopeChain place.scope).bind fun outer _ _ ↦
    (agree_newScope outer none).bind fun _ _ _ ↦ agree_pure _

theorem agree_enterNamespaces (place : Place) (exported : Bool) (segments : List String) :
    Agree A b b' (enterNamespaces place exported segments)
      (enterNamespaces place exported segments) := by
  induction segments generalizing place exported b b' with
  | nil => exact agree_pure place
  | cons segment rest ih =>
      refine (agree_declare (A.namespaceDecl _ _) exported segment).bind fun id _ _ ↦ ?_
      exact (agree_inside place id place.ambient).bind fun inner _ _ ↦ ih inner true

section

variable {program program' : Program} (hmodule : ∀ file specifier,
  program'.resolvedModule file specifier = program.resolvedModule file specifier)

include hmodule

theorem agree_namedModule (place : Place) (specifier : String) :
    Agree A b b' (namedModule program place specifier) (namedModule program' place specifier) := by
  refine agree_get fun hb ↦ ?_
  simp only [hmodule, hb.fileModules, hb.ambientModules]
  split
  · exact agree_pure _
  · refine (agree_newSymbol specifier none).bind fun id _ _ ↦ ?_
    refine Agree.bind (agree_modify fun hc ↦ ?_) fun _ _ _ ↦ agree_pure id
    exact { hc with ambientModules := congrArg ((specifier, id) :: ·) hc.ambientModules }

theorem agree_enterModule (place : Place) (exported : Bool) (name : ModuleName) :
    Agree A b b' (enterModule program place exported name)
      (enterModule program' place exported name) := by
  cases name with
  | global => exact agree_pure _
  | string specifier =>
      refine (agree_namedModule hmodule place specifier).bind fun id _ _ ↦ ?_
      exact (agree_addDeclaration id (A.moduleDecl _ _)).bind fun _ _ _ ↦
        agree_inside place id true
  | path segments => exact agree_enterNamespaces place exported segments

end

end Binder

end PluginSurface
