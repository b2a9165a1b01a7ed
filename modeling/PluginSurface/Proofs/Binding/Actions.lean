import Mathlib.Data.Option.Basic
import PluginSurface.Proofs.Binding.Steps

/-!
# What the actions of the binder do

Each action that declares names makes steps only, if the place that it is given is in range. What
it has declared is still declared when the binding has grown, so the specification of a sequence is
made of those of its parts.
-/

namespace PluginSurface

/-- The scope and the container of a place are in range. -/
structure Place.Within (place : Place) (b : Binding) : Prop where
  scope : place.scope < b.scopes.size
  container : ∀ m ∈ place.container, m < b.symbols.size

theorem Place.Within.mono {place : Place} {b c : Binding} (h : place.Within b) (hbc : b.Grows c) :
    place.Within c :=
  ⟨h.scope.trans_le hbc.scopes, fun m hm ↦ (h.container m hm).trans_le hbc.symbols⟩

/-- What is said about a binding stays true when it grows. -/
def Stable (P : Binding → Prop) : Prop := ∀ b c : Binding, b.Grows c → P b → P c

theorem stable_true : Stable fun _ ↦ True := fun _ _ _ h ↦ h

theorem stable_forall {ι : Sort*} {P : ι → Binding → Prop} (h : ∀ i, Stable (P i)) :
    Stable fun b ↦ ∀ i, P i b :=
  fun b c hbc hb i ↦ h i b c hbc (hb i)

namespace Binding

/-- A module or namespace exports under a name a symbol with the declaration. -/
def Exports (b : Binding) (module : Nat) (name : String) (d : Declaration) : Prop :=
  ∃ id, (name, id) ∈ (b.symbol module).exports ∧ d ∈ (b.symbol id).declarations

/-- A name stands in a scope for a symbol with the declaration. -/
def Names (b : Binding) (scope : Nat) (name : String) (d : Declaration) : Prop :=
  ∃ id, (b.scope scope).names.lookup name = some id ∧ d ∈ (b.symbol id).declarations

/-- A name is declared in a place: an exported one as an export of the container, if there is one,
any other in the scope. -/
def Declares (b : Binding) (place : Place) (exported : Bool) (name : String)
    (kind : DeclarationKind) : Prop :=
  match if exported then place.container else none with
  | some m => b.Exports m name ⟨place.file, place.scope, kind⟩
  | none => b.Names place.scope name ⟨place.file, place.scope, kind⟩

theorem Declares.exports {b : Binding} {place : Place} {exported : Bool} {name : String}
    {kind : DeclarationKind} {m : Nat} (h : b.Declares place exported name kind)
    (hexported : exported = true) (hcontainer : place.container = some m) :
    b.Exports m name ⟨place.file, place.scope, kind⟩ := by
  unfold Declares at h
  rwa [hexported, if_pos rfl, hcontainer] at h

structure DeclaresImport (b : Binding) (place : Place) (decl : ImportDecl) : Prop where
  default : ∀ name ∈ decl.default,
    b.Declares place false name (.link (.member ⟨place.file, decl.specifier⟩ "default"))
  allAs : ∀ name ∈ decl.allAs,
    b.Declares place false name (.link (.namespace ⟨place.file, decl.specifier⟩))
  named : ∀ s ∈ decl.named,
    b.Declares place false s.name (.link (.member ⟨place.file, decl.specifier⟩ s.imported))

def DeclaresExport (b : Binding) (place : Place) (container : Nat) (decl : ExportDecl) : Prop :=
  match decl.clause, decl.specifier with
  | .all none, some specifier => ⟨place.file, specifier⟩ ∈ (b.symbol container).starExports
  | .all (some name), some specifier =>
      b.Exports container name
        ⟨place.file, place.scope, .link (.namespace ⟨place.file, specifier⟩)⟩
  | .all _, none => True
  | .named specifiers, some specifier => ∀ s ∈ specifiers,
      b.Exports container s.exported
        ⟨place.file, place.scope, .link (.member ⟨place.file, specifier⟩ s.name)⟩
  | .named specifiers, none => ∀ s ∈ specifiers,
      ∃ id, (s.exported, id) ∈ (b.symbol container).exports

/-- The names of a declaration are declared, except those of namespaces and modules. -/
def DeclaresOwn (b : Binding) (place : Place) (exported : Bool) : Decl → Prop
  | .classDecl c => ∀ n ∈ c.name, b.Declares place exported n.text (.classDecl c)
  | .interfaceDecl i => b.Declares place exported i.name.text (.interfaceDecl i)
  | .aliasDecl a => b.Declares place exported a.name.text (.aliasDecl a)
  | .variable _ declarators =>
      ∀ d ∈ declarators, ∀ n ∈ d.name, b.Declares place exported n.text (.variable d.type)
  | .function name _ _ => ∀ n ∈ name, b.Declares place exported n.text .function
  | .enumDecl name _ => b.Declares place exported name.text .enum
  | .importDecl decl => b.DeclaresImport place decl
  | .importEquals name (.require specifier) =>
      b.Declares place exported name (.link (.require ⟨place.file, specifier⟩))
  | .importEquals name (.entity path) => b.Declares place exported name (.link (.entity path))
  | .exportDecl decl => ∀ m ∈ place.container, b.DeclaresExport place m decl
  | .exportAssignment isEquals entity => ∀ m ∈ place.container, ∀ path ∈ entity,
      isEquals = false → b.Exports m "default" ⟨place.file, place.scope, .link (.entity path)⟩
  | .moduleDecl .. | .block _ | .other => True

theorem stable_mem_exports (module : Nat) (e : String × Nat) :
    Stable fun b ↦ e ∈ (b.symbol module).exports :=
  fun _ _ hbc hb ↦ (hbc.symbol module).exports.subset hb

theorem stable_exports (module : Nat) (name : String) (d : Declaration) :
    Stable fun b ↦ b.Exports module name d := by
  rintro b c hbc ⟨id, hid, hd⟩
  exact ⟨id, stable_mem_exports module _ b c hbc hid, (hbc.symbol id).declarations.subset hd⟩

theorem stable_names (scope : Nat) (name : String) (d : Declaration) :
    Stable fun b ↦ b.Names scope name d := by
  rintro b c hbc ⟨id, hid, hd⟩
  exact ⟨id, hbc.names scope name id hid, (hbc.symbol id).declarations.subset hd⟩

theorem stable_declares (place : Place) (exported : Bool) (name : String) (kind : DeclarationKind) :
    Stable fun b ↦ b.Declares place exported name kind := by
  unfold Declares
  cases if exported then place.container else none with
  | some m => exact stable_exports _ _ _
  | none => exact stable_names _ _ _

theorem stable_declaresImport (place : Place) (decl : ImportDecl) :
    Stable fun b ↦ b.DeclaresImport place decl :=
  fun b c hbc hb ↦
    ⟨fun name hname ↦ stable_declares _ _ _ _ b c hbc (hb.default name hname),
      fun name hname ↦ stable_declares _ _ _ _ b c hbc (hb.allAs name hname),
      fun s hs ↦ stable_declares _ _ _ _ b c hbc (hb.named s hs)⟩

theorem stable_declaresExport (place : Place) (container : Nat) (decl : ExportDecl) :
    Stable fun b ↦ b.DeclaresExport place container decl := by
  unfold DeclaresExport
  split
  · exact fun b c hbc hb ↦ (hbc.symbol container).starExports.subset hb
  · exact stable_exports _ _ _
  · exact stable_true
  · exact stable_forall fun s ↦ stable_forall fun _ ↦ stable_exports _ _ _
  · refine stable_forall fun s ↦ stable_forall fun _ ↦ ?_
    rintro b c hbc ⟨id, hid⟩
    exact ⟨id, stable_mem_exports container _ b c hbc hid⟩

theorem stable_declaresOwn (place : Place) (exported : Bool) (decl : Decl) :
    Stable fun b ↦ b.DeclaresOwn place exported decl := by
  unfold DeclaresOwn
  split
  · exact stable_forall fun n ↦ stable_forall fun _ ↦ stable_declares _ _ _ _
  · exact stable_declares _ _ _ _
  · exact stable_declares _ _ _ _
  · exact stable_forall fun d ↦ stable_forall fun _ ↦ stable_forall fun n ↦
      stable_forall fun _ ↦
      stable_declares _ _ _ _
  · exact stable_forall fun n ↦ stable_forall fun _ ↦ stable_declares _ _ _ _
  · exact stable_declares _ _ _ _
  · exact stable_declaresImport _ _
  · exact stable_declares _ _ _ _
  · exact stable_declares _ _ _ _
  · exact stable_forall fun m ↦ stable_forall fun _ ↦ stable_declaresExport _ _ _
  · exact stable_forall fun m ↦ stable_forall fun _ ↦ stable_forall fun path ↦
      stable_forall fun _ ↦ stable_forall fun _ ↦ stable_exports _ _ _
  · exact stable_true
  · exact stable_true
  · exact stable_true

end Binding

namespace Binder

variable {α β : Type} {b : Binding} {keys more : List (Nat × Nat)}

/-- Done in a closed binding `b`, the action makes steps that visit the statements `keys`, and
`post` is true of its answer. -/
def Does (p : Binder α) (b : Binding) (keys : List (Nat × Nat)) (post : α → Binding → Prop) :
    Prop :=
  b.Closed → Binding.Steps keys b (p b).2 ∧ post (p b).1 (p b).2

theorem does_pure {post : α → Binding → Prop} (a : α) (h : post a b) :
    Does (pure a) b [] post :=
  fun _ ↦ ⟨.refl b, h⟩

theorem does_step {p : Binder α} {post : α → Binding → Prop} (h : Binding.Step b (p b).2)
    (hpost : post (p b).1 (p b).2) : Does p b [] post :=
  fun _ ↦ ⟨.step (.refl b) h, hpost⟩

theorem does_of_closed {p : Binder α} {post : α → Binding → Prop}
    (h : b.Closed → Does p b keys post) : Does p b keys post :=
  fun hb ↦ h hb hb

theorem does_get {q : Binding → Binder β} {post : β → Binding → Prop}
    (h : Does (q b) b keys post) : Does (get >>= q) b keys post := h

theorem Does.imp {p : Binder α} {post post' : α → Binding → Prop} (h : Does p b keys post)
    (hpost : ∀ a c, b.Grows c → post a c → post' a c) : Does p b keys post' := by
  intro hb
  obtain ⟨hsteps, hp⟩ := h hb
  exact ⟨hsteps, hpost _ _ hsteps.grows hp⟩

theorem Does.bind {p : Binder α} {q : α → Binder β} {mid : α → Binding → Prop}
    {post : β → Binding → Prop} (hp : Does p b keys mid)
    (hq : ∀ a c, b.Grows c → mid a c → Does (q a) c more post) :
    Does (p >>= q) b (keys ++ more) post := by
  intro hb
  obtain ⟨hsteps, hmid⟩ := hp hb
  obtain ⟨hmore, hpost⟩ := hq _ _ hsteps.grows hmid (hsteps.closed hb)
  exact ⟨hsteps.trans hmore, hpost⟩

theorem Does.andThen {p : Binder α} {q : α → Binder β} {mid : α → Binding → Prop}
    {post : β → Binding → Prop} (hp : Does p b [] mid)
    (hq : ∀ a c, b.Grows c → mid a c → Does (q a) c keys post) : Does (p >>= q) b keys post :=
  hp.bind hq

theorem Does.discard {p : Binder α} {post : α → Binding → Prop} (hp : Does p b [] post) :
    Does (discard p) b [] fun _ c ↦ ∃ a, post a c :=
  hp.andThen fun a _ _ ha ↦ does_pure _ ⟨a, ha⟩

/-- What is done for each of the elements stays done. -/
theorem does_forM {xs : List α} {f : α → Binder Unit} {keys : α → List (Nat × Nat)}
    {Q : α → Binding → Prop} (hQ : ∀ x, Stable (Q x))
    (hf : ∀ x ∈ xs, ∀ c, b.Grows c → Does (f x) c (keys x) fun _ d ↦ Q x d) :
    Does (xs.forM f) b (xs.flatMap keys) fun _ d ↦ ∀ x ∈ xs, Q x d := by
  induction xs generalizing b with
  | nil => exact does_pure () fun x hx ↦ absurd hx List.not_mem_nil
  | cons x rest ih =>
      rw [List.flatMap_cons]
      refine (hf x List.mem_cons_self b (.refl b)).bind fun _ c hbc hx ↦ ?_
      have hrest := ih fun y hy d hcd ↦ hf y (List.mem_cons_of_mem _ hy) d (hbc.trans hcd)
      exact hrest.imp fun _ d hcd hd ↦ List.forall_mem_cons.mpr ⟨hQ x c d hcd hx, hd⟩

theorem does_forM_nil {xs : List α} {f : α → Binder Unit} {Q : α → Binding → Prop}
    (hQ : ∀ x, Stable (Q x))
    (hf : ∀ x ∈ xs, ∀ c, b.Grows c → Does (f x) c [] fun _ d ↦ Q x d) :
    Does (xs.forM f) b [] fun _ d ↦ ∀ x ∈ xs, Q x d := by
  have hall := does_forM hQ hf
  rwa [List.flatMap_eq_nil_iff.mpr fun _ _ ↦ rfl] at hall

/-! ## Single actions -/

theorem does_newScope (outer : List Nat) {container : Option Nat}
    (hcontainer : ∀ m ∈ container, m < b.symbols.size) :
    Does (newScope outer container) b [] fun id c ↦ id < c.scopes.size := by
  refine does_step (.newScope outer container hcontainer) ?_
  change b.scopes.size < (b.scopes.push _).size
  simp

/-- A symbol is new, and nothing else changes. -/
structure IsNew (b : Binding) (name : String) (id : Nat) (c : Binding) : Prop where
  lt : id < c.symbols.size
  name : (c.symbol id).name = name
  scopes : c.scopes = b.scopes
  ambientModules : c.ambientModules = b.ambientModules

theorem does_newSymbol (name : String) {parent : Option Nat}
    (hparent : ∀ m ∈ parent, m < b.symbols.size) :
    Does (newSymbol name parent) b [] fun id c ↦ IsNew b name id c := by
  have hnew (outer : List Nat) : IsNew b name b.symbols.size
      { b with symbols := b.symbols.push (.fresh name outer) } := by
    refine ⟨by simp, ?_, rfl, rfl⟩
    rw [Binding.symbol_push, if_pos rfl]
    rfl
  refine does_of_closed fun hb ↦ ?_
  cases parent with
  | none => exact does_step (.newSymbol name [] fun _ h ↦ absurd h List.not_mem_nil) (hnew _)
  | some m =>
      refine does_step (.newSymbol name (m :: (b.symbol m).outer) ?_) (hnew _)
      exact List.forall_mem_cons.mpr ⟨hparent m rfl, (hb.symbol m).outer⟩

theorem does_addDeclaration {id : Nat} {d : Declaration} (hid : id < b.symbols.size)
    (hscope : d.scope < b.scopes.size) :
    Does (addDeclaration id d) b [] fun _ c ↦
      d ∈ (c.symbol id).declarations ∧ c.scopes = b.scopes := by
  refine does_step (.addDeclaration id d hscope) ⟨?_, rfl⟩
  change d ∈ ((b.withSymbol id _).symbol id).declarations
  rw [Binding.symbol_withSymbol, if_pos ⟨rfl, hid⟩]
  exact List.mem_append_right _ List.mem_cons_self

theorem does_addExport {container : Nat} {name : String} {id : Nat}
    (hcontainer : container < b.symbols.size) (hid : id < b.symbols.size)
    (hname : name = "default" ∨ (b.symbol id).name = name) :
    Does (addExport container name id) b [] fun _ c ↦
      (name, id) ∈ (c.symbol container).exports := by
  refine does_step (.addExport container name id hid hname) ?_
  change (name, id) ∈ ((b.withSymbol container _).symbol container).exports
  rw [Binding.symbol_withSymbol, if_pos ⟨rfl, hcontainer⟩]
  exact List.mem_cons_self

theorem does_addName {scope : Nat} {name : String} {id : Nat} (hscope : scope < b.scopes.size)
    (hid : id < b.symbols.size) (hnew : (b.scope scope).names.lookup name = none)
    (hname : (b.symbol id).name = name) :
    Does (modify fun b ↦ { b with scopes := b.scopes.modify scope fun s ↦
      { s with names := (name, id) :: s.names } } : Binder Unit) b [] fun _ c ↦
        (c.scope scope).names.lookup name = some id := by
  refine does_step (.addName scope name id hid hnew hname) ?_
  change ((b.withScope scope _).scope scope).names.lookup name = some id
  rw [Binding.scope_withScope, if_pos ⟨rfl, hscope⟩]
  exact List.lookup_cons_self

theorem does_addModule {name : String} {id : Nat} (hid : id < b.symbols.size)
    (hnew : b.ambientModules.lookup name = none) :
    Does (modify fun b ↦ { b with ambientModules := (name, id) :: b.ambientModules } : Binder
      Unit) b [] fun _ c ↦ c.ambientModules.lookup name = some id :=
  does_step (.addModule name id hid hnew) List.lookup_cons_self

/-! ## Declarations -/

theorem does_declare {place : Place} (hplace : place.Within b) (exported : Bool) (name : String)
    (kind : DeclarationKind) :
    Does (declare place exported name kind) b [] fun id c ↦
      id < c.symbols.size ∧ c.Declares place exported name kind := by
  refine does_of_closed fun hb ↦ ?_
  have hcontainer : ∀ m ∈ if exported then place.container else none, m < b.symbols.size := by
    cases exported with
    | true => exact hplace.container
    | false => exact fun m hm ↦ nomatch hm
  unfold declare Binding.Declares
  generalize (if exported then place.container else none) = declaredIn at hcontainer ⊢
  refine does_get ?_
  cases declaredIn with
  | some m =>
      extract_lets d container known
      cases hknown : known with
      | some id =>
          have hmem : (name, id) ∈ (b.symbol m).exports := mem_of_lookup hknown
          have hid : id < b.symbols.size := (hb.symbol m).exports _ hmem
          refine (does_addDeclaration hid hplace.scope).andThen fun _ c hbc hd ↦ ?_
          have hexports := Binding.stable_mem_exports m _ b c hbc hmem
          exact does_pure id ⟨hid.trans_le hbc.symbols, id, hexports, hd.1⟩
      | none =>
          refine (does_newSymbol name (hb.scope place.scope).container).andThen
            fun id c hbc hid ↦ ?_
          have hscope : d.scope < c.scopes.size := hplace.scope.trans_le hbc.scopes
          refine (does_addDeclaration hid.lt hscope).andThen fun _ e hce hd ↦ ?_
          have hm : m < e.symbols.size :=
            (hcontainer m rfl).trans_le (hbc.symbols.trans hce.symbols)
          have hname : (e.symbol id).name = name := (hce.name id hid.lt).trans hid.name
          refine (does_addExport hm (hid.lt.trans_le hce.symbols) (.inr hname)).andThen
            fun _ f hef hf ↦ ?_
          have hdeclaration := (hef.symbol id).declarations.subset hd.1
          exact does_pure id ⟨Binding.lt_of_mem_declarations hdeclaration, id, hf, hdeclaration⟩
  | none =>
      extract_lets d container known
      cases hknown : known with
      | some id =>
          have hname : (b.scope place.scope).names.lookup name = some id := hknown
          have hid : id < b.symbols.size := (hb.scope place.scope).names _ (mem_of_lookup hname)
          refine (does_addDeclaration hid hplace.scope).andThen fun _ c hbc hd ↦ ?_
          have hnames := hbc.names place.scope name id hname
          exact does_pure id ⟨hid.trans_le hbc.symbols, id, hnames, hd.1⟩
      | none =>
          refine (does_newSymbol name (hb.scope place.scope).container).andThen
            fun id c hbc hid ↦ ?_
          have hscope : d.scope < c.scopes.size := hplace.scope.trans_le hbc.scopes
          refine (does_addDeclaration hid.lt hscope).andThen fun _ e hce hd ↦ ?_
          have hnew : (e.scope place.scope).names.lookup name = none := by
            rw [Binding.scope, hd.2, hid.scopes]
            exact hknown
          have hname : (e.symbol id).name = name := (hce.name id hid.lt).trans hid.name
          refine (does_addName (hscope.trans_le hce.scopes) (hid.lt.trans_le hce.symbols) hnew
            hname).andThen fun _ f hef hf ↦ ?_
          have hdeclaration := (hef.symbol id).declarations.subset hd.1
          exact does_pure id ⟨Binding.lt_of_mem_declarations hdeclaration, id, hf, hdeclaration⟩

theorem does_exportLink {place : Place} (hplace : place.Within b) {container : Nat}
    (hcontainer : container < b.symbols.size) (name : String) (link : Link) :
    Does (exportLink place container name link) b [] fun _ c ↦
      c.Exports container name ⟨place.file, place.scope, .link link⟩ := by
  have hparent : ∀ m ∈ some container, m < b.symbols.size := by
    rintro _ ⟨rfl⟩
    exact hcontainer
  refine (does_newSymbol name hparent).andThen fun id c hbc hid ↦ ?_
  refine (does_addDeclaration hid.lt (hplace.mono hbc).scope).andThen fun _ d hcd hd ↦ ?_
  have hsize := hbc.symbols.trans hcd.symbols
  have hname : (d.symbol id).name = name := (hcd.name id hid.lt).trans hid.name
  refine (does_addExport (hcontainer.trans_le hsize) (hid.lt.trans_le hcd.symbols)
    (.inr hname)).imp ?_
  exact fun _ e hde he ↦ ⟨id, he, (hde.symbol id).declarations.subset hd.1⟩

theorem does_exportDefault {place : Place} (hplace : place.Within b) {named : Option Nat}
    (hnamed : ∀ id ∈ named, id < b.symbols.size) (kind : DeclarationKind) :
    Does (exportDefault place named kind) b [] fun _ _ ↦ True := by
  unfold exportDefault
  cases hcontainer : place.container with
  | none => exact does_pure () trivial
  | some m =>
      have hm := hplace.container m hcontainer
      cases named with
      | some id => exact (does_addExport hm (hnamed id rfl) (.inl rfl)).imp fun _ _ _ _ ↦ trivial
      | none =>
          have hparent : ∀ other ∈ some m, other < b.symbols.size := by
            rintro _ ⟨rfl⟩
            exact hm
          refine (does_newSymbol "default" hparent).andThen fun id c hbc hid ↦ ?_
          refine (does_addDeclaration hid.lt (hplace.mono hbc).scope).andThen fun _ d hcd _ ↦ ?_
          have hsize := hbc.symbols.trans hcd.symbols
          exact (does_addExport (hm.trans_le hsize) (hid.lt.trans_le hcd.symbols) (.inl rfl)).imp
            fun _ _ _ _ ↦ trivial

theorem does_declareMain {place : Place} (hplace : place.Within b) (exported isDefault : Bool)
    (name : Option Name) (kind : DeclarationKind) :
    Does (declareMain place exported isDefault name kind) b [] fun _ c ↦
      ∀ n ∈ name, c.Declares place exported n.text kind := by
  have hdefault {c : Binding} (hbc : b.Grows c) {id : Option Nat}
      (hid : ∀ i ∈ id, i < c.symbols.size) :
      Does (if isDefault then exportDefault place id kind else pure ()) c [] fun _ _ ↦ True := by
    split
    · exact does_exportDefault (hplace.mono hbc) hid kind
    · exact does_pure () trivial
  unfold declareMain
  cases name with
  | none =>
      refine (hdefault (.refl b) fun i hi ↦ absurd hi (Option.not_mem_none i)).imp ?_
      exact fun _ _ _ _ n hn ↦ absurd hn (Option.not_mem_none n)
  | some n =>
      refine (does_declare hplace exported n.text kind).andThen fun id c hbc hid ↦ ?_
      refine (hdefault hbc fun i hi ↦ Option.some.inj hi ▸ hid.1).imp fun _ d hcd _ ↦ ?_
      rintro _ ⟨rfl⟩
      exact Binding.stable_declares place exported n.text kind c d hcd hid.2

theorem does_declareImport {place : Place} (hplace : place.Within b) (decl : ImportDecl) :
    Does (declareImport place decl) b [] fun _ c ↦ c.DeclaresImport place decl := by
  unfold declareImport
  extract_lets module add named rest
  have hadd {c : Binding} (hbc : b.Grows c) (name : String) (link : Link) :
      Does (add name link) c [] fun _ d ↦ d.Declares place false name (.link link) :=
    (does_declare (hplace.mono hbc) false name (.link link)).discard.imp
      fun _ _ _ ⟨_, h⟩ ↦ h.2
  have hnamed {c : Binding} (hbc : b.Grows c) :
      Does (named ()) c [] fun _ d ↦ ∀ s ∈ decl.named,
        d.Declares place false s.name (.link (.member module s.imported)) :=
    does_forM_nil (fun s ↦ Binding.stable_declares _ _ _ _) fun s _ d hcd ↦
      hadd (hbc.trans hcd) s.name _
  have hrest {c : Binding} (hbc : b.Grows c) :
      Does (rest ()) c [] fun _ d ↦
        (∀ name ∈ decl.allAs, d.Declares place false name (.link (.namespace module))) ∧
        ∀ s ∈ decl.named, d.Declares place false s.name
          (.link (.member module s.imported)) := by
    unfold rest
    cases decl.allAs with
    | none => exact (hnamed hbc).imp fun _ _ _ h ↦ ⟨fun name hname ↦ (nomatch hname), h⟩
    | some name =>
        refine (hadd hbc name _).andThen fun _ d hcd hd ↦ ?_
        refine (hnamed (hbc.trans hcd)).imp fun _ e hde he ↦ ⟨?_, he⟩
        rintro _ ⟨rfl⟩
        exact Binding.stable_declares _ _ _ _ d e hde hd
  cases hdefault : decl.default with
  | none =>
      refine (hrest (.refl b)).imp fun _ c _ hc ↦ ⟨?_, hc.1, hc.2⟩
      rw [hdefault]
      exact fun name hname ↦ nomatch hname
  | some name =>
      refine (hadd (.refl b) name _).andThen fun _ c hbc hc ↦ ?_
      refine (hrest hbc).imp fun _ d hcd hd ↦ ⟨?_, hd.1, hd.2⟩
      rw [hdefault]
      rintro _ ⟨rfl⟩
      exact Binding.stable_declares _ _ _ _ c d hcd hc

theorem does_declareExport {place : Place} (hplace : place.Within b) {container : Nat}
    (hcontainer : container < b.symbols.size) (decl : ExportDecl) :
    Does (declareExport place container decl) b [] fun _ c ↦
      c.DeclaresExport place container decl := by
  obtain ⟨typeOnly, clause, specifier⟩ := decl
  have hlink {c : Binding} (hbc : b.Grows c) (name : String) (link : Link) :
      Does (exportLink place container name link) c [] fun _ d ↦
        d.Exports container name ⟨place.file, place.scope, .link link⟩ :=
    does_exportLink (hplace.mono hbc) (hcontainer.trans_le hbc.symbols) name link
  match clause, specifier with
  | .all none, some specifier =>
      refine does_step (.addStar container ⟨place.file, specifier⟩) ?_
      change _ ∈ ((b.withSymbol container _).symbol container).starExports
      rw [Binding.symbol_withSymbol, if_pos ⟨rfl, hcontainer⟩]
      exact List.mem_append_right _ List.mem_cons_self
  | .all (some name), some specifier => exact hlink (.refl b) name _
  | .all none, none | .all (some _), none => exact does_pure () trivial
  | .named specifiers, some specifier =>
      exact does_forM_nil (fun s ↦ Binding.stable_exports _ _ _) fun s _ c hbc ↦ hlink hbc _ _
  | .named specifiers, none =>
      refine does_forM_nil (Q := fun (s : ExportSpecifier) c ↦
        ∃ id, (s.exported, id) ∈ (c.symbol container).exports) ?_ fun s _ c hbc ↦ ?_
      · rintro s c d hcd ⟨id, hid⟩
        exact ⟨id, Binding.stable_mem_exports container _ c d hcd hid⟩
      · refine does_get ?_
        split
        next => exact (hlink hbc s.exported _).imp fun _ _ _ ⟨id, hid, _⟩ ↦ ⟨id, hid⟩
        next hknown =>
            refine does_pure () ?_
            cases hlookup : (c.symbol container).exports.lookup s.exported with
            | some id => exact ⟨id, mem_of_lookup hlookup⟩
            | none => exact (hknown (hlookup ▸ rfl)).elim

theorem does_declareOwn {place : Place} (hplace : place.Within b) (exported isDefault : Bool)
    (decl : Decl) :
    Does (declareOwn place exported isDefault decl) b [] fun _ c ↦
      c.DeclaresOwn place exported decl := by
  have hdeclare {c : Binding} (hbc : b.Grows c) (name : String) (kind : DeclarationKind) :
      Does (discard (declare place exported name kind)) c [] fun _ d ↦
        d.Declares place exported name kind :=
    (does_declare (hplace.mono hbc) exported name kind).discard.imp fun _ _ _ ⟨_, h⟩ ↦ h.2
  match decl with
  | .classDecl c => exact does_declareMain hplace exported isDefault c.name (.classDecl c)
  | .interfaceDecl i =>
      exact (does_declareMain hplace exported isDefault (some i.name) (.interfaceDecl i)).imp
        fun _ _ _ h ↦ h i.name rfl
  | .function name signature body => exact does_declareMain hplace exported isDefault name .function
  | .aliasDecl a => exact hdeclare (.refl b) a.name.text _
  | .enumDecl name members => exact hdeclare (.refl b) name.text _
  | .importEquals name (.require specifier) => exact hdeclare (.refl b) name _
  | .importEquals name (.entity path) => exact hdeclare (.refl b) name _
  | .variable keyword declarators =>
      refine does_forM_nil (fun d ↦ stable_forall fun n ↦ stable_forall fun _ ↦
        Binding.stable_declares _ _ _ _) fun d _ c hbc ↦ ?_
      cases hname : d.name with
      | none => exact does_pure () fun n hn ↦ nomatch hn
      | some name =>
          refine (hdeclare hbc name.text _).imp fun _ _ _ h ↦ ?_
          rintro _ ⟨rfl⟩
          exact h
  | .importDecl decl => exact does_declareImport hplace decl
  | .exportDecl decl =>
      unfold declareOwn Binding.DeclaresOwn
      cases hcontainer : place.container with
      | none => exact does_pure () fun m hm ↦ nomatch hm
      | some m =>
          refine (does_declareExport hplace (hplace.container m hcontainer) decl).imp ?_
          rintro _ c _ hc _ ⟨rfl⟩
          exact hc
  | .exportAssignment isEquals entity =>
      unfold declareOwn Binding.DeclaresOwn
      cases hcontainer : place.container with
      | none => exact does_pure () fun m hm ↦ nomatch hm
      | some m =>
          have hm := hplace.container m hcontainer
          cases entity with
          | none => exact does_pure () fun m _ path hpath ↦ nomatch hpath
          | some path =>
              cases isEquals with
              | true =>
                  exact does_step (.exportWhole m path place.scope hplace.scope)
                    fun _ _ _ _ heq ↦ nomatch heq
              | false =>
                  refine (does_exportLink hplace hm "default" (.entity path)).imp ?_
                  rintro _ c _ hc _ ⟨rfl⟩ _ ⟨rfl⟩ _
                  exact hc
  | .moduleDecl .. | .block _ | .other => exact does_pure () trivial

/-! ## Places -/

theorem does_scopeChain (scope : Nat) : Does (scopeChain scope) b [] fun _ _ ↦ True :=
  fun _ ↦ ⟨.refl b, trivial⟩

theorem does_inside {place : Place} {symbol : Nat} (hsymbol : symbol < b.symbols.size)
    (ambient : Bool) :
    Does (inside place symbol ambient) b [] fun inner c ↦
      inner.Within c ∧ ∃ scope, inner = ⟨place.file, scope, some symbol, ambient⟩ := by
  refine (does_scopeChain place.scope).andThen fun outer c hbc _ ↦ ?_
  have hcontainer {d : Binding} (hbd : b.Grows d) (m : Nat) (hm : m ∈ some symbol) :
      m < d.symbols.size := Option.some.inj hm ▸ hsymbol.trans_le hbd.symbols
  refine (does_newScope outer (hcontainer hbc)).andThen fun scope d hcd hscope ↦ ?_
  exact does_pure _ ⟨⟨hscope, hcontainer (hbc.trans hcd)⟩, scope, rfl⟩

theorem does_enterBody (place : Place) :
    Does (enterBody place) b [] fun inner c ↦ inner.Within c ∧ inner.file = place.file := by
  refine (does_scopeChain place.scope).andThen fun outer c _ _ ↦ ?_
  have hcontainer {d : Binding} (m : Nat) (hm : m ∈ none) : m < d.symbols.size := nomatch hm
  exact (does_newScope outer hcontainer).andThen fun scope d _ hscope ↦
    does_pure _ ⟨⟨hscope, hcontainer⟩, rfl⟩

/-- The first of the namespaces is declared in the place. -/
theorem does_enterNamespaces {place : Place} (hplace : place.Within b) (exported : Bool)
    (segments : List String) :
    Does (enterNamespaces place exported segments) b [] fun inner c ↦
      (inner.Within c ∧ inner.file = place.file) ∧
        ∀ first ∈ segments.head?, c.Declares place exported first .namespaceDecl := by
  induction segments generalizing place exported b with
  | nil => exact does_pure place ⟨⟨hplace, rfl⟩, fun first hfirst ↦ nomatch hfirst⟩
  | cons segment rest ih =>
      refine (does_declare hplace exported segment .namespaceDecl).andThen fun id c hbc hid ↦ ?_
      refine (does_inside hid.1 place.ambient).andThen fun inner d hcd hinner ↦ ?_
      obtain ⟨hwithin, scope, rfl⟩ := hinner
      refine (ih hwithin true).imp fun inner e hde hinner ↦ ⟨hinner.1, ?_⟩
      rintro _ ⟨rfl⟩
      exact Binding.stable_declares place exported segment _ c e (hcd.trans hde) hid.2

end Binder

/-- The symbol of a module that a file declares by name. In a module, a name that stands for a
module file of the program means that file. -/
def Binding.declaredModule (b : Binding) (program : Program) (file : Nat) (inModule : Bool)
    (specifier : String) : Option Nat :=
  (if inModule then
    (program.resolvedModule file specifier).bind fun target ↦ b.fileModules.getD target none
  else none) <|> b.ambientModules.lookup specifier

theorem Binding.stable_declaredModule (program : Program) (file : Nat) (inModule : Bool)
    (specifier : String) (id : Nat) :
    Stable fun b ↦ b.declaredModule program file inModule specifier = some id := by
  intro b c hbc hb
  unfold declaredModule at hb ⊢
  rw [hbc.fileModules]
  rw [Option.orElse_eq_some] at hb ⊢
  exact hb.imp_right fun h ↦ ⟨h.1, hbc.ambientModules specifier id h.2⟩

namespace Binder

variable {b : Binding} (program : Program)

theorem does_namedModule (place : Place) (specifier : String) :
    Does (namedModule program place specifier) b [] fun id c ↦
      id < c.symbols.size ∧
        c.declaredModule program place.file place.container.isSome specifier = some id := by
  refine does_of_closed fun hb ↦ ?_
  unfold namedModule
  refine does_get ?_
  extract_lets augmented
  split
  next id hknown =>
      refine does_pure id ⟨?_, hknown⟩
      rcases (Option.orElse_eq_some _ _ _).mp hknown with hfile | ⟨_, hname⟩
      · unfold augmented at hfile
        split at hfile
        next =>
            obtain ⟨file, _, hfile⟩ := Option.bind_eq_some_iff.mp hfile
            exact (hb.fileModules file id hfile).lt
        next => cases hfile
      · exact hb.ambientModules _ (mem_of_lookup hname)
  next hknown =>
      obtain ⟨hfile, hname⟩ :=
        (Option.orElse_eq_none _ _).mp (Option.eq_none_iff_forall_ne_some.mpr hknown)
      have hparent : ∀ m ∈ (none : Option Nat), m < b.symbols.size := fun m hm ↦ nomatch hm
      refine (does_newSymbol specifier hparent).andThen fun id c hbc hid ↦ ?_
      have hnew : c.ambientModules.lookup specifier = none := hid.ambientModules.symm ▸ hname
      refine (does_addModule hid.lt hnew).andThen fun _ d hcd hd ↦ ?_
      refine does_pure id ⟨hid.lt.trans_le hcd.symbols, ?_⟩
      refine (Option.orElse_eq_some _ _ _).mpr (.inr ⟨?_, hd⟩)
      rw [hcd.fileModules, hbc.fileModules]
      exact hfile

/-- A module that is declared by name is entered as that of its symbol; the first name of a
namespace is declared. -/
theorem does_enterModule {place : Place} (hplace : place.Within b) (exported : Bool)
    (name : ModuleName) :
    Does (enterModule program place exported name) b [] fun inner c ↦
      (inner.Within c ∧ inner.file = place.file) ∧
      (∀ specifier, name = .string specifier →
        ∃ m scope, inner = ⟨place.file, scope, some m, true⟩ ∧ c.IsModule m ∧
          c.declaredModule program place.file place.container.isSome specifier = some m) ∧
      ∀ segments, name = .path segments →
        ∀ first ∈ segments.head?, c.Declares place exported first .namespaceDecl := by
  refine does_of_closed fun hb ↦ ?_
  cases name with
  | global =>
      refine does_pure _ ⟨⟨⟨hb.global, fun m hm ↦ nomatch hm⟩, rfl⟩, ?_, ?_⟩
      · exact fun specifier heq ↦ nomatch heq
      · exact fun segments heq ↦ nomatch heq
  | path segments =>
      refine (does_enterNamespaces hplace exported segments).imp fun _ _ _ h ↦ ⟨h.1, ?_, ?_⟩
      · exact fun specifier heq ↦ nomatch heq
      · rintro _ ⟨rfl⟩
        exact h.2
  | string specifier =>
      refine (does_namedModule program place specifier).andThen fun id c hbc hid ↦ ?_
      refine (does_addDeclaration hid.1 (hplace.mono hbc).scope).andThen fun _ d hcd hd ↦ ?_
      refine (does_inside (hid.1.trans_le hcd.symbols) true).imp ?_
      rintro _ e hde ⟨hwithin, scope, rfl⟩
      refine ⟨⟨hwithin, rfl⟩, ?_, fun segments heq ↦ nomatch heq⟩
      rintro _ ⟨rfl⟩
      refine ⟨id, scope, rfl, ⟨_, (hde.symbol id).declarations.subset hd.1, rfl⟩, ?_⟩
      exact Binding.stable_declaredModule _ _ _ _ _ c e (hcd.trans hde) hid.2

end Binder

end PluginSurface
