import PluginSurface.Proofs.Binding.Agreement
import PluginSurface.Proofs.Binding.DeclarationOrder
import PluginSurface.Proofs.Binding.Visits
import PluginSurface.Proofs.Syntax.Bodies
import PluginSurface.Proofs.Typing.MemberParts

/-!
# Interfaces in two parts

An interface can be declared in two parts that follow each other, of which the second has the last
members. The second part finds the symbol of the first one, so that the program is bound as with the
whole interface: only the list of declarations of that symbol has two declarations for one. Main
statement: `Binding.splits_ofProgram`.
-/

namespace PluginSurface

/-! ## Declarations without bodies -/

def ClassMemberKind.bodiless : ClassMemberKind → ClassMemberKind
  | .constructor params _ => .constructor params none
  | .property name optional type => .property name optional type
  | .method name optional signature _ => .method name optional signature none
  | .getter name type _ => .getter name type none
  | .setter name param _ => .setter name param none
  | .index i => .index i
  | .staticBlock _ => .staticBlock []

def ClassMember.outline (m : ClassMember) : ClassMember := { m.bare with kind := m.kind.bodiless }

def ClassDecl.outline (c : ClassDecl) : ClassDecl :=
  { c with name := c.name.map Name.bare, members := c.members.map ClassMember.outline }

/-- What is declared, without the bodies of class members and without places in the text. -/
def DeclarationKind.outline : DeclarationKind → DeclarationKind
  | .classDecl c => .classDecl c.outline
  | .interfaceDecl i => .interfaceDecl i.bare
  | .aliasDecl a => .aliasDecl a.bare
  | .variable type => .variable type
  | .function => .function
  | .enum => .enum
  | .namespaceDecl => .namespaceDecl
  | .moduleDecl => .moduleDecl
  | .link l => .link l

def Declaration.outline (d : Declaration) : Declaration := { d with kind := d.kind.outline }

/-! ## Interfaces in two parts -/

/-- The interface is the two others one after the other. No member of the second one would change
the type of what the first one declares. -/
structure InterfaceDecl.Splits (i first second : InterfaceDecl) : Prop where
  name : first.name.text = i.name.text
  name' : second.name.text = i.name.text
  typeParams : first.typeParams = i.typeParams
  typeParams' : second.typeParams = i.typeParams
  bases : first.bases = i.bases
  bases' : second.bases = []
  members : i.members = first.members ++ second.members
  apart : ∀ m ∈ second.members, m.changes first.members = false

mutual

/-- The second statements are the first ones with interfaces in two parts, here and inside
the statements. A statement with a number has the given numbers then; places in the text
may be others. -/
inductive Statement.Splits (numbers : Nat → List Nat) : List Statement → List Statement → Prop
  | nil : Statement.Splits numbers [] []
  | keep {s s' : Statement} {rest rest' : List Statement} (hid : numbers s.id = [s'.id])
      (hmodifiers : s'.modifiers = s.modifiers)
      (hdecl : s.decl.Relates (fun k k' ↦ k'.outline = k.outline) s'.decl)
      (hbodies : Statement.SplitsInside numbers s.decl.bodies s'.decl.bodies)
      (hrest : Statement.Splits numbers rest rest') :
      Statement.Splits numbers (s :: rest) (s' :: rest')
  | split {id n n' : Nat} {modifiers : List Modifier} {span span' span'' : Span}
      {i first second : InterfaceDecl} {rest rest' : List Statement} (hid : numbers id = [n, n'])
      (hdecl : i.Splits first second) (hrest : Statement.Splits numbers rest rest') :
      Statement.Splits numbers (⟨id, modifiers, .interfaceDecl i, span⟩ :: rest)
        (⟨n, modifiers, .interfaceDecl first, span'⟩ ::
          ⟨n', modifiers, .interfaceDecl second, span''⟩ :: rest')

/-- The same of bodies, one after the other. -/
inductive Statement.SplitsInside (numbers : Nat → List Nat) :
    List (Option (List Statement)) → List (Option (List Statement)) → Prop
  | nil : Statement.SplitsInside numbers [] []
  | none {rest rest' : List (Option (List Statement))}
      (hrest : Statement.SplitsInside numbers rest rest') :
      Statement.SplitsInside numbers (Option.none :: rest) (Option.none :: rest')
  | some {body body' : List Statement} {rest rest' : List (Option (List Statement))}
      (hbody : Statement.Splits numbers body body')
      (hrest : Statement.SplitsInside numbers rest rest') :
      Statement.SplitsInside numbers (Option.some body :: rest) (Option.some body' :: rest')

end

/-- The second unit is the first one with interfaces in two parts. -/
structure SourceUnit.Splits (numbers : Nat → List Nat) (u u' : SourceUnit) : Prop where
  path : u'.path = u.path
  resolved : u'.resolved = u.resolved
  statements : Statement.Splits numbers u.tree.statements u'.tree.statements

/-- The second program is the first one with interfaces in two parts. -/
structure Program.Splits (numbers : Nat → Nat → List Nat) (p p' : Program) : Prop where
  options : p'.options = p.options
  units : List.Forall₂ (fun x x' ↦ x'.2 = x.2 ∧ x.1.Splits (numbers x.2) x'.1)
    p.units.toList.zipIdx p'.units.toList.zipIdx

namespace Statement.Splits

variable {numbers : Nat → List Nat}

/-- What depends on the modifiers and the kind of a statement alone is true of one of the
statements in both. -/
theorem any_eq {f : Statement → Bool} (hf : ∀ s s' : Statement, s'.modifiers = s.modifiers →
      s.decl.Relates (fun _ _ ↦ True) s'.decl → f s' = f s) {ss ss' : List Statement} :
    Splits numbers ss ss' → ss'.any f = ss.any f
  | .nil => rfl
  | .keep _ hmodifiers hdecl _ hrest => by
      rw [List.any_cons, List.any_cons, hf _ _ hmodifiers (hdecl.imp fun _ _ _ ↦ trivial),
        hrest.any_eq hf]
  | @split _ id n n' modifiers span span' span'' i first second rest rest' _ hdecl hrest => by
      have hfirst := hf ⟨id, modifiers, .interfaceDecl i, span⟩
        ⟨n, modifiers, .interfaceDecl first, span'⟩ rfl (.interfaceDecl hdecl.name trivial)
      have hsecond := hf ⟨id, modifiers, .interfaceDecl i, span⟩
        ⟨n', modifiers, .interfaceDecl second, span''⟩ rfl (.interfaceDecl hdecl.name' trivial)
      rw [List.any_cons, List.any_cons, List.any_cons, hrest.any_eq hf, hfirst, hsecond,
        ← Bool.or_assoc, Bool.or_self]

theorem isModule {u u' : SourceUnit} (h : u.Splits numbers u') :
    u'.tree.isModule = u.tree.isModule := by
  refine h.statements.any_eq fun s s' hmodifiers hdecl ↦ ?_
  obtain ⟨id, modifiers, decl, span⟩ := s
  obtain ⟨id', _, decl', span'⟩ := s'
  obtain rfl : _ = modifiers := hmodifiers
  cases hdecl <;> rfl

theorem exportsAll_eq {ss ss' : List Statement} (h : Splits numbers ss ss') (place : Place) :
    Binder.exportsAll place ss' = Binder.exportsAll place ss := by
  unfold Binder.exportsAll
  rw [h.any_eq fun s s' _ hdecl ↦ ?_]
  obtain ⟨id, modifiers, decl, span⟩ := s
  obtain ⟨id', modifiers', decl', span'⟩ := s'
  cases hdecl <;> rfl

end Statement.Splits

/-! ## Symbols -/

/-- The second declarations are the first ones with interfaces in two parts. -/
inductive Declaration.Splits : List Declaration → List Declaration → Prop
  | nil : Declaration.Splits [] []
  | keep {ds ds' : List Declaration} {d d' : Declaration} (h : Declaration.Splits ds ds')
      (hd : d'.outline = d.outline) : Declaration.Splits (ds ++ [d]) (ds' ++ [d'])
  | split {ds ds' : List Declaration} {i first second : InterfaceDecl}
      (h : Declaration.Splits ds ds') (file scope : Nat) (hi : i.Splits first second) :
      Declaration.Splits (ds ++ [⟨file, scope, .interfaceDecl i⟩])
        (ds' ++ [⟨file, scope, .interfaceDecl first⟩] ++
          [⟨file, scope, .interfaceDecl second⟩])

/-- The second symbol is the first one with interfaces in two parts. -/
structure Symbol.Splits (s s' : Symbol) : Prop where
  name : s'.name = s.name
  outer : s'.outer = s.outer
  declarations : Declaration.Splits s.declarations s'.declarations
  exports : ∀ name, s'.exports.lookup name = s.exports.lookup name
  starExports : s'.starExports = s.starExports
  exportEquals : s'.exportEquals = s.exportEquals

/-- A note of the scope of a statement under its new numbers. -/
def noteAgain (numbers : Nat → Nat → List Nat) (note : (Nat × Nat) × Nat) :
    List ((Nat × Nat) × Nat) :=
  (numbers note.1.1 note.1.2).reverse.map fun n ↦ ((note.1.1, n), note.2)

/-- Two bindings agree up to interfaces in two parts. -/
def splitting (numbers : Nat → Nat → List Nat) : Agreement where
  symbol _ s s' := s.Splits s'
  declaration d d' := d'.outline = d.outline
  notes ns ns' := ns' = ns.flatMap (noteAgain numbers)
  outer h := h.outer
  exports h := h.exports
  fresh _ _ _ := ⟨rfl, rfl, .nil, fun _ ↦ rfl, rfl, rfl⟩
  addDeclaration h hd := { h with declarations := h.declarations.keep hd }
  addExport h name n :=
    { h with exports := fun other ↦ by rw [List.lookup_cons, List.lookup_cons, h.exports] }
  addStar h module := { h with starExports := congrArg (· ++ [module]) h.starExports }
  exportWhole h whole := { h with exportEquals := rfl }
  link _ _ _ := rfl
  namespaceDecl _ _ := rfl
  moduleDecl _ _ := rfl

namespace Binding

variable {A : Agreement} {b b' : Binding}

/-- The binding in which the scope of a statement is noted. -/
def noted (b : Binding) (key : Nat × Nat) (scope : Nat) : Binding :=
  { b with statementScopes := (key, scope) :: b.statementScopes }

namespace Agrees

variable (h : b.Agrees A b')

include h

theorem found (x : NameSlot) : b'.found x = b.found x := by
  unfold Binding.found
  cases x.container with
  | none => rw [h.scope]
  | some m => exact A.exports (h.symbol m) x.name

theorem enclosing (scope : Nat) : b'.enclosing scope = b.enclosing scope := by
  unfold Binding.enclosing
  rw [h.scope]
  cases (b.scope scope).container with
  | none => rfl
  | some m => exact congrArg (m :: ·) (A.outer (h.symbol m))

theorem enter (x : NameSlot) (id : Nat) : (b.enter x id).Agrees A (b'.enter x id) := by
  unfold Binding.enter
  cases x.container with
  | none => exact { h with scopes := by simp only [withScope, h.scopes] }
  | some m => exact h.withSymbol m fun _ _ _ hs ↦ A.addExport hs x.name id

theorem ensured (x : NameSlot) :
    (b'.ensured x).2 = (b.ensured x).2 ∧ (b.ensured x).1.Agrees A (b'.ensured x).1 := by
  unfold Binding.ensured
  rw [h.found]
  cases b.found x with
  | some id => exact ⟨rfl, h⟩
  | none =>
      refine ⟨h.size, ?_⟩
      dsimp only
      rw [h.size, pushed, pushed, h.enclosing]
      exact (h.pushSymbol (A.fresh _ x.name _)).enter x _

end Agrees

/-- A name that has got a symbol stands for it. -/
theorem found_ensured (x : NameSlot) (hcontainer : ∀ m ∈ x.container, m < b.symbols.size)
    (hscope : x.scope < b.scopes.size) : (b.ensured x).1.found x = some (b.ensured x).2 := by
  unfold ensured
  cases hknown : b.found x with
  | some id => exact hknown
  | none =>
      dsimp only
      unfold found
      cases hx : x.container with
      | none =>
          dsimp only
          rw [scope_enter, if_pos ⟨hx, rfl, hscope⟩]
          exact List.lookup_cons_self
      | some m =>
          have hm : m < (b.pushed x).symbols.size := by
            simp only [pushed, Array.size_push]
            exact Nat.lt_succ_of_lt (hcontainer m hx)
          dsimp only
          rw [symbol_enter, if_pos ⟨hx, hm⟩]
          exact List.lookup_cons_self

theorem ensured_of_found {x : NameSlot} {id : Nat} (h : b.found x = some id) :
    b.ensured x = (b, id) := by
  rw [ensured, h]

theorem withSymbol_withSymbol (b : Binding) (id : Nat) (f g : Symbol → Symbol) :
    (b.withSymbol id f).withSymbol id g = b.withSymbol id fun s ↦ g (f s) := by
  have hsymbols : (b.symbols.modify id f).modify id g = b.symbols.modify id fun s ↦ g (f s) := by
    refine Array.ext (by simp) fun n _ _ ↦ ?_
    simp only [Array.getElem_modify]
    split <;> rfl
  exact congrArg (fun symbols ↦ { b with symbols := symbols }) hsymbols

/-- The binding in which the symbol is the default export too, where there is a name for that. -/
def enter? (b : Binding) (y : Option NameSlot) (id : Nat) : Binding := y.elim b (b.enter · id)

variable {numbers : Nat → Nat → List Nat}

/-- The second part of an interface is one more declaration of the symbol. -/
theorem Agrees.addedTo_split (h : b.Agrees (splitting numbers) b') {i first second : InterfaceDecl}
    (hi : i.Splits first second) (id file scope : Nat) :
    (b.addedTo id ⟨file, scope, .interfaceDecl i⟩).Agrees (splitting numbers)
      ((b'.addedTo id ⟨file, scope, .interfaceDecl first⟩).addedTo id
        ⟨file, scope, .interfaceDecl second⟩) := by
  rw [addedTo, addedTo, addedTo, withSymbol_withSymbol]
  exact h.withSymbol id fun _ _ _ (hs : Symbol.Splits _ _) ↦
    { hs with declarations := hs.declarations.split file scope hi }

/-- An export can be entered again. -/
theorem Agrees.enter_again {y : NameSlot} (hy : y.container.isSome) {id : Nat}
    (h : b.Agrees (splitting numbers) (b'.enter y id)) :
    b.Agrees (splitting numbers) ((b'.enter y id).enter y id) := by
  have hscopes : ((b'.enter y id).enter y id).scopes = (b'.enter y id).scopes ∧
      ((b'.enter y id).enter y id).fileModules = (b'.enter y id).fileModules ∧
      ((b'.enter y id).enter y id).ambientModules = (b'.enter y id).ambientModules ∧
      ((b'.enter y id).enter y id).statementScopes = (b'.enter y id).statementScopes := by
    obtain ⟨m, hm⟩ := Option.isSome_iff_exists.mp hy
    unfold Binding.enter
    rw [hm]
    exact ⟨rfl, rfl, rfl, rfl⟩
  refine ⟨by simpa using h.size, fun j ↦ ?_, hscopes.1.trans h.scopes,
    hscopes.2.1.trans h.fileModules, hscopes.2.2.1.trans h.ambientModules,
    hscopes.2.2.2.trans h.notes⟩
  have hj : Symbol.Splits (b.symbol j) ((b'.enter y id).symbol j) := h.symbol j
  change Symbol.Splits _ _
  rw [symbol_enter]
  split
  next hin =>
    rw [size_enter] at hin
    refine { hj with exports := fun name ↦ ?_ }
    have hexports := hj.exports name
    rw [symbol_enter, if_pos hin] at hexports ⊢
    rw [← hexports, List.lookup_cons, List.lookup_cons]
    cases name == y.name <;> rfl
  next => exact hj

/-- A name in a scope stands for what it did when something is exported. -/
theorem found_enter? {x : NameSlot} {y : Option NameSlot}
    (hy : ∀ z ∈ y, z.container.isSome ∧ x.container = none) (b : Binding) (id : Nat) :
    (b.enter? y id).found x = b.found x := by
  cases y with
  | none => rfl
  | some z =>
      obtain ⟨hz, hx⟩ := hy z rfl
      have hscope : (b.enter z id).scope x.scope = b.scope x.scope := by
        rw [scope_enter, if_neg fun hin ↦ by simp [hin.1] at hz]
      unfold Binding.found
      rw [hx]
      exact congrArg (fun s : Scope ↦ s.names.lookup x.name) hscope

/-- Declared in two parts, an interface is declared as a whole. -/
theorem Agrees.declared_split (h : b.Agrees (splitting numbers) b') {i first second : InterfaceDecl}
    (hi : i.Splits first second) {x : NameSlot}
    (hcontainer : ∀ m ∈ x.container, m < b.symbols.size)
    (hscope : x.scope < b.scopes.size) {y : Option NameSlot}
    (hy : ∀ z ∈ y, z.container.isSome ∧ x.container = none) (file scope : Nat) :
    let c := (b'.declared x ⟨file, scope, .interfaceDecl first⟩).enter? y (b'.ensured x).2
    ((b.declared x ⟨file, scope, .interfaceDecl i⟩).enter? y (b.ensured x).2).Agrees
      (splitting numbers)
      ((c.declared x ⟨file, scope, .interfaceDecl second⟩).enter? y (c.ensured x).2) := by
  intro c
  obtain ⟨hid, he⟩ := h.ensured x
  have hfound : c.found x = some (b.ensured x).2 := by
    have hensured := found_ensured (b := b') x (fun m hm ↦ (hcontainer m hm).trans_eq h.size.symm)
      (hscope.trans_eq (congrArg Array.size h.scopes.symm))
    rw [found_enter? hy, Binding.declared, found_addedTo, hensured, hid]
  have hsplit := he.addedTo_split hi (b.ensured x).2 file scope
  rw [Binding.declared, Binding.declared, ensured_of_found hfound]
  unfold c
  rw [Binding.declared, hid]
  cases y with
  | none => exact hsplit
  | some z =>
      change Agrees _ _ (((Binding.enter _ z _).addedTo _ _).enter z _)
      rw [← enter_addedTo]
      exact (hsplit.enter z _).enter_again (hy z rfl).1

theorem ensured_noted (b : Binding) (key : Nat × Nat) (scope : Nat) (x : NameSlot) :
    (b.noted key scope).ensured x = ((b.ensured x).1.noted key scope, (b.ensured x).2) := by
  have hfound : (b.noted key scope).found x = b.found x := rfl
  unfold ensured
  rw [hfound]
  cases b.found x with
  | some id => rfl
  | none =>
      unfold enter
      cases x.container <;> rfl

theorem enter?_noted (b : Binding) (key : Nat × Nat) (scope : Nat) (y : Option NameSlot)
    (id : Nat) : (b.noted key scope).enter? y id = (b.enter? y id).noted key scope := by
  cases y with
  | none => rfl
  | some z =>
      unfold enter? enter
      dsimp only [Option.elim]
      cases z.container <;> rfl

end Binding

namespace Binder

variable {numbers : Nat → Nat → List Nat} {f : Nat → List Nat} {b b' : Binding}
  {program program' : Program}

theorem declare_answer (place : Place) (exported : Bool) (name : String) (kind : DeclarationKind)
    (b : Binding) :
    (declare place exported name kind b).1 = (b.ensured (place.slot exported name)).2 := by
  unfold declare Binding.ensured Place.slot Binding.found
  rw [get_bind]
  cases (if exported then place.container else none) with
  | some m =>
      dsimp only
      cases (b.symbol m).exports.lookup name with
      | some id => rfl
      | none => cases (b.scope place.scope).container <;> rfl
  | none =>
      dsimp only
      cases (b.scope place.scope).names.lookup name with
      | some id => rfl
      | none => cases (b.scope place.scope).container <;> rfl

/-- Where the default export of a place is entered, if what is declared is one. -/
def defaultSlot (place : Place) (isDefault : Bool) : Option NameSlot :=
  if isDefault then place.container.map fun m ↦ ⟨place.scope, some m, "default"⟩ else none

theorem declareMain_eq (place : Place) (exported isDefault : Bool) (name : Name)
    (kind : DeclarationKind) (b : Binding) :
    (declareMain place exported isDefault (some name) kind b).2 =
      (b.declared (place.slot exported name.text) ⟨place.file, place.scope, kind⟩).enter?
        (defaultSlot place isDefault) (b.ensured (place.slot exported name.text)).2 := by
  have hsplit : (declareMain place exported isDefault (some name) kind b).2 =
      ((if isDefault then exportDefault place
        (some (declare place exported name.text kind b).1) kind
        else pure () : Binder Unit) (declare place exported name.text kind b).2).2 := rfl
  rw [hsplit, declare_eq, declare_answer]
  unfold defaultSlot exportDefault
  obtain ⟨file, scope, container, ambient⟩ := place
  cases isDefault with
  | false => rfl
  | true => cases container <;> rfl

/-! ## Statements in two parts -/

/-- Bound in two parts, an interface is bound as a whole. -/
theorem agree_interfaceParts {i first second : InterfaceDecl} (hi : i.Splits first second)
    {id n n' : Nat} {place : Place} (hid : numbers place.file id = [n, n'])
    (hplace : place.Within b) (modifiers : List Modifier) (span span' span'' : Span) (all : Bool) :
    Agree (splitting numbers) b b'
      (bindStatement program place all ⟨id, modifiers, .interfaceDecl i, span⟩)
      (do
        bindStatement program' place all ⟨n, modifiers, .interfaceDecl first, span'⟩
        bindStatement program' place all ⟨n', modifiers, .interfaceDecl second, span''⟩) := by
  intro hb
  refine ⟨Subsingleton.elim _ _, ?_⟩
  let isDefault := modifiers.contains .default
  let exported := !isDefault && (all || modifiers.contains .exported)
  let x := place.slot exported i.name.text
  let y := defaultSlot place isDefault
  have hbind (program : Program) (b : Binding) (n : Nat) (j : InterfaceDecl) (span : Span)
      (hj : j.name.text = i.name.text) :
      (bindStatement program place all ⟨n, modifiers, .interfaceDecl j, span⟩ b).2 =
        ((b.noted (place.file, n) place.scope).declared x
          ⟨place.file, place.scope, .interfaceDecl j⟩).enter? y
            ((b.noted (place.file, n) place.scope).ensured x).2 := by
    have hmain := declareMain_eq place exported isDefault j.name (.interfaceDecl j)
      (b.noted (place.file, n) place.scope)
    rw [hj] at hmain
    rw [bindStatement]
    exact hmain
  have hboth : (b.noted (place.file, id) place.scope).Agrees (splitting numbers)
      ((b'.noted (place.file, n) place.scope).noted (place.file, n') place.scope) := by
    refine { hb with notes := ?_ }
    have hnotes : b'.statementScopes = b.statementScopes.flatMap (noteAgain numbers) := hb.notes
    change _ :: _ :: b'.statementScopes = noteAgain numbers ((place.file, id), place.scope) ++ _
    rw [hnotes, noteAgain, hid]
    rfl
  have hdefault : ∀ z ∈ y, z.container.isSome ∧ x.container = none := by
    intro z hz
    unfold y defaultSlot at hz
    split at hz
    next hisDefault =>
      obtain ⟨m, -, rfl⟩ := Option.map_eq_some_iff.mp hz
      exact ⟨rfl, if_neg (by simp [exported, hisDefault])⟩
    next => cases hz
  have hcontainer :
      ∀ m ∈ x.container, m < (b.noted (place.file, id) place.scope).symbols.size := by
    intro m hm
    refine hplace.container m ?_
    unfold x Place.slot at hm
    split at hm
    · exact hm
    · cases hm
  have hparts := hboth.declared_split hi hcontainer hplace.scope hdefault place.file place.scope
  have hthen (p q : Binder Unit) (b : Binding) : ((do p; q) b).2 = (q (p b).2).2 := rfl
  rw [hthen, hbind program b id i span rfl, hbind program' b' n first span' hi.name,
    hbind program' _ n' second span'' hi.name']
  have hnoted (b : Binding) (key : Nat × Nat) (d : Declaration) :
      (b.noted key place.scope).declared x d = (b.declared x d).noted key place.scope := by
    rw [Binding.declared, Binding.ensured_noted]
    rfl
  rw [Binding.ensured_noted, hnoted, Binding.enter?_noted] at hparts
  exact hparts

theorem Agree.bind_does {α β : Type} {A : Agreement} {p p' : Binder α} {q q' : α → Binder β}
    {keys : List (Nat × Nat)} {Q : α → Binding → Prop} (hp : Agree A b b' p p')
    (hdoes : Does p b keys Q) (hb : b.Closed)
    (hq : ∀ a c c', c.Closed → b.Grows c → Q a c → Agree A c c' (q a) (q' a)) :
    Agree A b b' (p >>= q) (p' >>= q') :=
  hp.bind_of (Q := fun a c ↦ c.Closed ∧ b.Grows c ∧ Q a c)
    ⟨(hdoes hb).1.closed hb, (hdoes hb).1.grows, (hdoes hb).2⟩
    fun a c c' h ↦ hq a c c' h.1 h.2.1 h.2.2

/-- Wherever the second statements are bound instead of the first ones, the bindings agree. -/
structure BindsParts (numbers : Nat → Nat → List Nat) (program program' : Program)
    (f : Nat → List Nat) (body body' : List Statement) : Prop where
  splits : Statement.Splits f body body'
  agree : ∀ (b b' : Binding) (place : Place) (all : Bool), numbers place.file = f → b.Closed →
    place.Within b → Agree (splitting numbers) b b' (bindAll program place all body)
      (bindAll program' place all body')

section

variable {place : Place} (hfile : numbers place.file = f)

include hfile

theorem agree_bindBody {body body' : Option (List Statement)}
    (h : Option.Rel (BindsParts numbers program program' f) body body') (hb : b.Closed) :
    Agree (splitting numbers) b b' (bindBody program place body)
      (bindBody program' place body') := by
  cases h with
  | none => exact agree_pure ()
  | some h =>
      refine (agree_enterBody place).bind_does (does_enterBody place) hb ?_
      rintro inner c c' hc - ⟨hwithin, hinner⟩
      exact h.agree c c' inner false (hinner ▸ hfile) hc hwithin

omit hfile in
theorem bindMember_eq (place : Place) (kind : ClassMemberKind) :
    bindMember program place kind = bindBody program place kind.body? := by
  cases kind <;> rfl

theorem agree_bindMembers {members members' : List ClassMember}
    (h : List.Forall₂ (Option.Rel (BindsParts numbers program program' f))
      (members.map fun m ↦ m.kind.body?) (members'.map fun m ↦ m.kind.body?)) (hb : b.Closed) :
    Agree (splitting numbers) b b' (bindMembers program place members)
      (bindMembers program' place members') := by
  rw [List.forall₂_map_left_iff, List.forall₂_map_right_iff] at h
  induction h generalizing b b' with
  | nil => exact agree_pure ()
  | @cons m m' rest rest' hm _ ih =>
      have hmember : Agree (splitting numbers) b b' _ _ := agree_bindBody hfile hm hb
      rw [← bindMember_eq, ← bindMember_eq] at hmember
      have hdoes : Does (bindMember program place m.kind) b _ fun _ _ ↦ True :=
        does_bindMember_of (fun s _ _ _ all hplace ↦ does_bindStatement s hplace all) place
      obtain ⟨modifiers, kind, span⟩ := m
      obtain ⟨modifiers', kind', span'⟩ := m'
      exact hmember.bind_does hdoes hb fun _ _ _ hc _ _ ↦ ih hc

theorem agree_bindModule {body body' : Option (List Statement)}
    (h : Option.Rel (BindsParts numbers program program' f) body body') (hb : b.Closed)
    (hplace : place.Within b) :
    Agree (splitting numbers) b b' (bindModule program place body)
      (bindModule program' place body') := by
  cases h with
  | none => exact agree_pure ()
  | some h =>
      rw [bindModule, bindModule, h.splits.exportsAll_eq]
      exact h.agree b b' place _ hfile hb hplace

variable (hmodule : ∀ file specifier,
  program'.resolvedModule file specifier = program.resolvedModule file specifier)

include hmodule

theorem agree_bindInside {R : DeclarationKind → DeclarationKind → Prop} {decl decl' : Decl}
    (hdecl : decl.Relates R decl')
    (hbodies : List.Forall₂ (Option.Rel (BindsParts numbers program program' f))
      decl.bodies decl'.bodies) (ambient exported : Bool) (hb : b.Closed)
        (hplace : place.Within b) :
    Agree (splitting numbers) b b' (bindInside program place ambient exported decl)
      (bindInside program' place ambient exported decl') := by
  cases hdecl with
  | @classDecl c c' =>
      obtain ⟨_, _, _, _, members⟩ := c
      obtain ⟨_, _, _, _, members'⟩ := c'
      exact agree_bindMembers hfile hbodies hb
  | function => exact agree_bindBody hfile (List.forall₂_cons.mp hbodies).1 hb
  | block => exact agree_bindBody hfile (List.forall₂_cons.mp hbodies).1 hb
  | moduleDecl name body body' =>
      have hplace' : Place.Within { place with ambient := ambient } b :=
        ⟨hplace.scope, hplace.container⟩
      refine (agree_enterModule hmodule { place with ambient := ambient } exported name).bind_does
        (does_enterModule program hplace' exported name) hb ?_
      rintro inner c c' hc - ⟨⟨hwithin, hinner⟩, -⟩
      exact agree_bindModule ((congrArg numbers hinner).trans hfile)
        (List.forall₂_cons.mp hbodies).1 hc hwithin
  | _ => exact agree_pure ()

theorem agree_bindStatement {s s' : Statement} (hid : numbers place.file s.id = [s'.id])
    (hmodifiers : s'.modifiers = s.modifiers)
    (hdecl : s.decl.Relates (fun k k' ↦ k'.outline = k.outline) s'.decl)
    (hbodies : List.Forall₂ (Option.Rel (BindsParts numbers program program' f))
      s.decl.bodies s'.decl.bodies) (all : Bool) (hb : b.Closed) (hplace : place.Within b) :
    Agree (splitting numbers) b b' (bindStatement program place all s)
      (bindStatement program' place all s') := by
  obtain ⟨id, modifiers, decl, span⟩ := s
  obtain ⟨id', _, decl', span'⟩ := s'
  obtain rfl : _ = modifiers := hmodifiers
  unfold bindStatement
  refine Agree.bind_does (agree_modify fun h ↦ ?_) (does_note hplace id) hb ?_
  · refine { h with notes := ?_ }
    have hnotes : b'.statementScopes = b.statementScopes.flatMap (noteAgain numbers) := h.notes
    change _ :: b'.statementScopes = noteAgain numbers ((place.file, id), place.scope) ++ _
    rw [hnotes, noteAgain, hid]
    rfl
  · intro _ c c' hc hbc _
    refine (agree_declareOwn (fun k k' hk ↦ ?_) hdecl _ _).bind_does
      (does_declareOwn (hplace.mono hbc) _ _ decl) hc fun _ d d' hd hcd _ ↦ ?_
    · exact congrArg (Declaration.mk place.file place.scope) hk
    · exact agree_bindInside hfile hmodule hdecl hbodies _ _ hd (hplace.mono (hbc.trans hcd))

end

mutual

theorem bindsParts_of_splits {body body' : List Statement}
    (hmodule : ∀ file specifier,
      program'.resolvedModule file specifier = program.resolvedModule file specifier) :
    Statement.Splits f body body' → BindsParts numbers program program' f body body'
  | .nil => ⟨.nil, fun _ _ _ _ _ _ _ ↦ agree_pure ()⟩
  | .keep hid hmodifiers hdecl hbodies hrest => by
      have hinside := bindsParts_of_splitsInside hmodule hbodies
      have hparts := bindsParts_of_splits hmodule hrest
      refine ⟨.keep hid hmodifiers hdecl hbodies hrest,
        fun b b' place all hfile hb hplace ↦ ?_⟩
      unfold bindAll
      refine (agree_bindStatement hfile hmodule (hfile ▸ hid) hmodifiers hdecl hinside all hb
        hplace).bind_does (does_bindStatement _ hplace all) hb fun _ c c' hc hbc _ ↦ ?_
      exact hparts.agree c c' place all hfile hc (hplace.mono hbc)
  | .split hid hdecl hrest => by
      have hparts := bindsParts_of_splits hmodule hrest
      refine ⟨.split hid hdecl hrest, fun b b' place all hfile hb hplace ↦ ?_⟩
      rw [bindAll, bindAll, bindAll, ← bind_assoc]
      refine (agree_interfaceParts hdecl (hfile ▸ hid) hplace _ _ _ _ all).bind_does
        (does_bindStatement _ hplace all) hb fun _ c c' hc hbc _ ↦ ?_
      exact hparts.agree c c' place all hfile hc (hplace.mono hbc)

theorem bindsParts_of_splitsInside {bodies bodies' : List (Option (List Statement))}
    (hmodule : ∀ file specifier,
      program'.resolvedModule file specifier = program.resolvedModule file specifier) :
    Statement.SplitsInside f bodies bodies' →
      List.Forall₂ (Option.Rel (BindsParts numbers program program' f)) bodies bodies'
  | .nil => .nil
  | .none hrest => .cons .none (bindsParts_of_splitsInside hmodule hrest)
  | .some hbody hrest =>
      .cons (.some (bindsParts_of_splits hmodule hbody)) (bindsParts_of_splitsInside hmodule hrest)

end

/-! ## Programs -/

theorem agree_declareFile {u u' : SourceUnit} (file : Nat) (hu : u.Splits f u') :
    Agree (splitting numbers) b b' (declareFile u file) (declareFile u' file) := by
  have hadd (module : Option Nat) (c c' : Binding) : Agree (splitting numbers) c c'
      (modify fun b ↦ { b with fileModules := b.fileModules.push module } : Binder Unit)
      (modify fun b ↦ { b with fileModules := b.fileModules.push module }) :=
    agree_modify fun hc ↦ { hc with fileModules := by rw [hc.fileModules] }
  unfold declareFile
  rw [Statement.Splits.isModule hu, hu.path]
  split
  · refine (agree_newSymbol _ none).bind fun id _ _ ↦ ?_
    exact (agree_addDeclaration id ((splitting numbers).moduleDecl _ _)).bind fun _ ↦
      hadd (some id)
  · exact hadd none b b'

theorem agree_bindFile {u u' : SourceUnit} {file : Nat} (hu : u.Splits (numbers file) u')
    (hmodule : ∀ file specifier,
      program'.resolvedModule file specifier = program.resolvedModule file specifier)
    (hb : b.Closed) :
    Agree (splitting numbers) b b' (bindFile program u file) (bindFile program' u' file) := by
  have hdeclaration : u'.isDeclaration = u.isDeclaration := by
    rw [SourceUnit.isDeclaration, hu.path]
    rfl
  have hparts : BindsParts numbers program program' _ _ _ :=
    bindsParts_of_splits hmodule hu.statements
  unfold bindFile
  rw [hdeclaration]
  extract_lets global rest rest'
  have hall (place : Place) (c c' : Binding) (hfile : place.file = file) (hc : c.Closed)
      (hplace : place.Within c) : Agree (splitting numbers) c c' (rest place) (rest' place) := by
    unfold rest rest'
    rw [hparts.splits.exportsAll_eq]
    exact hparts.agree c c' place _ (congrArg numbers hfile) hc hplace
  refine agree_get fun h ↦ ?_
  rw [h.fileModules]
  cases hid : b.fileModules.getD file none with
  | none => exact hall global b b' rfl hb ⟨hb.global, fun m hm ↦ nomatch hm⟩
  | some m =>
      refine (agree_inside global m _).bind_does
        (does_inside (hb.fileModules file m hid).lt u.isDeclaration) hb ?_
      rintro _ c c' hc - ⟨hwithin, scope, rfl⟩
      exact hall _ c c' rfl hc hwithin

theorem agree_files {files files' : List (SourceUnit × Nat)}
    (h : List.Forall₂ (fun x x' ↦ x'.2 = x.2 ∧ x.1.Splits (numbers x.2) x'.1) files files')
    (hmodule : ∀ file specifier,
      program'.resolvedModule file specifier = program.resolvedModule file specifier)
    (hb : b.Closed) :
    Agree (splitting numbers) b b' (files.forM fun (u, file) ↦ bindFile program u file)
      (files'.forM fun (u, file) ↦ bindFile program' u file) := by
  induction h generalizing b b' with
  | nil => exact agree_pure ()
  | @cons x x' rest rest' hx _ ih =>
      obtain ⟨u, file⟩ := x
      obtain ⟨u', file'⟩ := x'
      obtain ⟨rfl, hu⟩ := hx
      exact (agree_bindFile hu hmodule hb).bind_does (does_bindFile u _) hb
        fun _ _ _ hc _ _ ↦ ih hc

end Binder

/-- Every specifier in every file stands for the same file, if the files have the same paths and
resolve the same. -/
theorem Program.resolvedModule_of_units {p p' : Program}
    {R : SourceUnit × Nat → SourceUnit × Nat → Prop}
    (h : List.Forall₂ R p.units.toList.zipIdx p'.units.toList.zipIdx)
    (hR : ∀ x x', R x x' → x'.1.path = x.1.path ∧ x'.1.resolved = x.1.resolved) (file : Nat)
    (specifier : String) : p'.resolvedModule file specifier = p.resolvedModule file specifier := by
  have hunits {α : Type} (g : SourceUnit → α) (hg : ∀ x x', R x x' → g x'.1 = g x.1) :
      p'.units.map g = p.units.map g := by
    have hall :
        (p.units.toList.zipIdx.map fun x ↦ g x.1) =
          p'.units.toList.zipIdx.map fun x ↦ g x.1 := by
      rw [← List.forall₂_eq_eq_eq, List.forall₂_map_left_iff, List.forall₂_map_right_iff]
      exact h.imp fun x x' hx ↦ (hg x x' hx).symm
    rw [← Array.toList_inj, Array.toList_map, Array.toList_map]
    simpa only [← Function.comp_def g Prod.fst, ← List.map_map, List.zipIdx_map_fst]
      using hall.symm
  exact Program.resolvedModule_congr (hunits _ fun x x' hx ↦ (hR x x' hx).1)
    (hunits _ fun x x' hx ↦ (hR x x' hx).2) file specifier

theorem Program.Splits.resolvedModule {numbers : Nat → Nat → List Nat} {p p' : Program}
    (h : p.Splits numbers p') (file : Nat) (specifier : String) :
    p'.resolvedModule file specifier = p.resolvedModule file specifier :=
  Program.resolvedModule_of_units h.units (fun _ _ hu ↦ ⟨hu.2.path, hu.2.resolved⟩)
    file specifier

/-- The bindings of two programs, of which the second one has interfaces in two parts, agree. -/
theorem Binding.splits_ofProgram {numbers : Nat → Nat → List Nat} {p p' : Program}
    (h : p.Splits numbers p') : (ofProgram p).Agrees (splitting numbers) (ofProgram p') := by
  have hglobal : Binding.Agrees (splitting numbers) ⟨#[], #[⟨[], [], none⟩], #[], [], []⟩
      ⟨#[], #[⟨[], [], none⟩], #[], [], []⟩ :=
    ⟨rfl, fun _ ↦ (splitting numbers).fresh _ _ _, rfl, rfl, rfl, rfl⟩
  have hdeclared :=
    Binder.agree_forM (A := splitting numbers) (f := fun x ↦ Binder.declareFile x.1 x.2)
    (g := fun x ↦ Binder.declareFile x.1 x.2) (h.units.imp fun x x' hx _ _ ↦ by
      rw [hx.1]
      exact Binder.agree_declareFile x.2 hx.2) hglobal
  have hclosed := (Binder.closed_declareFiles p.units.toList.zipIdx Binder.closed_global).1
  exact (Binder.agree_files h.units h.resolvedModule hclosed hdeclared.2).2

/-! ## Scopes of statements -/

theorem lookup_noteAgain_self {numbers : Nat → Nat → List Nat} (file id scope n : Nat) :
    (noteAgain numbers ((file, id), scope)).lookup (file, n) =
      if n ∈ numbers file id then some scope else none := by
  have hlookup (ns : List Nat) : (ns.map fun m ↦ ((file, m), scope)).lookup (file, n) =
      if n ∈ ns then some scope else none := by
    induction ns with
    | nil => rfl
    | cons m rest ih =>
        rw [List.map_cons, List.lookup_cons, ih]
        by_cases hm : n = m
        · simp [hm]
        · have hne : ((file, n) == (file, m)) = false :=
            beq_false_of_ne fun heq ↦ hm (Prod.mk.inj heq).2
          simp [hne, hm]
  simpa only [noteAgain, List.mem_reverse] using hlookup (numbers file id).reverse

/-- A statement with a new number has the scope of the statement that it is one of. -/
theorem lookup_noteAgain {numbers : Nat → Nat → List Nat} {file id n : Nat}
    (hn : n ∈ numbers file id) (hnumbers : ∀ id', n ∈ numbers file id' → id' = id)
    (notes : List ((Nat × Nat) × Nat)) :
    (notes.flatMap (noteAgain numbers)).lookup (file, n) = notes.lookup (file, id) := by
  induction notes with
  | nil => rfl
  | cons note rest ih =>
      obtain ⟨⟨f, j⟩, scope⟩ := note
      rw [List.flatMap_cons, List.lookup_append, ih, List.lookup_cons]
      by_cases hf : f = file
      · subst hf
        rw [lookup_noteAgain_self]
        by_cases hj : j = id
        · simp [hj, hn]
        · have hne : ((f, id) == (f, j)) = false :=
            beq_false_of_ne fun heq ↦ hj (Prod.mk.inj heq).2.symm
          rw [if_neg fun hmem ↦ hj (hnumbers j hmem), hne]
          rfl
      · have hne : ((file, id) == (f, j)) = false :=
          beq_false_of_ne fun heq ↦ hf (Prod.mk.inj heq).1.symm
        have hnone : (noteAgain numbers ((f, j), scope)).lookup (file, n) = none := by
          refine List.lookup_eq_none_iff.mpr fun e he ↦ ?_
          obtain ⟨m, -, rfl⟩ := List.mem_map.mp he
          have hne : (file, n) ≠ (f, m) := fun heq ↦ hf (Prod.mk.inj heq).1.symm
          exact bne_iff_ne.mpr hne
        rw [hnone, hne]
        rfl

end PluginSurface
