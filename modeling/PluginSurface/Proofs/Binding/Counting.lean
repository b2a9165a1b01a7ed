import Mathlib.Algebra.GroupWithZero.Nat
import PluginSurface.Proofs.Binding.Mirror

/-!
# Each declaration is stored once

The binder stores an interface or an alias once for each statement that declares it. So declarations
in a binding come from statements, and what one statement declares belongs to one symbol. Main
statements: `Binding.exists_statement_of_mem` and `Binding.eq_of_mem_of_mem`.
-/

namespace PluginSurface

/-- The interface or alias that a statement declares. -/
def Statement.typeKind? (s : Statement) : Option DeclarationKind :=
  match s.decl with
  | .interfaceDecl i => some (.interfaceDecl i)
  | .aliasDecl a => some (.aliasDecl a)
  | _ => none

/-- Whether an interface or an alias is declared. -/
def DeclarationKind.isType : DeclarationKind → Prop
  | .interfaceDecl _ | .aliasDecl _ => True
  | _ => False

/-- A test of declarations, by their file and kind, that only interfaces and aliases pass. -/
structure TypeTest where
  holds : Nat → DeclarationKind → Bool
  isType : ∀ file k, holds file k = true → k.isType

namespace TypeTest

variable (t : TypeTest)

/-- How many of the declarations of a symbol pass. -/
def inSymbol (s : Symbol) : Nat := s.declarations.countP fun d ↦ t.holds d.file d.kind

def inBinding (b : Binding) : Nat := (b.symbols.toList.map t.inSymbol).sum

/-- How many of the statements declare something that passes. -/
def inStatements (file : Nat) (ss : List Statement) : Nat :=
  ss.countP fun s ↦ s.typeKind?.any (t.holds file)

def one (file : Nat) (k : DeclarationKind) : Nat := if t.holds file k then 1 else 0

end TypeTest

namespace Binder

variable {α β : Type} {t : TypeTest} {n m : Nat}

/-- The action adds at most `n` declarations that pass. -/
def Adds (t : TypeTest) (n : Nat) (p : Binder α) : Prop :=
  ∀ b, t.inBinding (p b).2 ≤ t.inBinding b + n

theorem adds_pure (a : α) : Adds t 0 (pure a) := fun _ ↦ le_rfl

theorem Adds.mono {p : Binder α} (hp : Adds t n p) (h : n ≤ m) : Adds t m p :=
  fun b ↦ (hp b).trans (Nat.add_le_add_left h _)

theorem Adds.bind_of {p : Binder α} {q : α → Binder β} {Q : α → Prop} (hp : Adds t n p)
    (hpost : ∀ b, Q (p b).1) (hq : ∀ a, Q a → Adds t m (q a)) :
    Adds t (n + m) (p >>= q) := by
  intro b
  calc t.inBinding ((p >>= q) b).2
      ≤ t.inBinding (p b).2 + m := hq (p b).1 (hpost b) (p b).2
    _ ≤ t.inBinding b + n + m := Nat.add_le_add_right (hp b) m
    _ = t.inBinding b + (n + m) := Nat.add_assoc _ _ _

theorem Adds.bind {p : Binder α} {q : α → Binder β} (hp : Adds t n p)
    (hq : ∀ a, Adds t m (q a)) : Adds t (n + m) (p >>= q) :=
  hp.bind_of (Q := fun _ ↦ True) (fun _ ↦ trivial) fun a _ ↦ hq a

/-- An action that adds nothing comes first. -/
theorem Adds.andThen {p : Binder α} {q : α → Binder β} (hp : Adds t 0 p)
    (hq : ∀ a, Adds t n (q a)) : Adds t n (p >>= q) := (hp.bind hq).mono (Nat.zero_add n).le

/-- An action that adds nothing comes last. -/
theorem Adds.after {p : Binder α} {q : α → Binder β} (hp : Adds t n p)
    (hq : ∀ a, Adds t 0 (q a)) : Adds t n (p >>= q) := hp.bind hq

theorem adds_get {q : Binding → Binder β} (hq : ∀ b, Adds t n (q b)) : Adds t n (get >>= q) :=
  fun b ↦ hq b b

theorem adds_modify {f : Binding → Binding}
    (hf : ∀ b, t.inBinding (f b) ≤ t.inBinding b + n) : Adds t n (modify f : Binder Unit) := hf

theorem Adds.discard {p : Binder α} (hp : Adds t n p) : Adds t n (discard p) :=
  hp.after fun _ ↦ adds_pure ()

theorem adds_forM {xs : List α} {f : α → Binder Unit} {k : α → Nat}
    (hf : ∀ x ∈ xs, Adds t (k x) (f x)) : Adds t (xs.map k).sum (xs.forM f) := by
  induction xs with
  | nil => exact adds_pure ()
  | cons x rest ih =>
      rw [List.map_cons, List.sum_cons]
      exact (hf x List.mem_cons_self).bind fun _ ↦ ih fun y hy ↦
        hf y (List.mem_cons_of_mem _ hy)

theorem adds_forM_zero {xs : List α} {f : α → Binder Unit} (hf : ∀ x, Adds t 0 (f x)) :
    Adds t 0 (xs.forM f) :=
  (adds_forM (k := fun _ ↦ 0) fun x _ ↦ hf x).mono (by simp)

/-! ## Single actions -/

theorem adds_newScope (outer : List Nat) (container : Option Nat) :
    Adds t 0 (newScope outer container) := fun _ ↦ le_rfl

theorem adds_scopeChain (scope : Nat) : Adds t 0 (scopeChain scope) := fun _ ↦ le_rfl

theorem adds_newSymbol (name : String) (parent : Option Nat) :
    Adds t 0 (newSymbol name parent) := by
  have hchain : Adds t 0 (symbolChain parent) := by
    cases parent <;> exact fun _ ↦ le_rfl
  refine hchain.andThen fun outer b ↦ ?_
  change t.inBinding { b with symbols := b.symbols.push (.fresh name outer) } ≤ _
  simp [TypeTest.inBinding, TypeTest.inSymbol, Symbol.fresh]

theorem sum_modify_le {g : α → Nat} {f : α → α} (hf : ∀ a, g (f a) ≤ g a + n)
    (l : List α) (i : Nat) : ((l.modify i f).map g).sum ≤ (l.map g).sum + n := by
  induction l generalizing i with
  | nil => simp
  | cons a rest ih =>
      cases i with
      | zero =>
          have ha := hf a
          simp only [List.modify_zero_cons, List.map_cons, List.sum_cons]
          omega
      | succ i =>
          have hrest := ih i
          simp only [List.modify_succ_cons, List.map_cons, List.sum_cons]
          omega

theorem adds_changeSymbol (id : Nat) {f : Symbol → Symbol}
    (hf : ∀ s, t.inSymbol (f s) ≤ t.inSymbol s + n) : Adds t n (changeSymbol id f) := by
  refine adds_modify fun b ↦ ?_
  simpa [TypeTest.inBinding, Array.toList_modify] using sum_modify_le hf b.symbols.toList id

theorem adds_addDeclaration (id : Nat) (d : Declaration) :
    Adds t (t.one d.file d.kind) (addDeclaration id d) := by
  refine adds_changeSymbol id fun s ↦ ?_
  simp [TypeTest.inSymbol, TypeTest.one, List.countP_append, List.countP_singleton]

theorem adds_addExport (container : Nat) (name : String) (id : Nat) :
    Adds t 0 (addExport container name id) :=
  adds_changeSymbol container fun _ ↦ le_rfl

/-! ## Declarations -/

theorem adds_declare (place : Place) (exported : Bool) (name : String) (kind : DeclarationKind) :
    Adds t (t.one place.file kind) (declare place exported name kind) := by
  have hadd (id : Nat) : Adds t (t.one place.file kind)
      (addDeclaration id ⟨place.file, place.scope, kind⟩) := adds_addDeclaration id _
  refine adds_get fun b ↦ ?_
  dsimp only
  split
  · exact (hadd _).after fun _ ↦ adds_pure _
  · refine (adds_newSymbol name _).andThen fun id ↦ (hadd id).after fun _ ↦ ?_
    split
    · exact (adds_addExport _ name id).andThen fun _ ↦ adds_pure id
    · exact Adds.andThen (fun _ ↦ le_rfl) fun _ ↦ adds_pure id

/-- Nothing but interfaces and aliases is counted. -/
theorem one_eq_zero (file : Nat) {k : DeclarationKind} (h : ¬k.isType) : t.one file k = 0 :=
  if_neg fun hk ↦ h (t.isType file k hk)

theorem adds_declareOther (place : Place) (exported : Bool) (name : String) {k : DeclarationKind}
    (h : ¬k.isType) : Adds t 0 (discard (declare place exported name k)) :=
  ((adds_declare place exported name k).mono (one_eq_zero _ h).le).discard

theorem adds_exportLink (place : Place) (container : Nat) (name : String) (link : Link) :
    Adds t 0 (exportLink place container name link) := by
  refine (adds_newSymbol name _).andThen fun id ↦ Adds.andThen ?_ fun _ ↦ adds_addExport _ _ _
  exact (adds_addDeclaration id _).mono (one_eq_zero place.file (k := .link link) not_false).le

/-- A declaration that has a name is not stored a second time as the default export. -/
theorem adds_declareMain (place : Place) (exported isDefault : Bool) (name : Option Name)
    (kind : DeclarationKind) :
    Adds t (t.one place.file kind) (declareMain place exported isDefault name kind) := by
  have hnamed (id : Nat) :
      Adds t 0 (if isDefault then exportDefault place (some id) kind else pure ()) := by
    unfold exportDefault
    split
    · split
      · exact adds_addExport _ _ _
      · exact adds_pure ()
    · exact adds_pure ()
  have hunnamed : Adds t (t.one place.file kind)
      (if isDefault then exportDefault place none kind else pure ()) := by
    unfold exportDefault
    split
    · split
      · refine (adds_newSymbol _ _).andThen fun id ↦ Adds.after ?_ fun _ ↦ adds_addExport _ _ _
        exact adds_addDeclaration id ⟨place.file, place.scope, kind⟩
      · exact (adds_pure ()).mono (Nat.zero_le _)
    · exact (adds_pure ()).mono (Nat.zero_le _)
  unfold declareMain
  cases name with
  | none => exact hunnamed
  | some n => exact (adds_declare place exported n.text kind).after hnamed

theorem adds_declareImport (place : Place) (decl : ImportDecl) :
    Adds t 0 (declareImport place decl) := by
  unfold declareImport
  extract_lets module add rest after
  have hadd (name : String) (link : Link) : Adds t 0 (add name link) :=
    adds_declareOther place false name not_false
  have hrest : Adds t 0 (rest ()) := adds_forM_zero fun s ↦ hadd s.name _
  have hafter : Adds t 0 (after ()) := by
    unfold after
    split
    · exact (hadd _ _).andThen fun _ ↦ hrest
    · exact hrest
  split
  · exact (hadd _ _).andThen fun _ ↦ hafter
  · exact hafter

theorem adds_declareExport (place : Place) (container : Nat) (decl : ExportDecl) :
    Adds t 0 (declareExport place container decl) := by
  unfold declareExport
  extract_lets module
  split
  · exact adds_changeSymbol container fun _ ↦ le_rfl
  · exact adds_exportLink _ _ _ _
  · exact adds_pure ()
  · exact adds_forM_zero fun s ↦ adds_exportLink _ _ _ _
  · refine adds_forM_zero fun s ↦ adds_get fun b ↦ ?_
    split
    · exact adds_exportLink _ _ _ _
    · exact adds_pure ()

/-- The number of declarations that a statement declares itself and that pass. -/
theorem adds_declareOwn (place : Place) (exported isDefault : Bool) (s : Statement) :
    Adds t (t.inStatements place.file [s]) (declareOwn place exported isDefault s.decl) := by
  obtain ⟨id, modifiers, decl, span⟩ := s
  match decl with
  | .interfaceDecl i =>
      refine (adds_declareMain place exported isDefault (some i.name) (.interfaceDecl i)).mono ?_
      simp [TypeTest.inStatements, TypeTest.one, Statement.typeKind?, List.countP_singleton]
  | .aliasDecl a =>
      refine (adds_declare place exported a.name.text (.aliasDecl a)).discard.mono ?_
      simp [TypeTest.inStatements, TypeTest.one, Statement.typeKind?, List.countP_singleton]
  | .classDecl c =>
      exact (adds_declareMain place exported isDefault c.name (.classDecl c)).mono
        ((one_eq_zero place.file (k := .classDecl c) not_false).le.trans (Nat.zero_le _))
  | .function name signature body =>
      exact (adds_declareMain place exported isDefault name .function).mono
        ((one_eq_zero place.file (k := .function) not_false).le.trans (Nat.zero_le _))
  | .variable keyword declarators =>
      refine (adds_forM_zero fun d ↦ ?_).mono (Nat.zero_le _)
      split
      · exact adds_declareOther place exported _ not_false
      · exact adds_pure ()
  | .enumDecl name members =>
      exact (adds_declareOther place exported name.text (k := .enum) not_false).mono (Nat.zero_le _)
  | .importDecl decl => exact (adds_declareImport place decl).mono (Nat.zero_le _)
  | .importEquals name target =>
      exact (adds_declareOther place exported name (k := .link _) not_false).mono (Nat.zero_le _)
  | .exportDecl decl =>
      refine Adds.mono (n := 0) ?_ (Nat.zero_le _)
      dsimp only [declareOwn]
      split
      · exact adds_declareExport place _ decl
      · exact adds_pure ()
  | .exportAssignment isEquals entity =>
      refine Adds.mono (n := 0) ?_ (Nat.zero_le _)
      dsimp only [declareOwn]
      split
      · split
        · exact adds_changeSymbol _ fun _ ↦ le_rfl
        · exact adds_exportLink _ _ _ _
      · exact adds_pure ()
  | .moduleDecl name body | .block body | .other => exact (adds_pure ()).mono (Nat.zero_le _)

/-! ## Places -/

theorem adds_inside (place : Place) (symbol : Nat) (ambient : Bool) :
    Adds t 0 (inside place symbol ambient) :=
  (adds_scopeChain place.scope).andThen fun outer ↦
    (adds_newScope outer (some symbol)).andThen fun _ ↦ adds_pure _

theorem adds_enterBody (place : Place) : Adds t 0 (enterBody place) :=
  (adds_scopeChain place.scope).andThen fun outer ↦
    (adds_newScope outer none).andThen fun _ ↦ adds_pure _

theorem adds_enterNamespaces (place : Place) (exported : Bool) (segments : List String) :
    Adds t 0 (enterNamespaces place exported segments) := by
  induction segments generalizing place exported with
  | nil => exact adds_pure place
  | cons segment rest ih =>
      have hdeclare : Adds t 0 (declare place exported segment .namespaceDecl) :=
        (adds_declare place exported segment .namespaceDecl).mono
          (one_eq_zero place.file (k := .namespaceDecl) not_false).le
      exact hdeclare.andThen fun id ↦ (adds_inside place id _).andThen fun inner ↦ ih inner true

variable {program : Program}

theorem adds_namedModule (place : Place) (specifier : String) :
    Adds t 0 (namedModule program place specifier) := by
  refine adds_get fun b ↦ ?_
  dsimp only
  split
  · exact adds_pure _
  · exact (adds_newSymbol specifier none).andThen fun id ↦
      Adds.andThen (fun _ ↦ le_rfl) fun _ ↦ adds_pure id

theorem adds_enterModule (place : Place) (exported : Bool) (name : ModuleName) :
    Adds t 0 (enterModule program place exported name) := by
  cases name with
  | global => exact adds_pure _
  | path segments => exact adds_enterNamespaces place exported segments
  | string specifier =>
      refine (adds_namedModule place specifier).andThen fun id ↦
        Adds.andThen ?_ fun _ ↦ adds_inside place id true
      exact (adds_addDeclaration id _).mono
        (one_eq_zero place.file (k := .moduleDecl) not_false).le

/-! ## Statements -/

/-- Binding each of the statements adds at most what it and the statements inside it declare. -/
abbrev AddsEach (t : TypeTest) (program : Program) (body : List Statement) : Prop :=
  ∀ s ∈ body, ∀ (place : Place) (all : Bool),
    Adds t (t.inStatements place.file s.subtree) (bindStatement program place all s)

theorem adds_bindAll_of {body : List Statement} (hbody : AddsEach t program body) (place : Place)
    (all : Bool) :
    Adds t (t.inStatements place.file (body.flatMap Statement.subtree))
      (bindAll program place all body) := by
  rw [bindAll_eq_forM]
  refine (adds_forM fun s hs ↦ hbody s hs place all).mono ?_
  simp [TypeTest.inStatements, List.countP_flatMap, Function.comp_def]

theorem adds_enterBody_of {body : List Statement} (hbody : AddsEach t program body)
    (place : Place) :
    Adds t (t.inStatements place.file (body.flatMap Statement.subtree))
      (enterBody place >>= fun inner ↦ bindAll program inner false body) := by
  refine ((adds_enterBody place).bind_of (Q := fun inner ↦ inner.file = place.file)
    (fun _ ↦ rfl) fun inner hfile ↦ ?_).mono (Nat.zero_add _).le
  rw [← hfile]
  exact adds_bindAll_of hbody inner false

theorem adds_bindBody_of {body : Option (List Statement)}
    (hbody : AddsEach t program (body.getD [])) (place : Place) :
    Adds t (t.inStatements place.file ((body.getD []).flatMap Statement.subtree))
      (bindBody program place body) := by
  cases body with
  | none => exact adds_pure ()
  | some body => exact adds_enterBody_of hbody place

theorem adds_bindModule_of {body : Option (List Statement)}
    (hbody : AddsEach t program (body.getD [])) (place : Place) :
    Adds t (t.inStatements place.file ((body.getD []).flatMap Statement.subtree))
      (bindModule program place body) := by
  cases body with
  | none => exact adds_pure ()
  | some body => exact adds_bindAll_of hbody place _

theorem adds_bindMember_of {m : ClassMember} (hbody : AddsEach t program m.body) (place : Place) :
    Adds t (t.inStatements place.file (m.body.flatMap Statement.subtree))
      (bindMember program place m.kind) := by
  obtain ⟨modifiers, kind, span⟩ := m
  cases kind with
  | constructor params body | method name optional signature body | getter name type body
  | setter name param body => exact adds_bindBody_of hbody place
  | staticBlock body => exact adds_enterBody_of hbody place
  | property | index => exact adds_pure ()

theorem adds_bindMembers_of {members : List ClassMember}
    (hbody : AddsEach t program (members.flatMap ClassMember.body)) (place : Place) :
    Adds t (t.inStatements place.file
        ((members.flatMap ClassMember.body).flatMap Statement.subtree))
      (bindMembers program place members) := by
  induction members with
  | nil => exact adds_pure ()
  | cons m rest ih =>
      rw [List.flatMap_cons] at hbody
      have hmember := adds_bindMember_of (fun s hs ↦ hbody s (List.mem_append_left _ hs)) place
      have hrest := ih fun s hs ↦ hbody s (List.mem_append_right _ hs)
      rw [List.flatMap_cons, List.flatMap_append, TypeTest.inStatements, List.countP_append]
      obtain ⟨modifiers, kind, span⟩ := m
      exact hmember.bind fun _ ↦ hrest

theorem adds_bindInside_of {s : Statement} (hbody : AddsEach t program s.children) (place : Place)
    (ambient exported : Bool) :
    Adds t (t.inStatements place.file (s.children.flatMap Statement.subtree))
      (bindInside program place ambient exported s.decl) := by
  obtain ⟨id, modifiers, decl, span⟩ := s
  cases decl with
  | moduleDecl name body =>
      refine ((adds_enterModule _ exported name).bind_of
        (Q := fun inner ↦ inner.file = place.file) (fun b ↦ file_enterModule _ exported name)
        fun inner hfile ↦ ?_).mono (Nat.zero_add _).le
      rw [← hfile]
      exact adds_bindModule_of hbody inner
  | classDecl c =>
      obtain ⟨_, _, _, _, members⟩ := c
      exact adds_bindMembers_of hbody place
  | function name signature body => exact adds_bindBody_of hbody place
  | block body => exact adds_enterBody_of hbody place
  | _ => exact adds_pure ()

theorem adds_bindStatement (s : Statement) (place : Place) (all : Bool) :
    Adds t (t.inStatements place.file s.subtree) (bindStatement program place all s) := by
  induction s using Statement.children_induction generalizing place all with
  | h s ih =>
      have hinside := adds_bindInside_of (fun s hs place all ↦ ih s hs place all) place
      have hown := adds_declareOwn (t := t) place
      rw [Statement.subtree_eq, ← List.singleton_append, TypeTest.inStatements,
        List.countP_append]
      obtain ⟨id, modifiers, decl, span⟩ := s
      refine Adds.andThen (fun _ ↦ le_rfl) fun _ ↦ ?_
      exact (hown _ _ ⟨id, modifiers, decl, span⟩).bind fun _ ↦ hinside _ _

/-! ## Programs -/

theorem adds_bindFile (u : SourceUnit) (file : Nat) :
    Adds t (t.inStatements file u.tree.allStatements) (bindFile program u file) := by
  have hall (place : Place) (hfile : place.file = file) (all : Bool) :
      Adds t (t.inStatements file u.tree.allStatements)
        (bindAll program place all u.tree.statements) := by
    rw [← hfile]
    exact adds_bindAll_of (fun s _ ↦ adds_bindStatement s) place all
  refine adds_get fun b ↦ ?_
  split
  · refine ((adds_inside _ _ _).bind_of (Q := fun inner ↦ inner.file = file) (fun _ ↦ rfl)
      fun inner hfile ↦ hall inner hfile _).mono (Nat.zero_add _).le
  · exact hall _ rfl _

theorem adds_declareFile (u : SourceUnit) (file : Nat) : Adds t 0 (declareFile u file) := by
  have hadd (module : Option Nat) : Adds t 0
      (modify fun b ↦ { b with fileModules := b.fileModules.push module } : Binder Unit) :=
    fun _ ↦ le_rfl
  unfold declareFile
  split
  · refine (adds_newSymbol _ none).andThen fun id ↦ Adds.andThen ?_ fun _ ↦ hadd (some id)
    exact (adds_addDeclaration id _).mono (one_eq_zero file (k := .moduleDecl) not_false).le
  · exact hadd none

end Binder

namespace Binding

variable {t : TypeTest} {p : Program}

/-- A binding holds no more declarations that pass than the statements of the files declare. -/
theorem inBinding_ofProgram_le (t : TypeTest) (p : Program) :
    t.inBinding (ofProgram p) ≤ (p.units.toList.zipIdx.map fun x ↦
      t.inStatements x.2 x.1.tree.allStatements).sum := by
  have hprogram : Binder.Adds t ((p.units.toList.zipIdx.map fun x ↦
      t.inStatements x.2 x.1.tree.allStatements).sum) (Binder.bindProgram p) := by
    refine (Binder.adds_newScope [] none).andThen fun _ ↦ ?_
    refine (Binder.adds_forM_zero fun x ↦ ?_).andThen fun _ ↦ Binder.adds_forM fun x _ ↦ ?_
    · exact Binder.adds_declareFile x.1 x.2
    · exact Binder.adds_bindFile x.1 x.2
  refine (hprogram ⟨#[], #[], #[], [], []⟩).trans ?_
  simp [TypeTest.inBinding]

theorem getD_add_getD_le_sum (l : List Nat) {i j : Nat} (h : i ≠ j) :
    l.getD i 0 + l.getD j 0 ≤ l.sum := by
  induction l generalizing i j with
  | nil => simp
  | cons a rest ih =>
      match i, j with
      | 0, 0 => exact absurd rfl h
      | 0, j + 1 =>
          have hj : rest.getD j 0 + rest.getD (j + 1) 0 ≤ rest.sum := ih (Nat.succ_ne_self j).symm
          simp only [List.getD_cons_zero, List.getD_cons_succ, List.sum_cons]
          omega
      | i + 1, 0 =>
          have hi : rest.getD i 0 + rest.getD (i + 1) 0 ≤ rest.sum := ih (Nat.succ_ne_self i).symm
          simp only [List.getD_cons_zero, List.getD_cons_succ, List.sum_cons]
          omega
      | i + 1, j + 1 =>
          have hrest := ih (i := i) (j := j) fun heq ↦ h (congrArg Nat.succ heq)
          simp only [List.getD_cons_succ, List.sum_cons]
          omega

theorem inSymbol_eq (t : TypeTest) (b : Binding) (id : Nat) :
    t.inSymbol (b.symbol id) = (b.symbols.toList.map t.inSymbol).getD id 0 := by
  rw [symbol, Array.getD_eq_getD_getElem?, List.getD_eq_getElem?_getD, List.getElem?_map,
    Array.getElem?_toList]
  cases b.symbols[id]? <;> rfl

theorem inSymbol_pos {b : Binding} {id : Nat} {d : Declaration}
    (hd : d ∈ (b.symbol id).declarations) (ht : t.holds d.file d.kind = true) :
    0 < t.inSymbol (b.symbol id) :=
  List.countP_pos_iff.mpr ⟨d, hd, ht⟩

/-- If the statements of the files declare one thing that passes, all that passes belongs to one
symbol. -/
theorem eq_of_mem_of_mem (hone : (p.units.toList.zipIdx.map fun x ↦
      t.inStatements x.2 x.1.tree.allStatements).sum ≤ 1) {id id' : Nat} {d d' : Declaration}
    (hd : d ∈ ((ofProgram p).symbol id).declarations) (ht : t.holds d.file d.kind = true)
    (hd' : d' ∈ ((ofProgram p).symbol id').declarations) (ht' : t.holds d'.file d'.kind = true) :
    id = id' := by
  by_contra hne
  have hboth := getD_add_getD_le_sum ((ofProgram p).symbols.toList.map t.inSymbol) hne
  rw [← inSymbol_eq, ← inSymbol_eq] at hboth
  have hpos := inSymbol_pos hd ht
  have hpos' := inSymbol_pos hd' ht'
  have hall : _ ≤ 1 := (inBinding_ofProgram_le t p).trans hone
  unfold TypeTest.inBinding at hall
  omega

open scoped Classical in
/-- An interface or alias in a binding is declared by a statement of its file. -/
theorem exists_statement_of_mem {id : Nat} {d : Declaration}
    (hd : d ∈ ((ofProgram p).symbol id).declarations) (htype : d.kind.isType) :
    ∃ u, p.units[d.file]? = some u ∧ ∃ s ∈ u.tree.allStatements, s.typeKind? =
      some d.kind := by
  let t : TypeTest := ⟨fun file k ↦ decide (file = d.file ∧ k = d.kind),
    fun file k h ↦ (of_decide_eq_true h).2 ▸ htype⟩
  have hpos := inSymbol_pos (t := t) hd (decide_eq_true ⟨rfl, rfl⟩)
  have hle := (getD_add_getD_le_sum ((ofProgram p).symbols.toList.map t.inSymbol)
    (Nat.succ_ne_self id).symm).trans (inBinding_ofProgram_le t p)
  rw [← inSymbol_eq] at hle
  have hsum : 0 < (p.units.toList.zipIdx.map fun x ↦
      t.inStatements x.2 x.1.tree.allStatements).sum := by omega
  obtain ⟨n, hn, hnpos⟩ := List.sum_pos_iff_exists_pos_nat.mp hsum
  obtain ⟨⟨u, file⟩, hu, rfl⟩ := List.mem_map.mp hn
  obtain ⟨s, hs, hpass⟩ := List.countP_pos_iff.mp hnpos
  obtain ⟨k, hk, hholds⟩ := (Option.any_eq_true _ _).mp hpass
  obtain ⟨rfl, rfl⟩ := of_decide_eq_true hholds
  exact ⟨u, by simpa using List.mem_zipIdx_iff_getElem?.mp hu, s, hs, hk⟩

end Binding

end PluginSurface
