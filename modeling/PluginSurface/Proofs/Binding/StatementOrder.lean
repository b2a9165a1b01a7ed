import Mathlib.Data.List.Perm.Basic
import PluginSurface.Proofs.Binding.DeclarationOrder
import PluginSurface.Proofs.Program.ImportTypes
import PluginSurface.Proofs.Syntax.Edits

/-!
# Statements in another order

The interfaces, type aliases and bodiless classes at the top of a file can stand in any order, if
their names are different and none is the default export: up to the numbers of the symbols the
program is bound alike. Main statement: `Binding.exists_renumbered`.
-/

namespace PluginSurface

/-- Whether the member has no body, so that nothing is declared inside it. -/
def ClassMemberKind.isBodiless : ClassMemberKind → Bool
  | .constructor _ body | .method _ _ _ body | .getter _ _ body | .setter _ _ body => body.isNone
  | .staticBlock _ => false
  | .property .. | .index _ => true

/-- What an interface, a type alias or a bodiless class declares. -/
structure TypeDeclaration where
  exported : Bool
  name : String
  kind : DeclarationKind

/-- The type is not exported from the place under the name of the default export. -/
def TypeDeclaration.Fits (d : TypeDeclaration) (place : Place) (all : Bool) : Prop :=
  (place.slot (all || d.exported) d.name).container.isSome → d.name ≠ "default"

namespace Statement

/-- What the statement declares, if it is an interface, a type alias or a class with a name and no
bodies, and not the default export. -/
def typeDeclaration? (s : Statement) : Option TypeDeclaration :=
  if s.has .default then none
  else match s.decl with
    | .interfaceDecl i => some ⟨s.has .exported, i.name.text, .interfaceDecl i.bare⟩
    | .aliasDecl a => some ⟨s.has .exported, a.name.text, .aliasDecl a.bare⟩
    | .classDecl c =>
      if c.members.all (·.kind.isBodiless) then
        c.name.map fun n ↦ ⟨s.has .exported, n.text, .classDecl c.bare⟩
      else none
    | _ => none

variable {s : Statement} {d : TypeDeclaration}

/-- The declaration that a statement stores, with its places in the text. -/
theorem exists_decl_of_typeDeclaration? (h : s.typeDeclaration? = some d) :
    s.has .default = false ∧ d.exported = s.has .exported ∧
      ((∃ i : InterfaceDecl, s.decl = .interfaceDecl i ∧ d.name = i.name.text ∧
          d.kind = (DeclarationKind.interfaceDecl i).bare) ∨
        (∃ a : AliasDecl, s.decl = .aliasDecl a ∧ d.name = a.name.text ∧
          d.kind = (DeclarationKind.aliasDecl a).bare) ∨
        ∃ c : ClassDecl, ∃ n, s.decl = .classDecl c ∧ c.name = some n ∧ d.name = n.text ∧
          d.kind = (DeclarationKind.classDecl c).bare ∧ ∀ m ∈ c.members,
          m.kind.isBodiless) := by
  unfold typeDeclaration? at h
  split at h
  · cases h
  next hdefault =>
    rw [Bool.not_eq_true] at hdefault
    split at h
    next i hdecl =>
      cases h
      exact ⟨hdefault, rfl, .inl ⟨i, hdecl, rfl, rfl⟩⟩
    next a hdecl =>
      cases h
      exact ⟨hdefault, rfl, .inr (.inl ⟨a, hdecl, rfl, rfl⟩)⟩
    next c hdecl =>
      split at h
      next hmembers =>
        obtain ⟨n, hn, rfl⟩ := Option.map_eq_some_iff.mp h
        exact ⟨hdefault, rfl, .inr
          (.inr ⟨c, n, hdecl, hn, rfl, rfl, List.all_eq_true.mp hmembers⟩)⟩
      next => cases h
    next => cases h

theorem marksModule_of_typeDeclaration? (h : s.typeDeclaration? = some d) :
    s.marksModule = d.exported := by
  obtain ⟨-, hexported, ⟨_, hdecl, -⟩ | ⟨_, hdecl, -⟩ | ⟨_, _, hdecl, -⟩⟩ :=
    exists_decl_of_typeDeclaration? h
  all_goals rw [marksModule, hdecl, hexported]

end Statement

namespace Binder

variable {program : Program} {b : Binding} {s : Statement} {d : TypeDeclaration}

theorem bindMembers_of_bodiless (place : Place) {members : List ClassMember}
    (h : ∀ m ∈ members, m.kind.isBodiless) (b : Binding) :
    (bindMembers program place members b).2 = b := by
  induction members generalizing b with
  | nil => rfl
  | cons m rest ih =>
      obtain ⟨hm, hrest⟩ := List.forall_mem_cons.mp h
      obtain ⟨modifiers, kind, span⟩ := m
      have hmember : (bindMember program place kind b).2 = b := by
        cases kind with
        | constructor params body | method name optional signature body | getter name type body
        | setter name param body =>
            cases body with
            | none => rfl
            | some body => cases hm
        | staticBlock body => cases hm
        | property | index => rfl
      change (bindMembers program place rest (bindMember program place kind b).2).2 = b
      rw [hmember]
      exact ih hrest b

/-- A statement that declares a type is noted, and its name declared. -/
theorem bindStatement_typeDeclaration (h : s.typeDeclaration? = some d) (place : Place) (all : Bool)
    (b : Binding) :
    ∃ kind : DeclarationKind, kind.bare = d.kind ∧
      (bindStatement program place all s b).2 =
        (declare place (all || d.exported) d.name kind
          { b with statementScopes := ((place.file, s.id), place.scope) ::
            b.statementScopes }).2 := by
  obtain ⟨hdefault, hexported, hdecl⟩ := Statement.exists_decl_of_typeDeclaration? h
  obtain ⟨id, modifiers, decl, span⟩ := s
  let noted : Binding :=
    { b with statementScopes := ((place.file, id), place.scope) :: b.statementScopes }
  have hsplit : (bindStatement program place all ⟨id, modifiers, decl, span⟩ b).2 =
      (bindInside program place (place.ambient || modifiers.contains .ambient)
        (all || d.exported) decl (declareOwn place (all || d.exported) false decl noted).2).2 := by
    change modifiers.contains .default = false at hdefault
    change (bindInside program place (place.ambient || modifiers.contains .ambient)
      (!modifiers.contains .default && (all || modifiers.contains .exported)) decl
      (declareOwn place (!modifiers.contains .default && (all || modifiers.contains .exported))
        (modifiers.contains .default) decl noted).2).2 = _
    rw [hdefault, hexported]
    rfl
  rw [hsplit]
  rcases hdecl with ⟨i, rfl, hname, hkind⟩ | ⟨a, rfl, hname, hkind⟩ |
    ⟨⟨_, typeParams, base, interfaces, members⟩, n, rfl, rfl, hname, hkind, hmembers⟩
  · rw [hname]
    exact ⟨_, hkind.symm, rfl⟩
  · rw [hname]
    exact ⟨_, hkind.symm, rfl⟩
  · rw [hname]
    exact ⟨_, hkind.symm, bindMembers_of_bodiless place hmembers _⟩

/-- Types that are exported already, unless the file says what it exports. -/
theorem exportsAll_types {ss : List Statement} {ds : List TypeDeclaration}
    (h : List.Forall₂ (fun s d ↦ s.typeDeclaration? = some d) ss ds) (place : Place) :
    exportsAll place ss = (place.ambient && place.container.isSome) := by
  unfold exportsAll
  rw [Bool.and_eq_left_iff_imp]
  intro _
  rw [Bool.not_eq_true', List.any_eq_false]
  induction h with
  | nil => exact fun s hs ↦ absurd hs List.not_mem_nil
  | cons hd _ ih =>
      refine List.forall_mem_cons.mpr ⟨?_, ih⟩
      obtain ⟨-, -, ⟨_, hdecl, -⟩ | ⟨_, hdecl, -⟩ | ⟨_, _, hdecl, -⟩⟩ :=
        Statement.exists_decl_of_typeDeclaration? hd
      all_goals
        rw [hdecl]
        exact Bool.false_ne_true

end Binder

namespace Binding

variable {file home : Nat} {place : Place} {b b' : Binding} {σ : Equiv.Perm Nat}

/-- The binding in which the types are declared one after the other. -/
def withTypes (b : Binding) (place : Place) (all : Bool) (ds : List TypeDeclaration) : Binding :=
  ds.foldl (fun b d ↦ b.declared (place.slot (all || d.exported) d.name)
    ⟨place.file, place.scope, d.kind⟩) b

/-- Names can be declared in the place. -/
structure Ready (file home : Nat) (place : Place) (b : Binding) : Prop where
  closed : b.Closed
  named : b.Named
  keeps : b.Keeps file home
  place : place.Within b

theorem statementScopes_declared (b : Binding) (x : NameSlot) (d : Declaration) :
    (b.declared x d).statementScopes = b.statementScopes := by
  unfold declared ensured
  cases b.found x with
  | some id => rfl
  | none =>
      dsimp only
      unfold enter
      cases x.container <;> rfl

theorem Ready.declared (h : b.Ready file home place) (exported : Bool) (name : String)
    (kind : DeclarationKind) :
    (b.declared (place.slot exported name) ⟨place.file, place.scope, kind⟩).Ready file
      home place ∧
      b.Grows (b.declared (place.slot exported name) ⟨place.file, place.scope, kind⟩) := by
  have hsteps := (Binder.does_declare h.place exported name kind h.closed).1
  rw [Binder.declare_eq] at hsteps
  refine ⟨⟨hsteps.closed h.closed, hsteps.named h.closed h.named, ?_,
    h.place.mono hsteps.grows⟩, hsteps.grows⟩
  unfold Keeps
  rw [statementScopes_declared]
  exact h.keeps

theorem Renumbered.declared (h : Renumbered file home σ b b')
    (hplace : place.renumber σ = place) (exported : Bool) (name : String)
    {kind kind' : DeclarationKind} (hkind : kind'.bare = kind.bare) :
    Renumbered file home σ (b.declared (place.slot exported name)
      ⟨place.file, place.scope, kind⟩)
      (b'.declared (place.slot exported name) ⟨place.file, place.scope, kind'⟩) := by
  have hboth := (Binder.renumbers_declare place exported name hkind h).2
  rwa [hplace, Binder.declare_eq, Binder.declare_eq] at hboth

theorem Renumbered.withTypes (h : Renumbered file home σ b b') (hplace : place.renumber σ = place)
    (all : Bool) (ds : List TypeDeclaration) :
    Renumbered file home σ (b.withTypes place all ds) (b'.withTypes place all ds) := by
  unfold Binding.withTypes
  induction ds generalizing b b' with
  | nil => exact h
  | cons d rest ih => exact ih (h.declared hplace (all || d.exported) d.name rfl)

theorem exists_withTypes_perm {all : Bool} {ds ds' : List TypeDeclaration} (hperm : ds.Perm ds')
    (hb : b.Ready file home place) (hfits : ∀ d ∈ ds, d.Fits place all)
    (hnames : ds.Pairwise fun d e ↦ d.name ≠ e.name) :
    ∃ σ, Renumbered file home σ (b.withTypes place all ds) (b.withTypes place all ds') := by
  induction hperm generalizing b with
  | nil => exact ⟨_, renumbered_refl hb.keeps⟩
  | cons d _ ih =>
      exact ih (hb.declared _ _ _).1 (List.forall_mem_cons.mp hfits).2
        (List.pairwise_cons.mp hnames).2
  | swap d e rest =>
      obtain ⟨he, hd, -⟩ := List.forall_mem_cons.mp hfits |>.imp_right List.forall_mem_cons.mp
      obtain ⟨hne, -⟩ := List.pairwise_cons.mp hnames
      have hslot (d : TypeDeclaration) (hd : d.Fits place all) :
          (place.slot (all || d.exported) d.name).Fits b := by
        refine ⟨fun m hm ↦ hb.place.container m ?_, hd⟩
        unfold Place.slot at hm
        split at hm
        · exact hm
        · cases hm
      obtain ⟨τ, hfixed, hboth⟩ :=
        exists_declared_swap hb.closed hb.named hb.keeps (hslot e he)
        (hslot d hd) (hne d List.mem_cons_self) ⟨place.file, place.scope, e.kind⟩
        ⟨place.file, place.scope, d.kind⟩
      have hplace := place.renumber_eq_self fun m hm ↦ hfixed m (hb.place.container m hm)
      exact ⟨τ, hboth.withTypes hplace all rest⟩
  | trans hfirst _ ih ih' =>
      obtain ⟨σ, hσ⟩ := ih hb hfits hnames
      obtain ⟨τ, hτ⟩ := ih' hb (fun d hd ↦ hfits d (hfirst.mem_iff.mpr hd))
        (hfirst.pairwise hnames fun h ↦ h.symm)
      exact ⟨_, hσ.trans hτ⟩

/-- Binding the statements declares their types. -/
theorem renumbered_bindAll {program : Program} {ss : List Statement} {ds : List TypeDeclaration}
    (hss : List.Forall₂ (fun s d ↦ s.typeDeclaration? = some d) ss ds)
    (h : Renumbered place.file place.scope (Equiv.refl Nat) b b') (all : Bool) :
    Renumbered place.file place.scope (Equiv.refl Nat) (Binder.bindAll program place all ss b).2
      (b'.withTypes place all ds) := by
  induction hss generalizing b b' with
  | nil => exact h
  | @cons s d rest _ hs _ ih =>
      obtain ⟨kind, hkind, heq⟩ :=
        @Binder.bindStatement_typeDeclaration program _ _ hs place all b
      have hplace := place.renumber_eq_self (σ := Equiv.refl Nat) fun _ _ ↦ rfl
      have hd : d.kind.bare = kind.bare := by rw [← hkind, DeclarationKind.bare_bare]
      have hdeclared := (h.noteFirst s.id).declared hplace (all || d.exported) d.name hd
      rw [← Binder.declare_eq, ← heq] at hdeclared
      exact ih hdeclared

/-- The statements of a file can be bound in another order. -/
theorem exists_renumbered_bindAll {program program' : Program} {ss ss' : List Statement}
    {ds ds' : List TypeDeclaration} {all : Bool}
    (hss : List.Forall₂ (fun s d ↦ s.typeDeclaration? = some d) ss ds)
    (hss' : List.Forall₂ (fun s d ↦ s.typeDeclaration? = some d) ss' ds')
    (hperm : ds.Perm ds') (hfits : ∀ d ∈ ds, d.Fits place all)
    (hnames : ds.Pairwise fun d e ↦ d.name ≠ e.name)
    (hb : b.Ready place.file place.scope place)
    (h : Renumbered place.file place.scope (Equiv.refl Nat) b b') :
    ∃ σ, Renumbered place.file place.scope σ (Binder.bindAll program place all ss b).2
      (Binder.bindAll program' place all ss' b').2 := by
  obtain ⟨σ, hσ⟩ := exists_withTypes_perm hperm hb hfits hnames
  have hfirst := @renumbered_bindAll place _ _ program _ _ hss (renumbered_refl hb.keeps) all
  have hsecond := @renumbered_bindAll place _ _ program' _ _ hss' h.symm all
  exact ⟨_, (hfirst.trans hσ).trans hsecond.symm⟩

end Binding

/-! ## Programs -/

/-- The second unit is the first one with its statements in another order. They are interfaces, type
aliases and bodiless classes with different names, and none is a default export. -/
structure SourceUnit.Reorders (u u' : SourceUnit) : Prop where
  path : u'.path = u.path
  resolved : ∀ specifier,
    u'.resolved.find? (·.1 == specifier) = u.resolved.find? (·.1 == specifier)
  statements : ∃ ds ds' : List TypeDeclaration,
    List.Forall₂ (fun s d ↦ s.typeDeclaration? = some d) u.tree.statements ds ∧
    List.Forall₂ (fun s d ↦ s.typeDeclaration? = some d) u'.tree.statements ds' ∧
    ds.Perm ds' ∧ (ds.map TypeDeclaration.name).Nodup ∧
    ∀ d ∈ ds, u.tree.isModule = true → (u.isDeclaration || d.exported) = true →
      d.name ≠ "default"

/-- The second program is the first one with the statements of one file in another order. -/
structure Program.Reorders (file : Nat) (p p' : Program) : Prop where
  options : p'.options = p.options
  units : ∃ before u u' after, before.length = file ∧ p.units.toList = before ++ u :: after ∧
    p'.units.toList = before ++ u' :: after ∧ u.Reorders u'

namespace SourceUnit.Reorders

variable {u u' : SourceUnit} (h : u.Reorders u')

include h

theorem isDeclaration : u'.isDeclaration = u.isDeclaration := by
  rw [SourceUnit.isDeclaration, h.path]
  rfl

theorem isModule : u'.tree.isModule = u.tree.isModule := by
  obtain ⟨ds, ds', hss, hss', hperm, -⟩ := h.statements
  have hexported {ss : List Statement} {ds : List TypeDeclaration}
      (hss : List.Forall₂ (fun s d ↦ s.typeDeclaration? = some d) ss ds) :
      ss.any Statement.marksModule = ds.any TypeDeclaration.exported := by
    induction hss with
    | nil => rfl
    | cons hd _ ih =>
        rw [List.any_cons, List.any_cons, Statement.marksModule_of_typeDeclaration? hd, ih]
  rw [SourceFile.isModule, SourceFile.isModule, hexported hss, hexported hss']
  exact hperm.symm.any_eq

end SourceUnit.Reorders

/-- Every specifier in every file stands for the same file. -/
theorem Program.Reorders.resolvedModule {file : Nat} {p p' : Program} (h : p.Reorders file p')
    (other : Nat) (specifier : String) :
    p'.resolvedModule other specifier = p.resolvedModule other specifier := by
  obtain ⟨before, u, u', after, -, hunits, hunits', hu⟩ := h.units
  have hunitAt (path : Path) : p'.unitAt? path = p.unitAt? path := by
    have hpaths : p'.units.map SourceUnit.path = p.units.map SourceUnit.path := by
      rw [← Array.toList_inj, Array.toList_map, Array.toList_map, hunits, hunits',
        List.map_append, List.map_append, List.map_cons, List.map_cons, hu.path]
    rw [unitAt?_eq, unitAt?_eq, hpaths]
  have hfound : (p'.units[other]?.bind fun v ↦ v.resolved.find? (·.1 == specifier)) =
      p.units[other]?.bind fun v ↦ v.resolved.find? (·.1 == specifier) := by
    rw [← Array.getElem?_toList, ← Array.getElem?_toList, hunits, hunits', List.getElem?_append,
      List.getElem?_append]
    split
    · rfl
    · cases other - before.length with
      | zero => exact hu.resolved specifier
      | succ n => rfl
  unfold Program.resolvedModule
  simp only [Option.bind_eq_bind, ← Option.bind_assoc, hfound, hunitAt]

namespace Binding

variable {b b' : Binding} {program program' : Program}

theorem exists_renumbered_bindFile {u u' : SourceUnit} {file : Nat} (hu : u.Reorders u')
    (hclosed : b.Closed) (hnamed : b.Named)
    (hmodule : (b.fileModules.getD file none).isSome = u.tree.isModule)
    (h : ∀ home, Renumbered file home (Equiv.refl Nat) b b') :
    ∃ home σ, Renumbered file home σ (Binder.bindFile program u file b).2
      (Binder.bindFile program' u' file b').2 := by
  obtain ⟨ds, ds', hss, hss', hperm, hnodup, hdefault⟩ := hu.statements
  have hall (place : Place) (hfile : place.file = file)
      (hcontainer : place.container = b.fileModules.getD file none)
      (hambient : place.ambient = u.isDeclaration) {c c' : Binding} (hclosed : c.Closed)
      (hnamed : c.Named) (hplace : place.Within c)
      (h : Renumbered file place.scope (Equiv.refl Nat) c c') :
      ∃ home σ, Renumbered file home σ
        (Binder.bindAll program place (Binder.exportsAll place u.tree.statements)
          u.tree.statements c).2
        (Binder.bindAll program' place (Binder.exportsAll place u'.tree.statements)
          u'.tree.statements c').2 := by
    subst hfile
    refine ⟨place.scope, ?_⟩
    rw [Binder.exportsAll_types hss, Binder.exportsAll_types hss']
    refine exists_renumbered_bindAll hss hss' hperm (fun d hd hsome ↦ ?_)
      (List.pairwise_map.mp hnodup) ⟨hclosed, hnamed, h.keeps, hplace⟩ h
    rw [← hcontainer] at hmodule
    unfold Place.slot at hsome
    split at hsome
    next hexported =>
      rw [hsome, hambient, Bool.and_true] at hexported
      exact hdefault d hd (hmodule.symm.trans hsome) hexported
    next => cases hsome
  unfold Binder.bindFile
  simp only [Binder.get_bind, hu.isDeclaration]
  have hsame := (h 0).fileModules file
  cases hmodule' : b.fileModules.getD file none with
  | none =>
      rw [hmodule'] at hsame
      rw [hsame]
      exact hall ⟨file, globalScope, none, u.isDeclaration⟩ rfl hmodule'.symm rfl hclosed hnamed
        ⟨hclosed.global, fun m hm ↦ nomatch hm⟩ (h _)
  | some m =>
      rw [hmodule'] at hsame
      rw [hsame]
      let global : Place := ⟨file, globalScope, none, u.isDeclaration⟩
      have hm := (hclosed.fileModules file m hmodule').lt
      obtain ⟨hsteps, hwithin, -⟩ :=
        @Binder.does_inside _ global m hm u.isDeclaration hclosed
      obtain ⟨hplace, hinside⟩ :=
        Binder.renumbers_inside global m u.isDeclaration (h b.scopes.size)
      have hsame : (Binder.inside global m u.isDeclaration b').1 =
          (Binder.inside global m u.isDeclaration b).1 := hplace
      obtain ⟨home, σ, hσ⟩ :=
        hall (Binder.inside global m u.isDeclaration b).1 rfl hmodule'.symm rfl
        (hsteps.closed hclosed) (hsteps.named hclosed hnamed) hwithin hinside
      refine ⟨home, σ, ?_⟩
      change Renumbered file home σ _ (Binder.bindAll program'
        (Binder.inside global m u.isDeclaration b').1
        (Binder.exportsAll (Binder.inside global m u.isDeclaration b').1 u'.tree.statements)
        u'.tree.statements (Binder.inside global m u.isDeclaration b').2).2
      rw [hsame]
      exact hσ

theorem forM_append {α : Type} (xs ys : List α) (f : α → Binder Unit) (b : Binding) :
    ((xs ++ ys).forM f b).2 = (ys.forM f (xs.forM f b).2).2 := by
  induction xs generalizing b with
  | nil => rfl
  | cons x rest ih => exact ih (f x b).2

/-- Something is done for each file: for those before one, for this one, and for those after it. -/
theorem forM_files {p : Program} {before after : List SourceUnit} {u : SourceUnit}
    (h : p.units.toList = before ++ u :: after) (f : SourceUnit → Nat → Binder Unit)
    (b : Binding) : (p.units.toList.zipIdx.forM (fun (u, file) ↦ f u file) b).2 =
      ((after.zipIdx (before.length + 1)).forM (fun (u, file) ↦ f u file)
        (f u before.length (before.zipIdx.forM (fun (u, file) ↦ f u file) b).2).2).2 := by
  have hfiles : p.units.toList.zipIdx =
      before.zipIdx ++ (u, before.length) :: after.zipIdx (before.length + 1) := by
    rw [h, List.zipIdx_append, List.zipIdx_cons]
    simp
  rw [hfiles, forM_append]
  rfl

/-- In a program in which the statements of one file are in another order, the symbols have other
numbers, and everything else is the same. -/
theorem exists_renumbered {p p' : Program} {file : Nat} (h : p.Reorders file p') :
    ∃ home σ, Renumbered file home σ (ofProgram p) (ofProgram p') := by
  obtain ⟨before, u, u', after, rfl, hunits, hunits', hu⟩ := h.units
  let declared (p : Program) : Binding :=
    ((p.units.toList.zipIdx.forM fun (u, file) ↦ Binder.declareFile u file : Binder Unit)
      ⟨#[], #[⟨[], [], none⟩], #[], [], []⟩).2
  have hsame : declared p' = declared p := by
    have hu' : Binder.declareFile u' before.length = Binder.declareFile u before.length := by
      unfold Binder.declareFile
      rw [hu.isModule, hu.path]
    unfold declared
    rw [forM_files hunits Binder.declareFile, forM_files hunits' Binder.declareFile, hu']
  obtain ⟨hclosed, hvisited⟩ : (declared p).Closed ∧ (declared p).visited = [] :=
    Binder.closed_declareFiles p.units.toList.zipIdx Binder.closed_global
  have hnamed : (declared p).Named :=
    Binder.named_declareFiles p.units.toList.zipIdx Binder.closed_global Binder.named_global
  have hkeeps (home : Nat) : (declared p).Keeps before.length home := by
    unfold visited at hvisited
    rw [Keeps, List.map_eq_nil_iff.mp hvisited]
    exact fun e he ↦ absurd he List.not_mem_nil
  -- The files before the one are bound alike, with the same numbers.
  have hothers {home : Nat} {σ : Equiv.Perm Nat} {b b' : Binding}
      (files : List (SourceUnit × Nat)) (hfiles : ∀ x ∈ files, x.2 ≠ before.length) :
      Binder.Renumbers before.length home σ id b b'
        (files.forM fun (u, file) ↦ Binder.bindFile p u file)
        (files.forM fun (u, file) ↦ Binder.bindFile p' u file) :=
    Binder.renumbers_forM fun x hx _ _ ↦
      Binder.renumbers_bindFile h.resolvedModule x.1 (hfiles x hx)
  have hbefore (home : Nat) := (hothers before.zipIdx (fun x hx ↦
    (List.snd_lt_of_mem_zipIdx hx).ne) (renumbered_refl (hkeeps home))).2
  obtain ⟨hsteps, -⟩ := @Binder.does_bindFiles p _ before.zipIdx hclosed
  have hmodules : ((before.zipIdx.forM (fun (u, file) ↦ Binder.bindFile p u file)
      (declared p)).2.fileModules.getD before.length none).isSome = u.tree.isModule := by
    obtain ⟨hall, -⟩ := @Binder.does_bindFiles p _ p.units.toList.zipIdx hclosed
    have hget : p.units[before.length]? = some u := by
      rw [← Array.getElem?_toList, hunits]
      simp
    rw [← isSome_fileModules hget, hsteps.grows.fileModules]
    exact congrArg (fun modules ↦ (Array.getD modules before.length none).isSome)
      hall.grows.fileModules.symm
  obtain ⟨home, σ, hfile⟩ := @exists_renumbered_bindFile _ _ p p' _ _ _ hu
    (hsteps.closed hclosed) (hsteps.named hclosed hnamed) hmodules hbefore
  have hafter := (hothers (after.zipIdx (before.length + 1)) (fun x hx ↦
    (Nat.lt_of_succ_le (List.le_snd_of_mem_zipIdx hx)).ne') hfile).2
  have hbound : ofProgram p = _ := forM_files hunits (Binder.bindFile p) (declared p)
  have hbound' : ofProgram p' = _ := forM_files hunits' (Binder.bindFile p') (declared p')
  rw [hbound, hbound', hsame]
  exact ⟨home, σ, hafter⟩

end Binding

end PluginSurface
