import Mathlib.Data.List.Nodup
import Mathlib.Data.List.Sigma
import PluginSurface.Proofs.Binding.Actions
import PluginSurface.Proofs.Syntax.Nesting

/-!
# Binding visits every statement

The binder goes through all statements of all files in their order. It notes the scope of each, and
what the statement declares is declared in the end. Main statements:
`Binding.mem_visited_ofProgram`, by which every statement has a scope and nothing else has, and
`Binding.settledFile_ofProgram`, by which the declarations at the top of each file and of each
module in it are found.
-/

namespace PluginSurface

/-- A statement of a file and those inside it, by file and number, in the order of the text. -/
def Statement.keys (file : Nat) (s : Statement) : List (Nat × Nat) :=
  s.subtree.map fun t ↦ (file, t.id)

theorem Statement.keys_eq (file : Nat) (s : Statement) :
    s.keys file = (file, s.id) :: s.children.flatMap (Statement.keys file) := by
  rw [Statement.keys, Statement.subtree_eq, List.map_cons, List.map_flatMap]
  rfl

/-- Whether the names of a statement are exported: if it says so, or with `all` set, unless it is
the default export. -/
def Statement.isExported (s : Statement) (all : Bool) : Bool :=
  !s.modifiers.contains .default && (all || s.modifiers.contains .exported)

namespace Binding

/-- The statement has been bound in the place. -/
structure Bound (b : Binding) (place : Place) (all : Bool) (s : Statement) : Prop where
  noted : ((place.file, s.id), place.scope) ∈ b.statementScopes
  own : b.DeclaresOwn place (s.isExported all) s.decl

/-- The body of a module that is declared by name in the place has been bound inside its symbol. -/
def BoundModule (b : Binding) (program : Program) (place : Place) (specifier : String)
    (body : List Statement) : Prop :=
  ∃ m scope, b.declaredModule program place.file place.container.isSome specifier = some m ∧
    b.IsModule m ∧ ∀ s ∈ body, b.Bound ⟨place.file, scope, some m, true⟩
      (Binder.exportsAll ⟨place.file, scope, some m, true⟩ body) s

/-- The statement has been bound in the place, with the body of the module and the first name of
the namespace that it declares. -/
structure Settled (b : Binding) (program : Program) (place : Place) (all : Bool) (s : Statement) :
    Prop extends b.Bound place all s where
  module : ∀ specifier body, s.decl = .moduleDecl (.string specifier) (some body) →
    b.BoundModule program place specifier body
  namespaces : ∀ segments body, s.decl = .moduleDecl (.path segments) body →
    ∀ first ∈ segments.head?, b.Declares place (s.isExported all) first .namespaceDecl

/-- All statements of a file have been bound, those of a module inside its symbol. -/
def SettledFile (b : Binding) (program : Program) (file : Nat) (u : SourceUnit) : Prop :=
  ∃ place : Place, place.file = file ∧ place.container = b.fileModules.getD file none ∧
    place.ambient = u.isDeclaration ∧ ∀ s ∈ u.tree.statements,
      b.Settled program place (Binder.exportsAll place u.tree.statements) s

theorem stable_bound (place : Place) (all : Bool) (s : Statement) :
    Stable fun b ↦ b.Bound place all s :=
  fun b c hbc hb ↦ ⟨hbc.statementScopes.subset hb.noted,
    stable_declaresOwn _ _ _ b c hbc hb.own⟩

theorem stable_boundModule (program : Program) (place : Place) (specifier : String)
    (body : List Statement) : Stable fun b ↦ b.BoundModule program place specifier body := by
  rintro b c hbc ⟨m, scope, hmodule, hkind, hbody⟩
  exact ⟨m, scope, stable_declaredModule _ _ _ _ _ b c hbc hmodule, hkind.mono hbc,
    fun s hs ↦ stable_bound _ _ _ b c hbc (hbody s hs)⟩

theorem stable_settled (program : Program) (place : Place) (all : Bool) (s : Statement) :
    Stable fun b ↦ b.Settled program place all s :=
  fun b c hbc hb ↦ ⟨stable_bound _ _ _ b c hbc hb.toBound,
    fun specifier body hdecl ↦
      stable_boundModule _ _ _ _ b c hbc (hb.module specifier body hdecl),
    fun segments body hdecl first hfirst ↦
      stable_declares _ _ _ _ b c hbc (hb.namespaces segments body hdecl first hfirst)⟩

theorem stable_settledFile (program : Program) (file : Nat) (u : SourceUnit) :
    Stable fun b ↦ b.SettledFile program file u := by
  rintro b c hbc ⟨place, hfile, hcontainer, hambient, hall⟩
  exact ⟨place, hfile, by rw [hbc.fileModules]; exact hcontainer, hambient,
    fun s hs ↦ stable_settled _ _ _ _ b c hbc (hall s hs)⟩

end Binding

namespace Binder

variable {program : Program} {b : Binding}

/-- Each of the statements is bound with all statements inside it, wherever it stands. -/
abbrev BindsEach (program : Program) (body : List Statement) : Prop :=
  ∀ s ∈ body, ∀ (b : Binding) (place : Place) (all : Bool), place.Within b →
    Does (bindStatement program place all s) b (s.keys place.file) fun _ c ↦
      c.Settled program place all s

theorem bindAll_eq_forM (place : Place) (all : Bool) (body : List Statement) :
    bindAll program place all body = body.forM (bindStatement program place all) := by
  induction body with
  | nil => rfl
  | cons s rest ih =>
      unfold bindAll
      rw [ih]
      rfl

theorem does_bindAll_of {body : List Statement} (hbody : BindsEach program body) {place : Place}
    (hplace : place.Within b) (all : Bool) :
    Does (bindAll program place all body) b (body.flatMap (Statement.keys place.file)) fun _ c ↦
      ∀ s ∈ body, c.Settled program place all s := by
  rw [bindAll_eq_forM]
  exact does_forM (fun s ↦ Binding.stable_settled program place all s) fun s hs c hbc ↦
    hbody s hs c place all (hplace.mono hbc)

theorem does_enterBody_of {body : List Statement} (hbody : BindsEach program body) (place : Place) :
    Does (enterBody place >>= fun inner ↦ bindAll program inner false body) b
      (body.flatMap (Statement.keys place.file)) fun _ _ ↦ True := by
  refine (does_enterBody place).andThen fun inner c _ hinner ↦ ?_
  rw [← hinner.2]
  exact (does_bindAll_of hbody hinner.1 false).imp fun _ _ _ _ ↦ trivial

theorem does_bindBody_of {body : Option (List Statement)} (hbody : BindsEach program (body.getD []))
    (place : Place) :
    Does (bindBody program place body) b ((body.getD []).flatMap (Statement.keys place.file))
      fun _ _ ↦ True := by
  cases body with
  | none => exact does_pure () trivial
  | some body => exact does_enterBody_of hbody place

theorem does_bindModule_of {body : Option (List Statement)}
    (hbody : BindsEach program (body.getD [])) {place : Place} (hplace : place.Within b) :
    Does (bindModule program place body) b ((body.getD []).flatMap (Statement.keys place.file))
      fun _ c ↦ ∀ s ∈ body.getD [],
        c.Settled program place (exportsAll place (body.getD [])) s := by
  cases body with
  | none => exact does_pure () fun s hs ↦ absurd hs List.not_mem_nil
  | some body => exact does_bindAll_of hbody hplace (exportsAll place body)

theorem does_bindMember_of {m : ClassMember} (hbody : BindsEach program m.body) (place : Place) :
    Does (bindMember program place m.kind) b (m.body.flatMap (Statement.keys place.file))
      fun _ _ ↦ True := by
  obtain ⟨modifiers, kind, span⟩ := m
  cases kind with
  | constructor params body | method name optional signature body | getter name type body
  | setter name param body => exact does_bindBody_of hbody place
  | staticBlock body => exact does_enterBody_of hbody place
  | property | index => exact does_pure () trivial

theorem does_bindMembers_of {members : List ClassMember}
    (hbody : BindsEach program (members.flatMap ClassMember.body)) (place : Place) :
    Does (bindMembers program place members) b
      ((members.flatMap ClassMember.body).flatMap (Statement.keys place.file))
        fun _ _ ↦ True := by
  induction members generalizing b with
  | nil => exact does_pure () trivial
  | cons m rest ih =>
      rw [List.flatMap_cons] at hbody
      rw [List.flatMap_cons, List.flatMap_append]
      have hmember := does_bindMember_of (b := b)
        (fun s hs ↦ hbody s (List.mem_append_left _ hs)) place
      have hrest (c : Binding) := ih (b := c) fun s hs ↦ hbody s (List.mem_append_right _ hs)
      obtain ⟨modifiers, kind, span⟩ := m
      exact hmember.bind fun _ c _ _ ↦ hrest c

/-- What is inside a statement is bound; that of a module is found in its symbol. -/
theorem does_bindInside_of {s : Statement} (hbody : BindsEach program s.children) {place : Place}
    (hplace : place.Within b) (ambient exported : Bool) :
    Does (bindInside program place ambient exported s.decl) b
      (s.children.flatMap (Statement.keys place.file)) fun _ c ↦
        (∀ specifier body, s.decl = .moduleDecl (.string specifier) (some body) →
          c.BoundModule program place specifier body) ∧
        ∀ segments body, s.decl = .moduleDecl (.path segments) body →
          ∀ first ∈ segments.head?, c.Declares place exported first .namespaceDecl := by
  obtain ⟨id, modifiers, decl, span⟩ := s
  cases decl with
  | moduleDecl name body =>
      have hplace' : Place.Within { place with ambient := ambient } b :=
        ⟨hplace.scope, hplace.container⟩
      refine (does_enterModule program hplace' exported name).andThen fun inner c _ hinner ↦ ?_
      obtain ⟨⟨hwithin, hfile⟩, hmodule, hnamespace⟩ := hinner
      have hall := does_bindModule_of (b := c) hbody hwithin
      rw [hfile] at hall
      refine hall.imp fun _ d hcd hd ↦ ⟨?_, ?_⟩
      · rintro specifier body ⟨rfl, rfl⟩
        obtain ⟨m, scope, rfl, hkind, hdeclared⟩ := hmodule specifier rfl
        exact ⟨m, scope, Binding.stable_declaredModule _ _ _ _ _ c d hcd hdeclared,
          hkind.mono hcd, fun s hs ↦ (hd s hs).toBound⟩
      · rintro segments _ ⟨rfl, rfl⟩ first hfirst
        exact Binding.stable_declares _ _ _ _ c d hcd (hnamespace segments rfl first hfirst)
  | classDecl c =>
      obtain ⟨_, _, _, _, members⟩ := c
      exact (does_bindMembers_of hbody place).imp fun _ _ _ _ ↦
        ⟨fun _ _ heq ↦ (nomatch heq), fun _ _ heq ↦ nomatch heq⟩
  | function name signature body =>
      exact (does_bindBody_of hbody place).imp fun _ _ _ _ ↦
        ⟨fun _ _ heq ↦ (nomatch heq), fun _ _ heq ↦ nomatch heq⟩
  | block body =>
      exact (does_enterBody_of hbody place).imp fun _ _ _ _ ↦
        ⟨fun _ _ heq ↦ (nomatch heq), fun _ _ heq ↦ nomatch heq⟩
  | _ => exact does_pure () ⟨fun _ _ heq ↦ (nomatch heq), fun _ _ heq ↦ nomatch heq⟩

theorem does_note {place : Place} (hplace : place.Within b) (id : Nat) :
    Does (modify fun b ↦ { b with
      statementScopes := ((place.file, id), place.scope) :: b.statementScopes } : Binder Unit)
      b [(place.file, id)] fun _ c ↦ ((place.file, id), place.scope) ∈ c.statementScopes :=
  fun _ ↦ ⟨.note (.refl b) (place.file, id) hplace.scope, List.mem_cons_self⟩

/-- Binding a statement visits it and all statements inside it. -/
theorem does_bindStatement (s : Statement) {place : Place} (hplace : place.Within b) (all : Bool) :
    Does (bindStatement program place all s) b (s.keys place.file) fun _ c ↦
      c.Settled program place all s := by
  induction s using Statement.children_induction generalizing b place all with
  | h s ih =>
      have hinside {c : Binding} (hbc : b.Grows c) := does_bindInside_of (b := c)
        (fun t ht b place all hplace ↦ ih t ht hplace all) (hplace.mono hbc)
      rw [Statement.keys_eq]
      obtain ⟨id, modifiers, decl, span⟩ := s
      refine (does_note hplace id).bind fun _ c hbc hc ↦ ?_
      refine (does_declareOwn (hplace.mono hbc) _ _ decl).andThen fun _ d hcd hd ↦ ?_
      refine (hinside (hbc.trans hcd) _ _).imp fun _ e hde he ↦ ⟨⟨?_, ?_⟩, he.1, he.2⟩
      · exact (hcd.trans hde).statementScopes.subset hc
      · exact Binding.stable_declaresOwn _ _ _ d e hde hd

theorem does_bindAll (body : List Statement) {place : Place} (hplace : place.Within b)
    (all : Bool) :
    Does (bindAll program place all body) b (body.flatMap (Statement.keys place.file)) fun _ c ↦
      ∀ s ∈ body, c.Settled program place all s :=
  does_bindAll_of (fun s _ _ _ all hplace ↦ does_bindStatement s hplace all) hplace all

/-! ## Programs -/

theorem does_bindFile (unit : SourceUnit) (file : Nat) :
    Does (bindFile program unit file) b
      (unit.tree.statements.flatMap (Statement.keys file)) fun _ c ↦
        c.SettledFile program file unit := by
  refine does_of_closed fun hb ↦ ?_
  have hall {c : Binding} (hbc : b.Grows c) {place : Place} (hplace : place.Within c)
      (hfile : place.file = file) (hcontainer : place.container = b.fileModules.getD file none)
      (hambient : place.ambient = unit.isDeclaration) :
      Does (bindAll program place (exportsAll place unit.tree.statements) unit.tree.statements) c
        (unit.tree.statements.flatMap (Statement.keys file)) fun _ d ↦
          d.SettledFile program file unit := by
    rw [← hfile]
    refine (does_bindAll _ hplace _).imp fun _ d hcd hd ↦ ⟨place, rfl, ?_, hambient, hd⟩
    rw [hcontainer, (hbc.trans hcd).fileModules, hfile]
  unfold bindFile
  extract_lets global rest
  refine does_get ?_
  cases hmodule : b.fileModules.getD file none with
  | none =>
      have hglobal : Does (pure global) b [] fun place _ ↦ place = global := does_pure global rfl
      refine hglobal.andThen ?_
      rintro _ c hbc rfl
      exact hall hbc ⟨hb.global.trans_le hbc.scopes, fun m hm ↦ nomatch hm⟩ rfl
        hmodule.symm rfl
  | some m =>
      refine (does_inside (hb.fileModules file m hmodule).lt unit.isDeclaration).andThen ?_
      rintro _ c hbc ⟨hwithin, scope, rfl⟩
      exact hall hbc hwithin rfl hmodule.symm rfl

theorem does_bindFiles (files : List (SourceUnit × Nat)) :
    Does (files.forM fun (unit, file) ↦ bindFile program unit file) b
      (files.flatMap fun (u, file) ↦ u.tree.statements.flatMap (Statement.keys file)) fun _ c ↦
        ∀ x ∈ files, c.SettledFile program x.2 x.1 :=
  does_forM (fun x ↦ Binding.stable_settledFile program x.2 x.1) fun x _ _ _ ↦
    does_bindFile x.1 x.2

/-- The last thing that is done for a file before its statements are bound: it is noted which symbol
it has, if it is a module. -/
def addFile (module : Option Nat) : Binder Unit :=
  modify fun b ↦ { b with fileModules := b.fileModules.push module }

theorem exists_declareFile_eq (unit : SourceUnit) (file : Nat) :
    ∃ p : Binder (Option Nat), declareFile unit file = p >>= addFile ∧
      ∀ b, Does p b [] fun module c ↦ ∀ id ∈ module, c.IsModule id := by
  unfold declareFile
  cases unit.tree.isModule with
  | false => exact ⟨pure none, rfl, fun b ↦ does_pure none fun id hid ↦ nomatch hid⟩
  | true =>
      refine ⟨do
        let id ← newSymbol unit.path.text none
        addDeclaration id ⟨file, Binding.globalScope, .moduleDecl⟩
        pure (some id), rfl, fun b ↦ does_of_closed fun hb ↦ ?_⟩
      have hparent : ∀ m ∈ (none : Option Nat), m < b.symbols.size := fun m hm ↦ nomatch hm
      refine (does_newSymbol unit.path.text hparent).andThen fun id c hbc hid ↦ ?_
      refine (does_addDeclaration hid.lt (hb.global.trans_le hbc.scopes)).andThen
        fun _ d _ hd ↦ ?_
      refine does_pure (some id) ?_
      rintro _ ⟨rfl⟩
      exact ⟨_, hd.1, rfl⟩

/-- The numbers stay in range when a file gets its symbol, and no statement is visited. -/
theorem closed_declareFile (unit : SourceUnit) (file : Nat) (hb : b.Closed) :
    (declareFile unit file b).2.Closed ∧ (declareFile unit file b).2.visited = b.visited := by
  obtain ⟨p, heq, hp⟩ := exists_declareFile_eq unit file
  obtain ⟨hsteps, hmodule⟩ := hp b hb
  rw [heq]
  exact ⟨(hsteps.closed hb).addFile hmodule, hsteps.visited_eq⟩

theorem named_declareFile (unit : SourceUnit) (file : Nat) (hb : b.Closed) (hn : b.Named) :
    (declareFile unit file b).2.Named := by
  obtain ⟨p, heq, hp⟩ := exists_declareFile_eq unit file
  have hnamed := (hp b hb).1.named hb hn
  rw [heq]
  exact ⟨hnamed.exports, hnamed.names⟩

theorem closed_declareFiles (files : List (SourceUnit × Nat)) (hb : b.Closed) :
    ((files.forM fun (unit, file) ↦ declareFile unit file) b).2.Closed ∧
      ((files.forM fun (unit, file) ↦ declareFile unit file) b).2.visited = b.visited := by
  induction files generalizing b with
  | nil => exact ⟨hb, rfl⟩
  | cons x rest ih =>
      obtain ⟨hfirst, hvisited⟩ := closed_declareFile x.1 x.2 hb
      obtain ⟨hrest, hmore⟩ := ih hfirst
      exact ⟨hrest, hmore.trans hvisited⟩

theorem named_declareFiles (files : List (SourceUnit × Nat)) (hb : b.Closed) (hn : b.Named) :
    ((files.forM fun (unit, file) ↦ declareFile unit file) b).2.Named := by
  induction files generalizing b with
  | nil => exact hn
  | cons x rest ih =>
      exact ih (closed_declareFile x.1 x.2 hb).1 (named_declareFile x.1 x.2 hb hn)

theorem scope_global (id : Nat) :
    (⟨#[], #[⟨[], [], none⟩], #[], [], []⟩ : Binding).scope id = ⟨[], [], none⟩ := by
  cases id with
  | zero => rfl
  | succ n => exact Binding.scope_of_le (Nat.succ_le_succ (Nat.zero_le n))

theorem closed_global : Binding.Closed ⟨#[], #[⟨[], [], none⟩], #[], [], []⟩ := by
  refine ⟨Nat.zero_lt_one, fun id ↦ ?_, fun id ↦ ?_, fun file id hid ↦ ?_,
    fun e he ↦ absurd he List.not_mem_nil, fun e he ↦ absurd he List.not_mem_nil⟩
  · rw [Binding.symbol_of_le (Nat.zero_le id)]
    exact Symbol.within_fresh _ (fun _ h ↦ absurd h List.not_mem_nil) _
  · rw [scope_global]
    exact ⟨fun _ h ↦ absurd h List.not_mem_nil, fun _ h ↦ nomatch h⟩
  · cases hid

theorem named_global : Binding.Named ⟨#[], #[⟨[], [], none⟩], #[], [], []⟩ := by
  refine ⟨fun id e he ↦ ?_, fun id e he ↦ ?_⟩
  · rw [Binding.symbol_of_le (Nat.zero_le id)] at he
    cases he
  · rw [scope_global] at he
    cases he

end Binder

namespace Binding

/-- A bound program is closed, has visited all statements of its files in their order, and has bound
each file. -/
theorem ofProgram_spec (program : Program) : (ofProgram program).Closed ∧
    (ofProgram program).visited = (program.units.toList.zipIdx.flatMap fun (u, file) ↦
      u.tree.statements.flatMap (Statement.keys file)).reverse ∧
    ∀ x ∈ program.units.toList.zipIdx, (ofProgram program).SettledFile program x.2 x.1 := by
  obtain ⟨hclosed, hvisited⟩ :=
    Binder.closed_declareFiles program.units.toList.zipIdx Binder.closed_global
  obtain ⟨hsteps, hfiles⟩ := Binder.does_bindFiles program.units.toList.zipIdx hclosed
  refine ⟨hsteps.closed hclosed, ?_, hfiles⟩
  have hall := hsteps.visited_eq
  rw [hvisited] at hall
  exact hall.trans (List.append_nil _)

theorem closed_ofProgram (program : Program) : (ofProgram program).Closed :=
  (ofProgram_spec program).1

theorem settledFile_ofProgram {program : Program} {file : Nat} {u : SourceUnit}
    (hu : program.units[file]? = some u) : (ofProgram program).SettledFile program file u :=
  (ofProgram_spec program).2.2 (u, file) (List.mem_zipIdx_iff_getElem?.mpr (by simpa using hu))

/-- The scope that is noted for a statement is found again, if no statement is visited twice. -/
theorem lookup_statementScopes {b : Binding} (hb : b.visited.Nodup) {key : Nat × Nat} {scope : Nat}
    (h : (key, scope) ∈ b.statementScopes) : b.statementScopes.lookup key = some scope := by
  obtain ⟨before, after, hsplit⟩ := List.append_of_mem h
  refine List.lookup_eq_some_iff.mpr ⟨before, after, hsplit, fun e he ↦ bne_iff_ne.mpr ?_⟩
  unfold visited at hb
  rw [hsplit, List.map_append, List.map_cons] at hb
  have hdisjoint :=
    (List.nodup_append.mp hb).2.2 e.1 (List.mem_map_of_mem he) key List.mem_cons_self
  exact fun heq ↦ hdisjoint heq.symm

theorem visited_ofProgram (program : Program) :
    (ofProgram program).visited = (program.units.toList.zipIdx.flatMap fun (u, file) ↦
      u.tree.allStatements.map fun s ↦ (file, s.id)).reverse := by
  have hkeys (file : Nat) (f : SourceFile) : f.statements.flatMap (Statement.keys file) =
      f.allStatements.map fun s ↦ (file, s.id) := (List.map_flatMap ..).symm
  rw [(ofProgram_spec program).2.1]
  simp only [hkeys]

/-- Every statement of every file has a scope in a bound program, and nothing else has. -/
theorem mem_visited_ofProgram {program : Program} {file id : Nat} :
    (file, id) ∈ (ofProgram program).visited ↔
      ∃ u, program.units[file]? = some u ∧ ∃ s ∈ u.tree.allStatements, s.id = id := by
  rw [visited_ofProgram]
  simp only [List.mem_reverse, List.mem_flatMap, List.mem_map]
  constructor
  · rintro ⟨⟨u, place⟩, hu, s, hs, heq⟩
    obtain ⟨rfl, rfl⟩ := Prod.mk.inj heq
    exact ⟨u, by simpa using List.mem_zipIdx_iff_getElem?.mp hu, s, hs, rfl⟩
  · rintro ⟨u, hu, s, hs, rfl⟩
    exact ⟨(u, file), List.mem_zipIdx_iff_getElem?.mpr (by simpa using hu), s, hs, rfl⟩

/-- With the statements of every file numbered apart, no statement is visited twice. -/
theorem nodup_visited_ofProgram {program : Program}
    (hids : ∀ u ∈ program.units, (u.tree.allStatements.map Statement.id).Nodup) :
    (ofProgram program).visited.Nodup := by
  rw [visited_ofProgram, List.nodup_reverse, List.nodup_flatMap]
  constructor
  · rintro ⟨u, file⟩ hu
    have hmem : u ∈ program.units := Array.mem_toList_iff.mp (List.fst_mem_of_mem_zipIdx hu)
    refine List.Nodup.of_map Prod.snd ?_
    rw [List.map_map]
    exact hids u hmem
  · have hfiles := List.pairwise_map.mp (List.nodup_zipIdx_map_snd program.units.toList)
    refine hfiles.imp fun hne ↦ ?_
    intro key hkey hkey'
    obtain ⟨s, _, rfl⟩ := List.mem_map.mp hkey
    obtain ⟨t, _, heq⟩ := List.mem_map.mp hkey'
    exact hne (Prod.mk.inj heq).1.symm

end Binding

end PluginSurface
