import Mathlib.Data.List.Chain
import Mathlib.Data.List.Perm.Subperm
import PluginSurface.Binding.Links
import PluginSurface.Proofs.Binding.Visits
import PluginSurface.Typing.Resolve

/-!
# Chains of re-exports

A module asks the next one for the name that it exports again, and so on up to the declaration. A
module that is being asked is not asked a second time, under whatever name. So an import through a
chain of re-exports leads to the declaration exactly if no module occurs twice in the chain. Main
statement: `Checker.entity?_import`.
-/

namespace PluginSurface

/-- A symbol that is a link has no other declaration. -/
def Symbol.LinkedOnce (s : Symbol) : Prop :=
  ∀ d ∈ s.declarations, d.kind.link?.isSome → s.declarations.length = 1

instance (s : Symbol) : Decidable s.LinkedOnce := inferInstanceAs (Decidable (∀ _ ∈ _, _ → _))

theorem Symbol.LinkedOnce.link?_eq {s : Symbol} (h : s.LinkedOnce) {file scope : Nat} {link : Link}
    (hd : ⟨file, scope, .link link⟩ ∈ s.declarations) : s.link? = some (link, scope) := by
  obtain ⟨d, hsingle⟩ := List.length_eq_one_iff.mp (h _ hd rfl)
  rw [hsingle, List.mem_singleton] at hd
  rw [Symbol.link?, hsingle, ← hd]
  rfl

theorem Symbol.link?_eq_none {s : Symbol} {d : Declaration} (hd : d ∈ s.declarations)
    (hkind : d.kind.link? = none) : s.link? = none := by
  refine if_pos (List.any_eq_true.mpr ⟨d, hd, ?_⟩)
  rw [hkind]
  rfl

/-- The statement declares a class, interface or type alias of the name. -/
inductive Statement.DeclaresType (s : Statement) : String → DeclarationKind → Prop
  | classDecl {c : ClassDecl} {name : Name} (hdecl : s.decl = .classDecl c)
      (hname : c.name = some name) : DeclaresType s name.text (.classDecl c)
  | interfaceDecl {i : InterfaceDecl} (hdecl : s.decl = .interfaceDecl i) :
      DeclaresType s i.name.text (.interfaceDecl i)
  | aliasDecl {a : AliasDecl} (hdecl : s.decl = .aliasDecl a) :
      DeclaresType s a.name.text (.aliasDecl a)

theorem Statement.DeclaresType.exports {s : Statement} {name : String} {kind : DeclarationKind}
    (h : s.DeclaresType name kind) {b : Binding} {place : Place} {all : Bool} {m : Nat}
    (hbound : b.Bound place all s) (hexported : s.isExported all = true)
    (hcontainer : place.container = some m) :
    b.Exports m name ⟨place.file, place.scope, kind⟩ ∧ kind.link? = none := by
  have hown := hbound.own
  cases h with
  | classDecl hdecl hname =>
      rw [hdecl] at hown
      exact ⟨(hown _ hname).exports hexported hcontainer, rfl⟩
  | interfaceDecl hdecl =>
      rw [hdecl] at hown
      exact ⟨hown.exports hexported hcontainer, rfl⟩
  | aliasDecl hdecl =>
      rw [hdecl] at hown
      exact ⟨hown.exports hexported hcontainer, rfl⟩

namespace Checker

variable {c : Checker}

/-! ## Answers -/

/-- The symbol is a module with exports of its own. -/
structure Plain (c : Checker) (m : Nat) : Prop where
  link? : (c.binding.symbol m).link? = none
  exportEquals : (c.binding.symbol m).exportEquals = none

theorem plain_of_isModule {m : Nat} (hm : c.binding.IsModule m)
    (hequals : (c.binding.symbol m).exportEquals = none) : c.Plain m := by
  obtain ⟨d, hd, hkind⟩ := hm
  exact ⟨Symbol.link?_eq_none hd (hkind ▸ rfl), hequals⟩

/-- The symbol is a link to the export `p.2` of the module `p.1`. -/
def Leads (c : Checker) (id : Nat) (p : Nat × String) : Prop :=
  ∃ ref scope, (c.binding.symbol id).link? = some (.member ref p.2, scope) ∧
    c.moduleSymbol ref = some p.1

theorem Leads.unique {id : Nat} {p q : Nat × String} (hp : c.Leads id p) (hq : c.Leads id q) :
    p = q := by
  obtain ⟨ref, scope, hlink, hmodule⟩ := hp
  obtain ⟨ref', scope', hlink', hmodule'⟩ := hq
  rw [hlink] at hlink'
  obtain ⟨rfl, hname⟩ := Link.member.inj (Prod.mk.inj (Option.some.inj hlink')).1
  rw [hmodule] at hmodule'
  exact Prod.ext (Option.some.inj hmodule') hname

/-- What a rule asks when it may ask `n` questions one inside the other. -/
def within (c : Checker) : Nat → LinkRule
  | 0 => fun _ _ ↦ none
  | n + 1 => c.linksWithin n

theorem linksWithin_eq (n : Nat) (trail : LinkTrail) (q : LinkQuery) :
    c.linksWithin n trail q = c.linkRule (c.within n) trail q := by
  cases n <;> rfl

theorem targetBy_eq (ask : LinkRule) (trail : LinkTrail) {id : Nat}
    (h : (c.binding.symbol id).link? = none) : c.targetBy ask trail id = some id := by
  rw [targetBy, h]

theorem linksWithin_target (n : Nat) (trail : LinkTrail) {id : Nat}
    (h : (c.binding.symbol id).link? = none) :
    c.linksWithin n trail (.target id) = some id := by
  rw [linksWithin_eq, linkRule, targetBy_eq _ trail h]

/-- A module answers with what its export stands for, unless it is being asked already. -/
theorem linksWithin_member (n : Nat) (trail : LinkTrail) {m id : Nat} {name : String}
    (hm : c.Plain m) (hid : (c.binding.symbol m).exports.lookup name = some id) :
    c.linksWithin n trail (.member m name) =
      if m ∈ trail.askedFor then none
      else c.within n { trail with askedFor := m :: trail.askedFor } (.target id) := by
  rw [linksWithin_eq, linkRule, targetBy_eq _ trail hm.link?]
  change (if m ∈ trail.askedFor then none else c.exportBy _ _ m name) = _
  rw [exportBy, hm.exportEquals, hid]
  rfl

/-- A link that is not being followed leads to the export of the next module. -/
theorem linksWithin_link (n : Nat) (trail : LinkTrail) {id : Nat} {p : Nat × String}
    (hid : c.Leads id p) (hp : c.Plain p.1) (hnew : id ∉ trail.links) :
    c.linksWithin n trail (.target id) =
      (c.within n { trail with links := id :: trail.links } (.member p.1 p.2)).bind fun next ↦
        c.within n { trail with links := id :: trail.links } (.target next) := by
  obtain ⟨ref, scope, hlink, hmodule⟩ := hid
  have hdefault (ask : LinkRule) (t : LinkTrail) :
      (if p.2 == "default" then c.exportEqualsBy ask t p.1 else none) = none := by
    rw [exportEqualsBy, hp.exportEquals]
    split
    · rfl
    · rfl
  rw [linksWithin_eq, linkRule, targetBy, hlink]
  dsimp only
  rw [if_neg hnew, followBy, hmodule, Option.bind_eq_bind, Option.bind_some, hdefault]
  cases c.within n { trail with links := id :: trail.links } (.member p.1 p.2) with
  | none => rfl
  | some next => rfl

/-- One step of a chain: an export is a link to the next one. -/
def Passes (c : Checker) (p q : Nat × String) : Prop :=
  ∃ id, (c.binding.symbol p.1).exports.lookup p.2 = some id ∧ c.Leads id q

/-- No module of the chain is being asked already, and none occurs in it twice. -/
def Unasked (asked : List Nat) (chain : List (Nat × String)) : Prop :=
  (∀ q ∈ chain, q.1 ∉ asked) ∧ (chain.map Prod.fst).Nodup

instance (asked : List Nat) (chain : List (Nat × String)) : Decidable (Unasked asked chain) :=
  inferInstanceAs (Decidable (_ ∧ _))

theorem unasked_cons {asked : List Nat} {p : Nat × String} {rest : List (Nat × String)} :
    Unasked asked (p :: rest) ↔ p.1 ∉ asked ∧ Unasked (p.1 :: asked) rest := by
  unfold Unasked
  rw [List.forall_mem_cons, List.map_cons, List.nodup_cons, List.mem_map]
  constructor
  · rintro ⟨⟨hp, hrest⟩, hnew, hnodup⟩
    refine ⟨hp, fun q hq hasked ↦ ?_, hnodup⟩
    rcases List.mem_cons.mp hasked with heq | hasked
    · exact hnew ⟨q, hq, heq⟩
    · exact hrest q hq hasked
  · rintro ⟨hp, hrest, hnodup⟩
    refine ⟨⟨hp, fun q hq hasked ↦
      hrest q hq (List.mem_cons_of_mem _ hasked)⟩, ?_, hnodup⟩
    rintro ⟨q, hq, heq⟩
    exact hrest q hq (heq ▸ List.mem_cons_self)

/-- The answer at the head of a chain of `p` and `rest` that ends at the export `D`. The links that
are being followed lead to none of `rest`, so only the modules decide. -/
theorem linksWithin_chain {D : Nat} (hD : (c.binding.symbol D).link? = none)
    {p : Nat × String} {rest : List (Nat × String)} (hchain : (p :: rest).IsChain c.Passes)
    (hplain : ∀ q ∈ p :: rest, c.Plain q.1) (hnodup : (p :: rest).Nodup)
    (hlast : ∀ q ∈ (p :: rest).getLast?, (c.binding.symbol q.1).exports.lookup q.2 = some D)
    (n : Nat) (trail : LinkTrail)
    (hlinks : ∀ id ∈ trail.links, ∀ q ∈ rest, ¬c.Leads id q) :
    c.linksWithin n trail (.member p.1 p.2) =
      if Unasked trail.askedFor (p :: rest) ∧ 2 * rest.length < n then some D else none := by
  induction rest generalizing p n trail with
  | nil =>
      rw [linksWithin_member n trail (hplain p List.mem_cons_self) (hlast p rfl)]
      by_cases hasked : p.1 ∈ trail.askedFor
      · rw [if_pos hasked, if_neg fun h ↦ (unasked_cons.mp h.1).1 hasked]
      have hnil : Unasked (p.1 :: trail.askedFor) [] :=
        ⟨fun q hq ↦ absurd hq List.not_mem_nil, .nil⟩
      rw [if_neg hasked]
      cases n with
      | zero => rw [if_neg fun h ↦ Nat.not_lt_zero _ h.2, within]
      | succ n =>
          rw [if_pos ⟨unasked_cons.mpr ⟨hasked, hnil⟩, Nat.succ_pos n⟩]
          exact linksWithin_target n _ hD
  | cons q rest ih =>
      obtain ⟨⟨id, hid, hleads⟩, hrest⟩ := List.isChain_cons_cons.mp hchain
      obtain ⟨_, hnodup'⟩ := List.nodup_cons.mp hnodup
      rw [linksWithin_member n trail (hplain p List.mem_cons_self) hid]
      by_cases hasked : p.1 ∈ trail.askedFor
      · rw [if_pos hasked, if_neg fun h ↦ (unasked_cons.mp h.1).1 hasked]
      have hnew : id ∉ trail.links := fun h ↦ hlinks id h q List.mem_cons_self hleads
      have hq : c.Plain q.1 := hplain q (List.mem_cons_of_mem p List.mem_cons_self)
      have hfollow (k : Nat) :=
        linksWithin_link k ⟨trail.links, p.1 :: trail.askedFor⟩ hleads hq hnew
      rw [if_neg hasked, List.length_cons]
      match n with
      | 0 => rw [if_neg fun h ↦ Nat.not_lt_zero _ h.2, within]
      | 1 =>
          rw [within, hfollow 0, if_neg fun h ↦ absurd h.2 (by omega)]
          rfl
      | n + 2 =>
          -- The link `id` leads to `q`, which is not further on in the chain.
          have hlinks' : ∀ i ∈ id :: trail.links, ∀ r ∈ rest, ¬c.Leads i r := by
            intro i hi r hr hir
            rcases List.mem_cons.mp hi with rfl | hi
            · exact (List.nodup_cons.mp hnodup').1 (hleads.unique hir ▸ hr)
            · exact hlinks i hi r (List.mem_cons_of_mem q hr) hir
          have hnext := ih hrest (fun r hr ↦ hplain r (List.mem_cons_of_mem p hr)) hnodup' hlast n
            ⟨id :: trail.links, p.1 :: trail.askedFor⟩ hlinks'
          rw [within, hfollow (n + 1), within, hnext]
          by_cases hreach : Unasked (p.1 :: trail.askedFor) (q :: rest) ∧ 2 * rest.length < n
          · rw [if_pos hreach, if_pos ⟨unasked_cons.mpr ⟨hasked, hreach.1⟩, by omega⟩]
            exact linksWithin_target n _ hD
          · rw [if_neg hreach, if_neg fun h ↦ hreach ⟨(unasked_cons.mp h.1).2, by omega⟩]
            rfl

/-! ## Declarations -/

/-- A statement stands at the top of the module `m`: of a file, or of the body of a module that the
file declares by name. With `all`, everything that is declared there is exported. -/
inductive StandsIn (c : Checker) (file : Nat) (s : Statement) (m : Nat) : (all : Bool) → Prop
  | file {u : SourceUnit} (hu : c.program.units[file]? = some u)
      (hm : c.binding.fileModules.getD file none = some m) (hs : s ∈ u.tree.statements) :
      StandsIn c file s m (Binder.exportsAll ⟨file, Binding.globalScope, some m,
        u.isDeclaration⟩ u.tree.statements)
  | declared {u : SourceUnit} {t : Statement} {specifier : String} {body : List Statement}
      (hu : c.program.units[file]? = some u) (ht : t ∈ u.tree.statements)
      (hdecl : t.decl = .moduleDecl (.string specifier) (some body))
      (hm : c.binding.declaredModule c.program file (c.binding.fileModules.getD file none).isSome
        specifier = some m) (hs : s ∈ body) :
      StandsIn c file s m (Binder.exportsAll ⟨file, Binding.globalScope, some m, true⟩ body)

/-- The module `p.1` itself exports a class, interface or type alias `p.2`, declared in the file. -/
inductive ExportsType (c : Checker) (p : Nat × String) (file : Nat) (kind : DeclarationKind) : Prop
  | intro {s : Statement} {all : Bool} (hs : c.StandsIn file s p.1 all)
      (hexported : s.isExported all) (htype : s.DeclaresType p.2 kind)

/-- The module `p.1` says `export { q.2 as p.2 } from` the module `q.1`. -/
inductive Reexports (c : Checker) (p q : Nat × String) : Prop
  | intro {file : Nat} {s : Statement} {all : Bool} {decl : ExportDecl}
      {specifiers : List ExportSpecifier} {specifier : String} (hs : c.StandsIn file s p.1 all)
      (hdecl : s.decl = .exportDecl decl) (hclause : decl.clause = .named specifiers)
      (hspecifier : decl.specifier = some specifier) (hname : ⟨q.2, p.2⟩ ∈ specifiers)
      (hmodule : c.moduleSymbol ⟨file, specifier⟩ = some q.1)

/-- The statement of the file says `import { p.2 as name } from` the module `p.1`. -/
inductive Imports (c : Checker) (file : Nat) (s : Statement) (name : String)
    (p : Nat × String) : Prop
  | intro {m : Nat} {all : Bool} {decl : ImportDecl} (hs : c.StandsIn file s m all)
      (hdecl : s.decl = .importDecl decl) (hname : ⟨p.2, name⟩ ∈ decl.named)
      (hmodule : c.moduleSymbol ⟨file, decl.specifier⟩ = some p.1)

/-- The module `p.1` exports `p.2` once, and nothing as a whole. -/
structure ExportsOnce (c : Checker) (p : Nat × String) : Prop where
  exportEquals : (c.binding.symbol p.1).exportEquals = none
  unique : ∀ e ∈ (c.binding.symbol p.1).exports, ∀ e' ∈ (c.binding.symbol p.1).exports,
    e.1 = p.2 → e'.1 = p.2 → e = e'
  linked : ∀ e ∈ (c.binding.symbol p.1).exports, e.1 = p.2 →
    (c.binding.symbol e.2).LinkedOnce

instance (c : Checker) (p : Nat × String) : Decidable (c.ExportsOnce p) :=
  decidable_of_iff (_ ∧ _ ∧ _) ⟨fun h ↦ ⟨h.1, h.2.1, h.2.2⟩, fun h ↦
    ⟨h.1, h.2, h.3⟩⟩

/-- The name is declared once in the scope of the statement, if it is that of an import. -/
def NamedOnce (c : Checker) (file : Nat) (s : Statement) (name : String) : Prop :=
  ∀ env ∈ c.envAt? file s.id, ∀ id ∈ (c.binding.scope env.scope).names.lookup name,
    (c.binding.symbol id).LinkedOnce

instance (c : Checker) (file : Nat) (s : Statement) (name : String) :
    Decidable (c.NamedOnce file s name) :=
  inferInstanceAs (Decidable (∀ _ ∈ _, ∀ _ ∈ _, _))

theorem lookup_of_exportsOnce {p : Nat × String} (h : c.ExportsOnce p) {id : Nat}
    (hid : (p.2, id) ∈ (c.binding.symbol p.1).exports) :
    (c.binding.symbol p.1).exports.lookup p.2 = some id := by
  cases hlookup : (c.binding.symbol p.1).exports.lookup p.2 with
  | none =>
      have hne := List.lookup_eq_none_iff.mp hlookup _ hid
      exact absurd rfl (bne_iff_ne.mp hne)
  | some other =>
      have heq := h.unique _ (mem_of_lookup hlookup) _ hid rfl rfl
      exact congrArg some (Prod.mk.inj heq).2

variable {p : Program}

/-- A statement at the top of a module has been bound inside the symbol of the module. -/
theorem bound_of_standsIn {file m : Nat} {s : Statement} {all : Bool}
    (h : (ofProgram p).StandsIn file s m all) :
    (ofProgram p).binding.IsModule m ∧ ∃ place : Place, place.file = file ∧
      place.container = some m ∧ (ofProgram p).binding.Bound place all s := by
  cases h with
  | file hu hm hs =>
      obtain ⟨place, hfile, hcontainer, hambient, hall⟩ := Binding.settledFile_ofProgram hu
      refine ⟨(Binding.closed_ofProgram p).fileModules file m hm, place, hfile, ?_, ?_⟩
      · exact hcontainer.trans hm
      · have hbound := (hall s hs).toBound
        unfold Binder.exportsAll at hbound ⊢
        rw [hambient, hcontainer.trans hm] at hbound
        exact hbound
  | declared hu ht hdecl hm hs =>
      obtain ⟨place, rfl, hcontainer, _, hall⟩ := Binding.settledFile_ofProgram hu
      obtain ⟨m', scope, hdeclared, hmodule, hbody⟩ := (hall _ ht).module _ _ hdecl
      rw [hcontainer] at hdeclared
      obtain rfl := Option.some.inj (hdeclared.symm.trans hm)
      exact ⟨hmodule, ⟨place.file, scope, some m', true⟩, rfl, rfl, hbody s hs⟩

theorem passes_of_reexports {q r : Nat × String} (h : (ofProgram p).Reexports q r)
    (honce : (ofProgram p).ExportsOnce q) : (ofProgram p).Passes q r := by
  obtain ⟨hs, hdecl, hclause, hspecifier, hname, hmodule⟩ := h
  obtain ⟨_, place, rfl, hcontainer, hbound⟩ := bound_of_standsIn hs
  have hown := hbound.own
  rw [hdecl] at hown
  have hexport := hown q.1 hcontainer
  unfold Binding.DeclaresExport at hexport
  rw [hclause, hspecifier] at hexport
  obtain ⟨id, hid, hd⟩ := hexport _ hname
  have hlink := (honce.linked _ hid rfl).link?_eq hd
  exact ⟨id, lookup_of_exportsOnce honce hid, _, _, hlink, hmodule⟩

theorem lookup_of_exportsType {q : Nat × String} {file : Nat} {kind : DeclarationKind}
    (h : (ofProgram p).ExportsType q file kind) (honce : (ofProgram p).ExportsOnce q) :
    ∃ D d, ((ofProgram p).binding.symbol q.1).exports.lookup q.2 = some D ∧
      d ∈ ((ofProgram p).binding.symbol D).declarations ∧ d.file = file ∧ d.kind = kind ∧
      ((ofProgram p).binding.symbol D).link? = none := by
  obtain ⟨hs, hexported, htype⟩ := h
  obtain ⟨_, place, rfl, hcontainer, hbound⟩ := bound_of_standsIn hs
  obtain ⟨⟨D, hD, hd⟩, hkind⟩ := htype.exports hbound hexported hcontainer
  exact ⟨D, _, lookup_of_exportsOnce honce hD, hd, rfl, rfl, Symbol.link?_eq_none hd hkind⟩

/-- Every module of a chain is one. -/
theorem isModule_of_chain {q : Nat × String} {rest : List (Nat × String)} {file : Nat}
    {kind : DeclarationKind} (hchain : (q :: rest).IsChain (ofProgram p).Reexports)
    (hlast : ∀ r ∈ (q :: rest).getLast?, (ofProgram p).ExportsType r file kind) :
    ∀ r ∈ q :: rest, (ofProgram p).binding.IsModule r.1 := by
  induction rest generalizing q with
  | nil =>
      obtain ⟨hs, _, _⟩ := hlast q rfl
      exact List.forall_mem_singleton.mpr (bound_of_standsIn hs).1
  | cons next rest ih =>
      obtain ⟨⟨hs, _, _, _, _, _⟩, hrest⟩ := List.isChain_cons_cons.mp hchain
      exact List.forall_mem_cons.mpr ⟨(bound_of_standsIn hs).1, ih hrest hlast⟩

/-- The name of an import stands in the scope of its statement for a link to the export. -/
theorem leads_of_imports (hids : ∀ u ∈ p.units, (u.tree.allStatements.map Statement.id).Nodup)
    {file : Nat} {s : Statement} {name : String} {q : Nat × String}
    (h : (ofProgram p).Imports file s name q) (honce : (ofProgram p).NamedOnce file s name) :
    ∃ env id, (ofProgram p).envAt? file s.id = some env ∧
      ((ofProgram p).binding.scope env.scope).names.lookup name = some id ∧
      (ofProgram p).Leads id q := by
  obtain ⟨hs, hdecl, hname, hmodule⟩ := h
  obtain ⟨_, place, rfl, _, hbound⟩ := bound_of_standsIn hs
  have hscope := Binding.lookup_statementScopes (Binding.nodup_visited_ofProgram hids) hbound.noted
  have henv : (ofProgram p).envAt? place.file s.id = some ⟨place.file, place.scope, []⟩ :=
    Option.map_eq_some_iff.mpr ⟨place.scope, hscope, rfl⟩
  have hown := hbound.own
  rw [hdecl] at hown
  obtain ⟨id, hid, hd⟩ := hown.named _ hname
  have hlink := (honce _ henv id hid).link?_eq hd
  exact ⟨_, id, henv, hid, _, _, hlink, hmodule⟩

/-- A name of the scope itself stands for what its symbol stands for. -/
theorem entity?_of_names {scope id : Nat} {name : String}
    (hid : (c.binding.scope scope).names.lookup name = some id) :
    c.entity? [name] scope = c.links ⟨[], []⟩ (.target id) := by
  have hname : c.binding.nameIn name none scope = some id := by
    rw [Binding.nameIn, hid]
    rfl
  have hlookup : c.binding.lookup name scope none = some id := by
    rw [Binding.lookup, List.findSome?_cons, hname]
  rw [entity?, entityBy, hlookup]
  exact Option.bind_fun_some _

/-- The modules of a chain are symbols, so a chain in which none occurs twice is not too long to be
followed. -/
theorem length_le_of_nodup {chain : List (Nat × String)}
    (hmodules : ∀ q ∈ chain, c.binding.IsModule q.1) (hnodup : (chain.map Prod.fst).Nodup) :
    chain.length ≤ c.binding.symbols.size := by
  have hsubset : chain.map Prod.fst ⊆ List.range c.binding.symbols.size := by
    intro m hm
    obtain ⟨q, hq, rfl⟩ := List.mem_map.mp hm
    exact List.mem_range.mpr (hmodules q hq).lt
  have hle := (List.subperm_of_subset hnodup hsubset).length_le
  rwa [List.length_map, List.length_range] at hle

/-- An import through a chain of re-exports stands for the declaration at its end, if no module
occurs twice in the chain, and else for nothing. -/
theorem entity?_import (hids : ∀ u ∈ p.units, (u.tree.allStatements.map Statement.id).Nodup)
    {file : Nat} {s : Statement} {name : String} {first : Nat × String}
    {rest : List (Nat × String)} {target : Nat} {kind : DeclarationKind}
    (himport : (ofProgram p).Imports file s name first)
    (hchain : (first :: rest).IsChain (ofProgram p).Reexports)
    (hdeclared : ∀ q ∈ (first :: rest).getLast?, (ofProgram p).ExportsType q target kind)
    (hnodup : (first :: rest).Nodup) (hnamed : (ofProgram p).NamedOnce file s name)
    (honce : ∀ q ∈ first :: rest, (ofProgram p).ExportsOnce q) :
    ∃ env D d, (ofProgram p).envAt? file s.id = some env ∧
      d ∈ ((ofProgram p).binding.symbol D).declarations ∧ d.file = target ∧ d.kind = kind ∧
      (ofProgram p).entity? [name] env.scope =
        if ((first :: rest).map Prod.fst).Nodup then some D else none := by
  have hmodules := isModule_of_chain hchain hdeclared
  have hplain : ∀ q ∈ first :: rest, (ofProgram p).Plain q.1 :=
    fun q hq ↦ plain_of_isModule (hmodules q hq) (honce q hq).exportEquals
  obtain ⟨env, id, henv, hid, hleads⟩ := leads_of_imports hids himport hnamed
  have hend := List.getLast?_eq_some_getLast (List.cons_ne_nil first rest)
  have hmem := List.getLast_mem (List.cons_ne_nil first rest)
  obtain ⟨D, d, hD, hd, hfile, hkind, hlink⟩ :=
    lookup_of_exportsType (hdeclared _ hend) (honce _ hmem)
  refine ⟨env, D, d, henv, hd, hfile, hkind, ?_⟩
  have hpasses : (first :: rest).IsChain (ofProgram p).Passes :=
    hchain.imp_of_mem_imp fun q r hq _ h ↦ passes_of_reexports h (honce q hq)
  have hlinks : ∀ i ∈ [id], ∀ q ∈ rest, ¬(ofProgram p).Leads i q := by
    intro i hi q hq hiq
    rw [List.mem_singleton.mp hi] at hiq
    exact (List.nodup_cons.mp hnodup).1 (hleads.unique hiq ▸ hq)
  have hlast : ∀ q ∈ (first :: rest).getLast?,
      ((ofProgram p).binding.symbol q.1).exports.lookup q.2 = some D := by
    rw [hend]
    rintro _ ⟨rfl⟩
    exact hD
  have hlimit : (ofProgram p).trailLimit = 2 * (ofProgram p).binding.symbols.size := rfl
  have hsize := (hmodules first List.mem_cons_self).lt
  obtain ⟨n, hn⟩ : ∃ n, (ofProgram p).trailLimit = n + 1 :=
    Nat.exists_eq_succ_of_ne_zero (by omega)
  have hanswer := linksWithin_chain hlink hpasses hplain hnodup hlast n ⟨[id], []⟩ hlinks
  have hfollow := linksWithin_link (n + 1) ⟨[], []⟩ hleads (hplain first List.mem_cons_self)
    List.not_mem_nil
  rw [entity?_of_names hid, links, hn, hfollow, within, hanswer]
  by_cases hdistinct : ((first :: rest).map Prod.fst).Nodup
  · have hlength := length_le_of_nodup hmodules hdistinct
    rw [List.length_cons] at hlength
    have hunasked : Unasked [] (first :: rest) := ⟨fun q _ ↦ List.not_mem_nil, hdistinct⟩
    rw [if_pos hdistinct, if_pos ⟨hunasked, by omega⟩]
    exact linksWithin_target n _ hlink
  · rw [if_neg hdistinct, if_neg fun h ↦ hdistinct h.1.2]
    rfl

def emptyInterface : InterfaceDecl := ⟨⟨"D", ⟨0, 0⟩⟩, [], [], []⟩

/-- An entry that imports `B` from `m0`. That has it as `A` from `m1`, which has it as `C` from
`m0`, which has it as `D` from `m2`. -/
def twicePassed : Program := ⟨.default, #[
  ⟨⟨"/e.ts"⟩, "",
    ⟨[⟨0, [], .importDecl ⟨false, none, none, [⟨"B", "B"⟩], "./m0"⟩, ⟨0, 0⟩⟩],
      []⟩,
    [("./m0", ⟨"/m0.ts"⟩)]⟩,
  ⟨⟨"/m0.ts"⟩, "",
    ⟨[⟨0, [], .exportDecl ⟨false, .named [⟨"A", "B"⟩], some "./m1"⟩, ⟨0, 0⟩⟩,
      ⟨1, [], .exportDecl ⟨false, .named [⟨"D", "C"⟩], some "./m2"⟩, ⟨0, 0⟩⟩],
      []⟩,
    [("./m1", ⟨"/m1.ts"⟩), ("./m2", ⟨"/m2.ts"⟩)]⟩,
  ⟨⟨"/m1.ts"⟩, "",
    ⟨[⟨0, [], .exportDecl ⟨false, .named [⟨"C", "A"⟩], some "./m0"⟩, ⟨0, 0⟩⟩],
      []⟩,
    [("./m0", ⟨"/m0.ts"⟩)]⟩,
  ⟨⟨"/m2.ts"⟩, "",
    ⟨[⟨0, [.exported], .interfaceDecl emptyInterface, ⟨0, 0⟩⟩], []⟩, []⟩]⟩

theorem entity?_import_twicePassed : ∃ env, (ofProgram twicePassed).envAt? 0 0 = some env ∧
    (ofProgram twicePassed).entity? ["B"] env.scope = none := by
  have hids : ∀ u ∈ twicePassed.units, (u.tree.allStatements.map Statement.id).Nodup := by
    decide +kernel
  have himport : (ofProgram twicePassed).Imports 0
      ⟨0, [], .importDecl ⟨false, none, none, [⟨"B", "B"⟩], "./m0"⟩, ⟨0, 0⟩⟩
        "B" (1, "B") :=
    ⟨.file (m := 0) rfl (by decide +kernel) List.mem_cons_self, rfl, List.mem_cons_self,
      by decide +kernel⟩
  have hB : (ofProgram twicePassed).Reexports (1, "B") (2, "A") :=
    ⟨@StandsIn.file _ 1 _ _ _ rfl (by decide +kernel) List.mem_cons_self, rfl, rfl, rfl,
      List.mem_cons_self, by decide +kernel⟩
  have hA : (ofProgram twicePassed).Reexports (2, "A") (1, "C") :=
    ⟨@StandsIn.file _ 2 _ _ _ rfl (by decide +kernel) List.mem_cons_self, rfl, rfl, rfl,
      List.mem_cons_self, by decide +kernel⟩
  have hC : (ofProgram twicePassed).Reexports (1, "C") (3, "D") :=
    ⟨@StandsIn.file _ 1 _ _ _ rfl (by decide +kernel) (List.mem_cons_of_mem _ List.mem_cons_self),
      rfl, rfl, rfl, List.mem_cons_self, by decide +kernel⟩
  have hD : (ofProgram twicePassed).ExportsType (3, "D") 3 (.interfaceDecl emptyInterface) :=
    ⟨.file rfl (by decide +kernel) List.mem_cons_self, by decide +kernel,
      .interfaceDecl (i := emptyInterface) rfl⟩
  have honce : ∀ q ∈ [(1, "B"), (2, "A"), (1, "C"), (3, "D")],
      (ofProgram twicePassed).ExportsOnce q := by
    decide +kernel
  obtain ⟨env, _, _, henv, _, _, _, hentity⟩ := entity?_import hids himport
    (.cons_cons hB (.cons_cons hA (.cons_cons hC (.singleton _))))
    (by rintro _ ⟨rfl⟩; exact hD) (by decide) (by decide +kernel) honce
  exact ⟨env, henv, hentity.trans (if_neg (by decide))⟩

end Checker

end PluginSurface
