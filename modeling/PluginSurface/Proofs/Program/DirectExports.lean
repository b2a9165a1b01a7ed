import PluginSurface.Proofs.Binding.Reexports
import PluginSurface.Proofs.Program.ImportTypes

/-!
# Importing what a file exports itself

A statement with the word `export` makes its file a module, unless it only gives a new name to
something in the file. A file that is a module exports the symbol of what the statement declares,
and an import of the name leads there, or to what the new name stands for.
-/

namespace PluginSurface

/-- The statement declares the name, as a type, value or namespace or as a new name for one. -/
inductive Statement.DeclaresName (s : Statement) : String → DeclarationKind → Prop
  | type {name : String} {kind : DeclarationKind} (htype : s.DeclaresType name kind) :
      DeclaresName s name kind
  | function {name : Name} {signature : Signature} {body : Option (List Statement)}
      (hdecl : s.decl = .function (some name) signature body) :
      DeclaresName s name.text .function
  | enum {name : Name} {members : List String} (hdecl : s.decl = .enumDecl name members) :
      DeclaresName s name.text .enum
  | variable {keyword : VariableKeyword} {declarators : List Declarator} {d : Declarator}
      {name : Name} (hdecl : s.decl = .variable keyword declarators) (hd : d ∈ declarators)
      (hname : d.name = some name) : DeclaresName s name.text (.variable d.type)
  | namespace {first : String} {rest : List String} {body : Option (List Statement)}
      (hdecl : s.decl = .moduleDecl (.path (first :: rest)) body) :
      DeclaresName s first .namespaceDecl
  | entity {name : String} {path : List String}
      (hdecl : s.decl = .importEquals name (.entity path)) :
      DeclaresName s name (.link (.entity path))

namespace Statement.DeclaresName

variable {s : Statement} {name : String} {kind : DeclarationKind}

theorem declares (h : s.DeclaresName name kind) {b : Binding} {program : Program} {place : Place}
    {all : Bool} (hsettled : b.Settled program place all s) :
    b.Declares place (s.isExported all) name kind := by
  have hown := hsettled.own
  cases h with
  | type htype =>
      cases htype with
      | classDecl hdecl hname =>
          rw [hdecl] at hown
          exact hown _ hname
      | interfaceDecl hdecl | aliasDecl hdecl =>
          rw [hdecl] at hown
          exact hown
  | function hdecl =>
      rw [hdecl] at hown
      exact hown _ rfl
  | enum hdecl | entity hdecl =>
      rw [hdecl] at hown
      exact hown
  | «variable» hdecl hd hname =>
      rw [hdecl] at hown
      exact hown _ hd _ hname
  | «namespace» hdecl => exact hsettled.namespaces _ _ hdecl _ rfl

/-- A new name for something is the only declaration that does not make a file a module. -/
theorem isModule (h : s.DeclaresName name kind) (hlink : kind.link? = none) {f : SourceFile}
    (hs : s ∈ f.statements) (hexported : s.has .exported = true) : f.isModule = true := by
  refine List.any_eq_true.mpr ⟨s, hs, ?_⟩
  unfold marksModule
  cases h with
  | type htype => cases htype with
    | classDecl hdecl | interfaceDecl hdecl | aliasDecl hdecl => rw [hdecl]; exact hexported
  | function hdecl | enum hdecl | «variable» hdecl | «namespace» hdecl =>
      rw [hdecl]
      exact hexported
  | entity => cases hlink

theorem marksModule_eq_false (h : s.DeclaresName name kind) (hlink : kind.link? ≠ none) :
    s.marksModule = false := by
  unfold marksModule
  cases h with
  | entity hdecl => rw [hdecl]
  | type htype => cases htype <;> exact absurd rfl hlink
  | function | enum | «variable» | «namespace» => exact absurd rfl hlink

end Statement.DeclaresName

namespace Checker

variable {c : Checker}

/-! ## Names of entities -/

/-- From a symbol, the names lead through exports of namespaces that are no links. -/
inductive LeadsInside (c : Checker) : Nat → List String → Nat → Prop
  | here {D : Nat} (hlink : (c.binding.symbol D).link? = none) : LeadsInside c D [] D
  | inside {id next D : Nat} {segment : String} {rest : List String}
      (hnamespace : (c.binding.symbol id).isNamespace = true)
      (hequals : (c.binding.symbol id).exportEquals = none)
      (hnext : (c.binding.symbol id).exports.lookup segment = some next)
      (hrest : LeadsInside c next rest D) : LeadsInside c id (segment :: rest) D

/-- In a scope, the path stands for a symbol by way of namespaces. -/
inductive Spells (c : Checker) : List String → Nat → Option Nat → Nat → Prop
  | intro {first : String} {rest : List String} {scope found D : Nat} {exclude : Option Nat}
      (hfound : c.binding.lookup first scope exclude = some found)
      (hinside : c.LeadsInside found rest D) : Spells c (first :: rest) scope exclude D

theorem LeadsInside.link? {id D : Nat} {path : List String} (h : c.LeadsInside id path D) :
    (c.binding.symbol id).link? = none := by
  cases h with
  | here hlink => exact hlink
  | inside hnamespace hequals hnext hrest =>
      obtain ⟨d, hd, hkind⟩ := List.any_eq_true.mp (Bool.and_eq_true_iff.mp hnamespace).1
      refine Symbol.link?_eq_none hd ?_
      cases hd' : d.kind with
      | namespaceDecl => rfl
      | _ => rw [hd'] at hkind; cases hkind

theorem LeadsInside.foldlM_within {id D : Nat} {path : List String} (h : c.LeadsInside id path D)
    (n : Nat) {trail : LinkTrail} (hasked : ∀ m ∈ trail.askedFor, c.binding.IsModule m) :
    path.foldlM (fun id segment ↦ c.within (n + 2) trail (.member id segment)) id = some D := by
  induction h with
  | here => rfl
  | @inside id next D segment rest hnamespace hequals hnext hrest ih =>
      have hplain : c.Plain id :=
        ⟨(LeadsInside.inside hnamespace hequals hnext hrest).link?, hequals⟩
      have hnew : id ∉ trail.askedFor := by
        intro hid
        obtain ⟨d, hd, hkind⟩ := hasked id hid
        have hmodule : (c.binding.symbol id).declarations.any (·.kind.isModule) = true :=
          List.any_eq_true.mpr ⟨d, hd, hkind ▸ rfl⟩
        rw [Symbol.isNamespace, hmodule, Bool.not_true, Bool.and_false] at hnamespace
        cases hnamespace
      have hstep : c.within (n + 2) trail (.member id segment) = some next := by
        rw [within, linksWithin_member _ _ hplain hnext, if_neg hnew]
        exact linksWithin_target n _ hrest.link?
      rw [List.foldlM_cons, hstep]
      exact ih

theorem Spells.entityBy_within {path : List String} {scope D : Nat} {exclude : Option Nat}
    (h : c.Spells path scope exclude D) (n : Nat) {trail : LinkTrail}
    (hasked : ∀ m ∈ trail.askedFor, c.binding.IsModule m) :
    c.entityBy (c.within (n + 2)) trail path scope exclude = some D := by
  obtain ⟨hfound, hinside⟩ := h
  have htarget : c.within (n + 2) trail (.target _) = some _ :=
    linksWithin_target (n + 1) trail hinside.link?
  rw [entityBy, hfound, Option.bind_eq_bind, Option.bind_some, htarget, Option.bind_some]
  exact hinside.foldlM_within n hasked

theorem LeadsInside.end_link? {id D : Nat} {path : List String} (h : c.LeadsInside id path D) :
    (c.binding.symbol D).link? = none := by
  induction h with
  | here hlink => exact hlink
  | inside _ _ _ _ ih => exact ih

/-- A link to an export stands for what the symbol of the export stands for. -/
theorem links_of_leads {id m D : Nat} {name : String} (hid : c.Leads id (m, name))
    (hm : c.Plain m) (hD : (c.binding.symbol m).exports.lookup name = some D) :
    ∃ k, c.trailLimit = k + 2 ∧ c.links ⟨[], []⟩ (.target id) =
      (c.linksWithin k ⟨[id], [m]⟩ (.target D)).bind fun next ↦
        c.linksWithin (k + 1) ⟨[id], []⟩ (.target next) := by
  obtain ⟨k, hk⟩ : ∃ k, c.trailLimit = k + 2 := by
    obtain ⟨_, _, hlink, _⟩ := hid
    have hlt := Binding.lt_of_link? hlink
    exact ⟨c.trailLimit - 2, by unfold trailLimit; omega⟩
  refine ⟨k, hk, ?_⟩
  rw [links, hk, linksWithin_link (k + 2) ⟨[], []⟩ hid hm List.not_mem_nil, within,
    linksWithin_member (k + 1) _ hm hD, if_neg List.not_mem_nil]
  rfl

theorem links_of_leads_type {id m D : Nat} {name : String} (hid : c.Leads id (m, name))
    (hm : c.Plain m) (hD : (c.binding.symbol m).exports.lookup name = some D)
    (hlink : (c.binding.symbol D).link? = none) :
    c.links ⟨[], []⟩ (.target id) = some D := by
  obtain ⟨k, _, hlinks⟩ := links_of_leads hid hm hD
  rw [hlinks, linksWithin_target k _ hlink, Option.bind_some, linksWithin_target _ _ hlink]

/-- A link to a new name for an entity stands for the entity. -/
theorem links_of_leads_entity {id m D E scope : Nat} {name : String} {path : List String}
    (hid : c.Leads id (m, name)) (hm : c.Plain m) (hmodule : c.binding.IsModule m)
    (hD : (c.binding.symbol m).exports.lookup name = some D)
    (hlink : (c.binding.symbol D).link? = some (.entity path, scope))
    (hspells : c.Spells path scope (some D) E) : c.links ⟨[], []⟩ (.target id) = some E := by
  obtain ⟨k, hk, hlinks⟩ := links_of_leads hid hm hD
  have hE : (c.binding.symbol E).link? = none := by
    obtain ⟨_, hinside⟩ := hspells
    exact hinside.end_link?
  have hne : D ∉ [id] := by
    obtain ⟨ref, other, hother, _⟩ := hid
    intro hD
    rw [List.mem_singleton.mp hD, hother] at hlink
    cases hlink
  -- The link, the new name and the module are three symbols.
  obtain ⟨n, rfl⟩ : ∃ n, k = n + 2 := by
    have hnew : D ≠ m := fun heq ↦ by rw [heq, hm.link?] at hlink; cases hlink
    have hlt := hmodule.lt
    have hlt' := Binding.lt_of_link? hlink
    unfold trailLimit at hk
    exact ⟨k - 2, by omega⟩
  have hasked : ∀ a ∈ [m], c.binding.IsModule a := List.forall_mem_singleton.mpr hmodule
  have htarget : c.linksWithin (n + 2) ⟨[id], [m]⟩ (.target D) = some E := by
    rw [linksWithin_eq, linkRule, targetBy, hlink]
    dsimp only
    rw [if_neg hne, followBy, hspells.entityBy_within n hasked, Option.bind_some, within]
    exact linksWithin_target (n + 1) _ hE
  rw [hlinks, htarget, Option.bind_some, linksWithin_target _ _ hE]

/-! ## Imports -/

/-- The statement of the file says `import { exported as name } from` a specifier that stands for
the file at `target`, and for no module that is declared by name. -/
inductive ImportsFrom (c : Checker) (file : Nat) (t : Statement) (name : String) (target : Nat)
    (exported : String) : Prop
  | intro {v : SourceUnit} {decl : ImportDecl} (hv : c.program.units[file]? = some v)
      (ht : t ∈ v.tree.statements) (hdecl : t.decl = .importDecl decl)
      (hname : ⟨exported, name⟩ ∈ decl.named)
      (hresolved : c.program.resolvedModule file decl.specifier = some target)
      (hfile : Resolve.isRelative decl.specifier = true ∨
        c.binding.ambientModules.lookup decl.specifier = none)

variable {p : Program}

theorem ImportsFrom.imports {file target m : Nat} {t : Statement} {name exported : String}
    (h : (ofProgram p).ImportsFrom file t name target exported)
    (hm : (ofProgram p).binding.fileModules.getD target none = some m) :
    (ofProgram p).Imports file t name (m, exported) := by
  obtain ⟨hv, ht, hdecl, hname, hresolved, hfile⟩ := h
  have hmodule : (_ : SourceFile).isModule = true :=
    List.any_eq_true.mpr ⟨t, ht, by rw [Statement.marksModule, hdecl]⟩
  obtain ⟨own, hown⟩ :=
    Option.isSome_iff_exists.mp ((Binding.isSome_fileModules hv).trans hmodule)
  refine ⟨.file hv hown ht, hdecl, hname, ?_⟩
  rw [moduleSymbol, hresolved, Option.bind_some, hm]
  rcases hfile with hrelative | hambient
  · rw [if_pos hrelative]
    rfl
  · rw [hambient, ite_self]
    rfl

/-- The declaration of an exported statement is an export of the file. -/
theorem exports_of_declaresName
    (hids : ∀ u ∈ p.units, (u.tree.allStatements.map Statement.id).Nodup) {i : Nat}
    {u : SourceUnit} (hu : p.units[i]? = some u) (hmodule : u.tree.isModule = true) {s : Statement}
    {name : String} {kind : DeclarationKind} (hs : s ∈ u.tree.statements)
    (hexported : s.has .exported = true) (hdefault : s.has .default = false)
    (hname : s.DeclaresName name kind) :
    ∃ m d, (ofProgram p).binding.fileModules.getD i none = some m ∧
      (ofProgram p).binding.IsModule m ∧ (ofProgram p).binding.Exports m name d ∧ d.file = i ∧
      d.kind = kind ∧ (ofProgram p).envAt? i s.id = some (Typing.declarationEnv d) := by
  obtain ⟨m, hm⟩ := Option.isSome_iff_exists.mp ((Binding.isSome_fileModules hu).trans hmodule)
  obtain ⟨place, rfl, hcontainer, _, hall⟩ := Binding.settledFile_ofProgram hu
  have hsettled := hall s hs
  have hexports := (hname.declares hsettled).exports (m := m) (by
    unfold Statement.isExported
    unfold Statement.has at hexported hdefault
    rw [hexported, hdefault, Bool.or_true]
    rfl) (hcontainer.trans hm)
  have hscope := Binding.lookup_statementScopes (Binding.nodup_visited_ofProgram hids)
    hsettled.noted
  exact ⟨m, _, hm, (Binding.closed_ofProgram p).fileModules _ m hm, hexports, rfl, rfl,
    Option.map_eq_some_iff.mpr ⟨place.scope, hscope, rfl⟩⟩

/-- What a statement with the word `export` declares under a name makes its file a module, unless it
is a new name for something. If the file is a module that exports the name once, and nothing as a
whole, an import of the name stands for what is declared or for what the new name stands for. -/
theorem entity?_exported (hids : ∀ u ∈ p.units, (u.tree.allStatements.map Statement.id).Nodup)
    {i : Nat} {u : SourceUnit} (hu : p.units[i]? = some u) {s : Statement} {exported : String}
    {kind : DeclarationKind} (hs : s ∈ u.tree.statements) (hexported : s.has .exported = true)
    (hdefault : s.has .default = false) (hname : s.DeclaresName exported kind) :
    (kind.link? = none → u.tree.isModule = true) ∧
    (kind.link? ≠ none → s.marksModule = false) ∧
    (u.tree.isModule = true → ∃ m, (ofProgram p).binding.fileModules.getD i none = some m ∧
      ((ofProgram p).ExportsOnce (m, exported) →
        ∃ D d, ((ofProgram p).binding.symbol m).exports.lookup exported = some D ∧
          d ∈ ((ofProgram p).binding.symbol D).declarations ∧ d.file = i ∧ d.kind = kind ∧
          (ofProgram p).envAt? i s.id = some (Typing.declarationEnv d) ∧
          ∀ file t name, (ofProgram p).ImportsFrom file t name i exported →
            (ofProgram p).NamedOnce file t name →
            ∃ env, (ofProgram p).envAt? file t.id = some env ∧
              (kind.link? = none → (ofProgram p).entity? [name] env.scope = some D) ∧
              ∀ path E, kind = .link (.entity path) →
                (ofProgram p).Spells path d.scope (some D) E →
                (ofProgram p).entity? [name] env.scope = some E)) := by
  refine ⟨fun hlink ↦ hname.isModule hlink hs hexported, hname.marksModule_eq_false,
    fun hmodule ↦ ?_⟩
  obtain ⟨m, d, hm, hkindm, ⟨D, hmem, hd⟩, hfile, hkind, henv⟩ :=
    exports_of_declaresName hids hu hmodule hs hexported hdefault hname
  refine ⟨m, hm, fun honce ↦ ?_⟩
  have hD := lookup_of_exportsOnce (p := (m, exported)) honce hmem
  refine ⟨D, d, hD, hd, hfile, hkind, henv, ?_⟩
  have hplain := plain_of_isModule hkindm honce.exportEquals
  intro file t name himports hnamed
  obtain ⟨env, id, henv', hid, hleads⟩ := leads_of_imports hids (himports.imports hm) hnamed
  refine ⟨env, henv', fun hlink ↦ ?_, fun path E hpath hspells ↦ ?_⟩
  · rw [entity?_of_names hid]
    exact links_of_leads_type hleads hplain hD (Symbol.link?_eq_none hd (hkind ▸ hlink))
  · rw [entity?_of_names hid]
    have hlink : ((ofProgram p).binding.symbol D).link? = some (.entity path, d.scope) := by
      have hentity : ⟨d.file, d.scope, .link (.entity path)⟩ ∈
          ((ofProgram p).binding.symbol D).declarations := by
        rw [← hpath, ← hkind]
        exact hd
      exact (honce.linked _ hmem rfl).link?_eq hentity
    exact links_of_leads_entity hleads hplain hkindm hD hlink hspells

def spaceOf (modifiers : List Modifier) : Statement :=
  ⟨0, modifiers,
    .moduleDecl (.path ["a"]) (some [
      ⟨1, [.exported], .interfaceDecl ⟨⟨"b", ⟨0, 0⟩⟩, [], [], []⟩, ⟨0, 0⟩⟩]),
    ⟨0, 0⟩⟩

def newName : Statement := ⟨2, [.exported], .importEquals "n" (.entity ["a", "b"]), ⟨0, 0⟩⟩

def importNew (id : Nat) (name specifier : String) : Statement :=
  ⟨id, [], .importDecl ⟨false, none, none, [⟨"n", name⟩], specifier⟩, ⟨0, 0⟩⟩

/-- Two files that say `export import n = a.b`, the first of which is a module by another export,
and one that imports both names. -/
def newNames : Program := ⟨.default, #[
  ⟨⟨"/m.ts"⟩, "", ⟨[spaceOf [.exported], newName], []⟩, []⟩,
  ⟨⟨"/l.ts"⟩, "", ⟨[spaceOf [], newName], []⟩, []⟩,
  ⟨⟨"/e.ts"⟩, "", ⟨[importNew 0 "n" "./m", importNew 1 "l" "./l"], []⟩,
    [("./m", ⟨"/m.ts"⟩), ("./l", ⟨"/l.ts"⟩)]⟩]⟩

theorem entity?_exported_newNames :
    (∃ env, (ofProgram newNames).envAt? 2 0 = some env ∧
      (ofProgram newNames).entity? ["n"] env.scope = some 3) ∧
    newName.marksModule = false ∧
    ∃ env, (ofProgram newNames).envAt? 2 1 = some env ∧
      (ofProgram newNames).entity? ["l"] env.scope = none := by
  have hids : ∀ u ∈ newNames.units, (u.tree.allStatements.map Statement.id).Nodup := by
    decide +kernel
  have hname : newName.DeclaresName "n" (.link (.entity ["a", "b"])) := .entity rfl
  obtain ⟨-, hmarks, hmodule⟩ := entity?_exported (p := newNames) (i := 0) hids rfl
    (List.mem_cons_of_mem _ List.mem_cons_self) rfl rfl hname
  obtain ⟨m, hm, honce⟩ := hmodule (by decide)
  have hzero : (ofProgram newNames).binding.fileModules.getD 0 none = some 0 := by decide +kernel
  obtain rfl : m = 0 := Option.some.inj (hm.symm.trans hzero)
  obtain ⟨D, d, hD, -, -, -, henv, himport⟩ := honce (by decide +kernel)
  have hfour : ((ofProgram newNames).binding.symbol 0).exports.lookup "n" = some 4 := by
    decide +kernel
  obtain rfl : D = 4 := Option.some.inj (hD.symm.trans hfour)
  have hscope : ((ofProgram newNames).envAt? 0 2).map TypeEnv.scope = some 1 := by decide +kernel
  have hd : d.scope = 1 := by
    rw [show newName.id = 2 from rfl] at henv
    rw [henv] at hscope
    exact Option.some.inj hscope
  have hspells : (ofProgram newNames).Spells ["a", "b"] d.scope (some 4) 3 := by
    rw [hd]
    exact @Spells.intro _ _ _ _ 2 _ _ (by decide +kernel)
      (@LeadsInside.inside _ _ 3 _ _ _ (by decide +kernel) (by decide +kernel) (by decide +kernel)
        (.here (by decide +kernel)))
  obtain ⟨env, henv', -, hentity⟩ := himport 2 (importNew 0 "n" "./m") "n"
    (.intro (v := newNames.units[2]) rfl List.mem_cons_self rfl List.mem_cons_self
      (by decide +kernel) (.inl (by decide +kernel))) (by decide +kernel)
  refine ⟨⟨env, henv', hentity _ 3 rfl hspells⟩, hmarks (by decide), ?_⟩
  have hnone : ((ofProgram newNames).envAt? 2 1).map (fun env ↦
      (ofProgram newNames).entity? ["l"] env.scope) = some none := by decide +kernel
  exact Option.map_eq_some_iff.mp hnone

end Checker

end PluginSurface
