import PluginSurface.Proofs.Binding.Visits
import PluginSurface.Proofs.Search.Entities
import PluginSurface.Typing.OptionShape

/-!
# The options of found plugins

The statement of a plugin that the search answers is found again by its number, and it has an
environment. So a plugin is without options only if none are written for it.
-/

namespace PluginSurface

namespace Statement

/-- The first constructor among the members of a class has these parameters. -/
def FirstConstructor (members : List ClassMember) (params : List Param) : Prop :=
  ∃ before m after body, members = before ++ m :: after ∧ m.kind = .constructor params body ∧
    ∀ other ∈ before, ∀ params body, other.kind ≠ .constructor params body

/-- The first construct signature among the members of a type. -/
def FirstConstruct (members : List TypeMember) (signature : Signature) : Prop :=
  ∃ before after, members = before ++ .construct signature :: after ∧
    ∀ other, .construct other ∉ before

/-- The parameters with which a plugin is constructed first. -/
inductive ConstructedWith (s : Statement) : PluginKind → List Param → Prop
  | classDecl {c : ClassDecl} {params : List Param} (hdecl : s.decl = .classDecl c)
      (hfirst : FirstConstructor c.members params) : ConstructedWith s .classDecl params
  | constant {keyword : VariableKeyword} {name : Option Name} {members : List TypeMember}
      {more : List Declarator} {signature : Signature}
      (hdecl : s.decl = .variable keyword (⟨name, some (.members members)⟩ :: more))
      (hfirst : FirstConstruct members signature) :
      ConstructedWith s .constConstructible signature.params

/-- No type is written for the options: there is nothing that constructs the plugin, or it has no
parameter, or the first parameter has no type. -/
def LacksOptionType (s : Statement) (kind : PluginKind) : Prop :=
  (∀ params, ¬s.ConstructedWith kind params) ∨
    ∃ params, s.ConstructedWith kind params ∧
      (params = [] ∨ ∃ first rest, params = first :: rest ∧ first.type = none)

theorem constructorParams?_eq_some_iff {c : ClassDecl} {params : List Param} :
    c.constructorParams? = some params ↔ FirstConstructor c.members params := by
  rw [ClassDecl.constructorParams?, List.findSome?_eq_some_iff]
  constructor
  · rintro ⟨before, m, after, hmembers, hm, hbefore⟩
    split at hm
    next params body hkind =>
      cases hm
      refine ⟨before, m, after, body, hmembers, hkind,
        fun other hother params body hkind ↦ ?_⟩
      have hnone := hbefore other hother
      rw [hkind] at hnone
      cases hnone
    next => cases hm
  · rintro ⟨before, m, after, body, hmembers, hkind, hbefore⟩
    refine ⟨before, m, after, hmembers, by rw [hkind], fun other hother ↦ ?_⟩
    split
    next params body hkind => exact (hbefore other hother params body hkind).elim
    next => rfl

theorem constructSignature?_eq_some_iff {t : TypeExpr} {signature : Signature} :
    t.constructSignature? = some signature ↔
      ∃ members, t = .members members ∧ FirstConstruct members signature := by
  constructor
  · intro h
    obtain ⟨members, hmembers, hfind⟩ := Option.bind_eq_some_iff.mp h
    obtain ⟨before, m, after, hsplit, hm, hbefore⟩ := List.findSome?_eq_some_iff.mp hfind
    cases t with
    | members ms =>
        cases hmembers
        cases m with
        | construct other =>
            cases hm
            exact ⟨members, rfl, before, after, hsplit, fun other hother ↦
              nomatch hbefore _ hother⟩
        | _ => cases hm
    | _ => cases hmembers
  · rintro ⟨members, rfl, before, after, hsplit, hbefore⟩
    refine Option.bind_eq_some_iff.mpr ⟨members, rfl, ?_⟩
    refine List.findSome?_eq_some_iff.mpr ⟨before, _, after, hsplit, rfl, fun m hm ↦ ?_⟩
    cases m with
    | construct other => exact (hbefore other hm).elim
    | _ => rfl

/-- The parameters with which a plugin is constructed first, if anything constructs it. -/
def params? (s : Statement) (kind : PluginKind) : Option (List Param) :=
  match kind, s.decl with
  | .classDecl, .classDecl c => c.constructorParams?
  | .constConstructible, .variable _ (⟨_, some t⟩ :: _) =>
      t.constructSignature?.map Signature.params
  | _, _ => none

theorem params?_eq_some_iff {s : Statement} {kind : PluginKind} {params : List Param} :
    s.params? kind = some params ↔ s.ConstructedWith kind params := by
  constructor
  · intro h
    unfold params? at h
    split at h
    next c hdecl => exact .classDecl hdecl (constructorParams?_eq_some_iff.mp h)
    next keyword name t more hdecl =>
      obtain ⟨signature, hsignature, rfl⟩ := Option.map_eq_some_iff.mp h
      obtain ⟨members, rfl, hfirst⟩ := constructSignature?_eq_some_iff.mp hsignature
      exact .constant hdecl hfirst
    next => cases h
  · intro h
    unfold params?
    cases h with
    | classDecl hdecl hfirst =>
        rw [hdecl]
        exact constructorParams?_eq_some_iff.mpr hfirst
    | constant hdecl hfirst =>
        rw [hdecl]
        exact congrArg (Option.map Signature.params)
          (constructSignature?_eq_some_iff.mpr ⟨_, rfl, hfirst⟩)

theorem map_optionType? (s : Statement) (kind : PluginKind) :
    (s.optionType? kind).map Prod.snd = ((s.params? kind).bind List.head?).bind Param.type := by
  unfold optionType? params?
  cases kind with
  | classDecl =>
      match s.decl with
      | .classDecl c =>
          cases hparams : c.constructorParams? with
          | none => simp [hparams]
          | some params =>
              cases hhead : params.head? with
              | none => simp [hparams, hhead]
              | some first => cases htype : first.type <;> simp [hparams, hhead, htype]
      | .interfaceDecl _ | .aliasDecl _ | .variable .. | .function .. | .enumDecl ..
      | .moduleDecl ..
      | .importDecl _ | .importEquals .. | .exportDecl _ | .exportAssignment ..
      | .block _ | .other =>
          simp
  | constConstructible =>
      match s.decl with
      | .variable _ [] | .variable _ (⟨_, none⟩ :: _) => simp
      | .variable _ (⟨_, some t⟩ :: _) =>
          cases hsignature : t.constructSignature? with
          | none => simp [hsignature]
          | some signature =>
              cases hhead : signature.params.head? with
              | none => simp [hsignature, hhead]
              | some first => cases htype : first.type <;> simp [hsignature, hhead, htype]
      | .classDecl _ | .interfaceDecl _ | .aliasDecl _ | .function .. | .enumDecl ..
      | .moduleDecl ..
      | .importDecl _ | .importEquals .. | .exportDecl _ | .exportAssignment ..
      | .block _ | .other =>
          simp

theorem optionType?_eq_none_iff {s : Statement} {kind : PluginKind} :
    s.optionType? kind = none ↔ s.LacksOptionType kind := by
  rw [← Option.map_eq_none_iff (f := Prod.snd), map_optionType?, LacksOptionType]
  simp only [← params?_eq_some_iff]
  cases s.params? kind with
  | none => simp
  | some params =>
      cases params with
      | nil => simp
      | cons first rest => simp

end Statement

namespace Checker

theorem envAt?_isSome_iff {p : Program} {file node : Nat} :
    ((ofProgram p).envAt? file node).isSome ↔
      ∃ u, p.units[file]? = some u ∧ ∃ s ∈ u.tree.allStatements, s.id = node := by
  rw [← Binding.mem_visited_ofProgram, envAt?, Option.isSome_map, List.lookup_isSome_iff]
  simp [Binding.visited, ofProgram]

theorem optionShape?_eq_none_iff {c : Checker} {e : Entity} {u : SourceUnit} {s : Statement}
    (hu : c.program.units[e.file]? = some u) (hs : u.tree.statement? e.node = some s)
    (henv : (c.envAt? e.file e.node).isSome) :
    c.optionShape? e = none ↔ s.LacksOptionType e.kind := by
  obtain ⟨env, henv⟩ := Option.isSome_iff_exists.mp henv
  rw [← Statement.optionType?_eq_none_iff]
  cases htype : s.optionType? e.kind with
  | none => simp [optionShape?, hu, hs, henv, htype]
  | some type => simp [optionShape?, hu, hs, henv, htype]

/-- The statement of a plugin is found by its number, it has an environment, and the plugin is
without options exactly if none are written. -/
theorem statement_of_mem_entities {readJson : String → Option Json} {tree : FileTree}
    {options : CompilerOptions} {entry : Path} {p : Program}
    (h : Program.load readJson tree options entry = .ok p) {filter : String} {e : Entity}
    (he : e ∈ p.entities filter) :
    ∃ u found, p.units[e.file]? = some u ∧ found ∈ u.found ∧ u.entity? e.file found =
      some e ∧ u.tree.statement? e.node = some found.statement ∧
      ((ofProgram p).envAt? e.file e.node).isSome ∧
      ((ofProgram p).optionShape? e = none ↔ found.statement.LacksOptionType e.kind) := by
  obtain ⟨u, file, found, hu, _, hfound, hentity⟩ := Program.mem_entities.mp he
  obtain ⟨rfl, hnode, hplugin⟩ := Program.entity?_eq_some hentity
  have hids := Program.nodup_ids_of_load h (Array.mem_of_getElem? hu)
  have hall :=
    (mem_outermostMatches.mp (Program.mem_outermostMatches_of_mem_found hids hfound hplugin)).1
  have hs := u.tree.statement?_eq_some hids hall
  rw [← hnode] at hs
  have henv := envAt?_isSome_iff.mpr ⟨u, hu, found.statement, hall, hnode.symm⟩
  exact ⟨u, found, hu, hfound, hentity, hs, henv, optionShape?_eq_none_iff hu hs henv⟩

/-- A file with a plugin in a static block of a class in a dotted namespace. -/
def staticTree : FileTree := .directory [("a.ts", .file (some
  ("namespace a.b\x7bclass C\x7bstatic\x7bclass DPlugin\x7b" ++
    "constructor(o:1)\x7b\x7d\x7d\x7d\x7d\x7d")))]

theorem statement_of_mem_entities_static : ∃ p e,
    Program.load (fun _ ↦ none) staticTree .default ⟨"/a.ts"⟩ = .ok p ∧
    e ∈ p.entities "" ∧
      ∃ u found, p.units[e.file]? = some u ∧ found ∈ u.found ∧
        u.entity? e.file found = some e ∧ u.tree.statement? e.node = some found.statement ∧
        ((ofProgram p).envAt? e.file e.node).isSome ∧
        ((ofProgram p).optionShape? e = none ↔ found.statement.LacksOptionType e.kind) := by
  have hnodes :
      (Program.load (fun _ ↦ none) staticTree .default ⟨"/a.ts"⟩).toOption.map (fun p ↦
      (p.units.toList.zipIdx.flatMap fun x ↦ x.1.found.filterMap (x.1.entity? x.2)).map
        Entity.node) = some [2] := by
    decide +kernel
  obtain ⟨p, hload, hnodes⟩ := Option.map_eq_some_iff.mp hnodes
  rw [← Program.selected_empty] at hnodes
  obtain ⟨e, he, _⟩ := List.mem_map.mp (hnodes ▸ List.mem_singleton_self 2)
  have hok := toOption_eq_some.mp hload
  exact ⟨p, e, hok, he, statement_of_mem_entities hok he⟩

end Checker

end PluginSurface
