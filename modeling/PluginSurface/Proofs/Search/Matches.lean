import Mathlib.Data.List.Forall2
import PluginSurface.Proofs.Program.Loading
import PluginSurface.Search

/-!
# What the search finds

A plugin declaration is described without the search: by its name, and for a constant by its place,
its modifiers and its type. The search of a loaded program finds the plugin declarations that stand
inside no other, each once and in the order of the text.
-/

namespace PluginSurface

open Statement

/-- The statement declares a plugin of a kind under a name. -/
inductive Statement.Declares (f : SourceFile) (s : Statement) : PluginKind → Name → Prop
  | classDecl {c : ClassDecl} {name : Name} (hdecl : s.decl = .classDecl c)
      (hclass : c.name = some name) (hname : "Plugin".toList <:+ name.text.toList) :
      Declares f s .classDecl name
  | constant {keyword : VariableKeyword} {name : Name} {members : List TypeMember}
      {signature : Signature} (hs : s ∈ f.statements)
      (hmodifiers : s.modifiers = [.exported, .ambient])
      (hdecl : s.decl = .variable keyword [⟨some name, some (.members members)⟩])
      (hname : "Plugin".toList <:+ name.text.toList) (hmember : .construct signature ∈ members) :
      Declares f s .constConstructible name

def Statement.IsMatch (f : SourceFile) (s : Statement) : Prop :=
  ∃ kind name, s.Declares f kind name

/-- The statement declares a plugin and stands inside no other that does. -/
def Statement.IsOutermostMatch (f : SourceFile) (s : Statement) : Prop :=
  s.IsMatch f ∧ ∀ a ∈ f.allStatements, s.Inside a → ¬a.IsMatch f

/-! ## Findings -/

theorem isPlugin_iff {name : Name} :
    name.isPlugin = true ↔ "Plugin".toList <:+ name.text.toList :=
  String.copy_toSlice (s := name.text) ▸ String.Slice.endsWith_string_iff

theorem constructSignature?_isSome_iff {t : TypeExpr} :
    t.constructSignature?.isSome ↔
      ∃ members signature, t = .members members ∧ .construct signature ∈ members := by
  constructor
  · intro h
    obtain ⟨signature, hsignature⟩ := Option.isSome_iff_exists.mp h
    obtain ⟨members, hmembers, hfind⟩ := Option.bind_eq_some_iff.mp hsignature
    obtain ⟨m, hm, hsome⟩ := List.exists_of_findSome?_eq_some hfind
    cases t with
    | members ms =>
        cases hmembers
        cases m with
        | construct signature => exact ⟨members, signature, rfl, hm⟩
        | _ => cases hsome
    | _ => cases hmembers
  · rintro ⟨members, signature, rfl, hm⟩
    exact List.findSome?_isSome_iff.mpr ⟨_, hm, rfl⟩

theorem filter_isPlugin_eq_some_iff {n : Option Name} {name : Name} :
    n.filter Name.isPlugin = some name ↔ n = some name ∧ "Plugin".toList <:+
      name.text.toList := by
  rw [Option.filter_eq_some_iff, isPlugin_iff]

theorem classFinding_eq_plugin_iff {n : Option Name} {kind : PluginKind} {name : Name} :
    classFinding n = .plugin kind name ↔
      kind = .classDecl ∧ n = some name ∧ "Plugin".toList <:+ name.text.toList := by
  rw [← filter_isPlugin_eq_some_iff, classFinding]
  cases n.filter Name.isPlugin with
  | none => simp
  | some found => simp [eq_comm]

theorem constantFinding_eq_plugin_iff {declarators : List Declarator} {kind : PluginKind}
    {name : Name} :
    constantFinding declarators = .plugin kind name ↔
      kind = .constConstructible ∧ "Plugin".toList <:+ name.text.toList ∧
        ∃ members signature, declarators = [⟨some name, some (.members members)⟩] ∧
          .construct signature ∈ members := by
  fun_cases constantFinding declarators with
  | case1 n type found hfound hsome =>
      obtain ⟨hn, hname⟩ := filter_isPlugin_eq_some_iff.mp hfound
      obtain ⟨signature, hsignature⟩ := Option.isSome_iff_exists.mp hsome
      obtain ⟨t, ht, hsignature⟩ := Option.bind_eq_some_iff.mp hsignature
      obtain ⟨members, inner, rfl, hmember⟩ :=
        constructSignature?_isSome_iff.mp (Option.isSome_of_mem hsignature)
      constructor
      · rintro h
        cases h
        exact ⟨rfl, hname, members, inner, by rw [hn, ht], hmember⟩
      · rintro ⟨rfl, _, members', _, hdeclarators, _⟩
        rw [hn] at hdeclarators
        simp at hdeclarators
        rw [hdeclarators.1]
  | case2 n type found hfound hnone =>
      refine ⟨fun h ↦ (nomatch h), ?_⟩
      rintro ⟨rfl, _, members, signature, hdeclarators, hmember⟩
      refine absurd ?_ hnone
      simp at hdeclarators
      rw [hdeclarators.2]
      exact constructSignature?_isSome_iff.mpr ⟨members, signature, rfl, hmember⟩
  | case3 n type hnone =>
      refine ⟨fun h ↦ (nomatch h), ?_⟩
      rintro ⟨rfl, hname, members, signature, hdeclarators, _⟩
      simp at hdeclarators
      rw [filter_isPlugin_eq_some_iff.mpr ⟨hdeclarators.1, hname⟩] at hnone
      cases hnone
  | case4 _ hmany found hfound =>
      refine ⟨fun h ↦ (nomatch h), ?_⟩
      rintro ⟨_, _, members, _, hdeclarators, _⟩
      exact (hmany _ _ hdeclarators).elim
  | case5 _ hmany hnone =>
      refine ⟨fun h ↦ (nomatch h), ?_⟩
      rintro ⟨_, _, members, _, hdeclarators, _⟩
      exact (hmany _ _ hdeclarators).elim

section

variable {f : SourceFile}

/-- The search takes a statement for a plugin exactly when it declares one. -/
theorem finding_eq_plugin_iff {s : Statement} {outermost : Bool}
    (houtermost : outermost = true ↔ s ∈ f.statements) {kind : PluginKind} {name : Name} :
    s.finding outermost = .plugin kind name ↔ s.Declares f kind name := by
  constructor
  · intro h
    unfold finding at h
    split at h
    next c hdecl =>
      obtain ⟨rfl, hclass, hname⟩ := classFinding_eq_plugin_iff.mp h
      exact .classDecl hdecl hclass hname
    next keyword declarators hdecl =>
      split at h
      next hplace =>
        obtain ⟨rfl, hname, members, signature, rfl, hmember⟩ :=
          constantFinding_eq_plugin_iff.mp h
        exact .constant (houtermost.mp hplace.1) hplace.2 hdecl hname hmember
      next => cases h
    next => cases h
  · intro h
    unfold finding
    cases h with
    | classDecl hdecl hclass hname =>
        simp only [hdecl]
        exact classFinding_eq_plugin_iff.mpr ⟨rfl, hclass, hname⟩
    | constant hs hmodifiers hdecl hname hmember =>
        simp only [hdecl, houtermost.mpr hs, hmodifiers, and_self, if_true]
        exact constantFinding_eq_plugin_iff.mpr ⟨rfl, hname, _, _, rfl, hmember⟩

def Found.plugin? (found : Found) : Option Statement :=
  match found.finding with
  | .plugin .. => some found.statement
  | _ => none

theorem mem_withInner {s : Statement} {outermost : Bool} {inner : List Found} {found : Found}
    (h : found ∈ s.withInner outermost inner) :
    found = ⟨s, s.finding outermost⟩ ∨ found ∈ inner := by
  rcases List.mem_cons.mp h with h | h
  · exact .inl h
  · split at h
    · cases h
    · exact .inr h

open scoped Classical in
/-- The plugins in a statement are itself, if it declares one, and else those inside it. -/
theorem filterMap_withInner {s : Statement} {outermost : Bool}
    (houtermost : outermost = true ↔ s ∈ f.statements) (inner : List Found) :
    (s.withInner outermost inner).filterMap Found.plugin? =
      if s.IsMatch f then [s] else inner.filterMap Found.plugin? := by
  have hmatch : s.IsMatch f ↔ ∃ kind name, s.finding outermost = .plugin kind name := by
    simp only [finding_eq_plugin_iff houtermost]
    rfl
  unfold withInner
  cases hfinding : s.finding outermost with
  | plugin kind name => simp [hmatch, hfinding, Found.plugin?]
  | bundled name => simp [hmatch, hfinding, Found.plugin?, List.filterMap_cons]
  | other => simp [hmatch, hfinding, Found.plugin?, List.filterMap_cons]

open scoped Classical in
/-- The outermost declarations in the tree of a statement that stands inside none are itself, or
else those in the trees of its children. -/
theorem filter_subtree {s : Statement} (hs : s ∈ f.allStatements)
    (haround : ∀ a ∈ f.allStatements, s.Inside a → ¬a.IsMatch f) :
    s.subtree.filter (fun t ↦ t.IsOutermostMatch f) =
      if s.IsMatch f then [s]
      else s.children.flatMap fun c ↦ c.subtree.filter fun t ↦ t.IsOutermostMatch f := by
  rw [subtree_eq]
  by_cases hmatch : s.IsMatch f
  · have hrest : (s.children.flatMap subtree).filter (fun t ↦ t.IsOutermostMatch f) = [] := by
      rw [List.filter_eq_nil_iff]
      intro t ht
      obtain ⟨c, hc, htc⟩ := List.mem_flatMap.mp ht
      have hinside : t.Inside s := by
        rcases mem_subtree_iff.mp htc with rfl | htc
        · exact .child hc
        · exact .deeper hc htc
      rw [decide_eq_true_eq]
      exact fun hout ↦ hout.2 s hs hinside hmatch
    have hout : s.IsOutermostMatch f := ⟨hmatch, haround⟩
    rw [if_pos hmatch, List.filter_cons_of_pos (by simpa using hout), hrest]
  · have hout : ¬s.IsOutermostMatch f := fun h ↦ hmatch h.1
    rw [if_neg hmatch, List.filter_cons_of_neg (by simpa using hout), List.filter_flatMap]

variable (hf : (f.allStatements.map Statement.id).Nodup)

include hf

open scoped Classical in
/-- One step of the search: it finds the outermost declarations in a tree if it does in the trees of
the children. -/
theorem filterMap_withInner_children {s : Statement} {outermost : Bool}
    (houtermost : outermost = true ↔ s ∈ f.statements) (hs : s ∈ f.allStatements)
    (haround : ∀ a ∈ f.allStatements, s.Inside a → ¬a.IsMatch f)
    (hchildren : ∀ c ∈ s.children, (∀ a ∈ f.allStatements, c.Inside a → ¬a.IsMatch f) →
      c.nested.filterMap Found.plugin? = c.subtree.filter fun t ↦ t.IsOutermostMatch f) :
    (s.withInner outermost (s.children.flatMap nested)).filterMap Found.plugin? =
      s.subtree.filter fun t ↦ t.IsOutermostMatch f := by
  rw [filterMap_withInner houtermost, filter_subtree hs haround]
  by_cases hmatch : s.IsMatch f
  · rw [if_pos hmatch, if_pos hmatch]
  rw [if_neg hmatch, if_neg hmatch, List.filterMap_flatMap]
  refine List.flatMap_congr fun c hc ↦ hchildren c hc fun a ha hca ↦ ?_
  rcases (f.child_inside_iff hf hs hc ha).mp hca with rfl | hsa
  · exact hmatch
  · exact haround a ha hsa

open scoped Classical in
/-- Where no statement around `s` declares a plugin, the search of `s` finds the outermost
declarations in its tree. -/
theorem filterMap_nested {s : Statement} (hs : s ∈ f.allStatements) (hinner : s ∉ f.statements)
    (haround : ∀ a ∈ f.allStatements, s.Inside a → ¬a.IsMatch f) :
    s.nested.filterMap Found.plugin? = s.subtree.filter fun t ↦ t.IsOutermostMatch f := by
  induction s using children_induction with
  | h s ih =>
      rw [nested_eq]
      refine filterMap_withInner_children hf (by simpa using hinner) hs haround fun c hc ↦ ?_
      exact ih c hc (f.mem_allStatements_of_mem_children hs hc)
        (f.not_mem_statements_of_mem_children hf hs hc)

open scoped Classical in
/-- The search of a text finds its outermost declarations, in their order. -/
theorem filterMap_found :
    (f.statements.flatMap Statement.found).filterMap Found.plugin? =
      f.allStatements.filter fun t ↦ t.IsOutermostMatch f := by
  rw [SourceFile.allStatements, List.filterMap_flatMap, List.filter_flatMap]
  refine List.flatMap_congr fun s hs ↦ ?_
  have hall := f.mem_allStatements_of_mem_statements hs
  have haround (a : Statement) (ha : a ∈ f.allStatements) (hsa : s.Inside a) : ¬a.IsMatch f :=
    absurd hsa (f.not_inside_of_mem_statements hf hs ha)
  refine filterMap_withInner_children hf (by simpa using hs) hall haround fun c hc ↦ ?_
  exact filterMap_nested hf (f.mem_allStatements_of_mem_children hall hc)
    (f.not_mem_statements_of_mem_children hf hall hc)

omit hf in
theorem finding_of_mem_nested {s : Statement} {found : Found} (h : found ∈ s.nested) :
    found.statement ∈ s.subtree ∧ found.finding = found.statement.finding false := by
  induction s using children_induction with
  | h s ih =>
      rw [nested_eq] at h
      rcases mem_withInner h with rfl | h
      · exact ⟨self_mem_subtree s, rfl⟩
      obtain ⟨c, hc, hfound⟩ := List.mem_flatMap.mp h
      obtain ⟨hmem, hfinding⟩ := ih c hc hfound
      exact ⟨mem_subtree_trans hmem (mem_subtree_iff.mpr (.inr (.child hc))), hfinding⟩

/-- The kind and name of a plugin that is found are those that its statement declares. -/
theorem declares_of_mem_found {found : Found} {kind : PluginKind} {name : Name}
    (h : found ∈ f.statements.flatMap Statement.found)
    (hfinding : found.finding = .plugin kind name) :
    found.statement ∈ f.allStatements ∧ found.statement.Declares f kind name := by
  obtain ⟨s, hs, hfound⟩ := List.mem_flatMap.mp h
  have hall := f.mem_allStatements_of_mem_statements hs
  rcases mem_withInner hfound with rfl | hfound
  · exact ⟨hall, (finding_eq_plugin_iff (by simpa using hs)).mp hfinding⟩
  obtain ⟨c, hc, hnested⟩ := List.mem_flatMap.mp hfound
  obtain ⟨hmem, heq⟩ := finding_of_mem_nested hnested
  have hinside : found.statement.Inside s := by
    rcases mem_subtree_iff.mp hmem with h | h
    · exact h ▸ .child hc
    · exact .deeper hc h
  have hinner : found.statement ∉ f.statements :=
    fun h ↦ f.not_inside_of_mem_statements hf h hall hinside
  rw [heq] at hfinding
  exact ⟨f.mem_allStatements_of_mem_subtree hall (mem_subtree_iff.mpr (.inr hinside)),
    (finding_eq_plugin_iff (by simpa using hinner)).mp hfinding⟩

end

end PluginSurface
