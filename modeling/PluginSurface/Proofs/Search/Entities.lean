import Mathlib.Data.List.Infix
import PluginSurface.Proofs.Search.Matches

/-!
# The plugins of a program

The search of a loaded program answers one plugin for each declaration that it should find, in the
order of the files and of the text.
-/

namespace PluginSurface

/-- The plugin is the one that the statement `s` of the unit at place `file` declares. -/
structure Entity.Describes (e : Entity) (u : SourceUnit) (file : Nat) (s : Statement) : Prop where
  file_eq : e.file = file
  node_eq : e.node = s.id
  declares : ∃ name, s.Declares u.tree e.kind name ∧ e.name = name.text ∧
    e.location = u.locationOf name

open scoped Classical in
/-- The plugin declarations of a unit that stand inside no other, in the order of the text. -/
noncomputable def SourceUnit.outermostMatches (u : SourceUnit) : List Statement :=
  u.tree.allStatements.filter fun s ↦ s.IsOutermostMatch u.tree

theorem mem_outermostMatches {u : SourceUnit} {s : Statement} :
    s ∈ u.outermostMatches ↔ s ∈ u.tree.allStatements ∧ s.IsOutermostMatch u.tree := by
  simp [SourceUnit.outermostMatches]

namespace Program

/-- The plugin declarations that stand inside no other, in the files whose path contains the
filter. -/
noncomputable def outermostMatches (p : Program) (filter : String) :
    List (SourceUnit × Nat × Statement) :=
  (p.units.toList.zipIdx.filter fun (u, _) ↦ filter.toList <:+: u.path.text.toList).flatMap
    fun (u, file) ↦ u.outermostMatches.map fun s ↦ (u, file, s)

/-- What a search of a program has to answer. -/
structure IsSearch (p : Program) (filter : String) (es : List Entity) : Prop where
  /-- The plugins are the declarations that are to be found, in their order. -/
  complete :
    List.Forall₂ (fun e (u, file, s) ↦ e.Describes u file s) es (p.outermostMatches filter)
  /-- No statement is counted twice. -/
  nodup : (es.map fun e ↦ (e.file, e.node)).Nodup
  /-- No plugin stands in the tree of another. -/
  apart : ∀ e ∈ es, ∀ e' ∈ es, e ≠ e' → e.file = e'.file →
    ∀ u, p.units[e.file]? = some u →
    ∀ s s', u.tree.statement? e.node = some s → u.tree.statement? e'.node = some s' →
      s' ∉ s.subtree
  /-- A filter leaves the plugins in the files that it selects. -/
  restricted : es = (p.entities "").filter fun e ↦
    p.units[e.file]?.any fun u ↦ filter.toList <:+: u.path.text.toList

/-! ## The search in one file -/

section

variable {u : SourceUnit} {file : Nat} (hu : (u.tree.allStatements.map Statement.id).Nodup)

include hu

theorem describes_entity? {found : Found} (hfound : found ∈ u.found) :
    Option.Rel (fun e (u, file, s) ↦ Entity.Describes e u file s) (u.entity? file found)
      (found.plugin?.map fun s ↦ (u, file, s)) := by
  unfold SourceUnit.entity? Found.plugin?
  cases hfinding : found.finding with
  | plugin kind name =>
      have hdeclares := (declares_of_mem_found hu hfound hfinding).2
      exact .some ⟨rfl, rfl, name, hdeclares, rfl, rfl⟩
  | bundled name => exact .none
  | other => exact .none

theorem forall₂_entity? :
    List.Forall₂ (fun e (u, file, s) ↦ Entity.Describes e u file s)
      (u.found.filterMap (u.entity? file)) (u.outermostMatches.map fun s ↦ (u, file, s)) := by
  rw [SourceUnit.outermostMatches, ← filterMap_found hu, List.map_filterMap]
  have hsame : List.Forall₂ (fun x y ↦ x = y ∧ x ∈ u.found) u.found u.found :=
    List.forall₂_same.mpr fun x hx ↦ ⟨rfl, hx⟩
  refine List.rel_filterMap ?_ hsame
  rintro found _ ⟨rfl, hfound⟩
  exact describes_entity? hu hfound

theorem mem_outermostMatches_of_mem_found {found : Found} {s : Statement}
    (hfound : found ∈ u.found) (hplugin : found.plugin? = some s) : s ∈ u.outermostMatches := by
  rw [SourceUnit.outermostMatches, ← filterMap_found hu]
  exact List.mem_filterMap.mpr ⟨found, hfound, hplugin⟩

theorem nodup_outermostMatches : (u.outermostMatches.map Statement.id).Nodup :=
  hu.sublist (List.filter_sublist.map Statement.id)

end

/-! ## The search in a program -/

theorem isSelected_iff {filter : String} {u : SourceUnit} :
    u.isSelected filter = true ↔ filter.toList <:+: u.path.text.toList :=
  String.contains_string_iff

theorem selected_empty (p : Program) : p.selected "" = p.units.toList.zipIdx :=
  List.filter_eq_self.mpr fun _ _ ↦ isSelected_iff.mpr List.nil_infix

theorem entities_empty (p : Program) : p.entities "" =
    p.units.toList.zipIdx.flatMap fun x ↦ x.1.found.filterMap (x.1.entity? x.2) := by
  rw [entities, selected_empty]

theorem mem_units_of_mem_zipIdx {p : Program} {u : SourceUnit} {file : Nat}
    (h : (u, file) ∈ p.units.toList.zipIdx) : p.units[file]? = some u := by
  simpa using List.mem_zipIdx_iff_getElem?.mp h

theorem mem_entities {p : Program} {filter : String} {e : Entity} :
    e ∈ p.entities filter ↔ ∃ (u : SourceUnit) (file : Nat) (found : Found),
    p.units[file]? = some u ∧
      u.isSelected filter = true ∧ found ∈ u.found ∧ u.entity? file found = some e := by
  simp only [entities, selected, List.mem_flatMap, List.mem_filterMap, List.mem_filter,
    List.mem_zipIdx_iff_getElem?, Array.getElem?_toList]
  constructor
  · rintro ⟨⟨u, file⟩, ⟨hu, hselected⟩, found, hfound, he⟩
    exact ⟨u, file, found, hu, hselected, hfound, he⟩
  · rintro ⟨u, file, found, hu, hselected, hfound, he⟩
    exact ⟨⟨u, file⟩, ⟨hu, hselected⟩, found, hfound, he⟩

theorem entity?_eq_some {u : SourceUnit} {file : Nat} {found : Found} {e : Entity}
    (h : u.entity? file found = some e) :
    e.file = file ∧ e.node = found.statement.id ∧ found.plugin? = some found.statement := by
  unfold SourceUnit.entity? at h
  split at h
  next hfinding =>
    cases h
    exact ⟨rfl, rfl, by rw [Found.plugin?, hfinding]⟩
  next => cases h

theorem file_of_mem_filterMap {u : SourceUnit} {file : Nat} {founds : List Found} {e : Entity}
    (h : e ∈ founds.filterMap (u.entity? file)) : e.file = file := by
  obtain ⟨found, _, he⟩ := List.mem_filterMap.mp h
  exact (entity?_eq_some he).1

theorem flatMap_filter {α β : Type} {c : α → Bool} {q : β → Bool} {g : α → List β}
    {xs : List α} (h : ∀ x ∈ xs, ∀ y ∈ g x, q y = c x) :
    (xs.filter c).flatMap g = (xs.flatMap g).filter q := by
  induction xs with
  | nil => rfl
  | cons x rest ih =>
      have hx := h x List.mem_cons_self
      rw [List.flatMap_cons, List.filter_append, ← ih fun y hy ↦
        h y (List.mem_cons_of_mem _ hy)]
      by_cases hc : c x = true
      · rw [List.filter_cons_of_pos hc, List.flatMap_cons,
          List.filter_eq_self.mpr fun y hy ↦ (hx y hy).trans hc]
      · have hnone : (g x).filter q = [] :=
          List.filter_eq_nil_iff.mpr fun y hy ↦ by rwa [hx y hy]
        rw [List.filter_cons_of_neg hc, hnone, List.nil_append]

theorem entities_eq_filter (p : Program) (filter : String) :
    p.entities filter = (p.entities "").filter fun e ↦
      p.units[e.file]?.any fun u ↦ filter.toList <:+: u.path.text.toList := by
  unfold entities
  rw [selected_empty, selected]
  refine flatMap_filter fun x hx e he ↦ ?_
  rw [file_of_mem_filterMap he, mem_units_of_mem_zipIdx hx, Option.any_some, Bool.eq_iff_iff,
    decide_eq_true_eq, isSelected_iff]

section

variable {p : Program} (hp : ∀ u ∈ p.units, (u.tree.allStatements.map Statement.id).Nodup)

include hp

theorem forall₂_entities (filter : String) :
    List.Forall₂ (fun e (u, file, s) ↦ Entity.Describes e u file s) (p.entities filter)
      (p.outermostMatches filter) := by
  have hselected : p.selected filter =
      p.units.toList.zipIdx.filter fun (u, _) ↦ filter.toList <:+: u.path.text.toList := by
    refine List.filter_congr fun x _ ↦ ?_
    rw [Bool.eq_iff_iff, isSelected_iff, decide_eq_true_eq]
  rw [entities, outermostMatches, hselected]
  refine List.rel_flatMap (R := fun x y ↦ x = y ∧ x ∈ p.units.toList.zipIdx) ?_ ?_
  · exact List.forall₂_same.mpr fun x hx ↦ ⟨rfl, List.mem_of_mem_filter hx⟩
  · rintro ⟨u, file⟩ _ ⟨rfl, hx⟩
    have hu := mem_units_of_mem_zipIdx hx
    exact forall₂_entity? (hp u (Array.mem_of_getElem? hu))

/-- The files of the plugins and their statements are those of the declarations to be found. -/
theorem map_entities (filter : String) :
    (p.entities filter).map (fun e ↦ (e.file, e.node)) =
      (p.outermostMatches filter).map fun (_, file, s) ↦ (file, s.id) := by
  rw [← List.forall₂_eq_eq_eq, List.forall₂_map_left_iff, List.forall₂_map_right_iff]
  refine (forall₂_entities hp filter).imp fun e x h ↦ ?_
  exact Prod.ext h.file_eq h.node_eq

theorem nodup_places (filter : String) :
    ((p.entities filter).map fun e ↦ (e.file, e.node)).Nodup := by
  rw [map_entities hp, outermostMatches, List.map_flatMap, List.nodup_flatMap]
  constructor
  · rintro ⟨u, file⟩ hx
    have hu := mem_units_of_mem_zipIdx (List.mem_of_mem_filter hx)
    have hids := nodup_outermostMatches (hp u (Array.mem_of_getElem? hu))
    have hpairs := hids.map (f := fun id ↦ (file, id)) fun _ _ h ↦ (Prod.mk.inj h).2
    rw [List.map_map] at hpairs ⊢
    exact hpairs
  · have hfiles : p.units.toList.zipIdx.Pairwise fun x y ↦ x.2 ≠ y.2 := by
      rw [← List.pairwise_map (R := (· ≠ ·)), List.zipIdx_map_snd]
      exact List.nodup_range'
    refine (hfiles.sublist List.filter_sublist).imp fun hne z hx hy ↦ hne ?_
    simp only [List.mem_map] at hx hy
    obtain ⟨_, ⟨_, _, rfl⟩, rfl⟩ := hx
    obtain ⟨_, ⟨_, _, rfl⟩, heq⟩ := hy
    exact (Prod.mk.inj heq).1.symm

/-- A plugin is an outermost declaration of its file. -/
theorem isOutermostMatch_of_mem_entities {filter : String} {e : Entity} {u : SourceUnit}
    {s : Statement} (he : e ∈ p.entities filter) (hu : p.units[e.file]? = some u)
    (hs : u.tree.statement? e.node = some s) :
    s ∈ u.tree.allStatements ∧ s.id = e.node ∧ s.IsOutermostMatch u.tree := by
  obtain ⟨u', file, found, hu', _, hfound, he⟩ := mem_entities.mp he
  obtain ⟨rfl, hnode, hplugin⟩ := entity?_eq_some he
  obtain rfl := Option.some.inj (hu.symm.trans hu')
  have hids := hp u (Array.mem_of_getElem? hu)
  obtain ⟨hall, hout⟩ :=
    mem_outermostMatches.mp (mem_outermostMatches_of_mem_found hids hfound hplugin)
  have hself := u.tree.statement?_eq_some hids hall
  rw [hnode, hself] at hs
  obtain rfl := Option.some.inj hs
  exact ⟨hall, hnode.symm, hout⟩

theorem not_mem_subtree_of_mem_entities {filter : String} {e e' : Entity} {u : SourceUnit}
    {s s' : Statement} (he : e ∈ p.entities filter) (he' : e' ∈ p.entities filter)
    (hne : e ≠ e') (hfile : e.file = e'.file) (hu : p.units[e.file]? = some u)
    (hs : u.tree.statement? e.node = some s) (hs' : u.tree.statement? e'.node = some s') :
    s' ∉ s.subtree := by
  obtain ⟨hall, hid, hout⟩ := isOutermostMatch_of_mem_entities hp he hu hs
  obtain ⟨_, hid', hout'⟩ := isOutermostMatch_of_mem_entities hp he' (hfile ▸ hu) hs'
  intro hmem
  rcases Statement.mem_subtree_iff.mp hmem with rfl | hinside
  · refine hne (List.inj_on_of_nodup_map (nodup_places hp filter) he he' ?_)
    exact Prod.ext hfile (hid.symm.trans hid')
  · exact hout'.2 s hall hinside hout.1

end

theorem isSearch_entities {readJson : String → Option Json} {tree : FileTree}
    {options : CompilerOptions} {entry : Path} {p : Program}
    (h : load readJson tree options entry = .ok p) (filter : String) :
    p.IsSearch filter (p.entities filter) := by
  have hp := fun u hu ↦ nodup_ids_of_load h (u := u) hu
  constructor
  · exact forall₂_entities hp filter
  · exact nodup_places hp filter
  · exact fun e he e' he' hne hfile u hu s s' hs hs' ↦
      not_mem_subtree_of_mem_entities hp he he' hne hfile hu hs hs'
  · exact entities_eq_filter p filter

/-- A file with a plugin in a method of a class that is none, and one more inside this plugin. -/
def nestedTree : FileTree := .directory [("a.ts", .file (some
  "class A\x7bm()\x7bclass BPlugin\x7bn()\x7bclass CPlugin\x7b\x7d\x7d\x7d\x7d\x7d"))]

theorem isSearch_nested : ∃ p, load (fun _ ↦ none) nestedTree .default ⟨"/a.ts"⟩ = .ok p ∧
    p.IsSearch "" (p.entities "") ∧ (p.entities "").map Entity.node = [1] := by
  have hnodes : (load (fun _ ↦ none) nestedTree .default ⟨"/a.ts"⟩).toOption.map (fun p ↦
      (p.units.toList.zipIdx.flatMap fun (u, file) ↦ u.found.filterMap (u.entity? file)).map
        Entity.node) = some [1] := by
    decide +kernel
  obtain ⟨p, hload, hnodes⟩ := Option.map_eq_some_iff.mp hnodes
  have hok := toOption_eq_some.mp hload
  refine ⟨p, hok, isSearch_entities hok "", ?_⟩
  rw [entities_empty]
  exact hnodes

end Program

end PluginSurface
