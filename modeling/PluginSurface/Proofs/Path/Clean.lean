import PluginSurface.Proofs.Path.Components

/-!
# Clean paths

A clean path has two dots at the root only, so it is what normalizing would make of it. Names
without two dots between their slashes lead from clean paths to clean ones, as does going up.
-/

namespace PluginSurface.Path

/-! ## Normal components -/

namespace IsNormal

variable {cs parts : List Component}

theorem of_prefix (h : IsNormal cs) (hfront : .root :: parts <+: cs) :
    IsNormal (.root :: parts) := by
  have htake {names : List String} (hnames : ∀ n ∈ names, IsName n) {front : List Component}
      (hkept : front <+: names.map .name) :
      ∃ kept : List String, (∀ n ∈ kept, IsName n) ∧ front = kept.map .name := by
    refine ⟨names.take front.length, fun n hn ↦ hnames n (List.mem_of_mem_take hn), ?_⟩
    rw [List.map_take]
    exact List.prefix_iff_eq_take.mp hkept
  obtain ⟨names, hnames, rfl | rfl⟩ := h
  · obtain ⟨kept, hkept, rfl⟩ := htake hnames ((List.prefix_cons_inj _).mp hfront)
    exact ⟨kept, hkept, .inl rfl⟩
  · rcases List.prefix_cons_iff.mp ((List.prefix_cons_inj _).mp hfront)
      with rfl | ⟨front, rfl, h⟩
    · exact ⟨[], nofun, .inl rfl⟩
    · obtain ⟨kept, hkept, rfl⟩ := htake hnames h
      exact ⟨kept, hkept, .inr rfl⟩

theorem append (h : IsNormal cs) {more : List String} (hmore : ∀ n ∈ more, IsName n) :
    IsNormal (cs ++ more.map .name) := by
  obtain ⟨names, hnames, hcs⟩ := h
  refine ⟨names ++ more, ?_, hcs.imp ?_ ?_⟩
  · simpa [or_imp, forall_and] using ⟨hnames, hmore⟩
  · rintro rfl
    simp
  · rintro rfl
    simp

theorem normalComponents_eq (h : IsNormal cs) : normalComponents cs = cs := by
  obtain ⟨names, -, rfl | rfl⟩ := h
  · exact foldl_keep_names [.root] names
  · exact foldl_keep_names [.root, .parent] names

end IsNormal

/-! ## Level names -/

/-- No stretch of the name is two dots. -/
def IsLevel (name : String) : Prop := ∀ s ∈ stretches name.toList, s ≠ ['.', '.']

instance (name : String) : Decidable (IsLevel name) :=
  inferInstanceAs (Decidable (∀ s ∈ stretches name.toList, _))

theorem exists_names {ss : List (List Char)} (hslash : ∀ s ∈ ss, '/' ∉ s)
    (hdots : ∀ s ∈ ss, s ≠ ['.', '.']) :
    ∃ names : List String, (∀ n ∈ names, IsName n) ∧ ss.filterMap component? =
      names.map .name := by
  induction ss with
  | nil => exact ⟨[], nofun, rfl⟩
  | cons s rest ih =>
      obtain ⟨names, hnames, hrest⟩ := ih (fun t ht ↦ hslash t (List.mem_cons_of_mem _ ht))
        fun t ht ↦ hdots t (List.mem_cons_of_mem _ ht)
      rw [List.filterMap_cons, hrest]
      rcases component?_cases s with hc | hc | hc
      · exact ⟨names, hnames, by rw [hc]⟩
      · exact absurd (component?_eq_parent_iff.mp hc) (hdots s List.mem_cons_self)
      · have hname := isName_of_component? (hslash s List.mem_cons_self) hc
        exact ⟨.ofList s :: names, List.forall_mem_cons.mpr
          ⟨hname, hnames⟩, by rw [hc]; rfl⟩

theorem exists_names_of_isLevel {name : String} (h : IsLevel name) :
    ∃ names : List String, (∀ n ∈ names, IsName n) ∧ partsOf name = names.map .name :=
  exists_names (fun _ ↦ not_mem_of_mem_stretches) h

/-! ## Clean paths -/

/-- An absolute path with two dots at the root only. -/
structure IsClean (p : Path) : Prop where
  absolute : p.isAbsolute = true
  normal : IsNormal p.components

/-- The path has two dots behind the root. -/
def IsAboveRoot (p : Path) : Prop := ∃ cs, p.components = .root :: .parent :: cs

theorem not_isAboveRoot {p : Path} {names : List String}
    (h : p.components = .root :: names.map .name) : ¬p.IsAboveRoot := by
  rintro ⟨cs, hcs⟩
  rw [hcs] at h
  cases names <;> cases h

theorem isClean_normalize {p : Path} (h : p.isAbsolute = true) : p.normalize.IsClean := by
  obtain ⟨habsolute, hnormal⟩ := isNormal_normalize h
  exact ⟨habsolute, hnormal⟩

theorem components_names {names : List String} (hnames : ∀ n ∈ names, IsName n) :
    (fromRoot (names.map String.toList)).components = .root :: names.map .name := by
  rw [components_fromRoot, List.filterMap_map, ← List.filterMap_eq_map]
  · exact congrArg _ (List.filterMap_congr fun n hn ↦ (hnames n hn).2)
  · intro s hs
    obtain ⟨n, hn, rfl⟩ := List.mem_map.mp hs
    exact (hnames n hn).1

theorem isClean_fromRoot {names : List String} (hnames : ∀ n ∈ names, IsName n) :
    (fromRoot (names.map String.toList)).IsClean :=
  ⟨isAbsolute_fromRoot _, names, hnames, .inl (components_names hnames)⟩

namespace IsClean

variable {p q : Path} (h : p.IsClean)

include h

theorem components_normalize : p.normalize.components = p.components := by
  rw [normalize, h.normal.normalComponents_eq]
  exact h.normal.components.2

theorem join {name : String} (hname : IsLevel name) : (p.join ⟨name⟩).IsClean := by
  obtain ⟨names, hnames, hparts⟩ := exists_names_of_isLevel hname
  cases habsolute : (⟨name⟩ : Path).isAbsolute with
  | true =>
      rw [Path.join, if_pos habsolute]
      exact ⟨habsolute, names, hnames, .inl (hparts ▸ components_absolute habsolute)⟩
  | false =>
      refine ⟨isAbsolute_join h.absolute _, ?_⟩
      rw [components_join h.absolute habsolute, hparts]
      exact h.normal.append hnames

theorem of_mem_ancestors (hq : q ∈ p.ancestors) : q.IsClean := by
  obtain ⟨cs, hcs, hfront⟩ := exists_of_mem_ancestors h.absolute hq
  exact ⟨isAbsolute_of_mem_ancestors h.absolute hq, hcs ▸ h.normal.of_prefix hfront⟩

/-- Names behind the directory of a clean path. -/
theorem rooted_concat {front : List (List Char)} {last : List Char}
    (hfront : ∀ s ∈ front, '/' ∉ s)
    (hlast : '/' ∉ last) (hp : p = rooted (front ++ [last])) {name : String}
    (hname : IsName name) : (rooted (front ++ [name.toList])).IsClean := by
  have hsingle {s : List Char} (hs : '/' ∉ s) : ∀ t ∈ front ++ [s], '/' ∉ t := by
    simpa [or_imp, forall_and] using ⟨hfront, hs⟩
  have hnormal := h.normal
  rw [hp, components_rooted (by simp) (hsingle hlast), List.filterMap_append] at hnormal
  have houter : IsNormal (.root :: front.filterMap component?) :=
    hnormal.of_prefix ((List.prefix_cons_inj _).mpr (List.prefix_append _ _))
  refine ⟨isAbsolute_rooted (by simp), ?_⟩
  have hnames : ∀ n ∈ [name], IsName n := by simpa using hname
  rw [components_rooted (by simp) (hsingle hname.1), List.filterMap_append, List.filterMap_cons,
    hname.2]
  exact houter.append hnames

end IsClean

end PluginSurface.Path
