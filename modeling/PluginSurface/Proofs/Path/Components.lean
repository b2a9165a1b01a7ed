import Mathlib.Data.List.TakeWhile
import PluginSurface.Proofs.Path.Stretches

/-!
# The components of an absolute path

Joining, going up and normalizing change the components of a path in a way that does not depend on
how the path is written.
-/

namespace PluginSurface.Path

/-! ## Absolute paths -/

theorem exists_rooted {p : Path} (h : p.isAbsolute = true) :
    ∃ parts, parts ≠ [] ∧ (∀ s ∈ parts, '/' ∉ s) ∧ p = rooted parts := by
  obtain ⟨text⟩ := p
  obtain ⟨s, rest, hrest⟩ := isAbsolute_iff.mp h
  have hflat : '/' :: (s :: rest).flatMap ('/' :: ·) = '/' :: text.toList := by
    rw [← flatMap_stretches text.toList, hrest]
    rfl
  refine ⟨s :: rest, List.cons_ne_nil _ _, fun t ht ↦ ?_, ?_⟩
  · exact not_mem_of_mem_stretches (hrest ▸ List.mem_cons_of_mem _ ht)
  · rw [rooted, (List.cons.inj hflat).2, String.ofList_toList]

theorem components_eq {p : Path} (h : p.isAbsolute = true) :
    p.components = .root :: (stretches p.text.toList).filterMap component? := by
  simp [components, h]

theorem isPart_of_component? {s : List Char} {c : Component} (hs : '/' ∉ s)
    (h : component? s = some c) : c.IsPart := by
  rcases component?_cases s with hc | hc | hc <;> rw [hc] at h <;> cases h
  · exact .inl rfl
  · exact .inr ⟨_, rfl, isName_of_component? hs hc⟩

theorem isPart_of_mem_filterMap {cs : List Char} {c : Component}
    (h : c ∈ (stretches cs).filterMap component?) : c.IsPart := by
  obtain ⟨s, hs, hc⟩ := List.mem_filterMap.mp h
  exact isPart_of_component? (not_mem_of_mem_stretches hs) hc

/-! ## Joining -/

/-- The components that a text stands for behind a path. -/
def partsOf (text : String) : List Component := (stretches text.toList).filterMap component?

theorem partsOf_text {c : Component} (h : c.IsPart) : partsOf c.text = [c] := by
  rw [partsOf, h.stretches_text, List.filterMap_cons, h.component?_text]
  rfl

theorem partsOf_name {name : String} (h : IsName name) : partsOf name = [.name name] :=
  partsOf_text (.inr ⟨name, rfl, h⟩)

variable {p : Path} (hp : p.isAbsolute = true)

include hp

theorem isAbsolute_join (q : Path) : (p.join q).isAbsolute = true := by
  cases hq : q.isAbsolute with
  | true => rwa [join, if_pos hq]
  | false =>
      obtain ⟨parts, hne, hparts, rfl⟩ := exists_rooted hp
      rw [join_rooted hne hparts hq]
      exact isAbsolute_rooted (extend_ne_nil _ (stretches_ne_nil _))

theorem components_join {text : String} (htext : (⟨text⟩ : Path).isAbsolute = false) :
    (p.join ⟨text⟩).components = p.components ++ partsOf text := by
  obtain ⟨parts, hne, hparts, rfl⟩ := exists_rooted hp
  rw [join_rooted hne hparts htext,
    components_rooted (extend_ne_nil _ (stretches_ne_nil _)) fun _ ↦ not_mem_of_mem_extend hparts,
    components_rooted hne hparts, List.cons_append, partsOf, ← List.filterMap_append]
  unfold extend
  split
  next hlast =>
    obtain ⟨front, rfl⟩ : ∃ front, parts = front ++ [[]] :=
      ⟨parts.dropLast, (List.dropLast_append_getLast? [] hlast).symm⟩
    rw [List.dropLast_concat, List.append_assoc, List.filterMap_append, List.filterMap_append]
    rfl
  next => rfl

omit hp in
theorem components_absolute {text : String} (htext : (⟨text⟩ : Path).isAbsolute = true) :
    (⟨text⟩ : Path).components = .root :: partsOf text := components_eq htext

/-! ## Going up -/

omit hp in
/-- The components that are left on the way up, given in reverse. -/
def uppers : List Component → List (List Component)
  | [] => []
  | _ :: outer => outer.reverse :: uppers outer

omit hp in
theorem isAbsolute_fromRoot (parts : List (List Char)) : (fromRoot parts).isAbsolute = true := by
  unfold fromRoot
  split
  · exact isAbsolute_rooted (List.cons_ne_nil _ _)
  next hne => exact isAbsolute_rooted hne

omit hp in
theorem components_fromRoot {parts : List (List Char)} (hparts : ∀ s ∈ parts, '/' ∉ s) :
    (fromRoot parts).components = .root :: parts.filterMap component? := by
  unfold fromRoot
  split
  next hnil =>
    rw [hnil, components_rooted (List.cons_ne_nil _ _) (by simp)]
    rfl
  next hne => exact components_rooted hne hparts

omit hp in
theorem components_above {ss : List (List Char)} (hss : ∀ s ∈ ss, '/' ∉ s) :
    (above true ss).map components = (uppers (ss.filterMap component?)).map (.root :: ·) ∧
      ∀ q ∈ above true ss, q.isAbsolute = true := by
  induction ss with
  | nil => exact ⟨rfl, nofun⟩
  | cons s outer ih =>
      have houter : ∀ t ∈ outer, '/' ∉ t := fun t ht ↦ hss t (List.mem_cons_of_mem _ ht)
      obtain ⟨ihcomponents, ihabsolute⟩ := ih houter
      rw [above_cons]
      split
      next hblank =>
        rw [List.filterMap_cons, Option.isNone_iff_eq_none.mp hblank]
        exact ⟨ihcomponents, ihabsolute⟩
      next hblank =>
        obtain ⟨c, hc⟩ : ∃ c, component? s = some c :=
          Option.ne_none_iff_exists'.mp (by simpa [isBlank] using hblank)
        have hskipped : (outer.takeWhile isBlank).filterMap component? = [] :=
          List.filterMap_eq_nil_iff.mpr fun t ht ↦
            Option.isNone_iff_eq_none.mp (List.mem_takeWhile_imp (p := isBlank) ht)
        have hkept : (outer.dropWhile isBlank).filterMap component? =
            outer.filterMap component? := by
          conv_rhs => rw [← List.takeWhile_append_dropWhile (p := isBlank) (l := outer),
            List.filterMap_append, hskipped, List.nil_append]
        constructor
        · rw [List.map_cons, ihcomponents, components_fromRoot, List.filterMap_cons, hc,
            List.filterMap_reverse, hkept, uppers]
          · rfl
          · intro t ht
            exact houter t ((List.dropWhile_suffix _).subset (List.mem_reverse.mp ht))
        · intro q hq
          rcases List.mem_cons.mp hq with rfl | hq
          · exact isAbsolute_fromRoot _
          · exact ihabsolute q hq

/-- What is above an absolute path can be told from its components. -/
theorem components_parents : p.parents.map components =
    (uppers p.components.tail.reverse).map (.root :: ·) := by
  obtain ⟨parts, hne, hparts, rfl⟩ := exists_rooted hp
  have hss : ∀ s ∈ parts.reverse, '/' ∉ s := fun s hs ↦ hparts s (List.mem_reverse.mp hs)
  unfold parents
  rw [isAbsolute_rooted hne, stretches_rooted hparts, components_rooted hne hparts]
  simpa [List.filterMap_reverse] using (components_above hss).1

theorem isAbsolute_of_mem_ancestors {q : Path} (hq : q ∈ p.ancestors) : q.isAbsolute = true := by
  rcases List.mem_cons.mp hq with rfl | hq
  · exact hp
  · obtain ⟨parts, hne, hparts, rfl⟩ := exists_rooted hp
    unfold parents at hq
    rw [isAbsolute_rooted hne, stretches_rooted hparts] at hq
    exact (components_above fun s hs ↦ hparts s (List.mem_reverse.mp hs)).2 q hq

omit hp in
theorem prefix_of_mem_uppers {cs ds : List Component} (h : ds ∈ uppers cs) :
    ds <+: cs.reverse := by
  induction cs with
  | nil => cases h
  | cons c outer ih =>
      have houter : outer.reverse <+: (c :: outer).reverse := by simp
      rcases List.mem_cons.mp h with rfl | h
      · exact houter
      · exact (ih h).trans houter

/-- On the way up components are only taken off the end. -/
theorem exists_of_mem_ancestors {q : Path} (hq : q ∈ p.ancestors) :
    ∃ cs, q.components = .root :: cs ∧ .root :: cs <+: p.components := by
  have hcomponents := components_eq hp
  rcases List.mem_cons.mp hq with rfl | hq
  · exact ⟨_, hcomponents, hcomponents ▸ List.prefix_refl _⟩
  · obtain ⟨ds, hds, hq⟩ := List.mem_map.mp
      (components_parents hp ▸ List.mem_map_of_mem (f := components) hq)
    refine ⟨ds, hq.symm, ?_⟩
    rw [hcomponents] at hds ⊢
    rw [List.prefix_cons_inj]
    simpa using prefix_of_mem_uppers hds

/-! ## Normalizing -/

omit hp in
theorem components_ofComponents {cs : List Component} (hcs : ∀ c ∈ cs, c.IsPart) :
    (ofComponents (.root :: cs)).isAbsolute = true ∧
      (ofComponents (.root :: cs)).components = .root :: cs := by
  by_cases hne : cs = []
  · subst hne
    exact ⟨by decide +kernel, by decide +kernel⟩
  · have htexts : cs.map (·.text.toList) ≠ [] := by simpa using hne
    rw [ofComponents_parts hne hcs]
    refine ⟨isAbsolute_rooted htexts, ?_⟩
    rw [components_rooted htexts, List.filterMap_map]
    · refine congrArg (Component.root :: ·) ?_
      exact (List.filterMap_congr fun c hc ↦ (hcs c hc).component?_text).trans List.filterMap_some
    · intro s hs
      obtain ⟨c, hc, rfl⟩ := List.mem_map.mp hs
      exact (hcs c hc).slash_not_mem

/-- Names below the root, or behind two dots at the root. -/
def IsNormal (cs : List Component) : Prop :=
  ∃ names : List String, (∀ n ∈ names, IsName n) ∧
    (cs = .root :: names.map .name ∨ cs = .root :: .parent :: names.map .name)

omit hp in
theorem IsNormal.keep {cs : List Component} {c : Component} (h : IsNormal cs) (hc : c.IsPart) :
    IsNormal (keep cs c) := by
  obtain ⟨names, hnames, hcs⟩ := h
  have hdropped : ∀ n ∈ names.dropLast, IsName n :=
    fun n hn ↦ hnames n (List.dropLast_subset _ hn)
  rcases hc with rfl | ⟨n, rfl, hn⟩
  · rcases List.eq_nil_or_concat' names with rfl | ⟨front, last, rfl⟩
    · rcases hcs with rfl | rfl
      · exact ⟨[], nofun, .inr rfl⟩
      · exact ⟨[], nofun, .inl rfl⟩
    · rw [List.dropLast_concat] at hdropped
      refine ⟨front, hdropped, hcs.imp ?_ ?_⟩ <;>
        rintro rfl <;> simp [Path.keep, List.getLast?_cons, List.dropLast_cons_of_ne_nil]
  · refine ⟨names ++ [n], ?_, hcs.imp ?_ ?_⟩
    · simpa [or_imp, forall_and] using ⟨hnames, hn⟩
    · rintro rfl
      simp [Path.keep]
    · rintro rfl
      simp [Path.keep]

omit hp in
theorem IsNormal.foldl {cs more : List Component} (h : IsNormal cs)
    (hmore : ∀ c ∈ more, c.IsPart) : IsNormal (more.foldl Path.keep cs) := by
  induction more generalizing cs with
  | nil => exact h
  | cons c rest ih =>
      exact ih (h.keep (hmore c List.mem_cons_self)) fun d hd ↦
        hmore d (List.mem_cons_of_mem _ hd)

omit hp in
theorem IsNormal.components {cs : List Component} (h : IsNormal cs) :
    (ofComponents cs).isAbsolute = true ∧ (ofComponents cs).components = cs := by
  obtain ⟨names, hnames, rfl | rfl⟩ := h
  · refine components_ofComponents fun c hc ↦ ?_
    obtain ⟨n, hn, rfl⟩ := List.mem_map.mp hc
    exact .inr ⟨n, rfl, hnames n hn⟩
  · refine components_ofComponents fun c hc ↦ ?_
    rcases List.mem_cons.mp hc with rfl | hc
    · exact .inl rfl
    · obtain ⟨n, hn, rfl⟩ := List.mem_map.mp hc
      exact .inr ⟨n, rfl, hnames n hn⟩

/-- In a normal path two dots stand at the root only. -/
theorem isNormal_normalize : p.normalize.isAbsolute = true ∧ IsNormal p.normalize.components := by
  have hnormal : IsNormal (normalComponents p.components) := by
    rw [normalComponents_eq, components_eq hp, List.foldl_cons]
    exact IsNormal.foldl ⟨[], nofun, .inl rfl⟩ fun c ↦ isPart_of_mem_filterMap
  obtain ⟨habsolute, hcomponents⟩ := hnormal.components
  exact ⟨habsolute, hcomponents.symm ▸ hnormal⟩

end PluginSurface.Path
