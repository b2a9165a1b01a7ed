import PluginSurface.Proofs.Path.Components

/-!
# Going up

What is above a path is its parent and what is above that. Above a relative path everything is
relative, and above an absolute one the components get fewer at the end.
-/

namespace PluginSurface.Path

/-- What is above an absolute path, whose stretches are given in reverse. -/
theorem parents_fromRoot {ss : List (List Char)} (hss : ∀ s ∈ ss, '/' ∉ s) :
    (fromRoot ss.reverse).parents = above true ss := by
  have hslash : ∀ s ∈ ss.reverse, '/' ∉ s := fun s hs ↦ hss s (List.mem_reverse.mp hs)
  unfold fromRoot
  split
  next hnil =>
    rw [List.reverse_eq_nil_iff.mp hnil, parents, isAbsolute_rooted (by simp),
      stretches_rooted (by simp)]
    exact above_cons [] []
  next hne =>
    rw [parents, isAbsolute_rooted hne, stretches_rooted hslash]
    simp

theorem above_dropWhile (ss : List (List Char)) :
    above true (ss.dropWhile isBlank) = above true ss := by
  induction ss with
  | nil => rfl
  | cons s outer ih =>
      rw [List.dropWhile_cons, above_cons]
      split
      · exact ih
      next h => rw [above_cons, if_neg h]

theorem above_eq {ss : List (List Char)} (hss : ∀ s ∈ ss, '/' ∉ s) :
    above true ss = ((above true ss).head?.map ancestors).getD [] := by
  induction ss with
  | nil => rfl
  | cons s outer ih =>
      have houter : ∀ t ∈ outer, '/' ∉ t := fun t ht ↦ hss t (List.mem_cons_of_mem _ ht)
      rw [above_cons]
      split
      · exact ih houter
      · have hkept : ∀ t ∈ outer.dropWhile isBlank, '/' ∉ t :=
          fun t ht ↦ houter t ((List.dropWhile_suffix _).subset ht)
        rw [List.head?_cons, Option.map_some, Option.getD_some, ancestors, parents_fromRoot hkept,
          above_dropWhile]

/-- What is above an absolute path is its parent and what is above that. -/
theorem parents_eq {p : Path} (h : p.isAbsolute = true) :
    p.parents = (p.parent?.map ancestors).getD [] := by
  obtain ⟨parts, hne, hparts, rfl⟩ := exists_rooted h
  have hss : ∀ s ∈ parts.reverse, '/' ∉ s := fun s hs ↦ hparts s (List.mem_reverse.mp hs)
  rw [parent?, parents, isAbsolute_rooted hne, stretches_rooted hparts]
  exact above_eq hss

theorem isAbsolute_intercalate {parts : List (List Char)}
    (h : ∀ s ∈ parts.head?, s ≠ [] ∧ '/' ∉ s) :
    (⟨String.ofList (['/'].intercalate parts)⟩ : Path).isAbsolute = false := by
  rw [Bool.eq_false_iff, isAbsolute, ne_eq, String.startsWith_string_iff, String.toList_ofList]
  cases parts with
  | nil => simp
  | cons s rest =>
      obtain ⟨hne, hslash⟩ := h s rfl
      obtain ⟨c, s, rfl⟩ := List.exists_cons_of_ne_nil hne
      have hc : '/' ≠ c := fun hc ↦ hslash (hc ▸ List.mem_cons_self)
      cases rest <;> simp [hc]

/-- What is above a relative path is relative. -/
theorem isAbsolute_of_mem_above {ss : List (List Char)}
    (h : ∀ s ∈ ss.getLast?, s ≠ [] ∧ '/' ∉ s) :
    ∀ q ∈ above false ss, q.isAbsolute = false := by
  induction ss with
  | nil => exact nofun
  | cons s outer ih =>
      have houter : ∀ s ∈ outer.getLast?, s ≠ [] ∧ '/' ∉ s := by
        cases outer with
        | nil => exact nofun
        | cons t more => rwa [List.getLast?_cons_cons] at h
      rw [above]
      split
      · exact ih houter
      · refine List.forall_mem_cons.mpr ⟨?_, ih houter⟩
        refine isAbsolute_intercalate fun t ht ↦ houter t ?_
        rw [List.head?_reverse] at ht
        obtain ⟨front, hfront⟩ := List.dropWhile_suffix (l := outer) fun s : List Char ↦
          decide (s = []) || decide (s = ['.']) && false
        rw [← hfront, List.getLast?_append, ht]
        rfl

theorem isAbsolute_of_mem_parents {p : Path} (h : p.isAbsolute = false) :
    ∀ q ∈ p.parents, q.isAbsolute = false := by
  rw [parents, h]
  cases hparts : stretches p.text.toList with
  | nil => exact nofun
  | cons first rest =>
      by_cases hfirst : first = []
      · subst hfirst
        cases rest with
        | nil => exact fun q hq ↦ absurd hq List.not_mem_nil
        | cons second more =>
            rw [isAbsolute_iff.mpr ⟨second, more, hparts⟩] at h
            cases h
      · refine isAbsolute_of_mem_above fun s hs ↦ ?_
        rw [if_neg (by simp), List.getLast?_reverse, List.head?_cons] at hs
        cases hs
        exact ⟨hfirst, not_mem_of_mem_stretches (hparts ▸ List.mem_cons_self)⟩

theorem isAbsolute_join_eq {p q : Path} (hp : p.isAbsolute = false) (hq : q.isAbsolute = false) :
    (p.join q).isAbsolute = false := by
  have hfront (text : String) (more : String) (htext : (⟨text⟩ : Path).isAbsolute = false)
      (hne : text.isEmpty = false) : (⟨text ++ more⟩ : Path).isAbsolute = false := by
    rw [Bool.eq_false_iff, isAbsolute, ne_eq, String.startsWith_string_iff] at htext ⊢
    rw [String.toList_append]
    have hlist : text.toList ≠ [] := by simpa using hne
    obtain ⟨c, cs, hcs⟩ := List.exists_cons_of_ne_nil hlist
    rw [hcs] at htext ⊢
    simpa using htext
  rw [join, if_neg (by simp [hq])]
  cases hempty : p.text.isEmpty with
  | true =>
      rw [Bool.true_or, if_pos rfl, String.isEmpty_iff.mp hempty, String.empty_append]
      exact hq
  | false =>
      split
      · exact hfront _ _ hp hempty
      · rw [String.append_assoc]
        exact hfront _ _ hp hempty

/-- On the way up the components of an absolute path get fewer at the end. -/
theorem pairwise_ancestors {p : Path} (h : p.isAbsolute = true) :
    p.ancestors.Pairwise fun q r ↦ r.components <+: q.components := by
  have huppers (cs : List Component) : (uppers cs).Pairwise fun ds es ↦ es <+: ds := by
    induction cs with
    | nil => exact .nil
    | cons c outer ih => exact .cons (fun ds hds ↦ prefix_of_mem_uppers hds) ih
  rw [ancestors, List.pairwise_cons]
  constructor
  · intro q hq
    obtain ⟨cs, hq, hprefix⟩ := exists_of_mem_ancestors h (List.mem_cons_of_mem p hq)
    exact hq ▸ hprefix
  · have hparents : (p.parents.map components).Pairwise fun ds es ↦ es <+: ds := by
      rw [components_parents h, List.pairwise_map]
      exact (huppers _).imp fun hprefix ↦ (List.prefix_cons_inj _).mpr hprefix
    exact List.pairwise_map.mp hparents

end PluginSurface.Path
