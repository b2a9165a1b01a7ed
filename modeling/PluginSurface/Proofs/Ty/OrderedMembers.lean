import PluginSurface.Proofs.Ty.CanonicalForm

/-!
# The order of the members of a union

Repetitions are taken out so that the first occurrence stays, and sorting keeps the order of members
with equal keys. So members in order are determined by those under each key, and these by the types
under that key that the union is built from. Main statements: `sortMembers_congr` and
`distinct_append_distinct`.
-/

namespace PluginSurface.Ty

variable {ts us vs : List Ty} {t u : Ty}

/-! ## First occurrences -/

theorem foldl_insertLast (ts kept : List Ty) :
    ts.foldl insertLast kept = kept ++ (distinct ts).filter (· ∉ kept) := by
  induction ts generalizing kept with
  | nil => simp [distinct]
  | cons t rest ih =>
      have hcons : distinct (t :: rest) = t :: (distinct rest).filter (· ∉ [t]) := ih [t]
      rw [List.foldl_cons, ih, hcons]
      unfold insertLast
      by_cases ht : t ∈ kept
      · rw [if_pos ht, List.filter_cons_of_neg (by simp [ht]), List.filter_filter]
        refine congrArg _ (List.filter_congr fun u _ ↦ ?_)
        by_cases hu : u = t <;> simp [hu, ht]
      · rw [if_neg ht, List.filter_cons_of_pos (by simp [ht]), List.filter_filter]
        simp [Bool.and_comm]

theorem distinct_append (ts us : List Ty) :
    distinct (ts ++ us) = distinct ts ++ (distinct us).filter (· ∉ ts) := by
  have hfold := foldl_insertLast us (distinct ts)
  simp only [mem_distinct] at hfold
  rw [← hfold, distinct, List.foldl_append]
  rfl

theorem distinct_cons (t : Ty) (ts : List Ty) :
    distinct (t :: ts) = t :: (distinct ts).filter (· ∉ [t]) := distinct_append [t] ts

theorem distinct_of_nodup (h : ts.Nodup) : distinct ts = ts := by
  induction ts with
  | nil => rfl
  | cons t rest ih =>
      obtain ⟨ht, hrest⟩ := List.nodup_cons.mp h
      rw [distinct_cons, ih hrest, List.filter_eq_self.mpr]
      intro u hu
      simpa using fun heq : u = t ↦ ht (heq ▸ hu)

theorem distinct_filter (p : Ty → Bool) (ts : List Ty) :
    distinct (ts.filter p) = (distinct ts).filter p := by
  induction ts with
  | nil => rfl
  | cons t rest ih =>
      rw [distinct_cons]
      by_cases ht : p t = true
      · rw [List.filter_cons_of_pos ht, distinct_cons, List.filter_cons_of_pos ht, ih,
          List.filter_filter, List.filter_filter]
        simp only [Bool.and_comm]
      · rw [List.filter_cons_of_neg ht, List.filter_cons_of_neg ht, ih, List.filter_filter]
        refine List.filter_congr fun u _ ↦ ?_
        by_cases hu : u = t <;> simp_all

/-- It does not matter whether repetitions in a part are taken out before. -/
theorem distinct_append_distinct (ts us vs : List Ty) :
    distinct (ts ++ distinct us ++ vs) = distinct (ts ++ us ++ vs) := by
  simp only [distinct_append, distinct_of_nodup (nodup_distinct us), List.mem_append, mem_distinct]

/-! ## Keys -/

/-- The members that are ordered by a given key. -/
def withKey (key : Nat × String) (ts : List Ty) : List Ty := ts.filter (·.unionKey = key)

theorem keyLe_refl (key : Nat × String) : keyLe key key = true :=
  keyLe_iff.mpr (.inr ⟨rfl, String.le_refl _⟩)

theorem keyLe_antisymm {a b : Nat × String} (hab : keyLe a b = true) (hba : keyLe b a = true) :
    a = b := by
  rw [keyLe_iff] at hab hba
  rcases hab with hlt | ⟨hrank, htext⟩
  · rcases hba with hlt' | ⟨hrank, -⟩
    · exact absurd hlt (Nat.lt_asymm hlt')
    · exact absurd hrank (Nat.ne_of_gt hlt)
  · rcases hba with hlt' | ⟨-, htext'⟩
    · exact absurd hrank.symm (Nat.ne_of_lt hlt')
    · exact Prod.ext hrank (String.le_antisymm htext htext')

/-- Members in order are determined by those under each key. -/
theorem eq_of_withKey (hts : ts.Pairwise fun a b ↦ keyLe a.unionKey b.unionKey = true)
    (hus : us.Pairwise fun a b ↦ keyLe a.unionKey b.unionKey = true)
    (h : ∀ key, withKey key ts = withKey key us) : ts = us := by
  have hmem (t : Ty) : t ∈ ts ↔ t ∈ us := by
    have hkey : t ∈ withKey t.unionKey ts ↔ t ∈ withKey t.unionKey us := by rw [h]
    simpa [withKey] using hkey
  induction ts generalizing us with
  | nil => exact (List.eq_nil_iff_forall_not_mem.mpr fun t ht ↦ nomatch (hmem t).mpr ht).symm
  | cons t rest ih =>
      cases us with
      | nil => exact nomatch (hmem t).mp List.mem_cons_self
      | cons u others =>
          -- Both first members are the least ones, so they have the same key.
          have hkey : t.unionKey = u.unionKey := by
            refine keyLe_antisymm ?_ ?_
            · rcases List.mem_cons.mp ((hmem u).mpr List.mem_cons_self) with rfl | hu
              · exact keyLe_refl _
              · exact List.rel_of_pairwise_cons hts hu
            · rcases List.mem_cons.mp ((hmem t).mp List.mem_cons_self) with rfl | ht
              · exact keyLe_refl _
              · exact List.rel_of_pairwise_cons hus ht
          have hfirst := h t.unionKey
          rw [withKey, withKey, List.filter_cons_of_pos (by simp),
            List.filter_cons_of_pos (by simp [hkey])] at hfirst
          obtain ⟨rfl, -⟩ := List.cons.inj hfirst
          have hrest (key : Nat × String) : withKey key rest = withKey key others := by
            have hall := h key
            unfold withKey at hall ⊢
            rw [List.filter_cons, List.filter_cons] at hall
            split at hall
            · exact (List.cons.inj hall).2
            · exact hall
          refine congrArg (t :: ·) (ih hts.of_cons hus.of_cons hrest fun v ↦ ?_)
          have hv :
              v ∈ withKey v.unionKey rest ↔ v ∈ withKey v.unionKey others := by rw [hrest]
          simpa [withKey] using hv

/-- Sorting keeps the order of members with equal keys. -/
theorem withKey_sortMembers (key : Nat × String) (ts : List Ty) :
    withKey key (sortMembers ts) = withKey key ts := by
  have hsame : (withKey key ts).Pairwise fun a b ↦ keyLe a.unionKey b.unionKey = true := by
    refine List.pairwise_of_forall_mem_list fun a ha b hb ↦ ?_
    rw [of_decide_eq_true (List.mem_filter.mp ha).2, of_decide_eq_true (List.mem_filter.mp hb).2]
    exact keyLe_refl key
  have hsub : (withKey key ts).Sublist (sortMembers ts) :=
    @List.sublist_mergeSort Ty (fun a b ↦ keyLe a.unionKey b.unionKey) ts
      (fun _ _ _ ↦ keyLe_trans) (fun _ _ ↦ keyLe_total _ _) _ hsame List.filter_sublist
  have hkept : (withKey key ts).Sublist (withKey key (sortMembers ts)) := by
    have hfilter := hsub.filter (·.unionKey = key)
    simpa only [withKey, List.filter_filter, Bool.and_self] using hfilter
  exact (hkept.eq_of_length ((sortMembers_perm ts).filter _).length_eq.symm).symm

theorem sortMembers_congr (h : ∀ key, withKey key ts = withKey key us) :
    sortMembers ts = sortMembers us :=
  eq_of_withKey (pairwise_sortMembers ts) (pairwise_sortMembers us) fun key ↦ by
    rw [withKey_sortMembers, withKey_sortMembers, h]

end PluginSurface.Ty
