import PluginSurface.Proofs.Ty.Everywhere

/-!
# Canonical form

What building a union or an intersection guarantees of its members, whatever it is built from, as
long as the unions and intersections among the parts were built in the same way. Main statements:
`isCanonical_join` and `isCanonical_meet`.
-/

namespace PluginSurface.Ty

/-- The members of a union in canonical form. -/
structure CanonicalUnion (ts : List Ty) : Prop where
  two_le : 2 ≤ ts.length
  flat : ∀ us, .union us ∉ ts
  never_not_mem : never ∉ ts
  any_not_mem : any ∉ ts
  unknown_not_mem : unknown ∉ ts
  nodup : ts.Nodup
  not_both_booleans : ¬(.literal (.boolean true) ∈ ts ∧ .literal (.boolean false) ∈ ts)
  base_not_mem : ∀ t ∈ ts, ∀ base, t.base? = some base → base ∉ ts
  ordered : ts.Pairwise fun a b ↦ keyLe a.unionKey b.unionKey = true

/-- The members of an intersection in canonical form. -/
structure CanonicalIntersection (ts : List Ty) : Prop where
  two_le : 2 ≤ ts.length
  flat : ∀ us, .intersection us ∉ ts
  nodup : ts.Nodup

/-- Members that are `undefined` or `null` have only such members beside them. -/
def NullablesApart (ts : List Ty) : Prop :=
  (∃ t ∈ ts, t.isNullable = true) → ∀ t ∈ ts, t.isNullable = true

/-- What a union or intersection has to look like; unless null checks are strict, a union keeps
`undefined` and `null` only by themselves. -/
def IsCanonical (strict : Bool) : Ty → Prop
  | .union ts => CanonicalUnion ts ∧ (strict = false → NullablesApart ts)
  | .intersection ts => CanonicalIntersection ts
  | _ => True

variable {ts us : List Ty} {t u : Ty}

/-! ## Passes over the members -/

theorem nodup_insertLast (h : ts.Nodup) : (insertLast ts t).Nodup := by
  unfold insertLast
  split
  · exact h
  next hnew =>
    refine List.nodup_append.mpr ⟨h, by simp, fun a ha b hb hab ↦ hnew ?_⟩
    rwa [← List.mem_singleton.mp hb, ← hab]

theorem nodup_distinct (ts : List Ty) : (distinct ts).Nodup := by
  have hfold (kept : List Ty) (hkept : kept.Nodup) : (ts.foldl insertLast kept).Nodup := by
    induction ts generalizing kept with
    | nil => exact hkept
    | cons t rest ih => exact ih _ (nodup_insertLast hkept)
  exact hfold [] List.nodup_nil

theorem nodup_joinBooleans (h : ts.Nodup) : (joinBooleans ts).Nodup := by
  unfold joinBooleans
  split
  · exact nodup_distinct _
  · exact h

/-- The member `boolean` is put in only where both literals were. -/
theorem mem_or_boolean_of_mem_joinBooleans (h : u ∈ joinBooleans ts) :
    u ∈ ts ∨ (u = .primitive .boolean ∧ .literal (.boolean true) ∈ ts) := by
  rcases mem_joinBooleans h with hu | rfl
  · exact .inl hu
  · unfold joinBooleans at h
    split at h
    next hboth => exact .inr ⟨rfl, hboth.1⟩
    next => exact .inl h

theorem not_both_mem_joinBooleans (ts : List Ty) :
    ¬(.literal (.boolean true) ∈ joinBooleans ts ∧
      .literal (.boolean false) ∈ joinBooleans ts) := by
  unfold joinBooleans
  split
  next hboth =>
    rintro ⟨htrue, -⟩
    obtain ⟨t, -, ht⟩ := List.mem_map.mp (mem_distinct.mp htrue)
    split at ht
    · cases ht
    next hliteral => exact hliteral true ht
  next hnot => exact hnot

theorem absorbLiterals_subset (ts : List Ty) : absorbLiterals ts ⊆ ts := fun _ h ↦
  (List.mem_filter.mp h).1

theorem base_not_mem_absorbLiterals (h : t ∈ absorbLiterals ts) {base : Ty}
    (hbase : t.base? = some base) : base ∉ absorbLiterals ts := by
  have hkeep := (List.mem_filter.mp h).2
  rw [hbase] at hkeep
  exact fun hmem ↦ of_decide_eq_true hkeep (absorbLiterals_subset ts hmem)

/-! ## The order of the members -/

theorem keyLe_iff {a b : Nat × String} :
    keyLe a b = true ↔ a.1 < b.1 ∨ a.1 = b.1 ∧ a.2 ≤ b.2 := by
  simp [keyLe]

theorem keyLe_trans {a b c : Nat × String} (hab : keyLe a b = true) (hbc : keyLe b c = true) :
    keyLe a c = true := by
  rw [keyLe_iff] at *
  rcases hab with hab | ⟨hab, htext⟩
  · exact .inl (hbc.elim (Nat.lt_trans hab) fun h ↦ h.1 ▸ hab)
  · rcases hbc with hbc | ⟨hbc, htext'⟩
    · exact .inl (hab ▸ hbc)
    · exact .inr ⟨hab.trans hbc, String.le_trans htext htext'⟩

theorem keyLe_total (a b : Nat × String) : (keyLe a b || keyLe b a) = true := by
  rw [Bool.or_eq_true, keyLe_iff, keyLe_iff]
  rcases Nat.lt_trichotomy a.1 b.1 with h | h | h
  · exact .inl (.inl h)
  · exact (String.le_total a.2 b.2).imp (fun htext ↦ .inr ⟨h, htext⟩) fun htext ↦
      .inr ⟨h.symm, htext⟩
  · exact .inr (.inl h)

theorem pairwise_sortMembers (ts : List Ty) :
    (sortMembers ts).Pairwise fun a b ↦ keyLe a.unionKey b.unionKey = true :=
  @List.pairwise_mergeSort Ty (fun a b ↦ keyLe a.unionKey b.unionKey)
    (fun _ _ _ ↦ keyLe_trans) (fun _ _ ↦ keyLe_total _ _) ts

theorem sortMembers_perm (ts : List Ty) : (sortMembers ts).Perm ts := List.mergeSort_perm ts _

/-! ## Unions -/

/-- The members that a union is built from, once those of nested unions stand for themselves. -/
def flatMembers (ts : List Ty) : List Ty := distinct (ts.flatMap unionMembers)

/-- The members of a union before they are put in order. -/
def keptMembers (ts : List Ty) : List Ty := absorbLiterals (joinBooleans (flatMembers ts))

theorem join_eq (ts : List Ty) : join ts =
    if any ∈ flatMembers ts then any
    else if unknown ∈ flatMembers ts then unknown
    else unionOf (sortMembers (keptMembers ts)) := rfl

theorem mem_flatMembers : u ∈ flatMembers ts ↔ ∃ t ∈ ts, u ∈ t.unionMembers := by
  rw [flatMembers, mem_distinct, List.mem_flatMap]

/-- Each member of a union comes from what it is built from, or it is `boolean` in the place of its
two literals. -/
theorem mem_or_boolean_of_mem_keptMembers (h : u ∈ keptMembers ts) :
    u ∈ flatMembers ts ∨
      (u = .primitive .boolean ∧ .literal (.boolean true) ∈ flatMembers ts) :=
  mem_or_boolean_of_mem_joinBooleans (absorbLiterals_subset _ h)

/-- Beside `any` and `unknown`, only canonical unions have to be taken apart. -/
theorem unionMembers_of_canonical (h : ∀ vs, t = .union vs → CanonicalUnion vs)
    (hu : u ∈ t.unionMembers) : (∀ vs, u ≠ .union vs) ∧ u ≠ never := by
  unfold unionMembers at hu
  split at hu
  next vs =>
    have hvs := h vs rfl
    exact ⟨fun ws hws ↦ hvs.flat ws (hws ▸ hu), fun hnever ↦
      hvs.never_not_mem (hnever ▸ hu)⟩
  next => cases hu
  next hunion hnever =>
    rw [List.mem_singleton.mp hu]
    exact ⟨hunion, hnever⟩

theorem flat_keptMembers (h : ∀ t ∈ ts, ∀ vs, t = .union vs → CanonicalUnion vs)
    (hu : u ∈ keptMembers ts) : (∀ vs, u ≠ .union vs) ∧ u ≠ never := by
  rcases mem_or_boolean_of_mem_keptMembers hu with hu | ⟨rfl, -⟩
  · obtain ⟨t, ht, hu⟩ := mem_flatMembers.mp hu
    exact unionMembers_of_canonical (h t ht) hu
  · exact ⟨nofun, nofun⟩

/-- A union of several members is built in order from those that are kept. -/
theorem join_eq_union (h : ∀ t ∈ ts, ∀ vs, t = .union vs → CanonicalUnion vs)
    (hjoin : join ts = .union us) :
    any ∉ flatMembers ts ∧ unknown ∉ flatMembers ts ∧ us = sortMembers (keptMembers ts) ∧
      2 ≤ us.length := by
  rw [join_eq] at hjoin
  split at hjoin
  · cases hjoin
  next hany =>
    split at hjoin
    · cases hjoin
    next hunknown =>
      refine ⟨hany, hunknown, ?_⟩
      unfold unionOf at hjoin
      split at hjoin
      · cases hjoin
      next t hsingle =>
        have ht : t ∈ keptMembers ts :=
          (sortMembers_perm _).subset (hsingle ▸ List.mem_singleton_self t)
        exact absurd hjoin ((flat_keptMembers h ht).1 us)
      next hnil hsingle =>
        cases hjoin
        refine ⟨rfl, ?_⟩
        match hsorted : sortMembers (keptMembers ts) with
        | [] => exact absurd hsorted hnil
        | [t] => exact absurd hsorted (hsingle t)
        | _ :: _ :: _ => simp

theorem canonicalUnion_join (h : ∀ t ∈ ts, ∀ vs, t = .union vs → CanonicalUnion vs)
    (hjoin : join ts = .union us) : CanonicalUnion us := by
  obtain ⟨hany, hunknown, rfl, hlength⟩ := join_eq_union h hjoin
  have hperm := sortMembers_perm (keptMembers ts)
  have htop (p : Primitive) (hp : p ≠ .boolean) (hflat : .primitive p ∉ flatMembers ts) :
      .primitive p ∉ keptMembers ts := by
    intro hmem
    rcases mem_or_boolean_of_mem_keptMembers hmem with hmem | ⟨heq, -⟩
    · exact hflat hmem
    · exact hp (Ty.primitive.inj heq)
  have hbooleans := absorbLiterals_subset (joinBooleans (flatMembers ts))
  exact
    { two_le := hlength
      flat := fun vs hvs ↦ (flat_keptMembers h (hperm.subset hvs)).1 vs rfl
      never_not_mem := fun hnever ↦ (flat_keptMembers h (hperm.subset hnever)).2 rfl
      any_not_mem := fun hmem ↦ htop .any nofun hany (hperm.subset hmem)
      unknown_not_mem := fun hmem ↦ htop .unknown nofun hunknown (hperm.subset hmem)
      nodup := hperm.symm.nodup ((nodup_joinBooleans (nodup_distinct _)).filter _)
      not_both_booleans := fun hboth ↦ not_both_mem_joinBooleans _
        ⟨hbooleans (hperm.subset hboth.1), hbooleans (hperm.subset hboth.2)⟩
      base_not_mem := fun t ht base hbase hmem ↦
        base_not_mem_absorbLiterals (hperm.subset ht) hbase (hperm.subset hmem)
      ordered := pairwise_sortMembers _ }

/-! ## Nullable members -/

theorem isNullable_iff :
    t.isNullable = true ↔ t = .primitive .undefined ∨ t = .primitive .null := by
  simp [isNullable]

/-- Of members that are no unions, a union has no others, except `boolean`. -/
theorem mem_or_boolean_of_mem_join (h : ∀ t ∈ ts, ∀ vs, t ≠ .union vs)
    (hjoin : join ts = .union us) (hu : u ∈ us) :
    u ∈ ts ∨ (u = .primitive .boolean ∧ .literal (.boolean true) ∈ ts) := by
  have hflat {v : Ty} (hv : v ∈ flatMembers ts) : v ∈ ts := by
    obtain ⟨t, ht, hv⟩ := mem_flatMembers.mp hv
    unfold unionMembers at hv
    split at hv
    · exact absurd rfl (h _ ht _)
    · cases hv
    · exact List.mem_singleton.mp hv ▸ ht
  obtain ⟨-, -, rfl, -⟩ := join_eq_union (fun t ht vs hvs ↦ absurd hvs (h t ht vs)) hjoin
  exact (mem_or_boolean_of_mem_keptMembers ((sortMembers_perm _).subset hu)).imp hflat
    fun ⟨hboolean, htrue⟩ ↦ ⟨hboolean, hflat htrue⟩

/-- Leaving out nullable members keeps the form, and leaves them only by themselves. -/
theorem canonicalUnion_widenNullables (h : ∀ vs, t = .union vs → CanonicalUnion vs)
    (hwiden : t.widenNullables = .union us) : CanonicalUnion us ∧ NullablesApart us := by
  unfold widenNullables at hwiden
  split at hwiden
  next members =>
    have hsingle (keep : Ty → Bool) : ∀ t ∈ members.filter keep, ∀ vs, t ≠ .union vs :=
      fun t ht vs hvs ↦ (h members rfl).flat vs (hvs ▸ (List.mem_filter.mp ht).1)
    have hcanonical (keep : Ty → Bool) (hjoin : join (members.filter keep) = .union us) :
        CanonicalUnion us :=
      canonicalUnion_join (fun t ht vs hvs ↦ absurd hvs (hsingle keep t ht vs)) hjoin
    split at hwiden
    next hnone =>
      refine ⟨hcanonical _ hwiden, fun _ t ht ↦ ?_⟩
      rcases mem_or_boolean_of_mem_join (hsingle _) hwiden ht with ht | ⟨-, htrue⟩
      · exact (List.mem_filter.mp ht).2
      · exact absurd (isNullable_iff.mp (List.mem_filter.mp htrue).2) (by simp)
    next =>
      refine ⟨hcanonical _ hwiden, fun ⟨t, ht, hnullable⟩ ↦ ?_⟩
      rcases mem_or_boolean_of_mem_join (hsingle _) hwiden ht with ht | ⟨rfl, -⟩
      · have hkept := (List.mem_filter.mp ht).2
        rw [hnullable] at hkept
        cases hkept
      · exact absurd (isNullable_iff.mp hnullable) (by simp)
  next hunion => exact absurd hwiden (hunion us)

/-! ## Intersections -/

theorem canonicalIntersection_meet
    (h : ∀ t ∈ ts, ∀ vs, t = .intersection vs → CanonicalIntersection vs)
    (hmeet : meet ts = .intersection us) : CanonicalIntersection us := by
  have hflat :
      ∀ u ∈ distinct (ts.flatMap intersectionMembers), ∀ vs, u ≠ .intersection vs := by
    intro u hu vs hvs
    obtain ⟨t, ht, hu⟩ := List.mem_flatMap.mp (mem_distinct.mp hu)
    unfold intersectionMembers at hu
    split at hu
    next ws => exact (h _ ht ws rfl).flat vs (hvs ▸ hu)
    next hsingle => exact hsingle vs (List.mem_singleton.mp hu ▸ hvs)
  unfold meet at hmeet
  split at hmeet
  · cases hmeet
  next u hsingle => exact absurd hmeet (hflat u (hsingle ▸ List.mem_singleton_self u) us)
  next hnil hsingle =>
    cases hmeet
    refine ⟨?_, fun vs hvs ↦ hflat _ hvs vs rfl, nodup_distinct _⟩
    match hmembers : distinct (ts.flatMap intersectionMembers) with
    | [] => exact absurd hmembers hnil
    | [u] => exact absurd hmembers (hsingle u)
    | _ :: _ :: _ => simp

/-! ## Both -/

theorem IsCanonical.union {strict : Bool} (h : t.IsCanonical strict) :
    ∀ vs, t = .union vs → CanonicalUnion vs := by
  rintro vs rfl
  exact h.1

theorem IsCanonical.intersection {strict : Bool} (h : t.IsCanonical strict) :
    ∀ vs, t = .intersection vs → CanonicalIntersection vs := by
  rintro vs rfl
  exact h

end PluginSurface.Ty
