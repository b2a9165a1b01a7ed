import PluginSurface.Proofs.Ty.CanonicalForm

/-!
# The members of a union

A union is built from a list of types in which unions stand for their members. What remains of these
in the union is said without the passes that build it: `boolean` is added if both its literals are
there, `never` is dropped, and so is each literal whose base is there. Main statement: `sums_join`,
by which a union has exactly the members that remain.
-/

namespace PluginSurface.Ty

/-- Types that are no unions, and the unions that are built from such types and unions. -/
inductive Joined : Ty → Prop
  | single {t : Ty} (h : ∀ us, t ≠ .union us) : Joined t
  | join {ts : List Ty} (h : ∀ t ∈ ts, Joined t) : Joined (join ts)

/-- The types of which a type is the union: the members of a union, and else the type itself. -/
def alternatives : Ty → List Ty
  | .union members => members
  | t => [t]

/-- The type is there, or it is `boolean` and both its literals are. -/
def Present (ts : List Ty) (t : Ty) : Prop :=
  t ∈ ts ∨ (t = .primitive .boolean ∧
    .literal (.boolean true) ∈ ts ∧ .literal (.boolean false) ∈ ts)

/-- The type is a member of the union of the types. -/
def Remains (ts : List Ty) (t : Ty) : Prop :=
  Present ts t ∧ t ≠ never ∧ ∀ base, t.base? = some base → ¬Present ts base

/-- What a type has to do with the types of which it is the union, if none of them takes all. -/
structure Sums (ts : List Ty) (t : Ty) : Prop where
  /-- Each of the types is in the union, by itself or as a literal of a base that is. -/
  complete : ∀ u ∈ ts, u = never ∨ u ∈ t.unionMembers ∨
    ∃ base, u.base? = some base ∧ base ∈ t.unionMembers
  sound : ∀ u ∈ t.unionMembers, u ∈ ts ∨ (u = .primitive .boolean ∧
    .literal (.boolean true) ∈ ts ∧ .literal (.boolean false) ∈ ts)
  exact : ∀ u, u ∈ t.unionMembers ↔ Remains ts u
  empty : (∀ u, ¬Remains ts u) → t = never
  alone : ∀ u, (∀ v, Remains ts v ↔ v = u) → t = u
  canonical : ∀ us, t = .union us → CanonicalUnion us

variable {ts us : List Ty} {t u : Ty}

/-- In each union that is built, the members have canonical form. -/
theorem Joined.canonical (h : t.Joined) : ∀ us, t = .union us → CanonicalUnion us := by
  induction h with
  | single h => exact fun us hus ↦ absurd hus (h us)
  | join _ ih => exact fun us hus ↦ canonicalUnion_join ih hus

/-! ## What remains -/

theorem base?_eq_some {base : Ty} (h : t.base? = some base) :
    ∃ p : Primitive, p ≠ .never ∧ base = .primitive p := by
  unfold base? at h
  split at h <;> cases h <;> exact ⟨_, Primitive.noConfusion, rfl⟩

/-- What does not become `boolean` stays. -/
theorem mem_joinBooleans_iff (ts : List Ty) (h : ∀ b, u ≠ .literal (.boolean b)) :
    u ∈ joinBooleans ts ↔ Present ts u := by
  constructor
  · intro hu
    rcases mem_joinBooleans hu with hu' | rfl
    · exact .inl hu'
    · unfold joinBooleans at hu
      split at hu
      next hboth => exact .inr ⟨rfl, hboth⟩
      next => exact .inl hu
  · unfold joinBooleans
    split
    next hboth =>
      rw [mem_distinct, List.mem_map]
      rintro (hu | ⟨rfl, -⟩)
      · refine ⟨u, hu, ?_⟩
        split
        next b => exact absurd rfl (h b)
        next => rfl
      · exact ⟨_, hboth.1, rfl⟩
    next hnot => exact fun hu ↦ hu.resolve_right fun hboth ↦ hnot hboth.2

theorem mem_absorbLiterals : u ∈ absorbLiterals ts ↔
    u ∈ ts ∧ ∀ base, u.base? = some base → base ∉ ts := by
  unfold absorbLiterals
  rw [List.mem_filter]
  cases hbase : u.base? <;> simp

theorem mem_keptMembers_iff :
    u ∈ keptMembers ts ↔ Present (flatMembers ts) u ∧
      ∀ base, u.base? = some base → ¬Present (flatMembers ts) base := by
  have hbases : (∀ base, u.base? = some base → base ∉ joinBooleans (flatMembers ts)) ↔
      ∀ base, u.base? = some base → ¬Present (flatMembers ts) base :=
    forall₂_congr fun base hbase ↦
      have ⟨_, _, hp⟩ := base?_eq_some hbase
      not_congr (mem_joinBooleans_iff _ (hp ▸ nofun))
  rw [keptMembers, mem_absorbLiterals, hbases]
  refine and_congr_left fun habsent ↦ ?_
  by_cases hliteral : ∀ b, u ≠ .literal (.boolean b)
  · exact mem_joinBooleans_iff _ hliteral
  · obtain ⟨b, hb⟩ := Classical.not_forall.mp hliteral
    obtain rfl := Classical.not_not.mp hb
    -- Without `boolean` both literals cannot be there, so nothing is joined.
    have hnot := fun hboth ↦ habsent (.primitive .boolean) rfl (.inr ⟨rfl, hboth⟩)
    rw [joinBooleans, if_neg hnot, Present]
    simp

/-- Of the alternatives only `never` is left out before the members are settled. -/
theorem mem_flatMembers_iff (h : ∀ t ∈ ts, ∀ vs, t = .union vs → CanonicalUnion vs) :
    u ∈ flatMembers ts ↔ u ∈ ts.flatMap alternatives ∧ u ≠ never := by
  rw [mem_flatMembers, List.mem_flatMap, ← exists_and_right]
  refine exists_congr fun t ↦ ?_
  rw [and_assoc]
  refine and_congr_right fun ht ↦ ?_
  unfold unionMembers alternatives
  split
  next vs =>
    exact ⟨fun hu ↦ ⟨hu, fun hnever ↦ (h _ ht vs rfl).never_not_mem
      (hnever ▸ hu)⟩, And.left⟩
  next => simp
  next hunion hnever =>
    simp only [List.mem_singleton]
    exact ⟨fun hu ↦ ⟨hu, hu ▸ hnever⟩, And.left⟩

theorem remains_iff (h : ∀ t ∈ ts, ∀ vs, t = .union vs → CanonicalUnion vs) :
    u ∈ keptMembers ts ↔ Remains (ts.flatMap alternatives) u := by
  have hpresent (v : Ty) :
      Present (flatMembers ts) v ↔ Present (ts.flatMap alternatives) v ∧ v ≠ never := by
    unfold Present
    simp only [mem_flatMembers_iff h, or_and_right]
    refine or_congr Iff.rfl ⟨?_, ?_⟩
    · rintro ⟨rfl, ⟨htrue, -⟩, hfalse, -⟩
      exact ⟨⟨rfl, htrue, hfalse⟩, nofun⟩
    · rintro ⟨⟨rfl, htrue, hfalse⟩, -⟩
      exact ⟨rfl, ⟨htrue, nofun⟩, hfalse, nofun⟩
  rw [mem_keptMembers_iff, Remains, hpresent, and_assoc]
  refine and_congr_right fun _ ↦ and_congr_right fun _ ↦ forall₂_congr fun base hbase ↦ ?_
  obtain ⟨p, hp, rfl⟩ := base?_eq_some hbase
  rw [hpresent, and_iff_left fun heq ↦ hp (Ty.primitive.inj heq)]

/-! ## The union -/

theorem unionMembers_unionOf (h : ∀ u ∈ ts, (∀ vs, u ≠ .union vs) ∧ u ≠ never) :
    (unionOf ts).unionMembers = ts := by
  unfold unionOf
  split
  · rfl
  next t =>
    obtain ⟨hunion, hnever⟩ := h t (List.mem_singleton_self t)
    unfold unionMembers
    split
    next vs => exact absurd rfl (hunion vs)
    next => exact absurd rfl hnever
    next => rfl
  next => rfl

/-- Where nothing takes all, the members of the union are those that are kept, in order. -/
theorem unionMembers_join (h : ∀ t ∈ ts, ∀ vs, t = .union vs → CanonicalUnion vs)
    (hany : any ∉ flatMembers ts) (hunknown : unknown ∉ flatMembers ts) :
    (join ts).unionMembers = sortMembers (keptMembers ts) := by
  rw [join_eq, if_neg hany, if_neg hunknown]
  exact unionMembers_unionOf fun u hu ↦ flat_keptMembers h ((sortMembers_perm _).subset hu)

theorem top_mem_flatMembers (h : ∀ t ∈ ts, ∀ vs, t = .union vs → CanonicalUnion vs)
    {p : Primitive}
    (hp : p ≠ .never) :
    .primitive p ∈ flatMembers ts ↔ .primitive p ∈ ts.flatMap alternatives := by
  rw [mem_flatMembers_iff h, and_iff_left fun heq ↦ hp (Ty.primitive.inj heq)]

/-- A type is in the union by itself or as a literal of a base that is, if it is no `never`. -/
theorem remains_or_base (hu : u ∈ ts) :
    u = never ∨ Remains ts u ∨ ∃ base, u.base? = some base ∧ Remains ts base := by
  by_cases hnever : u = never
  · exact .inl hnever
  refine .inr ?_
  by_cases hbase : ∃ base, u.base? = some base ∧ Present ts base
  · obtain ⟨base, hbase, hpresent⟩ := hbase
    obtain ⟨p, hp, rfl⟩ := base?_eq_some hbase
    exact .inr ⟨_, hbase, hpresent, fun heq ↦ hp (Ty.primitive.inj heq), nofun⟩
  · exact .inl ⟨.inl hu, hnever, fun base hsome hpresent ↦ hbase ⟨base, hsome, hpresent⟩⟩

theorem sortMembers_of_pairwise (h : ts.Pairwise fun a b ↦ keyLe a.unionKey b.unionKey = true) :
    sortMembers ts = ts := List.mergeSort_of_pairwise h

/-- `any` takes all, and else `unknown`; else the union of types is made of what remains of them:
nothing is lost, nothing is added, and the members have canonical form. -/
theorem sums_join (h : ∀ t ∈ ts, t.Joined) :
    let F := ts.flatMap alternatives
    (any ∈ F → join ts = any) ∧ (any ∉ F → unknown ∈ F → join ts = unknown) ∧
      (any ∉ F → unknown ∉ F → Sums F (join ts)) := by
  have hcanonical : ∀ t ∈ ts, ∀ vs, t = .union vs → CanonicalUnion vs :=
    fun t ht ↦ (h t ht).canonical
  intro F
  have hany : any ∈ flatMembers ts ↔ any ∈ F := top_mem_flatMembers hcanonical nofun
  have hunknown : unknown ∈ flatMembers ts ↔ unknown ∈ F :=
    top_mem_flatMembers hcanonical nofun
  refine ⟨fun htop ↦ ?_, fun hnot htop ↦ ?_, fun hnot hnot' ↦ ?_⟩
  · rw [join_eq, if_pos (hany.mpr htop)]
  · rw [join_eq, if_neg (mt hany.mp hnot), if_pos (hunknown.mpr htop)]
  have hmembers := unionMembers_join hcanonical (mt hany.mp hnot) (mt hunknown.mp hnot')
  have hjoin : join ts = unionOf (join ts).unionMembers := by
    rw [hmembers, join_eq, if_neg (mt hany.mp hnot), if_neg (mt hunknown.mp hnot')]
  have hexact (u : Ty) : u ∈ (join ts).unionMembers ↔ Remains F u := by
    rw [hmembers, (sortMembers_perm _).mem_iff, remains_iff hcanonical]
  have hnodup : (join ts).unionMembers.Nodup := by
    rw [hmembers]
    exact (sortMembers_perm _).symm.nodup ((nodup_joinBooleans (nodup_distinct _)).filter _)
  exact
    { complete := fun u hu ↦ by simpa only [hexact] using remains_or_base hu
      sound := fun u hu ↦ ((hexact u).mp hu).1
      exact := hexact
      empty := fun hnone ↦ by
        rw [hjoin, List.eq_nil_iff_forall_not_mem.mpr fun u hu ↦ hnone u ((hexact u).mp hu)]
        rfl
      alone := fun u halone ↦ by
        have hsingle : (join ts).unionMembers = [u] :=
          List.perm_singleton.mp ((List.perm_ext_iff_of_nodup hnodup (by simp)).mpr fun v ↦ by
            rw [hexact, halone, List.mem_singleton])
        rw [hjoin, hsingle]
        rfl
      canonical := fun us ↦ canonicalUnion_join hcanonical }

/-- Both boolean literals, one of them in a nested union, become `boolean`; `string` takes up its
literal, and `never` is dropped. -/
theorem sums_join_nested :
    let nested := join [.literal (.string "a"), .literal (.boolean true)]
    let ts := [never, .literal (.boolean false), nested, .string]
    let F := ts.flatMap alternatives
    (∀ t ∈ ts, t.Joined) ∧
      F = [never, .literal (.boolean false), .literal (.string "a"), .literal (.boolean true),
        .string] ∧ any ∉ F ∧ unknown ∉ F ∧ Sums F (join ts) := by
  intro nested ts F
  have hnested : nested = .union [.literal (.string "a"), .literal (.boolean true)] := by
    have hkept : keptMembers [.literal (.string "a"), .literal (.boolean true)] =
        [.literal (.string "a"), .literal (.boolean true)] := by decide +kernel
    rw [show nested = join _ from rfl, join_eq, if_neg (by decide +kernel),
      if_neg (by decide +kernel), hkept, sortMembers_of_pairwise (by decide +kernel)]
    rfl
  have hts : ∀ t ∈ ts, t.Joined := by
    have hjoined : nested.Joined :=
      .join (List.forall_mem_cons.mpr
        ⟨.single nofun, List.forall_mem_singleton.mpr (.single nofun)⟩)
    simp only [ts, List.forall_mem_cons]
    exact ⟨.single nofun, .single nofun, hjoined, .single nofun, nofun⟩
  have hF : F = [never, .literal (.boolean false), .literal (.string "a"),
      .literal (.boolean true), .string] := by
    simp only [F, ts, hnested]
    rfl
  have hany : any ∉ F := by simp [hF]
  have hunknown : unknown ∉ F := by simp [hF]
  exact ⟨hts, hF, hany, hunknown, (sums_join hts).2.2 hany hunknown⟩

end PluginSurface.Ty
