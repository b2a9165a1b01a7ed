import Mathlib.Data.List.Basic
import PluginSurface.Proofs.Ty.OrderedMembers
import PluginSurface.Proofs.Ty.UnionMembers

/-!
# Unions of unions

A union of unions is the union of all their members, in the same order: what an inner union absorbs
or joins, the outer one would absorb or join too, and members with equal keys come in the order in
which they first occur. Main statement: `join_groups`, by which types can be put together in any
groups.
-/

namespace PluginSurface.Ty

variable {ts us l m : List Ty} {t u : Ty}

/-! ## Members in order -/

/-- The types with `boolean` behind them if both its literals are there. -/
def completed (ts : List Ty) : List Ty :=
  if .literal (.boolean true) ∈ ts ∧ .literal (.boolean false) ∈ ts then
    ts ++ [.primitive .boolean]
  else ts

/-- The members of the union of types that are no unions. -/
def settled (ts : List Ty) : List Ty := sortMembers (distinct (absorbLiterals (completed ts)))

/-- The type is no literal with its base among the others. -/
def stays (ts : List Ty) (t : Ty) : Bool :=
  match t.base? with
  | some base => base ∉ ts
  | none => true

theorem absorbLiterals_eq (ts : List Ty) : absorbLiterals ts = ts.filter (stays ts) := rfl

theorem settled_eq (ts : List Ty) :
    settled ts = sortMembers (distinct ((completed ts).filter (stays (completed ts)))) := rfl

theorem stays_congr (h : ∀ base : Ty, base.base? = none → (base ∈ ts ↔ base ∈ us)) :
    stays ts = stays us := by
  funext t
  unfold stays
  split
  next base hbase =>
    obtain ⟨p, _, rfl⟩ := base?_eq_some hbase
    simp only [h (.primitive p) rfl]
  next => rfl

theorem Present.mono (h : Present ts u) (hsub : ts ⊆ us) : Present us u :=
  h.imp (hsub ·) fun ⟨hu, htrue, hfalse⟩ ↦ ⟨hu, hsub htrue, hsub hfalse⟩

theorem mem_completed : u ∈ completed ts ↔ Present ts u := by
  unfold completed Present
  split
  next hboth => simp [hboth]
  next hnot => simp only [hnot, and_false, or_false]

theorem mem_settled : u ∈ settled ts ↔
    Present ts u ∧ ∀ base, u.base? = some base → ¬Present ts base := by
  rw [settled, (sortMembers_perm _).mem_iff, mem_distinct, mem_absorbLiterals]
  simp only [mem_completed]

theorem eq_boolean_of_unionKey (h : t.unionKey = unionKey (.primitive .boolean)) :
    t = .primitive .boolean := by
  have hrank : t.unionRank = 3 := congrArg Prod.fst h
  unfold unionRank at hrank
  split at hrank <;> first | rfl | cases hrank

/-- The members in order are the same if those other than `boolean` occur in the same order. -/
theorem sortMembers_distinct_congr
    (hboolean : .primitive .boolean ∈ ts ↔ .primitive .boolean ∈ us)
    (h : ∀ key ≠ unionKey (.primitive .boolean),
      distinct (withKey key ts) = distinct (withKey key us)) :
    sortMembers (distinct ts) = sortMembers (distinct us) := by
  refine sortMembers_congr fun key ↦ ?_
  unfold withKey at h ⊢
  by_cases hkey : key = unionKey (.primitive .boolean)
  · have honly (vs : List Ty) : (distinct vs).filter (·.unionKey = key) =
        if .primitive .boolean ∈ vs then [.primitive .boolean] else [] := by
      have hnodup := (nodup_distinct vs).filter (·.unionKey = key)
      have hmem (v : Ty) : v ∈ (distinct vs).filter (·.unionKey = key) ↔
          v = .primitive .boolean ∧ .primitive .boolean ∈ vs := by
        rw [List.mem_filter, mem_distinct, decide_eq_true_eq, hkey]
        constructor
        · rintro ⟨hv, heq⟩
          obtain rfl := eq_boolean_of_unionKey heq
          exact ⟨rfl, hv⟩
        · rintro ⟨rfl, hv⟩
          exact ⟨hv, rfl⟩
      split
      next hboolean =>
        refine List.perm_singleton.mp
          ((List.perm_ext_iff_of_nodup hnodup (by simp)).mpr fun v ↦ ?_)
        rw [hmem, and_iff_left hboolean, List.mem_singleton]
      next hnone => exact List.eq_nil_iff_forall_not_mem.mpr fun v hv ↦ hnone ((hmem v).mp hv).2
    simp only [honly, hboolean]
  · rw [← distinct_filter, ← distinct_filter, h key hkey]

theorem withKey_completed {key : Nat × String} (hkey : key ≠ unionKey (.primitive .boolean))
    (ts : List Ty) : withKey key (completed ts) = withKey key ts := by
  unfold completed withKey
  split
  · rw [List.filter_append, List.filter_cons_of_neg (by simpa using hkey.symm)]
    exact List.append_nil _
  · rfl

theorem withKey_filter (key : Nat × String) (p : Ty → Bool) (ts : List Ty) :
    withKey key (ts.filter p) = (withKey key ts).filter p := by
  unfold withKey
  rw [List.filter_filter, List.filter_filter]
  exact List.filter_congr fun _ _ ↦ Bool.and_comm _ _

/-- Changing only what is filtered out afterwards changes nothing. -/
theorem filter_map_of_fixed {f : Ty → Ty} {p : Ty → Bool} (hp : ∀ u, p (f u) = p u)
    (hf : ∀ u, p u = true → f u = u) (ts : List Ty) : (ts.map f).filter p = ts.filter p := by
  have hcomp : p ∘ f = p := funext hp
  rw [List.filter_map, hcomp]
  exact (List.map_congr_left fun u hu ↦ hf u (List.mem_filter.mp hu).2).trans (List.map_id _)

/-- It does not matter that `boolean` comes to stand where its literals were. -/
theorem sortMembers_absorbLiterals (l : List Ty) :
    sortMembers (absorbLiterals (joinBooleans (distinct l))) = settled l := by
  have hmem (v : Ty) (hv : ∀ b, v ≠ .literal (.boolean b)) :
      v ∈ joinBooleans (distinct l) ↔ v ∈ completed l := by
    rw [mem_joinBooleans_iff _ hv, mem_completed]
    simp only [Present, mem_distinct]
  have hstays : stays (joinBooleans (distinct l)) = stays (completed l) :=
    stays_congr fun base hbase ↦ hmem base (by rintro b rfl; cases hbase)
  have hboolean := hmem (.primitive .boolean) fun b hb ↦ Ty.noConfusion hb
  rw [absorbLiterals_eq, hstays, settled_eq]
  unfold joinBooleans at hboolean ⊢
  simp only [mem_distinct] at hboolean ⊢
  split at hboolean
  next hboth =>
    rw [if_pos hboth, ← distinct_filter]
    rw [mem_distinct] at hboolean
    refine sortMembers_distinct_congr ?_ fun key hkey ↦ ?_
    · rw [List.mem_filter, List.mem_filter, hboolean]
    · -- Neither `boolean` nor its literals are under the key and stay.
      have habsent : ∀ b, stays (completed l) (.literal (.boolean b)) = false := fun b ↦
        decide_eq_false (not_not_intro (mem_completed.mpr (.inr ⟨rfl, hboth⟩)))
      have hmap (f : Ty → Ty) (hjoined : ∀ b, f (.literal (.boolean b)) = .primitive .boolean)
          (hother : ∀ u, (∀ b, u ≠ .literal (.boolean b)) → f u = u) :
          withKey key (((distinct l).map f).filter (stays (completed l))) =
            withKey key ((distinct l).filter (stays (completed l))) := by
        unfold withKey
        rw [List.filter_filter, List.filter_filter]
        refine filter_map_of_fixed (fun u ↦ ?_) (fun u hu ↦ ?_) _
        · by_cases hu : ∀ b, u ≠ .literal (.boolean b)
          · rw [hother u hu]
          · obtain ⟨b, hb⟩ := Classical.not_forall.mp hu
            obtain rfl := Classical.not_not.mp hb
            rw [hjoined, habsent, Bool.and_false, decide_eq_false hkey.symm, Bool.false_and]
        · refine hother u ?_
          rintro b rfl
          rw [habsent, Bool.and_false] at hu
          cases hu
      rw [hmap _ (fun _ ↦ rfl) fun u hu ↦ ?_, withKey_filter, withKey_filter,
        withKey_completed hkey,
        withKey, ← distinct_filter, ← distinct_filter, distinct_of_nodup (nodup_distinct _)]
      · rfl
      · split
        next b => exact absurd rfl (hu b)
        next => rfl
  next hnot => rw [if_neg hnot, completed, if_neg hnot, ← distinct_filter]

/-! ## Parts that are settled before -/

/-- A part can be settled before the whole, and the same types stand with it in the whole. -/
theorem present_settled (pre post : List Ty) (hu : u.base? = none) :
    Present (pre ++ settled m ++ post) u ↔ Present (pre ++ m ++ post) u := by
  have hkept : u ∈ settled m ↔ Present m u := by
    rw [mem_settled, hu]
    simp
  have hliteral (b : Bool) : .literal (.boolean b) ∈ settled m ↔
      .literal (.boolean b) ∈ m ∧ ¬Present m (.primitive .boolean) := by
    rw [mem_settled]
    simp [Present, base?]
  unfold Present at hkept hliteral ⊢
  simp only [List.mem_append, hkept, hliteral]
  by_cases hboolean : u = .primitive .boolean
  · subst hboolean
    simp only [true_and]
    grind
  · simp only [hboolean, false_and, or_false]

theorem settled_append_settled (pre m post : List Ty) :
    settled (pre ++ settled m ++ post) = settled (pre ++ m ++ post) := by
  have hstays : stays (completed (pre ++ settled m ++ post)) =
      stays (completed (pre ++ m ++ post)) := stays_congr fun base hbase ↦ by
    rw [mem_completed, mem_completed, present_settled pre post hbase]
  have hsettled (u : Ty) (hu : stays (completed (pre ++ m ++ post)) u = true) :
      stays (completed m) u = true := by
    unfold stays at hu ⊢
    split
    next base hbase =>
      rw [hbase] at hu
      simp only [mem_completed, decide_eq_true_eq] at hu ⊢
      exact fun hpresent ↦ hu (hpresent.mono (by simp))
    next => rfl
  rw [settled_eq (pre ++ settled m ++ post), settled_eq (pre ++ m ++ post), hstays]
  refine sortMembers_distinct_congr ?_ fun key hkey ↦ ?_
  · rw [List.mem_filter, List.mem_filter, mem_completed, mem_completed,
      present_settled pre post rfl]
  · have hmiddle : (withKey key (settled m)).filter (stays (completed (pre ++ m ++ post))) =
        distinct ((withKey key m).filter (stays (completed (pre ++ m ++ post)))) := by
      rw [settled_eq, withKey_sortMembers, withKey, ← distinct_filter, ← distinct_filter,
        ← withKey, withKey_filter, withKey_completed hkey, List.filter_filter]
      refine congrArg distinct (List.filter_congr fun u _ ↦ ?_)
      cases hu : stays (completed (pre ++ m ++ post)) u with
      | false => rfl
      | true => rw [hsettled u hu]; rfl
    rw [withKey_filter, withKey_filter, withKey_completed hkey, withKey_completed hkey]
    simp only [withKey, List.filter_append] at hmiddle ⊢
    rw [hmiddle, distinct_append_distinct]

/-! ## Unions -/

theorem join_eq_settled (ts : List Ty) : join ts =
    if any ∈ ts.flatMap unionMembers then any
    else if unknown ∈ ts.flatMap unionMembers then unknown
    else unionOf (settled (ts.flatMap unionMembers)) := by
  rw [join_eq, flatMembers, keptMembers, flatMembers, sortMembers_absorbLiterals]
  simp only [mem_distinct]

/-- A union among the types that a union is built from can be replaced by what it is built from. -/
theorem join_splice (h : ∀ t ∈ ts, t.Joined) (pre post : List Ty) :
    join (pre ++ join ts :: post) = join (pre ++ ts ++ post) := by
  have hcanonical : ∀ t ∈ ts, ∀ vs, t = .union vs → CanonicalUnion vs :=
    fun t ht ↦ (h t ht).canonical
  rw [join_eq_settled (pre ++ join ts :: post), join_eq_settled (pre ++ ts ++ post)]
  simp only [List.flatMap_append, List.flatMap_cons]
  by_cases hany : any ∈ ts.flatMap unionMembers
  · rw [show join ts = any by rw [join_eq_settled, if_pos hany]]
    simp [hany, unionMembers]
  by_cases hunknown : unknown ∈ ts.flatMap unionMembers
  · rw [show join ts = unknown by rw [join_eq_settled, if_neg hany, if_pos hunknown]]
    simp [hany, hunknown, unionMembers]
  have hmembers : (join ts).unionMembers = settled (ts.flatMap unionMembers) := by
    rw [unionMembers_join hcanonical (mt mem_distinct.mp hany) (mt mem_distinct.mp hunknown),
      keptMembers, flatMembers, sortMembers_absorbLiterals]
  have htop (p : Primitive) (hp : p ≠ .boolean) :
      .primitive p ∈ settled (ts.flatMap unionMembers) ↔
      .primitive p ∈ ts.flatMap unionMembers := by
    rw [mem_settled]
    simp [Present, base?, hp]
  rw [← List.append_assoc, hmembers, settled_append_settled]
  have hany' := htop .any (by decide)
  have hunknown' := htop .unknown (by decide)
  simp only [List.mem_append, hany', hunknown']

theorem settled_of
    (hbooleans : ¬(.literal (.boolean true) ∈ ts ∧ .literal (.boolean false) ∈ ts))
    (hbases : ∀ t ∈ ts, ∀ base, t.base? = some base → base ∉ ts) (hnodup : ts.Nodup)
    (hordered : ts.Pairwise fun a b ↦ keyLe a.unionKey b.unionKey = true) : settled ts = ts := by
  have hstays : ts.filter (stays ts) = ts := List.filter_eq_self.mpr fun t ht ↦ by
    unfold stays
    split
    next base hbase => simpa using hbases t ht base hbase
    next => rfl
  have hcompleted : completed ts = ts := if_neg hbooleans
  rw [settled_eq, hcompleted, hstays, distinct_of_nodup hnodup, sortMembers_of_pairwise hordered]

theorem CanonicalUnion.settled_sublist (h : CanonicalUnion us) (hsub : ts.Sublist us) :
    settled ts = ts :=
  settled_of (fun hboth ↦ h.not_both_booleans ⟨hsub.subset hboth.1, hsub.subset hboth.2⟩)
    (fun t ht base hbase hmem ↦ h.base_not_mem t (hsub.subset ht) base hbase (hsub.subset hmem))
    (h.nodup.sublist hsub) (h.ordered.sublist hsub)

/-- Some members of a canonical union, in order, make up their union. -/
theorem CanonicalUnion.join_sublist (h : CanonicalUnion us) (hsub : ts.Sublist us) :
    join ts = unionOf ts := by
  have hsingle : ∀ t ∈ ts, t.unionMembers = [t] := fun t ht ↦ by
    have hmem := hsub.subset ht
    unfold unionMembers
    split
    next vs => exact absurd hmem (h.flat vs)
    next => exact absurd hmem h.never_not_mem
    next => rfl
  rw [join_eq_settled, List.flatMap_congr hsingle, List.flatMap_singleton',
    if_neg fun hany ↦ h.any_not_mem (hsub.subset hany),
    if_neg fun hunknown ↦ h.unknown_not_mem (hsub.subset hunknown), h.settled_sublist hsub]

theorem unionOf_of_two_le (h : 2 ≤ ts.length) : unionOf ts = .union ts := by
  match ts with
  | [] | [_] => simp at h
  | _ :: _ :: _ => rfl

theorem CanonicalUnion.join_eq_union (h : CanonicalUnion us) : join us = .union us := by
  rw [h.join_sublist (.refl us), unionOf_of_two_le h.two_le]

theorem join_singleton (h : ∀ us, t = .union us → CanonicalUnion us) : join [t] = t := by
  have hsettled (u : Ty) : settled [u] = [u] :=
    settled_of (fun hboth ↦ by
        cases (List.mem_singleton.mp hboth.1).trans (List.mem_singleton.mp hboth.2).symm)
      (fun v hv base hbase hmem ↦ by
        obtain rfl := List.mem_singleton.mp hv
        obtain ⟨p, _, rfl⟩ := base?_eq_some hbase
        obtain rfl := List.mem_singleton.mp hmem
        cases hbase) (by simp) (by simp)
  rw [join_eq_settled, List.flatMap_singleton]
  unfold unionMembers
  split
  next us =>
    have hus := h us rfl
    rw [if_neg hus.any_not_mem, if_neg hus.unknown_not_mem, hus.settled_sublist (.refl us),
      unionOf_of_two_le hus.two_le]
  next => rw [if_neg List.not_mem_nil, if_neg List.not_mem_nil, settled_of] <;> simp [unionOf]
  next =>
    rw [hsettled]
    split
    next hany => exact List.mem_singleton.mp hany
    split
    next hunknown => exact List.mem_singleton.mp hunknown
    next => rfl

/-! ## Groups -/

/-- Types in groups, and these in groups again. -/
inductive Groups where
  | one (t : Ty)
  | group (parts : List Groups)

mutual

/-- The union of the types, with the union of each group taken by itself. -/
def Groups.join : Groups → Ty
  | .one t => t
  | .group parts => Ty.join (joinEach parts)

def joinEach : List Groups → List Ty
  | [] => []
  | part :: rest => part.join :: joinEach rest

end

mutual

/-- The types without the groups. -/
def Groups.types : Groups → List Ty
  | .one t => [t]
  | .group parts => typesOfEach parts

def typesOfEach : List Groups → List Ty
  | [] => []
  | part :: rest => part.types ++ typesOfEach rest

end

mutual

theorem joined_groups : (g : Groups) → (∀ t ∈ g.types, t.Joined) → g.join.Joined
  | .one t, h => by
      rw [Groups.join]
      exact h t (by simp [Groups.types])
  | .group parts, h => by
      rw [Groups.types] at h
      rw [Groups.join]
      exact .join (joined_each parts h)

theorem joined_each : (parts : List Groups) → (∀ t ∈ typesOfEach parts, t.Joined) →
    ∀ t ∈ joinEach parts, t.Joined
  | [], _ => by simp [joinEach]
  | part :: rest, h => by
      rw [typesOfEach] at h
      rw [joinEach]
      exact List.forall_mem_cons.mpr ⟨joined_groups part fun t ht ↦
        h t (List.mem_append_left _ ht),
        joined_each rest fun t ht ↦ h t (List.mem_append_right _ ht)⟩

end

mutual

/-- A group can be opened where it stands. -/
theorem join_open_group (pre post : List Ty) : (g : Groups) → (∀ t ∈ g.types, t.Joined) →
    join (pre ++ g.join :: post) = join (pre ++ g.types ++ post)
  | .one t, _ => by simp [Groups.join, Groups.types]
  | .group parts, h => by
      rw [Groups.types] at h ⊢
      rw [Groups.join, join_splice (joined_each parts h), join_open_each pre post parts h]

theorem join_open_each (pre post : List Ty) : (parts : List Groups) →
    (∀ t ∈ typesOfEach parts, t.Joined) →
    join (pre ++ joinEach parts ++ post) = join (pre ++ typesOfEach parts ++ post)
  | [], _ => by rw [joinEach, typesOfEach]
  | part :: rest, h => by
      rw [typesOfEach] at h ⊢
      have hpart := join_open_group pre (joinEach rest ++ post) part fun t ht ↦
        h t (List.mem_append_left _ ht)
      have hrest := join_open_each (pre ++ part.types) post rest fun t ht ↦
        h t (List.mem_append_right _ ht)
      simp only [joinEach, List.append_assoc, List.cons_append] at hpart hrest ⊢
      rw [hpart, hrest]

end

/-! ## Nullable members -/

theorem widenNullables_unionOf (h : CanonicalUnion us) {rest : List Ty} (hsub : rest.Sublist us)
    (hrest : rest.filter (!·.isNullable) = rest) :
    (unionOf rest).widenNullables = unionOf rest := by
  match hlist : rest with
  | [] => rfl
  | [t] =>
    rw [unionOf]
    unfold widenNullables
    split
    next vs => exact absurd (hsub.subset (List.mem_singleton_self _)) (h.flat vs)
    next => rfl
  | a :: b :: others =>
    rw [unionOf, widenNullables, hrest]
    · exact h.join_sublist hsub
    all_goals nofun

/-- Leaving out nullable members once more changes nothing. -/
theorem widenNullables_widenNullables (h : ∀ us, t = .union us → CanonicalUnion us) :
    t.widenNullables.widenNullables = t.widenNullables := by
  cases t with
  | union us =>
      have hus := h us rfl
      have hsub (keep : Ty → Bool) : (us.filter keep).Sublist us := List.filter_sublist
      rw [widenNullables]
      split
      next hnone =>
        have hall : us.filter isNullable = us := List.filter_eq_self.mpr fun u hu ↦ by
          simpa using List.filter_eq_nil_iff.mp hnone u hu
        rw [hall, hus.join_eq_union, widenNullables, hnone, hall, hus.join_eq_union]
      next rest hrest =>
        rw [hus.join_sublist (hsub _)]
        exact widenNullables_unionOf hus (hsub _) (by simp)
  | _ => rfl

/-- The union of unions is the union of all types in them, so types can be put together in any
groups, one after the other or again and again; a type that is no union or one in canonical form is
its own union. A canonical type without its nullable members is canonical, and has no more to leave
out. -/
theorem join_groups :
    (∀ ts us : List Ty, (∀ t ∈ ts ++ us, t.Joined) → join [join ts, join us] =
      join (ts ++ us)) ∧
    (∀ t : Ty, (∀ us, t = .union us → CanonicalUnion us) → join [t] = t) ∧
    (∀ parts, (∀ t ∈ typesOfEach parts, t.Joined) →
      (Groups.group parts).join = join (typesOfEach parts)) ∧
    ∀ t : Ty, (∀ us, t = .union us → CanonicalUnion us) →
      (∀ us, t.widenNullables = .union us → CanonicalUnion us) ∧
        t.widenNullables.widenNullables = t.widenNullables := by
  refine ⟨fun ts us h ↦ ?_, fun t ↦ join_singleton, fun parts h ↦ ?_,
    fun t h ↦ ⟨fun us hus ↦ (canonicalUnion_widenNullables h hus).1,
      widenNullables_widenNullables h⟩⟩
  · have hts := join_splice (fun t ht ↦ h t (List.mem_append_left us ht)) [] [join us]
    have hus := join_splice (fun t ht ↦ h t (List.mem_append_right ts ht)) ts []
    rw [List.append_nil] at hus
    exact hts.trans hus
  · have hopen := join_open_each [] [] parts h
    rwa [List.nil_append, List.append_nil, List.nil_append, List.append_nil] at hopen

/-- Two members that are ordered by the same text, and the two boolean literals, in groups that take
them apart; and a canonical union with a nullable member. -/
theorem join_groups_tied :
    let f : Ty := .function ⟨false, false, [], [], .primitive .void⟩
    let v : Ty := .verbatim "() => void"
    let ts := [v, .literal (.boolean true)]
    let us := [.literal (.boolean false), f]
    let parts := [Groups.group [.one v, .group [.one (.literal (.boolean true))]],
      .group [.one (.literal (.boolean false)), .one f]]
    let t : Ty := .union [.string, .undefined]
    f ≠ v ∧ f.unionKey = v.unionKey ∧ (∀ t ∈ ts ++ us, t.Joined) ∧
      join [join ts, join us] = join (ts ++ us) ∧ typesOfEach parts = ts ++ us ∧
      (Groups.group parts).join = join (ts ++ us) ∧
      (∀ us, t = .union us → CanonicalUnion us) ∧
      join [t] = t ∧ t.widenNullables.widenNullables = t.widenNullables := by
  intro f v ts us parts t
  have hjoined : ∀ t ∈ ts ++ us, t.Joined := by
    simp only [ts, us, f, v, List.cons_append, List.nil_append, List.forall_mem_cons]
    exact ⟨.single nofun, .single nofun, .single nofun, .single nofun, nofun⟩
  have htypes : typesOfEach parts = ts ++ us := by decide +kernel
  have ht : join [.string, .undefined] = t := by
    have hkept : keptMembers [.string, .undefined] = [.string, .undefined] := by decide +kernel
    rw [join_eq, if_neg (by decide +kernel), if_neg (by decide +kernel), hkept,
      sortMembers_of_pairwise (by decide +kernel)]
    rfl
  have hcanonical : ∀ us, t = .union us → CanonicalUnion us := fun us hus ↦
    canonicalUnion_join (by simp) (ht.trans hus)
  exact ⟨nofun, by decide +kernel, hjoined, join_groups.1 ts us hjoined, htypes,
    htypes ▸ join_groups.2.2.1 parts (htypes ▸ hjoined), hcanonical,
    join_groups.2.1 t hcanonical, (join_groups.2.2.2 t hcanonical).2⟩

end PluginSurface.Ty
