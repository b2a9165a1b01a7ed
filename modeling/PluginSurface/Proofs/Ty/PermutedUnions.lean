import PluginSurface.Proofs.Ty.NestedUnions
import PluginSurface.Proofs.Ty.ReadBack

/-!
# Permutations of a union

The members of a union are put in order by their texts, and written with parentheses only if they
are function-like. A function and a type that is kept as text can have the same text, and then they
stay in the order in which they were given. Main statement: `render_join_perm`, by which a
permutation can move parentheses between such members, and changes nothing else.
-/

namespace PluginSurface.Ty

variable {ts us : List Ty} {t u : Ty}

/-- Members that are ordered by the same key are all written with parentheses, or all without. -/
def TiesAlike (ts : List Ty) : Prop :=
  ∀ t ∈ ts, ∀ u ∈ ts, t.unionKey = u.unionKey → t.isFunctionLike = u.isFunctionLike

/-! ## The same keys in the same order -/

theorem map_eq_of_map_eq {α β γ : Type} {f : α → β} {g : α → γ} {xs ys : List α}
    (h : xs.map f = ys.map f) (hg : ∀ x ∈ xs, ∀ y ∈ ys, f x = f y → g x = g y) :
    xs.map g = ys.map g := by
  induction xs generalizing ys with
  | nil => rw [List.map_eq_nil_iff.mp h.symm]
  | cons x xs ih =>
      obtain ⟨y, ys, rfl, hxy, hrest⟩ := List.map_eq_cons_iff.mp h.symm
      rw [List.map_cons, List.map_cons, hg x List.mem_cons_self y List.mem_cons_self hxy.symm,
        ih hrest.symm fun x hx y hy ↦
        hg x (List.mem_cons_of_mem _ hx) y (List.mem_cons_of_mem _ hy)]

theorem map_pair {α β γ : Type} {f : α → β} {g : α → γ} {xs ys : List α}
    (hf : xs.map f = ys.map f) (hg : xs.map g = ys.map g) :
    (xs.map fun x ↦ (f x, g x)) = ys.map fun y ↦ (f y, g y) := by
  rw [← List.zip_map', ← List.zip_map', hf, hg]

theorem perm_settled (h : us.Perm ts) : (settled us).Perm (settled ts) := by
  have hnodup (vs : List Ty) : (settled vs).Nodup :=
    (sortMembers_perm _).symm.nodup (nodup_distinct _)
  refine (List.perm_ext_iff_of_nodup (hnodup us) (hnodup ts)).mpr fun v ↦ ?_
  simp only [mem_settled, Present, h.mem_iff]

theorem map_unionKey_sortMembers (h : us.Perm ts) :
    (sortMembers us).map unionKey = (sortMembers ts).map unionKey := by
  have hordered (vs : List Ty) :
      ((sortMembers vs).map unionKey).Pairwise fun a b ↦ keyLe a b = true :=
    List.pairwise_map.mpr (pairwise_sortMembers vs)
  have hperm := (sortMembers_perm us).trans (h.trans (sortMembers_perm ts).symm)
  exact (hperm.map unionKey).eq_of_pairwise (fun _ _ _ _ ↦ keyLe_antisymm)
    (hordered us) (hordered ts)

theorem map_unionKey_settled (h : us.Perm ts) :
    (settled us).map unionKey = (settled ts).map unionKey := by
  have hsorted (vs : List Ty) : sortMembers (settled vs) = settled vs :=
    sortMembers_of_pairwise (pairwise_sortMembers _)
  rw [← hsorted us, ← hsorted ts]
  exact map_unionKey_sortMembers (perm_settled h)

/-- Beside a union of several members, which are the same up to order, a permutation leaves a union
as it is. -/
theorem join_perm (h : us.Perm ts) :
    join us = join ts ∨
      ∃ vs ws, join us = .union vs ∧ join ts = .union ws ∧ ws ≠ [] ∧ vs.Perm ws ∧
        vs.map unionKey = ws.map unionKey := by
  have hmembers := h.flatMap_right unionMembers
  rw [join_eq_settled, join_eq_settled]
  simp only [hmembers.mem_iff]
  split
  · exact .inl rfl
  split
  · exact .inl rfl
  have hperm := perm_settled hmembers
  have hlength := hperm.length_eq
  match hus : settled (us.flatMap unionMembers), hts : settled (ts.flatMap unionMembers) with
  | [], ws =>
    rw [hus, hts] at hperm
    rw [hperm.nil_eq]
    exact .inl rfl
  | [v], ws =>
    rw [hus, hts] at hperm
    rw [List.perm_singleton.mp hperm.symm]
    exact .inl rfl
  | v :: v' :: vs, ws =>
    rw [hus, hts] at hperm hlength
    have htwo : 2 ≤ ws.length := by simp [← hlength]
    refine .inr ⟨_, ws, rfl, unionOf_of_two_le htwo, ?_, hperm, ?_⟩
    · exact List.ne_nil_of_length_pos (Nat.lt_of_lt_of_le (by decide) htwo)
    · rw [← hus, ← hts]
      exact map_unionKey_settled hmembers

/-! ## Texts -/

theorem eq_of_unionKey {p : Primitive}
    (hp : unionRank (.primitive p) < 10 ∨ 30 ≤ unionRank (.primitive p))
    (h : t.unionKey = unionKey (.primitive p)) : t = .primitive p := by
  have hrank : t.unionRank = unionRank (.primitive p) := congrArg Prod.fst h
  cases p <;> simp [unionRank] at hp <;>
  · unfold unionRank at hrank
    split at hrank <;> first | rfl | cases hrank

/-- The text of a member is told by what it is ordered by. -/
theorem render_of_unionKey (h : t.unionKey = u.unionKey) : t.render = u.render := by
  have hrank : t.unionRank = u.unionRank := congrArg Prod.fst h
  by_cases hu : u.unionRank < 10 ∨ 30 ≤ u.unionRank
  · have hprimitive : ∃ p, u = .primitive p := by
      unfold unionRank at hu
      split at hu <;> first | exact ⟨_, rfl⟩ | simp at hu
    obtain ⟨p, rfl⟩ := hprimitive
    rw [eq_of_unionKey hu h]
  · have htext := congrArg Prod.snd h
    unfold unionKey at htext
    dsimp only at htext
    rwa [hrank, if_neg hu, if_neg hu] at htext

/-- What follows a member in the text of a union. -/
def renderMore (ts : List Ty) : String := String.join ((ts.map renderAlternative).map (" | " ++ ·))

/-- Nothing follows a member but a blank before the next one. -/
theorem head?_alternatives (ts : List Ty) :
    ∀ c ∈ (renderMore ts).toList.head?, c = ' ' := by
  cases ts with
  | nil => simp [renderMore]
  | cons t ts =>
      rw [renderMore, List.map_cons, List.map_cons, String.join_cons, String.append_assoc,
        String.toList_append]
      rintro c ⟨⟩
      rfl

/-- A text in parentheses is not the same text without them, before a blank or the end. -/
theorem parenthesis_ne (text after : List Char) {rest : List Char}
    (hrest : ∀ c ∈ rest.head?, c = ' ') : '(' :: (text ++ ')' :: after) ≠ text ++ rest := by
  induction text with
  | nil =>
      rintro rfl
      exact absurd (hrest '(' rfl) (by decide)
  | cons c text ih =>
      intro h
      obtain ⟨rfl, h⟩ := List.cons.inj h
      exact ih h

theorem parenthesized_ne (text : String) (us ts : List Ty) :
    parenthesized true text ++ renderMore us ≠ parenthesized false text ++ renderMore ts := by
  intro h
  have hlists := congrArg String.toList h
  simp only [parenthesized, if_true, Bool.false_eq_true, if_false, String.toList_append,
    List.append_assoc] at hlists
  exact parenthesis_ne text.toList _ (head?_alternatives ts) hlists

/-- The text of a union tells which of its members are in parentheses. -/
theorem map_isFunctionLike_of_renderMore (hkeys : us.map unionKey = ts.map unionKey)
    (h : renderMore us = renderMore ts) : us.map isFunctionLike = ts.map isFunctionLike := by
  induction us generalizing ts with
  | nil => rw [List.map_eq_nil_iff.mp hkeys.symm]
  | cons u us ih =>
      obtain ⟨t, ts', rfl, hkey, hkeys⟩ := List.map_eq_cons_iff.mp hkeys.symm
      simp only [renderMore, List.map_cons, String.join_cons, String.append_assoc] at h
      replace h := (String.append_right_inj " | ").mp h
      rw [renderAlternative, renderAlternative, render_of_unionKey hkey] at h
      have hwritten : u.isFunctionLike = t.isFunctionLike := by
        cases hu : u.isFunctionLike <;> cases ht : t.isFunctionLike <;> rw [hu, ht] at h
        · exact absurd h.symm (parenthesized_ne _ _ _)
        · exact absurd h (parenthesized_ne _ _ _)
      rw [hwritten] at h
      rw [List.map_cons, List.map_cons, hwritten, ih hkeys.symm ((String.append_right_inj _).mp h)]

theorem renderMore_eq (h : ts ≠ []) : renderMore ts = " | " ++ (union ts).render := by
  obtain ⟨t, ts, rfl⟩ := List.exists_cons_of_ne_nil h
  rw [renderMore, List.map_cons, List.map_cons, String.join_cons, String.append_assoc, render,
    renderUnion_eq_map, List.map_cons, intercalate_cons]

theorem render_union_iff (hts : ts ≠ []) (hkeys : us.map unionKey = ts.map unionKey) :
    (union us).render = (union ts).render ↔ us.map isFunctionLike = ts.map isFunctionLike := by
  have hus : us ≠ [] := by
    rintro rfl
    exact hts (List.map_eq_nil_iff.mp hkeys.symm)
  constructor
  · intro h
    refine map_isFunctionLike_of_renderMore hkeys ?_
    rw [renderMore_eq hus, renderMore_eq hts, h]
  · intro h
    have htexts : us.map renderAlternative = ts.map renderAlternative := by
      refine map_eq_of_map_eq (map_pair hkeys h) fun u _ t _ hpair ↦ ?_
      rw [renderAlternative, renderAlternative, render_of_unionKey (congrArg Prod.fst hpair),
        show u.isFunctionLike = t.isFunctionLike from congrArg Prod.snd hpair]
    rw [render, render, renderUnion_eq_map, renderUnion_eq_map, htexts]

/-! ## Ties -/

theorem map_isFunctionLike_of_tiesAlike (h : TiesAlike ts) (hperm : us.Perm ts)
    (hkeys : us.map unionKey = ts.map unionKey) :
    us.map isFunctionLike = ts.map isFunctionLike :=
  map_eq_of_map_eq hkeys fun u hu t ht ↦ h u (hperm.subset hu) t ht

theorem map_withKey {f : Ty → Bool} (hkeys : us.map unionKey = ts.map unionKey)
    (hf : us.map f = ts.map f) (key : Nat × String) :
    (withKey key us).map f = (withKey key ts).map f := by
  have hall (vs : List Ty) : (withKey key vs).map f =
      ((vs.map fun t ↦ (t.unionKey, f t)).filter (·.1 = key)).map Prod.snd := by
    rw [List.filter_map, List.map_map]
    rfl
  rw [hall, hall, map_pair hkeys hf]

/-- Among members that are no literals and not `boolean`, those under a key are given in order. -/
theorem withKey_settled {key : Nat × String} (hkey : key.1 = 20) (l : List Ty) :
    withKey key (settled l) = distinct (withKey key l) := by
  have hstays : ∀ t ∈ withKey key l, stays (completed l) t = true := by
    intro t ht
    have hrank : t.unionRank = 20 := by
      rw [← hkey, ← of_decide_eq_true (List.mem_filter.mp ht).2]
      rfl
    have hbase : t.base? = none := by
      unfold base?
      split <;> first | rfl | cases hrank
    rw [stays, hbase]
  have hboolean : key ≠ unionKey (.primitive .boolean) := by
    rintro rfl
    cases hkey
  rw [settled_eq, withKey_sortMembers, withKey, ← distinct_filter, ← withKey, withKey_filter,
    withKey_completed hboolean, List.filter_eq_self.mpr hstays]

/-! ## Permutations -/

theorem map_unionKey_join (h : us.Perm ts) :
    (join us).unionMembers.map unionKey = (join ts).unionMembers.map unionKey := by
  rcases join_perm h with heq | ⟨vs, ws, hvs, hws, -, -, hkeys⟩
  · rw [heq]
  · rw [hvs, hws]
    exact hkeys

theorem render_join_iff (h : us.Perm ts) : (join us).render = (join ts).render ↔
    (join us).unionMembers.map isFunctionLike = (join ts).unionMembers.map isFunctionLike := by
  rcases join_perm h with heq | ⟨vs, ws, hvs, hws, hne, -, hkeys⟩
  · simp only [heq]
  · rw [hvs, hws]
    exact render_union_iff hne hkeys

theorem render_join_of_tiesAlike (h : us.Perm ts) (hties : TiesAlike (join ts).unionMembers) :
    (join us).render = (join ts).render := by
  rcases join_perm h with heq | ⟨vs, ws, hvs, hws, -, hperm, hkeys⟩
  · rw [heq]
  · rw [hws] at hties
    rw [render_join_iff h, hvs, hws]
    exact map_isFunctionLike_of_tiesAlike hties hperm hkeys

theorem eq_of_mem_unionMembers (ht : ∀ vs, t ≠ .union vs) (hu : u ∈ t.unionMembers) :
    u = t := by
  unfold unionMembers at hu
  split at hu
  · exact absurd rfl (ht _)
  · cases hu
  · exact List.mem_singleton.mp hu

/-- The type that is given first under a key stays the first one. -/
theorem exists_distinct_eq_cons (hu : u ∈ us) (ts : List Ty) :
    ∃ t ∈ us, ∃ rest, distinct (us ++ ts) = t :: rest := by
  obtain ⟨t, us, rfl⟩ := List.exists_cons_of_ne_nil (List.ne_nil_of_mem hu)
  exact ⟨t, List.mem_cons_self, _, distinct_cons t (us ++ ts)⟩

/-- Under a key, the members that are given first are those that a condition picks out of the types,
if these are put first. -/
theorem exists_withKey_settled {p : Ty → Bool} {f : Ty} (hp : p f = true)
    (hflat : ∀ t ∈ ts, ∀ vs, t ≠ .union vs) (hf : f ∈ ts.flatMap unionMembers)
    (hrank : f.unionRank = 20) (l : List Ty) :
    ∃ t, p t = true ∧ ∃ rest,
      withKey f.unionKey (settled ((ts.filter p ++ l).flatMap unionMembers)) = t :: rest := by
  have hfront : f ∈ withKey f.unionKey ((ts.filter p).flatMap unionMembers) := by
    obtain ⟨t, ht, hmem⟩ := List.mem_flatMap.mp hf
    obtain rfl := eq_of_mem_unionMembers (hflat t ht) hmem
    exact List.mem_filter.mpr
      ⟨List.mem_flatMap.mpr ⟨f, List.mem_filter.mpr ⟨ht, hp⟩, hmem⟩, decide_eq_true rfl⟩
  obtain ⟨t, ht, rest, hrest⟩ :=
    exists_distinct_eq_cons hfront (withKey f.unionKey (l.flatMap unionMembers))
  refine ⟨t, ?_, rest, ?_⟩
  · obtain ⟨u, hu, hmem⟩ := List.mem_flatMap.mp (List.mem_filter.mp ht).1
    obtain ⟨hu, hpu⟩ := List.mem_filter.mp hu
    rwa [eq_of_mem_unionMembers (hflat u hu) hmem]
  · rw [withKey_settled hrank, List.flatMap_append, withKey, List.filter_append]
    exact hrest

theorem unionMembers_join_of_flat (hflat : ∀ t ∈ ts, ∀ vs, t ≠ .union vs)
    (hany : any ∉ ts.flatMap unionMembers) (hunknown : unknown ∉ ts.flatMap unionMembers) :
    (join ts).unionMembers = settled (ts.flatMap unionMembers) := by
  rw [unionMembers_join (fun t ht vs hvs ↦ absurd hvs (hflat t ht vs)) (mt mem_distinct.mp hany)
    (mt mem_distinct.mp hunknown), keptMembers, flatMembers, sortMembers_absorbLiterals]

/-- Where a tie is written in two ways, the members that are given first are written first. -/
theorem exists_render_ne (hflat : ∀ t ∈ ts, ∀ vs, t ≠ .union vs) {f v : Ty}
    (hf : f ∈ (join ts).unionMembers) (hv : v ∈ (join ts).unionMembers)
    (hkey : f.unionKey = v.unionKey) (hfunction : f.isFunctionLike = true)
    (hother : v.isFunctionLike = false) :
    ∃ us, us.Perm ts ∧ (join us).render ≠ (join ts).render := by
  have hne : f ≠ v := by
    rintro rfl
    rw [hfunction] at hother
    cases hother
  have hfrank : f.unionRank = 20 := by
    unfold isFunctionLike at hfunction
    split at hfunction <;> first | rfl | cases hfunction
  have hvrank : v.unionRank = 20 := (congrArg Prod.fst hkey).symm.trans hfrank
  have hany : any ∉ ts.flatMap unionMembers := fun hany ↦ by
    rw [join_eq_settled, if_pos hany] at hf hv
    exact hne ((List.mem_singleton.mp hf).trans (List.mem_singleton.mp hv).symm)
  have hunknown : unknown ∉ ts.flatMap unionMembers := fun hunknown ↦ by
    rw [join_eq_settled, if_neg hany, if_pos hunknown] at hf hv
    exact hne ((List.mem_singleton.mp hf).trans (List.mem_singleton.mp hv).symm)
  have hmembers {us : List Ty} (h : us.Perm ts) :
      (join us).unionMembers = settled (us.flatMap unionMembers) := by
    have hflatMap := h.flatMap_right unionMembers
    exact unionMembers_join_of_flat (fun t ht ↦ hflat t (h.subset ht))
      (mt hflatMap.mem_iff.mp hany) (mt hflatMap.mem_iff.mp hunknown)
  have hgiven {u : Ty} (hu : u ∈ (join ts).unionMembers) (hrank : u.unionRank = 20) :
      u ∈ ts.flatMap unionMembers := by
    rw [hmembers (.refl ts), mem_settled] at hu
    refine hu.1.resolve_right ?_
    rintro ⟨rfl, -⟩
    cases hrank
  -- The functions first, and then the functions last.
  have hfirst := List.filter_append_perm isFunctionLike ts
  have hlast := List.perm_append_comm.trans hfirst
  by_contra hall
  have hsame : (join _).render = (join _).render :=
    (Classical.not_not.mp fun h ↦ hall ⟨_, hfirst, h⟩).trans
      (Classical.not_not.mp fun h ↦ hall ⟨_, hlast, h⟩).symm
  have hwithKey := map_withKey (map_unionKey_join (hfirst.trans hlast.symm))
    ((render_join_iff (hfirst.trans hlast.symm)).mp hsame) f.unionKey
  rw [hmembers hfirst, hmembers hlast] at hwithKey
  obtain ⟨t, ht, rest, hrest⟩ :=
    exists_withKey_settled hfunction hflat (hgiven hf hfrank) hfrank
    (ts.filter fun t ↦ !t.isFunctionLike)
  obtain ⟨u, hu, more, hmore⟩ := exists_withKey_settled (p := fun t ↦ !t.isFunctionLike)
    (by rw [hother]; rfl) hflat (hgiven hv hvrank) hvrank (ts.filter isFunctionLike)
  rw [hrest, hkey, hmore] at hwithKey
  have hheads := (List.cons.inj hwithKey).1
  rw [ht] at hheads
  rw [← hheads] at hu
  cases hu

/-- A permutation of the types that a union is built from keeps the texts of its members and their
order. It can only move parentheses: the union reads the same if and only if they are written around
the same members, and so it does where members with the same text are written alike. Where some are
not, and no types are given as unions, the types can be put in an order in which the union reads
differently. -/
theorem render_join_perm (ts : List Ty) :
    (∀ us, us.Perm ts →
      (join us).unionMembers.map render = (join ts).unionMembers.map render ∧
        ((join us).render = (join ts).render ↔
          (join us).unionMembers.map isFunctionLike =
            (join ts).unionMembers.map isFunctionLike)) ∧
    (TiesAlike (join ts).unionMembers → ∀ us, us.Perm ts → (join us).render =
      (join ts).render) ∧
    ((∀ t ∈ ts, ∀ vs, t ≠ .union vs) → ¬TiesAlike (join ts).unionMembers →
      ∃ us, us.Perm ts ∧ (join us).render ≠ (join ts).render) := by
  refine ⟨fun us h ↦ ⟨?_, render_join_iff h⟩, fun hties us h ↦
    render_join_of_tiesAlike h hties,
    fun hflat hties ↦ ?_⟩
  · exact map_eq_of_map_eq (map_unionKey_join h) fun _ _ _ _ ↦ render_of_unionKey
  · simp only [TiesAlike, not_forall] at hties
    obtain ⟨t, ht, u, hu, hkey, hne⟩ := hties
    cases htl : t.isFunctionLike <;> cases hul : u.isFunctionLike <;> rw [htl, hul] at hne
    · exact absurd rfl hne
    · exact exists_render_ne hflat hu ht hkey.symm hul htl
    · exact exists_render_ne hflat ht hu hkey htl hul
    · exact absurd rfl hne

/-- A function beside a type that is kept as text, which read the same; and beside `string`. -/
theorem render_join_perm_tied :
    let f : Ty := .function ⟨false, false, [], [], .primitive .void⟩
    let v : Ty := .verbatim "() => void"
    ((∀ t ∈ [f, v], ∀ vs, t ≠ .union vs) ∧ ¬TiesAlike (join [f, v]).unionMembers ∧
      ∃ us, us.Perm [f, v] ∧ (join us).render ≠ (join [f, v]).render) ∧
    TiesAlike (join [.string, f]).unionMembers ∧ [f, .string].Perm [.string, f] ∧
      (join [f, .string]).render = (join [.string, f]).render := by
  intro f v
  have hjoin {t u : Ty} (hany : any ∉ flatMembers [t, u])
      (hunknown : unknown ∉ flatMembers [t, u])
      (hkept : keptMembers [t, u] = [t, u]) (hordered : keyLe t.unionKey u.unionKey = true) :
      join [t, u] = .union [t, u] := by
    rw [join_eq, if_neg hany, if_neg hunknown, hkept,
      sortMembers_of_pairwise (List.pairwise_pair.mpr hordered)]
    rfl
  have hfv : join [f, v] = .union [f, v] :=
    hjoin (by decide +kernel) (by decide +kernel) (by decide +kernel) (by decide +kernel)
  have hsf : join [.string, f] = .union [.string, f] :=
    hjoin (by decide +kernel) (by decide +kernel) (by decide +kernel) (by decide +kernel)
  have hflat : ∀ t ∈ [f, v], ∀ vs, t ≠ .union vs := by simp [f, v]
  have htied : ¬TiesAlike (join [f, v]).unionMembers := by
    rw [hfv]
    exact fun h ↦ absurd (h f List.mem_cons_self v (by simp [unionMembers]) (by decide +kernel))
      (by decide)
  have hties : TiesAlike (join [.string, f]).unionMembers := by
    rw [hsf, TiesAlike]
    decide +kernel
  exact ⟨⟨hflat, htied, (render_join_perm [f, v]).2.2 hflat htied⟩, hties, .swap _ _ _,
    (render_join_perm [.string, f]).2.1 hties [f, .string] (.swap _ _ _)⟩

end PluginSurface.Ty
