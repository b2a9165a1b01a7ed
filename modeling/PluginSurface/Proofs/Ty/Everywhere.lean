import PluginSurface.Ty.Canonical

/-!
# What holds everywhere in a type

`t.Everywhere P` says that `P` holds of `t` and of every type inside it: members, elements,
arguments, alias targets, signatures, properties and index signatures. The canonical unions and
intersections bring in no type but those that they are built from and `boolean`.
-/

namespace PluginSurface.Ty

/-- `P` holds of the type and of every type inside it. -/
inductive Everywhere (P : Ty → Prop) : Ty → Prop
  | primitive {p : Primitive} (here : P (.primitive p)) : Everywhere P (.primitive p)
  | literal {value : Literal} (here : P (.literal value)) : Everywhere P (.literal value)
  | union {ts : List Ty} (here : P (.union ts)) (members : ∀ t ∈ ts, Everywhere P t) :
      Everywhere P (.union ts)
  | intersection {ts : List Ty} (here : P (.intersection ts))
      (members : ∀ t ∈ ts, Everywhere P t) : Everywhere P (.intersection ts)
  | array {t : Ty} {readonly : Bool} (here : P (.array t readonly)) (element : Everywhere P t) :
      Everywhere P (.array t readonly)
  | tuple {items : List TupleItem} {readonly : Bool} (here : P (.tuple items readonly))
      (elements : ∀ i ∈ items, Everywhere P i.type) : Everywhere P (.tuple items readonly)
  | function {f : FunctionTy} (here : P (.function f))
      (params : ∀ p ∈ f.params, Everywhere P p.type) (result : Everywhere P f.result) :
      Everywhere P (.function f)
  | object {o : ObjectTy} (here : P (.object o))
      (properties : ∀ p ∈ o.properties, Everywhere P p.type)
      (calls : ∀ f ∈ o.calls, Everywhere P (.function f))
      (constructs : ∀ f ∈ o.constructs, Everywhere P (.function f))
      (keys : ∀ i ∈ o.indexes, Everywhere P i.key)
      (values : ∀ i ∈ o.indexes, Everywhere P i.value) : Everywhere P (.object o)
  | reference {id : Nat} {name : String} {args : List Ty} (here : P (.reference id name args))
      (arguments : ∀ t ∈ args, Everywhere P t) : Everywhere P (.reference id name args)
  | aliased {name : String} {args : List Ty} {target : Ty} (here : P (.aliased name args target))
      (arguments : ∀ t ∈ args, Everywhere P t) (inner : Everywhere P target) :
      Everywhere P (.aliased name args target)
  | param {name : String} (here : P (.param name)) : Everywhere P (.param name)
  | named {name : String} {args : List Ty} (here : P (.named name args))
      (arguments : ∀ t ∈ args, Everywhere P t) : Everywhere P (.named name args)
  | verbatim {text : String} (here : P (.verbatim text)) : Everywhere P (.verbatim text)

/-- The class or interface that the type is a reference to. -/
def symbol? : Ty → Option Nat
  | .reference id _ _ => some id
  | _ => none

/-- Whether the type is no union, intersection or object, so that it is built from any parts. -/
def isPlain : Ty → Bool
  | .union _ | .intersection _ | .object _ => false
  | _ => true

variable {P : Ty → Prop} {t : Ty} {ts : List Ty}

theorem Everywhere.here (h : t.Everywhere P) : P t := by
  cases h <;> assumption

theorem Everywhere.unaliased (h : t.Everywhere P) : t.unaliased.Everywhere P := by
  induction h with
  | aliased _ _ _ _ ih => exact ih
  | _ => constructor <;> assumption

/-! ## Unions -/

theorem mem_insertLast {u : Ty} : u ∈ insertLast ts t ↔ u ∈ ts ∨ u = t := by
  unfold insertLast
  split
  · exact ⟨Or.inl, fun h ↦ h.elim id fun h ↦ h ▸ ‹t ∈ ts›⟩
  · simp

/-- Taking repetitions out loses no member. -/
theorem mem_distinct {u : Ty} : u ∈ distinct ts ↔ u ∈ ts := by
  have hfold : ∀ kept : List Ty, u ∈ ts.foldl insertLast kept ↔ u ∈ kept ∨ u ∈ ts := by
    induction ts with
    | nil => simp
    | cons t rest ih =>
        intro kept
        rw [List.foldl_cons, ih, mem_insertLast, List.mem_cons, or_assoc]
  simpa [distinct] using hfold []

theorem Everywhere.of_mem_unionMembers (h : t.Everywhere P) {u : Ty} (hu : u ∈ t.unionMembers) :
    u.Everywhere P := by
  unfold unionMembers at hu
  split at hu
  · cases h with
    | union _ members => exact members u hu
  · simp at hu
  · exact List.mem_singleton.mp hu ▸ h

theorem mem_joinBooleans {u : Ty} (h : u ∈ joinBooleans ts) :
    u ∈ ts ∨ u = .primitive .boolean := by
  unfold joinBooleans at h
  split at h
  · obtain ⟨t, ht, rfl⟩ := List.mem_map.mp (mem_distinct.mp h)
    split
    · exact Or.inr rfl
    · exact Or.inl ht
  · exact Or.inl h

theorem mem_of_mem_unionMembers_unionOf {u : Ty} (h : u ∈ (unionOf ts).unionMembers) :
    u ∈ ts ∨ ∃ t ∈ ts, u ∈ t.unionMembers := by
  unfold unionOf at h
  split at h
  · simp [unionMembers] at h
  · exact Or.inr ⟨_, List.mem_singleton_self _, h⟩
  · exact Or.inl h

/-- A canonical union has no members but those of the types that it is built from, `any`, `unknown`
and `boolean`. -/
theorem Everywhere.of_mem_join (hprimitive : ∀ p, P (.primitive p))
    (h : ∀ t ∈ ts, ∀ u ∈ t.unionMembers, u.Everywhere P) {u : Ty}
    (hu : u ∈ (join ts).unionMembers) : u.Everywhere P := by
  have hflat : ∀ t ∈ distinct (ts.flatMap unionMembers), t.Everywhere P := by
    intro t ht
    obtain ⟨s, hs, hts⟩ := List.mem_flatMap.mp (mem_distinct.mp ht)
    exact h s hs t hts
  simp only [join] at hu
  split at hu
  · rw [show u = any from List.mem_singleton.mp hu]
    exact .primitive (hprimitive _)
  split at hu
  · rw [show u = unknown from List.mem_singleton.mp hu]
    exact .primitive (hprimitive _)
  · have hmember : ∀ t ∈ sortMembers (absorbLiterals (joinBooleans
        (distinct (ts.flatMap unionMembers)))), t.Everywhere P := by
      intro t ht
      have hbool := (List.mem_filter.mp (List.mem_mergeSort.mp ht)).1
      rcases mem_joinBooleans hbool with ht | rfl
      · exact hflat t ht
      · exact .primitive (hprimitive _)
    rcases mem_of_mem_unionMembers_unionOf hu with hu | ⟨t, ht, hu⟩
    · exact hmember u hu
    · exact (hmember t ht).of_mem_unionMembers hu

/-- Leaving nullable members out brings nothing in. -/
theorem Everywhere.of_mem_widenNullables (hprimitive : ∀ p, P (.primitive p))
    (h : ∀ u ∈ t.unionMembers, u.Everywhere P) {u : Ty}
    (hu : u ∈ t.widenNullables.unionMembers) : u.Everywhere P := by
  unfold widenNullables at hu
  split at hu
  next members =>
    have hfilter (keep : Ty → Bool) :
        ∀ t ∈ members.filter keep, ∀ u ∈ t.unionMembers, u.Everywhere P := by
      intro t ht u hu
      exact (h t (List.mem_filter.mp ht).1).of_mem_unionMembers hu
    split at hu
    · exact of_mem_join hprimitive (hfilter _) hu
    · exact of_mem_join hprimitive (hfilter _) hu
  · exact h u hu

/-! ## Intersections -/

theorem Everywhere.of_mem_intersectionMembers (h : t.Everywhere P) {u : Ty}
    (hu : u ∈ t.intersectionMembers) : u.Everywhere P := by
  unfold intersectionMembers at hu
  split at hu
  · cases h with
    | intersection _ members => exact members u hu
  · exact List.mem_singleton.mp hu ▸ h

/-- An intersection brings in nothing but the members of the types that it is built from. -/
theorem Everywhere.meet (hprimitive : ∀ p, P (.primitive p))
    (hmeet : ∀ us, Ty.meet ts = .intersection us → P (.intersection us))
    (h : ∀ t ∈ ts, t.Everywhere P) : (Ty.meet ts).Everywhere P := by
  have hflat : ∀ t ∈ distinct (ts.flatMap intersectionMembers), t.Everywhere P := by
    intro t ht
    obtain ⟨s, hs, hts⟩ := List.mem_flatMap.mp (mem_distinct.mp ht)
    exact (h s hs).of_mem_intersectionMembers hts
  unfold Ty.meet at hmeet ⊢
  split
  · exact .primitive (hprimitive _)
  next u hsingle => exact hflat u (hsingle ▸ List.mem_singleton_self u)
  next us _ hnot =>
    refine .intersection (hmeet _ ?_) hflat
    split
    next hnil => exact absurd hnil (by assumption)
    next u hsingle => exact absurd hsingle (hnot u)
    · rfl

end PluginSurface.Ty
