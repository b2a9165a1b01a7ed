import Mathlib.Data.Finset.Card
import PluginSurface.Proofs.Binding.Reexports
import PluginSurface.Typing.Session.Links

/-!
# Runs that end

A run is said to return a value if it ends and leaves all four lists as they were. Following links
does: each question opens something that is not on its list yet, and there are only so many symbols.
Main statement: `Session.returns_entity?`.
-/

namespace PluginSurface

namespace Session

variable {α β γ : Type}

/-- The run ends and leaves the lists as they were. Its result is the value, as far as `exact`
holds. -/
def Returns (exact : Prop) (m : Session α) (s : Opened) (v : α) : Prop :=
  ∃ a, m s = some (a, s) ∧ (exact → a = v)

variable {exact : Prop} {s : Opened}

theorem returns_pure (v : α) : Returns exact (pure v) s v := ⟨v, rfl, fun _ ↦ rfl⟩

theorem returns_bind {m : Session α} {f : α → Session β} {v : α} {g : α → β}
    (hm : Returns exact m s v) (hf : ∀ a, Returns exact (f a) s (g a)) :
    Returns exact (m >>= f) s (g v) := by
  obtain ⟨a, ha, hv⟩ := hm
  obtain ⟨b, hb, hg⟩ := hf a
  refine ⟨b, ?_, fun h ↦ by rw [hg h, hv h]⟩
  change (m s).bind (fun p ↦ f p.1 p.2) = _
  rw [ha]
  exact hb

/-- What a run does with an answer that may be missing. -/
theorem returns_bind_elim {m : Session (Option α)} {f : Option α → Session β} {v : Option α}
    {b : β} {g : α → β} (hm : Returns exact m s v) (hnone : Returns exact (f none) s b)
    (hsome : ∀ a, Returns exact (f (some a)) s (g a)) :
    Returns exact (m >>= f) s (v.elim b g) :=
  returns_bind (g := fun v ↦ v.elim b g) hm (Option.rec hnone hsome)

theorem returns_map {m : Session α} {v : α} (hm : Returns exact m s v) (g : α → β) :
    Returns exact (m >>= fun a ↦ pure (g a)) s (g v) :=
  returns_bind hm fun a ↦ returns_pure (g a)

theorem returns_get {f : Opened → Session α} {v : α} (h : Returns exact (f s) s v) :
    Returns exact (get >>= f) s v := h

/-- What is opened before a run and closed behind it. -/
theorem returns_opened {opens closes : Opened → Opened} (hs : closes (opens s) = s)
    {m : Session α} {f : α → Session β} {v : α} {g : α → β}
    (hm : Returns exact m (opens s) v) (hf : ∀ a, Returns exact (f a) s (g a)) :
    Returns exact (do modify opens; let a ← m; modify closes; f a) s (g v) := by
  obtain ⟨a, ha, hv⟩ := hm
  obtain ⟨b, hb, hg⟩ := hf a
  refine ⟨b, ?_, fun h ↦ by rw [hg h, hv h]⟩
  change (m (opens s)).bind (fun p ↦ f p.1 (closes p.2)) = _
  rw [ha, Option.bind_some, hs]
  exact hb

theorem returns_mapM {f : α → Session β} {g : α → β} (xs : List α)
    (h : ∀ x ∈ xs, Returns exact (f x) s (g x)) : Returns exact (xs.mapM f) s (xs.map g) := by
  induction xs with
  | nil => exact returns_pure []
  | cons x rest ih =>
      rw [List.mapM_cons]
      refine returns_bind (g := fun b ↦ b :: rest.map g) (h x List.mem_cons_self) fun b ↦ ?_
      exact returns_map (ih fun y hy ↦ h y (List.mem_cons_of_mem x hy)) (b :: ·)

theorem returns_foldlM {f : β → α → Session β} {g : β → α → β} (xs : List α)
    (h : ∀ b, ∀ x ∈ xs, Returns exact (f b x) s (g b x)) (b : β) :
    Returns exact (xs.foldlM f b) s (xs.foldl g b) := by
  induction xs generalizing b with
  | nil => exact returns_pure b
  | cons x rest ih =>
      rw [List.foldlM_cons]
      exact returns_bind (g := fun a ↦ rest.foldl g a) (h b x List.mem_cons_self)
        fun a ↦ ih (fun b y hy ↦ h b y (List.mem_cons_of_mem x hy)) a

theorem returns_findSomeM? {f : α → Session (Option β)} {g : α → Option β} (xs : List α)
    (h : ∀ x ∈ xs, Returns exact (f x) s (g x)) :
    Returns exact (xs.findSomeM? f) s (xs.findSome? g) := by
  induction xs with
  | nil => exact returns_pure none
  | cons x rest ih =>
      have hrest := ih fun y hy ↦ h y (List.mem_cons_of_mem x hy)
      rw [List.findSome?_cons]
      refine returns_bind (g :=
        fun b ↦ match b with | some b => some b | none => rest.findSome? g)
        (h x List.mem_cons_self) fun b ↦ ?_
      cases b with
      | some b => exact returns_pure (some b)
      | none => exact hrest

end Session

/-! ## Room -/

/-- How many of the first `size` numbers are not on the list. -/
def unlisted (size : Nat) (list : List Nat) : Nat := (Finset.range size \ list.toFinset).card

theorem unlisted_le (size : Nat) (list : List Nat) : unlisted size list ≤ size :=
  (Finset.card_le_card Finset.sdiff_subset).trans (Finset.card_range size).le

/-- A new number on the list takes room. -/
theorem unlisted_cons_lt {size id : Nat} {list : List Nat} (hid : id < size) (hnew : id ∉ list) :
    unlisted size (id :: list) < unlisted size list := by
  apply Finset.card_lt_card
  rw [List.toFinset_cons, Finset.ssubset_iff_of_subset
    (Finset.sdiff_subset_sdiff Finset.Subset.rfl (Finset.subset_insert _ _))]
  exact ⟨id, by simp [hid, hnew], by simp⟩

namespace Opened

/-- How many more links can be followed and symbols be asked for an export. -/
def linkRoom (s : Opened) (c : Checker) : Nat :=
  unlisted c.binding.symbols.size s.links + unlisted c.binding.symbols.size s.askedFor

def linkTrail (s : Opened) : LinkTrail := ⟨s.links, s.askedFor⟩

theorem linkRoom_le (s : Opened) (c : Checker) : s.linkRoom c ≤ c.trailLimit := by
  have hlinks := unlisted_le c.binding.symbols.size s.links
  have hasked := unlisted_le c.binding.symbols.size s.askedFor
  unfold linkRoom Checker.trailLimit
  omega

end Opened

namespace Session

variable {c : Checker} {ask : LinkRule} {n : Nat} {s : Opened}

/-- A rule answers as the runs do that begin with less room than `n`. -/
structure AnswersLinks (c : Checker) (ask : LinkRule) (n : Nat) : Prop where
  target : ∀ s : Opened, s.linkRoom c < n → ∀ id,
    Returns True (target c id) s (ask s.linkTrail (.target id))
  member : ∀ s : Opened, s.linkRoom c < n → ∀ id name,
    Returns True (member c id name) s (ask s.linkTrail (.member id name))

theorem returns_members (hask : AnswersLinks c ask n) (hs : s.linkRoom c < n) (id : Nat)
    (path : List String) : Returns True (members c id path) s
      (path.foldlM (fun id segment ↦ ask s.linkTrail (.member id segment)) id) := by
  induction path generalizing id with
  | nil =>
      exact returns_pure (some id)
  | cons segment rest ih =>
      rw [List.foldlM_cons]
      refine returns_bind (g := fun found ↦ found.bind fun next ↦
        rest.foldlM (fun id segment ↦ ask s.linkTrail (.member id segment)) next)
        (hask.member s hs id segment) fun found ↦ ?_
      cases found with
      | none => exact returns_pure none
      | some next => exact ih next

theorem returns_entity (hask : AnswersLinks c ask n) (hs : s.linkRoom c < n) (path : List String)
    (scope : Nat) (exclude : Option Nat) :
    Returns True (entity c path scope exclude) s
      (c.entityBy ask s.linkTrail path scope exclude) := by
  cases path with
  | nil => exact returns_pure none
  | cons first rest =>
      rw [entity, entityBy, Checker.entityBy]
      cases c.binding.lookup first scope exclude with
      | none => exact returns_pure none
      | some found =>
          refine returns_bind (g := fun target ↦ target.bind fun id ↦
            rest.foldlM (fun id segment ↦ ask s.linkTrail (.member id segment)) id)
            (hask.target s hs found) fun target ↦ ?_
          cases target with
          | none => exact returns_pure none
          | some id => exact returns_members hask hs id rest

theorem returns_exportEquals (hask : AnswersLinks c ask n) (hs : s.linkRoom c < n) (module : Nat) :
    Returns True (exportEqualsBy c (link c) module) s
      (c.exportEqualsBy ask s.linkTrail module) := by
  rw [exportEqualsBy, Checker.exportEqualsBy]
  cases (c.binding.symbol module).exportEquals with
  | none => exact returns_pure none
  | some whole => exact returns_entity hask hs whole.1 whole.2 none

theorem returns_follow (hask : AnswersLinks c ask n) (hs : s.linkRoom c < n) (id : Nat)
    (link : Link) (scope : Nat) :
    Returns True (followBy c (Session.link c) id link scope) s
      (c.followBy ask s.linkTrail id link scope) := by
  cases link with
  | member m name =>
      rw [followBy, Checker.followBy]
      cases c.moduleSymbol m with
      | none => exact returns_pure none
      | some module =>
          refine returns_bind (g := fun found ↦ found <|>
            if name == "default" then c.exportEqualsBy ask s.linkTrail module else none)
            (hask.member s hs module name) fun found ↦ ?_
          cases found with
          | some found => exact returns_pure (some found)
          | none =>
              dsimp only
              split
              · exact returns_exportEquals hask hs module
              · exact returns_pure none
  | «namespace» m | require m =>
      rw [followBy, Checker.followBy]
      cases c.moduleSymbol m with
      | none => exact returns_pure none
      | some module => exact returns_map (returns_exportEquals hask hs module) _
  | entity path => exact returns_entity hask hs path scope (some id)

theorem returns_export (hask : AnswersLinks c ask n) (hs : s.linkRoom c < n) (id : Nat)
    (name : String) :
    Returns True (exportBy c (link c) id name) s (c.exportBy ask s.linkTrail id name) := by
  rw [exportBy, Checker.exportBy]
  split
  · refine returns_bind (g := fun whole ↦ whole.bind fun whole ↦
      ask s.linkTrail (.member whole name)) (returns_exportEquals hask hs id) fun whole ↦ ?_
    cases whole with
    | none => exact returns_pure none
    | some whole => exact hask.member s hs whole name
  cases (c.binding.symbol id).exports.lookup name with
  | some found => exact hask.target s hs found
  | none =>
      dsimp only
      split
      · exact returns_pure none
      · refine returns_findSomeM? _ fun m _ ↦ ?_
        cases c.moduleSymbol m with
        | none => exact returns_pure none
        | some module => exact hask.member s hs module name

/-- A symbol that is out of range exports nothing. -/
theorem returns_export_of_le {id : Nat} (hid : c.binding.symbols.size ≤ id) (name : String) :
    Returns True (exportBy c (link c) id name) s (c.exportBy ask s.linkTrail id name) := by
  rw [exportBy, Checker.exportBy, Binding.symbol_of_le hid]
  change Returns True (if (name == "default") = true then pure none else pure none) s
    (if (name == "default") = true then none else none)
  split <;> exact returns_pure none

theorem returns_target (hask : AnswersLinks c ask n) (hs : s.linkRoom c ≤ n) (id : Nat) :
    Returns True (target c id) s (c.targetBy ask s.linkTrail id) := by
  rw [target, link_eq, linkBy, targetBy, Checker.targetBy]
  cases hlink : (c.binding.symbol id).link? with
  | none => exact returns_pure (some id)
  | some link =>
      obtain ⟨link, scope⟩ := link
      refine returns_get ?_
      change Returns True _ s (if id ∈ s.links then none else _)
      split
      case isTrue => exact returns_pure none
      case isFalse hnew =>
          have hroom : Opened.linkRoom { s with links := id :: s.links } c < n := by
            have hless := unlisted_cons_lt (Binding.lt_of_link? hlink) hnew
            unfold Opened.linkRoom at hs ⊢
            dsimp only
            omega
          have hbehind :
              Returns True (behindBy c (Session.link c) id link scope) { s with links :=
                id :: s.links }
              ((c.followBy ask ⟨id :: s.links, s.askedFor⟩ id link scope).bind fun next ↦
                ask ⟨id :: s.links, s.askedFor⟩ (.target next)) := by
            refine returns_bind (g := fun next ↦ next.bind fun next ↦
              ask ⟨id :: s.links, s.askedFor⟩ (.target next))
              (returns_follow hask hroom id link scope) fun next ↦ ?_
            cases next with
            | none => exact returns_pure none
            | some next => exact hask.target _ hroom next
          exact returns_opened rfl hbehind fun found ↦ returns_pure found

theorem returns_member (hask : AnswersLinks c ask n) (hs : s.linkRoom c ≤ n) (id : Nat)
    (name : String) :
    Returns True (member c id name) s (c.linkRule ask s.linkTrail (.member id name)) := by
  rw [member, link_eq, linkBy, memberBy, Checker.linkRule]
  refine returns_bind (g := fun found ↦ found.bind fun id ↦ if id ∈ s.askedFor then none
    else c.exportBy ask ⟨s.links, id :: s.askedFor⟩ id name) (returns_target hask hs id)
      fun found ↦ ?_
  cases found with
  | none => exact returns_pure none
  | some id =>
      refine returns_get ?_
      rw [Option.bind_some]
      split
      case isTrue => exact returns_pure none
      case isFalse hnew =>
          have hexport : Returns True (exportBy c (link c) id name)
              { s with askedFor := id :: s.askedFor }
              (c.exportBy ask ⟨s.links, id :: s.askedFor⟩ id name) := by
            rcases lt_or_ge id c.binding.symbols.size with hid | hid
            · refine returns_export hask ?_ id name
              have hless := unlisted_cons_lt hid hnew
              unfold Opened.linkRoom at hs ⊢
              dsimp only
              omega
            · exact returns_export_of_le hid name
          exact returns_opened rfl hexport fun found ↦ returns_pure found

/-- With as many levels as there is room, the rule answers what the run returns. -/
theorem answersLinks_within (c : Checker) (n : Nat) : AnswersLinks c (c.within n) n := by
  induction n with
  | zero => exact ⟨fun _ hs ↦ absurd hs (Nat.not_lt_zero _), fun _ hs ↦
      absurd hs (Nat.not_lt_zero _)⟩
  | succ n ih =>
      refine ⟨fun s hs id ↦ ?_, fun s hs id name ↦ ?_⟩
      · rw [Checker.within, Checker.linksWithin_eq]
        exact returns_target ih (Nat.le_of_lt_succ hs) id
      · rw [Checker.within, Checker.linksWithin_eq]
        exact returns_member ih (Nat.le_of_lt_succ hs) id name

theorem answersLinks_links (c : Checker) : AnswersLinks c c.links (c.trailLimit + 1) :=
  answersLinks_within c (c.trailLimit + 1)

theorem lt_trailLimit_succ (s : Opened) (c : Checker) : s.linkRoom c < c.trailLimit + 1 :=
  Nat.lt_succ_of_le (s.linkRoom_le c)

end Session

end PluginSurface
