import PluginSurface.Proofs.Binding.FoldedScopes

/-!
# Entering namespaces again

The namespaces of a dotted name that have been entered are found when they are entered again, and
get new scopes. If nothing has been declared in their first scopes, each new scope stands for the
one before. Main statement: `Binder.exists_folds_enterNamespaces`.
-/

namespace PluginSurface

/-! ## More scopes -/

/-- Scopes below `top` stand for what they did, and all others for scopes from `low` on. -/
structure ScopesExtend (ρ σ : Nat → Nat) (low top : Nat) : Prop where
  old : ∀ s < top, σ s = ρ s
  new : ∀ s, top ≤ s → low ≤ σ s

section

variable {numbers : Nat → Nat → List Nat} {ρ σ τ : Nat → Nat} {low low' top top' : Nat}
  {b b' : Binding} {place place' : Place}

theorem Binding.Folds.extend_refl (h : b.Folds numbers ρ b') :
    ScopesExtend ρ ρ b.scopes.size b'.scopes.size := by
  refine ⟨fun _ _ ↦ rfl, fun s hs ↦ ?_⟩
  obtain ⟨k, rfl⟩ := Nat.exists_eq_add_of_le hs
  rw [h.new]
  exact Nat.le_add_right _ _

theorem ScopesExtend.trans (h : ScopesExtend ρ σ low top) (h' : ScopesExtend σ τ low' top')
    (hlow : low ≤ low') (htop : top ≤ top') : ScopesExtend ρ τ low top := by
  refine ⟨fun s hs ↦ (h'.old s (hs.trans_le htop)).trans (h.old s hs), fun s hs ↦ ?_⟩
  by_cases hlt : s < top'
  · rw [h'.old s hlt]
    exact h.new s hs
  · exact hlow.trans (h'.new s (not_lt.mp hlt))

/-- One more scope for a scope from `low` on leaves those before. -/
theorem Binding.Folds.extend_foldAt (h : b.Folds numbers ρ b') {scope : Nat}
    (hscope : low ≤ scope) (hlow : low ≤ b.scopes.size) :
    ScopesExtend ρ (foldAt ρ b'.scopes.size scope) low b'.scopes.size := by
  refine ⟨fun s ↦ foldAt_of_lt, fun s hs ↦ ?_⟩
  obtain rfl | hs := hs.eq_or_lt
  · rwa [foldAt_self]
  · obtain ⟨k, rfl⟩ := Nat.exists_eq_add_of_le (Nat.succ_le_of_lt hs)
    rw [foldAt_add, h.new]
    exact hlow.trans (Nat.le_add_right _ _)

theorem Place.Folds.extend (h : place.Folds ρ place') (hσ : ScopesExtend ρ σ low top)
    (hplace : place'.scope < top) : place.Folds σ place' :=
  { h with scope := (hσ.old _ hplace).trans h.scope }

theorem Place.Alone.extend (h : place.Alone ρ place') (hσ : ScopesExtend ρ σ low top)
    (hplace : place.scope < low) : place.Alone σ place' := by
  intro s hs
  by_cases hlt : s < top
  · exact h s ((hσ.old s hlt).symm.trans hs)
  · exact absurd (hs ▸ hσ.new s (not_lt.mp hlt)) hplace.not_ge

end

/-! ## Entering namespaces again -/

namespace Binding

/-- The namespaces of a dotted name have been entered: each has been declared in the one before, and
has a scope from `low` on that has no names. -/
inductive Entered (b : Binding) (low : Nat) : Place → Bool → List String → Place → Prop
  | nil (place : Place) (exported : Bool) : Entered b low place exported [] place
  | cons {place inner : Place} {exported : Bool} {segment : String} {rest : List String}
      {id scope : Nat} (hfound : b.found (place.slot exported segment) = some id)
      (hspace : ∃ d ∈ (b.symbol id).declarations, d.kind = .namespaceDecl)
      (hscope : b.scope scope = ⟨place.scope :: (b.scope place.scope).outer, [], some id⟩)
      (hlow : low ≤ scope) (hlt : scope < b.scopes.size)
      (hrest : Entered b low ⟨place.file, scope, some id, place.ambient⟩ true rest inner) :
      Entered b low place exported (segment :: rest) inner

variable {F : Frame} {b c : Binding} {low : Nat} {place inner : Place} {exported : Bool}
  {segments : List String}

/-- Each namespace is numbered after those around it. -/
theorem Entered.le (h : b.Entered low place exported segments inner) (hb : b.Ordered)
    (hexported : exported = true) {m : Nat} (hm : place.container = some m) :
    ∃ n, inner.container = some n ∧ m ≤ n := by
  induction h generalizing m with
  | nil => exact ⟨m, hm, le_rfl⟩
  | @cons place inner exported segment rest id scope hfound hspace hscope hlow hlt hrest ih =>
      obtain ⟨n, hn, hle⟩ := ih rfl rfl
      have hslot : (place.slot exported segment).container = some m := (if_pos hexported).trans hm
      rw [found, hslot] at hfound
      exact ⟨n, hn, (hb.exports m _ (mem_of_lookup hfound)).le.trans hle⟩

theorem Entered.isSome (h : b.Entered low place exported segments inner)
    (hplace : segments ≠ [] ∨ place.container.isSome = true) :
    inner.container.isSome = true := by
  induction h with
  | nil => exact hplace.resolve_left fun h ↦ h rfl
  | cons _ _ _ _ _ _ ih => exact ih (.inr rfl)

/-- What spares the names of the namespaces and their scopes leaves them entered. -/
theorem Entered.mono (h : b.Entered low place exported segments inner) (hb : b.Ordered)
    (hgrows : b.Grows c) (hspares : b.Spares F c) (hplace : place.scope < b.scopes.size)
    (hkeys : ∀ key ∈ segments, key ∈ F.keys)
    (hkept : ∀ s, low ≤ s → s < b.scopes.size → F.kept s)
    (hfloor : ∀ n ∈ inner.container, n ≤ F.floor) :
    c.Entered low place exported segments inner := by
  induction h with
  | nil place exported => exact .nil place exported
  | @cons place inner exported segment rest id scope hfound hspace hscope hlow hlt hrest ih =>
      obtain ⟨hsegment, hrest'⟩ := List.forall_mem_cons.mp hkeys
      refine .cons ?_ ?_ ?_ hlow (hlt.trans_le hgrows.scopes)
        (ih hlt hrest' hfloor)
      · unfold found at hfound ⊢
        cases hcontainer : (place.slot exported segment).container with
        | none =>
            rw [hcontainer] at hfound
            exact hgrows.names _ _ _ hfound
        | some m =>
            rw [hcontainer] at hfound
            obtain ⟨n, hn, hle⟩ := hrest.le hb rfl rfl
            have hm : m < F.floor :=
              (hb.exports m _ (mem_of_lookup hfound)).trans_le (hle.trans (hfloor n hn))
            exact hspares.exports m hm segment hsegment id hfound
      · obtain ⟨d, hd, hkind⟩ := hspace
        exact ⟨d, (hgrows.symbol id).declarations.subset hd, hkind⟩
      · have houter := hspares.outer scope hlt
        have hcontainer := hspares.container scope hlt
        have hnames := hspares.names scope (hkept scope hlow hlt)
        rw [hscope] at houter hcontainer hnames
        rw [hspares.outer _ hplace]
        exact (congrArg₂ (fun o n ↦ Scope.mk o n (c.scope scope).container) houter hnames).trans
          (congrArg _ hcontainer)

/-- The namespaces further in are entered in the first one. -/
theorem Entered.extend {mid : Place} {segment : String} {rest : List String}
    (h : b.Entered low place exported [segment] mid) (hrest : b.Entered low mid true rest inner) :
    b.Entered low place exported (segment :: rest) inner := by
  cases h with
  | cons hfound hspace hscope hlow hlt hmid =>
      cases hmid
      exact .cons hfound hspace hscope hlow hlt hrest

theorem Entered.weaken {low' : Nat} (h : b.Entered low' place exported segments inner)
    (hlow : low ≤ low') : b.Entered low place exported segments inner := by
  induction h with
  | nil place exported => exact .nil place exported
  | cons hfound hspace hscope hlow' hlt _ ih =>
      exact .cons hfound hspace hscope (hlow.trans hlow') hlt ih

end Binding

namespace Binder

variable {b : Binding} {place : Place}

/-- A name that is declared stands for the symbol that has got the declaration. -/
theorem found_declare (hb : b.Closed) (hplace : place.Within b) (exported : Bool) (name : String)
    (kind : DeclarationKind) :
    (declare place exported name kind b).2.found (place.slot exported name) =
        some (declare place exported name kind b).1 ∧
      ∃ d ∈ ((declare place exported name kind b).2.symbol
        (declare place exported name kind b).1).declarations, d.kind = kind := by
  let x := place.slot exported name
  rw [declare_eq, declare_answer]
  refine ⟨?_, ⟨place.file, place.scope, kind⟩, ?_, rfl⟩
  · rw [Binding.declared, Binding.found_addedTo]
    exact Binding.found_ensured x (hplace.slot exported name) hplace.scope
  · rw [Binding.declared, Binding.addedTo, Binding.symbol_withSymbol,
      if_pos ⟨rfl, Binding.lt_of_ensured hb x⟩]
    exact List.mem_append_right _ List.mem_cons_self

/-- A namespace that has been declared has been entered when there is a scope for it. -/
theorem entered_inside (hplace : place.Within b) {exported : Bool} {segment : String} {id : Nat}
    (hfound : b.found (place.slot exported segment) = some id)
    (hspace : ∃ d ∈ (b.symbol id).declarations, d.kind = .namespaceDecl) :
    (inside place id place.ambient b).2.Entered b.scopes.size place exported [segment]
      (inside place id place.ambient b).1 := by
  have hscope (s : Nat) : (inside place id place.ambient b).2.scope s = if s = b.scopes.size
      then ⟨place.scope :: (b.scope place.scope).outer, [], some id⟩ else b.scope s :=
    Binding.scope_push b _ s
  have hold : (inside place id place.ambient b).2.scope place.scope = b.scope place.scope :=
    (hscope place.scope).trans (if_neg hplace.scope.ne)
  refine .cons ?_ hspace ?_ le_rfl ?_ (.nil _ _)
  · rw [← hfound]
    unfold Binding.found
    cases (place.slot exported segment).container with
    | some m => rfl
    | none =>
        exact congrArg (fun s : Scope ↦ s.names.lookup (place.slot exported segment).name) hold
  · rw [hscope, if_pos rfl, hold]
  · exact (Nat.lt_succ_self _).trans_eq (Array.size_push _).symm

/-- The namespaces have been entered when they are, and their scopes are new. -/
theorem entered_enterNamespaces (hb : b.Framed .empty) (hplace : place.Stands b) (exported : Bool)
    (segments : List String) :
    (enterNamespaces place exported segments b).2.Entered b.scopes.size place exported segments
      (enterNamespaces place exported segments b).1 := by
  induction segments generalizing b place exported with
  | nil => exact .nil place exported
  | cons segment rest ih =>
      obtain ⟨hfound, hspace⟩ :=
        found_declare hb.closed hplace.toWithin exported segment .namespaceDecl
      obtain ⟨hc, hbc, hspares, ⟨hid, -⟩, -⟩ :=
        (sparing_declare hplace (.inl fun h ↦ h) segment .namespaceDecl).run
          (does_declare hplace.toWithin exported segment .namespaceDecl) hb
      have hplace' := hplace.mono hbc hspares
      have hentered := entered_inside hplace'.toWithin hfound hspace
      obtain ⟨hd, hcd, -, -, hinner, hencloses⟩ :=
        (sparing_inside hplace'.toWithin hid place.ambient).run (does_inside hid place.ambient) hc
      have hlast := (ih hd hencloses.stands true).weaken (hbc.scopes.trans hcd.scopes)
      cases rest with
      | nil => exact hentered.weaken hbc.scopes
      | cons second rest =>
          -- The namespaces further in are other symbols with other scopes.
          let c := (declare place exported segment .namespaceDecl b).2
          let id := (declare place exported segment .namespaceDecl b).1
          let F : Frame := ⟨id, [segment], (· = c.scopes.size)⟩
          have hframed : Binding.Framed F (inside place id place.ambient c).2 :=
            ⟨hd.closed, hd.ordered, fun s hs ↦
              hs ▸ ⟨hc.closed.global.ne', hencloses.stands.scope⟩⟩
          obtain ⟨-, hde, hspares, -⟩ := (sparing_enterNamespaces (F := F) hencloses.stands true
            (second :: rest) (.inr ⟨rfl, rfl, List.cons_ne_nil _ _⟩)).run
            (does_enterNamespaces hencloses.stands.toWithin true _) hframed
          refine Binding.Entered.extend ?_ hlast
          refine (hentered.mono hd.ordered hde hspares (hplace'.scope.trans_le hcd.scopes)
            (fun _ h ↦ h) (fun s hs hlt ↦ ?_) ?_).weaken hbc.scopes
          · have hsize : (inside place id place.ambient c).2.scopes.size = c.scopes.size + 1 :=
              Array.size_push _
            exact (Nat.le_of_lt_succ (hlt.trans_eq hsize)).antisymm hs
          · rintro _ ⟨rfl⟩
            exact le_rfl

variable {numbers : Nat → Nat → List Nat} {ρ : Nat → Nat} {b' : Binding}
    {place' inner : Place}
  {low : Nat} {exported : Bool} {segments : List String}

/-- Namespaces that have been entered can be entered again in the second binding. Then their new
scopes stand for the old ones. -/
theorem exists_folds_enterNamespaces (hentered : b.Entered low place exported segments inner)
    (h : b.Folds numbers ρ b') (hplace : place.Folds ρ place') (hb' : b'.Framed .empty)
    (hplace' : place'.Stands b') (hlow : low ≤ b.scopes.size) (hpos : 0 < low) :
    ∃ σ, ScopesExtend ρ σ low b'.scopes.size ∧
      b.Folds numbers σ (enterNamespaces place' exported segments b').2 ∧
      inner.Folds σ (enterNamespaces place' exported segments b').1 := by
  induction hentered generalizing b' place' ρ with
  | nil place exported =>
      refine ⟨ρ, ?_, h, hplace⟩
      exact ⟨h.extend_refl.old, fun s hs ↦ hlow.trans (h.extend_refl.new s hs)⟩
  | @cons place inner exported segment rest id scope hfound hspace hscope hle hlt hrest ih =>
      have hknown : b'.found (place'.slot exported segment) = some id :=
        (h.found (hplace.slot exported segment)).trans hfound
      let d : Declaration := ⟨place'.file, place'.scope, .namespaceDecl⟩
      have hdeclare : (declare place' exported segment .namespaceDecl b').1 = id ∧
          (declare place' exported segment .namespaceDecl b').2 = b'.addedTo id d := by
        rw [declare_answer, declare_eq, Binding.declared, Binding.ensured_of_found hknown]
        exact ⟨rfl, rfl⟩
      obtain ⟨hc, hbc, hspares, ⟨hid, -⟩, -⟩ :=
        (sparing_declare hplace' (.inl fun h ↦ h) segment .namespaceDecl).run
          (does_declare hplace'.toWithin exported segment .namespaceDecl) hb'
      rw [hdeclare.2] at hc hbc hspares
      rw [hdeclare.1, hdeclare.2] at hid
      have hplace'' := hplace'.mono hbc hspares
      obtain ⟨hd, -, -, -, -, hencloses⟩ :=
        (sparing_inside hplace''.toWithin hid place'.ambient).run
          (does_inside hid place'.ambient) hc
      have hagain : b.Folds numbers ρ (b'.addedTo id d) := h.addedAgain hspace _ _
      have houter : place.scope :: (b.scope place.scope).outer =
          (place'.scope :: ((b'.addedTo id d).scope place'.scope).outer).map ρ := by
        rw [List.map_cons, hplace.scope, ← (hagain.scope place'.scope).outer, hplace.scope]
      have hpush := hagain.pushAgain hc.closed hc.ordered hscope hlt (hpos.trans_le hle).ne' houter
        fun t ht ↦ hc.ordered.lt_of_mem_chain hplace''.scope ht
      have hfirst : Place.Folds (foldAt ρ b'.scopes.size scope)
          ⟨place.file, scope, some id, place.ambient⟩
          (inside place' id place'.ambient (b'.addedTo id d)).1 :=
        ⟨hplace.file, foldAt_self _ _, rfl, hplace.ambient⟩
      obtain ⟨σ, hσ, hfolds, hinner⟩ := ih hpush hfirst hd hencloses.stands
      have henter : enterNamespaces place' exported (segment :: rest) b' =
          enterNamespaces (inside place' id place'.ambient (b'.addedTo id d)).1 true rest
            (inside place' id place'.ambient (b'.addedTo id d)).2 := by
        rw [← hdeclare.2, ← hdeclare.1]
        rfl
      rw [henter]
      exact ⟨σ, (hagain.extend_foldAt hle hlow).trans hσ le_rfl (by simp), hfolds, hinner⟩

end Binder

end PluginSurface
