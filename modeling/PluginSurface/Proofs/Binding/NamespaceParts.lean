import PluginSurface.Proofs.Binding.EnteredNamespaces

/-!
# Namespaces in two parts

A namespace that only describes what exists elsewhere can be written as two namespaces of the same
name that follow each other. The second one finds the symbols of the first one, and since everything
in them is exported, what is declared in one is found from the other. So the program is bound as
with the whole namespace, except that two scopes stand for one. Main statement:
`Binding.exists_folds_ofProgram`.
-/

namespace PluginSurface

/-- Whether the statements inside a declaration only describe what exists elsewhere. Those of a
namespace do if it does itself, those of modules always, all others never. -/
def Decl.ambientInside (ambient : Bool) : Decl → Bool
  | .moduleDecl (.path _) _ => ambient
  | .moduleDecl .. => true
  | _ => false

mutual

/-- The second statements are the first ones with namespaces in two parts, here and inside the
statements. Such a namespace only describes what exists elsewhere, all its names are exports, and no
module inside its first part makes its own names exports of something else. A statement with a
number has the given numbers then; places in the text may be others. -/
inductive Statement.Parts (numbers : Nat → List Nat) :
    Bool → List Statement → List Statement → Prop
  | nil {ambient : Bool} : Statement.Parts numbers ambient [] []
  | keep {ambient : Bool} {s s' : Statement} {rest rest' : List Statement}
      (hid : numbers s.id = [s'.id]) (hmodifiers : s'.modifiers = s.modifiers)
      (hdecl : s.decl.Relates (fun k k' ↦ k'.outline = k.outline) s'.decl)
      (hbodies : Statement.PartsInside numbers
        (s.decl.ambientInside (ambient || s.modifiers.contains .ambient)) s.decl.bodies
          s'.decl.bodies)
      (hrest : Statement.Parts numbers ambient rest rest') :
      Statement.Parts numbers ambient (s :: rest) (s' :: rest')
  | split {ambient : Bool} {id n n' : Nat} {modifiers : List Modifier} {span span' span'' : Span}
      {segments : List String} {xs ys xs' ys' rest rest' : List Statement}
      (hid : numbers id = [n, n'])
      (hsegments : segments ≠ []) (hambient : (ambient || modifiers.contains .ambient) = true)
      (hexports : ∀ s ∈ xs ++ ys, s.declaresExports = true)
      (hkeeps : ∀ s ∈ xs, s.KeepsInModules segments)
      (hxs : Statement.Parts numbers true xs xs') (hys : Statement.Parts numbers true ys ys')
      (hrest : Statement.Parts numbers ambient rest rest') :
      Statement.Parts numbers ambient
        (⟨id, modifiers, .moduleDecl (.path segments) (some (xs ++ ys)), span⟩ :: rest)
        (⟨n, modifiers, .moduleDecl (.path segments) (some xs'), span'⟩ ::
          ⟨n', modifiers, .moduleDecl (.path segments) (some ys'), span''⟩ :: rest')

/-- The same of bodies, one after the other. -/
inductive Statement.PartsInside (numbers : Nat → List Nat) :
    Bool → List (Option (List Statement)) → List (Option (List Statement)) → Prop
  | nil {ambient : Bool} : Statement.PartsInside numbers ambient [] []
  | none {ambient : Bool} {rest rest' : List (Option (List Statement))}
      (hrest : Statement.PartsInside numbers ambient rest rest') :
      Statement.PartsInside numbers ambient (Option.none :: rest) (Option.none :: rest')
  | some {ambient : Bool} {body body' : List Statement}
      {rest rest' : List (Option (List Statement))}
      (hbody : Statement.Parts numbers ambient body body')
      (hrest : Statement.PartsInside numbers ambient rest rest') :
      Statement.PartsInside numbers ambient (Option.some body :: rest) (Option.some body' :: rest')

end

/-- The second unit is the first one with namespaces in two parts. -/
structure SourceUnit.Parts (numbers : Nat → List Nat) (u u' : SourceUnit) : Prop where
  path : u'.path = u.path
  resolved : u'.resolved = u.resolved
  statements : Statement.Parts numbers u.isDeclaration u.tree.statements u'.tree.statements

/-- The second program is the first one with namespaces in two parts. -/
structure Program.Parts (numbers : Nat → Nat → List Nat) (p p' : Program) : Prop where
  options : p'.options = p.options
  units : List.Forall₂ (fun x x' ↦ x'.2 = x.2 ∧ x.1.Parts (numbers x.2) x'.1)
    p.units.toList.zipIdx p'.units.toList.zipIdx

namespace Statement.Parts

variable {numbers : Nat → List Nat} {ambient : Bool}

/-- What depends on the modifiers and the kind of a statement alone is true of one of the
statements in both. -/
theorem any_eq {f : Statement → Bool} (hf : ∀ s s' : Statement, s'.modifiers = s.modifiers →
      s.decl.Relates (fun _ _ ↦ True) s'.decl →
      f s' = f s) {ambient : Bool} {ss ss' : List Statement} :
    Parts numbers ambient ss ss' → ss'.any f = ss.any f
  | .nil => rfl
  | .keep _ hmodifiers hdecl _ hrest => by
      rw [List.any_cons, List.any_cons, hf _ _ hmodifiers (hdecl.imp fun _ _ _ ↦ trivial),
        hrest.any_eq hf]
  | @split _ _ id n n' modifiers span span' span'' segments xs ys xs' ys' rest rest' _ _ _ _ _ _ _
      hrest => by
      have hfirst := hf ⟨id, modifiers, .moduleDecl (.path segments) (some (xs ++ ys)), span⟩
        ⟨n, modifiers, .moduleDecl (.path segments) (some xs'), span'⟩ rfl (.moduleDecl _ _ _)
      have hsecond := hf ⟨id, modifiers, .moduleDecl (.path segments) (some (xs ++ ys)), span⟩
        ⟨n', modifiers, .moduleDecl (.path segments) (some ys'), span''⟩ rfl (.moduleDecl _ _ _)
      rw [List.any_cons, List.any_cons, List.any_cons, hrest.any_eq hf, hfirst, hsecond,
        ← Bool.or_assoc, Bool.or_self]

theorem isModule {u u' : SourceUnit} (h : u.Parts numbers u') :
    u'.tree.isModule = u.tree.isModule := by
  refine h.statements.any_eq fun s s' hmodifiers hdecl ↦ ?_
  obtain ⟨id, modifiers, decl, span⟩ := s
  obtain ⟨id', _, decl', span'⟩ := s'
  obtain rfl : _ = modifiers := hmodifiers
  cases hdecl <;> rfl

theorem exportsAll_eq {ss ss' : List Statement} (h : Parts numbers ambient ss ss')
    {place place' : Place}
    (hcontainer : place'.container = place.container) (hambient : place'.ambient = place.ambient) :
    Binder.exportsAll place' ss' = Binder.exportsAll place ss := by
  unfold Binder.exportsAll
  rw [hcontainer, hambient, h.any_eq fun s s' _ hdecl ↦ ?_]
  obtain ⟨id, modifiers, decl, span⟩ := s
  obtain ⟨id', modifiers', decl', span'⟩ := s'
  cases hdecl <;> rfl

end Statement.Parts

theorem mem_bodyNumbers_cons {s : Statement} {rest : List Statement} {n : Nat} :
    n ∈ bodyNumbers (s :: rest) ↔
      n = s.id ∨ n ∈ s.decl.written.flatMap bodyNumbers ∨ n ∈ bodyNumbers rest := by
  rw [bodyNumbers, List.flatMap_cons, List.mem_append, s.numbers_eq_written,
    List.mem_cons, or_assoc]
  rfl

theorem written_namespace (segments : List String) (body : List Statement) :
    (Decl.moduleDecl (.path segments) (some body)).written.flatMap bodyNumbers = bodyNumbers body :=
  List.flatMap_singleton ..

mutual

/-- Each statement is there under its new numbers. -/
theorem Statement.Parts.mem_bodyNumbers {numbers : Nat → List Nat} {ambient : Bool}
    {ss ss' : List Statement} {id n : Nat} (hn : n ∈ numbers id) :
    Statement.Parts numbers ambient ss ss' → id ∈ bodyNumbers ss → n ∈ bodyNumbers ss'
  | .nil => fun h ↦ absurd h List.not_mem_nil
  | .keep hid _ _ hbodies hrest => fun h ↦ by
      rw [mem_bodyNumbers_cons] at h ⊢
      rcases h with rfl | h | h
      · rw [hid] at hn
        exact .inl (List.mem_singleton.mp hn)
      · exact .inr (.inl (hbodies.mem_bodyNumbers hn h))
      · exact .inr (.inr (hrest.mem_bodyNumbers hn h))
  | .split hid _ _ _ _ hxs hys hrest => fun h ↦ by
      rw [mem_bodyNumbers_cons, written_namespace] at h
      rw [mem_bodyNumbers_cons, mem_bodyNumbers_cons, written_namespace, written_namespace]
      rcases h with rfl | h | h
      · rw [hid, List.mem_pair] at hn
        exact hn.elim .inl fun hn ↦ .inr (.inr (.inl hn))
      · rw [bodyNumbers, List.flatMap_append, List.mem_append] at h
        exact h.elim (fun h ↦ .inr (.inl (hxs.mem_bodyNumbers hn h)))
          fun h ↦ .inr (.inr (.inr (.inl (hys.mem_bodyNumbers hn h))))
      · exact .inr (.inr (.inr (.inr (hrest.mem_bodyNumbers hn h))))

theorem Statement.PartsInside.mem_bodyNumbers {numbers : Nat → List Nat} {ambient : Bool}
    {bodies bodies' : List (Option (List Statement))} {id n : Nat} (hn : n ∈ numbers id) :
    Statement.PartsInside numbers ambient bodies bodies' →
      id ∈ (bodies.flatMap Option.toList).flatMap bodyNumbers →
      n ∈ (bodies'.flatMap Option.toList).flatMap bodyNumbers
  | .nil => fun h ↦ absurd h List.not_mem_nil
  | .none hrest => fun h ↦ by
      rw [List.flatMap_cons, Option.toList_none, List.nil_append] at h ⊢
      exact hrest.mem_bodyNumbers hn h
  | .some hbody hrest => fun h ↦ by
      rw [List.flatMap_cons, Option.toList_some, List.singleton_append, List.flatMap_cons,
        List.mem_append] at h ⊢
      exact h.imp (hbody.mem_bodyNumbers hn) (hrest.mem_bodyNumbers hn)

end

/-! ## Corresponding runs -/

/-- The second binding has come about from the first one by binding, and is in order. -/
structure Binding.Advances (b c : Binding) : Prop where
  framed : c.Framed .empty
  grows : b.Grows c
  spares : b.Spares .empty c

theorem Binding.Advances.trans {b c d : Binding} (hbc : b.Advances c) (hcd : c.Advances d) :
    b.Advances d :=
  ⟨hcd.framed, hbc.grows.trans hcd.grows, hbc.spares.trans hbc.grows.scopes hcd.spares⟩

/-- The second binding folds to the first one, and the places, in which to go on, correspond. -/
structure InStep (numbers : Nat → Nat → List Nat) (ρ : Nat → Nat) (b b' : Binding)
    (place place' : Place) : Prop where
  folds : b.Folds numbers ρ b'
  framed : b.Framed .empty
  framed' : b'.Framed .empty
  stands : place.Stands b
  stands' : place'.Stands b'
  place : place.Folds ρ place'

/-- The place of a namespace, which only describes what exists elsewhere if its modifiers say so. -/
def Place.marked (place : Place) (modifiers : List Modifier) : Place :=
  { place with ambient := place.ambient || modifiers.contains .ambient }

namespace InStep

variable {numbers : Nat → Nat → List Nat} {ρ σ : Nat → Nat} {b b' c c' : Binding}
  {place place' : Place} (h : InStep numbers ρ b b' place place')

include h

theorem advance (hbc : b.Advances c) (hbc' : b'.Advances c')
    (hσ : ScopesExtend ρ σ b.scopes.size b'.scopes.size) (hfolds : c.Folds numbers σ c') :
    InStep numbers σ c c' place place' :=
  ⟨hfolds, hbc.framed, hbc'.framed, h.stands.mono hbc.grows hbc.spares,
    h.stands'.mono hbc'.grows hbc'.spares, h.place.extend hσ h.stands'.scope⟩

theorem folds_noted {id n : Nat} (hn : n ∈ numbers place.file id) :
    (b.noted (place.file, id) place.scope).Folds numbers ρ
      (b'.noted (place'.file, n) place'.scope) := by
  have hnote := h.folds.noted hn place'.scope
  rw [h.place.scope] at hnote
  rwa [h.place.file]

theorem marked (modifiers : List Modifier) :
    InStep numbers ρ b b' (place.marked modifiers) (place'.marked modifiers) where
  folds := h.folds
  framed := h.framed
  framed' := h.framed'
  stands := ⟨⟨h.stands.scope, h.stands.container⟩, h.stands.around⟩
  stands' := ⟨⟨h.stands'.scope, h.stands'.container⟩, h.stands'.around⟩
  place := ⟨h.place.file, h.place.scope, h.place.container,
    congrArg (· || modifiers.contains .ambient) h.place.ambient⟩

end InStep

namespace Binder

section

variable {α : Type} {b b' : Binding} {numbers : Nat → Nat → List Nat} {ρ σ : Nat → Nat}
  {place place' : Place}

theorem Sparing.advances {keys : List (Nat × Nat)} {p : Binder α}
    {done post : α → Binding → Prop}
    (hp : Sparing .empty p b post) (hdoes : Does p b keys done) (hb : b.Framed .empty) :
    b.Advances (p b).2 := by
  obtain ⟨hframed, hgrows, hspares, -⟩ := hp.run hdoes hb
  exact ⟨hframed, hgrows, hspares⟩

theorem advances_bindStatement (program : Program) (hb : b.Framed .empty) (hplace : place.Stands b)
    (all : Bool) (s : Statement) : b.Advances (bindStatement program place all s b).2 :=
  (sparing_bindStatement s hplace (.inl fun h ↦ h) (.inl s.keeps_nil)).advances
    (does_bindStatement s hplace.toWithin all) hb

theorem advances_bindTwo (program : Program) (hb : b.Framed .empty) (hplace : place.Stands b)
    (all : Bool) (s t : Statement) :
    b.Advances ((do
      bindStatement program place all s
      bindStatement program place all t : Binder Unit) b).2 := by
  have hbc : b.Advances (bindStatement program place all s b).2 :=
    advances_bindStatement program hb hplace all s
  exact hbc.trans (advances_bindStatement program hbc.framed
    (hplace.mono hbc.grows hbc.spares) all t)

theorem advances_bindAll (program : Program) (hb : b.Framed .empty) (hplace : place.Stands b)
    (all : Bool) (body : List Statement) : b.Advances (bindAll program place all body b).2 :=
  (sparing_bindAll body hplace (.inl fun h ↦ h) fun s _ ↦ .inl s.keeps_nil).advances
    (does_bindAll body hplace.toWithin all) hb

theorem advances_bindBody (program : Program) (hb : b.Framed .empty) (hplace : place.Stands b)
    (body : Option (List Statement)) : b.Advances (bindBody program place body b).2 :=
  (sparing_bindBody_of (fun s _ _ _ _ hplace hfree hallows ↦ sparing_bindStatement s hplace hfree
    hallows) hplace fun s _ ↦ .inl s.keeps_nil).advances
    (does_bindBody_of (fun s _ _ _ all hplace ↦ does_bindStatement s hplace all) place) hb

theorem advances_declareOwn (hb : b.Framed .empty) (hplace : place.Stands b)
    (exported isDefault : Bool)
    (decl : Decl) : b.Advances (declareOwn place exported isDefault decl b).2 :=
  (sparing_declareOwn hplace exported isDefault decl (.inl fun h ↦ h)
    fun _ _ _ _ h ↦ absurd h List.not_mem_nil).advances
    (does_declareOwn hplace.toWithin exported isDefault decl) hb

theorem advances_enterNamespaces (hb : b.Framed .empty) (hplace : place.Stands b) (exported : Bool)
    (segments : List String) :
    let e := enterNamespaces place exported segments b
    b.Advances e.2 ∧ e.1.Stands e.2 ∧ e.1.file = place.file := by
  obtain ⟨he, hgrows, hspares, ⟨⟨-, hfile⟩, -⟩, hstands, -⟩ :=
    (sparing_enterNamespaces hplace exported segments (.inl fun h ↦ h)).run
      (does_enterNamespaces hplace.toWithin exported segments) hb
  exact ⟨⟨he, hgrows, hspares⟩, hstands, hfile⟩

theorem advances_enterModule (program : Program) (hb : b.Framed .empty) (hplace : place.Stands b)
    (exported : Bool) (name : ModuleName) :
    let e := enterModule program place exported name b
    b.Advances e.2 ∧ e.1.Stands e.2 ∧ e.1.file = place.file := by
  obtain ⟨he, hgrows, hspares, ⟨⟨-, hfile⟩, -⟩, hstands, -⟩ :=
    (sparing_enterModule program hplace exported name (.inl fun h ↦ h)).run
      (does_enterModule program hplace.toWithin exported name) hb
  exact ⟨⟨he, hgrows, hspares⟩, hstands, hfile⟩

/-- Done in two bindings of which the second folds to the first one, the actions leave such
bindings. New scopes of the second one stand for new scopes of the first one. -/
def InParts (numbers : Nat → Nat → List Nat) (ρ : Nat → Nat) (b b' : Binding)
    (p p' : Binder Unit) : Prop :=
  ∃ σ, ScopesExtend ρ σ b.scopes.size b'.scopes.size ∧ (p b).2.Folds numbers σ (p' b').2

theorem inParts_unit (h : b.Folds numbers ρ b') :
    InParts numbers ρ b b' (pure ()) (pure ()) := ⟨ρ, h.extend_refl, h⟩

/-- After actions that do the same in both bindings. -/
theorem Folding.inParts {r : α → α → Prop} {p p' : Binder α} {q q' : α → Binder Unit}
    (h : b.Folds numbers ρ b') (hp : Folding numbers ρ r b b' p p') (hbc : b.Grows (p b).2)
    (hbc' : b'.Grows (p' b').2)
    (hq : (p b).2.Folds numbers ρ (p' b').2 → r (p b).1 (p' b').1 →
      InParts numbers ρ (p b).2 (p' b').2 (q (p b).1) (q' (p' b').1)) :
    InParts numbers ρ b b' (p >>= q) (p' >>= q') := by
  obtain ⟨hr, hfolds⟩ := hp h
  obtain ⟨σ, hσ, hresult⟩ := hq hfolds hr
  exact ⟨σ, h.extend_refl.trans hσ hbc.scopes hbc'.scopes, hresult⟩

theorem InParts.andThen {p p' q q' : Binder Unit} (hp : InParts numbers ρ b b' p p')
    (hbc : b.Grows (p b).2) (hbc' : b'.Grows (p' b').2)
    (hq : ∀ σ, ScopesExtend ρ σ b.scopes.size b'.scopes.size → (p b).2.Folds numbers σ
      (p' b').2 → InParts numbers σ (p b).2 (p' b').2 q q') :
    InParts numbers ρ b b' (do p; q) (do p'; q') := by
  obtain ⟨σ, hσ, hfolds⟩ := hp
  obtain ⟨τ, hτ, hresult⟩ := hq σ hσ hfolds
  exact ⟨τ, hσ.trans hτ hbc.scopes hbc'.scopes, hresult⟩

end

/-- Names can be declared in corresponding places, as the scope of the place is one by itself or all
names of the statements are exports. -/
def CanBind (ρ : Nat → Nat) (place place' : Place) (all : Bool) (body : List Statement) : Prop :=
  place.Alone ρ place' ∨
    all = true ∧ place.container.isSome = true ∧ ∀ s ∈ body, s.declaresExports = true

theorem CanBind.imp {ρ σ : Nat → Nat} {low top : Nat} {place place' : Place} {all : Bool}
    {body part : List Statement} (h : CanBind ρ place place' all body)
    (hσ : ScopesExtend ρ σ low top)
    (hplace : place.scope < low) (hpart : ∀ s ∈ part, s ∈ body) :
    CanBind σ place place' all part :=
  Or.imp (·.extend hσ hplace) (fun h ↦ ⟨h.1, h.2.1, fun s hs ↦ h.2.2 s (hpart s hs)⟩) h

/-- Wherever the second statements are bound instead of the first ones, in a place that only
describes what exists elsewhere if `ambient` is set, the second binding folds to the first one. -/
structure FoldsParts (numbers : Nat → Nat → List Nat) (program program' : Program)
    (f : Nat → List Nat) (ambient : Bool) (body body' : List Statement) : Prop where
  parts : Statement.Parts f ambient body body'
  folds : ∀ (ρ : Nat → Nat) (b b' : Binding) (place place' : Place) (all : Bool),
    numbers place.file = f → place.ambient = ambient → InStep numbers ρ b b' place place' →
    CanBind ρ place place' all body →
      InParts numbers ρ b b' (bindAll program place all body) (bindAll program' place' all body')

section

variable {numbers : Nat → Nat → List Nat} {ρ : Nat → Nat} {f : Nat → List Nat}
    {b b' : Binding}
  {program program' : Program} {place place' : Place}

variable (hfile : numbers place.file = f) (hstep : InStep numbers ρ b b' place place')

include hfile hstep

omit hfile in
/-- The scopes of statements are noted. -/
theorem advances_note (id id' : Nat) :
    b.Advances (b.noted (place.file, id) place.scope) ∧
      b'.Advances (b'.noted (place'.file, id') place'.scope) := by
  have hnote {b : Binding} {place : Place} (hb : b.Framed .empty) (hplace : place.Stands b)
      (id : Nat) : b.Advances (b.noted (place.file, id) place.scope) := by
    obtain ⟨hsteps, -⟩ := does_note hplace.toWithin id hb.closed
    have hspares : b.Spares .empty (b.noted (place.file, id) place.scope) :=
      Binding.spares_of_eq hb.ordered (fun _ ↦ rfl) rfl
    exact ⟨hb.of_spares (hsteps.closed hb.closed) hsteps.grows hspares, hsteps.grows, hspares⟩
  exact ⟨hnote hstep.framed hstep.stands id, hnote hstep.framed' hstep.stands' id'⟩

theorem inParts_bindBody {body body' : Option (List Statement)}
    (h : Option.Rel (FoldsParts numbers program program' f false) body body') :
    InParts numbers ρ b b' (bindBody program place body) (bindBody program' place' body') := by
  cases h with
  | none => exact inParts_unit hstep.folds
  | some h =>
      obtain ⟨hc, hbc, -, ⟨-, hinner⟩, -, hencloses⟩ :=
        (sparing_enterBody hstep.stands.toWithin).run (does_enterBody place) hstep.framed
      obtain ⟨hc', hbc', -, -, -, hencloses'⟩ :=
        (sparing_enterBody hstep.stands'.toWithin).run (does_enterBody place') hstep.framed'
      refine (folding_enterBody hstep.place).inParts hstep.folds hbc hbc' fun hfolds hplaces ↦ ?_
      exact h.folds ρ _ _ _ _ false ((congrArg numbers hinner).trans hfile) rfl
        ⟨hfolds, hc, hc', hencloses.stands, hencloses'.stands, hplaces.1⟩ (.inl hplaces.2)

theorem inParts_bindMembers {members members' : List ClassMember}
    (h : List.Forall₂ (Option.Rel (FoldsParts numbers program program' f false))
      (members.map fun m ↦ m.kind.body?) (members'.map fun m ↦ m.kind.body?)) :
    InParts numbers ρ b b' (bindMembers program place members)
      (bindMembers program' place' members') := by
  rw [List.forall₂_map_left_iff, List.forall₂_map_right_iff] at h
  induction h generalizing ρ b b' with
  | nil => exact inParts_unit hstep.folds
  | @cons m m' rest rest' hm _ ih =>
      have hmember := inParts_bindBody hfile hstep hm
      have hbc := advances_bindBody program hstep.framed hstep.stands m.kind.body?
      have hbc' := advances_bindBody program' hstep.framed' hstep.stands' m'.kind.body?
      rw [← bindMember_eq] at hbc hbc'
      rw [← bindMember_eq, ← bindMember_eq] at hmember
      obtain ⟨modifiers, kind, span⟩ := m
      obtain ⟨modifiers', kind', span'⟩ := m'
      exact hmember.andThen hbc.grows hbc'.grows fun σ hσ hfolds ↦
        ih (hstep.advance hbc hbc' hσ hfolds)

theorem inParts_bindModule {body body' : Option (List Statement)} {ambient : Bool}
    (h : Option.Rel (FoldsParts numbers program program' f ambient) body body')
    (hambient : place.ambient = ambient) (halone : place.Alone ρ place') :
    InParts numbers ρ b b' (bindModule program place body) (bindModule program' place' body') := by
  cases h with
  | none => exact inParts_unit hstep.folds
  | some h =>
      rw [bindModule, bindModule, h.parts.exportsAll_eq hstep.place.container hstep.place.ambient]
      exact h.folds ρ b b' place place' _ hfile hambient hstep (.inl halone)

omit hfile hstep in
theorem enterNamespaces_ambient (place : Place) (exported : Bool) (segments : List String)
    (b : Binding) : (enterNamespaces place exported segments b).1.ambient = place.ambient := by
  induction segments generalizing place exported b with
  | nil => rfl
  | cons segment rest ih => exact ih _ true _

omit hfile hstep in
/-- The statements in a namespace describe what exists elsewhere if it does, those in a
module always. -/
theorem enterModule_ambient (place : Place) (exported : Bool) (name : ModuleName)
    (body : Option (List Statement)) (b : Binding) :
    (enterModule program place exported name b).1.ambient =
      (Decl.moduleDecl name body).ambientInside place.ambient := by
  cases name with
  | global => rfl
  | string specifier => rfl
  | path segments => exact enterNamespaces_ambient place exported segments b

variable (hmodule : ∀ file specifier,
  program'.resolvedModule file specifier = program.resolvedModule file specifier)

include hmodule

theorem inParts_bindInside {R : DeclarationKind → DeclarationKind → Prop} {decl decl' : Decl}
    (hdecl : decl.Relates R decl') {ambient exported : Bool}
    (hbodies : List.Forall₂ (Option.Rel (FoldsParts numbers program program' f
      (decl.ambientInside ambient))) decl.bodies decl'.bodies)
    (hslot : place.Alone ρ place' ∨
      exported = true ∧ place.container.isSome = true ∧ ∀ body, decl ≠
        .moduleDecl (.path []) body) :
    InParts numbers ρ b b' (bindInside program place ambient exported decl)
      (bindInside program' place' ambient exported decl') := by
  cases hdecl with
  | @classDecl c c' =>
      obtain ⟨_, _, _, _, members⟩ := c
      obtain ⟨_, _, _, _, members'⟩ := c'
      exact inParts_bindMembers hfile hstep hbodies
  | function => exact inParts_bindBody hfile hstep (List.forall₂_cons.mp hbodies).1
  | block => exact inParts_bindBody hfile hstep (List.forall₂_cons.mp hbodies).1
  | moduleDecl name body body' =>
      let here : Place := { place with ambient := ambient }
      let here' : Place := { place' with ambient := ambient }
      have hstands : here.Stands b :=
        ⟨⟨hstep.stands.scope, hstep.stands.container⟩, hstep.stands.around⟩
      have hstands' : here'.Stands b' :=
        ⟨⟨hstep.stands'.scope, hstep.stands'.container⟩, hstep.stands'.around⟩
      have hplace : here.Folds ρ here' :=
        ⟨hstep.place.file, hstep.place.scope, hstep.place.container, rfl⟩
      have hname : here.Alone ρ here' ∨
          exported = true ∧ here.container.isSome = true ∧ name ≠ .path [] :=
        hslot.imp_right fun h ↦ ⟨h.1, h.2.1, fun heq ↦ h.2.2 body (heq ▸ rfl)⟩
      obtain ⟨hbc, hin, hinner⟩ :=
        advances_enterModule program hstep.framed hstands exported name
      obtain ⟨hbc', hin', -⟩ :=
        advances_enterModule program' hstep.framed' hstands' exported name
      refine (folding_enterModule hmodule hplace hname).inParts hstep.folds hbc.grows hbc'.grows
        fun hfolds hplaces ↦ ?_
      exact inParts_bindModule ((congrArg numbers hinner).trans hfile)
        ⟨hfolds, hbc.framed, hbc'.framed, hin, hin', hplaces.1⟩
          (List.forall₂_cons.mp hbodies).1
        (enterModule_ambient here exported name body b) hplaces.2
  | _ => exact inParts_unit hstep.folds

theorem inParts_bindStatement {s s' : Statement} (hid : numbers place.file s.id = [s'.id])
    (hmodifiers : s'.modifiers = s.modifiers)
    (hdecl : s.decl.Relates (fun k k' ↦ k'.outline = k.outline) s'.decl)
    (hbodies : List.Forall₂ (Option.Rel (FoldsParts numbers program program' f
      (s.decl.ambientInside (place.ambient || s.modifiers.contains .ambient)))) s.decl.bodies
        s'.decl.bodies)
    {all : Bool} (hcan : CanBind ρ place place' all [s]) :
    InParts numbers ρ b b' (bindStatement program place all s)
      (bindStatement program' place' all s') := by
  obtain ⟨id, modifiers, decl, span⟩ := s
  obtain ⟨id', modifiers', decl', span'⟩ := s'
  obtain rfl : modifiers = modifiers' := hmodifiers.symm
  let isDefault := modifiers.contains .default
  let exported := !isDefault && (all || modifiers.contains .exported)
  have hslot : place.Alone ρ place' ∨ exported = true ∧ place.container.isSome = true ∧
      Statement.declaresExports ⟨id, modifiers, decl, span⟩ = true := by
    refine hcan.imp_right fun ⟨hall, hsome, hexports⟩ ↦ ?_
    have hdeclares := hexports _ List.mem_cons_self
    have hdefault := (Bool.and_eq_true_iff.mp hdeclares).1
    refine ⟨?_, hsome, hdeclares⟩
    simp only [exported, isDefault, hall, Bool.true_or, Bool.and_true]
    exact hdefault
  unfold bindStatement
  obtain ⟨hnoted, hnoted'⟩ := advances_note hstep id id'
  refine Folding.inParts (r := Eq) hstep.folds (folding_modify fun _ ↦ hstep.folds_noted ?_)
    hnoted.grows hnoted'.grows fun hfolds _ ↦ ?_
  · rw [hid]
    exact List.mem_cons_self
  · have hstep' := hstep.advance hnoted hnoted' hstep.folds.extend_refl hfolds
    have hown := advances_declareOwn hstep'.framed hstep'.stands exported isDefault decl
    have hown' := advances_declareOwn hstep'.framed' hstep'.stands' exported isDefault decl'
    refine (folding_declareOwn hstep'.place hdecl (hslot.imp_right fun h ↦ ⟨h.1, h.2.1, ?_⟩)
      isDefault).inParts hstep'.folds hown.grows hown'.grows fun hfolds' _ ↦ ?_
    · rintro d rfl
      simp [Statement.declaresExports] at h
    · rw [hstep.place.ambient]
      refine inParts_bindInside hfile (hstep'.advance hown hown' hstep'.folds.extend_refl hfolds')
        hmodule hdecl hbodies (hslot.imp_right fun h ↦ ⟨h.1, h.2.1, ?_⟩)
      rintro body rfl
      simp [Statement.declaresExports] at h

end

/-! ## Namespaces in two parts -/

section

variable {numbers : Nat → Nat → List Nat} {ρ : Nat → Nat} {f : Nat → List Nat}
    {b b' : Binding}
  {program program' : Program} {place place' : Place} {segments : List String}

/-- The statements of a first part leave the namespaces entered. -/
theorem entered_bindAll (program : Program) (hb : b.Framed .empty) (hplace : place.Stands b)
    (exported : Bool) (hsegments : segments ≠ []) {xs : List Statement}
    (hexports : ∀ s ∈ xs, s.declaresExports = true)
    (hkeeps : ∀ s ∈ xs, s.KeepsInModules segments) :
    let e := enterNamespaces place exported segments b
    (bindAll program e.1 true xs e.2).2.Entered b.scopes.size place exported segments e.1 := by
  intro e
  have hentered : e.2.Entered b.scopes.size place exported segments e.1 :=
    entered_enterNamespaces hb hplace exported segments
  obtain ⟨hbe, hinner, -⟩ := advances_enterNamespaces hb hplace exported segments
  obtain ⟨m, hm⟩ := Option.isSome_iff_exists.mp (hentered.isSome (.inl hsegments))
  let F : Frame := ⟨m, segments, fun s ↦ b.scopes.size ≤ s ∧ s < e.2.scopes.size⟩
  have hframed : e.2.Framed F := ⟨hbe.framed.closed, hbe.framed.ordered, fun s hs ↦
    ⟨(hb.closed.global.trans_le hs.1).ne', hs.2⟩⟩
  have hbelow : e.1.Below m e.2 := by
    refine ⟨fun k hk ↦ ?_, e.1.scope, List.mem_cons_self, hinner.around m hm⟩
    rw [hm] at hk
    exact (Option.some.inj hk).le
  have hsparing : Sparing F (bindAll program e.1 true xs) e.2 fun _ _ ↦ True :=
    sparing_bindAll xs hinner (.inr ⟨rfl, hm ▸ rfl, hexports⟩) fun s hs ↦
      .inr ⟨hkeeps s hs, hbelow⟩
  obtain ⟨-, hgrows, hspares, -⟩ := hsparing.run (does_bindAll xs hinner.toWithin true) hframed
  refine hentered.mono hbe.framed.ordered hgrows hspares (hplace.scope.trans_le hbe.grows.scopes)
    (fun _ h ↦ h) (fun s hs hlt ↦ ⟨hs, hlt⟩) fun k hk ↦ ?_
  rw [hm] at hk
  exact (Option.some.inj hk).ge

theorem exportsAll_of_declaresExports (hambient : place.ambient = true)
    (hcontainer : place.container.isSome = true) {body : List Statement}
    (hexports : ∀ s ∈ body, s.declaresExports = true) : exportsAll place body = true := by
  rw [exportsAll, hambient, hcontainer, Bool.true_and, Bool.true_and, Bool.not_eq_true',
    List.any_eq_false]
  intro s hs
  have hdeclares := (Bool.and_eq_true_iff.mp (hexports s hs)).2
  split at hdeclares
  all_goals simp_all

theorem bindAll_append (all : Bool) (xs ys : List Statement) :
    (bindAll program place all (xs ++ ys) b).2 =
      (bindAll program place all ys (bindAll program place all xs b).2).2 := by
  induction xs generalizing b with
  | nil => rfl
  | cons x rest ih => exact ih (b := (bindStatement program place all x b).2)

/-- A namespace is entered, and its statements are bound there. -/
theorem bindStatement_namespace (program : Program) (all : Bool) (id : Nat)
    (modifiers : List Modifier) (body : List Statement) (span : Span) :
    let e := enterNamespaces (place.marked modifiers)
      (!modifiers.contains .default && (all || modifiers.contains .exported)) segments
      (b.noted (place.file, id) place.scope)
    exportsAll e.1 body = true →
      (bindStatement program place all
        ⟨id, modifiers, .moduleDecl (.path segments) (some body), span⟩ b).2 =
        (bindAll program e.1 true body e.2).2 := by
  intro e hall
  rw [← hall, bindStatement]
  rfl

theorem inStep_enterNamespaces (h : InStep numbers ρ b b' place place') {exported : Bool}
    (hslot : place.Alone ρ place' ∨
      exported = true ∧ place.container.isSome = true ∧ segments ≠ []) :
    let e := enterNamespaces place exported segments b
    let e' := enterNamespaces place' exported segments b'
    InStep numbers ρ e.2 e'.2 e.1 e'.1 ∧ b.Advances e.2 ∧ b'.Advances e'.2 := by
  obtain ⟨hbe, hinner, -⟩ := advances_enterNamespaces h.framed h.stands exported segments
  obtain ⟨hbe', hinner', -⟩ := advances_enterNamespaces h.framed' h.stands' exported segments
  obtain ⟨hplaces, hfolds⟩ := folding_enterNamespaces h.place hslot h.folds
  exact ⟨⟨hfolds, hbe.framed, hbe'.framed, hinner, hinner', hplaces.1⟩, hbe, hbe'⟩

theorem exists_inStep_enterNamespaces (h : InStep numbers ρ b b' place place') {low : Nat}
    {exported : Bool} {inner : Place} (hentered : b.Entered low place exported segments inner)
    (hinner : inner.Stands b) (hlow : low ≤ b.scopes.size) (hpos : 0 < low) :
    let e' := enterNamespaces place' exported segments b'
    b'.Advances e'.2 ∧
      ∃ σ, ScopesExtend ρ σ low b'.scopes.size ∧ InStep numbers σ b e'.2 inner e'.1 := by
  obtain ⟨hbe', hinner', -⟩ := advances_enterNamespaces h.framed' h.stands' exported segments
  obtain ⟨σ, hσ, hfolds, hplaces⟩ :=
    exists_folds_enterNamespaces hentered h.folds h.place h.framed' h.stands' hlow hpos
  exact ⟨hbe', σ, hσ, hfolds, h.framed, hbe'.framed, hinner, hinner', hplaces⟩

/-- Where the statements only describe what exists elsewhere and are all exports, they are bound. -/
theorem exported_foldsParts {body body' : List Statement}
    (h : FoldsParts numbers program program' f true body body') (hfile : numbers place.file = f)
    (hstep : InStep numbers ρ b b' place place') (hambient : place.ambient = true)
    (hcontainer : place.container.isSome = true)
    (hexports : ∀ s ∈ body, s.declaresExports = true) : exportsAll place' body' = true ∧
      InParts numbers ρ b b' (bindAll program place true body)
        (bindAll program' place' true body') := by
  rw [h.parts.exportsAll_eq hstep.place.container hstep.place.ambient]
  exact ⟨exportsAll_of_declaresExports hambient hcontainer hexports,
    h.folds ρ b b' place place' true hfile hambient hstep (.inr ⟨rfl, hcontainer, hexports⟩)⟩

section

variable {exported : Bool} {xs xs' : List Statement}
  (hxs : FoldsParts numbers program program' f true xs xs')
  (hexports : ∀ s ∈ xs, s.declaresExports = true) (hstep : InStep numbers ρ b b' place place')

include hxs hexports hstep

/-- The namespaces are entered, and the statements of the first part are bound there. -/
theorem inStep_firstPart (hfile : numbers place.file = f) (hambient : place.ambient = true)
    (hsegments : segments ≠ [])
    (hslot : place.Alone ρ place' ∨ exported = true ∧ place.container.isSome = true) :
    let e := enterNamespaces place exported segments b
    let e' := enterNamespaces place' exported segments b'
    let c := (bindAll program e.1 true xs e.2).2
    let c' := (bindAll program' e'.1 true xs' e'.2).2
    exportsAll e'.1 xs' = true ∧ b.Advances c ∧ b'.Advances c' ∧
      ∃ σ, ScopesExtend ρ σ b.scopes.size b'.scopes.size ∧
      InStep numbers σ c c' place place' := by
  intro e e' c c'
  obtain ⟨hin, hbe, hbe'⟩ : InStep numbers ρ e.2 e'.2 e.1 e'.1 ∧ b.Advances e.2 ∧
      b'.Advances e'.2 :=
    inStep_enterNamespaces hstep (hslot.imp_right fun h ↦ ⟨h.1, h.2, hsegments⟩)
  obtain ⟨-, -, hinner⟩ := advances_enterNamespaces hstep.framed hstep.stands exported segments
  have hsome : e.1.container.isSome = true :=
    (entered_enterNamespaces hstep.framed hstep.stands exported segments).isSome (.inl hsegments)
  obtain ⟨hall, σ, hσ, hfolds⟩ :=
    exported_foldsParts hxs ((congrArg numbers hinner).trans hfile) hin
    ((enterNamespaces_ambient place exported segments b).trans hambient) hsome hexports
  have hbc : b.Advances c := hbe.trans (advances_bindAll program hin.framed hin.stands true xs)
  have hbc' : b'.Advances c' :=
    hbe'.trans (advances_bindAll program' hin.framed' hin.stands' true xs')
  have hρσ := hstep.folds.extend_refl.trans hσ hbe.grows.scopes hbe'.grows.scopes
  exact ⟨hall, hbc, hbc', σ, hρσ, hstep.advance hbc hbc' hρσ hfolds⟩

/-- In the second binding the namespaces are entered again, and the statements of the second
part are bound there. -/
theorem inParts_secondPart {low : Nat} {inner : Place}
    (hentered : b.Entered low place exported segments inner) (hinner : inner.Stands b)
    (hlow : low ≤ b.scopes.size) (hpos : 0 < low) (hfile : numbers inner.file = f)
    (hambient : inner.ambient = true) (hcontainer : inner.container.isSome = true) :
    let e' := enterNamespaces place' exported segments b'
    exportsAll e'.1 xs' = true ∧ ∃ σ, ScopesExtend ρ σ low b'.scopes.size ∧
      (bindAll program inner true xs b).2.Folds numbers σ
        (bindAll program' e'.1 true xs' e'.2).2 := by
  obtain ⟨hbe', σ, hσ, hin⟩ := exists_inStep_enterNamespaces hstep hentered hinner hlow hpos
  obtain ⟨hall, τ, hτ, hfolds⟩ :=
    exported_foldsParts hxs hfile hin hambient hcontainer hexports
  exact ⟨hall, τ, hσ.trans hτ hlow hbe'.grows.scopes, hfolds⟩

end

/-- Bound in two parts, a namespace is bound as a whole. -/
theorem inParts_namespaceParts {id n n' : Nat} (hid : numbers place.file id = [n, n'])
    (hfile : numbers place.file = f) (hstep : InStep numbers ρ b b' place place')
    {modifiers : List Modifier} (hsegments : segments ≠ [])
    (hambient : (place.ambient || modifiers.contains .ambient) = true)
    {xs ys xs' ys' : List Statement}
    (hexports : ∀ s ∈ xs ++ ys, s.declaresExports = true)
    (hkeeps : ∀ s ∈ xs, s.KeepsInModules segments)
    (hxs : FoldsParts numbers program program' f true xs xs')
    (hys : FoldsParts numbers program program' f true ys ys') {all : Bool}
    (span span' span'' : Span) (hcan : CanBind ρ place place' all
      [⟨id, modifiers, .moduleDecl (.path segments) (some (xs ++ ys)), span⟩]) :
    InParts numbers ρ b b'
      (bindStatement program place all
        ⟨id, modifiers, .moduleDecl (.path segments) (some (xs ++ ys)), span⟩)
      (do
        bindStatement program' place' all
          ⟨n, modifiers, .moduleDecl (.path segments) (some xs'), span'⟩
        bindStatement program' place' all
          ⟨n', modifiers, .moduleDecl (.path segments) (some ys'), span''⟩) := by
  let exported := !modifiers.contains .default && (all || modifiers.contains .exported)
  let here := place.marked modifiers
  let here' := place'.marked modifiers
  obtain ⟨hxsExports, hysExports⟩ := List.forall_mem_append.mp hexports
  have hslot : here.Alone ρ here' ∨ exported = true ∧ here.container.isSome = true := by
    refine hcan.imp_right fun ⟨hall, hsome, hdeclares⟩ ↦ ⟨?_, hsome⟩
    have hdefault := (Bool.and_eq_true_iff.mp (hdeclares _ List.mem_cons_self)).1
    simp only [exported, hall, Bool.true_or, Bool.and_true]
    exact hdefault
  -- Both bindings have noted a scope when the first part is bound.
  let c := b.noted (place.file, id) place.scope
  let c' := b'.noted (place'.file, n) place'.scope
  obtain ⟨hbc, hbc'⟩ := advances_note hstep id n
  have hstart : InStep numbers ρ c c' here here' := (hstep.advance hbc hbc' hstep.folds.extend_refl
    (hstep.folds_noted (hid ▸ List.mem_cons_self))).marked modifiers
  let e := enterNamespaces here exported segments c
  let e' := enterNamespaces here' exported segments c'
  let d := (bindAll program e.1 true xs e.2).2
  let d' := (bindAll program' e'.1 true xs' e'.2).2
  obtain ⟨hxsAll, hcd, hcd', σ, hσ, hdstep⟩ :=
    inStep_firstPart hxs hxsExports hstart hfile hambient hsegments hslot
  -- The second binding notes the scope of the second part also.
  let g' := d'.noted (place'.file, n') place'.scope
  have hdg' : d'.Advances g' := (advances_note hdstep id n').2
  have hnote : ((place'.file, id), σ place'.scope) ∈ d.statementScopes := by
    have hscope : σ place'.scope = place.scope := hdstep.place.scope
    rw [hscope, hstep.place.file]
    exact hcd.grows.statementScopes.subset List.mem_cons_self
  have hgstep : InStep numbers σ d g' here here' :=
    { hdstep with
      folds := hdstep.folds.noted_again (by simp [hstep.place.file, hid]) hnote
      framed' := hdg'.framed
      stands' := hdstep.stands'.mono hdg'.grows hdg'.spares }
  -- What has been bound has left the namespaces as they were entered.
  have hentered : d.Entered c.scopes.size here exported segments e.1 :=
    entered_bindAll program hstart.framed hstart.stands exported hsegments hxsExports hkeeps
  obtain ⟨hce, hinner, hinnerFile⟩ :=
    advances_enterNamespaces hstart.framed hstart.stands exported segments
  have hed : e.2.Advances d := advances_bindAll program hce.framed hinner true xs
  have hinnerAmbient : e.1.ambient = true :=
    (enterNamespaces_ambient here exported segments c).trans hambient
  have hsome : e.1.container.isSome = true := hentered.isSome (.inl hsegments)
  obtain ⟨hysAll, τ, hτ, hresult⟩ := inParts_secondPart hys hysExports hgstep hentered
    (hinner.mono hed.grows hed.spares) hcd.grows.scopes hstart.framed.closed.global
    ((congrArg numbers hinnerFile).trans hfile) hinnerAmbient hsome
  have hall : exportsAll e.1 (xs ++ ys) = true :=
    exportsAll_of_declaresExports hinnerAmbient hsome hexports
  have hwhole := bindStatement_namespace program all id modifiers (xs ++ ys) span hall
  have hfirst := bindStatement_namespace program' all n modifiers xs' span' hxsAll
  have hsecond := bindStatement_namespace program' all n' modifiers ys' span'' hysAll
  refine ⟨τ, hσ.trans hτ le_rfl (hcd'.trans hdg').grows.scopes, ?_⟩
  have hthen (p q : Binder Unit) (b : Binding) : ((do p; q) b).2 = (q (p b).2).2 := rfl
  rw [hthen, hwhole, hfirst, bindAll_append]
  exact hsecond ▸ hresult

end

/-- After the first statement, of which the second binding has one or two parts, the
others are bound. -/
theorem inParts_cons {numbers : Nat → Nat → List Nat} {f : Nat → List Nat} {ρ : Nat → Nat}
    {b b' : Binding} {program program' : Program} {place place' : Place} {all ambient : Bool}
    {s : Statement} {rest rest' : List Statement} {p' : Binder Unit}
    (hfile : numbers place.file = f)
    (hambient : place.ambient = ambient) (hstep : InStep numbers ρ b b' place place')
    (hcan : CanBind ρ place place' all (s :: rest))
    (hfirst : CanBind ρ place place' all [s] →
      InParts numbers ρ b b' (bindStatement program place all s) p')
    (hbc' : b'.Advances (p' b').2)
    (hrest : FoldsParts numbers program program' f ambient rest rest') :
    InParts numbers ρ b b' (do bindStatement program place all s; bindAll program place all rest)
      (do p'; bindAll program' place' all rest') := by
  have hbc : b.Advances (bindStatement program place all s b).2 :=
    advances_bindStatement program hstep.framed hstep.stands all s
  have hone : CanBind ρ place place' all [s] := by
    refine hcan.imp hstep.folds.extend_refl hstep.stands.scope fun t ht ↦ ?_
    exact List.mem_singleton.mp ht ▸ List.mem_cons_self
  refine (hfirst hone).andThen hbc.grows hbc'.grows fun σ hσ hfolds ↦ ?_
  exact hrest.folds σ _ _ place place' all hfile hambient (hstep.advance hbc hbc' hσ hfolds)
    (hcan.imp hσ hstep.stands.scope fun t ↦ List.mem_cons_of_mem s)

mutual

theorem foldsParts_of_parts {numbers : Nat → Nat → List Nat} {f : Nat → List Nat}
    {program program' : Program} {ambient : Bool} {body body' : List Statement}
    (hmodule : ∀ file specifier,
      program'.resolvedModule file specifier = program.resolvedModule file specifier) :
    Statement.Parts f ambient body body' →
    FoldsParts numbers program program' f ambient body body'
  | .nil => ⟨.nil, fun _ _ _ _ _ _ _ _ hstep _ ↦ inParts_unit hstep.folds⟩
  | .keep hid hmodifiers hdecl hbodies hrest => by
      have hinside : List.Forall₂ (Option.Rel (FoldsParts numbers program program' f _)) _ _ :=
        foldsParts_of_partsInside hmodule hbodies
      refine ⟨.keep hid hmodifiers hdecl hbodies hrest,
        fun ρ b b' place place' all hfile hambient hstep hcan ↦ ?_⟩
      rw [bindAll, bindAll]
      refine inParts_cons hfile hambient hstep hcan (fun hone ↦ ?_)
        (advances_bindStatement program' hstep.framed' hstep.stands' all _)
          (foldsParts_of_parts hmodule hrest)
      exact inParts_bindStatement hfile hstep hmodule (hfile ▸ hid) hmodifiers hdecl
        (hambient ▸ hinside) hone
  | .split hid hsegments hambient hexports hkeeps hxs hys hrest => by
      have hfirst : FoldsParts numbers program program' f true _ _ :=
        foldsParts_of_parts hmodule hxs
      have hsecond : FoldsParts numbers program program' f true _ _ :=
        foldsParts_of_parts hmodule hys
      refine ⟨.split hid hsegments hambient hexports hkeeps hxs hys hrest,
        fun ρ b b' place place' all hfile heq hstep hcan ↦ ?_⟩
      rw [bindAll, bindAll, bindAll, ← bind_assoc]
      refine inParts_cons hfile heq hstep hcan (fun hone ↦ ?_) ?_
        (foldsParts_of_parts hmodule hrest)
      · exact inParts_namespaceParts (hfile ▸ hid) hfile hstep hsegments (heq ▸ hambient)
          hexports hkeeps hfirst hsecond _ _ _ hone
      · exact advances_bindTwo program' hstep.framed' hstep.stands' all _ _

theorem foldsParts_of_partsInside {numbers : Nat → Nat → List Nat} {f : Nat → List Nat}
    {program program' : Program} {ambient : Bool} {bodies bodies' : List (Option (List Statement))}
    (hmodule : ∀ file specifier,
      program'.resolvedModule file specifier = program.resolvedModule file specifier) :
    Statement.PartsInside f ambient bodies bodies' →
      List.Forall₂ (Option.Rel (FoldsParts numbers program program' f ambient)) bodies bodies'
  | .nil => .nil
  | .none hrest => .cons .none (foldsParts_of_partsInside hmodule hrest)
  | .some hbody hrest =>
      .cons (.some (foldsParts_of_parts hmodule hbody)) (foldsParts_of_partsInside hmodule hrest)

end

/-! ## Programs -/

section

variable {numbers : Nat → Nat → List Nat} {ρ : Nat → Nat} {b b' : Binding}
    {program program' : Program}

theorem folding_declareFile {f : Nat → List Nat} {u u' : SourceUnit} (file : Nat)
    (hu : u.Parts f u') :
    Folding numbers ρ Eq b b' (declareFile u file) (declareFile u' file) := by
  have hadd (module : Option Nat) (c c' : Binding) : Folding numbers ρ Eq c c' (addFile module)
      (addFile module) :=
    folding_modify fun hc ↦ { hc with fileModules := congrArg (·.push module) hc.fileModules }
  unfold declareFile
  rw [Statement.Parts.isModule hu, hu.path]
  split
  · refine (folding_newSymbol _ none).andThen fun id _ c' hc ↦ ?_
    have hmoved : Declaration.Moved ρ ⟨file, Binding.globalScope, .moduleDecl⟩
        ⟨file, Binding.globalScope, .moduleDecl⟩ := ⟨rfl, (hc.global _).mpr rfl, rfl⟩
    exact (folding_addDeclaration id hmoved).andThen (fun _ ↦ hadd (some id)) hc
  · exact hadd none b b'

theorem ordered_declareFiles (files : List (SourceUnit × Nat)) (hb : b.Ordered) :
    ((files.forM fun (u, file) ↦ declareFile u file) b).2.Ordered := by
  induction files generalizing b with
  | nil => exact hb
  | cons x rest ih =>
      refine ih (b := (declareFile x.1 x.2 b).2) ?_
      have hadd {b : Binding} (hb : b.Ordered) (module : Option Nat) :
          (addFile module b).2.Ordered :=
        (Binding.spares_of_eq (F := .empty) (c := (addFile module b).2) hb
          (fun _ ↦ rfl) rfl).ordered
      unfold declareFile
      split
      · have hpushed := (Binding.spares_pushSymbol (F := .empty) hb x.1.path.text []).ordered
        exact hadd (Binding.spares_withSymbol (F := .empty) hpushed b.symbols.size (f := fun s ↦
          { s with declarations :=
            s.declarations ++ [⟨x.2, Binding.globalScope, .moduleDecl⟩] })
          fun _ ↦ rfl).ordered (some b.symbols.size)
      · exact hadd hb none

theorem advances_bindFile (program : Program) (hb : b.Framed .empty) (u : SourceUnit) (file : Nat) :
    b.Advances (bindFile program u file b).2 := by
  have hbind : Sparing .empty (bindFile program u file) b fun _ _ ↦ True := by
    unfold bindFile
    extract_lets global rest
    have hglobal : global.Stands b := Place.stands_global hb.closed file u.isDeclaration
    have hall (place : Place) (c : Binding) (hplace : place.Stands c) :
        Sparing .empty (rest place) c fun _ _ ↦ True :=
      sparing_bindAll _ hplace (.inl fun h ↦ h) fun s _ ↦ .inl s.keeps_nil
    refine sparing_get ?_
    cases hmodule : b.fileModules.getD file none with
    | none => exact hall global b hglobal
    | some m =>
        have hm : m < b.symbols.size := (hb.closed.fileModules file m hmodule).lt
        exact .bind (does_inside hm u.isDeclaration)
          (sparing_inside hglobal.toWithin hm u.isDeclaration)
          fun inner c _ _ _ _ hinner ↦ hall inner c hinner.2.stands
  exact hbind.advances (does_bindFile u file) hb

variable (hmodule : ∀ file specifier,
  program'.resolvedModule file specifier = program.resolvedModule file specifier)

include hmodule

theorem inParts_bindFile {u u' : SourceUnit} {file : Nat} (hu : u.Parts (numbers file) u')
    (h : b.Folds numbers ρ b') (hb : b.Framed .empty) (hb' : b'.Framed .empty) :
    InParts numbers ρ b b' (bindFile program u file) (bindFile program' u' file) := by
  have hdeclaration : u'.isDeclaration = u.isDeclaration := by
    rw [SourceUnit.isDeclaration, hu.path]
    rfl
  have hparts : FoldsParts numbers program program' (numbers file) u.isDeclaration _ _ :=
    foldsParts_of_parts hmodule hu.statements
  unfold bindFile
  rw [hdeclaration]
  extract_lets global rest rest'
  have hall (place place' : Place) (c c' : Binding) (hfile : place.file = file)
      (hambient : place.ambient = u.isDeclaration) (hstep : InStep numbers ρ c c' place place')
      (halone : place.Alone ρ place') : InParts numbers ρ c c' (rest place) (rest' place') := by
    unfold rest rest'
    rw [hparts.parts.exportsAll_eq hstep.place.container hstep.place.ambient]
    exact hparts.folds ρ c c' place place' _ (congrArg numbers hfile) hambient hstep (.inl halone)
  have hglobal {b : Binding} (hb : b.Framed .empty) : global.Stands b :=
    Place.stands_global hb.closed file u.isDeclaration
  have hplace : global.Folds ρ global := ⟨rfl, (h.global _).mpr rfl, rfl, rfl⟩
  have hget {q q' : Binding → Binder Unit} (hq : InParts numbers ρ b b' (q b) (q' b')) :
      InParts numbers ρ b b' (get >>= q) (get >>= q') := hq
  refine hget ?_
  rw [h.fileModules]
  cases hid : b.fileModules.getD file none with
  | none =>
      exact hall global global b b' rfl rfl ⟨h, hb, hb', hglobal hb, hglobal hb', hplace⟩
        fun s hs ↦ (h.global s).mp hs
  | some m =>
      have hm : m < b.symbols.size := (hb.closed.fileModules file m hid).lt
      have hm' : m < b'.symbols.size := hm.trans_eq h.size.symm
      obtain ⟨hc, hbc, -, -, -, hencloses⟩ :=
        (sparing_inside (hglobal hb).toWithin hm u.isDeclaration).run
          (does_inside hm u.isDeclaration) hb
      obtain ⟨hc', hbc', -, -, -, hencloses'⟩ :=
        (sparing_inside (hglobal hb').toWithin hm' u.isDeclaration).run
          (does_inside hm' u.isDeclaration) hb'
      refine (folding_inside hplace m u.isDeclaration).inParts h hbc hbc' fun hfolds hplaces ↦ ?_
      exact hall _ _ _ _ rfl rfl ⟨hfolds, hc, hc', hencloses.stands, hencloses'.stands,
        hplaces.1⟩ hplaces.2

theorem inParts_bindFiles {files files' : List (SourceUnit × Nat)}
    (hfiles : List.Forall₂ (fun x x' ↦ x'.2 = x.2 ∧
      x.1.Parts (numbers x.2) x'.1) files files')
    (h : b.Folds numbers ρ b') (hb : b.Framed .empty) (hb' : b'.Framed .empty) :
    InParts numbers ρ b b' (files.forM fun (u, file) ↦ bindFile program u file)
      (files'.forM fun (u, file) ↦ bindFile program' u file) := by
  induction hfiles generalizing ρ b b' with
  | nil => exact inParts_unit h
  | @cons x x' rest rest' hx _ ih =>
      obtain ⟨u, file⟩ := x
      obtain ⟨u', file'⟩ := x'
      obtain ⟨rfl, hu⟩ := hx
      have hbc := advances_bindFile program hb u file'
      have hbc' := advances_bindFile program' hb' u' file'
      exact (inParts_bindFile hmodule hu h hb hb').andThen hbc.grows hbc'.grows
        fun σ _ hfolds ↦ ih hfolds hbc.framed hbc'.framed

end

end Binder

theorem Program.Parts.resolvedModule {numbers : Nat → Nat → List Nat} {p p' : Program}
    (h : p.Parts numbers p') (file : Nat) (specifier : String) :
    p'.resolvedModule file specifier = p.resolvedModule file specifier :=
  Program.resolvedModule_of_units h.units (fun _ _ hu ↦ ⟨hu.2.path, hu.2.resolved⟩)
    file specifier

namespace Binding

theorem folds_global {numbers : Nat → Nat → List Nat} :
    Binding.Folds numbers id ⟨#[], #[⟨[], [], none⟩], #[], [], []⟩
      ⟨#[], #[⟨[], [], none⟩], #[], [], []⟩ where
  size := rfl
  symbol _ := Symbol.folds_fresh _ _
  old _ hs := hs
  new _ := rfl
  global _ := .rfl
  scope s := by
    rw [id, Binder.scope_global]
    exact ⟨rfl, rfl, rfl⟩
  fileModules := rfl
  ambientModules := rfl
  notes _ he := absurd he List.not_mem_nil

theorem ordered_global : Binding.Ordered ⟨#[], #[⟨[], [], none⟩], #[], [], []⟩ := by
  refine ⟨fun m e he ↦ ?_, fun s e he ↦ ?_, fun s t ht ↦ ?_⟩
  · rw [symbol_of_le (Nat.zero_le m)] at he
    cases he
  · rw [Binder.scope_global] at he
    cases he
  · rw [Binder.scope_global] at ht
    cases ht

/-- The binding of a program with namespaces in two parts folds to that of the program. -/
theorem exists_folds_ofProgram {numbers : Nat → Nat → List Nat} {p p' : Program}
    (h : p.Parts numbers p') : ∃ ρ, (ofProgram p).Folds numbers ρ (ofProgram p') := by
  let files := p.units.toList.zipIdx
  let files' := p'.units.toList.zipIdx
  have hframed (files : List (SourceUnit × Nat)) :
      Framed .empty ((files.forM fun (u, file) ↦ Binder.declareFile u file)
        (⟨#[], #[⟨[], [], none⟩], #[], [], []⟩ : Binding)).2 :=
    ⟨(Binder.closed_declareFiles files Binder.closed_global).1,
      Binder.ordered_declareFiles files ordered_global, fun _ h ↦ h.elim⟩
  have hfiles := h.units.imp fun x x' hx (b b' : Binding) ↦
    show Binder.Folding numbers id Eq b b' (Binder.declareFile x.1 x.2)
      (Binder.declareFile x'.1 x'.2) by
      rw [hx.1]
      exact Binder.folding_declareFile x.2 hx.2
  have hdeclared := (Binder.folding_forM hfiles folds_global).2
  obtain ⟨ρ, -, hfolds⟩ := Binder.inParts_bindFiles h.resolvedModule h.units hdeclared
    (hframed files) (hframed files')
  exact ⟨ρ, hfolds⟩

/-! ## Scopes of statements -/

theorem exists_mem_of_forall₂ {α β : Type} {R : α → β → Prop} {xs : List α}
    {ys : List β} (h : List.Forall₂ R xs ys) {x : α} (hx : x ∈ xs) : ∃ y ∈ ys, R x y := by
  induction h with
  | nil => cases hx
  | @cons a b _ _ hab _ ih =>
      rcases List.mem_cons.mp hx with rfl | hx
      · exact ⟨b, List.mem_cons_self, hab⟩
      · obtain ⟨y, hy, hxy⟩ := ih hx
        exact ⟨y, List.mem_cons_of_mem _ hy, hxy⟩

theorem mem_visited_iff {p : Program} {file id : Nat} : (file, id) ∈ (ofProgram p).visited ↔
    ∃ u, (u, file) ∈ p.units.toList.zipIdx ∧ id ∈ bodyNumbers u.tree.statements := by
  have hnumbers (u : SourceUnit) :
      bodyNumbers u.tree.statements = u.tree.allStatements.map Statement.id :=
    (List.map_flatMap ..).symm
  rw [mem_visited_ofProgram]
  refine exists_congr fun u ↦ and_congr ?_ ?_
  · rw [List.mem_zipIdx_iff_getElem?, Array.getElem?_toList]
  · rw [hnumbers, List.mem_map]

/-- A statement has the scope that the scope of each of its new statements stands for. -/
theorem lookup_statementScopes_parts {numbers : Nat → Nat → List Nat} {p p' : Program}
    (h : p.Parts numbers p')
    (hids : ∀ u ∈ p.units, (u.tree.allStatements.map Statement.id).Nodup)
    (hnumbers : ∀ file id id' n, n ∈ numbers file id → n ∈ numbers file id' → id' = id)
    {ρ : Nat → Nat} (hfolds : (ofProgram p).Folds numbers ρ (ofProgram p')) {file id n : Nat}
    (hn : n ∈ numbers file id) :
    (ofProgram p).statementScopes.lookup (file, id) =
      ((ofProgram p').statementScopes.lookup (file, n)).map ρ := by
  cases hlookup : (ofProgram p').statementScopes.lookup (file, n) with
  | some scope =>
      obtain ⟨other, hother, hnote⟩ := hfolds.notes _ (mem_of_lookup hlookup)
      obtain rfl := hnumbers file id other n hn hother
      exact lookup_statementScopes (nodup_visited_ofProgram hids) hnote
  | none =>
      cases hwhole : (ofProgram p).statementScopes.lookup (file, id) with
      | none => rfl
      | some scope =>
          obtain ⟨u, hu, hid⟩ :=
            mem_visited_iff.mp (List.mem_map_of_mem (f := Prod.fst) (mem_of_lookup hwhole))
          obtain ⟨⟨u', file'⟩, hu', hfile, hparts⟩ := exists_mem_of_forall₂ h.units hu
          obtain rfl : file = file' := hfile.symm
          have hvisited : (file, n) ∈ (ofProgram p').visited :=
            mem_visited_iff.mpr ⟨u', hu', hparts.statements.mem_bodyNumbers hn hid⟩
          obtain ⟨e, he, heq⟩ := List.mem_map.mp hvisited
          have hne := List.lookup_eq_none_iff.mp hlookup e he
          rw [heq] at hne
          simp at hne

end Binding

end PluginSurface
