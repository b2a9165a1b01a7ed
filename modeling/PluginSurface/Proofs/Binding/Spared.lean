import PluginSurface.Proofs.Binding.InterfaceParts

/-!
# What binding leaves alone

Symbols are numbered after the symbols around them. So what is declared inside a namespace changes
no export of the symbols around the namespace, unless a module that is declared by name, or the
global one, is opened in it. Main statement: `Binder.sparing_bindAll`.
-/

namespace PluginSurface

/-! ## Numbers in order -/

/-- An export is numbered after the symbol that exports it, and what a name in a scope stands for
after the containers of the scope and of those around it. -/
structure Binding.Ordered (b : Binding) : Prop where
  exports : ∀ m, ∀ e ∈ (b.symbol m).exports, m < e.2
  names : ∀ s, ∀ e ∈ (b.scope s).names, ∀ t ∈ s :: (b.scope s).outer,
    ∀ m ∈ (b.scope t).container, m < e.2
  outer : ∀ s, ∀ t ∈ (b.scope s).outer, t < b.scopes.size

/-- Names that stay exports of the symbols before `floor`, and scopes that get no names. -/
structure Frame where
  floor : Nat
  keys : List String
  kept : Nat → Prop

/-- Nothing is to stay. -/
def Frame.empty : Frame := ⟨0, [], fun _ ↦ False⟩

namespace Binding

/-- Numbers are in range and in order, and the scopes of the frame are there. -/
structure Framed (F : Frame) (b : Binding) : Prop where
  closed : b.Closed
  ordered : b.Ordered
  kept : ∀ s, F.kept s → s ≠ globalScope ∧ s < b.scopes.size

/-- What is in the frame is the same in the second binding, and scopes stay where they are. -/
structure Spares (F : Frame) (b c : Binding) : Prop where
  ordered : c.Ordered
  outer : ∀ s < b.scopes.size, (c.scope s).outer = (b.scope s).outer
  container : ∀ s < b.scopes.size, (c.scope s).container = (b.scope s).container
  exports :
    ∀ m < F.floor, ∀ key ∈ F.keys, ∀ id, (b.symbol m).exports.lookup key = some id →
    (c.symbol m).exports.lookup key = some id
  names : ∀ s, F.kept s → (c.scope s).names = (b.scope s).names

variable {F : Frame} {b c d : Binding}

theorem Spares.refl (hb : b.Ordered) : b.Spares F b :=
  ⟨hb, fun _ _ ↦ rfl, fun _ _ ↦ rfl, fun _ _ _ _ _ h ↦ h, fun _ _ ↦ rfl⟩

theorem Spares.trans (hbc : b.Spares F c) (hsize : b.scopes.size ≤ c.scopes.size)
    (hcd : c.Spares F d) : b.Spares F d where
  ordered := hcd.ordered
  outer s hs := (hcd.outer s (hs.trans_le hsize)).trans (hbc.outer s hs)
  container s hs := (hcd.container s (hs.trans_le hsize)).trans (hbc.container s hs)
  exports m hm key hkey id h := hcd.exports m hm key hkey id (hbc.exports m hm key hkey id h)
  names s hs := (hcd.names s hs).trans (hbc.names s hs)

theorem Framed.of_spares (hb : b.Framed F) (hc : c.Closed) (hgrows : b.Grows c)
    (h : b.Spares F c) : c.Framed F :=
  ⟨hc, h.ordered, fun s hs ↦ (hb.kept s hs).imp_right (·.trans_le hgrows.scopes)⟩

/-- A change that touches neither exports nor scopes. -/
theorem spares_of_eq (hb : b.Ordered)
    (hexports : ∀ m, (c.symbol m).exports = (b.symbol m).exports)
    (hscopes : c.scopes = b.scopes) : b.Spares F c := by
  have hscope (s : Nat) : c.scope s = b.scope s := by rw [scope, scope, hscopes]
  refine ⟨⟨fun m e he ↦ ?_, fun s e he t ht m hm ↦ ?_, fun s t ht ↦ ?_⟩, fun s _ ↦
    ?_, fun s _ ↦ ?_,
    fun m _ key _ id h ↦ ?_, fun s _ ↦ ?_⟩
  · exact hb.exports m e (hexports m ▸ he)
  · rw [hscope] at he ht hm
    exact hb.names s e he t ht m hm
  · rw [hscopes]
    exact hb.outer s t (hscope s ▸ ht)
  · rw [hscope]
  · rw [hscope]
  · rwa [hexports]
  · rw [hscope]

theorem spares_withSymbol (hb : b.Ordered) (id : Nat) {f : Symbol → Symbol}
    (hf : ∀ s : Symbol, (f s).exports = s.exports) : b.Spares F (b.withSymbol id f) := by
  refine spares_of_eq hb (fun m ↦ ?_) rfl
  rw [symbol_withSymbol]
  split
  · exact hf _
  · rfl

theorem spares_pushSymbol (hb : b.Ordered) (name : String) (outer : List Nat) :
    b.Spares F { b with symbols := b.symbols.push (.fresh name outer) } := by
  refine spares_of_eq hb (fun m ↦ ?_) rfl
  rw [symbol_push]
  split
  next hm =>
    rw [symbol_of_le hm.ge]
    rfl
  next => rfl

theorem spares_pushScope (hb : b.Ordered) {outer : List Nat}
    (houter : ∀ t ∈ outer, t < b.scopes.size) (container : Option Nat) :
    b.Spares F { b with scopes := b.scopes.push ⟨outer, [], container⟩ } := by
  have hold (s : Nat) (hs : s < b.scopes.size) :
      ({ b with scopes := b.scopes.push ⟨outer, [], container⟩ } : Binding).scope s =
        b.scope s := by
    rw [scope_push, if_neg hs.ne]
  have hsize : b.scopes.size ≤ (b.scopes.push ⟨outer, [], container⟩).size := by simp
  refine ⟨⟨hb.exports, fun s e he t ht m hm ↦ ?_, fun s t ht ↦ ?_⟩,
    fun s hs ↦ by rw [hold s hs],
    fun s hs ↦ by rw [hold s hs], fun _ _ _ _ _ h ↦ h, fun s _ ↦ ?_⟩
  · rw [scope_push] at he
    split at he
    · cases he
    next hs =>
      have hs : s < b.scopes.size := by
        by_contra hlt
        rw [scope_of_le (not_lt.mp hlt)] at he
        cases he
      rw [hold s hs] at ht
      have ht' : t < b.scopes.size := by
        rcases List.mem_cons.mp ht with rfl | ht
        · exact hs
        · exact hb.outer s t ht
      rw [hold t ht'] at hm
      exact hb.names s e he t ht m hm
  · rw [scope_push] at ht
    refine lt_of_lt_of_le ?_ hsize
    split at ht
    · exact houter t ht
    · exact hb.outer s t ht
  · rw [scope_push]
    split
    next hs =>
      rw [scope_of_le hs.ge]
    next => rfl

/-- A name is entered that stands for a later symbol. An export of the frame has not been there
before. -/
theorem spares_enter (hb : b.Ordered) {x : NameSlot} {id : Nat}
    (hcontainer : ∀ m ∈ x.container, m < id)
    (hexports : ∀ m ∈ x.container, m < F.floor → x.name ∈ F.keys → b.found x = none)
    (hnames : x.container = none → ¬F.kept x.scope ∧
      ∀ t ∈ x.scope :: (b.scope x.scope).outer, ∀ m ∈ (b.scope t).container, m < id) :
    b.Spares F (b.enter x id) := by
  have houter (s : Nat) : ((b.enter x id).scope s).outer = (b.scope s).outer := by
    rw [scope_enter]
    split <;> rfl
  have hcontainers (s : Nat) : ((b.enter x id).scope s).container = (b.scope s).container := by
    rw [scope_enter]
    split <;> rfl
  refine ⟨⟨fun m e he ↦ ?_, fun s e he t ht m hm ↦ ?_, fun s t ht ↦ ?_⟩,
    fun s _ ↦ houter s,
    fun s _ ↦ hcontainers s, fun m hm key hkey known h ↦ ?_, fun s hs ↦ ?_⟩
  · rw [symbol_enter] at he
    split at he
    next hin =>
      rcases List.mem_cons.mp he with rfl | he
      · exact hcontainer m hin.1
      · exact hb.exports m e he
    next => exact hb.exports m e he
  · rw [houter] at ht
    rw [hcontainers] at hm
    rw [scope_enter] at he
    split at he
    next hin =>
      obtain ⟨hnone, rfl, -⟩ := hin
      rcases List.mem_cons.mp he with rfl | he
      · exact (hnames hnone).2 t ht m hm
      · exact hb.names _ e he t ht m hm
    next => exact hb.names s e he t ht m hm
  · rw [scopes_enter]
    exact hb.outer s t (houter s ▸ ht)
  · rw [symbol_enter]
    split
    next hin =>
      rw [List.lookup_cons]
      cases hname : key == x.name with
      | false => exact h
      | true =>
          obtain rfl := eq_of_beq hname
          have hnone := hexports m hin.1 hm hkey
          rw [found, hin.1] at hnone
          cases h.symm.trans hnone
    next => exact h
  · have hout : ¬(x.container = none ∧ x.scope = s ∧ s < b.scopes.size) :=
      fun hin ↦ (hnames hin.1).1 (hin.2.1 ▸ hs)
    rw [scope_enter, if_neg hout]

end Binding

/-! ## Places -/

/-- The place is in range, and its container is that of its scope. -/
structure Place.Stands (place : Place) (b : Binding) : Prop extends place.Within b where
  around : ∀ m ∈ place.container, (b.scope place.scope).container = some m

/-- The place is inside the symbol `n`, and its own container comes no earlier. -/
structure Place.Below (place : Place) (n : Nat) (b : Binding) : Prop where
  container : ∀ m ∈ place.container, n ≤ m
  around : ∃ t ∈ place.scope :: (b.scope place.scope).outer, (b.scope t).container = some n

section

variable {F : Frame} {b c : Binding} {place : Place} {n : Nat}

theorem Place.Stands.mono (h : place.Stands b) (hbc : b.Grows c) (hspares : b.Spares F c) :
    place.Stands c :=
  ⟨h.toWithin.mono hbc, fun m hm ↦ (hspares.container _ h.scope).trans (h.around m hm)⟩

theorem Place.stands_global (hb : b.Closed) (file : Nat) (ambient : Bool) :
    Place.Stands ⟨file, Binding.globalScope, none, ambient⟩ b := by
  refine ⟨⟨hb.global, ?_⟩, ?_⟩ <;> rintro m ⟨⟩

/-- What a name is exported from is in range. -/
theorem Place.Within.slot (h : place.Within b) (exported : Bool) (name : String) :
    ∀ m ∈ (place.slot exported name).container, m < b.symbols.size := by
  intro m hm
  refine h.container m ?_
  unfold Place.slot at hm
  split at hm
  · exact hm
  · cases hm

theorem Binding.Ordered.lt_of_mem_chain (hb : b.Ordered) {s t : Nat} (hs : s < b.scopes.size)
    (ht : t ∈ s :: (b.scope s).outer) : t < b.scopes.size := by
  rcases List.mem_cons.mp ht with rfl | ht
  · exact hs
  · exact hb.outer _ t ht

theorem Place.below_iff (hb : b.Ordered) (hplace : place.scope < b.scopes.size)
    (hspares : b.Spares F c) : place.Below n c ↔ place.Below n b := by
  constructor
  · rintro ⟨hcontainer, t, ht, hn⟩
    rw [hspares.outer _ hplace] at ht
    exact ⟨hcontainer, t, ht,
      (hspares.container t (hb.lt_of_mem_chain hplace ht)).symm.trans hn⟩
  · rintro ⟨hcontainer, t, ht, hn⟩
    exact ⟨hcontainer, t, (hspares.outer _ hplace).symm ▸ ht,
      (hspares.container t (hb.lt_of_mem_chain hplace ht)).trans hn⟩

end

namespace Binder

variable {α β : Type} {F : Frame} {b : Binding} {keys : List (Nat × Nat)}

/-- Done in a framed binding, the action spares what is in the frame. -/
def Sparing (F : Frame) (p : Binder α) (b : Binding) (post : α → Binding → Prop) : Prop :=
  b.Framed F → b.Spares F (p b).2 ∧ post (p b).1 (p b).2

theorem sparing_pure {post : α → Binding → Prop} (a : α) (h : b.Framed F → post a b) :
    Sparing F (pure a) b post :=
  fun hb ↦ ⟨.refl hb.ordered, h hb⟩

theorem sparing_get {q : Binding → Binder β} {post : β → Binding → Prop}
    (h : Sparing F (q b) b post) : Sparing F (get >>= q) b post := h

theorem sparing_of_framed {p : Binder α} {post : α → Binding → Prop}
    (h : b.Framed F → Sparing F p b post) : Sparing F p b post :=
  fun hb ↦ h hb hb

theorem Sparing.imp {p : Binder α} {post post' : α → Binding → Prop} (h : Sparing F p b post)
    (hpost : ∀ a c, post a c → post' a c) : Sparing F p b post' :=
  fun hb ↦ (h hb).imp_right (hpost _ _)

theorem Sparing.run {p : Binder α} {done post : α → Binding → Prop}
    (hdoes : Does p b keys done) (hp : Sparing F p b post) (hb : b.Framed F) :
    (p b).2.Framed F ∧ b.Grows (p b).2 ∧ b.Spares F (p b).2 ∧ done (p b).1 (p b).2 ∧
      post (p b).1 (p b).2 := by
  obtain ⟨hsteps, hdone⟩ := hdoes hb.closed
  obtain ⟨hspares, hpost⟩ := hp hb
  exact ⟨hb.of_spares (hsteps.closed hb.closed) hsteps.grows hspares, hsteps.grows, hspares,
    hdone, hpost⟩

theorem Sparing.bind {p : Binder α} {q : α → Binder β} {done mid : α → Binding → Prop}
    {post : β → Binding → Prop} (hdoes : Does p b keys done) (hp : Sparing F p b mid)
    (hq : ∀ a c, c.Framed F → b.Grows c → b.Spares F c → done a c → mid a c →
      Sparing F (q a) c post) : Sparing F (p >>= q) b post := by
  intro hb
  obtain ⟨hc, hgrows, hspares, hdone, hmid⟩ := hp.run hdoes hb
  obtain ⟨hmore, hpost⟩ := hq _ _ hc hgrows hspares hdone hmid hc
  exact ⟨hspares.trans hgrows.scopes hmore, hpost⟩

theorem sparing_forM {xs : List α} {f : α → Binder Unit} (keys : α → List (Nat × Nat))
    {P : Binding → Prop} (hP : ∀ b c, P b → b.Framed F → b.Grows c → b.Spares F c → P c)
    (hdoes : ∀ x ∈ xs, ∀ c, P c → Does (f x) c (keys x) fun _ _ ↦ True)
    (hf : ∀ x ∈ xs, ∀ c, P c → Sparing F (f x) c fun _ _ ↦ True) (hb : P b) :
    Sparing F (xs.forM f) b fun _ _ ↦ True := by
  induction xs generalizing b with
  | nil => exact sparing_pure () fun _ ↦ trivial
  | cons x rest ih =>
      refine sparing_of_framed fun hframed ↦ ?_
      refine .bind (hdoes x List.mem_cons_self b hb) (hf x List.mem_cons_self b hb)
        fun _ c _ hgrows hspares _ _ ↦ ?_
      exact ih (fun y hy ↦ hdoes y (List.mem_cons_of_mem _ hy))
        (fun y hy ↦ hf y (List.mem_cons_of_mem _ hy)) (hP b c hb hframed hgrows hspares)

/-! ## Single actions -/

theorem sparing_newSymbol (name : String) (parent : Option Nat) :
    Sparing F (newSymbol name parent) b fun id _ ↦ id = b.symbols.size := by
  intro hb
  cases parent <;> exact ⟨Binding.spares_pushSymbol hb.ordered name _, rfl⟩

theorem sparing_changeSymbol (id : Nat) {f : Symbol → Symbol}
    (hf : ∀ s : Symbol, (f s).exports = s.exports) :
    Sparing F (changeSymbol id f) b fun _ _ ↦ True :=
  fun hb ↦ ⟨Binding.spares_withSymbol hb.ordered id hf, trivial⟩

theorem sparing_addDeclaration (id : Nat) (d : Declaration) :
    Sparing F (addDeclaration id d) b fun _ _ ↦ True :=
  sparing_changeSymbol id fun _ ↦ rfl

theorem sparing_addExport {container id : Nat} {name : String} (hid : container < id)
    (hname : container < F.floor → name ∉ F.keys) :
    Sparing F (addExport container name id) b fun _ _ ↦ True := by
  intro hb
  have henter : (addExport container name id b).2 = b.enter ⟨0, some container, name⟩ id := rfl
  rw [henter]
  refine ⟨Binding.spares_enter hb.ordered ?_ ?_ nofun, trivial⟩
  · rintro _ ⟨rfl⟩
    exact hid
  · rintro _ ⟨rfl⟩ hm hkey
    exact absurd hkey (hname hm)

/-! ## Declarations -/

/-- The symbol of a name is numbered after the symbols around the place where it is declared. -/
theorem lt_ensured (hb : b.Closed) (ho : b.Ordered) {place : Place} (hplace : place.Stands b)
    (exported : Bool) (name : String) :
    (∀ m ∈ place.container, m < (b.ensured (place.slot exported name)).2) ∧
      ∀ n, place.Below n b → n ≤ (b.ensured (place.slot exported name)).2 := by
  have haround (n : Nat) (h : place.Below n b) : n < b.symbols.size := by
    obtain ⟨t, -, ht⟩ := h.around
    exact (hb.scope t).container n ht
  unfold Binding.ensured
  cases hfound : b.found (place.slot exported name) with
  | none => exact ⟨hplace.container, fun n h ↦ (haround n h).le⟩
  | some id =>
      unfold Binding.found at hfound
      split at hfound
      next m hm =>
        have hlt : m < id := ho.exports m _ (mem_of_lookup hfound)
        have hslot : place.container = some m := by
          unfold Place.slot at hm
          split at hm
          · exact hm
          · cases hm
        rw [hslot]
        refine ⟨?_, fun n h ↦ (h.container m hslot).trans hlt.le⟩
        rintro _ ⟨rfl⟩
        exact hlt
      next =>
        have hlt := ho.names place.scope _ (mem_of_lookup hfound)
        refine ⟨fun m hm ↦ hlt _ List.mem_cons_self m (hplace.around m hm), fun n h ↦ ?_⟩
        obtain ⟨t, ht, hn⟩ := h.around
        exact (hlt t ht n hn).le

theorem sparing_declare {place : Place} (hplace : place.Stands b) {exported : Bool}
    (hslot : ¬F.kept place.scope ∨ exported = true ∧ place.container.isSome = true)
    (name : String) (kind : DeclarationKind) :
    Sparing F (declare place exported name kind) b fun id _ ↦
      (∀ m ∈ place.container, m < id) ∧ ∀ n, place.Below n b → n ≤ id := by
  intro hb
  rw [declare_eq, declare_answer]
  refine ⟨?_, lt_ensured hb.closed hb.ordered hplace exported name⟩
  let x := place.slot exported name
  have hcontainer : ∀ m ∈ x.container, m < b.symbols.size := hplace.toWithin.slot exported name
  have hensured : b.Spares F (b.ensured x).1 := by
    unfold Binding.ensured
    cases hfound : b.found x with
    | some id => exact .refl hb.ordered
    | none =>
        have hpushed : b.Spares F (b.pushed x) := Binding.spares_pushSymbol hb.ordered _ _
        refine hpushed.trans le_rfl (Binding.spares_enter hpushed.ordered hcontainer ?_ ?_)
        · intro m hm _ _
          rw [Binding.pushed, Binding.found_push hcontainer]
          exact hfound
        · intro hnone
          refine ⟨hslot.resolve_right fun h ↦ ?_, fun t _ m hm ↦
            (hb.closed.scope t).container m hm⟩
          rw [show x.container = place.container from if_pos h.1] at hnone
          rw [hnone] at h
          cases h.2
  exact hensured.trans (by unfold Binding.ensured; cases b.found x <;> simp [Binding.pushed])
    (Binding.spares_withSymbol hensured.ordered _ fun _ ↦ rfl)

/-- A new symbol becomes an export. An export of the frame has not been there before. -/
theorem sparing_exportNew {container : Nat} (hcontainer : container < b.symbols.size)
    {name : String}
    (hname : container < F.floor → name ∈ F.keys →
      (b.symbol container).exports.lookup name = none)
    (d : Declaration) :
    Sparing F (do
      let id ← newSymbol name (some container)
      addDeclaration id d
      addExport container name id) b fun _ _ ↦ True := by
  intro hb
  let x : NameSlot := ⟨d.scope, some container, name⟩
  let outer := container :: (b.symbol container).outer
  have hx : ∀ m ∈ x.container, m < b.symbols.size := by
    rintro _ ⟨rfl⟩
    exact hcontainer
  have hpushed : b.Spares F { b with symbols := b.symbols.push (.fresh name outer) } :=
    Binding.spares_pushSymbol hb.ordered name outer
  have hadded := Binding.spares_withSymbol (F := F) hpushed.ordered b.symbols.size
    (f := fun s ↦ { s with declarations := s.declarations ++ [d] }) fun _ ↦ rfl
  refine ⟨hpushed.trans le_rfl (hadded.trans le_rfl
    (Binding.spares_enter (x := x) hadded.ordered hx ?_ nofun)), trivial⟩
  rintro _ ⟨rfl⟩ hm hkey
  exact (Binding.found_addedTo _ x _ d).trans ((Binding.found_push hx _).trans (hname hm hkey))

theorem sparing_exportLink (place : Place) {container : Nat}
    (hcontainer : container < b.symbols.size)
    {name : String} (hname : container < F.floor → name ∈ F.keys →
      (b.symbol container).exports.lookup name = none) (link : Link) :
    Sparing F (exportLink place container name link) b fun _ _ ↦ True :=
  sparing_exportNew hcontainer hname ⟨place.file, place.scope, .link link⟩

theorem sparing_exportDefault {place : Place} (hplace : place.Within b)
    (hname : ∀ m ∈ place.container, m < F.floor → "default" ∉ F.keys) {named : Option Nat}
    (hnamed : ∀ id ∈ named, ∀ m ∈ place.container, m < id) (kind : DeclarationKind) :
    Sparing F (exportDefault place named kind) b fun _ _ ↦ True := by
  unfold exportDefault
  cases hcontainer : place.container with
  | none => exact sparing_pure () fun _ ↦ trivial
  | some m =>
      cases named with
      | some id => exact sparing_addExport (hnamed id rfl m hcontainer) (hname m hcontainer)
      | none =>
          exact sparing_exportNew (hplace.container m hcontainer)
            (fun h hkey ↦ absurd hkey (hname m hcontainer h)) ⟨place.file, place.scope, kind⟩

section

variable {place : Place} (hplace : place.Stands b) {exported : Bool}

include hplace

theorem sparing_declareMain
    (hslot : ¬F.kept place.scope ∨ exported = true ∧ place.container.isSome = true)
    {isDefault : Bool}
    (hname : isDefault = true → ∀ m ∈ place.container, m < F.floor → "default" ∉ F.keys)
    (name : Option Name) (kind : DeclarationKind) :
    Sparing F (declareMain place exported isDefault name kind) b fun _ _ ↦ True := by
  have hdefault {c : Binding} (hc : place.Within c) {id : Option Nat}
      (hid : ∀ i ∈ id, ∀ m ∈ place.container, m < i) :
      Sparing F (if isDefault then exportDefault place id kind else pure ()) c
        fun _ _ ↦ True := by
    split
    next h => exact sparing_exportDefault hc (hname h) hid kind
    next => exact sparing_pure () fun _ ↦ trivial
  unfold declareMain
  cases name with
  | none => exact hdefault hplace.toWithin nofun
  | some n =>
      refine .bind (does_declare hplace.toWithin exported n.text kind)
        (sparing_declare hplace hslot n.text kind) fun id c _ hbc _ _ hid ↦ ?_
      refine hdefault (hplace.toWithin.mono hbc) ?_
      rintro _ ⟨rfl⟩
      exact hid.1

theorem sparing_declareName
    (hslot : ¬F.kept place.scope ∨ exported = true ∧ place.container.isSome = true)
    (name : String) (kind : DeclarationKind) :
    Sparing F (discard (declare place exported name kind)) b fun _ _ ↦ True :=
  .bind (does_declare hplace.toWithin exported name kind) (sparing_declare hplace hslot name kind)
    fun _ _ _ _ _ _ _ ↦ sparing_pure () fun _ ↦ trivial

theorem sparing_declareImport (hslot : ¬F.kept place.scope) (decl : ImportDecl) :
    Sparing F (declareImport place decl) b fun _ _ ↦ True := by
  unfold declareImport
  extract_lets module add rest after
  have hadd (c : Binding) (hc : place.Stands c) (name : String) (link : Link) :
      Sparing F (add name link) c fun _ _ ↦ True :=
    sparing_declareName hc (.inl hslot) name (.link link)
  have hdoes (c : Binding) (hc : place.Stands c) (name : String) (link : Link) :
      Does (add name link) c [] fun _ _ ↦ True :=
    (does_declare hc.toWithin false name (.link link)).discard.imp fun _ _ _ _ ↦ trivial
  have hrest (c : Binding) (hc : place.Stands c) : Sparing F (rest ()) c fun _ _ ↦ True :=
    sparing_forM (fun _ ↦ []) (P := place.Stands) (fun _ _ h _ hgrows hspares ↦
      h.mono hgrows hspares)
      (fun s _ c hc ↦ hdoes c hc s.name _) (fun s _ c hc ↦ hadd c hc s.name _) hc
  have hafter (c : Binding) (hc : place.Stands c) : Sparing F (after ()) c fun _ _ ↦ True := by
    unfold after
    split
    · exact .bind (hdoes c hc _ _) (hadd c hc _ _) fun _ d _ hcd hspares _ _ ↦
        hrest d (hc.mono hcd hspares)
    · exact hrest c hc
  split
  · exact .bind (hdoes b hplace _ _) (hadd b hplace _ _) fun _ c _ hbc hspares _ _ ↦
      hafter c (hplace.mono hbc hspares)
  · exact hafter b hplace

end

end Binder

/-- The names that a declaration makes exports whatever they stood for before. -/
def Decl.reexports (isDefault : Bool) (decl : Decl) : List String :=
  (if isDefault then ["default"] else []) ++
    match decl with
    | .exportDecl ⟨_, .all (some name), some _⟩ => [name]
    | .exportDecl ⟨_, .named specifiers, some _⟩ => specifiers.map (·.exported)
    | .exportAssignment false _ => ["default"]
    | _ => []

namespace Binder

variable {F : Frame} {b : Binding} {place : Place} (hplace : place.Stands b)

include hplace

theorem sparing_declareExport {container : Nat} (hcontainer : container < b.symbols.size)
    {decl : ExportDecl} (hkeys : container < F.floor → ∀ key ∈ F.keys,
      key ∉ (Decl.exportDecl decl).reexports false) :
    Sparing F (declareExport place container decl) b fun _ _ ↦ True := by
  obtain ⟨typeOnly, clause, specifier⟩ := decl
  have hdoes (name : String) (link : Link) (c : Binding)
      (hc : place.Within c ∧ container < c.symbols.size) :
      Does (exportLink place container name link) c [] fun _ _ ↦ True :=
    (does_exportLink hc.1 hc.2 name link).imp fun _ _ _ _ ↦ trivial
  have hstays (c d : Binding) (hc : place.Within c ∧ container < c.symbols.size)
      (_ : c.Framed F) (hcd : c.Grows d) (_ : c.Spares F d) :
      place.Within d ∧ container < d.symbols.size :=
      ⟨hc.1.mono hcd, hc.2.trans_le hcd.symbols⟩
  match clause, specifier with
  | .all none, some specifier => exact sparing_changeSymbol container fun _ ↦ rfl
  | .all (some name), some specifier =>
      exact sparing_exportLink place hcontainer
        (fun h hkey ↦ absurd (by simp [Decl.reexports]) (hkeys h name hkey)) _
  | .all none, none | .all (some _), none => exact sparing_pure () fun _ ↦ trivial
  | .named specifiers, some specifier =>
      refine sparing_forM (fun _ ↦ []) hstays (fun s _ ↦ hdoes s.exported _) (fun s hs c hc ↦
        ?_) ⟨hplace.toWithin, hcontainer⟩
      refine sparing_exportLink place hc.2 (fun h hkey ↦ absurd ?_ (hkeys h _ hkey)) _
      exact List.mem_append_right _ (List.mem_map_of_mem hs)
  | .named specifiers, none =>
      refine sparing_forM (fun _ ↦ []) hstays (fun s _ c hc ↦ does_get ?_) (fun s _ c hc ↦
        sparing_get ?_) ⟨hplace.toWithin, hcontainer⟩
      · split
        · exact hdoes s.exported _ c hc
        · exact does_pure () trivial
      · split
        next hnone =>
          exact sparing_exportLink place hc.2 (fun _ _ ↦ Option.isNone_iff_eq_none.mp hnone) _
        next => exact sparing_pure () fun _ ↦ trivial

/-- What a declaration declares leaves the frame alone if no name of the frame can be replaced, and
nothing is declared in its scopes. -/
theorem sparing_declareOwn (exported isDefault : Bool) (decl : Decl)
    (hslot : ¬F.kept place.scope ∨
      exported = true ∧ place.container.isSome = true ∧ ∀ d, decl ≠ .importDecl d)
    (hkeys : ∀ m ∈ place.container, m < F.floor → ∀ key ∈ F.keys, key ∉
      decl.reexports isDefault) :
    Sparing F (declareOwn place exported isDefault decl) b fun _ _ ↦ True := by
  have hslot' : ¬F.kept place.scope ∨ exported = true ∧ place.container.isSome = true :=
    hslot.imp_right fun h ↦ ⟨h.1, h.2.1⟩
  have hdefault (h : isDefault = true) (m : Nat) (hm : m ∈ place.container) (hlt : m < F.floor) :
      "default" ∉ F.keys := fun hkey ↦ hkeys m hm hlt _ hkey (by simp [Decl.reexports, h])
  cases decl with
  | classDecl c => exact sparing_declareMain hplace hslot' hdefault c.name _
  | interfaceDecl i => exact sparing_declareMain hplace hslot' hdefault (some i.name) _
  | function name signature body => exact sparing_declareMain hplace hslot' hdefault name _
  | aliasDecl a => exact sparing_declareName hplace hslot' a.name.text _
  | enumDecl name members => exact sparing_declareName hplace hslot' name.text _
  | importEquals name target => exact sparing_declareName hplace hslot' name _
  | importDecl decl =>
      exact sparing_declareImport hplace (hslot.resolve_right fun h ↦ h.2.2 decl rfl) decl
  | «variable» keyword declarators =>
      refine sparing_forM (fun _ ↦ []) (P := place.Stands)
        (fun _ _ h _ hgrows hspares ↦ h.mono hgrows hspares) (fun d _ c hc ↦ ?_)
          (fun d _ c hc ↦ ?_)
        hplace
      · split
        next n _ =>
          exact (does_declare hc.toWithin exported n.text _).discard.imp fun _ _ _ _ ↦ trivial
        next => exact does_pure () trivial
      · split
        next n _ => exact sparing_declareName hc hslot' n.text _
        next => exact sparing_pure () fun _ ↦ trivial
  | exportDecl decl =>
      unfold declareOwn
      cases hcontainer : place.container with
      | none => exact sparing_pure () fun _ ↦ trivial
      | some m =>
          refine sparing_declareExport hplace (hplace.container m hcontainer)
            fun hm key hkey hin ↦ ?_
          exact hkeys m hcontainer hm key hkey (List.mem_append_right _ hin)
  | exportAssignment isEquals entity =>
      unfold declareOwn
      cases hcontainer : place.container with
      | none => exact sparing_pure () fun _ ↦ trivial
      | some m =>
          have hm := hplace.container m hcontainer
          match entity, isEquals with
          | none, _ => exact sparing_pure () fun _ ↦ trivial
          | some path, true => exact sparing_changeSymbol m fun _ ↦ rfl
          | some path, false =>
              refine sparing_exportLink place hm (fun h hkey ↦
                absurd ?_ (hkeys m hcontainer h _ hkey)) _
              exact List.mem_append_right _ List.mem_cons_self
  | moduleDecl | block | other => exact sparing_pure () fun _ ↦ trivial

end Binder

/-! ## Inner places -/

/-- The inner place is free of the frame, and inside what the place around it is inside of, if its
own container does not come earlier. -/
structure Place.Encloses (F : Frame) (place : Place) (b : Binding) (inner : Place) (c : Binding) :
    Prop where
  stands : inner.Stands c
  free : ¬F.kept inner.scope
  below : ∀ n, place.Below n b → (∀ m ∈ inner.container, n ≤ m) → inner.Below n c

namespace Binder

variable {F : Frame} {b : Binding} {place : Place}

theorem not_kept_new (hb : b.Framed F) : ¬F.kept b.scopes.size :=
  fun h ↦ (hb.kept _ h).2.false

theorem encloses_pushScope (hb : b.Framed F) (hplace : place.scope < b.scopes.size)
    {container : Option Nat} (hcontainer : ∀ m ∈ container, m < b.symbols.size)
    (ambient : Bool) :
    place.Encloses F b ⟨place.file, b.scopes.size, container, ambient⟩ { b with
      scopes :=
        b.scopes.push ⟨place.scope :: (b.scope place.scope).outer, [], container⟩ } := by
  set c : Binding := { b with
    scopes :=
      b.scopes.push ⟨place.scope :: (b.scope place.scope).outer, [], container⟩ } with hc
  have hnew : c.scope b.scopes.size =
      ⟨place.scope :: (b.scope place.scope).outer, [], container⟩ := by
    rw [hc, Binding.scope_push, if_pos rfl]
  refine ⟨⟨⟨by simp [hc], hcontainer⟩, fun m hm ↦ ?_⟩, not_kept_new hb,
    fun n h hbelow ↦
    ⟨hbelow, ?_⟩⟩
  · rw [hnew]
    exact hm
  · obtain ⟨t, ht, hn⟩ := h.around
    refine ⟨t, List.mem_cons_of_mem _ (by rwa [hnew]), ?_⟩
    rw [hc, Binding.scope_push, if_neg (hb.ordered.lt_of_mem_chain hplace ht).ne]
    exact hn

theorem sparing_inside (hplace : place.Within b) {symbol : Nat} (hsymbol : symbol < b.symbols.size)
    (ambient : Bool) :
    Sparing F (inside place symbol ambient) b fun inner c ↦
      inner.container = some symbol ∧ place.Encloses F b inner c := by
  intro hb
  refine ⟨Binding.spares_pushScope hb.ordered
    (fun t ht ↦ hb.ordered.lt_of_mem_chain hplace.scope ht) _,
    rfl, encloses_pushScope hb hplace.scope ?_ ambient⟩
  rintro _ ⟨rfl⟩
  exact hsymbol

theorem sparing_enterBody (hplace : place.Within b) :
    Sparing F (enterBody place) b fun inner c ↦
      inner.container = none ∧ place.Encloses F b inner c := by
  intro hb
  have hnone : ∀ m ∈ (none : Option Nat), m < b.symbols.size := fun m hm ↦ nomatch hm
  exact ⟨Binding.spares_pushScope hb.ordered
    (fun t ht ↦ hb.ordered.lt_of_mem_chain hplace.scope ht) _,
    rfl, encloses_pushScope hb hplace.scope hnone false⟩

/-- The place inside the last namespace is inside all that the place around them is inside of. -/
theorem sparing_enterNamespaces (hplace : place.Stands b) (exported : Bool) (segments : List String)
    (hslot : ¬F.kept place.scope ∨
      exported = true ∧ place.container.isSome = true ∧ segments ≠ []) :
    Sparing F (enterNamespaces place exported segments) b fun inner c ↦
      inner.Stands c ∧ ¬F.kept inner.scope ∧ ∀ n, place.Below n b → inner.Below n c := by
  induction segments generalizing b place exported with
  | nil =>
      exact sparing_pure place fun _ ↦
        ⟨hplace, hslot.resolve_right fun h ↦ h.2.2 rfl, fun _ h ↦ h⟩
  | cons segment rest ih =>
      refine sparing_of_framed fun hb ↦ ?_
      refine .bind (does_declare hplace.toWithin exported segment .namespaceDecl)
        (sparing_declare hplace (hslot.imp_right fun h ↦ ⟨h.1, h.2.1⟩) segment .namespaceDecl)
        fun id c _ hbc hspares hid hlt ↦ ?_
      refine .bind (does_inside hid.1 place.ambient)
        (sparing_inside (hplace.toWithin.mono hbc) hid.1 place.ambient)
        fun inner d _ hcd _ _ hinner ↦ ?_
      refine (ih hinner.2.stands true (.inl hinner.2.free)).imp fun last e hlast ↦ ?_
      refine ⟨hlast.1, hlast.2.1, fun n h ↦ hlast.2.2 n (hinner.2.below n ?_ fun m hm ↦ ?_)⟩
      · exact (Place.below_iff hb.ordered hplace.scope hspares).mpr h
      · rw [hinner.1] at hm
        obtain rfl := Option.some.inj hm
        exact hlt.2 n h

variable (program : Program)

theorem sparing_namedModule (place : Place) (specifier : String) :
    Sparing F (namedModule program place specifier) b fun _ _ ↦ True := by
  refine sparing_get ?_
  extract_lets augmented
  split
  · exact sparing_pure _ fun _ ↦ trivial
  · have hparent : ∀ m ∈ (none : Option Nat), m < b.symbols.size := fun m hm ↦ nomatch hm
    refine .bind (does_newSymbol specifier hparent) (sparing_newSymbol specifier none)
      fun id c hc _ _ _ _ ↦ ?_
    exact fun _ ↦ ⟨Binding.spares_of_eq hc.ordered (fun _ ↦ rfl) rfl, trivial⟩

/-- The place inside a module or namespace is free of the frame. -/
theorem sparing_enterModule (hplace : place.Stands b) (exported : Bool) (name : ModuleName)
    (hslot : ¬F.kept place.scope ∨
      exported = true ∧ place.container.isSome = true ∧ name ≠ .path []) :
    Sparing F (enterModule program place exported name) b fun inner c ↦
      inner.Stands c ∧ ¬F.kept inner.scope ∧
        ∀ segments, name = .path segments → ∀ n, place.Below n b → inner.Below n c := by
  cases name with
  | global =>
      refine sparing_pure _ fun hb ↦ ⟨Place.stands_global hb.closed place.file true,
        fun h ↦ (hb.kept _ h).1 rfl, fun _ heq ↦ nomatch heq⟩
  | path segments =>
      refine (sparing_enterNamespaces hplace exported segments (hslot.imp_right fun h ↦
        ⟨h.1, h.2.1, fun heq ↦ h.2.2 (congrArg _ heq)⟩)).imp fun inner c h ↦
          ⟨h.1, h.2.1, fun _ _ ↦ h.2.2⟩
  | string specifier =>
      refine .bind (does_namedModule program place specifier)
        (sparing_namedModule program place specifier)
        fun id c _ hbc _ hid _ ↦ ?_
      refine .bind (does_addDeclaration hid.1 (hplace.toWithin.mono hbc).scope)
        (sparing_addDeclaration id _) fun _ d hd hcd _ _ _ ↦ ?_
      refine (sparing_inside ((hplace.toWithin.mono hbc).mono hcd) (hid.1.trans_le hcd.symbols)
        true).imp fun inner e h ↦ ⟨h.2.stands, h.2.free, fun _ heq ↦ nomatch heq⟩

end Binder

/-! ## Statements -/

namespace Statement

def reexports (s : Statement) : List String := s.decl.reexports (s.modifiers.contains .default)

/-- Neither the statement nor one inside it makes one of the names an export whatever
it stood for. -/
def Keeps (keys : List String) (s : Statement) : Prop :=
  ∀ t ∈ s.subtree, ∀ key ∈ keys, key ∉ t.reexports

/-- Whether the statement opens a module that is declared by name, or the global one. -/
def opensModule (s : Statement) : Bool :=
  match s.decl with
  | .moduleDecl (.string _) _ | .moduleDecl .global _ => true
  | _ => false

/-- What stands in modules inside the statement makes none of the names an export whatever it stood
for. -/
def KeepsInModules (keys : List String) (s : Statement) : Prop :=
  ∀ t ∈ s.subtree, t.opensModule = true → t.Keeps keys

/-- Whether all names of the statement are exports, in a place where everything is exported that can
be. -/
def declaresExports (s : Statement) : Bool :=
  !s.modifiers.contains .default &&
    match s.decl with
    | .importDecl _ | .exportDecl _ | .exportAssignment .. | .moduleDecl (.path []) _ => false
    | _ => true

variable {keys : List String} {s t : Statement}

theorem keeps_nil (s : Statement) : s.Keeps [] := fun _ _ _ hkey ↦ absurd hkey List.not_mem_nil

theorem Keeps.child (h : s.Keeps keys) (ht : t ∈ s.children) : t.Keeps keys :=
  fun u hu ↦ h u (mem_subtree_trans hu (mem_subtree_iff.mpr (.inr (.child ht))))

theorem KeepsInModules.child (h : s.KeepsInModules keys) (ht : t ∈ s.children) :
    t.KeepsInModules keys :=
  fun u hu ↦ h u (mem_subtree_trans hu (mem_subtree_iff.mpr (.inr (.child ht))))

end Statement

/-- Bound in the place, the statement leaves the exports of the frame alone: it makes none of the
names an export, or it does so in modules only and the place is inside the symbol at which the
frame ends. -/
def Frame.Allows (F : Frame) (b : Binding) (place : Place) (s : Statement) : Prop :=
  s.Keeps F.keys ∨ s.KeepsInModules F.keys ∧ place.Below F.floor b

namespace Binder

variable {F : Frame} {b : Binding} {program : Program}

/-- Wherever the statements are bound, they leave the frame alone. -/
abbrev SparesEach (F : Frame) (program : Program) (body : List Statement) : Prop :=
  ∀ s ∈ body, ∀ (b : Binding) (place : Place) (all : Bool), place.Stands b →
    (¬F.kept place.scope ∨
      all = true ∧ place.container.isSome = true ∧ s.declaresExports = true) →
    F.Allows b place s →
      Sparing F (bindStatement program place all s) b fun _ _ ↦ True

theorem sparing_bindAll_of {body : List Statement} (hbody : SparesEach F program body)
    {place : Place} (hplace : place.Stands b) {all : Bool}
    (hfree : ¬F.kept place.scope ∨
      all = true ∧ place.container.isSome = true ∧ ∀ s ∈ body, s.declaresExports = true)
    (hallows : ∀ s ∈ body, F.Allows b place s) :
    Sparing F (bindAll program place all body) b fun _ _ ↦ True := by
  rw [bindAll_eq_forM]
  refine sparing_forM (Statement.keys place.file)
    (P := fun c ↦ place.Stands c ∧ ∀ s ∈ body, F.Allows c place s) ?_ (fun s _ c hc ↦ ?_)
    (fun s hs c hc ↦ ?_) ⟨hplace, hallows⟩
  · rintro c d ⟨hc, hallows⟩ hframed hgrows hspares
    refine ⟨hc.mono hgrows hspares, fun s hs ↦ (hallows s hs).imp_right fun h ↦
      ⟨h.1, ?_⟩⟩
    exact (Place.below_iff hframed.ordered hc.scope hspares).mpr h.2
  · exact (does_bindStatement s hc.1.toWithin all).imp fun _ _ _ _ ↦ trivial
  · exact hbody s hs c place all hc.1 (hfree.imp_right fun h ↦
      ⟨h.1, h.2.1, h.2.2 s hs⟩) (hc.2 s hs)

theorem sparing_bindBody_of {body : Option (List Statement)}
    (hbody : SparesEach F program (body.getD [])) {place : Place} (hplace : place.Stands b)
    (hallows : ∀ s ∈ body.getD [], F.Allows b place s) :
    Sparing F (bindBody program place body) b fun _ _ ↦ True := by
  cases body with
  | none => exact sparing_pure () fun _ ↦ trivial
  | some body =>
      refine .bind (does_enterBody place) (sparing_enterBody hplace.toWithin)
        fun inner c _ _ _ _ hinner ↦ ?_
      refine sparing_bindAll_of hbody hinner.2.stands (.inl hinner.2.free) fun s hs ↦ ?_
      refine (hallows s hs).imp_right fun h ↦ ⟨h.1, hinner.2.below _ h.2 fun m hm ↦ ?_⟩
      rw [hinner.1] at hm
      cases hm

theorem sparing_bindMembers_of {members : List ClassMember}
    (hbody : SparesEach F program (members.flatMap ClassMember.body)) {place : Place}
    (hplace : place.Stands b)
    (hallows : ∀ s ∈ members.flatMap ClassMember.body, F.Allows b place s) :
    Sparing F (bindMembers program place members) b fun _ _ ↦ True := by
  induction members generalizing b with
  | nil => exact sparing_pure () fun _ ↦ trivial
  | cons m rest ih =>
      rw [List.flatMap_cons] at hbody hallows
      have hfirst : SparesEach F program (m.kind.body?.getD []) :=
        m.body_eq ▸ fun s hs ↦ hbody s (List.mem_append_left _ hs)
      have hmember : Sparing F (bindMember program place m.kind) b fun _ _ ↦ True := by
        rw [bindMember_eq]
        exact sparing_bindBody_of hfirst hplace
          (m.body_eq ▸ fun s hs ↦ hallows s (List.mem_append_left _ hs))
      have hdoes : Does (bindMember program place m.kind) b _ fun _ _ ↦ True :=
        does_bindMember_of (fun s _ _ _ all hplace ↦ does_bindStatement s hplace all) place
      refine sparing_of_framed fun hb ↦ ?_
      obtain ⟨modifiers, kind, span⟩ := m
      refine .bind hdoes hmember fun _ c _ hbc hspares _ _ ↦ ?_
      refine ih (fun s hs ↦ hbody s (List.mem_append_right _ hs)) (hplace.mono hbc hspares)
        fun s hs ↦ (hallows s (List.mem_append_right _ hs)).imp_right fun h ↦ ⟨h.1, ?_⟩
      exact (Place.below_iff hb.ordered hplace.scope hspares).mpr h.2

theorem sparing_bindInside_of {s : Statement} (hbody : SparesEach F program s.children)
    {place : Place} (hplace : place.Stands b) (ambient exported : Bool)
    (hfree : ¬F.kept place.scope ∨
      exported = true ∧ place.container.isSome = true ∧ s.declaresExports = true)
    (hallows : F.Allows b place s) :
    Sparing F (bindInside program place ambient exported s.decl) b fun _ _ ↦ True := by
  have hchildren : ∀ t ∈ s.children, F.Allows b place t := fun t ht ↦
    hallows.imp (·.child ht) fun h ↦ ⟨h.1.child ht, h.2⟩
  obtain ⟨id, modifiers, decl, span⟩ := s
  cases decl with
  | moduleDecl name body =>
      have hplace' : Place.Stands { place with ambient := ambient } b :=
        ⟨⟨hplace.scope, hplace.container⟩, hplace.around⟩
      have hslot : ¬F.kept place.scope ∨
          exported = true ∧ place.container.isSome = true ∧ name ≠ .path [] := by
        refine hfree.imp_right fun h ↦ ⟨h.1, h.2.1, ?_⟩
        rintro rfl
        simp [Statement.declaresExports] at h
      refine .bind (does_enterModule program hplace'.toWithin exported name)
        (sparing_enterModule program hplace' exported name hslot) fun inner c _ _ _ _ hinner ↦ ?_
      obtain ⟨hstands, hfree', hbelow⟩ := hinner
      cases body with
      | none => exact sparing_pure () fun _ ↦ trivial
      | some body =>
          refine sparing_bindAll_of hbody hstands (.inl hfree') fun t ht ↦ ?_
          have hmodule
              (h : Statement.opensModule ⟨id, modifiers, .moduleDecl name (some body),
                span⟩ = true) :
              F.Allows c inner t := by
            refine .inl (hallows.elim (·.child ht) fun hin ↦ ?_)
            exact (hin.1 _ (Statement.self_mem_subtree _) h).child ht
          cases name with
          | global => exact hmodule rfl
          | string specifier => exact hmodule rfl
          | path segments =>
              refine (hchildren t ht).imp_right fun h ↦ ⟨h.1, hbelow segments rfl _ ?_⟩
              exact ⟨h.2.container, h.2.around⟩
  | classDecl c =>
      obtain ⟨_, _, _, _, members⟩ := c
      exact sparing_bindMembers_of hbody hplace hchildren
  | function name signature body => exact sparing_bindBody_of hbody hplace hchildren
  | block body =>
      have hblock : Sparing F (bindBody program place (some body)) b fun _ _ ↦ True :=
        sparing_bindBody_of hbody hplace hchildren
      exact hblock
  | _ => exact sparing_pure () fun _ ↦ trivial

/-- Binding a statement that the frame allows leaves the frame alone. -/
theorem sparing_bindStatement (s : Statement) {place : Place} (hplace : place.Stands b) {all : Bool}
    (hfree : ¬F.kept place.scope ∨
      all = true ∧ place.container.isSome = true ∧ s.declaresExports = true)
    (hallows : F.Allows b place s) :
    Sparing F (bindStatement program place all s) b fun _ _ ↦ True := by
  induction s using Statement.children_induction generalizing b place all with
  | h s ih =>
      have hbody : SparesEach F program s.children := fun t ht _ _ _ hplace hfree hallows ↦
        ih t ht hplace hfree hallows
      have hkeys :
          ∀ m ∈ place.container, m < F.floor → ∀ key ∈ F.keys, key ∉ s.reexports := by
        intro m hm hlt
        rcases hallows with hkeeps | ⟨-, hbelow⟩
        · exact hkeeps s (Statement.self_mem_subtree s)
        · exact absurd hlt (hbelow.container m hm).not_gt
      have hinside {c : Binding} (hc : place.Stands c) := sparing_bindInside_of hbody hc
      obtain ⟨id, modifiers, decl, span⟩ := s
      let isDefault := modifiers.contains .default
      let exported := !isDefault && (all || modifiers.contains .exported)
      have hexported :
          ¬F.kept place.scope ∨ exported = true ∧ place.container.isSome = true ∧
          Statement.declaresExports ⟨id, modifiers, decl, span⟩ = true := by
        refine hfree.imp_right fun h ↦ ⟨?_, h.2⟩
        have hdefault := (Bool.and_eq_true_iff.mp h.2.2).1
        simp only [exported, isDefault, h.1, Bool.true_or, Bool.and_true]
        exact hdefault
      refine sparing_of_framed fun hb ↦ ?_
      have hnote : Sparing F (modify fun b ↦ { b with
          statementScopes := ((place.file, id), place.scope) :: b.statementScopes } : Binder Unit) b
          fun _ _ ↦ True :=
        fun _ ↦ ⟨Binding.spares_of_eq hb.ordered (fun _ ↦ rfl) rfl, trivial⟩
      refine .bind (does_note hplace.toWithin id) hnote fun _ c hc hbc hspares _ _ ↦ ?_
      have hplace' := hplace.mono hbc hspares
      refine .bind (does_declareOwn hplace'.toWithin exported isDefault decl)
        (sparing_declareOwn hplace' exported isDefault decl
          (hexported.imp_right fun h ↦ ⟨h.1, h.2.1, ?_⟩) hkeys)
        fun _ d _ hcd hspares' _ _ ↦ ?_
      · rintro d rfl
        simp [Statement.declaresExports] at h
      · refine hinside (hplace'.mono hcd hspares') _ exported hexported
          (hallows.imp_right fun h ↦ ⟨h.1, ?_⟩)
        refine (Place.below_iff hc.ordered hplace'.scope hspares').mpr ?_
        exact (Place.below_iff hb.ordered hplace.scope hspares).mpr h.2

theorem sparing_bindAll (body : List Statement) {place : Place} (hplace : place.Stands b)
    {all : Bool} (hfree : ¬F.kept place.scope ∨
      all = true ∧ place.container.isSome = true ∧ ∀ s ∈ body, s.declaresExports = true)
    (hallows : ∀ s ∈ body, F.Allows b place s) :
    Sparing F (bindAll program place all body) b fun _ _ ↦ True :=
  sparing_bindAll_of (fun s _ _ _ _ hplace hfree hallows ↦ sparing_bindStatement s hplace hfree
    hallows) hplace hfree hallows

end Binder

end PluginSurface
