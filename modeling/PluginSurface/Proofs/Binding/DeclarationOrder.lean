import Mathlib.Logic.Equiv.Basic
import PluginSurface.Proofs.Binding.Renumbering

/-!
# Declaring names in another order

Two names that are declared one after the other can be declared the other way round: if both are
new, their symbols trade numbers, and nothing else changes. Main statement:
`Binding.exists_declared_swap`.
-/

namespace PluginSurface

/-- Where a name is declared: among the exports of a symbol, or in a scope if there is none. -/
structure NameSlot where
  scope : Nat
  container : Option Nat
  name : String

/-- The name can be declared there: if it is exported, from a symbol that there is, and not as the
default export. -/
structure NameSlot.Fits (x : NameSlot) (b : Binding) : Prop where
  container : ∀ m ∈ x.container, m < b.symbols.size
  name : x.container.isSome → x.name ≠ "default"

namespace Binding

def found (b : Binding) (x : NameSlot) : Option Nat :=
  match x.container with
  | some m => (b.symbol m).exports.lookup x.name
  | none => (b.scope x.scope).names.lookup x.name

/-- The binding in which the name stands for a symbol. -/
def enter (b : Binding) (x : NameSlot) (id : Nat) : Binding :=
  match x.container with
  | some m => b.withSymbol m fun s ↦ { s with exports := (x.name, id) :: s.exports }
  | none => b.withScope x.scope fun s ↦ { s with names := (x.name, id) :: s.names }

/-- The symbols around what is declared in a scope, from the inside out. -/
def enclosing (b : Binding) (scope : Nat) : List Nat :=
  match (b.scope scope).container with
  | some m => m :: (b.symbol m).outer
  | none => []

def pushed (b : Binding) (x : NameSlot) : Binding :=
  { b with symbols := b.symbols.push (.fresh x.name (b.enclosing x.scope)) }

/-- The binding in which the name has a symbol, a new one if it had none, and this symbol. -/
def ensured (b : Binding) (x : NameSlot) : Binding × Nat :=
  match b.found x with
  | some id => (b, id)
  | none => ((b.pushed x).enter x b.symbols.size, b.symbols.size)

def addedTo (b : Binding) (id : Nat) (d : Declaration) : Binding :=
  b.withSymbol id fun s ↦ { s with declarations := s.declarations ++ [d] }

/-- The binding with one more declaration of the name. -/
def declared (b : Binding) (x : NameSlot) (d : Declaration) : Binding :=
  (b.ensured x).1.addedTo (b.ensured x).2 d

variable {b : Binding} {x y : NameSlot}

/-! ## Changes in two symbols -/

theorem withSymbol_comm (b : Binding) {i j : Nat} {f g : Symbol → Symbol}
    (h : i = j → ∀ s, f (g s) = g (f s)) :
    (b.withSymbol i f).withSymbol j g = (b.withSymbol j g).withSymbol i f := by
  have hsymbols : (b.symbols.modify i f).modify j g = (b.symbols.modify j g).modify i f := by
    refine Array.ext (by simp) fun n _ _ ↦ ?_
    simp only [Array.getElem_modify]
    by_cases hi : i = n
    · by_cases hj : j = n
      · simp [hi, hj, h (hi.trans hj.symm)]
      · simp [hi, hj]
    · simp [hi]
  exact congrArg (fun symbols ↦ { b with symbols := symbols }) hsymbols

theorem push_withSymbol (b : Binding) {i : Nat} (hi : i < b.symbols.size) (f : Symbol → Symbol)
    (s : Symbol) :
    { b.withSymbol i f with symbols := (b.withSymbol i f).symbols.push s } =
      ({ b with symbols := b.symbols.push s } : Binding).withSymbol i f := by
  have hsymbols : (b.symbols.modify i f).push s = (b.symbols.push s).modify i f := by
    refine Array.ext (by simp) fun n _ _ ↦ ?_
    simp only [Array.getElem_modify, Array.getElem_push, Array.size_modify]
    by_cases hn : n < b.symbols.size
    · simp [hn]
    · simp [hn, show i ≠ n by omega]
  exact congrArg (fun symbols ↦ { b with symbols := symbols }) hsymbols

theorem enter_addedTo (b : Binding) (x : NameSlot) (m id : Nat) (d : Declaration) :
    (b.addedTo id d).enter x m = (b.enter x m).addedTo id d := by
  unfold enter
  cases x.container with
  | some c => exact withSymbol_comm b fun _ _ ↦ rfl
  | none => rfl

theorem found_addedTo (b : Binding) (x : NameSlot) (id : Nat) (d : Declaration) :
    (b.addedTo id d).found x = b.found x := by
  unfold found
  cases x.container with
  | none => rfl
  | some m =>
      dsimp only
      rw [addedTo, symbol_withSymbol]
      split <;> rfl

theorem enclosing_withSymbol (b : Binding) (scope id : Nat) {f : Symbol → Symbol}
    (hf : ∀ s : Symbol, (f s).outer = s.outer) :
    (b.withSymbol id f).enclosing scope = b.enclosing scope := by
  unfold enclosing
  change (match (b.scope scope).container with | some m => _ | none => _) = _
  cases (b.scope scope).container with
  | none => rfl
  | some m =>
      dsimp only
      rw [symbol_withSymbol]
      split
      · rw [hf]
      · rfl

theorem pushed_addedTo {id : Nat} (hid : id < b.symbols.size) (x : NameSlot) (d : Declaration) :
    (b.addedTo id d).pushed x = (b.pushed x).addedTo id d := by
  have henclosing : (b.addedTo id d).enclosing x.scope = b.enclosing x.scope :=
    enclosing_withSymbol b x.scope id fun _ ↦ rfl
  unfold pushed
  rw [henclosing]
  exact push_withSymbol b hid _ _

/-- A symbol for a name is found or made alike after a declaration. -/
theorem ensured_addedTo {id : Nat} (hid : id < b.symbols.size) (x : NameSlot) (d : Declaration) :
    (b.addedTo id d).ensured x = ((b.ensured x).1.addedTo id d, (b.ensured x).2) := by
  have hsize : (b.addedTo id d).symbols.size = b.symbols.size := Array.size_modify
  unfold ensured
  rw [found_addedTo]
  cases b.found x with
  | some known => rfl
  | none =>
      dsimp only
      rw [pushed_addedTo hid, hsize, enter_addedTo]

/-! ## Two names -/

theorem found_push (hx : ∀ m ∈ x.container, m < b.symbols.size) (s : Symbol) :
    ({ b with symbols := b.symbols.push s } : Binding).found x = b.found x := by
  unfold found
  cases hcontainer : x.container with
  | none => rfl
  | some m =>
      dsimp only
      rw [symbol_push, if_neg (hx m hcontainer).ne]

theorem symbol_enter (b : Binding) (x : NameSlot) (id j : Nat) :
    (b.enter x id).symbol j =
      if x.container = some j ∧ j < b.symbols.size then
        { b.symbol j with exports := (x.name, id) :: (b.symbol j).exports }
      else b.symbol j := by
  unfold enter
  cases x.container with
  | none => rw [if_neg fun h ↦ nomatch h.1]; rfl
  | some m =>
      rw [symbol_withSymbol]
      simp only [Option.some_inj]

theorem scope_enter (b : Binding) (x : NameSlot) (id j : Nat) :
    (b.enter x id).scope j =
      if x.container = none ∧ x.scope = j ∧ j < b.scopes.size then
        { b.scope j with names := (x.name, id) :: (b.scope j).names }
      else b.scope j := by
  unfold enter
  cases x.container with
  | none => rw [scope_withScope]; simp
  | some m => rw [if_neg fun h ↦ nomatch h.1]; rfl

@[simp] theorem size_enter (b : Binding) (x : NameSlot) (id : Nat) :
    (b.enter x id).symbols.size = b.symbols.size := by
  unfold enter
  cases x.container with
  | none => rfl
  | some m => exact Array.size_modify

@[simp] theorem scopes_enter (b : Binding) (x : NameSlot) (id : Nat) :
    (b.enter x id).scopes.size = b.scopes.size := by
  unfold enter
  cases x.container with
  | none => exact Array.size_modify
  | some m => rfl

theorem found_enter (hne : x.name ≠ y.name) (b : Binding) (id : Nat) :
    (b.enter x id).found y = b.found y := by
  have hlookup (names : List (String × Nat)) : List.lookup y.name ((x.name, id) :: names) =
      names.lookup y.name := by
    rw [List.lookup_cons, beq_false_of_ne hne.symm]
  unfold found
  cases y.container with
  | none =>
      dsimp only
      rw [scope_enter]
      split
      · exact hlookup _
      · rfl
  | some m =>
      dsimp only
      rw [symbol_enter]
      split
      · exact hlookup _
      · rfl

theorem enclosing_enter (b : Binding) (x : NameSlot) (id scope : Nat) :
    (b.enter x id).enclosing scope = b.enclosing scope := by
  have hcontainer : ((b.enter x id).scope scope).container = (b.scope scope).container := by
    rw [scope_enter]
    split <;> rfl
  unfold enclosing
  rw [hcontainer]
  cases (b.scope scope).container with
  | none => rfl
  | some m =>
      dsimp only
      rw [symbol_enter]
      split <;> rfl

theorem pushed_enter (hx : ∀ m ∈ x.container, m < b.symbols.size) (id : Nat) (y : NameSlot) :
    (b.enter x id).pushed y = (b.pushed y).enter x id := by
  unfold pushed
  rw [enclosing_enter]
  unfold enter
  cases hcontainer : x.container with
  | none => rfl
  | some m => exact push_withSymbol b (hx m hcontainer) _ _

/-! ## Two names in either order -/

section

variable {σ : Equiv.Perm Nat} {file home : Nat}

/-- Names are entered in either order. -/
theorem renumbered_enter_comm (hkeeps : b.Keeps file home) (hne : x.name ≠ y.name)
    (id id' : Nat) : Renumbered file home (Equiv.refl Nat) ((b.enter x id).enter y id')
      ((b.enter y id').enter x id) := by
  have hrefl : Renumbered file home (Equiv.refl Nat) b b := renumbered_refl hkeeps
  have hrest (b : Binding) (x : NameSlot) (id : Nat) :
      (b.enter x id).fileModules = b.fileModules ∧
      (b.enter x id).ambientModules = b.ambientModules ∧
      (b.enter x id).statementScopes = b.statementScopes := by
    unfold enter
    cases x.container <;> exact ⟨rfl, rfl, rfl⟩
  refine ⟨by simp, fun _ _ ↦ rfl, fun j ↦ ?_, by simp, fun j ↦ ?_, ?_, ?_, ?_, ?_, ?_⟩
  · simp only [symbol_enter, size_enter, Equiv.refl_apply]
    by_cases hx : x.container = some j ∧ j < b.symbols.size
    · by_cases hy : y.container = some j ∧ j < b.symbols.size
      · simp only [if_pos hx, if_pos hy]
        exact { hrefl.symbol j with exports := (hrefl.symbol j).exports.swap hne.symm id' id }
      · simp only [if_pos hx, if_neg hy]
        exact Symbol.renumbered_refl _
    · simp only [if_neg hx]
      exact Symbol.renumbered_refl _
  · simp only [scope_enter, scopes_enter]
    by_cases hx : x.container = none ∧ x.scope = j ∧ j < b.scopes.size
    · by_cases hy : y.container = none ∧ y.scope = j ∧ j < b.scopes.size
      · simp only [if_pos hx, if_pos hy]
        exact { hrefl.scope j with names := (hrefl.scope j).names.swap hne.symm id' id }
      · simp only [if_pos hx, if_neg hy]
        exact Scope.renumbered_refl _
    · simp only [if_neg hx]
      exact Scope.renumbered_refl _
  · simpa only [(hrest _ _ _).1] using hrefl.fileModules
  · simpa only [(hrest _ _ _).2.1] using hrefl.ambientModules
  · simpa only [(hrest _ _ _).2.2] using hrefl.statementScopes
  · simpa only [Keeps, (hrest _ _ _).2.2] using hkeeps
  · simpa only [Keeps, (hrest _ _ _).2.2] using hkeeps

theorem Renumbered.enter {b' : Binding} (h : Renumbered file home σ b b') (x : NameSlot)
    (hx : ∀ m ∈ x.container, σ m = m) (id : Nat) :
    Renumbered file home σ (b.enter x id) (b'.enter x (σ id)) := by
  unfold Binding.enter
  cases hcontainer : x.container with
  | none => exact h.addName x.scope x.name id
  | some m =>
      have hm : b'.withSymbol m = b'.withSymbol (σ m) := by rw [hx m hcontainer]
      dsimp only
      rw [hm]
      exact h.withSymbol m fun _ _ hs ↦ { hs with exports := hs.exports.cons x.name id }

/-! ## Numbers that stay -/

theorem namesRenumbered_of_fixed {ns : List (String × Nat)} (h : ∀ e ∈ ns, σ e.2 = e.2) :
    NamesRenumbered σ ns ns := by
  intro name
  cases hfound : ns.lookup name with
  | none => rfl
  | some id => rw [Option.map_some, h _ (mem_of_lookup hfound)]

theorem renumbered_of_within {s : Symbol} {symbols scopes : Nat} (h : s.Within symbols scopes)
    (hσ : ∀ id < symbols, σ id = id) : s.Renumbered σ s where
  name := rfl
  outer := ((List.map_congr_left fun id hid ↦ hσ id (h.outer id hid)).trans (List.map_id _)).symm
  declarations := rfl
  exports := namesRenumbered_of_fixed fun e he ↦ hσ _ (h.exports e he)
  starExports := rfl
  exportEquals := rfl

theorem scope_renumbered_of_within {s : Scope} {symbols : Nat} (h : s.Within symbols)
    (hσ : ∀ id < symbols, σ id = id) : s.Renumbered σ s where
  outer := rfl
  names := namesRenumbered_of_fixed fun e he ↦ hσ _ (h.names e he)
  container := by
    cases hcontainer : s.container with
    | none => rfl
    | some m => rw [Option.map_some, hσ m (h.container m hcontainer)]

theorem lt_of_mem_enclosing (hb : b.Closed) {scope id : Nat} (h : id ∈ b.enclosing scope) :
    id < b.symbols.size := by
  unfold enclosing at h
  split at h
  next m hm =>
    rcases List.mem_cons.mp h with rfl | h
    · exact (hb.scope scope).container id hm
    · exact (hb.symbol m).outer id h
  next => cases h

theorem enclosing_pushed (hb : b.Closed) (x : NameSlot) (scope : Nat) :
    (b.pushed x).enclosing scope = b.enclosing scope := by
  unfold enclosing
  change (match (b.scope scope).container with | some m => _ | none => _) = _
  cases hcontainer : (b.scope scope).container with
  | none => rfl
  | some m =>
      dsimp only
      rw [pushed, symbol_push, if_neg ((hb.scope scope).container m hcontainer).ne]

/-- Two new symbols trade numbers when they are made the other way round. -/
theorem renumbered_pushed_swap (hb : b.Closed) (hkeeps : b.Keeps file home) (x y : NameSlot) :
    Renumbered file home (Equiv.swap b.symbols.size (b.symbols.size + 1))
      ((b.pushed x).pushed y) ((b.pushed y).pushed x) := by
  set n := b.symbols.size with hn
  have hfixed : ∀ id < n, Equiv.swap n (n + 1) id = id := fun id hid ↦
    Equiv.swap_apply_of_ne_of_ne (by omega) (by omega)
  have hsymbol (x y : NameSlot) (j : Nat) : ((b.pushed x).pushed y).symbol j =
      if j = n + 1 then .fresh y.name (b.enclosing y.scope)
      else if j = n then .fresh x.name (b.enclosing x.scope) else b.symbol j := by
    rw [pushed, symbol_push, enclosing_pushed hb, pushed, symbol_push]
    simp [hn]
  have hfresh (x : NameSlot) : (Symbol.fresh x.name (b.enclosing x.scope)).Renumbered
      (Equiv.swap n (n + 1)) (.fresh x.name (b.enclosing x.scope)) :=
    renumbered_of_within (Symbol.within_fresh _ (fun _ ↦ lt_of_mem_enclosing hb) 0) hfixed
  refine ⟨by simp [pushed], fun id hid ↦ ?_, fun j ↦ ?_, rfl, fun j ↦ ?_, fun f ↦ ?_, ?_,
    fun _ _ ↦ rfl, hkeeps, hkeeps⟩
  · have hsize : ((b.pushed x).pushed y).symbols.size = n + 2 := by simp [pushed, hn]
    rw [hsize] at hid
    exact Equiv.swap_apply_of_ne_of_ne (by omega) (by omega)
  · rw [hsymbol, hsymbol]
    by_cases hfirst : j = n
    · subst hfirst
      simpa using hfresh x
    by_cases hsecond : j = n + 1
    · subst hsecond
      simpa using hfresh y
    · rw [Equiv.swap_apply_of_ne_of_ne hfirst hsecond]
      simp only [if_neg hfirst, if_neg hsecond]
      exact renumbered_of_within (hb.symbol j) hfixed
  · exact scope_renumbered_of_within (hb.scope j) hfixed
  · change b.fileModules.getD f none = (b.fileModules.getD f none).map _
    cases hmodule : b.fileModules.getD f none with
    | none => rfl
    | some m => rw [Option.map_some, hfixed m (hb.fileModules f m hmodule).lt]
  · exact namesRenumbered_of_fixed fun e he ↦ hfixed _ (hb.ambientModules e he)

/-! ## Two declarations -/

theorem name_of_found (hn : b.Named) (hx : x.Fits b) {id : Nat} (h : b.found x = some id) :
    (b.symbol id).name = x.name := by
  have hname := hx.name
  unfold found at h
  cases hcontainer : x.container with
  | none =>
      rw [hcontainer] at h
      exact hn.names x.scope _ (mem_of_lookup h)
  | some m =>
      rw [hcontainer] at h hname
      exact (hn.exports m _ (mem_of_lookup h)).resolve_left (hname rfl)

theorem lt_of_found (hb : b.Closed) {id : Nat} (h : b.found x = some id) : id < b.symbols.size := by
  unfold found at h
  split at h
  next m _ => exact (hb.symbol m).exports _ (mem_of_lookup h)
  next => exact (hb.scope x.scope).names _ (mem_of_lookup h)

/-- What is found for one name is found when another name has got a new symbol. -/
theorem found_entered (hne : x.name ≠ y.name) (hy : y.Fits b) :
    ((b.pushed x).enter x b.symbols.size).found y = b.found y := by
  rw [found_enter hne, pushed, found_push hy.container]

/-- The symbols of two names are the same in either order, or trade numbers. -/
theorem exists_ensured_swap (hb : b.Closed) (hn : b.Named) (hkeeps : b.Keeps file home)
    (hx : x.Fits b) (hy : y.Fits b) (hne : x.name ≠ y.name) :
    ∃ τ : Equiv.Perm Nat, (∀ id < b.symbols.size, τ id = id) ∧
      Renumbered file home τ ((b.ensured x).1.ensured y).1 ((b.ensured y).1.ensured x).1 ∧
      ((b.ensured y).1.ensured x).2 = τ (b.ensured x).2 ∧
      (b.ensured y).2 = τ ((b.ensured x).1.ensured y).2 ∧
      (b.ensured x).2 ≠ ((b.ensured x).1.ensured y).2 := by
  have hfoundx := found_entered hne.symm hx
  have hfoundy := found_entered hne hy
  have hkept (id : Nat) (z : NameSlot) : ((b.pushed z).enter z id).Keeps file home := by
    unfold enter
    cases z.container <;> exact hkeeps
  cases hknownx : b.found x with
  | some i =>
      have hi := lt_of_found hb hknownx
      cases hknowny : b.found y with
      | some j =>
          refine ⟨Equiv.refl Nat, fun _ _ ↦ rfl, ?_⟩
          simp only [ensured, hknownx, hknowny]
          refine ⟨renumbered_refl hkeeps, rfl, rfl, fun heq ↦ hne ?_⟩
          rw [← name_of_found hn hx hknownx, ← name_of_found hn hy hknowny, heq]
      | none =>
          refine ⟨Equiv.refl Nat, fun _ _ ↦ rfl, ?_⟩
          simp only [ensured, hknownx, hknowny, hfoundx]
          exact ⟨renumbered_refl (hkept _ y), rfl, rfl, hi.ne⟩
  | none =>
      cases hknowny : b.found y with
      | some j =>
          refine ⟨Equiv.refl Nat, fun _ _ ↦ rfl, ?_⟩
          simp only [ensured, hknownx, hknowny, hfoundy]
          exact ⟨renumbered_refl (hkept _ x), rfl, rfl, (lt_of_found hb hknowny).ne'⟩
      | none =>
          have hfixed : ∀ id < b.symbols.size,
              Equiv.swap b.symbols.size (b.symbols.size + 1) id = id := fun id hid ↦
            Equiv.swap_apply_of_ne_of_ne (by omega) (by omega)
          have hsize (z : NameSlot) : (b.pushed z).symbols.size = b.symbols.size + 1 := by
            simp [pushed]
          have hinto {z : NameSlot} (hz : z.Fits b) (w : NameSlot) :
              ∀ m ∈ z.container, m < (b.pushed w).symbols.size := fun m hm ↦
            (hz.container m hm).trans_le (by rw [hsize]; omega)
          refine ⟨_, hfixed, ?_⟩
          simp only [ensured, hknownx, hknowny, hfoundx, hfoundy, size_enter, hsize,
            pushed_enter (hinto hx x), pushed_enter (hinto hy y)]
          have hbase := renumbered_pushed_swap hb hkeeps x y
          have hfirst := hbase.enter x (fun m hm ↦ hfixed m (hx.container m hm)) b.symbols.size
          have hboth := hfirst.enter y (fun m hm ↦ hfixed m (hy.container m hm))
            (b.symbols.size + 1)
          have hswapped := hboth.trans (renumbered_enter_comm hbase.keeps' hne _ _)
          rw [Equiv.swap_apply_left, Equiv.swap_apply_right] at hswapped
          exact ⟨hswapped, (Equiv.swap_apply_left _ _).symm, (Equiv.swap_apply_right _ _).symm,
            by omega⟩

theorem lt_of_ensured (hb : b.Closed) (x : NameSlot) :
    (b.ensured x).2 < (b.ensured x).1.symbols.size := by
  unfold ensured
  cases hknown : b.found x with
  | some id => exact lt_of_found hb hknown
  | none => simp [pushed]

theorem Renumbered.addedTo {b' : Binding} (h : Renumbered file home σ b b') (id : Nat)
    (d : Declaration) : Renumbered file home σ (b.addedTo id d) (b'.addedTo (σ id) d) :=
  h.withSymbol id fun _ _ hs ↦ { hs with declarations := by simp [hs.declarations] }

/-- Two names are declared in either order, up to the numbers of new symbols. -/
theorem exists_declared_swap (hb : b.Closed) (hn : b.Named) (hkeeps : b.Keeps file home)
    (hx : x.Fits b) (hy : y.Fits b) (hne : x.name ≠ y.name) (d e : Declaration) :
    ∃ τ : Equiv.Perm Nat, (∀ id < b.symbols.size, τ id = id) ∧
      Renumbered file home τ ((b.declared x d).declared y e) ((b.declared y e).declared x d) := by
  obtain ⟨τ, hfixed, hboth, hx', hy', hdifferent⟩ := exists_ensured_swap hb hn hkeeps hx hy hne
  refine ⟨τ, hfixed, ?_⟩
  have hcomm (c : Binding) (i j : Nat) (hij : i ≠ j) :
      (c.addedTo i d).addedTo j e = (c.addedTo j e).addedTo i d :=
    withSymbol_comm c fun heq ↦ absurd heq hij
  simp only [declared, ensured_addedTo (lt_of_ensured hb _)]
  rw [hx', hy', ← hcomm _ _ _ (τ.injective.ne hdifferent)]
  exact (hboth.addedTo _ d).addedTo _ e

end

end Binding

/-- The place of a name that is declared among statements. -/
def Place.slot (place : Place) (exported : Bool) (name : String) : NameSlot :=
  ⟨place.scope, if exported then place.container else none, name⟩

namespace Binder

theorem newSymbol_enclosing (name : String) (scope : Nat) (b : Binding) :
    newSymbol name (b.scope scope).container b = (b.symbols.size,
      { b with symbols := b.symbols.push (.fresh name (b.enclosing scope)) }) := by
  unfold Binding.enclosing
  cases (b.scope scope).container <;> rfl

theorem get_bind {α : Type} (q : Binding → Binder α) (b : Binding) :
    (get >>= q) b = q b b := rfl

theorem declare_eq (place : Place) (exported : Bool) (name : String) (kind : DeclarationKind)
    (b : Binding) :
    (declare place exported name kind b).2 =
      b.declared (place.slot exported name) ⟨place.file, place.scope, kind⟩ := by
  have hnew (add : Nat → Binder Unit) (x : NameSlot)
      (hx : x.scope = place.scope ∧ x.name = name)
      (hadd : ∀ id c, (add id c).2 = c.enter x id) :
      ((do
        let id ← newSymbol name (b.scope place.scope).container
        addDeclaration id ⟨place.file, place.scope, kind⟩
        add id
        return id : Binder Nat) b).2 =
      ((b.pushed x).enter x b.symbols.size).addedTo b.symbols.size
        ⟨place.file, place.scope, kind⟩ := by
    obtain ⟨hscope, rfl⟩ := hx
    rw [← Binding.enter_addedTo, ← hadd, Binding.pushed, hscope]
    have hsymbol := newSymbol_enclosing x.name place.scope b
    change (add (newSymbol x.name _ b).1 (addDeclaration (newSymbol x.name _ b).1
      ⟨place.file, place.scope, kind⟩ (newSymbol x.name _ b).2).2).2 = _
    rw [hsymbol]
    rfl
  unfold declare Binding.declared Binding.ensured Place.slot Binding.found
  rw [get_bind]
  cases (if exported then place.container else none) with
  | some m =>
      dsimp only
      cases hknown : (b.symbol m).exports.lookup name with
      | some id => rfl
      | none => exact hnew (addExport m name) ⟨place.scope,
          some m, name⟩ ⟨rfl, rfl⟩ fun _ _ ↦ rfl
  | none =>
      dsimp only
      cases hknown : (b.scope place.scope).names.lookup name with
      | some id => rfl
      | none => exact hnew _ ⟨place.scope, none, name⟩ ⟨rfl, rfl⟩ fun _ _ ↦ rfl

end Binder

end PluginSurface
