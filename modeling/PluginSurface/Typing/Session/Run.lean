import PluginSurface.Recursion

/-!
# Runs with shared lists

Here one process follows links and resolves types, without a bound on how deep its questions lead.
It keeps four lists of what it is busy with, which all questions share: whoever opens something puts
it on its list and takes the top of the list off again at the end. A run that does not end has no
result. `Typing.rulesWithin` answers the same questions with lists of their own and a bound.
-/

namespace PluginSurface

/-- What is open: links that are being followed, symbols that are being asked for an export, aliases
and variables that are being resolved, and classes and interfaces whose members are collected. -/
structure Opened where
  links : List Nat
  askedFor : List Nat
  types : List Nat
  heritage : List Nat

def Opened.nothing : Opened := ⟨[], [], [], []⟩

/-- A run that reads and changes what is open, and may not end. -/
abbrev Session := StateT Opened Option

namespace Session

def openLink (id : Nat) : Session Unit := modify fun s ↦ { s with links := id :: s.links }

def closeLink : Session Unit := modify fun s ↦ { s with links := s.links.tail }

def openModule (id : Nat) : Session Unit := modify fun s ↦ { s with askedFor := id :: s.askedFor }

def closeModule : Session Unit := modify fun s ↦ { s with askedFor := s.askedFor.tail }

def openType (id : Nat) : Session Unit := modify fun s ↦ { s with types := id :: s.types }

def closeType : Session Unit := modify fun s ↦ { s with types := s.types.tail }

def openHeritage (id : Nat) : Session Unit :=
  modify fun s ↦ { s with heritage := id :: s.heritage }

def closeHeritage : Session Unit := modify fun s ↦ { s with heritage := s.heritage.tail }

/-! ## Where runs end -/

variable {α β : Type}

/-- Wherever the first run ends, the second one ends in the same way. -/
def Below (m m' : Session α) : Prop := ∀ s, PluginSurface.Below (m s) (m' s)

theorem below_refl (m : Session α) : Below m m := fun s ↦ .refl (m s)

theorem below_bind {m m' : Session α} {f f' : α → Session β} (hm : Below m m')
    (hf : ∀ a, Below (f a) (f' a)) : Below (m >>= f) (m' >>= f') :=
  fun s ↦ (hm s).bind fun p ↦ hf p.1 p.2

/-- The second run goes on as the first one does. -/
theorem below_map {m m' : Session α} (hm : Below m m') (f : α → Session β) :
    Below (m >>= f) (m' >>= f) := below_bind hm fun a ↦ below_refl (f a)

/-- What is opened before a run and closed behind it. -/
theorem below_opened {m m' : Session α} (hm : Below m m') (opens closes : Session Unit)
    (f : α → Session β) :
    Below (do opens; let a ← m; closes; f a) (do opens; let a ← m'; closes; f a) :=
  below_bind (below_refl opens) fun _ ↦ below_map hm _

theorem below_mapM {f f' : α → Session β} (h : ∀ x, Below (f x) (f' x)) (xs : List α) :
    Below (xs.mapM f) (xs.mapM f') := by
  induction xs with
  | nil => exact below_refl _
  | cons x rest ih =>
      rw [List.mapM_cons, List.mapM_cons]
      exact below_bind (h x) fun b ↦ below_map ih _

theorem below_option_mapM {f f' : α → Session β} (h : ∀ x, Below (f x) (f' x))
    (o : Option α) : Below (o.mapM f) (o.mapM f') := by
  cases o with
  | none => exact below_refl _
  | some x =>
      rw [Option.mapM_some, Option.mapM_some, map_eq_pure_bind, map_eq_pure_bind]
      exact below_map (h x) _

theorem below_foldlM {f f' : β → α → Session β} (h : ∀ b x, Below (f b x) (f' b x))
    (xs : List α) (b : β) : Below (xs.foldlM f b) (xs.foldlM f' b) := by
  induction xs generalizing b with
  | nil => exact below_refl _
  | cons x rest ih =>
      rw [List.foldlM_cons, List.foldlM_cons]
      exact below_bind (h b x) ih

theorem below_findSomeM? {f f' : α → Session (Option β)} (h : ∀ x, Below (f x) (f' x))
    (xs : List α) : Below (xs.findSomeM? f) (xs.findSomeM? f') := by
  induction xs with
  | nil => exact below_refl _
  | cons x rest ih =>
      refine below_bind (h x) fun found ↦ ?_
      cases found with
      | none => exact ih
      | some b => exact below_refl _

end Session

end PluginSurface
