/-!
# Recursion without a bound

A step answers a question with the answers to other questions. Not every question has an answer,
and the more answers a step is given the more it gives. A question that leads on without an end has
none.
-/

namespace PluginSurface

variable {α γ ι σ : Type} {a b : Option α}

/-- Whatever the first one gives, the second one gives too. -/
def Below (a b : Option α) : Prop := ∀ x, a = some x → b = some x

theorem Below.refl (a : Option α) : Below a a := fun _ h ↦ h

theorem Below.bind {f g : α → Option γ} (h : Below a b) (hf : ∀ x, Below (f x) (g x)) :
    Below (a.bind f) (b.bind g) := by
  intro y hy
  obtain ⟨x, hx, hfx⟩ := Option.bind_eq_some_iff.mp hy
  exact Option.bind_eq_some_iff.mpr ⟨x, h x hx, hf x y hfx⟩

/-- Answers to questions that are asked in a state. -/
abbrev Answers (σ : Type) (β : ι → Type) := (q : ι) → σ → Option (β q)

/-- A step, in which more answers never lead to fewer. -/
structure Recursion (σ : Type) (β : ι → Type) where
  answer : Answers σ β → Answers σ β
  below : ∀ {ask ask' : Answers σ β}, (∀ q s, Below (ask q s) (ask' q s)) →
    ∀ q s, Below (answer ask q s) (answer ask' q s)

namespace Recursion

variable {β : ι → Type}

/-- Names the term that a property is shown for; the fixed point is taken of the step that is named
so. -/
theorem holds_of {P : α → Prop} (a : α) (h : P a) : P a := h

/-- The answers that a step gives when it asks itself. -/
def fix (step : Recursion σ β) (q : ι) (s : σ) : Option (β q) := step.answer step.fix q s
partial_fixpoint monotonicity holds_of step.answer fun ask ask' h q s ↦ by
  have hstep : Below (step.answer ask q s) (step.answer ask' q s) := by
    refine step.below (fun q s ↦ ?_) q s
    have hask := h q s
    generalize ask q s = a, ask' q s = b at hask
    cases hask with
    | bot => rintro x ⟨⟩
    | refl => exact .refl a
  revert hstep
  generalize step.answer ask q s = a, step.answer ask' q s = b
  intro hstep
  cases a with
  | none => exact .bot
  | some x =>
      rw [hstep x rfl]
      exact .refl

theorem fix_eq (step : Recursion σ β) (q : ι) : step.fix q = step.answer step.fix q :=
  funext fun s ↦ fix.eq_1 step q s

end Recursion

end PluginSurface
