import PluginSurface.Proofs.Syntax.Reading

/-!
# What parsers answer

A property of whatever a parser answers, from any cursor, is put together along the rules of the
grammar from properties of what their parts answer.
-/

namespace PluginSurface.Parser

variable {α β : Type} {P : α → Prop} {R : β → Prop}

/-- Whatever the parser answers satisfies `P`. -/
def Ensures (P : α → Prop) (p : Parser α) : Prop := ∀ s a t, p s = .ok (a, t) → P a

theorem Ensures.mono {P' : α → Prop} {p : Parser α} (h : Ensures P p)
    (hP : ∀ a, P a → P' a) : Ensures P' p :=
  fun s a t ha ↦ hP a (h s a t ha)

theorem ensures_pure {a : α} (h : P a) : Ensures P (pure a) := by
  intro s b t hb
  cases hb
  exact h

theorem ensures_bind {p : Parser α} {q : α → Parser β} (hp : Ensures P p)
    (hq : ∀ a, P a → Ensures R (q a)) : Ensures R (p >>= q) := by
  intro s b u h
  obtain ⟨a, t, ha, hb⟩ := bind_eq_ok.mp h
  exact hq a (hp s a t ha) t b u hb

/-- What is answered first does not matter. -/
theorem ensures_then {p : Parser α} {q : α → Parser β} (hq : ∀ a, Ensures R (q a)) :
    Ensures R (p >>= q) :=
  ensures_bind (P := fun _ ↦ True) (fun _ _ _ _ ↦ trivial) fun a _ ↦ hq a

theorem ensures_fail (fault : Fault) : Ensures P (fail fault) := fun _ _ _ h ↦ nomatch h

theorem ensures_unexpected (what : Wanted) : Ensures P (unexpected what) :=
  fun _ _ _ h ↦ nomatch h

theorem ensures_ite {c : Prop} [Decidable c] {p q : Parser α} (hp : Ensures P p)
    (hq : Ensures P q) : Ensures P (if c then p else q) := by
  split
  · exact hp
  · exact hq

theorem ensures_map {p : Parser α} {f : α → β} (hp : Ensures P p)
    (hf : ∀ a, P a → R (f a)) : Ensures R (p >>= fun a ↦ pure (f a)) :=
  ensures_bind hp fun a ha ↦ ensures_pure (hf a ha)

theorem ensures_afterMark (text : String) {p : Parser α} (hp : Ensures P p) :
    Ensures (fun o ↦ ∀ a ∈ o, P a) (afterMark text p) := by
  refine ensures_then fun _ ↦ ensures_ite (ensures_map hp ?_) (ensures_pure (by simp))
  rintro a ha _ ⟨⟩
  exact ha

theorem ensures_afterWord (text : String) {p : Parser α} (hp : Ensures P p) :
    Ensures (fun o ↦ ∀ a ∈ o, P a) (afterWord text p) := by
  refine ensures_then fun _ ↦ ensures_ite (ensures_map hp ?_) (ensures_pure (by simp))
  rintro a ha _ ⟨⟩
  exact ha

theorem ensures_attempt {P : Option α → Prop} {p : Parser (Option α)} (hp : Ensures P p) :
    Ensures P (attempt p) := by
  intro s a t h
  obtain ⟨t', ht', -⟩ := attempt_eq_ok h
  exact hp s a t' ht'

theorem ensures_nested {p : Parser α} (hp : Ensures P p) : Ensures P (nested p) := by
  intro s a t h
  obtain ⟨-, t', ht', -⟩ := nested_eq_ok h
  exact hp _ a t' ht'

theorem ensures_withBound (inBound : Bool) {p : Parser α} (hp : Ensures P p) :
    Ensures P (withBound inBound p) := by
  intro s a t h
  obtain ⟨t', ht', -⟩ := withBound_eq_ok h
  exact hp _ a t' ht'

/-! ## Repetitions -/

/-- What is known of a round that goes on, and of one that is the last. -/
def RoundEnsures (I : β → Prop) (P : α → Prop) : Round β α → Prop
  | .again state => I state
  | .done a => P a

theorem ensures_rounds {I : β → Prop} {step : β → Parser (Round β α)}
    (hstep : ∀ state, I state → Ensures (RoundEnsures I P) (step state)) {state : β}
    (h : I state) : Ensures P (rounds step state) := by
  intro s a t ha
  refine rounds_induction (I := fun state _ ↦ I state) (Q := fun a _ ↦ P a) ?_ h ha
  intro state s r t hstate hr
  have hround := hstep state hstate s r t hr
  cases r <;> exact hround

/-- All of the list satisfy `P`. -/
abbrev AllOf (P : α → Prop) (as : List α) : Prop := ∀ a ∈ as, P a

theorem allOf_cons {a : α} {as : List α} (ha : P a) (h : AllOf P as) : AllOf P (a :: as) :=
  List.forall_mem_cons.mpr ⟨ha, h⟩

theorem allOf_reverse {as : List α} (h : AllOf P as) : AllOf P as.reverse :=
  fun a ha ↦ h a (List.mem_reverse.mp ha)

theorem allOf_flatMap {f : β → List α} {bs : List β} (h : AllOf (fun b ↦ AllOf P (f b)) bs) :
    AllOf P (bs.flatMap f) := by
  intro a ha
  obtain ⟨b, hb, ha⟩ := List.mem_flatMap.mp ha
  exact h b hb a ha

theorem allOf_append {as bs : List α} (has : AllOf P as) (hbs : AllOf P bs) : AllOf P (as ++ bs) :=
  fun a ha ↦ (List.mem_append.mp ha).elim (has a) (hbs a)

theorem allOf_toList {o : Option α} (h : ∀ a ∈ o, P a) : AllOf P o.toList :=
  fun a ha ↦ h a (Option.mem_toList.mp ha)

theorem ensures_listUntil (close : String) {item : Nat → Parser α}
    (hitem : ∀ n, Ensures P (item n)) : Ensures (AllOf P) (listUntil close item) := by
  refine ensures_rounds (I := AllOf P) (fun found hfound ↦ ?_) nofun
  refine ensures_then fun _ ↦ ensures_ite (ensures_pure (allOf_reverse hfound)) ?_
  refine ensures_bind (hitem _) fun a ha ↦ ensures_then fun _ ↦ ?_
  have hall := allOf_cons ha hfound
  exact ensures_ite (ensures_pure hall) (ensures_then fun _ ↦ ensures_pure (allOf_reverse hall))

theorem ensures_braced (separators : List String) {item : Parser α} (hitem : Ensures P item) :
    Ensures (AllOf P) (braced separators item) := by
  refine ensures_then fun _ ↦ ensures_rounds (I := AllOf P) (fun found hfound ↦ ?_) nofun
  refine ensures_then fun _ ↦ ensures_ite (ensures_pure (allOf_reverse hfound)) ?_
  refine ensures_then fun _ ↦ ?_
  extract_lets rest
  have hrest : Ensures (RoundEnsures (AllOf P) (AllOf P)) (rest ()) :=
    ensures_then fun _ ↦ ensures_ite (ensures_then fun _ ↦ ensures_pure hfound)
      (ensures_map hitem fun a ha ↦ allOf_cons ha hfound)
  exact ensures_ite (ensures_then fun _ ↦ hrest) hrest

theorem ensures_separated (separator : String) {item : Parser α} (hitem : Ensures P item) :
    Ensures (AllOf P) (separated separator item) := by
  refine ensures_bind hitem fun first hfirst ↦ ?_
  refine ensures_rounds (I := AllOf P) (fun found hfound ↦ ?_) (allOf_cons hfirst nofun)
  refine ensures_then fun _ ↦ ensures_ite ?_ (ensures_pure (allOf_reverse hfound))
  exact ensures_map hitem fun a ha ↦ allOf_cons ha hfound

end PluginSurface.Parser
