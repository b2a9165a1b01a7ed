import PluginSurface.Syntax.Cursor

/-!
# Parsers that only read

Such a parser changes the cursor in no other way than by taking tokens, one after the other. So it
never steps back or behind the last token, and it gives no number away. The property passes through
all combinators, and `grind` puts it together along the text of a parser.
-/

namespace PluginSurface

theorem except_bind_eq_ok {ε α β : Type} {x : Except ε α} {f : α → Except ε β} {b : β} :
    (x >>= f) = .ok b ↔ ∃ a, x = .ok a ∧ f a = .ok b := by
  cases x <;> simp [bind, Except.bind]

theorem mapError_eq_ok {ε ε' α : Type} {f : ε → ε'} {x : Except ε α} {a : α} :
    x.mapError f = .ok a ↔ x = .ok a := by
  cases x with
  | ok b => exact ⟨fun h ↦ congrArg _ (Except.ok.inj h), fun h ↦
      congrArg _ (Except.ok.inj h)⟩
  | error e => exact ⟨fun h ↦ (nomatch h), fun h ↦ nomatch h⟩

theorem except_bind_eq_error {ε α β : Type} {x : Except ε α} {f : α → Except ε β}
    {e : ε} : (x >>= f) = .error e ↔ x = .error e ∨ ∃ a, x = .ok a ∧ f a = .error e := by
  cases x <;> simp [bind, Except.bind]

theorem mapError_eq_error {ε ε' α : Type} {f : ε → ε'} {x : Except ε α} {e : ε'} :
    x.mapError f = .error e ↔ ∃ e', x = .error e' ∧ f e' = e := by
  cases x with
  | ok a =>
      constructor
      · intro h
        cases h
      · rintro ⟨_, h, -⟩
        cases h
  | error e' =>
      constructor
      · exact fun h ↦ ⟨e', rfl, Except.error.inj h⟩
      · rintro ⟨_, h, rfl⟩
        cases h
        rfl

theorem toOption_eq_some {ε α : Type} {x : Except ε α} {a : α} :
    x.toOption = some a ↔ x = .ok a := by
  cases x <;> simp [Except.toOption]

namespace Cursor

/-- One cursor is reached from another by taking tokens. -/
inductive Onward : Cursor → Cursor → Prop
  | refl (s : Cursor) : Onward s s
  | step {s t : Cursor} (h : Onward s.advance t) : Onward s t

theorem Onward.trans {s t u : Cursor} (hst : Onward s t) (htu : Onward t u) : Onward s u := by
  induction hst with
  | refl => exact htu
  | step _ ih => exact .step (ih htu)

theorem onward_advance (s : Cursor) : Onward s s.advance := .step (.refl _)

@[simp] theorem nextId_advance (s : Cursor) : s.advance.nextId = s.nextId := by
  unfold advance
  split <;> rfl

@[simp] theorem finish_advance (s : Cursor) : s.advance.finish = s.finish := by
  unfold advance
  split <;> rfl

@[simp] theorem depth_advance (s : Cursor) : s.advance.depth = s.depth := by
  unfold advance
  split <;> rfl

@[simp] theorem inBound_advance (s : Cursor) : s.advance.inBound = s.inBound := by
  unfold advance
  split <;> rfl

theorem Onward.finish_eq {s t : Cursor} (h : Onward s t) : t.finish = s.finish := by
  induction h with
  | refl => rfl
  | step _ ih => rw [ih, finish_advance]

theorem Onward.nextId_eq {s t : Cursor} (h : Onward s t) : t.nextId = s.nextId := by
  induction h with
  | refl => rfl
  | step _ ih => rw [ih, nextId_advance]

/-- How a cursor goes on does not depend on its level and mode. -/
theorem Onward.setLevel {s t : Cursor} (h : Onward s t) (depth : Nat) (inBound : Bool) :
    Onward { s with depth := depth, inBound := inBound }
      { t with depth := depth, inBound := inBound } := by
  induction h with
  | refl s => exact .refl _
  | @step s t _ ih =>
      refine .step ?_
      have hadvance : ({ s with depth := depth, inBound := inBound } : Cursor).advance =
          { s.advance with depth := depth, inBound := inBound } := by
        unfold advance
        split <;> simp_all
      exact hadvance ▸ ih

theorem Onward.depth_eq {s t : Cursor} (h : Onward s t) : t.depth = s.depth := by
  induction h with
  | refl => rfl
  | @step s t _ ih => rw [ih, depth_advance]

theorem Onward.inBound_eq {s t : Cursor} (h : Onward s t) : t.inBound = s.inBound := by
  induction h with
  | refl => rfl
  | @step s t _ ih => rw [ih, inBound_advance]

/-- Taking a run of tokens at once is taking them one after the other. -/
theorem onward_of_rest_eq {taken rest : List Token} :
    ∀ {s : Cursor}, s.rest = taken ++ rest →
      Onward s { s with previous := taken.getLast?.or s.previous, rest := rest } := by
  induction taken with
  | nil =>
      rintro ⟨previous, _, finish, nextId, depth, inBound⟩ rfl
      simpa using Onward.refl _
  | cons t taken ih =>
      rintro ⟨previous, _, finish, nextId, depth, inBound⟩ rfl
      refine .step ?_
      have hmore := ih (s := ⟨some t, taken ++ rest, finish, nextId, depth, inBound⟩) rfl
      cases htaken : taken.getLast? <;> simpa [advance, List.getLast?_cons, htaken] using hmore

end Cursor

namespace Parser

variable {α β : Type}

/-- The parser changes the cursor only by taking tokens. -/
def OnlyReads (p : Parser α) : Prop := ∀ s a t, p s = .ok (a, t) → s.Onward t

theorem OnlyReads.nextId_eq {p : Parser α} (h : OnlyReads p) {s t : Cursor} {a : α}
    (hs : p s = .ok (a, t)) : t.nextId = s.nextId := (h s a t hs).nextId_eq

/-- A sequence of parsers answers as its second part does behind its first. -/
theorem bind_eq_ok {p : Parser α} {q : α → Parser β} {s u : Cursor} {b : β} :
    (p >>= q) s = .ok (b, u) ↔ ∃ a t, p s = .ok (a, t) ∧ q a t = .ok (b, u) := by
  change (p s >>= fun r ↦ q r.1 r.2) = .ok (b, u) ↔ _
  rw [except_bind_eq_ok, Prod.exists]

/-! ## Combinators -/

@[grind ←]
theorem onlyReads_pure (a : α) : OnlyReads (pure a : Parser α) := by
  intro s b t h
  cases h
  exact .refl s

@[grind ←]
theorem onlyReads_bind {p : Parser α} {q : α → Parser β} (hp : OnlyReads p)
    (hq : ∀ a, OnlyReads (q a)) : OnlyReads (p >>= q) := by
  intro s b u h
  obtain ⟨a, t, hs, ht⟩ := bind_eq_ok.mp h
  exact (hp s a t hs).trans (hq a t b u ht)

@[grind ←]
theorem onlyReads_discard {p : Parser α} (hp : OnlyReads p) : OnlyReads (discard p) :=
  onlyReads_bind hp fun _ ↦ onlyReads_pure _

@[grind ←]
theorem onlyReads_get : OnlyReads get := by
  intro s a t h
  cases h
  exact .refl s

@[grind ←]
theorem onlyReads_fail (fault : Fault) : OnlyReads (fail fault : Parser α) := by
  intro s a t h
  cases h

@[grind ←]
theorem onlyReads_unexpected (what : Wanted) : OnlyReads (unexpected what : Parser α) := by
  intro s a t h
  cases h

@[grind ←]
theorem onlyReads_look (n : Nat) : OnlyReads (look n) := by
  unfold look
  grind

@[grind ←]
theorem onlyReads_bump : OnlyReads bump := by
  intro s a t h
  cases h
  exact s.onward_advance

@[grind ←]
theorem onlyReads_atMark (text : String) : OnlyReads (atMark text) := by
  unfold atMark
  grind

@[grind ←]
theorem onlyReads_atWord (text : String) : OnlyReads (atWord text) := by
  unfold atWord
  grind

theorem onlyReads_of_advance {p : Parser α}
    (h : ∀ s a t, p s = .ok (a, t) → t = s ∨ t = s.advance) : OnlyReads p := by
  intro s a t hs
  rcases h s a t hs with rfl | rfl
  · exact .refl _
  · exact s.onward_advance

@[grind ←]
theorem onlyReads_eatMark (text : String) : OnlyReads (eatMark text) := by
  refine onlyReads_of_advance fun s a t h ↦ ?_
  unfold eatMark at h
  split at h <;> cases h <;> simp

@[grind ←]
theorem onlyReads_eatWord (text : String) : OnlyReads (eatWord text) := by
  refine onlyReads_of_advance fun s a t h ↦ ?_
  unfold eatWord at h
  split at h <;> cases h <;> simp

@[grind ←]
theorem onlyReads_expectMark (text : String) : OnlyReads (expectMark text) := by
  refine onlyReads_of_advance fun s a t h ↦ ?_
  unfold expectMark at h
  split at h <;> cases h
  exact .inr rfl

@[grind ←]
theorem onlyReads_expectWord (text : String) : OnlyReads (expectWord text) := by
  refine onlyReads_of_advance fun s a t h ↦ ?_
  unfold expectWord at h
  split at h <;> cases h
  exact .inr rfl

@[grind ←]
theorem onlyReads_expectKind (kind : TokenKind) (what : Wanted) :
    OnlyReads (expectKind kind what) := by
  refine onlyReads_of_advance fun s a t h ↦ ?_
  unfold expectKind at h
  split at h <;> cases h
  exact .inr rfl

@[grind ←]
theorem onlyReads_expectWordText : OnlyReads expectWordText := by
  unfold expectWordText
  grind

@[grind ←]
theorem onlyReads_expectString : OnlyReads expectString := by
  unfold expectString
  grind

@[grind ←]
theorem onlyReads_afterMark (text : String) {p : Parser α} (hp : OnlyReads p) :
    OnlyReads (afterMark text p) := by
  unfold afterMark
  grind

@[grind ←]
theorem onlyReads_afterWord (text : String) {p : Parser α} (hp : OnlyReads p) :
    OnlyReads (afterWord text p) := by
  unfold afterWord
  grind

theorem attempt_eq_ok {p : Parser (Option α)} {s t : Cursor} {found : Option α}
    (h : attempt p s = .ok (found, t)) : ∃ t', p s = .ok (found, t') ∧
      t = if found.isSome then t' else { t' with previous := s.previous, rest := s.rest } := by
  unfold attempt at h
  cases hp : p s with
  | error e => simp [hp, Except.map] at h
  | ok r =>
      simp only [hp, Except.map, Except.ok.injEq, Prod.mk.injEq] at h
      obtain ⟨rfl, rfl⟩ := h
      exact ⟨r.2, rfl, rfl⟩

/-- A parser that takes back what it read stands where it stood before. -/
@[grind ←]
theorem onlyReads_attempt {p : Parser (Option α)} (hp : OnlyReads p) : OnlyReads (attempt p) := by
  intro s found t h
  obtain ⟨t', ht', rfl⟩ := attempt_eq_ok h
  have honward := hp _ _ _ ht'
  split
  · exact honward
  · rw [honward.finish_eq, honward.nextId_eq, honward.depth_eq, honward.inBound_eq]
    exact .refl _

/-! ## Levels -/

theorem nested_eq_ok {p : Parser α} {s t : Cursor} {a : α} (h : nested p s = .ok (a, t)) :
    s.depth < maxNesting ∧ ∃ t', p { s with depth := s.depth + 1 } = .ok (a, t') ∧
      t = { t' with depth := t'.depth - 1 } := by
  unfold nested at h
  split at h
  next hdepth =>
    cases hp : p { s with depth := s.depth + 1 } with
    | error e => simp [hp, Except.map] at h
    | ok r =>
        simp only [hp, Except.map, Except.ok.injEq, Prod.mk.injEq] at h
        obtain ⟨rfl, rfl⟩ := h
        exact ⟨hdepth, r.2, rfl, rfl⟩
  next => cases h

theorem withBound_eq_ok {inBound : Bool} {p : Parser α} {s t : Cursor} {a : α}
    (h : withBound inBound p s = .ok (a, t)) :
    ∃ t', p { s with inBound := inBound } = .ok (a, t') ∧
    t = { t' with inBound := s.inBound } := by
  unfold withBound at h
  cases hp : p { s with inBound := inBound } with
  | error e => simp [hp, Except.map] at h
  | ok r =>
      simp only [hp, Except.map, Except.ok.injEq, Prod.mk.injEq] at h
      obtain ⟨rfl, rfl⟩ := h
      exact ⟨r.2, rfl, rfl⟩

@[grind ←]
theorem onlyReads_nested {p : Parser α} (hp : OnlyReads p) : OnlyReads (nested p) := by
  intro s a t h
  obtain ⟨-, t', ht', rfl⟩ := nested_eq_ok h
  have honward := hp _ _ _ ht'
  have heq : ({ t' with depth := t'.depth - 1 } : Cursor) =
      { t' with depth := s.depth, inBound := s.inBound } := by
    rw [honward.depth_eq, ← show t'.inBound = s.inBound from honward.inBound_eq]
    rfl
  exact heq ▸ honward.setLevel s.depth s.inBound

@[grind ←]
theorem onlyReads_withBound (inBound : Bool) {p : Parser α} (hp : OnlyReads p) :
    OnlyReads (withBound inBound p) := by
  intro s a t h
  obtain ⟨t', ht', rfl⟩ := withBound_eq_ok h
  have honward := hp _ _ _ ht'
  have heq : ({ t' with inBound := s.inBound } : Cursor) =
      { t' with depth := s.depth, inBound := s.inBound } := by
    rw [← show t'.depth = s.depth from honward.depth_eq]
  exact heq ▸ honward.setLevel s.depth s.inBound

/-! ## Runs of tokens -/

theorem spanTokens_append (p : Token → Token → Bool) (finish : Token) (ts : List Token) :
    (spanTokens p finish ts).1 ++ (spanTokens p finish ts).2 = ts := by
  induction ts with
  | nil => rfl
  | cons t rest ih =>
      unfold spanTokens
      split
      · simpa using ih
      · rfl

@[grind ←]
theorem onlyReads_takeTokens (p : Token → Token → Bool) : OnlyReads (takeTokens p) := by
  intro s a t h
  cases h
  exact Cursor.onward_of_rest_eq (spanTokens_append p s.finish s.rest).symm

/-- A group, its closing token and what follows make up what stands behind the opener. -/
theorem closeGroup_append {depth : Nat} {ts inside rest : List Token} {close : Token}
    (h : closeGroup depth ts = some (inside, close, rest)) : ts = inside ++ close :: rest := by
  fun_induction closeGroup depth ts generalizing inside with
  | case1 => simp at h
  | case2 depth t rest' _ ih =>
      obtain ⟨⟨more, _, _⟩, hmore, heq⟩ := Option.map_eq_some_iff.mp h
      cases heq
      rw [ih hmore, List.cons_append]
  | case3 t rest' =>
      cases h
      rfl
  | case4 t rest' _ _ less ih =>
      obtain ⟨⟨more, _, _⟩, hmore, heq⟩ := Option.map_eq_some_iff.mp h
      cases heq
      rw [ih hmore, List.cons_append]
  | case5 depth t rest' _ _ ih =>
      obtain ⟨⟨more, _, _⟩, hmore, heq⟩ := Option.map_eq_some_iff.mp h
      cases heq
      rw [ih hmore, List.cons_append]

@[grind ←]
theorem onlyReads_takeGroup : OnlyReads takeGroup := by
  intro s a t h
  unfold takeGroup at h
  cases hgroup : closeGroup 0 s.rest.tail with
  | none => simp [hgroup, fail] at h
  | some group =>
      obtain ⟨inside, close, rest⟩ := group
      simp only [hgroup] at h
      cases h
      cases hs : s.rest with
      | nil => simp [hs, closeGroup] at hgroup
      | cons opener tail =>
          have htail : tail = a ++ close :: rest :=
            closeGroup_append (by simpa [hs] using hgroup)
          have hrest : s.rest = (opener :: a ++ [close]) ++ rest := by simp [hs, htail]
          have hlast : (opener :: a ++ [close]).getLast? = some close := List.getLast?_concat
          simpa only [hlast, Option.some_or] using Cursor.onward_of_rest_eq hrest

@[grind ←]
theorem onlyReads_skipGroup : OnlyReads skipGroup := by
  unfold skipGroup
  grind

theorem getLast?_cons_or (t : Token) (ts : List Token) (before : Option Token) :
    (t :: ts).getLast?.or before = ts.getLast?.or (some t) := by
  cases hlast : ts.getLast? <;> simp [List.getLast?_cons, hlast]

/-- An expression and what follows make up what was ahead, and the token before what follows is the
last one of the expression, or the one before it if it is empty. -/
theorem expressionEnd_append {stops : List String} {lines : Bool} {group : Option (Token × Nat)}
    {before last : Option Token} {ts rest : List Token}
    (h : expressionEnd stops lines group before ts = .ok (last, rest)) :
    ∃ taken, ts = taken ++ rest ∧ last = taken.getLast?.or before := by
  fun_induction expressionEnd stops lines group before ts with
  | case1 =>
      cases h
      exact ⟨[], by simp⟩
  | case2 => cases h
  | case3 =>
      cases h
      exact ⟨[], by simp⟩
  | case4 before t more _ ih =>
      obtain ⟨taken, hmore, hlast⟩ := ih h
      exact ⟨t :: taken, by rw [hmore, List.cons_append], by rw [getLast?_cons_or, hlast]⟩
  | case5 opener depth before t more group ih =>
      obtain ⟨taken, hmore, hlast⟩ := ih h
      exact ⟨t :: taken, by rw [hmore, List.cons_append], by rw [getLast?_cons_or, hlast]⟩

@[grind ←]
theorem onlyReads_passExpression (stops : List String) (lines : Bool) :
    OnlyReads (passExpression stops lines) := by
  intro s a t h
  unfold passExpression at h
  split at h
  next last rest hend =>
    cases h
    obtain ⟨taken, hrest, hlast⟩ := expressionEnd_append hend
    rw [Option.or_none] at hlast
    exact hlast ▸ Cursor.onward_of_rest_eq hrest
  next => cases h

@[grind ←]
theorem onlyReads_skipExpression (stops : List String) (lines : Bool) :
    OnlyReads (skipExpression stops lines) := by
  unfold skipExpression
  grind

/-! ## Repetition -/

/-- What holds before a round, or else behind the last one. -/
def Round.Holds (I : β → Cursor → Prop) (Q : α → Cursor → Prop) :
    Round β α → Cursor → Prop
  | .again state => I state
  | .done a => Q a

/-- What each round keeps holds before all of them, and behind the last one holds what
that one leads to. -/
theorem rounds_induction {step : β → Parser (Round β α)} {I : β → Cursor → Prop}
    {Q : α → Cursor → Prop}
    (hstep : ∀ state s r t, I state s → step state s = .ok (r, t) → Round.Holds I Q r t)
    {state : β} {s t : Cursor} {a : α} (hs : I state s) (h : rounds step state s = .ok (a, t)) :
    Q a t := by
  have hwithin (fuel : List Token) : ∀ state s, I state s →
      roundsWithin step fuel state s = .ok (a, t) → Q a t := by
    induction fuel with
    | nil => exact fun _ _ _ h ↦ nomatch h
    | cons _ more ih =>
        intro state s hs h
        obtain ⟨r, u, hr, h⟩ := bind_eq_ok.mp h
        have hu := hstep state s r u hs hr
        cases r with
        | again state => exact ih state u hu h
        | done b =>
            cases h
            exact hu
  exact hwithin (s.finish :: s.rest) state s hs h

@[grind ←]
theorem onlyReads_rounds {step : β → Parser (Round β α)}
    (hstep : ∀ state, OnlyReads (step state)) (state : β) : OnlyReads (rounds step state) := by
  have hwithin (fuel : List Token) : ∀ state, OnlyReads (roundsWithin step fuel state) := by
    induction fuel with
    | nil => exact fun _ ↦ onlyReads_fail _
    | cons _ more ih =>
        intro state
        refine onlyReads_bind (hstep state) fun r ↦ ?_
        cases r with
        | again state => exact ih state
        | done a => exact onlyReads_pure a
  exact fun s ↦ hwithin (s.finish :: s.rest) state s

@[grind ←]
theorem onlyReads_listUntil (close : String) {item : Nat → Parser α}
    (hitem : ∀ n, OnlyReads (item n)) : OnlyReads (listUntil close item) := by
  unfold listUntil
  refine onlyReads_rounds (fun found ↦ ?_) []
  unfold listStep
  grind

@[grind ←]
theorem onlyReads_braced (separators : List String) {item : Parser α} (hitem : OnlyReads item) :
    OnlyReads (braced separators item) := by
  unfold braced
  refine onlyReads_bind (onlyReads_expectMark _) fun _ ↦ onlyReads_rounds (fun found ↦ ?_) []
  unfold bracedStep
  grind

@[grind ←]
theorem onlyReads_separated (separator : String) {item : Parser α} (hitem : OnlyReads item) :
    OnlyReads (separated separator item) := by
  unfold separated
  refine onlyReads_bind hitem fun first ↦ onlyReads_rounds (fun found ↦ ?_) [first]
  unfold separatedStep
  grind

end Parser

end PluginSurface
