import PluginSurface.Proofs.Source.Boundaries
import PluginSurface.Proofs.Syntax.Reading

/-!
# Parsers that settle

A parser settles if it answers behind tokens that it passed over, on the level and in the mode in
which it began, or else refuses the text for a fault at a token that it had not passed. It never
gives up because a repetition stalls: each round takes a token. Two parsers that settle alike answer
the same wherever enough levels are open; so it does not matter how many levels a rule is written
for, as long as they are more than can be opened.
-/

namespace PluginSurface

namespace Cursor

/-- One cursor is reached from another by passing over tokens. -/
structure Passes (s t : Cursor) : Prop where
  tokens : ∃ taken, s.rest = taken ++ t.rest ∧ t.previous = taken.getLast?.or s.previous
  finish : t.finish = s.finish
  depth : t.depth = s.depth
  inBound : t.inBound = s.inBound

/-- The tokens that are not passed, with the final one. -/
def ahead (s : Cursor) : List Token := s.rest ++ [s.finish]

theorem Passes.refl (s : Cursor) : s.Passes s := ⟨⟨[], rfl, rfl⟩, rfl, rfl, rfl⟩

theorem Passes.trans {s t u : Cursor} (h : s.Passes t) (h' : t.Passes u) : s.Passes u := by
  obtain ⟨taken, hrest, hprevious⟩ := h.tokens
  obtain ⟨more, hrest', hprevious'⟩ := h'.tokens
  refine ⟨⟨taken ++ more, ?_, ?_⟩, h'.finish.trans h.finish, h'.depth.trans h.depth,
    h'.inBound.trans h.inBound⟩
  · rw [hrest, hrest', List.append_assoc]
  · rw [hprevious', hprevious, List.getLast?_append, Option.or_assoc]

theorem passes_advance (s : Cursor) : s.Passes s.advance := by
  refine ⟨?_, finish_advance s, depth_advance s, inBound_advance s⟩
  unfold advance
  cases hrest : s.rest with
  | nil => exact ⟨[], hrest.symm ▸ rfl, rfl⟩
  | cons t rest => exact ⟨[t], rfl, rfl⟩

theorem Onward.passes {s t : Cursor} (h : s.Onward t) : s.Passes t := by
  induction h with
  | refl s => exact .refl s
  | step _ ih => exact (passes_advance _).trans ih

theorem Passes.length_le {s t : Cursor} (h : s.Passes t) : t.rest.length ≤ s.rest.length := by
  obtain ⟨taken, hrest, -⟩ := h.tokens
  rw [hrest, List.length_append]
  omega

theorem Passes.ahead_subset {s t : Cursor} (h : s.Passes t) : t.ahead ⊆ s.ahead := by
  obtain ⟨taken, hrest, -⟩ := h.tokens
  rw [ahead, ahead, hrest, h.finish, List.append_assoc]
  exact List.subset_append_right _ _

theorem next_mem_ahead (s : Cursor) : s.next ∈ s.ahead := by
  unfold ahead next token
  cases s.rest <;> simp

theorem rest_ne_nil {s : Cursor} (hs : s.finish.kind = .finish) (h : s.next.kind ≠ .finish) :
    s.rest ≠ [] := by
  intro hrest
  simp only [next, token, hrest, List.getD_nil] at h
  exact h hs

theorem rest_eq_cons {s : Cursor} (h : s.rest ≠ []) :
    s.rest = s.next :: s.advance.rest ∧ s.advance.previous = some s.next := by
  unfold advance next token
  split
  next hnil => exact absurd hnil h
  next hcons => simp [hcons]

theorem length_advance_lt {s : Cursor} (h : s.rest ≠ []) :
    s.advance.rest.length < s.rest.length := by
  rw [length_rest_advance]
  have := List.length_pos_iff.mpr h
  omega

end Cursor

namespace Parser

variable {α β : Type}

/-- The error is not that of a repetition that stalls, and it is reported at a token that the cursor
has not passed. -/
def Blames (s : Cursor) (e : SyntaxError) : Prop :=
  e.fault ≠ .stalled ∧ ∃ t ∈ s.ahead, e.span = t.span

/-- The parser passes over tokens, or else refuses the text for what it finds ahead. -/
structure Settles (p : Parser α) : Prop where
  passes : ∀ s a t, p s = .ok (a, t) → s.Passes t
  blames : ∀ s e, s.finish.kind = .finish → p s = .error e → Blames s e

/-- The parser settles, and so does the other, which answers the same where at least `d` levels are
open. -/
structure SettlesAs (d : Nat) (p q : Parser α) : Prop extends Settles p where
  agrees : ∀ s : Cursor, d ≤ s.depth → p s = q s

theorem Settles.as {p : Parser α} (h : Settles p) (d : Nat) : SettlesAs d p p :=
  ⟨h, fun _ _ ↦ rfl⟩

theorem SettlesAs.mono {d d' : Nat} {p q : Parser α} (h : SettlesAs d p q) (hd : d ≤ d') :
    SettlesAs d' p q :=
  ⟨h.toSettles, fun s hs ↦ h.agrees s (Nat.le_trans hd hs)⟩

theorem SettlesAs.trans {d : Nat} {p q r : Parser α} (h : SettlesAs d p q)
    (h' : SettlesAs d q r) : SettlesAs d p r :=
  ⟨h.toSettles, fun s hs ↦ (h.agrees s hs).trans (h'.agrees s hs)⟩

theorem Blames.mono {s t : Cursor} {e : SyntaxError} (h : Blames t e) (hst : s.Passes t) :
    Blames s e := by
  obtain ⟨hfault, t, ht, hspan⟩ := h
  exact ⟨hfault, t, hst.ahead_subset ht, hspan⟩

/-- A parser that only reads settles if it blames the right token. -/
theorem settles_of_onlyReads {p : Parser α} (hp : OnlyReads p)
    (h : ∀ s e, s.finish.kind = .finish → p s = .error e → Blames s e) : Settles p :=
  ⟨fun s a t hs ↦ (hp s a t hs).passes, h⟩

section

variable {d : Nat}

/-! ## Combinators -/

@[grind ←]
theorem settles_pure (a : α) : SettlesAs d (pure a : Parser α) (pure a) :=
  (settles_of_onlyReads (onlyReads_pure a) fun _ _ _ h ↦ nomatch h).as d

theorem bind_eq_error {p : Parser α} {q : α → Parser β} {s : Cursor} {e : SyntaxError} :
    (p >>= q) s = .error e ↔
      p s = .error e ∨ ∃ a t, p s = .ok (a, t) ∧ q a t = .error e := by
  change (p s >>= fun r ↦ q r.1 r.2) = .error e ↔ _
  rw [except_bind_eq_error, Prod.exists]

@[grind ←]
theorem settles_bind {p p' : Parser α} {q q' : α → Parser β} (hp : SettlesAs d p p')
    (hq : ∀ a, SettlesAs d (q a) (q' a)) : SettlesAs d (p >>= q) (p' >>= q') := by
  refine ⟨⟨fun s b u h ↦ ?_, fun s e hs h ↦ ?_⟩, fun s hs ↦ ?_⟩
  · obtain ⟨a, t, ht, hu⟩ := bind_eq_ok.mp h
    exact (hp.passes s a t ht).trans ((hq a).passes t b u hu)
  · rcases bind_eq_error.mp h with h | ⟨a, t, ht, hu⟩
    · exact hp.blames s e hs h
    · have hst := hp.passes s a t ht
      exact ((hq a).blames t e (hst.finish ▸ hs) hu).mono hst
  · change (p s >>= fun r ↦ q r.1 r.2) = (p' s >>= fun r ↦ q' r.1 r.2)
    rw [← hp.agrees s hs]
    cases h : p s with
    | error e => rfl
    | ok r => exact (hq r.1).agrees r.2 ((hp.passes s r.1 r.2 h).depth ▸ hs)

theorem settles_ite {c : Prop} [Decidable c] {p p' q q' : Parser α} (hp : SettlesAs d p p')
    (hq : SettlesAs d q q') : SettlesAs d (if c then p else q) (if c then p' else q') := by
  split
  · exact hp
  · exact hq

@[grind ←]
theorem settles_discard {p p' : Parser α} (hp : SettlesAs d p p') :
    SettlesAs d (discard p) (discard p') :=
  settles_bind hp fun _ ↦ settles_pure _

@[grind ←]
theorem settles_get : SettlesAs d (get : Parser Cursor) get :=
  (settles_of_onlyReads onlyReads_get fun _ _ _ h ↦ nomatch h).as d

theorem blames_fail {s : Cursor} {fault : Fault} {e : SyntaxError} (hfault : fault ≠ .stalled)
    (h : (fail fault : Parser α) s = .error e) : Blames s e := by
  cases h
  exact ⟨hfault, s.next, s.next_mem_ahead, rfl⟩

theorem settles_fail {fault : Fault} (hfault : fault ≠ .stalled) :
    SettlesAs d (fail fault : Parser α) (fail fault) :=
  (settles_of_onlyReads (onlyReads_fail fault) fun _ _ _ ↦ blames_fail hfault).as d

theorem blames_unexpected {s : Cursor} {what : Wanted} {e : SyntaxError}
    (h : (unexpected what : Parser α) s = .error e) : Blames s e := by
  cases h
  exact ⟨nofun, s.next, s.next_mem_ahead, rfl⟩

@[grind ←]
theorem settles_unexpected (what : Wanted) :
    SettlesAs d (unexpected what : Parser α) (unexpected what) :=
  (settles_of_onlyReads (onlyReads_unexpected what) fun _ _ _ ↦ blames_unexpected).as d

@[grind ←]
theorem settles_look (n : Nat) : SettlesAs d (look n) (look n) := by
  unfold look
  grind

@[grind ←]
theorem settles_bump : SettlesAs d bump bump :=
  (settles_of_onlyReads onlyReads_bump fun _ _ _ h ↦ nomatch h).as d

@[grind ←]
theorem settles_atMark (text : String) : SettlesAs d (atMark text) (atMark text) := by
  unfold atMark
  grind

@[grind ←]
theorem settles_atWord (text : String) : SettlesAs d (atWord text) (atWord text) := by
  unfold atWord
  grind

@[grind ←]
theorem settles_eatMark (text : String) : SettlesAs d (eatMark text) (eatMark text) := by
  refine (settles_of_onlyReads (onlyReads_eatMark text) fun s e _ h ↦ ?_).as d
  unfold eatMark at h
  split at h <;> cases h

@[grind ←]
theorem settles_eatWord (text : String) : SettlesAs d (eatWord text) (eatWord text) := by
  refine (settles_of_onlyReads (onlyReads_eatWord text) fun s e _ h ↦ ?_).as d
  unfold eatWord at h
  split at h <;> cases h

@[grind ←]
theorem settles_expectMark (text : String) : SettlesAs d (expectMark text) (expectMark text) := by
  refine (settles_of_onlyReads (onlyReads_expectMark text) fun s e _ h ↦ ?_).as d
  unfold expectMark at h
  split at h
  · cases h
  · exact blames_unexpected h

@[grind ←]
theorem settles_expectWord (text : String) : SettlesAs d (expectWord text) (expectWord text) := by
  refine (settles_of_onlyReads (onlyReads_expectWord text) fun s e _ h ↦ ?_).as d
  unfold expectWord at h
  split at h
  · cases h
  · exact blames_unexpected h

@[grind ←]
theorem settles_expectKind (kind : TokenKind) (what : Wanted) :
    SettlesAs d (expectKind kind what) (expectKind kind what) := by
  refine (settles_of_onlyReads (onlyReads_expectKind kind what) fun s e _ h ↦ ?_).as d
  unfold expectKind at h
  split at h
  · cases h
  · exact blames_unexpected h

@[grind ←]
theorem settles_expectWordText : SettlesAs d expectWordText expectWordText := by
  unfold expectWordText
  grind

@[grind ←]
theorem settles_expectString : SettlesAs d expectString expectString := by
  unfold expectString
  grind

@[grind ←]
theorem settles_afterMark (text : String) {p p' : Parser α} (hp : SettlesAs d p p') :
    SettlesAs d (afterMark text p) (afterMark text p') := by
  unfold afterMark
  grind

@[grind ←]
theorem settles_afterWord (text : String) {p p' : Parser α} (hp : SettlesAs d p p') :
    SettlesAs d (afterWord text p) (afterWord text p') := by
  unfold afterWord
  grind

/-- A parser that takes back what it read stands where it stood before. -/
@[grind ←]
theorem settles_attempt {p p' : Parser (Option α)} (hp : SettlesAs d p p') :
    SettlesAs d (attempt p) (attempt p') := by
  refine ⟨⟨fun s a t h ↦ ?_, fun s e hs h ↦ hp.blames s e hs (except_map_eq_error.mp h)⟩,
    fun s hs ↦ ?_⟩
  · obtain ⟨t', ht', rfl⟩ := attempt_eq_ok h
    have hpasses := hp.passes s a t' ht'
    split
    · exact hpasses
    · exact ⟨⟨[], rfl, rfl⟩, hpasses.finish, hpasses.depth, hpasses.inBound⟩
  · rw [attempt, attempt, hp.agrees s hs]

/-! ## Levels -/

/-- A parser one level further in has to settle only where that level is open. Where no level is
left, it is not run. -/
@[grind ←]
theorem settles_nested {p p' : Parser α} (hp : SettlesAs (d + 1) p p') :
    SettlesAs d (nested p) (nested p') := by
  refine ⟨⟨fun s a t h ↦ ?_, fun s e hs h ↦ ?_⟩, fun s hs ↦ ?_⟩
  · obtain ⟨-, t', ht', rfl⟩ := nested_eq_ok h
    have hpasses := hp.passes _ a t' ht'
    refine ⟨hpasses.tokens, hpasses.finish, ?_, hpasses.inBound⟩
    change t'.depth - 1 = s.depth
    rw [hpasses.depth]
    exact Nat.add_sub_cancel s.depth 1
  · unfold nested at h
    split at h
    · exact hp.blames { s with depth := s.depth + 1 } e hs (except_map_eq_error.mp h)
    · exact blames_fail (by decide) h
  · unfold nested
    split
    · rw [hp.agrees { s with depth := s.depth + 1 } (Nat.succ_le_succ hs)]
    · rfl

/-- Where as many levels are open as may be, no parser is run one level further in. -/
theorem nested_eq_fail {p : Parser α} {s : Cursor} (h : maxNesting ≤ s.depth) :
    nested p s = fail .tooDeep s := if_neg (Nat.not_lt.mpr h)

@[grind ←]
theorem settles_withBound (inBound : Bool) {p p' : Parser α} (hp : SettlesAs d p p') :
    SettlesAs d (withBound inBound p) (withBound inBound p') := by
  refine ⟨⟨fun s a t h ↦ ?_, fun s e hs h ↦ ?_⟩, fun s hs ↦ ?_⟩
  · obtain ⟨t', ht', rfl⟩ := withBound_eq_ok h
    have hpasses := hp.passes _ a t' ht'
    exact ⟨hpasses.tokens, hpasses.finish, hpasses.depth, rfl⟩
  · exact hp.blames { s with inBound := inBound } e hs (except_map_eq_error.mp h)
  · rw [withBound, withBound, hp.agrees { s with inBound := inBound } hs]

/-! ## Runs of tokens -/

@[grind ←]
theorem settles_takeTokens (p : Token → Token → Bool) :
    SettlesAs d (takeTokens p) (takeTokens p) :=
  (settles_of_onlyReads (onlyReads_takeTokens p) fun _ _ _ h ↦ nomatch h).as d

@[grind ←]
theorem settles_takeGroup : SettlesAs d takeGroup takeGroup := by
  refine (settles_of_onlyReads onlyReads_takeGroup fun s e _ h ↦ ?_).as d
  unfold takeGroup at h
  split at h
  · cases h
  · exact blames_fail (by decide) h

@[grind ←]
theorem settles_skipGroup : SettlesAs d skipGroup skipGroup := by
  unfold skipGroup
  grind

/-- An expression that does not end has an opener in it that is not closed, or one before it. -/
theorem mem_of_expressionEnd {stops : List String} {lines : Bool} {group : Option (Token × Nat)}
    {before : Option Token} {ts : List Token} {opener : Token}
    (h : expressionEnd stops lines group before ts = .error opener) :
    opener ∈ ts ∨ ∃ depth, group = some (opener, depth) := by
  fun_induction expressionEnd stops lines group before ts with
  | case1 => cases h
  | case2 other depth =>
      cases h
      exact .inr ⟨depth, rfl⟩
  | case3 => cases h
  | case4 before t more _ ih =>
      rcases ih h with hmem | ⟨depth, hgroup⟩
      · exact .inl (List.mem_cons_of_mem t hmem)
      · split at hgroup
        · cases hgroup
          exact .inl List.mem_cons_self
        · cases hgroup
  | case5 other depth before t more group ih =>
      rcases ih h with hmem | ⟨depth', hgroup⟩
      · exact .inl (List.mem_cons_of_mem t hmem)
      · refine .inr ⟨depth, ?_⟩
        unfold group at hgroup
        split at hgroup
        · cases hgroup
          rfl
        split at hgroup
        · split at hgroup <;> cases hgroup
          rfl
        · cases hgroup
          rfl

@[grind ←]
theorem settles_passExpression (stops : List String) (lines : Bool) :
    SettlesAs d (passExpression stops lines) (passExpression stops lines) := by
  refine (settles_of_onlyReads (onlyReads_passExpression stops lines) fun s e _ h ↦ ?_).as d
  unfold passExpression at h
  split at h
  next => cases h
  next opener hend =>
    cases h
    have hopener := (mem_of_expressionEnd hend).resolve_right fun ⟨_, hgroup⟩ ↦ nomatch hgroup
    exact ⟨nofun, opener, List.mem_append_left _ hopener, rfl⟩

@[grind ←]
theorem settles_skipExpression (stops : List String) (lines : Bool) :
    SettlesAs d (skipExpression stops lines) (skipExpression stops lines) := by
  unfold skipExpression
  grind

end

/-! ## Taking a token -/

/-- From the cursor on, the parser takes a token if it answers with a result in `Q`. -/
def TakesFrom (Q : α → Prop) (s : Cursor) (p : Parser α) : Prop :=
  ∀ a t, p s = .ok (a, t) → Q a → t.rest.length < s.rest.length

/-- The parser takes a token whenever it answers. -/
def Takes (p : Parser α) : Prop :=
  ∀ s : Cursor, s.finish.kind = .finish → TakesFrom (fun _ ↦ True) s p

/-- The parser leaves the cursor behind or where it was. -/
def Moves (p : Parser α) : Prop := ∀ s a t, p s = .ok (a, t) → s.Passes t

theorem SettlesAs.moves {d : Nat} {p q : Parser α} (h : SettlesAs d p q) : Moves p := h.passes

theorem OnlyReads.moves {p : Parser α} (h : OnlyReads p) : Moves p :=
  fun s a t hs ↦ (h s a t hs).passes

theorem moves_bind {p : Parser α} {q : α → Parser β} (hp : Moves p) (hq : ∀ a, Moves (q a)) :
    Moves (p >>= q) := by
  intro s b u h
  obtain ⟨a, t, ht, hu⟩ := bind_eq_ok.mp h
  exact (hp s a t ht).trans (hq a t b u hu)

section

variable {Q : β → Prop} {s : Cursor}

theorem takesFrom_pure {b : β} (h : ¬Q b) : TakesFrom Q s (pure b) := by
  rintro _ _ ⟨⟩ hb
  exact absurd hb h

/-- What takes a token first has taken one in the end. -/
theorem takesFrom_first {p : Parser α} {q : α → Parser β} (hp : TakesFrom (fun _ ↦ True) s p)
    (hq : ∀ a, Moves (q a)) : TakesFrom Q s (p >>= q) := by
  intro b u h _
  obtain ⟨a, t, ht, hu⟩ := bind_eq_ok.mp h
  exact Nat.lt_of_le_of_lt (hq a t b u hu).length_le (hp a t ht trivial)

theorem takesFrom_then {p : Parser α} {q : α → Parser β} (hs : s.finish.kind = .finish)
    (hp : Moves p) (hq : ∀ a (t : Cursor), t.finish.kind = .finish → TakesFrom Q t (q a)) :
    TakesFrom Q s (p >>= q) := by
  intro b u h hb
  obtain ⟨a, t, ht, hu⟩ := bind_eq_ok.mp h
  have hpasses := hp s a t ht
  exact Nat.lt_of_lt_of_le (hq a t (hpasses.finish ▸ hs) b u hu hb) hpasses.length_le

theorem takesFrom_get {q : Cursor → Parser β} (h : TakesFrom Q s (q s)) :
    TakesFrom Q s (get >>= q) := h

theorem takesFrom_look {n : Nat} {q : Token → Parser β} (h : TakesFrom Q s (q (s.token n))) :
    TakesFrom Q s (look n >>= q) := h

theorem takesFrom_atMark {text : String} {q : Bool → Parser β}
    (h : TakesFrom Q s (q (s.next.isMark text))) : TakesFrom Q s (atMark text >>= q) := h

theorem takesFrom_atWord {text : String} {q : Bool → Parser β}
    (h : TakesFrom Q s (q (s.next.isWord text))) : TakesFrom Q s (atWord text >>= q) := h

theorem takesFrom_unexpected (what : Wanted) : TakesFrom Q s (unexpected what) := nofun

theorem takesFrom_bump {q : Token → Parser β} (hrest : s.rest ≠ []) (hq : ∀ t, Moves (q t)) :
    TakesFrom Q s (bump >>= q) := by
  refine takesFrom_first ?_ hq
  rintro _ _ ⟨⟩ -
  exact Cursor.length_advance_lt hrest

theorem kind_of_isMark {t : Token} {text : String} (h : t.isMark text = true) : t.kind = .mark := by
  simp only [Token.isMark, Bool.and_eq_true, beq_iff_eq] at h
  exact h.1

theorem kind_of_isWord {t : Token} {text : String} (h : t.isWord text = true) : t.kind = .word := by
  simp only [Token.isWord, Bool.and_eq_true, beq_iff_eq] at h
  exact h.1

theorem kind_of_isMarkIn {t : Token} {texts : List String} (h : t.isMarkIn texts = true) :
    t.kind = .mark := by
  simp only [Token.isMarkIn, Bool.and_eq_true, beq_iff_eq] at h
  exact h.1

theorem rest_ne_nil_of_isMark (hs : s.finish.kind = .finish) {text : String}
    (h : s.next.isMark text = true) : s.rest ≠ [] :=
  Cursor.rest_ne_nil hs (kind_of_isMark h ▸ nofun)

theorem rest_ne_nil_of_isWord (hs : s.finish.kind = .finish) {text : String}
    (h : s.next.isWord text = true) : s.rest ≠ [] :=
  Cursor.rest_ne_nil hs (kind_of_isWord h ▸ nofun)

/-- A mark is taken, or it is not there and the cursor stays where it is. -/
theorem takesFrom_eatMark (hs : s.finish.kind = .finish) {text : String} {q : Bool → Parser β}
    (htrue : Moves (q true)) (hfalse : TakesFrom Q s (q false)) :
    TakesFrom Q s (eatMark text >>= q) := by
  intro b u h hb
  obtain ⟨eaten, t, ht, hu⟩ := bind_eq_ok.mp h
  unfold eatMark at ht
  split at ht
  next hmark =>
    cases ht
    have hlt := Cursor.length_advance_lt (rest_ne_nil_of_isMark hs hmark)
    exact Nat.lt_of_le_of_lt (htrue _ b u hu).length_le hlt
  next =>
    cases ht
    exact hfalse b u hu hb

theorem takesFrom_eatWord (hs : s.finish.kind = .finish) {text : String} {q : Bool → Parser β}
    (htrue : Moves (q true)) (hfalse : TakesFrom Q s (q false)) :
    TakesFrom Q s (eatWord text >>= q) := by
  intro b u h hb
  obtain ⟨eaten, t, ht, hu⟩ := bind_eq_ok.mp h
  unfold eatWord at ht
  split at ht
  next hword =>
    cases ht
    have hlt := Cursor.length_advance_lt (rest_ne_nil_of_isWord hs hword)
    exact Nat.lt_of_le_of_lt (htrue _ b u hu).length_le hlt
  next =>
    cases ht
    exact hfalse b u hu hb

theorem takes_expectMark (text : String) : Takes (expectMark text) := by
  intro s hs _ t h _
  unfold expectMark at h
  split at h
  next hmark =>
    cases h
    exact Cursor.length_advance_lt (rest_ne_nil_of_isMark hs hmark)
  next => cases h

theorem takes_takeGroup : Takes takeGroup := by
  intro s _ inside t h _
  unfold takeGroup at h
  split at h
  next inside close rest hgroup =>
    cases h
    have hlt : rest.length < s.rest.tail.length := by
      rw [closeGroup_append hgroup, List.length_append, List.length_cons]
      omega
    have htail := List.length_tail (l := s.rest)
    change rest.length < s.rest.length
    omega
  next => cases h

end

/-! ## Repetition -/

def Round.IsAgain : Round β α → Prop
  | .again _ => True
  | .done _ => False

/-- A round after which another one follows takes a token. -/
def Advances (step : β → Parser (Round β α)) : Prop :=
  ∀ state (s : Cursor), s.finish.kind = .finish → TakesFrom Round.IsAgain s (step state)

theorem settles_rounds {d : Nat} {step step' : β → Parser (Round β α)}
    (hstep : ∀ state, SettlesAs d (step state) (step' state)) (hadvances : Advances step)
    (state : β) : SettlesAs d (rounds step state) (rounds step' state) := by
  have hmoves (fuel : List Token) : ∀ state, Moves (roundsWithin step fuel state) := by
    induction fuel with
    | nil => exact fun _ ↦ (onlyReads_fail _).moves
    | cons _ more ih =>
        intro state
        refine moves_bind (hstep state).moves fun r ↦ ?_
        cases r with
        | again state => exact ih state
        | done a => exact (onlyReads_pure a).moves
  -- Each round but the last takes a token, so there are rounds left as long as tokens are.
  have hblames (fuel : List Token) : ∀ state (s : Cursor) e, s.finish.kind = .finish →
      s.rest.length < fuel.length → roundsWithin step fuel state s = .error e → Blames s e := by
    induction fuel with
    | nil => exact fun _ s _ _ hlt ↦ absurd hlt (Nat.not_lt_zero _)
    | cons _ more ih =>
        intro state s e hs hlt h
        rcases bind_eq_error.mp h with h | ⟨r, t, ht, h⟩
        · exact (hstep state).blames s e hs h
        · have hpasses := (hstep state).passes s r t ht
          cases r with
          | again state' =>
              have htakes := hadvances state s hs _ t ht trivial
              rw [List.length_cons] at hlt
              exact (ih state' t e (hpasses.finish ▸ hs) (by omega) h).mono hpasses
          | done a => cases h
  have hagrees (fuel : List Token) : ∀ state (s : Cursor), d ≤ s.depth →
      roundsWithin step fuel state s = roundsWithin step' fuel state s := by
    induction fuel with
    | nil => exact fun _ _ _ ↦ rfl
    | cons _ more ih =>
        intro state s hs
        have hround : SettlesAs d (step state) (step' state) := hstep state
        change (step state s >>= fun r ↦ _) = (step' state s >>= fun r ↦ _)
        rw [← hround.agrees s hs]
        cases hr : step state s with
        | error e => rfl
        | ok r =>
            obtain ⟨r, t⟩ := r
            have hdepth := (hround.passes s r t hr).depth
            cases r with
            | again state' => exact ih state' t (hdepth ▸ hs)
            | done a => rfl
  exact ⟨⟨fun s ↦ hmoves (s.finish :: s.rest) state s,
    fun s e hs ↦ hblames (s.finish :: s.rest) state s e hs (Nat.lt_succ_self _)⟩,
    fun s ↦ hagrees (s.finish :: s.rest) state s⟩

/-! ## Lists -/

section

variable {d : Nat} {item item' : Parser α}

theorem advances_listStep (close : String) {item : Nat → Parser α}
    (hitem : ∀ n, Moves (item n)) : Advances (listStep close item) := by
  intro found s hs
  unfold listStep
  refine takesFrom_eatMark hs (onlyReads_pure _).moves ?_
  refine takesFrom_then hs (hitem _) fun a t ht ↦ takesFrom_eatMark ht (onlyReads_pure _).moves ?_
  exact takesFrom_first (takes_expectMark close t ht) fun _ ↦ (onlyReads_pure _).moves

theorem settles_listStep (close : String) {item item' : Nat → Parser α}
    (hitem : ∀ n, SettlesAs d (item n) (item' n)) (found : List α) :
    SettlesAs d (listStep close item found) (listStep close item' found) := by
  unfold listStep
  grind

@[grind ←]
theorem settles_listUntil (close : String) {item item' : Nat → Parser α}
    (hitem : ∀ n, SettlesAs d (item n) (item' n)) :
    SettlesAs d (listUntil close item) (listUntil close item') :=
  settles_rounds (settles_listStep close hitem)
    (advances_listStep close fun n ↦ (hitem n).moves) []

theorem advances_bracedStep (separators : List String) (hitem : Takes item) :
    Advances (bracedStep separators item) := by
  intro found s hs
  unfold bracedStep
  refine takesFrom_eatMark hs (onlyReads_pure _).moves (takesFrom_get ?_)
  extract_lets rest
  have hrest : TakesFrom Round.IsAgain s (rest ()) := by
    refine takesFrom_look ?_
    split
    next hseparator =>
      refine takesFrom_bump ?_ fun _ ↦ (onlyReads_pure _).moves
      exact Cursor.rest_ne_nil hs (kind_of_isMarkIn hseparator ▸ nofun)
    next => exact takesFrom_first (hitem s hs) fun _ ↦ (onlyReads_pure _).moves
  split
  · rintro _ _ ⟨⟩
  · exact hrest

theorem settles_bracedStep (separators : List String) (hitem : SettlesAs d item item')
    (found : List α) :
    SettlesAs d (bracedStep separators item found) (bracedStep separators item' found) := by
  unfold bracedStep
  refine settles_bind (settles_eatMark _) fun closed ↦ ?_
  split
  · exact settles_pure _
  refine settles_bind settles_get fun s ↦ ?_
  extract_lets rest rest'
  have hrest : SettlesAs d (rest ()) (rest' ()) := by
    refine settles_bind (settles_look _) fun _ ↦ ?_
    grind
  split
  · exact settles_bind (settles_unexpected _) fun _ ↦ hrest
  · exact hrest

theorem settles_braced (separators : List String) (hitem : SettlesAs d item item')
    (htakes : Takes item) : SettlesAs d (braced separators item) (braced separators item') :=
  settles_bind (settles_expectMark _) fun _ ↦
    settles_rounds (settles_bracedStep separators hitem) (advances_bracedStep separators htakes) []

theorem advances_separatedStep (separator : String) (hitem : Moves item) :
    Advances (separatedStep separator item) := by
  intro found s hs
  refine takesFrom_eatMark hs ?_ (takesFrom_pure nofun)
  exact moves_bind hitem fun _ ↦ (onlyReads_pure _).moves

theorem settles_separatedStep (separator : String) (hitem : SettlesAs d item item')
    (found : List α) :
    SettlesAs d (separatedStep separator item found) (separatedStep separator item' found) := by
  unfold separatedStep
  grind

@[grind ←]
theorem settles_separated (separator : String) (hitem : SettlesAs d item item') :
    SettlesAs d (separated separator item) (separated separator item') :=
  settles_bind hitem fun first ↦ settles_rounds (settles_separatedStep separator hitem)
    (advances_separatedStep separator hitem.moves) [first]

end

end Parser

end PluginSurface
