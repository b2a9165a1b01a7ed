import PluginSurface.Proofs.Source.Pieces
import PluginSurface.Proofs.Syntax.Reading

/-!
# Parsers on known tokens

Where the tokens ahead are known, it can be said which of them a parser takes and what it answers,
whatever token was read last. Rules for the combinators run a parser one step at a time; lists of
items are read if each item is.
-/

namespace PluginSurface.Parser

open Piece

variable {α β : Type}

/-- Where the tokens `rest` are ahead, the parser answers `a` and leaves the tokens `more`. The
level, the mode and the end of the text are those of `s`. -/
def Gives (p : Parser α) (s : Cursor) (rest : List Token) (a : α) (more : List Token) : Prop :=
  ∀ last, ∃ last', p { s with previous := last, rest := rest } =
    .ok (a, { s with previous := last', rest := more })

section

variable {s : Cursor} {rest mid more : List Token} {t : Token} {a : α} {b : β}

theorem Gives.bind {p : Parser α} {q : α → Parser β} (hp : Gives p s rest a mid)
    (hq : Gives (q a) s mid b more) : Gives (p >>= q) s rest b more := by
  intro last
  obtain ⟨last', hp⟩ := hp last
  obtain ⟨last'', hq⟩ := hq last'
  refine ⟨last'', ?_⟩
  change (p _ >>= fun r ↦ q r.1 r.2) = _
  rw [hp]
  exact hq

theorem gives_pure (a : α) : Gives (pure a) s rest a rest := fun last ↦ ⟨last, rfl⟩

theorem gives_get_bind {q : Cursor → Parser β}
    (h : ∀ last, Gives (q { s with previous := last, rest := rest }) s rest b more) :
    Gives (get >>= q) s rest b more := fun last ↦ h last last

@[simp] theorem gives_look_bind {n : Nat} {q : Token → Parser β} :
    Gives (look n >>= q) s rest b more ↔ Gives (q (rest.getD n s.finish)) s rest b more := Iff.rfl

@[simp] theorem gives_atMark_bind {text : String} {q : Bool → Parser β} :
    Gives (atMark text >>= q) s (t :: rest) b more ↔
      Gives (q (t.isMark text)) s (t :: rest) b more :=
  Iff.rfl

@[simp] theorem gives_atWord_bind {text : String} {q : Bool → Parser β} :
    Gives (atWord text >>= q) s (t :: rest) b more ↔
      Gives (q (t.isWord text)) s (t :: rest) b more :=
  Iff.rfl

theorem Gives.discard {p : Parser α} (h : Gives p s rest a more) :
    Gives (discard p) s rest () more :=
  Gives.bind (q := fun _ ↦ pure ()) h (gives_pure ())

theorem gives_bump : Gives bump s (t :: rest) t rest := fun _ ↦ ⟨some t, rfl⟩

theorem gives_eatMark {text : String} (h : t.isMark text = true) :
    Gives (eatMark text) s (t :: rest) true rest := by
  intro last
  refine ⟨some t, ?_⟩
  simp [eatMark, Cursor.next, Cursor.token, Cursor.advance, h]

theorem gives_eatMark_false {text : String} (h : t.isMark text = false) :
    Gives (eatMark text) s (t :: rest) false (t :: rest) := by
  intro last
  refine ⟨last, ?_⟩
  simp [eatMark, Cursor.next, Cursor.token, h]

theorem gives_eatWord {text : String} (h : t.isWord text = true) :
    Gives (eatWord text) s (t :: rest) true rest := by
  intro last
  refine ⟨some t, ?_⟩
  simp [eatWord, Cursor.next, Cursor.token, Cursor.advance, h]

theorem gives_eatWord_false {text : String} (h : t.isWord text = false) :
    Gives (eatWord text) s (t :: rest) false (t :: rest) := by
  intro last
  refine ⟨last, ?_⟩
  simp [eatWord, Cursor.next, Cursor.token, h]

theorem gives_expectMark {text : String} (h : t.isMark text = true) :
    Gives (expectMark text) s (t :: rest) () rest := by
  intro last
  refine ⟨some t, ?_⟩
  simp [expectMark, Cursor.next, Cursor.token, Cursor.advance, h]

theorem gives_expectKind {kind : TokenKind} {what : Wanted} (h : t.kind = kind) :
    Gives (expectKind kind what) s (t :: rest) t rest := by
  intro last
  refine ⟨some t, ?_⟩
  simp [expectKind, Cursor.next, Cursor.token, Cursor.advance, h]

theorem gives_expectWordText (h : t.kind = .word) :
    Gives expectWordText s (t :: rest) t.text rest :=
  (gives_expectKind h).bind (gives_pure _)

/-- No token is taken where the first one is not wanted. -/
theorem gives_takeTokens_nil {p : Token → Token → Bool}
    (h : p t (rest.headD s.finish) = false) :
    Gives (takeTokens p) s (t :: rest) [] (t :: rest) := by
  intro last
  refine ⟨last, ?_⟩
  simp only [takeTokens, spanTokens, h, Bool.false_eq_true, if_false]
  rfl

theorem gives_nested {p : Parser α} (hdepth : s.depth < maxNesting)
    (h : Gives p { s with depth := s.depth + 1 } rest a more) : Gives (nested p) s rest a more := by
  intro last
  obtain ⟨last', hp⟩ := h last
  refine ⟨last', ?_⟩
  simp only [nested, if_pos hdepth]
  rw [hp]
  rfl

theorem gives_withBound {p : Parser α} {inBound : Bool}
    (h : Gives p { s with inBound := inBound } rest a more) :
    Gives (withBound inBound p) s rest a more := by
  intro last
  obtain ⟨last', hp⟩ := h last
  refine ⟨last', ?_⟩
  simp only [withBound]
  rw [hp]
  rfl

/-! ## Repetition -/

theorem roundsWithin_of_length_le {step : β → Parser (Round β α)} {few many : List Token}
    (hlength : few.length ≤ many.length) {state : β} {s : Cursor} {r : α × Cursor}
    (h : roundsWithin step few state s = .ok r) : roundsWithin step many state s = .ok r := by
  induction few generalizing many state s with
  | nil => cases h
  | cons _ few ih =>
      obtain ⟨_, many, rfl⟩ := List.exists_cons_of_length_pos
        (Nat.lt_of_lt_of_le (Nat.succ_pos few.length) hlength)
      obtain ⟨a, t⟩ := r
      obtain ⟨round, u, hstep, hround⟩ := bind_eq_ok.mp h
      refine bind_eq_ok.mpr ⟨round, u, hstep, ?_⟩
      cases round with
      | again state => exact ih (Nat.le_of_succ_le_succ hlength) hround
      | done result => exact hround

theorem gives_rounds_done {step : β → Parser (Round β α)} {state : β}
    (h : Gives (step state) s rest (.done a) more) : Gives (rounds step state) s rest a more :=
  fun last ↦
  let ⟨last', hstep⟩ := h last
  ⟨last', bind_eq_ok.mpr ⟨.done a, _, hstep, rfl⟩⟩

/-- A round that takes a token, and those after it. -/
theorem gives_rounds_again {step : β → Parser (Round β α)} {state next : β}
    (h : Gives (step state) s rest (.again next) mid) (hlength : mid.length < rest.length)
    (hmore : Gives (rounds step next) s mid a more) : Gives (rounds step state) s rest a more := by
  intro last
  obtain ⟨last', hstep⟩ := h last
  obtain ⟨last'', hrounds⟩ := hmore last'
  refine ⟨last'', bind_eq_ok.mpr ⟨.again next, _, hstep, ?_⟩⟩
  have hfew : (s.finish :: mid).length ≤ rest.length := hlength
  exact roundsWithin_of_length_le hfew hrounds

end

/-! ## Lists -/

section

variable {item : Parser α} {s : Cursor} {separator : Piece} {Stop : Token → Prop}
  {pss : List (List Piece)} {as : List α} {t : Token} {more : List Token}

/-- The parser reads the pieces as `a` wherever one of the tokens `Stop` follows. -/
def ReadsBefore (Stop : Token → Prop) (p : Parser α) (s : Cursor) (ps : List Piece) (a : α) :
    Prop :=
  ∀ offset t more, Stop t → Gives p s (tokensFrom offset ps ++ t :: more) a (t :: more)

/-- Behind a part of a list stands a separator or what follows the list. -/
theorem exists_next (hseparator : ∀ offset, Stop (separator.token offset)) (ht : Stop t)
    (more : List Token) (offset : Nat) (pss : List (List Piece)) :
    ∃ next rest, tokensFrom offset (pss.flatMap (separator :: ·)) ++ t :: more = next :: rest ∧
      Stop next := by
  cases pss with
  | nil => exact ⟨t, more, rfl, ht⟩
  | cons ps pss => exact ⟨_, _, rfl, hseparator offset⟩

theorem gives_rounds_separated (hkind : separator.kind = .mark)
    (hitems : List.Forall₂ (ReadsBefore Stop item s) pss as)
    (hseparator : ∀ offset, Stop (separator.token offset)) (ht : Stop t)
    (hend : t.isMark separator.text = false) (more : List Token) (found : List α) (offset : Nat) :
    Gives (rounds (separatedStep separator.text item) found) s
      (tokensFrom offset (pss.flatMap (separator :: ·)) ++ t :: more) (found.reverse ++ as)
      (t :: more) := by
  induction hitems generalizing found offset with
  | nil =>
      refine gives_rounds_done ((gives_eatMark_false hend).bind ?_)
      rw [List.append_nil]
      exact gives_pure _
  | @cons ps a pss as hitem _ ih =>
      obtain ⟨next, rest, heq, hnext⟩ :=
        exists_next hseparator ht more (stopOf (separator.stop offset) ps) pss
      have hrest : tokensFrom offset ((ps :: pss).flatMap (separator :: ·)) ++ t :: more =
          separator.token offset :: (tokensFrom (separator.stop offset) ps ++ next :: rest) := by
        rw [← heq, List.flatMap_cons, List.cons_append, tokensFrom_cons, tokensFrom_append,
          List.cons_append, List.append_assoc]
      have hround : Gives (separatedStep separator.text item found) s
          (separator.token offset :: (tokensFrom (separator.stop offset) ps ++ next :: rest))
          (.again (a :: found)) (next :: rest) :=
        (gives_eatMark (by simp [Piece.token, Token.isMark, hkind])).bind
          ((hitem _ next rest hnext).bind (gives_pure _))
      have hmore := ih (a :: found) (stopOf (separator.stop offset) ps)
      rw [heq, List.reverse_cons, List.append_assoc] at hmore
      rw [hrest]
      refine gives_rounds_again hround ?_ hmore
      simp only [List.length_cons, List.length_append]
      omega

theorem gives_separated (separator : Piece) (hkind : separator.kind = .mark)
    (hitems : List.Forall₂ (ReadsBefore Stop item s) pss as) (hne : pss ≠ [])
    (hseparator : ∀ offset, Stop (separator.token offset)) (ht : Stop t)
    (hend : t.isMark separator.text = false) (offset : Nat) (more : List Token) :
    Gives (separated separator.text item) s (tokensFrom offset (joined separator pss) ++ t :: more)
      as (t :: more) := by
  cases hitems with
  | nil => exact absurd rfl hne
  | @cons ps a pss as hitem hitems =>
      obtain ⟨next, rest, heq, hnext⟩ :=
        exists_next hseparator ht more (stopOf offset ps) pss
      have hmore := gives_rounds_separated hkind hitems hseparator ht hend more [a]
        (stopOf offset ps)
      rw [joined, tokensFrom_append, List.append_assoc, heq]
      exact (hitem offset next rest hnext).bind (heq ▸ hmore)

end

section

variable {close : String} {item : Nat → Parser α} {s : Cursor} {Stop : Token → Prop}
  {pss : List (List Piece)} {as : List α} {t : Token} {more : List Token}

/-- The pieces are those of an item of a list: they do not begin with what closes the list, and the
item is read as `a` at any place. -/
structure IsItem (close : String) (Stop : Token → Prop) (item : Nat → Parser α) (s : Cursor)
    (ps : List Piece) (a : α) : Prop where
  opens : ∃ p qs, ps = p :: qs ∧ ∀ offset, (p.token offset).isMark close = false
  reads : ∀ n, ReadsBefore Stop (item n) s ps a

theorem IsItem.gives_listStep {ps : List Piece} {a : α} (h : IsItem close Stop item s ps a)
    (ht : Stop t) {found : List α} {r : Round (List α) (List α)} {rest : List Token}
    (hmore : Gives (do
      if ← eatMark "," then return .again (a :: found)
      expectMark close
      return .done (a :: found).reverse) s (t :: more) r rest) (offset : Nat) :
    Gives (listStep close item found) s (tokensFrom offset ps ++ t :: more) r rest := by
  obtain ⟨p, qs, rfl, hopen⟩ := h.opens
  refine (gives_eatMark_false (hopen offset)).bind ?_
  exact (h.reads found.length offset t more ht).bind hmore

theorem gives_rounds_list {ps : List Piece} {a : α} (hitem : IsItem close Stop item s ps a)
    (hitems : List.Forall₂ (IsItem close Stop item s) pss as)
    (hcomma : ∀ offset, Stop ((mark false ",").token offset)) (ht : Stop t)
    (hclose : t.isMark close) (hend : t.isMark "," = false) (found : List α) (offset : Nat) :
    Gives (rounds (listStep close item) found) s
      (tokensFrom offset (joined (mark false ",") (ps :: pss)) ++ t :: more)
      (found.reverse ++ a :: as) more := by
  induction hitems generalizing ps a found offset with
  | nil =>
      rw [joined, List.flatMap_nil, List.append_nil]
      refine gives_rounds_done (hitem.gives_listStep ht ?_ offset)
      refine (gives_eatMark_false hend).bind ((gives_expectMark hclose).bind ?_)
      rw [List.reverse_cons]
      exact gives_pure _
  | @cons qs b pss as hnext hitems ih =>
      have hrest : tokensFrom offset (joined (mark false ",") (ps :: qs :: pss)) ++ t :: more =
          tokensFrom offset ps ++ (mark false ",").token (stopOf offset ps) ::
            (tokensFrom ((mark false ",").stop (stopOf offset ps))
              (joined (mark false ",") (qs :: pss)) ++ t :: more) := by
        simp [joined]
      have hmore := ih hnext (a :: found) ((mark false ",").stop (stopOf offset ps))
      rw [List.reverse_cons, List.append_assoc] at hmore
      rw [hrest]
      refine gives_rounds_again (hitem.gives_listStep (hcomma _) ?_ offset) ?_ hmore
      · exact (gives_eatMark rfl).bind (gives_pure _)
      · simp only [List.length_cons, List.length_append]
        omega

/-- A list with the mark that closes it. -/
theorem gives_listUntil (hitems : List.Forall₂ (IsItem close Stop item s) pss as)
    (hcomma : ∀ offset, Stop ((mark false ",").token offset))
    (hclose : ∀ offset, Stop ((mark false close).token offset)) (hne : close ≠ ",")
    (offset : Nat) (more : List Token) :
    Gives (listUntil close item) s
      (tokensFrom offset (joined (mark false ",") pss ++ [mark false close]) ++ more) as more := by
  rw [tokensFrom_append, List.append_assoc]
  generalize stopOf offset (joined (mark false ",") pss) = behind
  have hmark : ((mark false close).token behind).isMark close := by simp [token, Token.isMark]
  cases hitems with
  | nil => exact gives_rounds_done ((gives_eatMark hmark).bind (gives_pure _))
  | cons hitem hitems =>
      exact gives_rounds_list hitem hitems hcomma (hclose behind) hmark
        (by simp [token, Token.isMark, hne]) [] offset

end

end PluginSurface.Parser
