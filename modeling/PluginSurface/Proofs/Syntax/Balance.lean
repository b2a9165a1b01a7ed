import PluginSurface.Proofs.Syntax.Brackets

/-!
# Parsers that keep brackets

A parser turns open brackets into others if the tokens that it takes in a nested text do. A
mark that is expected opens one bracket more or closes the last one, and most parsers leave all
of them as they were. A parser closes a bracket if what it takes ends with the partner of that
one. Both pass through the combinators, so that a rule is read from left to right with the
brackets that are open.
-/

namespace PluginSurface

namespace Cursor

/-- The brackets `m` are open at the cursor, and what is ahead closes them. -/
structure Inside (m : List String) (s : Cursor) : Prop where
  finish : s.finish.kind = .finish
  tokens : openBehind m s.rest = some []

/-- Between the cursors there are tokens that turn the open brackets `k` into `k'`. -/
structure Over (k k' : List String) (s t : Cursor) : Prop where
  finish : t.finish = s.finish
  tokens : Crosses k k' s.rest t.rest

/-- The second cursor is behind the mark `close`, before which the open brackets `k` are closed. -/
structure Past (k : List String) (close : String) (s t : Cursor) : Prop where
  finish : t.finish = s.finish
  tokens : Shuts k close s.rest t.rest

/-- Between the cursors there is a bracket with its partner, and nested tokens between them. -/
structure Around (s t : Cursor) : Prop where
  finish : t.finish = s.finish
  tokens : ∃ inner c, s.rest = s.next :: (inner ++ c :: t.rest) ∧ Nested inner ∧
    s.next.Partners c

variable {s t u : Cursor} {k k' m : List String} {close : String}

theorem Over.refl (k : List String) (s : Cursor) : s.Over k k s := ⟨rfl, .refl k s.rest⟩

theorem Over.trans {j : List String} (h : s.Over k k' t) (h' : t.Over k' j u) : s.Over k j u :=
  ⟨h'.finish.trans h.finish, h.tokens.trans h'.tokens⟩

theorem Over.past (h : s.Over k k' t) (h' : t.Past k' close u) : s.Past k close u :=
  ⟨h'.finish.trans h.finish, h.tokens.shuts h'.tokens⟩

theorem Past.over (h : s.Past k close t) (m : List String) : s.Over (k ++ close :: m) m t :=
  ⟨h.finish, h.tokens.crosses m⟩

theorem Over.inside (h : s.Over k k' t) (hs : s.Inside (k ++ m)) : t.Inside (k' ++ m) :=
  ⟨h.finish ▸ hs.finish, h.tokens.openBehind_eq hs.tokens⟩

theorem Inside.kept (hs : s.Inside m) (h : s.Over [] [] t) : t.Inside m := h.inside (k := []) hs

theorem Around.over (h : s.Around t) (k : List String) : s.Over k k t := by
  obtain ⟨hfinish, inner, c, hrest, hinner, b, hb, hopen, hclose⟩ := h
  refine ⟨hfinish, s.next :: (inner ++ [c]), by rw [hrest]; simp, ?_⟩
  have hopener := Token.openBehind_opener (Token.closing?_of_isMark hb hopen) k
  have hcloser := Token.openBehind_closer ((Token.bracket_of_isMark hb).2 hclose).2 hclose k
  refine openBehind_cons_eq_some.mpr ⟨_, hopener, ?_⟩
  refine openBehind_append_eq_some.mpr ⟨_, hinner.openBehind_eq _, ?_⟩
  exact openBehind_cons_eq_some.mpr ⟨k, hcloser, rfl⟩

theorem over_advance (hrest : s.rest ≠ []) (h : s.next.openBehind k = some k') :
    s.Over k k' s.advance :=
  ⟨s.finish_advance, [s.next], (rest_eq_cons hrest).1, openBehind_cons_eq_some.mpr
    ⟨k', h, rfl⟩⟩

/-- At the end the cursor stays where it is. -/
theorem over_advance_plain (h : s.next.IsPlain) (k : List String) : s.Over k k s.advance := by
  by_cases hrest : s.rest = []
  · have hadvance : s.advance = s := by rw [advance, hrest]
    rw [hadvance]
    exact .refl k s
  · exact over_advance hrest (Token.openBehind_plain h k)

theorem over_advance_opener {b : String × String} (hb : b ∈ Token.brackets)
    (hs : s.finish.kind = .finish) (h : s.next.isMark b.1 = true) (k : List String) :
    s.Over k (b.2 :: k) s.advance :=
  over_advance (Parser.rest_ne_nil_of_isMark hs h)
    (Token.openBehind_opener (Token.closing?_of_isMark hb h) k)

theorem past_advance {b : String × String} (hb : b ∈ Token.brackets)
    (hs : s.finish.kind = .finish) (h : s.next.isMark b.2 = true) : s.Past [] b.2 s.advance :=
  have hrest := (rest_eq_cons (Parser.rest_ne_nil_of_isMark hs h)).1
  ⟨s.finish_advance, [], s.next, hrest, rfl, h, ((Token.bracket_of_isMark hb).2 h).2⟩

theorem Past.around (hrest : s.rest ≠ []) {b : String × String} (hb : b ∈ Token.brackets)
    (hopen : s.next.isMark b.1 = true) (h : s.advance.Past [] b.2 t) : s.Around t := by
  obtain ⟨hfinish, inner, c, hinner, hnested, hclose, -⟩ := h
  refine ⟨hfinish.trans s.finish_advance, inner, c, ?_, hnested, b, hb, hopen, hclose⟩
  rw [← hinner]
  exact (rest_eq_cons hrest).1

/-- An opening bracket in a nested text has a partner. -/
theorem Inside.exists_partner (hs : s.Inside m) (hopener : s.next.isOpener = true) :
    ∃ inner c after, s.rest = s.next :: (inner ++ c :: after) ∧ Nested inner ∧
    s.next.Partners c := by
  have hkind : s.next.kind ≠ .finish := (Token.isMarkIn_iff.mp hopener).1 ▸ nofun
  have hrest := (rest_eq_cons (rest_ne_nil hs.finish hkind)).1
  obtain ⟨close, hclosing⟩ := Token.exists_closing? hopener
  obtain ⟨text, hb, hopen⟩ := Token.closing?_eq_some hclosing
  have htokens := hs.tokens
  rw [hrest] at htokens
  have hbehind := openBehind_of_cons (k := []) htokens (Token.openBehind_opener hclosing [])
  obtain ⟨after, inner, c, hinner, hnested, hclose, -⟩ := exists_shuts (k := []) hbehind
  exact ⟨inner, c, after, hinner ▸ hrest, hnested, _, hb, hopen, hclose⟩

theorem next_advance (s : Cursor) : s.advance.next = s.token 1 := by
  unfold advance next token
  split
  next hrest => simp [hrest]
  next hrest => simp [hrest, List.getD_eq_getElem?_getD]

end Cursor

namespace Parser

variable {α β : Type}

/-- From the cursor on, around which the brackets `m` are open, the parser turns the open brackets
`k` into `k'` if it answers. -/
def TurnsFrom (m k k' : List String) (s : Cursor) (p : Parser α) : Prop :=
  s.Inside (k ++ m) → ∀ a t, p s = .ok (a, t) → s.Over k k' t

/-- The parser turns the open brackets `k` into `k'` in each nested text. -/
def Turns (k k' : List String) (p : Parser α) : Prop := ∀ m s, TurnsFrom m k k' s p

/-- The parser takes nested tokens of each nested text, so that it leaves all
brackets as they were. -/
def Keeps (p : Parser α) : Prop := ∀ k, Turns k k p

/-- The parser closes the brackets `k` in each nested text and then the one that the mark `close`
closes, and takes no token behind that mark. -/
def Closes (k : List String) (close : String) (p : Parser α) : Prop :=
  ∀ m s, s.Inside (k ++ close :: m) → ∀ a t, p s = .ok (a, t) → s.Past k close t

/-- From the cursor on, around which the brackets `m` are open, the parser takes a bracket with its
partner and what is between them, and no other token. -/
def EnclosesFrom (m : List String) (s : Cursor) (p : Parser α) : Prop :=
  s.Inside m → ∀ a t, p s = .ok (a, t) → s.Around t

theorem EnclosesFrom.turnsFrom {m k : List String} {s : Cursor} {p : Parser α}
    (h : EnclosesFrom (k ++ m) s p) : TurnsFrom m k k s p := fun hs a t ht ↦ (h hs a t ht).over k

theorem keeps_of_encloses {p : Parser α} (h : ∀ m s, EnclosesFrom m s p) : Keeps p :=
  fun k m s ↦ (h (k ++ m) s).turnsFrom

/-- What leaves the brackets as they were where none counts, leaves any of them so. -/
theorem keeps_of_nil {p : Parser α} (h : Turns [] [] p) : Keeps p := fun k m s hs a t ht ↦
  have hst := h (k ++ m) s hs a t ht
  ⟨hst.finish, hst.tokens.frame k⟩

/-! ## Sequences -/

section

variable {m k k' k'' : List String} {s : Cursor} {close : String}

theorem turnsFrom_bind {p : Parser α} {q : α → Parser β} (hp : TurnsFrom m k k' s p)
    (hq : ∀ a t, TurnsFrom m k' k'' t (q a)) : TurnsFrom m k k'' s (p >>= q) := by
  intro hs b u h
  obtain ⟨a, t, ht, hu⟩ := bind_eq_ok.mp h
  have hst := hp hs a t ht
  exact hst.trans (hq a t (hst.inside hs) b u hu)

theorem turnsFrom_ite {c : Prop} [Decidable c] {p q : Parser α} (hp : c → TurnsFrom m k k' s p)
    (hq : ¬c → TurnsFrom m k k' s q) : TurnsFrom m k k' s (if c then p else q) := by
  split
  next h => exact hp h
  next h => exact hq h

theorem turns_bind {p : Parser α} {q : α → Parser β} (hp : Turns k k' p)
    (hq : ∀ a, Turns k' k'' (q a)) : Turns k k'' (p >>= q) :=
  fun m s ↦ turnsFrom_bind (hp m s) fun a t ↦ hq a m t

theorem closes_bind {p : Parser α} {q : α → Parser β} (hp : Turns k k' p)
    (hq : ∀ a, Closes k' close (q a)) : Closes k close (p >>= q) := by
  intro m s hs b u h
  obtain ⟨a, t, ht, hu⟩ := bind_eq_ok.mp h
  have hst := hp (close :: m) s hs a t ht
  exact hst.past (hq a m t (hst.inside hs) b u hu)

theorem closes_map {p : Parser α} (hp : Closes k close p) (f : α → β) :
    Closes k close (p >>= fun a ↦ pure (f a)) := by
  intro m s hs b u h
  obtain ⟨a, t, ht, hu⟩ := bind_eq_ok.mp h
  cases hu
  exact hp m s hs a _ ht

theorem Closes.turns {p : Parser α} (hp : Closes [] close p) (k : List String) :
    Turns (close :: k) k p :=
  fun m s hs a t ht ↦ (hp (k ++ m) s hs a t ht).over k

@[grind ←]
theorem keeps_pure (a : α) : Keeps (pure a : Parser α) := by
  rintro k m s - b t h
  cases h
  exact .refl k s

@[grind ←]
theorem keeps_bind {p : Parser α} {q : α → Parser β} (hp : Keeps p) (hq : ∀ a, Keeps (q a)) :
    Keeps (p >>= q) := fun k ↦ turns_bind (hp k) fun a ↦ hq a k

theorem keeps_ite {c : Prop} [Decidable c] {p q : Parser α} (hp : Keeps p) (hq : Keeps q) :
    Keeps (if c then p else q) := by
  split
  · exact hp
  · exact hq

@[grind ←]
theorem keeps_discard {p : Parser α} (hp : Keeps p) : Keeps (discard p) :=
  keeps_bind hp fun _ ↦ keeps_pure _

/-- A parser that takes no token leaves the brackets as they were. -/
theorem keeps_of_stays {p : Parser α} (h : ∀ s a t, p s = .ok (a, t) → t = s) : Keeps p := by
  rintro k m s - a t ht
  rw [h s a t ht]
  exact .refl k s

@[grind ←]
theorem keeps_get : Keeps (get : Parser Cursor) := keeps_of_stays fun s a t h ↦ by cases h; rfl

@[grind ←]
theorem keeps_fail (fault : Fault) : Keeps (fail fault : Parser α) :=
  keeps_of_stays fun s a t h ↦ by cases h

@[grind ←]
theorem keeps_unexpected (what : Wanted) : Keeps (unexpected what : Parser α) :=
  keeps_of_stays fun s a t h ↦ by cases h

@[grind ←]
theorem keeps_look (n : Nat) : Keeps (look n) := by
  unfold look
  grind

@[grind ←]
theorem keeps_atMark (text : String) : Keeps (atMark text) := by
  unfold atMark
  grind

@[grind ←]
theorem keeps_atWord (text : String) : Keeps (atWord text) := by
  unfold atWord
  grind

/-! ## Tokens -/

theorem eatMark_eq_ok {text : String} {s t : Cursor} {eaten : Bool}
    (h : eatMark text s = .ok (eaten, t)) :
    s.next.isMark text = true ∧ eaten = true ∧ t = s.advance ∨
      s.next.isMark text = false ∧ eaten = false ∧ t = s := by
  unfold eatMark at h
  split at h
  next hmark =>
    cases h
    exact .inl ⟨hmark, rfl, rfl⟩
  next hmark =>
    cases h
    exact .inr ⟨Bool.not_eq_true _ ▸ hmark, rfl, rfl⟩

theorem expectMark_eq_ok {text : String} {s t : Cursor} (h : expectMark text s = .ok ((), t)) :
    s.next.isMark text = true ∧ t = s.advance := by
  unfold expectMark at h
  split at h
  next hmark =>
    cases h
    exact ⟨hmark, rfl⟩
  next => cases h

/-- A parser that takes plain tokens only, and one at most, leaves the brackets as they were. -/
theorem keeps_of_advance {p : Parser α}
    (h : ∀ s a t, p s = .ok (a, t) → t = s ∨ s.next.IsPlain ∧ t = s.advance) : Keeps p := by
  rintro k m s - a t ht
  rcases h s a t ht with rfl | ⟨hplain, rfl⟩
  · exact .refl k _
  · exact Cursor.over_advance_plain hplain k

/-- The mark is none of a bracket. -/
@[grind =]
def isPlainMark (text : String) : Bool :=
  text != "(" && text != "[" && text != "\x7b" && text != ")" && text != "]" && text != "\x7d"

theorem isPlain_of_isMark {t : Token} {text : String} (htext : isPlainMark text = true)
    (h : t.isMark text = true) : t.IsPlain := by
  simp only [isPlainMark, Bool.and_eq_true, bne_iff_ne] at htext
  constructor
  · rw [Token.isOpener_eq h]
    simp [Token.brackets, htext]
  · rw [Token.isCloser_eq h]
    simp [Token.brackets, htext]

theorem isPlain_of_isMarkIn {t : Token} {texts : List String}
    (htexts : texts.all isPlainMark = true) (h : t.isMarkIn texts = true) : t.IsPlain := by
  obtain ⟨hkind, htext⟩ := Token.isMarkIn_iff.mp h
  exact isPlain_of_isMark (List.all_eq_true.mp htexts _ htext)
    (Token.isMark_iff.mpr ⟨hkind, rfl⟩)

theorem isPlain_of_isWord {t : Token} {text : String} (h : t.isWord text = true) : t.IsPlain :=
  Token.isPlain_of_word (kind_of_isWord h)

@[grind ←]
theorem keeps_eatMark {text : String} (htext : isPlainMark text = true) : Keeps (eatMark text) := by
  refine keeps_of_advance fun s a t h ↦ ?_
  rcases eatMark_eq_ok h with ⟨hmark, -, rfl⟩ | ⟨-, -, rfl⟩
  · exact .inr ⟨isPlain_of_isMark htext hmark, rfl⟩
  · exact .inl rfl

@[grind ←]
theorem keeps_expectMark {text : String} (htext : isPlainMark text = true) :
    Keeps (expectMark text) := by
  refine keeps_of_advance fun s a t h ↦ ?_
  obtain ⟨hmark, rfl⟩ := expectMark_eq_ok h
  exact .inr ⟨isPlain_of_isMark htext hmark, rfl⟩

@[grind ←]
theorem keeps_eatWord (text : String) : Keeps (eatWord text) := by
  refine keeps_of_advance fun s a t h ↦ ?_
  unfold eatWord at h
  split at h
  next hword =>
    cases h
    exact .inr ⟨isPlain_of_isWord hword, rfl⟩
  next =>
    cases h
    exact .inl rfl

@[grind ←]
theorem keeps_expectWord (text : String) : Keeps (expectWord text) := by
  refine keeps_of_advance fun s a t h ↦ ?_
  unfold expectWord at h
  split at h
  next hword =>
    cases h
    exact .inr ⟨isPlain_of_isWord hword, rfl⟩
  next => cases h

@[grind ←]
theorem keeps_expectKind {kind : TokenKind} (hkind : kind ≠ .mark) (what : Wanted) :
    Keeps (expectKind kind what) := by
  refine keeps_of_advance fun s a t h ↦ ?_
  unfold expectKind at h
  split at h
  next hnext =>
    cases h
    exact .inr ⟨Token.isPlain_of_kind (beq_iff_eq.mp hnext ▸ hkind), rfl⟩
  next => cases h

@[grind ←]
theorem keeps_expectWordText : Keeps expectWordText := by
  unfold expectWordText
  grind

@[grind ←]
theorem keeps_expectString : Keeps expectString := by
  unfold expectString
  grind

@[grind ←]
theorem keeps_afterMark {text : String} (htext : isPlainMark text = true) {p : Parser α}
    (hp : Keeps p) : Keeps (afterMark text p) := by
  unfold afterMark
  grind

@[grind ←]
theorem keeps_afterWord (text : String) {p : Parser α} (hp : Keeps p) :
    Keeps (afterWord text p) := by
  unfold afterWord
  grind

/-! ### Tokens that are looked at -/

theorem turnsFrom_look {n : Nat} {q : Token → Parser β}
    (h : TurnsFrom m k k' s (q (s.token n))) : TurnsFrom m k k' s (look n >>= q) := h

theorem turnsFrom_atMark {text : String} {q : Bool → Parser β}
    (h : TurnsFrom m k k' s (q (s.next.isMark text))) : TurnsFrom m k k' s (atMark text >>= q) := h

theorem turnsFrom_atWord {text : String} {q : Bool → Parser β}
    (h : TurnsFrom m k k' s (q (s.next.isWord text))) : TurnsFrom m k k' s (atWord text >>= q) := h

theorem turnsFrom_bump_bind {q : Token → Parser β} (h : s.next.IsPlain)
    (hq : TurnsFrom m k k' s.advance (q s.next)) : TurnsFrom m k k' s (bump >>= q) := by
  intro hs b u hu
  have hst := Cursor.over_advance_plain h k
  exact hst.trans (hq (hst.inside hs) b u hu)

/-- One plain token is taken before what keeps brackets. -/
theorem turnsFrom_bump {q : Token → Parser β} (h : s.next.IsPlain) (hq : ∀ t, Keeps (q t)) :
    TurnsFrom m k k s (bump >>= q) := turnsFrom_bump_bind h (hq _ k m _)

/-- Two plain tokens are taken before what keeps brackets. -/
theorem turnsFrom_bumps {q : Token → Token → Parser β} (h : s.next.IsPlain)
    (h' : (s.token 1).IsPlain) (hq : ∀ t u, Keeps (q t u)) :
    TurnsFrom m k k s (bump >>= fun t ↦ bump >>= q t) :=
  turnsFrom_bump_bind h (turnsFrom_bump (s.next_advance ▸ h') (hq _))

/-- The parser only looks ahead, and what it looks for begins with a plain token. -/
def Sees (p : Parser Bool) : Prop :=
  ∀ s found t, p s = .ok (found, t) → t = s ∧ (found = true → s.next.IsPlain)

theorem turnsFrom_sees {p : Parser Bool} (hp : Sees p) {q : Bool → Parser β}
    (hq : ∀ found : Bool, (found = true → s.next.IsPlain) → TurnsFrom m k k' s (q found)) :
    TurnsFrom m k k' s (p >>= q) := by
  intro hs b u h
  obtain ⟨found, t, ht, hu⟩ := bind_eq_ok.mp h
  obtain ⟨rfl, hplain⟩ := hp s found t ht
  exact hq found hplain hs b u hu

/-- The parser leaves all brackets as they were where a plain token is next. -/
def KeepsPlain (p : Parser α) : Prop := ∀ k m s, s.next.IsPlain → TurnsFrom m k k s p

theorem keepsPlain_bump {q : Token → Parser β} (hq : ∀ t, Keeps (q t)) :
    KeepsPlain (bump >>= q) :=
  fun _ _ _ hs ↦ turnsFrom_bump hs hq

/-! ## Brackets -/

theorem parenthesis_mem : ("(", ")") ∈ Token.brackets := by decide

theorem bracket_mem : ("[", "]") ∈ Token.brackets := by decide

theorem brace_mem : ("\x7b", "\x7d") ∈ Token.brackets := by decide

theorem turnsFrom_bump_opener {b : String × String} (hb : b ∈ Token.brackets)
    {q : Token → Parser β} (h : s.next.isMark b.1 = true)
    (hq : TurnsFrom m (b.2 :: k) k' s.advance (q s.next)) : TurnsFrom m k k' s (bump >>= q) := by
  intro hs c u hu
  have hst := Cursor.over_advance_opener hb hs.finish h k
  exact hst.trans (hq (hst.inside hs) c u hu)

/-- A mark that opens a bracket is expected. -/
theorem turns_opener {b : String × String} (hb : b ∈ Token.brackets) (k : List String) :
    Turns k (b.2 :: k) (expectMark b.1) := by
  intro m s hs _ t ht
  obtain ⟨hmark, rfl⟩ := expectMark_eq_ok ht
  exact Cursor.over_advance_opener hb hs.finish hmark k

/-- The partner of the last bracket is expected. -/
theorem closes_closer {b : String × String} (hb : b ∈ Token.brackets) :
    Closes [] b.2 (expectMark b.2) := by
  intro m s hs _ t ht
  obtain ⟨hmark, rfl⟩ := expectMark_eq_ok ht
  exact Cursor.past_advance hb hs.finish hmark

theorem turns_closer {b : String × String} (hb : b ∈ Token.brackets) (k : List String) :
    Turns (b.2 :: k) k (expectMark b.2) := (closes_closer hb).turns k

/-- A bracket is opened if its mark is next. -/
theorem turns_eatMark_opener {b : String × String} (hb : b ∈ Token.brackets)
    {q : Bool → Parser β}
    (htrue : Turns (b.2 :: k) k' (q true)) (hfalse : Turns k k' (q false)) :
    Turns k k' (eatMark b.1 >>= q) := by
  intro m s hs c u h
  obtain ⟨eaten, t, ht, hu⟩ := bind_eq_ok.mp h
  rcases eatMark_eq_ok ht with ⟨hmark, rfl, rfl⟩ | ⟨-, rfl, rfl⟩
  · have hst := Cursor.over_advance_opener hb hs.finish hmark k
    exact hst.trans (htrue m _ (hst.inside hs) c u hu)
  · exact hfalse m _ hs c u hu

/-- The last bracket is closed if its partner is next. -/
theorem turns_eatMark_closer {b : String × String} (hb : b ∈ Token.brackets)
    {q : Bool → Parser β}
    (htrue : Turns k k' (q true)) (hfalse : Turns (b.2 :: k) k' (q false)) :
    Turns (b.2 :: k) k' (eatMark b.2 >>= q) := by
  intro m s hs c u h
  obtain ⟨eaten, t, ht, hu⟩ := bind_eq_ok.mp h
  rcases eatMark_eq_ok ht with ⟨hmark, rfl, rfl⟩ | ⟨-, rfl, rfl⟩
  · have hst := (Cursor.past_advance hb hs.finish hmark).over k
    exact hst.trans (htrue m _ (hst.inside hs) c u hu)
  · exact hfalse m _ hs c u hu

/-- A bracket is taken, and what follows closes it. -/
theorem enclosesFrom_bump {b : String × String} (hb : b ∈ Token.brackets)
    {q : Token → Parser β} (hopen : s.next.isMark b.1 = true) (hq : ∀ t, Closes [] b.2 (q t)) :
    EnclosesFrom m s (bump >>= q) := by
  intro hs a t h
  have hover := Cursor.over_advance_opener hb hs.finish hopen []
  have hpast := hq s.next m _ (hover.inside (k := []) hs) a t h
  exact hpast.around (rest_ne_nil_of_isMark hs.finish hopen) hb hopen

/-- A bracket is expected, and what follows closes it. -/
theorem enclosesFrom_expectMark {b : String × String} (hb : b ∈ Token.brackets) {p : Parser α}
    (hp : Closes [] b.2 p) : EnclosesFrom m s (expectMark b.1 >>= fun _ ↦ p) := by
  intro hs a t h
  obtain ⟨_, u, hu, ht⟩ := bind_eq_ok.mp h
  obtain ⟨hmark, rfl⟩ := expectMark_eq_ok hu
  exact enclosesFrom_bump hb hmark (fun _ ↦ hp) hs a t ht

theorem enclosesFrom_look {n : Nat} {q : Token → Parser β}
    (h : EnclosesFrom m s (q (s.token n))) : EnclosesFrom m s (look n >>= q) := h

/-- What is looked at first does not count. -/
theorem enclosesFrom_bind {p : Parser α} {q : α → Parser β}
    (hp : ∀ s a t, p s = .ok (a, t) → t = s) (hq : ∀ a, EnclosesFrom m s (q a)) :
    EnclosesFrom m s (p >>= q) := by
  intro hs b u h
  obtain ⟨a, t, ht, hu⟩ := bind_eq_ok.mp h
  cases hp s a t ht
  exact hq a hs b u hu

theorem enclosesFrom_map {p : Parser α} (hp : EnclosesFrom m s p) (f : α → β) :
    EnclosesFrom m s (p >>= fun a ↦ pure (f a)) := by
  intro hs b u h
  obtain ⟨a, t, ht, hu⟩ := bind_eq_ok.mp h
  cases hu
  exact hp hs a _ ht

theorem keeps_bracketed {b : String × String} (hb : b ∈ Token.brackets) {p : Parser α}
    (hp : Closes [] b.2 p) : Keeps (expectMark b.1 >>= fun _ ↦ p) :=
  keeps_of_encloses fun _ _ ↦ enclosesFrom_expectMark hb hp

/-! ## Changes of the cursor that take no token -/

@[grind ←]
theorem keeps_attempt {p : Parser (Option α)} (hp : Keeps p) : Keeps (attempt p) := by
  intro k m s hs a t h
  obtain ⟨t', ht', rfl⟩ := attempt_eq_ok h
  have hst := hp k m s hs a t' ht'
  split
  · exact hst
  · exact ⟨hst.finish, .refl k s.rest⟩

theorem closes_nested {p : Parser α} (hp : Closes k close p) : Closes k close (nested p) := by
  intro m s hs a t h
  obtain ⟨-, t', ht', rfl⟩ := nested_eq_ok h
  have hst := hp m { s with depth := s.depth + 1 } ⟨hs.finish, hs.tokens⟩ a t' ht'
  exact ⟨hst.finish, hst.tokens⟩

@[grind ←]
theorem keeps_nested {p : Parser α} (hp : Keeps p) : Keeps (nested p) := by
  intro k m s hs a t h
  obtain ⟨-, t', ht', rfl⟩ := nested_eq_ok h
  have hst := hp k m { s with depth := s.depth + 1 } ⟨hs.finish, hs.tokens⟩ a t' ht'
  exact ⟨hst.finish, hst.tokens⟩

@[grind ←]
theorem keeps_withBound (inBound : Bool) {p : Parser α} (hp : Keeps p) :
    Keeps (withBound inBound p) := by
  intro k m s hs a t h
  obtain ⟨t', ht', rfl⟩ := withBound_eq_ok h
  have hst := hp k m { s with inBound := inBound } ⟨hs.finish, hs.tokens⟩ a t' ht'
  exact ⟨hst.finish, hst.tokens⟩

/-! ## Runs of tokens -/

theorem crosses_spanTokens {p : Token → Token → Bool}
    (hp : ∀ t next, p t next = true → t.IsPlain)
    (finish : Token) (k : List String) (ts : List Token) :
    Crosses k k ts (spanTokens p finish ts).2 := by
  induction ts with
  | nil => exact .refl k []
  | cons t rest ih =>
      unfold spanTokens
      split
      next h => exact .cons (Token.openBehind_plain (hp t _ h) k) ih
      next => exact .refl k _

@[grind ←]
theorem keeps_takeTokens {p : Token → Token → Bool}
    (hp : ∀ t next, p t next = true → t.IsPlain) : Keeps (takeTokens p) := by
  rintro k m s - a t h
  cases h
  exact ⟨rfl, crosses_spanTokens hp s.finish k s.rest⟩

/-- A group ends at the partner of its opener. -/
theorem enclosesFrom_takeGroup (hopener : s.next.isOpener = true) : EnclosesFrom m s takeGroup := by
  intro hs inside t h
  obtain ⟨inner, c, after, hrest, hnested, hpartners⟩ := hs.exists_partner hopener
  have hgroup : closeGroup 0 (inner ++ c :: after) = some (inner, c, after) :=
    closeGroup_of_openBehind hpartners.isCloser after hnested
  unfold takeGroup at h
  rw [hrest, List.tail_cons, hgroup] at h
  cases h
  exact ⟨rfl, inside, c, hrest, hnested, hpartners⟩

theorem enclosesFrom_skipGroup (hopener : s.next.isOpener = true) : EnclosesFrom m s skipGroup :=
  enclosesFrom_map (enclosesFrom_takeGroup hopener) fun _ ↦ ()

/-- A group is skipped in front of what turns the open brackets. -/
theorem turnsFrom_skipGroup {q : Unit → Parser β} (hopener : s.next.isOpener = true)
    (hq : Turns k k' (q ())) : TurnsFrom m k k' s (skipGroup >>= q) :=
  turnsFrom_bind (enclosesFrom_skipGroup hopener).turnsFrom fun _ t ↦ hq m t

@[grind ←]
theorem keeps_passExpression (stops : List String) (lines : Bool) :
    Keeps (passExpression stops lines) := by
  refine keeps_of_nil fun m s hs a t h ↦ ?_
  unfold passExpression at h
  split at h
  next last rest hend =>
    cases h
    exact ⟨rfl, crosses_of_expressionEnd hend hs.tokens rfl⟩
  next => cases h

@[grind ←]
theorem keeps_skipExpression (stops : List String) (lines : Bool) :
    Keeps (skipExpression stops lines) := by
  unfold skipExpression
  grind

/-! ## Repetition -/

theorem keeps_rounds {step : β → Parser (Round β α)} (hstep : ∀ state, Keeps (step state))
    (state : β) : Keeps (rounds step state) := by
  intro k m s hs a t h
  refine rounds_induction (I := fun _ u ↦ s.Over k k u) (Q := fun _ u ↦ s.Over k k u) ?_
    (Cursor.Over.refl k s) h
  intro state u r v hu hr
  have hv := hu.trans (hstep state k m u (hu.inside hs) r v hr)
  cases r <;> exact hv

/-- From the cursor on, behind a bracket that the mark `close` closes, a round after which
another one follows leaves the brackets as they were, and the last one ends with the partner of
the bracket. -/
def EndsFrom (m : List String) (close : String) (s : Cursor) (p : Parser (Round β α)) : Prop :=
  s.Inside (close :: m) → ∀ r t, p s = .ok (r, t) →
    Round.Holds (fun _ t ↦ s.Over [] [] t) (fun _ t ↦ s.Past [] close t) r t

theorem endsFrom_again (state : β) :
    EndsFrom m close s (pure (.again state) : Parser (Round β α)) := by
  rintro - _ _ ⟨⟩
  exact Cursor.Over.refl [] s

theorem endsFrom_done {γ : Type} {p : Parser γ} (hp : Closes [] close p) (f : γ → α) :
    EndsFrom m close s (p >>= fun a ↦ pure (.done (f a)) : Parser (Round β α)) := by
  intro hs r u h
  obtain ⟨a, t, ht, hu⟩ := bind_eq_ok.mp h
  cases hu
  exact hp m s hs a _ ht

theorem endsFrom_bind {γ : Type} {p : Parser γ} {q : γ → Parser (Round β α)}
    (hp : TurnsFrom (close :: m) [] [] s p) (hq : ∀ a t, EndsFrom m close t (q a)) :
    EndsFrom m close s (p >>= q) := by
  intro hs r u h
  obtain ⟨a, t, ht, hu⟩ := bind_eq_ok.mp h
  have hst := hp hs a t ht
  have hr := hq a t (hst.inside (k := []) hs) r u hu
  cases r with
  | again state => exact hst.trans hr
  | done a => exact hst.past hr

theorem endsFrom_look {n : Nat} {q : Token → Parser (Round β α)}
    (h : EndsFrom m close s (q (s.token n))) : EndsFrom m close s (look n >>= q) := h

/-- The round is the last one if the partner is next. -/
theorem endsFrom_eatMark {b : String × String} (hb : b ∈ Token.brackets)
    {q : Bool → Parser (Round β α)} {a : α} (htrue : q true = pure (.done a))
    (hfalse : EndsFrom m b.2 s (q false)) : EndsFrom m b.2 s (eatMark b.2 >>= q) := by
  intro hs r u h
  obtain ⟨eaten, t, ht, hu⟩ := bind_eq_ok.mp h
  rcases eatMark_eq_ok ht with ⟨hmark, rfl, rfl⟩ | ⟨-, rfl, rfl⟩
  · rw [htrue] at hu
    cases hu
    exact Cursor.past_advance hb hs.finish hmark
  · exact hfalse hs r u hu

theorem closes_rounds {step : β → Parser (Round β α)}
    (hstep : ∀ m state s, EndsFrom m close s (step state)) (state : β) :
    Closes [] close (rounds step state) := by
  intro m s hs a t h
  refine rounds_induction (I := fun _ u ↦ s.Over [] [] u) (Q := fun _ u ↦ s.Past [] close u) ?_
    (Cursor.Over.refl [] s) h
  intro state u r v hu hr
  have hv := hstep m state u (hu.inside (k := []) hs) r v hr
  cases r with
  | again state => exact hu.trans hv
  | done a => exact hu.past hv

theorem closes_listUntil {b : String × String} (hb : b ∈ Token.brackets)
    {item : Nat → Parser α}
    (hitem : ∀ n, Keeps (item n)) : Closes [] b.2 (listUntil b.2 item) := by
  refine closes_rounds (fun m found s ↦ ?_) []
  refine endsFrom_eatMark hb rfl (endsFrom_bind (hitem _ _ _ _) fun _ _ ↦ ?_)
  refine endsFrom_bind (keeps_eatMark rfl _ _ _) fun comma _ ↦ ?_
  split
  · exact endsFrom_again _
  · exact endsFrom_done (closes_closer hb) _

/-- A list up to a mark that is none of a bracket. -/
@[grind ←]
theorem keeps_listUntil {text : String} (htext : isPlainMark text = true) {item : Nat → Parser α}
    (hitem : ∀ n, Keeps (item n)) : Keeps (listUntil text item) := by
  refine keeps_rounds (fun found ↦ ?_) []
  unfold listStep
  grind

theorem enclosesFrom_braced {separators : List String}
    (hseparators : separators.all isPlainMark = true) {item : Parser α} (hitem : Keeps item) :
    EnclosesFrom m s (braced separators item) := by
  refine enclosesFrom_expectMark brace_mem (closes_rounds (fun m found s ↦ ?_) [])
  refine endsFrom_eatMark brace_mem rfl (endsFrom_bind (keeps_get _ _ _) fun u s ↦ ?_)
  extract_lets rest
  have hrest (s : Cursor) : EndsFrom m "\x7d" s (rest ()) := by
    refine endsFrom_look ?_
    split
    next hseparator =>
      have hplain := isPlain_of_isMarkIn hseparators hseparator
      exact endsFrom_bind (turnsFrom_bump hplain keeps_pure) fun _ _ ↦ endsFrom_again _
    next => exact endsFrom_bind (hitem _ _ _) fun _ _ ↦ endsFrom_again _
  split
  · exact endsFrom_bind (keeps_unexpected _ _ _ _) fun _ _ ↦ hrest _
  · exact hrest s

@[grind ←]
theorem keeps_braced {separators : List String} (hseparators : separators.all isPlainMark = true)
    {item : Parser α} (hitem : Keeps item) : Keeps (braced separators item) :=
  keeps_of_encloses fun _ _ ↦ enclosesFrom_braced hseparators hitem

@[grind ←]
theorem keeps_separated {separator : String} (hseparator : isPlainMark separator = true)
    {item : Parser α} (hitem : Keeps item) : Keeps (separated separator item) := by
  refine keeps_bind hitem fun first ↦ keeps_rounds (fun found ↦ ?_) [first]
  unfold separatedStep
  grind

end

end Parser

end PluginSurface
