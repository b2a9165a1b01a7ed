import PluginSurface.Proofs.Syntax.Progress

/-!
# Brackets

A list of tokens is nested if each bracket in it is closed by the mark of its own kind. Where the
tokens ahead are a part of a nested text, a group that is taken ends at the partner of its opener,
and an expression that is passed over is nested, although both only count how deep they are.
-/

namespace PluginSurface

namespace Token

/-- The marks that open brackets, each with the one that closes it. -/
def brackets : List (String × String) := [("(", ")"), ("[", "]"), ("\x7b", "\x7d")]

/-- The mark that closes the bracket which the token opens. -/
def closing? (t : Token) : Option String := (brackets.find? fun b ↦ t.isMark b.1).map Prod.snd

/-- The second token closes the bracket that the first one opens. -/
def Partners (o c : Token) : Prop := ∃ b ∈ brackets, o.isMark b.1 ∧ c.isMark b.2

/-- The token neither opens nor closes a bracket. -/
def IsPlain (t : Token) : Prop := t.isOpener = false ∧ t.isCloser = false

/-- The open brackets behind the token, where `k` are open in front of it. Each is given by the mark
that closes it, the innermost one first. -/
def openBehind (k : List String) (t : Token) : Option (List String) :=
  match t.closing? with
  | some close => some (close :: k)
  | none =>
    if t.isCloser then
      match k with
      | [] => none
      | close :: k => if t.isMark close then some k else none
    else some k

theorem isMark_iff {t : Token} {text : String} :
    t.isMark text = true ↔ t.kind = .mark ∧ t.text = text := by
  rw [isMark, Bool.and_eq_true, beq_iff_eq, beq_iff_eq]

theorem isMarkIn_iff {t : Token} {texts : List String} :
    t.isMarkIn texts = true ↔ t.kind = .mark ∧ t.text ∈ texts := by
  rw [isMarkIn, Bool.and_eq_true, beq_iff_eq, List.contains_iff_mem]

theorem isOpener_eq {t : Token} {text : String} (h : t.isMark text = true) :
    t.isOpener = (brackets.map Prod.fst).contains text := by
  rw [isOpener, isMarkIn, (isMark_iff.mp h).1, (isMark_iff.mp h).2]
  rfl

theorem isCloser_eq {t : Token} {text : String} (h : t.isMark text = true) :
    t.isCloser = (brackets.map Prod.snd).contains text := by
  rw [isCloser, isMarkIn, (isMark_iff.mp h).1, (isMark_iff.mp h).2]
  rfl

theorem closing?_eq_some {t : Token} {close : String} (h : t.closing? = some close) :
    ∃ text, (text, close) ∈ brackets ∧ t.isMark text = true := by
  obtain ⟨⟨text, _⟩, hfind, rfl⟩ := Option.map_eq_some_iff.mp h
  exact ⟨text, List.mem_of_find?_eq_some hfind, by simpa using List.find?_some hfind⟩

theorem closing?_of_isMark {t : Token} {b : String × String} (hb : b ∈ brackets)
    (h : t.isMark b.1 = true) : t.closing? = some b.2 := by
  obtain ⟨hkind, htext⟩ := isMark_iff.mp h
  have hlookup :
      ∀ b ∈ brackets, (brackets.find? fun b' ↦ b.1 == b'.1).map Prod.snd = some b.2 := by
    decide
  unfold closing? isMark
  rw [hkind, htext]
  exact hlookup b hb

theorem closing?_eq_none {t : Token} (h : t.isOpener = false) : t.closing? = none := by
  cases hclosing : t.closing? with
  | none => rfl
  | some close =>
      obtain ⟨text, hmem, hmark⟩ := closing?_eq_some hclosing
      rw [isOpener_eq hmark, List.contains_iff_mem.mpr (List.mem_map_of_mem hmem)] at h
      cases h

theorem exists_closing? {t : Token} (h : t.isOpener = true) :
    ∃ close, t.closing? = some close := by
  obtain ⟨hkind, htext⟩ := isMarkIn_iff.mp h
  obtain ⟨b, hb, hmark⟩ := List.mem_map.mp (show t.text ∈ brackets.map Prod.fst from htext)
  exact ⟨b.2, closing?_of_isMark hb (isMark_iff.mpr ⟨hkind, hmark.symm⟩)⟩

/-- The marks of brackets all differ. -/
theorem bracket_of_isMark {t : Token} {b : String × String} (hb : b ∈ brackets) :
    (t.isMark b.1 = true → t.isOpener = true ∧ t.isCloser = false) ∧
      (t.isMark b.2 = true → t.isOpener = false ∧ t.isCloser = true) := by
  have htexts : ∀ b ∈ brackets, ((brackets.map Prod.fst).contains b.1 = true ∧
      (brackets.map Prod.snd).contains b.1 = false) ∧
      (brackets.map Prod.fst).contains b.2 = false ∧
      (brackets.map Prod.snd).contains b.2 = true := by
    decide
  obtain ⟨hopener, hcloser⟩ := htexts b hb
  refine ⟨fun h ↦ ?_, fun h ↦ ?_⟩
  · rw [isOpener_eq h, isCloser_eq h]
    exact hopener
  · rw [isOpener_eq h, isCloser_eq h]
    exact hcloser

theorem isOpener_of_isMark {t : Token} {b : String × String} (hb : b ∈ brackets)
    (h : t.isMark b.1 = true) : t.isOpener = true := ((bracket_of_isMark hb).1 h).1

theorem isOpener_of_isMarkIn {t : Token} {texts : List String}
    (htexts : texts ⊆ brackets.map Prod.fst) (h : t.isMarkIn texts = true) : t.isOpener = true :=
  isMarkIn_iff.mpr ⟨(isMarkIn_iff.mp h).1, htexts (isMarkIn_iff.mp h).2⟩

theorem isOpener_of_isCloser {t : Token} (h : t.isCloser = true) : t.isOpener = false := by
  obtain ⟨hkind, htext⟩ := isMarkIn_iff.mp h
  obtain ⟨b, hb, hmark⟩ := List.mem_map.mp (show t.text ∈ brackets.map Prod.snd from htext)
  exact ((bracket_of_isMark hb).2 (isMark_iff.mpr ⟨hkind, hmark.symm⟩)).1

theorem Partners.isCloser {o c : Token} (h : o.Partners c) : c.isCloser = true := by
  obtain ⟨b, hb, -, hclose⟩ := h
  exact ((bracket_of_isMark hb).2 hclose).2

theorem isPlain_of_kind {t : Token} (h : t.kind ≠ .mark) : t.IsPlain := by
  have hmark (texts : List String) : t.isMarkIn texts = false := by
    rw [isMarkIn, beq_eq_false_iff_ne.mpr h, Bool.false_and]
  exact ⟨hmark _, hmark _⟩

theorem isPlain_of_word {t : Token} (h : t.kind = .word) : t.IsPlain :=
  isPlain_of_kind (h ▸ nofun)

/-! ### Behind a token -/

theorem openBehind_plain {t : Token} (h : t.IsPlain) (k : List String) :
    t.openBehind k = some k := by
  unfold openBehind
  rw [closing?_eq_none h.1, h.2]
  rfl

theorem openBehind_opener {t : Token} {close : String} (h : t.closing? = some close)
    (k : List String) : t.openBehind k = some (close :: k) := by
  unfold openBehind
  rw [h]

theorem openBehind_closer {t : Token} {close : String} (hcloser : t.isCloser = true)
    (h : t.isMark close = true) (k : List String) : t.openBehind (close :: k) = some k := by
  unfold openBehind
  rw [closing?_eq_none (isOpener_of_isCloser hcloser), hcloser]
  exact if_pos h

/-- A token that may follow is plain, or opens a bracket, or closes the last one that is open. -/
theorem openBehind_cases {t : Token} {k k' : List String} (h : t.openBehind k = some k') :
    t.IsPlain ∧ k' = k ∨
      (∃ close, t.closing? = some close ∧ t.isOpener = true ∧ t.isCloser = false ∧
        k' = close :: k) ∨
      ∃ close, t.isMark close = true ∧ t.isOpener = false ∧ t.isCloser = true ∧
      k = close :: k' := by
  unfold openBehind at h
  split at h
  next close hclosing =>
    cases h
    obtain ⟨text, hb, hmark⟩ := closing?_eq_some hclosing
    obtain ⟨hopener, hcloser⟩ := (bracket_of_isMark hb).1 hmark
    exact .inr (.inl ⟨close, hclosing, hopener, hcloser, rfl⟩)
  next hclosing =>
    have hopener : t.isOpener = false := by
      rw [← Bool.not_eq_true]
      intro hopener
      obtain ⟨close, hclose⟩ := exists_closing? hopener
      rw [hclose] at hclosing
      cases hclosing
    split at h
    next hcloser =>
      split at h
      · cases h
      · split at h
        next hmark =>
          cases h
          exact .inr (.inr ⟨_, hmark, hopener, hcloser, rfl⟩)
        next => cases h
    next hcloser =>
      cases h
      exact .inl ⟨⟨hopener, Bool.not_eq_true _ ▸ hcloser⟩, rfl⟩

/-- Further brackets around those that are open do not count. -/
theorem openBehind_append {t : Token} {k k' : List String} (h : t.openBehind k = some k')
    (m : List String) : t.openBehind (k ++ m) = some (k' ++ m) := by
  rcases openBehind_cases h with ⟨hplain, rfl⟩ | ⟨close, hclosing, -, -, rfl⟩ |
    ⟨close, hmark, -, hcloser, rfl⟩
  · exact openBehind_plain hplain _
  · exact openBehind_opener hclosing _
  · exact openBehind_closer hcloser hmark _

end Token

/-! ## Nested tokens -/

/-- The open brackets behind the tokens, where `k` are open in front of them; none if a bracket is
closed by a mark of another kind, or is not open. -/
def openBehind (k : List String) (ts : List Token) : Option (List String) :=
  ts.foldlM Token.openBehind k

/-- Each bracket in the tokens is opened and closed in them, by marks of one kind. -/
def Nested (ts : List Token) : Prop := openBehind [] ts = some []

instance (ts : List Token) : Decidable (Nested ts) := inferInstanceAs (Decidable (_ = _))

section

variable {k k' m : List String} {t : Token} {ts us : List Token}

@[simp] theorem openBehind_nil : openBehind k [] = some k := rfl

theorem openBehind_cons : openBehind k (t :: ts) = (t.openBehind k).bind (openBehind · ts) := by
  rw [openBehind, List.foldlM_cons]
  rfl

theorem openBehind_append :
    openBehind k (ts ++ us) = (openBehind k ts).bind (openBehind · us) := by
  rw [openBehind, List.foldlM_append]
  rfl

theorem openBehind_cons_eq_some :
    openBehind k (t :: ts) = some k' ↔ ∃ j, t.openBehind k = some j ∧
    openBehind j ts = some k' := by
  rw [openBehind_cons, Option.bind_eq_some_iff]

theorem openBehind_append_eq_some :
    openBehind k (ts ++ us) = some k' ↔ ∃ j, openBehind k ts = some j ∧
    openBehind j us = some k' := by
  rw [openBehind_append, Option.bind_eq_some_iff]

/-- Further brackets around those that are open do not count. -/
theorem openBehind_frame (h : openBehind k ts = some k') (m : List String) :
    openBehind (k ++ m) ts = some (k' ++ m) := by
  induction ts generalizing k with
  | nil =>
      cases h
      rfl
  | cons t ts ih =>
      obtain ⟨j, ht, hts⟩ := openBehind_cons_eq_some.mp h
      exact openBehind_cons_eq_some.mpr ⟨j ++ m, Token.openBehind_append ht m, ih hts⟩

theorem Nested.openBehind_eq (h : Nested ts) (k : List String) : openBehind k ts = some k :=
  openBehind_frame h k

/-- Where a token does not close more brackets than `k`, those around them are open behind it. -/
theorem openBehind_of_cons {r : Option (List String)} (h : openBehind (k ++ m) (t :: ts) = r)
    (ht : t.openBehind k = some k') : openBehind (k' ++ m) ts = r := by
  rwa [openBehind_cons, Token.openBehind_append ht] at h

/-! ## Parts of a text -/

/-- The tokens `ts` begin with some that turn the open brackets `k` into `k'`, and go on with
`rest`. -/
def Crosses (k k' : List String) (ts rest : List Token) : Prop :=
  ∃ taken, ts = taken ++ rest ∧ openBehind k taken = some k'

/-- The tokens `rest` stand behind the mark `close`, in front of which the open brackets `k` are
closed. -/
def Shuts (k : List String) (close : String) (ts rest : List Token) : Prop :=
  ∃ inner c, ts = inner ++ c :: rest ∧ openBehind k inner = some [] ∧
    c.isMark close ∧ c.isCloser

theorem Crosses.refl (k : List String) (ts : List Token) : Crosses k k ts ts := ⟨[], rfl, rfl⟩

theorem Crosses.cons (ht : t.openBehind k = some k') {j : List String} {rest : List Token}
    (h : Crosses k' j ts rest) : Crosses k j (t :: ts) rest := by
  obtain ⟨taken, rfl, htaken⟩ := h
  exact ⟨t :: taken, rfl, openBehind_cons_eq_some.mpr ⟨k', ht, htaken⟩⟩

theorem Crosses.trans {j : List String} {rest : List Token} (h : Crosses k k' ts us)
    (h' : Crosses k' j us rest) : Crosses k j ts rest := by
  obtain ⟨taken, rfl, htaken⟩ := h
  obtain ⟨more, rfl, hmore⟩ := h'
  exact ⟨taken ++ more, (List.append_assoc _ _ _).symm,
    openBehind_append_eq_some.mpr ⟨k', htaken, hmore⟩⟩

theorem Crosses.frame (h : Crosses k k' ts us) (m : List String) :
    Crosses (k ++ m) (k' ++ m) ts us := by
  obtain ⟨taken, rfl, htaken⟩ := h
  exact ⟨taken, rfl, openBehind_frame htaken m⟩

theorem Crosses.openBehind_eq {r : Option (List String)} (h : Crosses k k' ts us)
    (hts : openBehind (k ++ m) ts = r) : openBehind (k' ++ m) us = r := by
  obtain ⟨taken, rfl, htaken⟩ := h
  rwa [openBehind_append, openBehind_frame htaken] at hts

theorem Shuts.cons {close : String} {rest : List Token} (ht : t.openBehind k = some k')
    (h : Shuts k' close ts rest) : Shuts k close (t :: ts) rest := by
  obtain ⟨inner, c, rfl, hinner, hc⟩ := h
  exact ⟨t :: inner, c, rfl, openBehind_cons_eq_some.mpr ⟨k', ht, hinner⟩, hc⟩

theorem Crosses.shuts {close : String} {rest : List Token} (h : Crosses k k' ts us)
    (h' : Shuts k' close us rest) : Shuts k close ts rest := by
  obtain ⟨taken, rfl, htaken⟩ := h
  obtain ⟨inner, c, rfl, hinner, hc⟩ := h'
  exact ⟨taken ++ inner, c, (List.append_assoc _ _ _).symm,
    openBehind_append_eq_some.mpr ⟨k', htaken, hinner⟩, hc⟩

theorem Shuts.crosses {close : String} (h : Shuts k close ts us) (m : List String) :
    Crosses (k ++ close :: m) m ts us := by
  obtain ⟨inner, c, rfl, hinner, hmark, hcloser⟩ := h
  refine ⟨inner ++ [c], by simp, openBehind_append_eq_some.mpr
    ⟨_, openBehind_frame hinner _, ?_⟩⟩
  exact openBehind_cons_eq_some.mpr ⟨m, Token.openBehind_closer hcloser hmark m, rfl⟩

/-- Each open bracket is closed where a nested text goes on. -/
theorem exists_shuts {close : String} (h : openBehind (k ++ close :: m) ts = some []) :
    ∃ rest, Shuts k close ts rest := by
  induction ts generalizing k with
  | nil =>
      rw [openBehind_nil, Option.some.injEq] at h
      exact absurd h (by simp)
  | cons t ts ih =>
      obtain ⟨j, ht, -⟩ := openBehind_cons_eq_some.mp h
      have hcons {k' : List String} (hstep : t.openBehind k = some k') :
          ∃ rest, Shuts k close (t :: ts) rest :=
        (ih (openBehind_of_cons h hstep)).imp fun rest ↦ .cons hstep
      rcases Token.openBehind_cases ht with ⟨hplain, rfl⟩ | ⟨inside, hclosing, -, -, rfl⟩ |
        ⟨last, hmark, -, hcloser, hk⟩
      · exact hcons (Token.openBehind_plain hplain k)
      · exact hcons (Token.openBehind_opener hclosing k)
      · cases k with
        | nil =>
            cases hk
            exact ⟨ts, [], t, rfl, rfl, hmark, hcloser⟩
        | cons inside k =>
            cases hk
            exact hcons (Token.openBehind_closer hcloser hmark k)

/-- A group is closed where the brackets in it are closed. -/
theorem closeGroup_of_openBehind {c : Token} (hc : c.isCloser = true) (after : List Token)
    (h : openBehind k ts = some []) :
    Parser.closeGroup k.length (ts ++ c :: after) = some (ts, c, after) := by
  induction ts generalizing k with
  | nil =>
      cases h
      simp [Parser.closeGroup, hc, Token.isOpener_of_isCloser hc]
  | cons t ts ih =>
      obtain ⟨j, ht, hts⟩ := openBehind_cons_eq_some.mp h
      have hmore := ih hts
      rcases Token.openBehind_cases ht with ⟨hplain, rfl⟩ | ⟨inside, -, hopener, -, rfl⟩ |
        ⟨last, -, hopener, hcloser, rfl⟩
      · simp [Parser.closeGroup, hplain.1, hplain.2, hmore]
      · rw [List.length_cons] at hmore
        simp [Parser.closeGroup, hopener, hmore]
      · simp [Parser.closeGroup, hopener, hcloser, hmore]

/-- The partner of a bracket is the first mark that closes what is not opened behind the bracket. -/
theorem Nested.partner_unique {inner inner' after after' : List Token} {c c' : Token}
    (h : Nested inner) (h' : Nested inner') (hc : c.isCloser = true) (hc' : c'.isCloser = true)
    (heq : inner ++ c :: after = inner' ++ c' :: after') :
    inner = inner' ∧ c = c' ∧ after = after' := by
  have hclose := closeGroup_of_openBehind hc after h
  rw [heq, closeGroup_of_openBehind hc' after' h'] at hclose
  cases hclose
  exact ⟨rfl, rfl, rfl⟩

/-- The number of groups that are open while an expression is passed over. -/
def groupsOpen : Option (Token × Nat) → Nat
  | none => 0
  | some (_, depth) => depth + 1

/-- An expression that is passed over in a nested text closes each bracket that it opens. -/
theorem crosses_of_expressionEnd {stops : List String} {lines : Bool}
    {group : Option (Token × Nat)} {last last' : Option Token} {rest : List Token}
    (h : Parser.expressionEnd stops lines group last ts = .ok (last', rest))
    (hts : openBehind (k ++ m) ts = some []) (hk : k.length = groupsOpen group) :
    Crosses k [] ts rest := by
  fun_induction Parser.expressionEnd stops lines group last ts generalizing k with
  | case1 last =>
      cases h
      cases List.length_eq_zero_iff.mp hk
      exact .refl [] []
  | case2 => cases h
  | case3 last t more =>
      cases h
      cases List.length_eq_zero_iff.mp hk
      exact .refl [] _
  | case4 last t more hstop ih =>
      cases List.length_eq_zero_iff.mp hk
      obtain ⟨j, ht, -⟩ := openBehind_cons_eq_some.mp hts
      rcases Token.openBehind_cases ht with ⟨hplain, -⟩ | ⟨close, hclosing, hopener, -, -⟩ |
        ⟨-, -, -, hcloser, -⟩
      · have hstep := Token.openBehind_plain hplain []
        exact .cons hstep (ih h (openBehind_of_cons hts hstep) (by simp [hplain.1, groupsOpen]))
      · have hstep := Token.openBehind_opener hclosing []
        exact .cons hstep (ih h (openBehind_of_cons hts hstep) (by simp [hopener, groupsOpen]))
      · simp [hcloser] at hstop
  | case5 opener depth last t more group =>
      rename_i ih
      obtain ⟨j, ht, -⟩ := openBehind_cons_eq_some.mp hts
      rcases Token.openBehind_cases ht with ⟨hplain, -⟩ | ⟨close, hclosing, hopener, -, -⟩ |
        ⟨close, hmark, hopener, hcloser, hclose⟩
      · have hstep := Token.openBehind_plain hplain k
        refine .cons hstep (ih h (openBehind_of_cons hts hstep) ?_)
        simp [group, hplain.1, hplain.2, hk]
      · have hstep := Token.openBehind_opener hclosing k
        refine .cons hstep (ih h (openBehind_of_cons hts hstep) ?_)
        simpa [group, hopener, groupsOpen] using hk
      · cases k with
        | nil => cases hk
        | cons inside k =>
            cases hclose
            have hstep := Token.openBehind_closer hcloser hmark k
            refine .cons hstep (ih h (openBehind_of_cons hts hstep) ?_)
            cases depth <;> simpa [group, hopener, hcloser, groupsOpen] using hk

end

end PluginSurface
