import PluginSurface.Proofs.Source.Lookahead

/-!
# Lexemes before other characters

A lexeme is the same before all characters that look alike, for its class is told by its first
characters and it is as long as it can be. A word and a number end where a blank or another mark
stands, and a mark is made longer by no character that is not a mark itself.

Main statement: `Scan.lexeme_factor`.
-/

namespace PluginSurface.Scan

open Text

/-! ## Numbers and marks -/

/-- The mark of a number in base sixteen. -/
def isHexMark (c : Char) : Bool := c == 'x' || c == 'X'

theorem startsHex_cons (c : Char) (rest : List Char) :
    startsHex (c :: rest) = (c == '0' && rest.head?.any isHexMark) := by
  cases rest with
  | nil =>
      rw [startsHex] <;> simp
  | cons d rest =>
      change _ = (c == '0' && (d == 'x' || d == 'X'))
      unfold startsHex
      split
      · rename_i heq
        cases heq
        rfl
      · rename_i heq
        cases heq
        rfl
      · rename_i hlower hupper
        symm
        rw [Bool.and_eq_false_iff, Bool.or_eq_false_iff, beq_eq_false_iff_ne, beq_eq_false_iff_ne,
          beq_eq_false_iff_ne]
        by_cases hc : c = '0'
        · subst hc
          refine .inr ⟨?_, ?_⟩
          · rintro rfl
            exact hlower rest rfl
          · rintro rfl
            exact hupper rest rfl
        · exact .inl hc

theorem goesOn_of_isDigit {isHex : Bool} {previous : Option Char} (c : Char) (h : c.isDigit) :
    goesOn isHex previous c := by
  rw [goesOn, isAsciiAlphanumeric, Char.isAlphanum, h, Bool.or_true]
  rfl

theorem goesOn_of_startsNumber {isHex : Bool} {c : Char} {rest : List Char}
    (h : (c.isDigit || (c == '.' && rest.head?.any Char.isDigit)) = true) :
    goesOn isHex none c := by
  rw [Bool.or_eq_true, Bool.and_eq_true, beq_iff_eq] at h
  rcases h with h | ⟨rfl, -⟩
  · exact goesOn_of_isDigit c h
  · rfl

theorem isHexMark_of_isBlank (c : Char) (h : isBlank c) : isHexMark c = false :=
  eq_false_of_isBlank (p := isHexMark) (by decide) h

theorem goesOn_of_isHexMark {isHex : Bool} {previous : Option Char} (c : Char) (h : isHexMark c) :
    goesOn isHex previous c := by
  simp only [isHexMark, Bool.or_eq_true, beq_iff_eq] at h
  rcases h with rfl | rfl <;> rfl

/-- What a number goes on with is seen from what it takes. -/
theorem head_numberTail {isHex : Bool} {previous : Option Char} {rest after : List Char}
    {p : Char → Bool} (hblank : ∀ c, isBlank c → p c = false)
    (hp : ∀ c, p c → goesOn isHex previous c)
    (h : LooksAlike (numberTail isHex previous rest).2 after) :
    ((numberTail isHex previous rest).1 ++ after).head?.any p = rest.head?.any p := by
  cases rest with
  | nil => exact h.head_false hblank rfl
  | cons c rest =>
      rw [numberTail_cons] at h ⊢
      split at h
      next hc =>
        rw [if_pos hc]
        rfl
      next hc =>
        rw [if_neg hc]
        have hfalse : p c = false := Bool.eq_false_iff.mpr fun hpc ↦ hc (hp c hpc)
        exact (h.head_false hblank hfalse).trans hfalse.symm

theorem markLength_le (cs : List Char) (hne : cs ≠ []) : markLength cs ≤ cs.length := by
  fun_cases markLength cs with
  | case7 => exact List.length_pos_of_ne_nil hne
  | case1 | case2 | case3 | case4 | case5 | case6 => simp

theorem markLength_question {after : List Char} (h : after.head?.any Char.isDigit = false) :
    markLength ('?' :: '.' :: after) = 2 := by
  cases after with
  | nil => rfl
  | cons c after =>
      have hc : c.isDigit = false := h
      rw [markLength, hc]
      rfl

theorem markLength_of_blank (c : Char) {b : Char} {rest : List Char} (hb : isBlank b) :
    markLength (c :: b :: rest) = 1 := by
  have hpoint := ne_of_isBlank hb (d := '.') (by decide)
  have harrow := ne_of_isBlank hb (d := '>') (by decide)
  have hquestion := ne_of_isBlank hb (d := '?') (by decide)
  rw [markLength] <;> simp [hpoint, harrow, hquestion]

/-- A mark is as long before other characters that look alike. -/
theorem markLength_alike {cs after : List Char} (hne : cs ≠ [])
    (h : LooksAlike (cs.drop (markLength cs)) after) :
    markLength (cs.take (markLength cs) ++ after) = markLength cs := by
  revert h
  fun_cases markLength cs with
  | case1 | case2 | case3 => exact fun _ ↦ rfl
  | case4 c tail hc =>
      intro h
      cases h with
      | blank hblank => exact markLength_of_blank '?' hblank
      | @cons _ _ after hdigit =>
          have hafter := hdigit rfl hc
          cases after with
          | nil => cases hafter
          | cons d after =>
              change markLength ('?' :: '.' :: d :: after) = 1
              rw [markLength]
              exact if_pos hafter
  | case5 c tail hc =>
      intro h
      exact markLength_question (h.head_false isDigit_of_isBlank (by simpa using hc))
  | case6 =>
      intro h
      exact markLength_question (h.head_false isDigit_of_isBlank rfl)
  | case7 cs hpoints harrow hdouble hoptional hlast =>
      intro h
      obtain ⟨c, rest, rfl⟩ := List.exists_cons_of_ne_nil hne
      change LooksAlike rest after at h
      change markLength (c :: after) = 1
      cases h with
      | blank hblank => exact markLength_of_blank c hblank
      | nil => rw [markLength] <;> simp
      | @cons d rest after hdigit hdot =>
          have hquestion : c = '?' → d ≠ '.' := by
            rintro rfl rfl
            cases rest with
            | nil => exact hlast rfl
            | cons e rest => exact hoptional e rest rfl
          rw [markLength]
          · rintro tail ⟨⟩
            obtain ⟨more, rfl⟩ := List.head?_eq_some_iff.mp (hdot rfl rfl)
            exact hpoints more rfl
          · rintro tail ⟨⟩
            exact harrow rest rfl
          · rintro tail ⟨⟩
            exact hdouble rest rfl
          · rintro e tail ⟨⟩
            exact hquestion rfl rfl
          · rintro ⟨⟩
            exact hquestion rfl rfl

/-! ## Lexemes -/

/-- The scanner takes the characters behind `c` as a lexeme before all that look
like those ahead. -/
def LexemeTakes (last : Option Token) (c : Char) (taken ahead : List Char) (kind : TokenKind)
    (text : String) : Prop :=
  ∀ size last' offset after, regexAllowed last' = regexAllowed last → LooksAlike ahead after →
    lexeme size last' offset c (taken ++ after) =
      .ok ⟨kind, text, ⟨offset + byteCount (c :: taken), after⟩⟩

section

variable {last : Option Token} {c : Char} {rest : List Char}

theorem takes_word (h : isNameStart c) :
    LexemeTakes last c (rest.takeWhile isNamePart) (rest.dropWhile isNamePart) .word
      (String.ofList (c :: rest.takeWhile isNamePart)) := by
  intro size last' offset after _ halike
  obtain ⟨htake, hdrop⟩ := span_alike isNamePart_of_isBlank halike
  rw [lexeme, if_pos h, htake, hdrop]
  rfl

theorem takes_privateName (h : (c == '#' && rest.head?.any isNameStart) = true) :
    LexemeTakes last c (rest.takeWhile isNamePart) (rest.dropWhile isNamePart) .privateName
      (String.ofList (c :: rest.takeWhile isNamePart)) := by
  intro size last' offset after _ halike
  obtain ⟨htake, hdrop⟩ := span_alike isNamePart_of_isBlank halike
  rw [Bool.and_eq_true, beq_iff_eq] at h
  obtain ⟨rfl, hrest⟩ := h
  have hhead : (rest.takeWhile isNamePart ++ after).head?.any isNameStart := by
    cases rest with
    | nil => cases hrest
    | cons d rest =>
        rw [List.takeWhile_cons_of_pos (isNamePart_of_isNameStart hrest)]
        exact hrest
  rw [lexeme, if_neg (by decide), hhead, htake, hdrop]
  rfl

theorem takes_number (hname : ¬ isNameStart c)
    (h : (c.isDigit || (c == '.' && rest.head?.any Char.isDigit)) = true) :
    LexemeTakes last c (numberTail (startsHex (c :: rest)) (some c) rest).1
      (numberTail (startsHex (c :: rest)) (some c) rest).2 .number
      (String.ofList (c :: (numberTail (startsHex (c :: rest)) (some c) rest).1)) := by
  intro size last' offset after _ halike
  have hdigit := head_numberTail isDigit_of_isBlank goesOn_of_isDigit halike
  have hhex := head_numberTail isHexMark_of_isBlank goesOn_of_isHexMark halike
  have hhash : c ≠ '#' := by
    rintro rfl
    cases h
  have hstart : startsHex (c :: ((numberTail (startsHex (c :: rest)) (some c) rest).1 ++ after)) =
      startsHex (c :: rest) := by
    rw [startsHex_cons, hhex, ← startsHex_cons]
  rw [lexeme, if_neg hname, if_neg (by simp [hhash]), hdigit, if_pos h, hstart, numberTail_cons,
    if_pos (goesOn_of_startsNumber h), numberTail_alike _ _ halike]
  rfl

theorem takes_string {offset : Nat} {value : List Char} {here : Here}
    (hc : (c == '"' || c == '\'') = true) (h : stringTail c offset rest = .ok (value, here)) :
    ∃ taken, rest = taken ++ here.ahead ∧
      LexemeTakes last c taken here.ahead .string (String.ofList value) := by
  obtain ⟨taken, hrest, htaken⟩ := stringTail_factor h
  refine ⟨taken, hrest, fun size last' offset' after _ _ ↦ ?_⟩
  have hother : isNameStart c = false ∧ c ≠ '#' ∧ c ≠ '.' ∧ c.isDigit = false ∧
      c.utf8Size = 1 := by
    rw [Bool.or_eq_true, beq_iff_eq, beq_iff_eq] at hc
    rcases hc with rfl | rfl <;> decide
  obtain ⟨hname, hhash, hpoint, hdigit, hsize⟩ := hother
  rw [lexeme, if_neg (by simp [hname]), if_neg (by simp [hhash]), if_neg (by simp [hdigit, hpoint]),
    if_pos hc, htaken, ← offset_cons, hsize]

theorem takes_template {size offset : Nat} {taken : List Char} {here : Here}
    (h : templateTail size [.template offset] (offset + 1) rest = .ok (taken, here)) :
    rest = taken ++ here.ahead ∧
      LexemeTakes last '`' taken here.ahead .template (String.ofList ('`' :: taken)) := by
  have hsound : AllSound [.template offset] :=
    allSound_cons.mpr ⟨trivial, List.forall_mem_nil _⟩
  obtain ⟨hrest, -, htaken⟩ := templateTail_factor hsound h
  refine ⟨hrest, fun size last' offset' after _ _ ↦ ?_⟩
  have hresult := htaken size [.template offset'] (offset' + 1) after (.cons (.template ..) .nil)
  rw [lexeme, if_neg (by decide), if_neg (by simp), if_neg (by simp),
    if_neg (by decide), if_pos (beq_self_eq_true _), hresult, ← offset_cons]
  rfl

theorem takes_regex {offset : Nat} {taken : List Char} {here : Here} (hlast : regexAllowed last)
    (h : regexTail false offset rest = .ok (taken, here)) :
    LexemeTakes last '/' (taken ++ here.ahead.takeWhile isNamePart)
      (here.ahead.dropWhile isNamePart) .regex
      (String.ofList ('/' :: taken ++ here.ahead.takeWhile isNamePart)) := by
  intro size last' offset' after hlast' halike
  obtain ⟨htake, hdrop⟩ := span_alike isNamePart_of_isBlank halike
  have htaken := regexTail_factor h (offset' + 1) (here.ahead.takeWhile isNamePart ++ after)
  rw [lexeme, if_neg (by decide), if_neg (by simp), if_neg (by simp),
    if_neg (by decide), if_neg (by decide), if_pos (by rw [hlast', hlast]; rfl), List.append_assoc,
    htaken]
  dsimp only
  rw [htake, hdrop]
  rfl

theorem takes_mark (hname : ¬ isNameStart c)
    (hprivate : ¬ (c == '#' && rest.head?.any isNameStart) = true)
    (hnumber : ¬ (c.isDigit || (c == '.' && rest.head?.any Char.isDigit)) = true)
    (hquote : ¬ (c == '"' || c == '\'') = true) (htick : ¬ (c == '`') = true)
    (hregex : ¬ (c == '/' && regexAllowed last) = true) :
    ∃ taken, (c :: rest).take (markLength (c :: rest)) = c :: taken ∧
      LexemeTakes last c taken ((c :: rest).drop (markLength (c :: rest))) .mark
        (String.ofList (c :: taken)) := by
  obtain ⟨n, hn⟩ : ∃ n, markLength (c :: rest) = n + 1 :=
    Nat.exists_eq_succ_of_ne_zero (markLength_ne_zero _)
  have hle := markLength_le (c :: rest) (List.cons_ne_nil c rest)
  refine ⟨rest.take n, by rw [hn]; rfl, fun size last' offset' after hlast' halike ↦ ?_⟩
  have hmark := markLength_alike (List.cons_ne_nil c rest) halike
  rw [hn] at halike hmark hle
  have htake : (rest.take n).length = n := List.length_take_of_le (Nat.le_of_succ_le_succ hle)
  change LooksAlike (rest.drop n) after at halike
  change markLength (c :: (rest.take n ++ after)) = n + 1 at hmark
  have hhead {p : Char → Bool} (hp : ∀ c, isBlank c → p c = false)
      (hrest : rest.head?.any p = false) : (rest.take n ++ after).head?.any p = false :=
    head_false_append halike hp (by rwa [List.take_append_drop])
  rw [lexeme, if_neg hname, if_neg, if_neg, if_neg hquote, if_neg htick, if_neg (by rwa [hlast']),
    hmark]
  · dsimp only
    rw [List.take_succ_cons, List.drop_succ_cons, List.take_left' htake, List.drop_left' htake]
    rfl
  · rw [Bool.not_eq_true, Bool.or_eq_false_iff, Bool.and_eq_false_iff] at hnumber ⊢
    exact hnumber.imp_right fun h ↦ h.imp_right (hhead isDigit_of_isBlank)
  · rw [Bool.not_eq_true, Bool.and_eq_false_iff] at hprivate ⊢
    exact hprivate.imp_right (hhead isNameStart_of_isBlank)

end

/-- A lexeme is the same wherever the text stands, before all that looks like what follows it. -/
theorem lexeme_factor {size : Nat} {last : Option Token} {offset : Nat} {c : Char}
    {rest : List Char} {l : Lexeme} (h : lexeme size last offset c rest = .ok l) :
    ∃ taken, rest = taken ++ l.here.ahead ∧
    LexemeTakes last c taken l.here.ahead l.kind l.text := by
  unfold lexeme at h
  split at h
  next hname =>
    cases h
    exact ⟨_, List.takeWhile_append_dropWhile.symm, takes_word hname⟩
  next hname =>
  split at h
  next hprivate =>
    cases h
    exact ⟨_, List.takeWhile_append_dropWhile.symm, takes_privateName hprivate⟩
  next hprivate =>
  split at h
  next hnumber =>
    rw [numberTail_cons, if_pos (goesOn_of_startsNumber hnumber)] at h
    cases h
    exact ⟨_, (numberTail_append _ _ rest).symm, takes_number hname hnumber⟩
  next hnumber =>
  split at h
  next hquote =>
    split at h
    next value here hvalue =>
      cases h
      exact takes_string hquote hvalue
    next => cases h
  next hquote =>
  split at h
  next htick =>
    obtain ⟨⟨taken, here⟩, hresult, rfl⟩ := except_map_eq_ok.mp h
    cases beq_iff_eq.mp htick
    exact ⟨taken, takes_template hresult⟩
  next htick =>
  split at h
  next hregex =>
    split at h
    next taken here htaken =>
      cases h
      rw [Bool.and_eq_true, beq_iff_eq] at hregex
      obtain ⟨rfl, hlast⟩ := hregex
      refine ⟨_, ?_, takes_regex hlast htaken⟩
      change rest = _ ++ here.ahead.dropWhile isNamePart
      rw [List.append_assoc, List.takeWhile_append_dropWhile]
      exact regexTail_append htaken
    next => cases h
  next hregex =>
    cases h
    obtain ⟨taken, htake, htakes⟩ := takes_mark hname hprivate hnumber hquote htick hregex
    rw [← htake] at htakes
    refine ⟨taken, ?_, htakes⟩
    have happend := List.take_append_drop (markLength (c :: rest)) (c :: rest)
    rw [htake] at happend
    exact (List.cons.inj happend).2.symm

/-- A point before a digit is not a lexeme of its own. -/
theorem lexeme_point {size : Nat} {last : Option Token} {offset : Nat} {ahead : List Char}
    (hdigit : ahead.head?.any Char.isDigit) {kind : TokenKind} {text : String} {stop : Nat} :
    lexeme size last offset '.' ahead ≠ .ok ⟨kind, text, ⟨stop, ahead⟩⟩ := by
  cases ahead with
  | nil => cases hdigit
  | cons d rest =>
      intro h
      have hd : d.isDigit = true := hdigit
      have hstarts :
          ('.'.isDigit || ('.' == '.' && (d :: rest).head?.any Char.isDigit)) = true := hd
      rw [lexeme, if_neg (by decide), if_neg (by simp), if_pos hstarts, numberTail_cons,
        if_pos (goesOn_of_startsNumber hstarts), numberTail_cons,
        if_pos (goesOn_of_isDigit d hd)] at h
      have hahead : (numberTail (startsHex ('.' :: d :: rest)) (some d) rest).2 = d :: rest :=
        congrArg (fun l ↦ l.here.ahead) (Except.ok.inj h)
      have hlength := congrArg List.length
        (numberTail_append (startsHex ('.' :: d :: rest)) (some d) rest)
      rw [hahead, List.length_append, List.length_cons] at hlength
      omega

end PluginSurface.Scan
