import Mathlib.Data.List.TakeWhile
import PluginSurface.Proofs.Source.Pieces

/-!
# How far a scanner looks ahead

A scanner stops where the characters ahead tell it to. It would have stopped there as well if a
blank stood ahead, or characters that look like those that did: the first one the same and, behind a
point, no other digits and points. What a scanner takes, it takes wherever the text stands.

Main statements: `Scan.gap_factor`, `Scan.stringTail_factor`, `Scan.templateTail_factor` and
`Scan.regexTail_factor`.
-/

namespace PluginSurface.Scan

open Text

/-- For a scanner that stops before the first characters, the second ones look no different: they
begin with a blank, or as the first ones do. -/
inductive LooksAlike : List Char → List Char → Prop
  | blank {a : List Char} {c : Char} {rest : List Char} (h : isBlank c) : LooksAlike a (c :: rest)
  | nil : LooksAlike [] []
  | cons {c : Char} {rest rest' : List Char}
      (hdigit : c = '.' → rest.head?.any Char.isDigit → rest'.head?.any Char.isDigit)
      (hdot : c = '.' → rest'.head? = some '.' → rest.head? = some '.') :
      LooksAlike (c :: rest) (c :: rest')

theorem LooksAlike.refl (a : List Char) : LooksAlike a a := by
  cases a with
  | nil => exact .nil
  | cons c rest => exact .cons (fun _ ↦ id) fun _ ↦ id

/-- Characters in front of which only blanks are inserted look alike. -/
theorem LooksAlike.append {blanks : List Char} (hblanks : ∀ c ∈ blanks, isBlank c)
    (a : List Char) : LooksAlike a (blanks ++ a) := by
  cases blanks with
  | nil => exact .refl a
  | cons c rest => exact .blank (hblanks c List.mem_cons_self)

/-- If no first character that satisfies `p` is ahead, none is where it looks alike. -/
theorem LooksAlike.head_false {a b : List Char} (h : LooksAlike a b) {p : Char → Bool}
    (hp : ∀ c, isBlank c → p c = false) (ha : a.head?.any p = false) :
    b.head?.any p = false := by
  cases h with
  | blank hblank => exact hp _ hblank
  | nil => rfl
  | cons => exact ha

/-- If no first character that satisfies `p` is ahead, none is where a part of it looks alike. -/
theorem head_false_append {taken ahead after : List Char} (h : LooksAlike ahead after)
    {p : Char → Bool} (hp : ∀ c, isBlank c → p c = false)
    (hhead : (taken ++ ahead).head?.any p = false) : (taken ++ after).head?.any p = false := by
  cases taken with
  | nil => exact h.head_false hp hhead
  | cons => exact hhead

/-- A first character that is no blank was ahead before as well. -/
theorem LooksAlike.head_eq {a b : List Char} (h : LooksAlike a b) {c : Char}
    (hc : isBlank c = false) (hb : b.head? = some c) : a.head? = some c := by
  cases h with
  | blank hblank =>
      cases hb
      rw [hc] at hblank
      cases hblank
  | nil => exact hb
  | cons => exact hb

theorem LooksAlike.of_ne_point {c : Char} (hc : c ≠ '.') (rest rest' : List Char) :
    LooksAlike (c :: rest) (c :: rest') :=
  .cons (fun h ↦ absurd h hc) fun h ↦ absurd h hc

/-! ## Blanks are not part of a lexeme -/

theorem isNamePart_of_isBlank (c : Char) (h : isBlank c) : isNamePart c = false :=
  eq_false_of_isBlank (by decide +kernel) h

theorem isNameStart_of_isBlank (c : Char) (h : isBlank c) : isNameStart c = false :=
  eq_false_of_isBlank (by decide +kernel) h

theorem isDigit_of_isBlank (c : Char) (h : isBlank c) : c.isDigit = false :=
  eq_false_of_isBlank (p := Char.isDigit) (by decide) h

/-- Whether a number goes on with the character. -/
def goesOn (isHex : Bool) (previous : Option Char) (c : Char) : Bool :=
  isAsciiAlphanumeric c || c == '_' || c == '.' ||
    ((c == '+' || c == '-') && !isHex && (previous == some 'e' || previous == some 'E'))

theorem goesOn_of_isBlank (isHex : Bool) (previous : Option Char) (c : Char) (h : isBlank c) :
    goesOn isHex previous c = false := by
  have halnum : isAsciiAlphanumeric c = false := eq_false_of_isBlank (by decide) h
  have hmark : (['_', '.', '+', '-'].contains c) = false :=
    eq_false_of_isBlank (p := (['_', '.', '+', '-'].contains ·)) (by decide) h
  simp at hmark
  simp [goesOn, halnum, hmark]

theorem ne_of_isBlank {c d : Char} (h : isBlank c) (hd : isBlank d = false) : c ≠ d := by
  rintro rfl
  rw [h] at hd
  cases hd

/-! ## Runs of characters -/

theorem span_alike {p : Char → Bool} (hp : ∀ c, isBlank c → p c = false)
    {rest after : List Char} (h : LooksAlike (rest.dropWhile p) after) :
    (rest.takeWhile p ++ after).takeWhile p = rest.takeWhile p ∧
      (rest.takeWhile p ++ after).dropWhile p = after := by
  have hstop : (rest.dropWhile p).head?.any p = false := by
    have hnot := List.head?_dropWhile_not p rest
    cases hhead : (rest.dropWhile p).head? with
    | none => rfl
    | some c => simpa [hhead] using hnot
  have hall : ∀ c ∈ rest.takeWhile p, p c := List.all_eq_true.mp List.all_takeWhile
  have hafter := h.head_false hp hstop
  rw [List.takeWhile_append_of_pos hall, List.dropWhile_append_of_pos hall]
  cases after with
  | nil => simp
  | cons c after =>
      have hc : p c = false := hafter
      simp [hc]

theorem numberTail_cons (isHex : Bool) (previous : Option Char) (c : Char) (rest : List Char) :
    numberTail isHex previous (c :: rest) =
      if goesOn isHex previous c then
        (c :: (numberTail isHex (some c) rest).1, (numberTail isHex (some c) rest).2)
      else ([], c :: rest) := rfl

theorem numberTail_stop {isHex : Bool} {previous : Option Char} {ahead : List Char}
    (h : ahead.head?.any (goesOn isHex previous) = false) :
    numberTail isHex previous ahead = ([], ahead) := by
  cases ahead with
  | nil => rfl
  | cons c rest =>
      have hc : goesOn isHex previous c = false := h
      rw [numberTail_cons, hc]
      rfl

theorem numberTail_alike (isHex : Bool) (previous : Option Char) {ahead after : List Char}
    (h : LooksAlike (numberTail isHex previous ahead).2 after) :
    numberTail isHex previous ((numberTail isHex previous ahead).1 ++ after) =
      ((numberTail isHex previous ahead).1, after) := by
  induction ahead generalizing previous with
  | nil => exact numberTail_stop (h.head_false (goesOn_of_isBlank isHex previous) rfl)
  | cons c rest ih =>
      rw [numberTail_cons] at h ⊢
      split at h
      next hc =>
        have hrest := ih (some c) h
        rw [if_pos hc, List.cons_append, numberTail_cons, if_pos hc, hrest]
      next hc =>
        rw [if_neg hc]
        exact numberTail_stop (h.head_false (goesOn_of_isBlank isHex previous)
          (Bool.eq_false_iff.mpr hc))

/-! ## Gaps -/

theorem offset_cons (offset : Nat) (c : Char) (taken : List Char) :
    offset + c.utf8Size + byteCount taken = offset + byteCount (c :: taken) :=
  Nat.add_assoc offset c.utf8Size (byteCount taken)

theorem offset_cons_cons (offset : Nat) (c d : Char) (taken : List Char) :
    offset + c.utf8Size + d.utf8Size + byteCount taken = offset + byteCount (c :: d :: taken) := by
  rw [offset_cons, offset_cons]

/-- Blanks at the end of a line comment do not change its directive. -/
theorem trimBlank_append {blanks : List Char} (hblanks : ∀ c ∈ blanks, isBlank c)
    (cs : List Char) : trimBlank (cs ++ blanks) = trimBlank cs := by
  have hall : blanks.dropWhile isBlank = [] := List.dropWhile_eq_nil_iff.mpr hblanks
  have hreverse : blanks.reverse.dropWhile isBlank = [] :=
    List.dropWhile_eq_nil_iff.mpr fun c hc ↦ hblanks c (List.mem_reverse.mp hc)
  unfold trimBlank
  rw [List.dropWhile_append]
  split
  next h =>
    rw [List.isEmpty_iff.mp h, hall]
  next h =>
    rw [List.reverse_append, List.dropWhile_append, hreverse]
    rfl

theorem addLineComment_blanks {blanks : List Char} (hblanks : ∀ c ∈ blanks, isBlank c) (g : Gap)
    (body : List Char) :
    g.addLineComment (blanks.reverse ++ body) = g.addLineComment body := by
  unfold Gap.addLineComment
  rw [List.reverse_append, List.reverse_reverse]
  cases body.reverse with
  | nil =>
      cases blanks with
      | nil => rfl
      | cons c blanks =>
          have hslash := ne_of_isBlank (hblanks c List.mem_cons_self) (d := '/') (by decide)
          simp [hslash]
  | cons c rest =>
      by_cases hc : c = '/'
      · subst hc
        simp [trimBlank_append hblanks]
      · simp [hc]

/-- A line comment goes on to the end of the text with the blanks there. -/
theorem gap_lineComment {cs : List Char} (hcs : '\n' ∉ cs) (size : Nat) (body : List Char)
    (g : Gap) (offset : Nat) :
    gap size (.lineComment body) g offset cs =
      .ok (g.addLineComment (cs.reverse ++ body), ⟨offset + byteCount cs, []⟩) := by
  induction cs generalizing body offset with
  | nil => rfl
  | cons c cs ih =>
      rw [gap, if_neg (List.ne_of_not_mem_cons hcs).symm, ih (List.not_mem_of_not_mem_cons hcs),
        List.reverse_cons, List.append_assoc, offset_cons]
      rfl

/-- The same scanner, maybe with another place for what it is inside of. -/
def GapMode.bare : GapMode → GapMode
  | .blockComment _ => .blockComment 0
  | mode => mode

/-- A gap is over where neither a blank nor a comment begins. -/
def endsGap : List Char → Bool
  | '/' :: '/' :: _ => false
  | '/' :: '*' :: _ => false
  | c :: _ => !isBlank c
  | [] => true

theorem endsGap_of_stops {c : Char} {rest : List Char}
    (hline : ∀ rest', c = '/' → rest = '/' :: rest' → False)
    (hblock : ∀ rest', c = '/' → rest = '*' :: rest' → False) (hblank : ¬ isBlank c) :
    endsGap (c :: rest) := by
  unfold endsGap
  split
  next rest' heq => exact (hline rest' (List.cons.inj heq).1 (List.cons.inj heq).2).elim
  next rest' heq => exact (hblock rest' (List.cons.inj heq).1 (List.cons.inj heq).2).elim
  next heq =>
    cases heq
    simpa using hblank
  next heq => cases heq

/-- The scanner takes the characters whatever follows them, and goes on in the second mode. -/
def Passes (mode : GapMode) (g : Gap) (taken : List Char) (mode' : GapMode) (g' : Gap) : Prop :=
  ∀ size start offset after, start.bare = mode.bare →
    gap size start g offset (taken ++ after) = gap size mode' g' (offset + byteCount taken) after

/-- The scanner stops before the characters with the given gap: between comments, or in a line
comment that goes on to the end of the text. -/
inductive Stops : GapMode → Gap → List Char → Gap → Prop
  | between {g : Gap} {after : List Char} (h : endsGap after) : Stops .between g after g
  | comment {g : Gap} (body : List Char) : Stops (.lineComment body) g [] (g.addLineComment body)

theorem gap_of_endsGap {after : List Char} (h : endsGap after) (size : Nat) (g : Gap)
    (offset : Nat) : gap size .between g offset after = .ok (g, ⟨offset, after⟩) := by
  unfold endsGap at h
  split at h
  · cases h
  · cases h
  next c rest hline hblock =>
    rw [Bool.not_eq_true'] at h
    rw [gap, h]
    · rfl
    · rintro rest' rfl rfl
      exact hline rest' rfl rfl
    · rintro rest' rfl rfl
      exact hblock rest' rfl rfl
  · rw [gap]

theorem Stops.gap_eq {mode : GapMode} {g g' : Gap} {after : List Char} (h : Stops mode g after g')
    (size offset : Nat) : gap size mode g offset after = .ok (g', ⟨offset, after⟩) := by
  cases h with
  | between hends => exact gap_of_endsGap hends size g offset
  | comment body => rfl

section

variable {g g' : Gap} {taken : List Char} {mode : GapMode}

theorem passes_nil (h : ∀ opened, mode ≠ .blockComment opened) : Passes mode g [] mode g := by
  intro size start offset after hstart
  cases mode with
  | between | lineComment =>
      cases start <;> cases hstart
      rfl
  | blockComment opened => exact absurd rfl (h opened)

theorem passes_nil_between : Passes .between g [] .between g := passes_nil nofun

theorem passes_nil_lineComment {body : List Char} :
    Passes (.lineComment body) g [] (.lineComment body) g := passes_nil nofun

theorem passes_slashes (h : Passes (.lineComment []) g taken mode g') :
    Passes .between g ('/' :: '/' :: taken) mode g' := by
  intro size start offset after hstart
  cases start <;> cases hstart
  rw [← offset_cons_cons]
  exact h size _ _ after rfl

theorem passes_slashStar {opened : Nat} (h : Passes (.blockComment opened) g taken mode g') :
    Passes .between g ('/' :: '*' :: taken) mode g' := by
  intro size start offset after hstart
  cases start <;> cases hstart
  rw [← offset_cons_cons]
  exact h size _ _ after rfl

theorem passes_blank {c : Char} (hc : isBlank c)
    (h : Passes .between { g with newline := g.newline || c == '\n' } taken mode g') :
    Passes .between g (c :: taken) mode g' := by
  intro size start offset after hstart
  cases start <;> cases hstart
  have hslash := ne_of_isBlank hc (d := '/') (by decide)
  rw [List.cons_append, gap, if_pos hc, ← offset_cons]
  · exact h size _ _ after rfl
  · simp [hslash]
  · simp [hslash]

theorem passes_append {taken' : List Char} {mode' : GapMode} {g'' : Gap}
    (h : Passes .between g taken mode g') (h' : Passes mode g' taken' mode' g'') :
    Passes .between g (taken ++ taken') mode' g'' := by
  intro size start offset after hstart
  rw [List.append_assoc, h size start offset _ hstart, h' size mode _ after rfl, byteCount_append,
    Nat.add_assoc]

/-- Blanks without a line feed leave a gap as it is. -/
theorem passes_blanks {blanks : List Char} (hblanks : ∀ c ∈ blanks, isBlank c ∧ c ≠ '\n')
    (g : Gap) : Passes .between g blanks .between g := by
  induction blanks with
  | nil => exact passes_nil_between
  | cons c blanks ih =>
      obtain ⟨⟨hblank, hline⟩, hblanks⟩ := List.forall_mem_cons.mp hblanks
      refine passes_blank hblank ?_
      have hnewline : (g.newline || c == '\n') = g.newline := by simp [hline]
      rw [hnewline]
      exact ih hblanks

theorem passes_lineEnd {body : List Char}
    (h : Passes .between { g.addLineComment body with newline := true } taken mode g') :
    Passes (.lineComment body) g ('\n' :: taken) mode g' := by
  intro size start offset after hstart
  cases start <;> cases hstart
  rw [← offset_cons]
  exact h size _ _ after rfl

theorem passes_lineChar {body : List Char} {c : Char} (hc : c ≠ '\n')
    (h : Passes (.lineComment (c :: body)) g taken mode g') :
    Passes (.lineComment body) g (c :: taken) mode g' := by
  intro size start offset after hstart
  cases start <;> cases hstart
  rw [List.cons_append, gap, if_neg hc, ← offset_cons]
  exact h size _ _ after rfl

theorem passes_starSlash {opened : Nat} (h : Passes .between g taken mode g') :
    Passes (.blockComment opened) g ('*' :: '/' :: taken) mode g' := by
  intro size start offset after hstart
  cases start <;> cases hstart
  rw [← offset_cons_cons]
  exact h size _ _ after rfl

/-- A block comment goes on behind a character, unless that ends it. No text ends in one. -/
theorem passes_blockChar {opened : Nat} {c : Char}
    (hend : ¬ ∃ rest, c :: taken = '*' :: '/' :: rest) (htaken : taken ≠ [])
    (h : Passes (.blockComment opened) { g with newline := g.newline || c == '\n' } taken mode g') :
    Passes (.blockComment opened) g (c :: taken) mode g' := by
  intro size start offset after hstart
  cases start <;> cases hstart
  obtain ⟨d, taken, rfl⟩ := List.exists_cons_of_ne_nil htaken
  rw [List.cons_append, gap, ← offset_cons]
  · exact h size _ _ after rfl
  · rintro rest' rfl heq
    exact hend ⟨taken, congrArg ('*' :: · :: taken) (List.cons.inj heq).1⟩

end

/-- A gap is passed over in the same way whatever follows it. -/
theorem gap_factor {size : Nat} {mode : GapMode} {g g' : Gap} {offset : Nat} {ahead : List Char}
    {here : Here} (h : gap size mode g offset ahead = .ok (g', here)) :
    ∃ taken last g₁, ahead = taken ++ here.ahead ∧ Passes mode g taken last g₁ ∧
      Stops last g₁ here.ahead g' := by
  fun_induction gap size mode g offset ahead with
  | case1 g =>
      cases h
      exact ⟨[], _, _, rfl, passes_nil_between, .between rfl⟩
  | case2 g offset rest ih =>
      obtain ⟨taken, last, g₁, rfl, hpasses, hstops⟩ := ih h
      exact ⟨_, last, g₁, rfl, passes_slashes hpasses, hstops⟩
  | case3 g offset rest ih =>
      obtain ⟨taken, last, g₁, rfl, hpasses, hstops⟩ := ih h
      exact ⟨_, last, g₁, rfl, passes_slashStar hpasses, hstops⟩
  | case4 g offset c rest _ _ hblank ih =>
      obtain ⟨taken, last, g₁, rfl, hpasses, hstops⟩ := ih h
      exact ⟨_, last, g₁, rfl, passes_blank hblank hpasses, hstops⟩
  | case5 g offset c rest hline hblock hblank =>
      cases h
      exact ⟨[], _, _, rfl, passes_nil_between, .between (endsGap_of_stops hline hblock hblank)⟩
  | case6 body g =>
      cases h
      exact ⟨[], _, _, rfl, passes_nil_lineComment, .comment body⟩
  | case7 body g offset rest ih =>
      obtain ⟨taken, last, g₁, rfl, hpasses, hstops⟩ := ih h
      exact ⟨_, last, g₁, rfl, passes_lineEnd hpasses, hstops⟩
  | case8 body g offset c rest hc ih =>
      obtain ⟨taken, last, g₁, rfl, hpasses, hstops⟩ := ih h
      exact ⟨_, last, g₁, rfl, passes_lineChar hc hpasses, hstops⟩
  | case9 => cases h
  | case10 opened g offset rest ih =>
      obtain ⟨taken, last, g₁, rfl, hpasses, hstops⟩ := ih h
      exact ⟨_, last, g₁, rfl, passes_starSlash hpasses, hstops⟩
  | case11 opened g offset c rest hend ih =>
      obtain ⟨taken, last, g₁, rfl, hpasses, hstops⟩ := ih h
      refine ⟨_, last, g₁, rfl, passes_blockChar ?_ ?_ hpasses, hstops⟩
      · rintro ⟨rest, heq⟩
        obtain ⟨rfl, rfl⟩ := List.cons.inj heq
        exact hend (rest ++ here.ahead) rfl rfl
      · rintro rfl
        have hopen := hpasses 0 (.blockComment 0) 0 [] rfl
        generalize here.ahead = after at hstops
        cases hstops <;> cases hopen

/-- A gap does not begin with a point. -/
theorem head_ne_point {mode : GapMode} {g g₁ g' : Gap} {taken after : List Char}
    (hpasses : Passes .between g taken mode g₁) (hstops : Stops mode g₁ after g') :
    taken.head? ≠ some '.' := by
  cases taken with
  | nil => nofun
  | cons c taken =>
      rintro ⟨⟩
      have hpoint := @gap_of_endsGap ('.' :: (taken ++ after)) rfl 0 g 0
      have hgap := hpasses 0 .between 0 after rfl
      rw [List.cons_append, hpoint, hstops.gap_eq] at hgap
      have hlength := congrArg (fun r ↦ r.2.ahead.length) (Except.ok.inj hgap)
      simp only [List.length_cons, List.length_append] at hlength
      omega

/-- Whether the character opens a comment behind a slash. -/
def opensComment (c : Char) : Bool := c == '/' || c == '*'

theorem endsGap_cons (c : Char) (rest : List Char) :
    endsGap (c :: rest) = (!isBlank c && !(c == '/' && rest.head?.any opensComment)) := by
  unfold endsGap
  split
  next heq =>
    cases heq
    rfl
  next heq =>
    cases heq
    rfl
  next hline hblock heq =>
    cases heq
    by_cases hc : c = '/'
    · subst hc
      cases rest with
      | nil => rfl
      | cons d rest =>
          have hd : opensComment d = false := by
            rw [opensComment, Bool.or_eq_false_iff, beq_eq_false_iff_ne, beq_eq_false_iff_ne]
            exact ⟨fun hd ↦ hline rest rfl (congrArg (· :: rest) hd),
              fun hd ↦ hblock rest rfl (congrArg (· :: rest) hd)⟩
          simp [hd]
    · simp [hc]
  next heq => cases heq

/-- Whether a gap ends before a character is told by that and the next one. -/
theorem endsGap_alike {c : Char} {taken ahead after : List Char}
    (h : endsGap (c :: (taken ++ ahead))) (halike : LooksAlike ahead after) :
    endsGap (c :: (taken ++ after)) := by
  have hblank (d : Char) (hd : isBlank d) : opensComment d = false :=
    eq_false_of_isBlank (p := opensComment) (by decide) hd
  rw [endsGap_cons, Bool.and_eq_true, Bool.not_eq_true', Bool.not_eq_true', Bool.and_eq_false_iff]
    at h ⊢
  exact ⟨h.1, h.2.imp_right (head_false_append halike hblank)⟩

/-! ## Literals -/

theorem ne_backslash {c : Char} {rest : List Char} (hlast : c = '\\' → rest = [] → False)
    (hescape : ∀ d more, c = '\\' → rest = d :: more → False) : c ≠ '\\' := by
  intro hc
  cases rest with
  | nil => exact hlast hc rfl
  | cons d more => exact hescape d more hc rfl

/-- What a string literal takes and denotes does not depend on what follows it. -/
theorem stringTail_factor {quote : Char} {offset : Nat} {ahead value : List Char} {here : Here}
    (h : stringTail quote offset ahead = .ok (value, here)) :
    ∃ taken, ahead = taken ++ here.ahead ∧ ∀ offset' after,
      stringTail quote offset' (taken ++ after) =
        .ok (value, ⟨offset' + byteCount taken, after⟩) := by
  fun_induction stringTail quote offset ahead generalizing value with
  | case1 | case2 => cases h
  | case3 offset c rest ih =>
      obtain ⟨⟨value, _⟩, hrest, heq⟩ := except_map_eq_ok.mp h
      cases heq
      obtain ⟨taken, rfl, htaken⟩ := ih hrest
      refine ⟨'\\' :: c :: taken, rfl, fun offset' after ↦ ?_⟩
      rw [List.cons_append, List.cons_append, stringTail, htaken, ← offset_cons_cons]
      rfl
  | case4 offset rest hlast hescape =>
      cases h
      have hslash := ne_backslash hlast hescape
      refine ⟨[quote], rfl, fun offset' after ↦ ?_⟩
      rw [List.singleton_append, stringTail, if_pos rfl]
      · rfl
      · exact fun heq _ ↦ hslash heq
      · exact fun _ _ heq _ ↦ hslash heq
  | case5 => cases h
  | case6 offset c rest hlast hescape hquote hline ih =>
      have hslash := ne_backslash hlast hescape
      obtain ⟨⟨value, _⟩, hrest, heq⟩ := except_map_eq_ok.mp h
      cases heq
      obtain ⟨taken, rfl, htaken⟩ := ih hrest
      refine ⟨c :: taken, rfl, fun offset' after ↦ ?_⟩
      rw [List.cons_append, stringTail, if_neg hquote, if_neg hline, htaken, offset_cons]
      · rfl
      · exact fun heq _ ↦ hslash heq
      · exact fun _ _ heq _ ↦ hslash heq

section

variable {ε : Type} {x : Except ε (List Char × Here)} {taken after : List Char} {offset : Nat}

theorem map_consTaken {c : Char}
    (h : x = .ok (taken, ⟨offset + c.utf8Size + byteCount taken, after⟩)) :
    x.map (consTaken c) = .ok (c :: taken, ⟨offset + byteCount (c :: taken), after⟩) := by
  rw [h, offset_cons]
  rfl

theorem map_consTaken_comp {c d : Char}
    (h : x = .ok (taken, ⟨offset + c.utf8Size + d.utf8Size + byteCount taken, after⟩)) :
    x.map (consTaken c ∘ consTaken d) =
      .ok (c :: d :: taken, ⟨offset + byteCount (c :: d :: taken), after⟩) := by
  rw [h, offset_cons_cons]
  rfl

end

/-- What a regular expression takes does not depend on what follows it. -/
theorem regexTail_factor {inClass : Bool} {offset : Nat} {ahead taken : List Char} {here : Here}
    (h : regexTail inClass offset ahead = .ok (taken, here)) (offset' : Nat) (after : List Char) :
    regexTail inClass offset' (taken ++ after) =
      .ok (taken, ⟨offset' + byteCount taken, after⟩) := by
  fun_induction regexTail inClass offset ahead generalizing taken offset' with
  | case1 => cases h
  | case2 inClass offset c rest ih =>
      obtain ⟨⟨inside, there⟩, hresult, heq⟩ := except_map_eq_ok.mp h
      obtain ⟨rfl, rfl⟩ := Prod.mk.inj heq
      change regexTail inClass offset' ('\\' :: c :: (inside ++ after)) = _
      rw [regexTail]
      exact map_consTaken_comp (ih hresult _)
  | case3 inClass offset c rest hslash hend =>
      cases h
      obtain ⟨rfl, hclass⟩ := hend
      rw [List.singleton_append, regexTail, if_pos ⟨rfl, hclass⟩]
      · rfl
      · simp
  | case4 => cases h
  | case5 inClass offset c rest hslash hend hline =>
      rename_i ih
      obtain ⟨⟨inside, there⟩, hresult, heq⟩ := except_map_eq_ok.mp h
      obtain ⟨rfl, rfl⟩ := Prod.mk.inj heq
      have hc : c ≠ '\\' := by
        rintro rfl
        cases rest with
        | nil => cases hresult
        | cons d more => exact hslash d more rfl rfl
      change regexTail inClass offset' (c :: (inside ++ after)) = _
      rw [regexTail, if_neg hend, if_neg hline]
      · exact map_consTaken (ih hresult _)
      · simp [hc]

/-- The frames differ at most in where the literals began that they stand for. -/
inductive Frame.Alike : Frame → Frame → Prop
  | template (start start' : Nat) : Alike (.template start) (.template start')
  | substitution (start start' depth : Nat) :
      Alike (.substitution start depth) (.substitution start' depth)
  | quoted (start start' : Nat) (quote : Char) : Alike (.quoted start quote) (.quoted start' quote)

/-- The frames behind the character `c` of a substitution, which stands at the offset. -/
def behindChar (offset start depth : Nat) (c : Char) (outer : List Frame) : List Frame :=
  if c = '\x7b' then .substitution start (depth + 1) :: outer
  else if c = '\x7d' then
    match depth with
    | 0 => outer
    | less + 1 => .substitution start less :: outer
  else if c = '"' ∨ c = '\'' then .quoted offset c :: .substitution start depth :: outer
  else if c = '`' then .template offset :: .substitution start depth :: outer
  else .substitution start depth :: outer

theorem templateTail_substitution (size start depth : Nat) (outer : List Frame) (offset : Nat)
    (c : Char) (rest : List Char) :
    templateTail size (.substitution start depth :: outer) offset (c :: rest) =
      (templateTail size (behindChar offset start depth c outer) (offset + c.utf8Size) rest).map
        (consTaken c) := by
  cases depth <;> rw [templateTail] <;> rfl

theorem behindChar_alike {offset offset' start start' depth : Nat} {c : Char}
    {outer outer' : List Frame} (h : List.Forall₂ Frame.Alike outer outer') :
    List.Forall₂ Frame.Alike (behindChar offset start depth c outer)
      (behindChar offset' start' depth c outer') := by
  have hsubstitution (depth : Nat) : List.Forall₂ Frame.Alike (.substitution start depth :: outer)
      (.substitution start' depth :: outer') := .cons (.substitution ..) h
  unfold behindChar
  split
  · exact hsubstitution _
  split
  · cases depth with
    | zero => exact h
    | succ less => exact hsubstitution less
  split
  · exact .cons (.quoted ..) (hsubstitution _)
  split
  · exact .cons (.template ..) (hsubstitution _)
  · exact hsubstitution _

/-- Inside the frames, the scanner takes the characters whatever follows them. -/
def TemplateTakes (frames : List Frame) (taken : List Char) : Prop :=
  ∀ size frames' offset after, List.Forall₂ Frame.Alike frames frames' →
    templateTail size frames' offset (taken ++ after) =
      .ok (taken, ⟨offset + byteCount taken, after⟩)

section

variable {outer : List Frame} {taken : List Char}

theorem takes_nil : TemplateTakes [] [] := by
  intro size frames offset after hframes
  cases hframes
  rw [List.nil_append, templateTail]
  rfl

theorem takes_escape {start : Nat} {c : Char} (h : TemplateTakes (.template start :: outer) taken) :
    TemplateTakes (.template start :: outer) ('\\' :: c :: taken) := by
  intro size frames offset after hframes
  have hrest := h size frames (offset + 1 + c.utf8Size) after hframes
  obtain ⟨_, _, hframe, -, rfl⟩ := List.forall₂_cons_left_iff.mp hframes
  cases hframe
  rw [List.cons_append, List.cons_append, templateTail]
  exact map_consTaken_comp hrest

theorem takes_dollar {start : Nat}
    (h : TemplateTakes (.substitution start 0 :: .template start :: outer) taken) :
    TemplateTakes (.template start :: outer) ('$' :: '\x7b' :: taken) := by
  intro size frames offset after hframes
  obtain ⟨_, _, hframe, houter, rfl⟩ := List.forall₂_cons_left_iff.mp hframes
  cases hframe
  rw [List.cons_append, List.cons_append, templateTail]
  exact map_consTaken_comp (h size _ (offset + 2) after (.cons (.substitution ..) hframes))

theorem takes_templateChar {start : Nat} {c : Char} (hslash : c ≠ '\\')
    (hdollar : ∀ rest, c = '$' → taken = '\x7b' :: rest → False)
    (hnil : c = '$' → taken ≠ [])
    (h : TemplateTakes (if c = '`' then outer else .template start :: outer) taken) :
    TemplateTakes (.template start :: outer) (c :: taken) := by
  intro size frames offset after hframes
  obtain ⟨_, _, hframe, houter, rfl⟩ := List.forall₂_cons_left_iff.mp hframes
  cases hframe
  rw [List.cons_append, templateTail]
  · refine map_consTaken (h size _ (offset + c.utf8Size) after ?_)
    split
    · exact houter
    · exact hframes
  · simp [hslash]
  · rintro rest rfl heq
    obtain ⟨d, taken, rfl⟩ := List.exists_cons_of_ne_nil (hnil rfl)
    exact hdollar taken rfl (congrArg (· :: taken) (List.cons.inj heq).1)

theorem takes_substitutionChar {start depth offset : Nat} {c : Char}
    (h : TemplateTakes (behindChar offset start depth c outer) taken) :
    TemplateTakes (.substitution start depth :: outer) (c :: taken) := by
  intro size frames offset' after hframes
  obtain ⟨_, _, hframe, houter, rfl⟩ := List.forall₂_cons_left_iff.mp hframes
  cases hframe
  rw [List.cons_append, templateTail_substitution]
  exact map_consTaken (h size _ (offset' + c.utf8Size) after (behindChar_alike houter))

theorem takes_quotedEscape {start : Nat} {quote c : Char}
    (h : TemplateTakes (.quoted start quote :: outer) taken) :
    TemplateTakes (.quoted start quote :: outer) ('\\' :: c :: taken) := by
  intro size frames offset after hframes
  have hrest := h size frames (offset + 1 + c.utf8Size) after hframes
  obtain ⟨_, _, hframe, -, rfl⟩ := List.forall₂_cons_left_iff.mp hframes
  cases hframe
  rw [List.cons_append, List.cons_append, templateTail]
  exact map_consTaken_comp hrest

theorem takes_quotedChar {start : Nat} {quote c : Char} (hslash : c ≠ '\\') (hline : c ≠ '\n')
    (h : TemplateTakes (if c = quote then outer else .quoted start quote :: outer) taken) :
    TemplateTakes (.quoted start quote :: outer) (c :: taken) := by
  intro size frames offset after hframes
  obtain ⟨_, _, hframe, houter, rfl⟩ := List.forall₂_cons_left_iff.mp hframes
  cases hframe
  rw [List.cons_append, templateTail, if_neg hline]
  · refine map_consTaken (h size _ (offset + c.utf8Size) after ?_)
    split
    · exact houter
    · exact hframes
  · simp [hslash]

end

/-- A backslash does not end a string literal. -/
def Frame.Sound : Frame → Prop
  | .quoted _ quote => quote ≠ '\\'
  | _ => True

def AllSound (frames : List Frame) : Prop := ∀ frame ∈ frames, frame.Sound

theorem allSound_cons {frame : Frame} {outer : List Frame} :
    AllSound (frame :: outer) ↔ frame.Sound ∧ AllSound outer := List.forall_mem_cons

theorem behindChar_sound {offset start depth : Nat} {c : Char} {outer : List Frame}
    (h : AllSound outer) : AllSound (behindChar offset start depth c outer) := by
  have hsubstitution (depth : Nat) : AllSound (.substitution start depth :: outer) :=
    allSound_cons.mpr ⟨trivial, h⟩
  unfold behindChar
  split
  · exact hsubstitution _
  split
  · cases depth with
    | zero => exact h
    | succ less => exact hsubstitution less
  split
  next hquote =>
    refine allSound_cons.mpr ⟨?_, hsubstitution _⟩
    rcases hquote with rfl | rfl <;> simp [Frame.Sound]
  split
  · exact allSound_cons.mpr ⟨trivial, hsubstitution _⟩
  · exact hsubstitution _

/-- What a template literal takes does not depend on what follows it. -/
theorem templateTail_factor {size : Nat} {frames : List Frame} {offset : Nat}
    {ahead taken : List Char} {here : Here} (hsound : AllSound frames)
    (h : templateTail size frames offset ahead = .ok (taken, here)) :
    ahead = taken ++ here.ahead ∧ (frames ≠ [] → taken ≠ []) ∧
    TemplateTakes frames taken := by
  fun_induction templateTail size frames offset ahead generalizing taken with
  | case1 =>
      cases h
      exact ⟨rfl, absurd rfl, takes_nil⟩
  | case2 frame outer offset => cases h
  | case3 start outer offset c rest ih =>
      obtain ⟨⟨inside, there⟩, hresult, heq⟩ := except_map_eq_ok.mp h
      obtain ⟨rfl, rfl⟩ := Prod.mk.inj heq
      obtain ⟨rfl, -, htaken⟩ := ih hsound hresult
      exact ⟨rfl, fun _ ↦ List.cons_ne_nil _ _, takes_escape htaken⟩
  | case4 start outer offset rest ih =>
      obtain ⟨⟨inside, there⟩, hresult, heq⟩ := except_map_eq_ok.mp h
      obtain ⟨rfl, rfl⟩ := Prod.mk.inj heq
      obtain ⟨rfl, -, htaken⟩ := ih (allSound_cons.mpr ⟨trivial, hsound⟩) hresult
      exact ⟨rfl, fun _ ↦ List.cons_ne_nil _ _, takes_dollar htaken⟩
  | case5 start outer offset c rest hslash hdollar inner =>
      rename_i ih
      obtain ⟨⟨inside, there⟩, hresult, heq⟩ := except_map_eq_ok.mp h
      obtain ⟨rfl, rfl⟩ := Prod.mk.inj heq
      have hinner : AllSound inner := by
        unfold inner
        split
        · exact (allSound_cons.mp hsound).2
        · exact hsound
      obtain ⟨rfl, hinside, htaken⟩ := ih hinner hresult
      refine ⟨rfl, fun _ ↦ List.cons_ne_nil _ _, takes_templateChar ?_ ?_ ?_ htaken⟩
      · rintro rfl
        obtain ⟨d, rest, rfl⟩ := List.exists_cons_of_ne_nil (hinside (List.cons_ne_nil _ _))
        exact hslash d _ rfl rfl
      · rintro rest hc rfl
        exact hdollar _ hc rfl
      · rintro rfl
        exact hinside (List.cons_ne_nil _ _)
  | case6 start depth outer offset c rest inner =>
      rename_i ih
      obtain ⟨⟨inside, there⟩, hresult, heq⟩ := except_map_eq_ok.mp h
      obtain ⟨rfl, rfl⟩ := Prod.mk.inj heq
      obtain ⟨rfl, -, htaken⟩ := ih (behindChar_sound (allSound_cons.mp hsound).2) hresult
      exact ⟨rfl, fun _ ↦ List.cons_ne_nil _ _, takes_substitutionChar htaken⟩
  | case7 start quote outer offset c rest ih =>
      obtain ⟨⟨inside, there⟩, hresult, heq⟩ := except_map_eq_ok.mp h
      obtain ⟨rfl, rfl⟩ := Prod.mk.inj heq
      obtain ⟨rfl, -, htaken⟩ := ih hsound hresult
      exact ⟨rfl, fun _ ↦ List.cons_ne_nil _ _, takes_quotedEscape htaken⟩
  | case8 start quote outer offset rest => cases h
  | case9 start quote outer offset c rest hslash hline inner =>
      rename_i ih
      obtain ⟨⟨inside, there⟩, hresult, heq⟩ := except_map_eq_ok.mp h
      obtain ⟨rfl, rfl⟩ := Prod.mk.inj heq
      obtain ⟨hquote, houter⟩ := allSound_cons.mp hsound
      have hinner : AllSound inner := by
        unfold inner
        split
        · exact houter
        · exact hsound
      obtain ⟨rfl, hinside, htaken⟩ := ih hinner hresult
      refine ⟨rfl, fun _ ↦ List.cons_ne_nil _ _, takes_quotedChar ?_ hline htaken⟩
      rintro rfl
      have hne : inner ≠ [] := by
        unfold inner
        rw [if_neg (Ne.symm hquote)]
        exact List.cons_ne_nil _ _
      obtain ⟨d, rest, rfl⟩ := List.exists_cons_of_ne_nil (hinside hne)
      exact hslash d _ rfl rfl

end PluginSurface.Scan
