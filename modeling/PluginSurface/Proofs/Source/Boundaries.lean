import PluginSurface.Source.Scan

/-!
# Spans lie on characters

Scanners hand on the offset of the first character ahead, so every offset they speak of stands
between two characters of the text. The span of a token is that of the characters it took, and the
span of an error is that of the characters from the opener that is not closed up to where this was
found out.
-/

namespace PluginSurface

theorem except_map_eq_ok {ε α β : Type} {f : α → β} {x : Except ε α} {b : β} :
    x.map f = .ok b ↔ ∃ a, x = .ok a ∧ f a = b := by
  cases x <;> simp [Except.map]

theorem except_map_eq_error {ε α β : Type} {f : α → β} {x : Except ε α} {e : ε} :
    x.map f = .error e ↔ x = .error e := by
  cases x <;> simp [Except.map]

/-- The span is that of a part of the text, from one character to another. -/
def Span.IsPartOf (s : Span) (text : List Char) : Prop :=
  ∃ front middle back, text = front ++ middle ++ back ∧
    s = ⟨byteCount front, byteCount (front ++ middle)⟩

theorem Span.IsPartOf.start_le_stop {s : Span} {text : List Char} (h : s.IsPartOf text) :
    s.start ≤ s.stop := by
  obtain ⟨front, middle, back, -, rfl⟩ := h
  simp

theorem Span.IsPartOf.stop_le {s : Span} {text : List Char} (h : s.IsPartOf text) :
    s.stop ≤ byteCount text := by
  obtain ⟨front, middle, back, rfl, rfl⟩ := h
  simp

/-- A span that is that of a part of the text is inside it. -/
theorem Span.IsPartOf.clamp_eq {s : Span} {text : List Char} (h : s.IsPartOf text) :
    s.clamp (byteCount text) = s := by
  have hstart := h.start_le_stop
  have hstop := h.stop_le
  obtain ⟨start, stop⟩ := s
  simp only [Span.clamp, Span.size, Span.mk.injEq] at hstart hstop ⊢
  omega

/-- The error is for a fault of the text, and its span is that of a part of the text. No text is at
fault for a repetition that stalls. -/
structure SyntaxError.IsIn (text : List Char) (e : SyntaxError) : Prop where
  fault : e.fault ≠ .stalled
  span : e.span.IsPartOf text

theorem SyntaxError.IsIn.clamp_eq {text : List Char} {e : SyntaxError} (h : e.IsIn text) :
    e.clamp (byteCount text) = e := by
  rw [clamp, h.span.clamp_eq]

theorem utf8ByteSize_ofList (cs : List Char) : (String.ofList cs).utf8ByteSize = byteCount cs := by
  induction cs with
  | nil => rfl
  | cons c cs ih =>
      rw [String.ofList_cons, String.utf8ByteSize_append, String.utf8ByteSize_singleton, ih,
        byteCount_cons]

theorem byteCount_toList (source : String) : byteCount source.toList = source.utf8ByteSize := by
  rw [← utf8ByteSize_ofList, String.ofList_toList]

namespace Scan

open Text

namespace Here

/-- The second place is behind characters that are ahead of the first one. -/
def Reaches (a b : Here) : Prop :=
  ∃ taken, a.ahead = taken ++ b.ahead ∧ b.offset = a.offset + byteCount taken

theorem Reaches.refl (a : Here) : a.Reaches a := ⟨[], rfl, rfl⟩

theorem Reaches.trans {a b c : Here} (h : a.Reaches b) (h' : b.Reaches c) : a.Reaches c := by
  obtain ⟨taken, hahead, hoffset⟩ := h
  obtain ⟨more, hahead', hoffset'⟩ := h'
  refine ⟨taken ++ more, ?_, ?_⟩
  · rw [hahead, hahead', List.append_assoc]
  · rw [hoffset', hoffset, byteCount_append, Nat.add_assoc]

theorem reaches_cons (offset : Nat) (c : Char) (rest : List Char) :
    Reaches ⟨offset, c :: rest⟩ ⟨offset + c.utf8Size, rest⟩ := ⟨[c], rfl, rfl⟩

theorem Reaches.offset_le {a b : Here} (h : a.Reaches b) : a.offset ≤ b.offset := by
  obtain ⟨taken, -, hoffset⟩ := h
  omega

theorem Reaches.length_le {a b : Here} (h : a.Reaches b) : b.ahead.length ≤ a.ahead.length := by
  obtain ⟨taken, hahead, -⟩ := h
  rw [hahead, List.length_append]
  omega

/-- The place before the text. -/
def outset (text : List Char) : Here := ⟨0, text⟩

/-- What stands between two places is a part of the text. -/
theorem Reaches.isPartOf {text : List Char} {a b : Here} (ha : (outset text).Reaches a)
    (h : a.Reaches b) : Span.IsPartOf ⟨a.offset, b.offset⟩ text := by
  obtain ⟨front, htext, hfront⟩ := ha
  obtain ⟨middle, hahead, hmiddle⟩ := h
  refine ⟨front, middle, b.ahead, ?_, ?_⟩
  · rw [List.append_assoc, ← hahead]
    exact htext
  · rw [hmiddle, hfront, byteCount_append]
    simp [outset]

end Here

/-- The scan ends at a place behind `a`, or with an error that satisfies `P`. -/
def Ends {ε α : Type} (a : Here) (P : ε → Prop) : Except ε (α × Here) → Prop
  | .ok (_, h) => a.Reaches h
  | .error e => P e

section

variable {ε α β : Type} {a b : Here} {P : ε → Prop} {x : Except ε (α × Here)}

theorem Ends.behind (h : Ends b P x) (hab : a.Reaches b) : Ends a P x := by
  cases x with
  | ok r => exact hab.trans h
  | error e => exact h

theorem Ends.map {f : α × Here → β × Here} (h : Ends a P x) (hf : ∀ r, (f r).2 = r.2) :
    Ends a P (x.map f) := by
  cases x with
  | ok r =>
      change a.Reaches (f r).2
      rw [hf]
      exact h
  | error e => exact h

end

/-! ## Errors -/

/-- An opener stands at the offset `start`, before `b`. -/
def Opened (text : List Char) (start : Nat) (b : Here) : Prop :=
  ∃ a, (Here.outset text).Reaches a ∧ a.Reaches b ∧ a.offset = start ∧ start < b.offset

theorem Opened.onward {text : List Char} {start : Nat} {b c : Here} (h : Opened text start b)
    (hbc : b.Reaches c) : Opened text start c := by
  obtain ⟨a, houtset, hab, rfl, hlt⟩ := h
  exact ⟨a, houtset, hab.trans hbc, rfl, Nat.lt_of_lt_of_le hlt hbc.offset_le⟩

/-- An error for an opener that is not closed covers what was read from it on. -/
theorem Opened.failure_isIn {text : List Char} {start : Nat} {b : Here} (h : Opened text start b)
    {fault : Fault} (hfault : fault ≠ .stalled) :
    (failure (byteCount text) fault start b.offset).IsIn text := by
  obtain ⟨a, houtset, hab, rfl, hlt⟩ := h
  have hpart := houtset.isPartOf hab
  have hstop := hpart.stop_le
  have hspan :
      (failure (byteCount text) fault a.offset b.offset).span = ⟨a.offset, b.offset⟩ := by
    change Span.mk a.offset _ = _
    congr 1
    dsimp only at hstop
    omega
  exact ⟨hfault, hspan ▸ hpart⟩

/-! ## Gaps -/

/-- What a gap scanner is inside of began before the place. -/
def GapMode.OpenedBefore (text : List Char) (b : Here) : GapMode → Prop
  | .blockComment start => Opened text start b
  | _ => True

theorem gap_ends {text : List Char} (mode : GapMode) (g : Gap) {offset : Nat} {ahead : List Char}
    (houtset : (Here.outset text).Reaches ⟨offset, ahead⟩)
    (hmode : mode.OpenedBefore text ⟨offset, ahead⟩) :
    Ends ⟨offset, ahead⟩ (SyntaxError.IsIn text)
      (gap (byteCount text) mode g offset ahead) := by
  fun_induction gap (byteCount text) mode g offset ahead with
  | case1 => exact .refl _
  | case2 g offset rest ih =>
      have hpast : Here.Reaches ⟨offset, '/' :: '/' :: rest⟩ ⟨offset + 2, rest⟩ :=
        ⟨['/', '/'], rfl, rfl⟩
      exact (ih (houtset.trans hpast) trivial).behind hpast
  | case3 g offset rest ih =>
      have hpast : Here.Reaches ⟨offset, '/' :: '*' :: rest⟩ ⟨offset + 2, rest⟩ :=
        ⟨['/', '*'], rfl, rfl⟩
      have hopened : Opened text offset ⟨offset + 2, rest⟩ :=
        ⟨_, houtset, hpast, rfl, Nat.lt_add_of_pos_right (by decide)⟩
      exact (ih (houtset.trans hpast) hopened).behind hpast
  | case4 g offset c rest _ _ _ ih =>
      have hpast := Here.reaches_cons offset c rest
      exact (ih (houtset.trans hpast) trivial).behind hpast
  | case5 => exact .refl _
  | case6 => exact .refl _
  | case7 body g offset rest ih =>
      have hpast : Here.Reaches ⟨offset, '\n' :: rest⟩ ⟨offset + 1, rest⟩ :=
        ⟨['\n'], rfl, rfl⟩
      exact (ih (houtset.trans hpast) trivial).behind hpast
  | case8 body g offset c rest _ ih =>
      have hpast := Here.reaches_cons offset c rest
      exact (ih (houtset.trans hpast) trivial).behind hpast
  | case9 start g offset => exact hmode.failure_isIn (by decide)
  | case10 start g offset rest ih =>
      have hpast : Here.Reaches ⟨offset, '*' :: '/' :: rest⟩ ⟨offset + 2, rest⟩ :=
        ⟨['*', '/'], rfl, rfl⟩
      exact (ih (houtset.trans hpast) trivial).behind hpast
  | case11 start g offset c rest _ ih =>
      have hpast := Here.reaches_cons offset c rest
      exact (ih (houtset.trans hpast) (hmode.onward hpast)).behind hpast

/-! ## Literals -/

theorem reaches_escape (offset : Nat) (c : Char) (rest : List Char) :
    Here.Reaches ⟨offset, '\\' :: c :: rest⟩ ⟨offset + 1 + c.utf8Size, rest⟩ :=
  ⟨['\\', c], rfl, Nat.add_assoc offset 1 c.utf8Size⟩

/-- The offset is that of a place behind `start`. -/
def StopsBehind (start : Here) (stop : Nat) : Prop := ∃ b, start.Reaches b ∧ b.offset = stop

theorem stringTail_ends {start : Here} (quote : Char) {offset : Nat} {ahead : List Char}
    (hstart : start.Reaches ⟨offset, ahead⟩) :
    Ends ⟨offset, ahead⟩ (StopsBehind start) (stringTail quote offset ahead) := by
  fun_induction stringTail quote offset ahead with
  | case1 offset => exact ⟨_, hstart, rfl⟩
  | case2 offset => exact ⟨⟨offset + 1, []⟩, hstart.trans ⟨['\\'], rfl, rfl⟩, rfl⟩
  | case3 offset c rest ih =>
      have hpast := reaches_escape offset c rest
      exact ((ih (hstart.trans hpast)).behind hpast).map fun _ ↦ rfl
  | case4 offset rest => exact Here.reaches_cons offset _ rest
  | case5 offset rest =>
      exact ⟨⟨offset + 1, rest⟩, hstart.trans ⟨['\n'], rfl, rfl⟩, rfl⟩
  | case6 offset c rest _ _ _ _ ih =>
      have hpast := Here.reaches_cons offset c rest
      exact ((ih (hstart.trans hpast)).behind hpast).map fun _ ↦ rfl

theorem regexTail_ends {start : Here} (inClass : Bool) {offset : Nat} {ahead : List Char}
    (hstart : start.Reaches ⟨offset, ahead⟩) :
    Ends ⟨offset, ahead⟩ (StopsBehind start) (regexTail inClass offset ahead) := by
  fun_induction regexTail inClass offset ahead with
  | case1 _ offset => exact ⟨_, hstart, rfl⟩
  | case2 inClass offset c rest ih =>
      have hpast := reaches_escape offset c rest
      exact ((ih (hstart.trans hpast)).behind hpast).map fun _ ↦ rfl
  | case3 inClass offset c rest _ h =>
      rw [h.1]
      exact ⟨['/'], rfl, rfl⟩
  | case4 inClass offset rest =>
      exact ⟨⟨offset + 1, rest⟩, hstart.trans ⟨['\n'], rfl, rfl⟩, rfl⟩
  | case5 inClass offset c rest _ _ _ _ ih =>
      have hpast := Here.reaches_cons offset c rest
      exact ((ih (hstart.trans hpast)).behind hpast).map fun _ ↦ rfl

theorem regexTail_append {inClass : Bool} {offset : Nat} {ahead taken : List Char} {here : Here}
    (h : regexTail inClass offset ahead = .ok (taken, here)) : ahead = taken ++ here.ahead := by
  fun_induction regexTail inClass offset ahead generalizing taken with
  | case1 => cases h
  | case2 inClass offset c rest ih =>
      obtain ⟨⟨inside, _⟩, hresult, heq⟩ := except_map_eq_ok.mp h
      cases heq
      exact congrArg ('\\' :: c :: ·) (ih hresult)
  | case3 inClass offset c rest =>
      cases h
      rfl
  | case4 => cases h
  | case5 inClass offset c rest =>
      rename_i ih
      obtain ⟨⟨inside, _⟩, hresult, heq⟩ := except_map_eq_ok.mp h
      cases heq
      exact congrArg (c :: ·) (ih hresult)

/-- Where the literal began that is reported when the text ends in it. -/
def Frame.start : Frame → Nat
  | template start => start
  | substitution start _ => start
  | quoted start _ => start

theorem Frame.failure_isIn {text : List Char} {frame : Frame} {b : Here}
    (h : Opened text frame.start b) :
    (frame.failure (byteCount text) b.offset).IsIn text := by
  cases frame <;> exact h.failure_isIn (by decide)

/-- The literals that a template scanner is inside of began before the place. -/
def AllOpened (text : List Char) (b : Here) (frames : List Frame) : Prop :=
  ∀ frame ∈ frames, Opened text frame.start b

theorem AllOpened.onward {text : List Char} {b c : Here} {frames : List Frame}
    (h : AllOpened text b frames) (hbc : b.Reaches c) : AllOpened text c frames :=
  fun frame hframe ↦ (h frame hframe).onward hbc

theorem allOpened_cons {text : List Char} {b : Here} {frame : Frame} {outer : List Frame} :
    AllOpened text b (frame :: outer) ↔ Opened text frame.start b ∧ AllOpened text b outer :=
  List.forall_mem_cons

theorem templateTail_ends {text : List Char} (frames : List Frame) {offset : Nat}
    {ahead : List Char} (houtset : (Here.outset text).Reaches ⟨offset, ahead⟩)
    (hframes : AllOpened text ⟨offset, ahead⟩ frames) :
    Ends ⟨offset, ahead⟩ (SyntaxError.IsIn text)
      (templateTail (byteCount text) frames offset ahead) := by
  fun_induction templateTail (byteCount text) frames offset ahead with
  | case1 => exact .refl _
  | case2 frame outer offset => exact Frame.failure_isIn (allOpened_cons.mp hframes).1
  | case3 start outer offset c rest ih =>
      have hpast := reaches_escape offset c rest
      exact ((ih (houtset.trans hpast) (hframes.onward hpast)).behind hpast).map fun _ ↦ rfl
  | case4 start outer offset rest ih =>
      have hpast : Here.Reaches ⟨offset, '$' :: '\x7b' :: rest⟩ ⟨offset + 2, rest⟩ :=
        ⟨['$', '\x7b'], rfl, rfl⟩
      have hframes := hframes.onward hpast
      have hinner : AllOpened text ⟨offset + 2, rest⟩
          (.substitution start 0 :: .template start :: outer) :=
        allOpened_cons.mpr ⟨(allOpened_cons.mp hframes).1, hframes⟩
      exact ((ih (houtset.trans hpast) hinner).behind hpast).map fun _ ↦ rfl
  | case5 start outer offset c rest _ _ inner ih =>
      have hpast := Here.reaches_cons offset c rest
      have hframes := hframes.onward hpast
      have hinner : AllOpened text ⟨offset + c.utf8Size, rest⟩ inner := by
        unfold inner
        split
        · exact (allOpened_cons.mp hframes).2
        · exact hframes
      exact ((ih (houtset.trans hpast) hinner).behind hpast).map fun _ ↦ rfl
  | case6 start depth outer offset c rest inner ih =>
      have hpast := Here.reaches_cons offset c rest
      have hframes := hframes.onward hpast
      obtain ⟨hstart, houter⟩ := allOpened_cons.mp hframes
      have hoffset : Opened text offset ⟨offset + c.utf8Size, rest⟩ :=
        ⟨_, houtset, hpast, rfl, Nat.lt_add_of_pos_right c.utf8Size_pos⟩
      have hinner : AllOpened text ⟨offset + c.utf8Size, rest⟩ inner := by
        unfold inner
        split
        · exact allOpened_cons.mpr ⟨hstart, houter⟩
        split
        · split
          · exact houter
          · exact allOpened_cons.mpr ⟨hstart, houter⟩
        split
        · exact allOpened_cons.mpr ⟨hoffset, hframes⟩
        split
        · exact allOpened_cons.mpr ⟨hoffset, hframes⟩
        · exact hframes
      exact ((ih (houtset.trans hpast) hinner).behind hpast).map fun _ ↦ rfl
  | case7 start quote outer offset c rest ih =>
      have hpast := reaches_escape offset c rest
      exact ((ih (houtset.trans hpast) (hframes.onward hpast)).behind hpast).map fun _ ↦ rfl
  | case8 start quote outer offset rest =>
      have hpast : Here.Reaches ⟨offset, '\n' :: rest⟩ ⟨offset + 1, rest⟩ :=
        ⟨['\n'], rfl, rfl⟩
      exact ((allOpened_cons.mp hframes).1.onward hpast).failure_isIn (by decide)
  | case9 start quote outer offset c rest _ _ inner ih =>
      have hpast := Here.reaches_cons offset c rest
      have hframes := hframes.onward hpast
      have hinner : AllOpened text ⟨offset + c.utf8Size, rest⟩ inner := by
        unfold inner
        split
        · exact (allOpened_cons.mp hframes).2
        · exact hframes
      exact ((ih (houtset.trans hpast) hinner).behind hpast).map fun _ ↦ rfl

/-! ## Lexemes -/

theorem numberTail_append (isHex : Bool) (previous : Option Char) (ahead : List Char) :
    (numberTail isHex previous ahead).1 ++ (numberTail isHex previous ahead).2 = ahead := by
  fun_induction numberTail isHex previous ahead with
  | case1 => rfl
  | case2 previous c rest _ taken more h ih =>
      rw [h] at ih
      exact congrArg (c :: ·) ih
  | case3 => rfl

theorem plain_reaches {kind : TokenKind} {offset : Nat} {c : Char} (taken : List Char)
    {rest more : List Char} (h : rest = taken ++ more) :
    Here.Reaches ⟨offset + c.utf8Size, rest⟩
      (Lexeme.plain kind offset (c :: taken) more).here :=
  ⟨taken, h, (Nat.add_assoc ..).symm⟩

theorem dropWhile_reaches {kind : TokenKind} {offset : Nat} {c : Char} {rest : List Char}
    (p : Char → Bool) :
    Here.Reaches ⟨offset + c.utf8Size, rest⟩
      (Lexeme.plain kind offset (c :: rest.takeWhile p) (rest.dropWhile p)).here :=
  plain_reaches _ List.takeWhile_append_dropWhile.symm

theorem markLength_ne_zero (cs : List Char) : markLength cs ≠ 0 := by
  unfold markLength
  split <;> try decide
  split <;> decide

/-- The lexeme ends behind its first character. -/
theorem lexeme_ends {text : List Char} (last : Option Token) {offset : Nat} {c : Char}
    {rest : List Char} (houtset : (Here.outset text).Reaches ⟨offset, c :: rest⟩) :
    Ends ⟨offset + c.utf8Size, rest⟩ (SyntaxError.IsIn text)
      ((lexeme (byteCount text) last offset c rest).map fun l ↦ (l, l.here)) := by
  have hfirst := Here.reaches_cons offset c rest
  have hopened : Opened text offset ⟨offset + c.utf8Size, rest⟩ :=
    ⟨_, houtset, hfirst, rfl, Nat.lt_add_of_pos_right c.utf8Size_pos⟩
  unfold lexeme
  split
  · exact dropWhile_reaches isNamePart
  split
  · exact dropWhile_reaches isNamePart
  split
  next h =>
    have hstarts : isAsciiAlphanumeric c || c == '_' || c == '.' ||
        ((c == '+' || c == '-') && !startsHex (c :: rest) &&
          (none == some 'e' || none == some 'E')) := by
      rw [Bool.or_eq_true, Bool.and_eq_true] at h
      rcases h with h | ⟨h, -⟩
      · rw [isAsciiAlphanumeric, Char.isAlphanum, h, Bool.or_true]
        rfl
      · rw [h, Bool.or_true]
        rfl
    rw [numberTail, if_pos hstarts]
    exact plain_reaches _ (numberTail_append (startsHex (c :: rest)) (some c) rest).symm
  split
  next h =>
    have hsize : c.utf8Size = 1 := by
      rw [Bool.or_eq_true, beq_iff_eq, beq_iff_eq] at h
      rcases h with rfl | rfl <;> rfl
    rw [hsize] at hopened ⊢
    have htail := stringTail_ends c (Here.Reaches.refl ⟨offset + 1, rest⟩)
    split
    next value here hvalue =>
      rw [hvalue] at htail
      exact htail
    next stop hstop =>
      rw [hstop] at htail
      obtain ⟨b, hb, rfl⟩ := htail
      exact (hopened.onward hb).failure_isIn (by decide)
  split
  next h =>
    rw [beq_iff_eq] at h
    subst h
    have htail := templateTail_ends [.template offset] (houtset.trans hfirst)
      (allOpened_cons.mpr ⟨hopened, nofun⟩)
    cases hresult : templateTail (byteCount text) [.template offset] (offset + 1) rest with
    | ok r => exact (congrArg (Ends _ _) hresult).mp htail
    | error e => exact (congrArg (Ends _ _) hresult).mp htail
  split
  next h =>
    rw [Bool.and_eq_true, beq_iff_eq] at h
    rw [h.1] at hopened ⊢
    split
    next taken here htaken =>
      refine plain_reaches (taken ++ here.ahead.takeWhile isNamePart) ?_
      rw [regexTail_append htaken, List.append_assoc, List.takeWhile_append_dropWhile]
    next stop hstop =>
      have htail := regexTail_ends false (Here.Reaches.refl ⟨offset + 1, rest⟩)
      rw [hstop] at htail
      obtain ⟨b, hb, rfl⟩ := htail
      exact (hopened.onward hb).failure_isIn (by decide)
  · obtain ⟨n, hn⟩ := Nat.exists_eq_succ_of_ne_zero (markLength_ne_zero (c :: rest))
    rw [hn]
    exact plain_reaches _ (List.take_append_drop n rest).symm

/-! ## Whole texts -/

theorem tokens_isPartOf {text : List Char} {rounds : List Char} {found : List Token}
    {directives : List String} {here : Here} (houtset : (Here.outset text).Reaches here)
    (hfound : ∀ t ∈ found, t.span.IsPartOf text) :
    (∀ ts ds, tokens (byteCount text) rounds found directives here = .ok (ts, ds) →
        ∀ t ∈ ts, t.span.IsPartOf text) ∧
      ∀ e, tokens (byteCount text) rounds found directives here = .error e → e.IsIn text := by
  induction rounds generalizing found directives here with
  | nil =>
      refine ⟨?_, nofun⟩
      rintro _ _ ⟨⟩ t ht
      exact hfound t (List.mem_reverse.mp ht)
  | cons _ rounds ih =>
      have hgap := gap_ends .between ⟨false, directives⟩ houtset trivial
      simp only [tokens]
      split
      next e he =>
        rw [he] at hgap
        refine ⟨nofun, ?_⟩
        rintro _ ⟨⟩
        exact hgap
      next g offset hg =>
        refine ⟨?_, nofun⟩
        rintro _ _ ⟨⟩ t ht
        exact hfound t (List.mem_reverse.mp ht)
      next g start c rest hg =>
        rw [hg] at hgap
        have hstart := houtset.trans hgap
        have hlexeme := lexeme_ends found.head? hstart
        split
        next e he =>
          rw [he] at hlexeme
          refine ⟨nofun, ?_⟩
          rintro _ ⟨⟩
          exact hlexeme
        next l hl =>
          rw [hl] at hlexeme
          have hpast := (Here.reaches_cons start c rest).trans hlexeme
          refine ih (hstart.trans hpast) fun t ht ↦ ?_
          rcases List.mem_cons.mp ht with rfl | ht
          · exact hstart.isPartOf hpast
          · exact hfound t ht

theorem tokens_of_ahead_eq_nil {size : Nat} {rounds : List Char} {found : List Token}
    {directives : List String} {here : Here} (h : here.ahead = []) :
    tokens size rounds found directives here = .ok (found.reverse, directives.reverse) := by
  cases rounds with
  | nil => rfl
  | cons =>
      rw [tokens, h]
      rfl

/-- Each round takes a character, so it does not matter how many rounds there are, as long as they
are no fewer than characters. -/
theorem tokens_eq {text : List Char} {rounds more : List Char} {found : List Token}
    {directives : List String} {here : Here} (houtset : (Here.outset text).Reaches here)
    (hrounds : here.ahead.length ≤ rounds.length) (hmore : here.ahead.length ≤ more.length) :
    tokens (byteCount text) rounds found directives here =
      tokens (byteCount text) more found directives here := by
  induction rounds generalizing more found directives here with
  | nil =>
      have hnil := List.length_eq_zero_iff.mp (Nat.le_zero.mp hrounds)
      rw [tokens_of_ahead_eq_nil hnil, tokens_of_ahead_eq_nil hnil]
  | cons _ rounds ih =>
      cases more with
      | nil =>
          have hnil := List.length_eq_zero_iff.mp (Nat.le_zero.mp hmore)
          rw [tokens_of_ahead_eq_nil hnil, tokens_of_ahead_eq_nil hnil]
      | cons _ more =>
          have hgap := gap_ends .between ⟨false, directives⟩ houtset trivial
          simp only [tokens]
          split
          · rfl
          · rfl
          next g start c rest hg =>
            rw [hg] at hgap
            have hstart := houtset.trans hgap
            have hlexeme := lexeme_ends found.head? hstart
            split
            · rfl
            next l hl =>
              rw [hl] at hlexeme
              have hpast := (Here.reaches_cons start c rest).trans hlexeme
              have hgap : (c :: rest).length ≤ here.ahead.length := hgap.length_le
              have hlength : l.here.ahead.length ≤ rest.length := hlexeme.length_le
              rw [List.length_cons] at hgap hrounds hmore
              exact ih (hstart.trans hpast) (by omega) (by omega)

end Scan

theorem Lexed.tokens_isPartOf {source : String} {l : Lexed} (h : Lexed.ofSource source = .ok l) :
    ∀ t ∈ l.tokens ++ [l.finish], t.span.IsPartOf source.toList := by
  obtain ⟨⟨ts, ds⟩, htokens, rfl⟩ := except_map_eq_ok.mp h
  rw [← byteCount_toList] at htokens
  intro t ht
  rcases List.mem_append.mp ht with ht | ht
  · exact (Scan.tokens_isPartOf (.refl _) (List.forall_mem_nil _)).1 ts ds htokens t ht
  · rw [List.mem_singleton.mp ht]
    refine ⟨source.toList, [], [], by simp, ?_⟩
    rw [List.append_nil, byteCount_toList]
    rfl

/-- More rounds than characters do not find more tokens. -/
theorem Lexed.tokens_ofSource {source : String} {rounds : List Char}
    (h : source.toList.length ≤ rounds.length) :
    Scan.tokens source.utf8ByteSize rounds [] [] ⟨0, source.toList⟩ =
      (Lexed.ofSource source).map fun l ↦ (l.tokens, l.directives) := by
  have heq :=
    @Scan.tokens_eq source.toList rounds source.toList [] [] (Scan.Here.outset source.toList)
    (.refl _) h (Nat.le_refl _)
  rw [byteCount_toList] at heq
  refine heq.trans ?_
  unfold Lexed.ofSource Scan.Here.outset
  dsimp only
  cases Scan.tokens source.utf8ByteSize source.toList [] [] ⟨0, source.toList⟩ <;> rfl

theorem Lexed.error_isIn {source : String} {e : SyntaxError}
    (h : Lexed.ofSource source = .error e) : e.IsIn source.toList := by
  unfold Lexed.ofSource at h
  rw [← byteCount_toList] at h
  exact (Scan.tokens_isPartOf (.refl _) (List.forall_mem_nil _)).2 e (except_map_eq_error.mp h)

end PluginSurface
