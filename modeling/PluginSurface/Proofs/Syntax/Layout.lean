import PluginSurface.Proofs.Source.Lexemes
import PluginSurface.Proofs.Syntax.StatementPlaces

/-!
# Blanks between tokens

Blanks without a line feed that are inserted before or behind a token leave the tokens as they are,
but for their places, and so the tree that they are read as.

The scan is followed token by token. Before the insertion, each token is the same since what is
ahead looks alike; that it does is known from the tokens behind it, so the induction shows both at
once.
-/

namespace PluginSurface

namespace Scan

open Text

/-! ## The scan as a run -/

/-- From `here` on, behind the token `last` and the directives found so far, last one first, the
tokens follow, and in the end there are the directives `all`. -/
inductive Run (size : Nat) :
    Option Token → List String → Here → List Token → List String → Prop
  | done {last : Option Token} {directives : List String} {here : Here} {g : Gap} {offset : Nat}
      (hgap : gap size .between ⟨false, directives⟩ here.offset here.ahead =
        .ok (g, ⟨offset, []⟩)) :
      Run size last directives here [] g.reversedDirectives.reverse
  | token {last : Option Token} {directives : List String} {here : Here} {g : Gap} {start : Nat}
      {c : Char} {rest : List Char} {l : Lexeme} {ts : List Token} {all : List String}
      (hgap : gap size .between ⟨false, directives⟩ here.offset here.ahead =
        .ok (g, ⟨start, c :: rest⟩))
      (hlexeme : lexeme size last start c rest = .ok l)
      (hrest : Run size (some ⟨l.kind, l.text, ⟨start, l.here.offset⟩, g.newline⟩)
        g.reversedDirectives l.here ts all) :
      Run size last directives here
        (⟨l.kind, l.text, ⟨start, l.here.offset⟩, g.newline⟩ :: ts) all

/-- What stands ahead of a token, read off the gap before it. -/
theorem gap_token {size : Nat} {g₀ g : Gap} {offset start : Nat} {ahead : List Char} {c : Char}
    {rest : List Char} (h : gap size .between g₀ offset ahead = .ok (g, ⟨start, c :: rest⟩)) :
    ∃ taken, ahead = taken ++ c :: rest ∧ start = offset + byteCount taken ∧
      Passes .between g₀ taken .between g ∧ endsGap (c :: rest) := by
  obtain ⟨taken, last, g₁, rfl, hpasses, hstops⟩ := gap_factor h
  cases hstops with
  | between hends =>
      refine ⟨taken, rfl, ?_, hpasses, hends⟩
      rw [hpasses size _ offset _ rfl, gap_of_endsGap hends] at h
      cases h
      rfl

theorem lexeme_token {size : Nat} {last : Option Token} {start : Nat} {c : Char} {rest : List Char}
    {l : Lexeme} (h : lexeme size last start c rest = .ok l) :
    ∃ taken, rest = taken ++ l.here.ahead ∧ l.here.offset = start + byteCount (c :: taken) ∧
      LexemeTakes last c taken l.here.ahead l.kind l.text := by
  obtain ⟨taken, hrest, htakes⟩ := lexeme_factor h
  refine ⟨taken, hrest, ?_, htakes⟩
  rw [hrest, htakes size last start _ rfl (.refl _)] at h
  exact (congrArg (fun l ↦ l.here.offset) (Except.ok.inj h)).symm

theorem run_of_tokens {size : Nat} {rounds : List Char} {found : List Token}
    {directives : List String} {here : Here} {ts : List Token} {all : List String}
    (h : tokens size rounds found directives here = .ok (ts, all))
    (hrounds : here.ahead.length ≤ rounds.length) :
    ∃ more, ts = found.reverse ++ more ∧ Run size found.head? directives here more all := by
  induction rounds generalizing found directives here with
  | nil =>
      have hnil := List.length_eq_zero_iff.mp (Nat.le_zero.mp hrounds)
      rw [tokens_of_ahead_eq_nil hnil] at h
      cases h
      have hgap : gap size .between ⟨false, directives⟩ here.offset here.ahead =
          .ok (⟨false, directives⟩, ⟨here.offset, []⟩) := by rw [hnil, gap]
      exact ⟨[], (List.append_nil _).symm, .done hgap⟩
  | cons _ rounds ih =>
      rw [tokens] at h
      split at h
      · cases h
      next g offset hgap =>
        cases h
        exact ⟨[], (List.append_nil _).symm, .done hgap⟩
      next g start c rest hgap =>
        split at h
        · cases h
        next l hl =>
          obtain ⟨gapTaken, hahead, -⟩ := gap_token hgap
          obtain ⟨taken, hrest, -⟩ := lexeme_token hl
          rw [hahead, hrest] at hrounds
          simp only [List.length_append, List.length_cons] at hrounds
          obtain ⟨more, rfl, hrun⟩ := ih h (by omega)
          refine ⟨_ :: more, ?_, .token hgap hl hrun⟩
          rw [List.reverse_cons, List.append_assoc, List.singleton_append]

theorem tokens_of_run {size : Nat} {last : Option Token} {directives : List String} {here : Here}
    {ts : List Token} {all : List String} (h : Run size last directives here ts all)
    {rounds : List Char} {found : List Token} (hlast : found.head? = last)
    (hrounds : here.ahead.length ≤ rounds.length) :
    tokens size rounds found directives here = .ok (found.reverse ++ ts, all) := by
  induction h generalizing rounds found with
  | done hgap =>
      cases rounds with
      | nil =>
          have hnil := List.length_eq_zero_iff.mp (Nat.le_zero.mp hrounds)
          rw [hnil, gap] at hgap
          cases hgap
          rw [tokens_of_ahead_eq_nil hnil, List.append_nil]
      | cons _ rounds => rw [tokens, hgap, List.append_nil]
  | token hgap hlexeme hrest ih =>
      obtain ⟨gapTaken, hahead, -⟩ := gap_token hgap
      obtain ⟨taken, hrest, -⟩ := lexeme_token hlexeme
      rw [hahead, hrest] at hrounds
      simp only [List.length_append, List.length_cons] at hrounds
      cases rounds with
      | nil => simp at hrounds
      | cons _ rounds =>
          rw [tokens, hgap]
          dsimp only
          rw [hlast, hlexeme]
          dsimp only
          rw [List.length_cons] at hrounds
          rw [ih rfl (by omega), List.reverse_cons, List.append_assoc, List.singleton_append]

/-! ## Blanks in a run -/

/-- The tokens of a run stand behind the place where it begins. -/
theorem Run.offset_le {size : Nat} {last : Option Token} {directives : List String} {here : Here}
    {ts : List Token} {all : List String} (h : Run size last directives here ts all) :
    ∀ t ∈ ts, here.offset ≤ t.span.start ∧ t.span.start ≤ t.span.stop := by
  induction h with
  | done => exact List.forall_mem_nil _
  | token hgap hlexeme hrest ih =>
      obtain ⟨gapTaken, -, hstart, -⟩ := gap_token hgap
      obtain ⟨taken, -, hstop, -⟩ := lexeme_token hlexeme
      refine List.forall_mem_cons.mpr ⟨?_, fun t ht ↦ ?_⟩
      · dsimp only
        omega
      · have ht := ih t ht
        omega

/-- A gap with blanks behind it at the end of the text. -/
theorem Stops.blanks {mode : GapMode} {g g' : Gap} (h : Stops mode g [] g') {blanks : List Char}
    (hblanks : ∀ c ∈ blanks, isBlank c ∧ c ≠ '\n') (size offset : Nat) :
    ∃ g'' stop, gap size mode g offset blanks = .ok (g'', ⟨stop, []⟩) ∧
      g''.reversedDirectives = g'.reversedDirectives := by
  cases h with
  | between =>
      have hgap := passes_blanks hblanks g size .between offset [] rfl
      rw [List.append_nil, gap] at hgap
      exact ⟨g, _, hgap, rfl⟩
  | comment body =>
      refine ⟨_, _, gap_lineComment (fun h ↦ (hblanks _ h).2 rfl) size body g offset, ?_⟩
      rw [addLineComment_blanks fun c hc ↦ (hblanks c hc).1]

/-- What is ahead looks alike if blanks are inserted in it, but not behind a point. -/
theorem LooksAlike.insert {blanks : List Char}
    (hblanks : ∀ c ∈ blanks, isBlank c ∧ c ≠ '\n')
    {before : List Char} (hbefore : before.head? ≠ some '.') (after : List Char) :
    LooksAlike (before ++ after) (before ++ blanks ++ after) := by
  cases before with
  | nil => exact .append (fun c hc ↦ (hblanks c hc).1) after
  | cons c before => exact .of_ne_point (fun hc ↦ hbefore (congrArg some hc)) _ _

theorem LooksAlike.behind {before after after' : List Char} (hbefore : before.head? ≠ some '.')
    (h : LooksAlike after after') : LooksAlike (before ++ after) (before ++ after') := by
  cases before with
  | nil => exact h
  | cons c before => exact .of_ne_point (fun hc ↦ hbefore (congrArg some hc)) _ _

/-- A token of a run is one where what follows it looks alike as well. -/
theorem Run.token_alike {size : Nat} {last last' : Option Token} {directives : List String}
    {gapTaken taken ahead ahead' : List Char} {g : Gap} {c : Char} {kind : TokenKind}
    {text : String} {offset : Nat} {ts : List Token} {all : List String}
    (hpasses : Passes .between ⟨false, directives⟩ gapTaken .between g)
    (hends : endsGap (c :: (taken ++ ahead))) (htakes : LexemeTakes last c taken ahead kind text)
    (halike : LooksAlike ahead ahead') (hlast : regexAllowed last' = regexAllowed last)
    (hrest : Run size (some ⟨kind, text, ⟨offset + byteCount gapTaken,
        offset + byteCount gapTaken + byteCount (c :: taken)⟩, g.newline⟩) g.reversedDirectives
      ⟨offset + byteCount gapTaken + byteCount (c :: taken), ahead'⟩ ts all) :
    Run size last' directives ⟨offset, gapTaken ++ c :: (taken ++ ahead')⟩
      (⟨kind, text, ⟨offset + byteCount gapTaken,
        offset + byteCount gapTaken + byteCount (c :: taken)⟩, g.newline⟩ :: ts) all := by
  have hgap :
      gap size .between ⟨false, directives⟩ offset (gapTaken ++ c :: (taken ++ ahead')) =
      .ok (g, ⟨offset + byteCount gapTaken, c :: (taken ++ ahead')⟩) := by
    rw [hpasses size .between offset _ rfl]
    exact gap_of_endsGap (endsGap_alike hends halike) _ _ _
  exact .token hgap (htakes size last' _ ahead' hlast halike) hrest

/-- What is ahead of a token looks alike if what follows the token does. -/
theorem LooksAlike.lexeme {last : Option Token} {c : Char} {taken ahead ahead' : List Char}
    {kind : TokenKind} {text : String} (htakes : LexemeTakes last c taken ahead kind text)
    (halike : LooksAlike ahead ahead') :
    LooksAlike (c :: (taken ++ ahead)) (c :: (taken ++ ahead')) := by
  cases taken with
  | cons d taken => exact .cons (fun _ ↦ id) fun _ ↦ id
  | nil =>
      refine .cons ?_ fun _ ↦ halike.head_eq (by decide)
      rintro rfl hdigit
      exact absurd (htakes 0 last 0 ahead rfl (.refl _)) (lexeme_point hdigit)

theorem eq_nil_of_byteCount {cs : List Char} (h : byteCount cs = 0) : cs = [] := by
  cases cs with
  | nil => rfl
  | cons c cs =>
      have hsize := c.utf8Size_pos
      rw [byteCount_cons] at h
      omega

/-- Where a stretch of text ends behind a part of it, it is that part and more. -/
theorem append_of_byteCount_le {before after part rest : List Char}
    (happend : before ++ after = part ++ rest) (hle : byteCount part ≤ byteCount before) :
    ∃ more, before = part ++ more ∧ rest = more ++ after := by
  rcases List.append_eq_append_iff.mp happend with ⟨more, rfl, hafter⟩ | ⟨more, rfl, hrest⟩
  · rw [byteCount_append] at hle
    have hmore := @eq_nil_of_byteCount more (by omega)
    exact ⟨[], by rw [hmore, List.append_nil, List.append_nil], by rw [hafter, hmore]; rfl⟩
  · exact ⟨more, rfl, hrest⟩

/-- The place is before or behind one of the tokens, or before or behind all that is ahead. -/
def IsPlace (ts : List Token) (offset : Nat) (before after : List Char) : Prop :=
  before = [] ∨ after = [] ∨
    ∃ t ∈ ts, offset + byteCount before = t.span.start ∨
    offset + byteCount before = t.span.stop

/-- A place in a run is in front of the first token or behind that token. -/
theorem IsPlace.cases {t : Token} {ts : List Token} {offset : Nat}
    {before after gapTaken lexemeTaken ahead : List Char}
    (h : IsPlace (t :: ts) offset before after)
    (hahead : before ++ after = gapTaken ++ (lexemeTaken ++ ahead))
    (hstart : t.span.start = offset + byteCount gapTaken)
    (hstop : t.span.stop = t.span.start + byteCount lexemeTaken)
    (hts : ∀ u ∈ ts, t.span.stop ≤ u.span.start ∧ u.span.start ≤ u.span.stop) :
    before = [] ∨ (before = gapTaken ∧ after = lexemeTaken ++ ahead) ∨
      ∃ more, before = gapTaken ++ (lexemeTaken ++ more) ∧ ahead = more ++ after ∧
        IsPlace ts t.span.stop more after := by
  have hbehind (hle : byteCount gapTaken + byteCount lexemeTaken ≤ byteCount before) :
      ∃ more, before = gapTaken ++ (lexemeTaken ++ more) ∧ ahead = more ++ after := by
    rw [← List.append_assoc] at hahead
    obtain ⟨more, hbefore, hmore⟩ :=
      append_of_byteCount_le hahead (by rw [byteCount_append]; omega)
    exact ⟨more, by rw [hbefore, List.append_assoc], hmore⟩
  rcases h with h | rfl | ⟨u, hu, hplace⟩
  · exact .inl h
  · refine .inr (.inr ⟨ahead, ?_, (List.append_nil _).symm, .inr (.inl rfl)⟩)
    rwa [List.append_nil] at hahead
  rcases List.mem_cons.mp hu with rfl | hu
  · rcases hplace with hplace | hplace
    · obtain ⟨more, hbefore, hmore⟩ := append_of_byteCount_le hahead (by omega)
      rw [hbefore, byteCount_append] at hplace
      rw [@eq_nil_of_byteCount more (by omega)] at hbefore hmore
      exact .inr (.inl ⟨hbefore.trans (List.append_nil _), hmore.symm⟩)
    · obtain ⟨more, hbefore, hmore⟩ := hbehind (by omega)
      refine .inr (.inr ⟨more, hbefore, hmore, .inl (eq_nil_of_byteCount ?_)⟩)
      rw [hbefore, byteCount_append, byteCount_append] at hplace
      omega
  · have hu' := hts u hu
    obtain ⟨more, hbefore, hmore⟩ := hbehind (by omega)
    refine .inr (.inr ⟨more, hbefore, hmore, .inr (.inr ⟨u, hu, ?_⟩)⟩)
    rw [hbefore, byteCount_append, byteCount_append] at hplace
    omega

/-- Blanks before or behind a token of a run leave its tokens as they are, but for their places. -/
theorem Run.blanks {size : Nat} {last : Option Token} {directives : List String} {here : Here}
    {ts : List Token} {all : List String} (h : Run size last directives here ts all)
    {blanks : List Char} (hblanks : ∀ c ∈ blanks, isBlank c ∧ c ≠ '\n')
    {before after : List Char} (hahead : here.ahead = before ++ after)
    (hplace : IsPlace ts here.offset before after)
    (size' : Nat) {last' : Option Token} (hlast : regexAllowed last' = regexAllowed last)
    (offset' : Nat) :
    ∃ ts', Run size' last' directives ⟨offset', before ++ blanks ++ after⟩ ts' all ∧
      ts'.map Token.bare = ts.map Token.bare ∧
      LooksAlike (before ++ after) (before ++ blanks ++ after) := by
  induction h generalizing blanks before after last' offset' with
  | @done last directives here g offset hgap =>
      obtain ⟨taken, mode, g₁, htaken, hpasses, hstops⟩ := gap_factor hgap
      have hhead := head_ne_point hpasses hstops
      rw [htaken, List.append_nil] at hahead
      rcases hplace with rfl | rfl | ⟨t, ht, -⟩
      · rw [List.nil_append] at hahead
        subst hahead
        have hall := passes_append (passes_blanks hblanks _) hpasses size' .between offset' [] rfl
        rw [List.append_nil, hstops.gap_eq] at hall
        exact ⟨[], .done hall, rfl, .insert hblanks (by simp) _⟩
      · rw [List.append_nil] at hahead
        subst hahead
        obtain ⟨g'', stop, hblank, hsame⟩ :=
          hstops.blanks hblanks size' (offset' + byteCount taken)
        have hall := hpasses size' .between offset' blanks rfl
        rw [hblank, ← List.append_nil (taken ++ blanks)] at hall
        refine ⟨[], ?_, rfl, .insert hblanks hhead _⟩
        rw [← hsame]
        exact .done hall
      · cases ht
  | @token last directives here g start c rest l ts all hgap hlexeme hrest ih =>
      obtain ⟨gapTaken, hgapTaken, hstart, hpasses, hends⟩ := gap_token hgap
      obtain ⟨taken, htaken, hstop, htakes⟩ := lexeme_token hlexeme
      rw [htaken] at hgapTaken hends
      rw [hgapTaken] at hahead
      have hsame (span : Span) : regexAllowed (some ⟨l.kind, l.text, span, g.newline⟩) =
          regexAllowed (some ⟨l.kind, l.text, ⟨start, l.here.offset⟩, g.newline⟩) := rfl
      -- The blanks are in the gap before the first token, so what follows it is the same.
      have hfirst {gapTaken' : List Char}
          (hgap' : Passes .between ⟨false, directives⟩ gapTaken' .between g) :
          ∃ ts', Run size' last' directives
            ⟨offset', gapTaken' ++ c :: (taken ++ l.here.ahead)⟩ ts' all ∧
            ts'.map Token.bare =
              (⟨l.kind, l.text, ⟨start, l.here.offset⟩, g.newline⟩ :: ts).map
                Token.bare := by
        obtain ⟨ts', hrun, hbare, -⟩ := ih (List.forall_mem_nil _) (List.nil_append _).symm
          (.inl rfl) (hsame ⟨_, _⟩) (offset' + byteCount gapTaken' + byteCount (c :: taken))
        refine ⟨_, .token_alike hgap' hends htakes (.refl _) hlast hrun, ?_⟩
        rw [List.map_cons, hbare]
        rfl
      have hcases :=
        IsPlace.cases (t := ⟨l.kind, l.text, ⟨start, l.here.offset⟩, g.newline⟩)
        hplace hahead.symm hstart hstop hrest.offset_le
      rcases hcases with rfl | ⟨rfl, rfl⟩ | ⟨more, rfl, hmore, hplace⟩
      · obtain ⟨ts', hrun, hbare⟩ := hfirst (passes_append (passes_blanks hblanks _) hpasses)
        rw [List.append_assoc, hahead] at hrun
        exact ⟨ts', hrun, hbare, .insert hblanks (by simp) _⟩
      · obtain ⟨ts', hrun, hbare⟩ := hfirst (passes_append hpasses (passes_blanks hblanks _))
        exact ⟨ts', hrun, hbare, .insert hblanks (head_ne_point hpasses (.between hends)) _⟩
      · obtain ⟨ts', hrun, hbare, halike⟩ := ih hblanks hmore hplace (hsame ⟨_, _⟩)
          (offset' + byteCount gapTaken + byteCount (c :: taken))
        rw [← hmore] at halike
        have hall := Run.token_alike hpasses hends htakes halike hlast hrun
        have hinserted : gapTaken ++ (c :: taken ++ more) ++ blanks ++ after =
            gapTaken ++ c :: (taken ++ (more ++ blanks ++ after)) := by simp
        have hwhole : gapTaken ++ (c :: taken ++ more) ++ after =
            gapTaken ++ c :: (taken ++ l.here.ahead) := by simp [hmore]
        rw [hinserted, hwhole]
        refine ⟨_, hall, ?_, ?_⟩
        · rw [List.map_cons, hbare]
          rfl
        · exact .behind (head_ne_point hpasses (.between hends)) (.lexeme htakes halike)

end Scan

/-! ## Source texts -/

namespace Lexed

open Text

/-- The text is one run, from its beginning on. -/
theorem ofSource_eq_ok {cs : List Char} {l : Lexed} :
    Lexed.ofSource (String.ofList cs) = .ok l ↔
      l.size = byteCount cs ∧ Scan.Run (byteCount cs) none [] ⟨0, cs⟩ l.tokens
        l.directives := by
  unfold Lexed.ofSource
  simp only [String.toList_ofList, utf8ByteSize_ofList]
  constructor
  · intro h
    obtain ⟨⟨ts, ds⟩, htokens, rfl⟩ := except_map_eq_ok.mp h
    obtain ⟨more, rfl, hrun⟩ := Scan.run_of_tokens htokens (Nat.le_refl _)
    exact ⟨rfl, hrun⟩
  · rintro ⟨hsize, hrun⟩
    obtain ⟨ts, ds, size⟩ := l
    cases hsize
    rw [Scan.tokens_of_run hrun rfl (Nat.le_refl _)]
    rfl

/-- The place behind `before` is where a token of the text begins or ends, or the
end of the text. -/
def HasPlace (l : Lexed) (before : List Char) : Prop :=
  ∃ t ∈ l.tokens ++ [l.finish],
    byteCount before = t.span.start ∨ byteCount before = t.span.stop

/-- Blanks without a line feed before or behind a token leave the tokens of a text as they are, but
for their places, and its directives. -/
theorem ofSource_blanks {before after blanks : List Char} {l : Lexed}
    (hl : Lexed.ofSource (String.ofList (before ++ after)) = .ok l) (hplace : l.HasPlace before)
    (hblanks : ∀ c ∈ blanks, isBlank c ∧ c ≠ '\n') :
    ∃ l', Lexed.ofSource (String.ofList (before ++ blanks ++ after)) = .ok l' ∧
      l'.bare = l.bare ∧ l'.directives = l.directives := by
  obtain ⟨hsize, hrun⟩ := ofSource_eq_ok.mp hl
  have hplace : Scan.IsPlace l.tokens 0 before after := by
    obtain ⟨t, ht, hbefore⟩ := hplace
    rcases List.mem_append.mp ht with ht | ht
    · exact .inr (.inr ⟨t, ht, by omega⟩)
    · rw [List.mem_singleton.mp ht] at hbefore
      have hend : byteCount before = byteCount (before ++ after) := by
        rw [← hsize]
        exact hbefore.elim id id
      rw [byteCount_append] at hend
      exact .inr (.inl (Scan.eq_nil_of_byteCount (by omega)))
  obtain ⟨ts, hrun', hbare, -⟩ := hrun.blanks hblanks rfl hplace
    (byteCount (before ++ blanks ++ after)) (show Scan.regexAllowed none = _ from rfl) 0
  exact ⟨⟨ts, l.directives, _⟩, ofSource_eq_ok.mpr ⟨rfl, hrun'⟩, hbare, rfl⟩

end Lexed

namespace SourceFile

open Text

/-- Blanks without a line feed that are inserted before or behind a token leave the tokens and the
directives as they are, but for the places of the tokens. So the text is refused for the same reason
or read as the same tree, but for the places of its parts, and it is a module if it was one. -/
theorem outcome_blanks {before after blanks : List Char} {l : Lexed}
    (hl : Lexed.ofSource (String.ofList (before ++ after)) = .ok l) (hplace : l.HasPlace before)
    (hblanks : ∀ c ∈ blanks, isBlank c ∧ c ≠ '\n') :
    (∃ l', Lexed.ofSource (String.ofList (before ++ blanks ++ after)) = .ok l' ∧
      l'.bare = l.bare ∧ l'.finish.bare = l.finish.bare ∧ l'.directives = l.directives) ∧
    outcome (ofSource (String.ofList (before ++ blanks ++ after))) =
      outcome (ofSource (String.ofList (before ++ after))) ∧
    (ofSource (String.ofList (before ++ blanks ++ after))).toOption.map isModule =
      (ofSource (String.ofList (before ++ after))).toOption.map isModule := by
  obtain ⟨l', hl', hbare, hdirectives⟩ := Lexed.ofSource_blanks hl hplace hblanks
  have houtcome := outcome_eq_of_bare_eq hl hl' hbare hdirectives
  exact ⟨⟨l', hl', hbare, rfl, hdirectives⟩, houtcome, isModule_eq_of_outcome_eq houtcome⟩

/-- The tokens of `type A=.5`. -/
def pointTokens : Lexed :=
  ⟨[⟨.word, "type", ⟨0, 4⟩, false⟩, ⟨.word, "A", ⟨5, 6⟩, false⟩,
    ⟨.mark, "=", ⟨6, 7⟩, false⟩, ⟨.number, ".5", ⟨7, 9⟩, false⟩], [], 9⟩

theorem outcome_blanks_point :
    Lexed.ofSource (String.ofList ("type A=".toList ++ ".5".toList)) = .ok pointTokens ∧
    pointTokens.HasPlace "type A=".toList ∧ (∀ c ∈ [' ', '\t'], isBlank c ∧ c ≠ '\n') ∧
    outcome (ofSource (String.ofList ("type A=".toList ++ [' ', '\t'] ++ ".5".toList))) =
      outcome (ofSource (String.ofList ("type A=".toList ++ ".5".toList))) := by
  have hl : Lexed.ofSource (String.ofList ("type A=".toList ++ ".5".toList)) = .ok pointTokens := by
    decide +kernel
  have hplace : pointTokens.HasPlace "type A=".toList :=
    ⟨⟨.number, ".5", ⟨7, 9⟩, false⟩, by decide, .inl (by decide)⟩
  have hblanks : ∀ c ∈ [' ', '\t'], isBlank c ∧ c ≠ '\n' :=
    List.forall_mem_cons.mpr ⟨by decide, List.forall_mem_singleton.mpr (by decide)⟩
  exact ⟨hl, hplace, hblanks, (outcome_blanks hl hplace hblanks).2.1⟩

end SourceFile

end PluginSurface
