import PluginSurface.Proofs.Syntax.Bodies
import PluginSurface.Proofs.Syntax.Brackets
import PluginSurface.Proofs.Syntax.ParenthesizedReading

/-!
# Runs on known tokens

A parser of statements numbers them and notes where they end, so its answer depends on more than the
tokens ahead. What is known of it is said by two conditions on how its run on these tokens ends: one
on what is answered and on the tokens that are left, and one on why a text is refused.

Main statements: `StatementGrammar.runs_statement`, `SourceFile.ofSource_of_runs`.
-/

namespace PluginSurface

namespace Token

variable {t : Token} {text other : String} {texts : List String}

theorem isMark_of_ne (h : t.isMark text) (hne : text ≠ other) : t.isMark other = false := by
  simp [isMark, (isMark_iff.mp h).2, hne]

theorem isMark_of_word (h : t.kind = .word) (text : String) : t.isMark text = false := by
  simp [isMark, h]

theorem isMarkIn_eq (h : t.isMark text) : t.isMarkIn texts = texts.contains text := by
  simp [isMarkIn, isMark_iff.mp h]

theorem isMark_of_isMarkIn (h : t.isMarkIn texts) (htext : texts.contains text = false) :
    t.isMark text = false := by
  refine Bool.eq_false_iff.mpr fun hmark ↦ Bool.eq_false_iff.mp htext ?_
  rw [← isMarkIn_eq hmark]
  exact h

end Token

namespace Parser

variable {α β : Type}

/-- Where the tokens `rest` are ahead, whatever token was read last and however many statements were
begun, the parser answers as `good` says or refuses the text as `bad` says. The level, the mode and
the end of the text are those of `s`, also behind the run. -/
def Runs (p : Parser α) (s : Cursor) (rest : List Token) (good : α → List Token → Prop)
    (bad : Fault → Prop) : Prop :=
  ∀ last id,
    (∃ a more last' id', good a more ∧ p { s with previous := last, rest := rest, nextId :=
      id } = .ok (a, { s with previous := last', rest := more, nextId := id' })) ∨
    ∃ e, bad e.fault ∧ p { s with previous := last, rest := rest, nextId := id } = .error e

/-- The run never ends like that. -/
abbrev never : Fault → Prop := fun _ ↦ False

section

variable {s : Cursor} {rest mid : List Token} {t : Token} {a : α} {p : Parser α}
    {q : α → Parser β}
  {good : α → List Token → Prop} {goodAfter : β → List Token → Prop}
  {bad : Fault → Prop}

theorem Runs.mono {good' : α → List Token → Prop} (h : Runs p s rest good bad)
    (hgood : ∀ a more, good a more → good' a more) : Runs p s rest good' bad := by
  intro last id
  rcases h last id with ⟨a, more, last', id', ha, hp⟩ | hp
  · exact .inl ⟨a, more, last', id', hgood a more ha, hp⟩
  · exact .inr hp

theorem runs_pure (h : good a rest) : Runs (pure a) s rest good bad :=
  fun last id ↦ .inl ⟨a, rest, last, id, h, rfl⟩

theorem runs_bind (h : Runs p s rest (fun a mid ↦ Runs (q a) s mid goodAfter bad) bad) :
    Runs (p >>= q) s rest goodAfter bad := by
  intro last id
  rcases h last id with ⟨a, mid, last', id', hq, hp⟩ | ⟨e, he, hp⟩
  · rcases hq last' id' with ⟨b, more, last'', id'', hb, hq⟩ | ⟨e, he, hq⟩
    · exact .inl ⟨b, more, last'', id'', hb, bind_eq_ok.mpr ⟨a, _, hp, hq⟩⟩
    · refine .inr ⟨e, he, ?_⟩
      change (p _ >>= fun r ↦ q r.1 r.2) = _
      rw [hp]
      exact hq
  · refine .inr ⟨e, he, ?_⟩
    change (p _ >>= fun r ↦ q r.1 r.2) = _
    rw [hp]
    rfl

/-- What only reads is known by its answer. -/
theorem Gives.runs {more : List Token} (h : ∀ id, Gives p { s with nextId := id } rest a more)
    (ha : good a more) : Runs p s rest good bad := by
  intro last id
  obtain ⟨last', hp⟩ := h id last
  exact .inl ⟨a, more, last', id, ha, hp⟩

theorem Gives.runs_bind (h : ∀ id, Gives p { s with nextId := id } rest a mid)
    (hq : Runs (q a) s mid goodAfter bad) : Runs (p >>= q) s rest goodAfter bad :=
  Parser.runs_bind (Gives.runs h hq)

theorem runs_get_bind {q : Cursor → Parser β} (h : ∀ last id,
    Runs (q { s with previous := last, rest := rest, nextId := id }) s rest goodAfter bad) :
    Runs (get >>= q) s rest goodAfter bad := fun last id ↦ h last id last id

theorem runs_look_bind {n : Nat} {q : Token → Parser β} :
    Runs (look n >>= q) s rest goodAfter bad ↔
      Runs (q (rest.getD n s.finish)) s rest goodAfter bad := Iff.rfl

theorem runs_atMark_bind {text : String} {q : Bool → Parser β} :
    Runs (atMark text >>= q) s (t :: rest) goodAfter bad ↔
      Runs (q (t.isMark text)) s (t :: rest) goodAfter bad := Iff.rfl

theorem runs_atWord_bind {text : String} {q : Bool → Parser β} :
    Runs (atWord text >>= q) s (t :: rest) goodAfter bad ↔
      Runs (q (t.isWord text)) s (t :: rest) goodAfter bad := Iff.rfl

theorem runs_expectMark_error {text : String} (ht : t.isMark text = false) {good}
    (hbad : bad (.expected (.mark text) (if t.kind == .finish then none else some t.text))) :
    Runs (expectMark text) s (t :: rest) good bad := by
  intro last id
  refine .inr ⟨⟨_, t.span⟩, hbad, ?_⟩
  simp only [expectMark, Cursor.next, Cursor.token, List.getD_cons_zero, ht, Bool.false_eq_true,
    if_false, unexpected]

theorem runs_nested (hdepth : s.depth < maxNesting)
    (h : Runs p { s with depth := s.depth + 1 } rest good bad) :
    Runs (nested p) s rest good bad := by
  intro last id
  simp only [nested, if_pos hdepth]
  rcases h last id with ⟨a, more, last', id', ha, hp⟩ | ⟨e, he, hp⟩
  · refine .inl ⟨a, more, last', id', ha, ?_⟩
    rw [hp]
    rfl
  · refine .inr ⟨e, he, ?_⟩
    rw [hp]
    rfl

/-! ## Repetition -/

section

variable {step : β → Parser (Round β α)} {state : β}

/-- The repetition runs like that, in however many rounds more than tokens are left. -/
def Repeats (step : β → Parser (Round β α)) (state : β) (s : Cursor) (rest : List Token)
    (good : α → List Token → Prop) (bad : Fault → Prop) : Prop :=
  ∀ within : List Token, rest.length < within.length →
    Runs (roundsWithin step within state) s rest good bad

/-- What has to hold behind a round: one that goes on has taken a token. -/
def GoesOn (repeats : β → List Token → Prop) (good : α → List Token → Prop)
    (rest : List Token) : Round β α → List Token → Prop
  | .again next, mid => mid.length < rest.length ∧ repeats next mid
  | .done a, mid => good a mid

theorem repeats_of_step (h : Runs (step state) s rest
    (GoesOn (fun next mid ↦ Repeats step next s mid good bad) good rest) bad) :
    Repeats step state s rest good bad := by
  intro within hlength
  obtain ⟨_, within, rfl⟩ := List.exists_cons_of_length_pos (Nat.zero_lt_of_lt hlength)
  rw [List.length_cons] at hlength
  refine runs_bind (h.mono fun r mid hr ↦ ?_)
  cases r with
  | again next => exact hr.2 within (by have hlt := hr.1; omega)
  | done a => exact runs_pure hr

theorem Repeats.runs (h : Repeats step state s rest good bad) :
    Runs (rounds step state) s rest good bad :=
  fun last id ↦ h (s.finish :: rest) (Nat.lt_succ_self _) last id

theorem repeats_again {next : β} {mid : List Token}
    (hstep : ∀ id, Gives (step state) { s with nextId := id } rest (.again next) mid)
    (hlength : mid.length < rest.length) (h : Repeats step next s mid good bad) :
    Repeats step state s rest good bad :=
  repeats_of_step (Gives.runs hstep ⟨hlength, h⟩)

theorem repeats_done {more : List Token}
    (hstep : ∀ id, Gives (step state) { s with nextId := id } rest (.done a) more)
    (h : good a more) : Repeats step state s rest good bad :=
  repeats_of_step (Gives.runs hstep h)

end

end

/-! ## Expressions -/

section

variable {stops : List String} {lines : Bool} {k : List String} {ts rest : List Token}
  {t c : Token} {last : Option Token}

/-- A group is passed over up to where the brackets in it are closed. -/
theorem expressionEnd_of_openBehind (hc : c.isCloser) (h : openBehind k ts = some [])
    (opener : Token) :
    expressionEnd stops lines (some (opener, k.length)) last (ts ++ c :: rest) =
      expressionEnd stops lines none (some c) rest := by
  induction ts generalizing k last with
  | nil =>
      cases h
      simp [expressionEnd, hc, Token.isOpener_of_isCloser hc]
  | cons t ts ih =>
      obtain ⟨j, ht, hts⟩ := openBehind_cons_eq_some.mp h
      have hmore := @ih j (some t) hts
      rcases Token.openBehind_cases ht with ⟨hplain, rfl⟩ | ⟨inside, -, hopener, -, rfl⟩ |
        ⟨inside, -, hopener, hcloser, rfl⟩
      · simpa [expressionEnd, hplain.1, hplain.2] using hmore
      · simpa [expressionEnd, hopener] using hmore
      · simpa [expressionEnd, hopener, hcloser] using hmore

/-- An expression goes on behind a token that does not end it. -/
theorem expressionEnd_plain (hplain : t.IsPlain) (hstop : t.isMarkIn stops = false)
    (hline : (lines && breaksExpression last t) = false) :
    expressionEnd stops lines none last (t :: rest) =
      expressionEnd stops lines none (some t) rest := by
  rw [expressionEnd]
  simp [hstop, hline, hplain.1, hplain.2]

/-- An expression goes on behind a group that begins in it. -/
theorem expressionEnd_group (hopener : t.isOpener) (hcloser : t.isCloser = false)
    (hstop : t.isMarkIn stops = false) (hline : (lines && breaksExpression last t) = false)
    (hts : Nested ts) (hc : c.isCloser) :
    expressionEnd stops lines none last (t :: (ts ++ c :: rest)) =
      expressionEnd stops lines none (some c) rest := by
  rw [expressionEnd]
  simp only [hstop, hline, hopener, hcloser, Bool.or_self, Bool.false_eq_true, if_false, if_true]
  exact expressionEnd_of_openBehind hc hts t

theorem expressionEnd_stop (h : t.isMarkIn stops || t.isCloser ||
    (lines && breaksExpression last t)) :
    expressionEnd stops lines none last (t :: rest) = .ok (last, t :: rest) := by
  rw [expressionEnd, if_pos h]

end

section

variable {s : Cursor} {stops : List String} {lines : Bool} {rest more : List Token}
  {last : Option Token}

theorem gives_passExpression
    (h : expressionEnd stops lines none none rest = .ok (last, more)) :
    Gives (passExpression stops lines) s rest last.isSome more := by
  intro previous
  refine ⟨last.or previous, ?_⟩
  simp only [passExpression]
  rw [h]

theorem gives_skipExpression
    (h : expressionEnd stops lines none none rest = .ok (last, more)) :
    Gives (skipExpression stops lines) s rest () more := (gives_passExpression h).discard

end

end Parser

/-! ## Statements -/

namespace StatementGrammar

open PluginSurface.Parser TypeGrammar

variable {types : TypeGrammar} {block : Parser (List Statement)} {s : Cursor} {t : Token}
  {rest more : List Token} {bad : Fault → Prop}

section

variable {good : Decl → List Token → Prop}

/-- A declaration without modifiers. -/
theorem runs_modifiedDeclaration (hexport : t.isWord "export" = false)
    (hmodifier : statementModifier t (rest.headD s.finish) = false)
    (h : Runs (declaration types block false) s (t :: rest) good bad) :
    Runs (modifiedDeclaration types block) s (t :: rest) (fun m more ↦ good m.2 more) bad := by
  refine runs_atWord_bind.mpr ?_
  simp only [hexport, Bool.false_eq_true, if_false]
  refine Gives.runs_bind (fun _ ↦ gives_takeTokens_nil hmodifier) (runs_bind ?_)
  exact h.mono fun d more hd ↦ runs_pure hd

theorem runs_statement (hexport : t.isWord "export" = false)
    (hmodifier : statementModifier t (rest.headD s.finish) = false)
    (h : Runs (declaration types block false) s (t :: rest) good bad) :
    Runs (statement types block) s (t :: rest) (fun a more ↦ good a.decl more) bad := by
  intro last id
  rcases runs_modifiedDeclaration hexport hmodifier h last (id + 1) with
    ⟨m, more, last', id', hm, hrun⟩ | ⟨e, he, hrun⟩
  · refine .inl ⟨_, more, last', id', ?_, bind_eq_ok.mpr
      ⟨_, _, rfl, bind_eq_ok.mpr ⟨_, _, rfl, bind_eq_ok.mpr ⟨_, _, hrun, rfl⟩⟩⟩⟩
    exact hm
  · refine .inr ⟨e, he, ?_⟩
    change (modifiedDeclaration types block _ >>= _) = _
    rw [hrun]
    rfl

end

/-- The statements up to the end of a body, which are known by what they declare. -/
def RunsBody (types : TypeGrammar) (block : Parser (List Statement)) (inBraces : Bool) (s : Cursor)
    (rest : List Token) (good : List Decl → List Token → Prop) (bad : Fault → Prop) : Prop :=
  ∀ found, Repeats (statementsStep types block inBraces) found s rest
    (fun body more ↦ ∃ ds, body.map Statement.decl = found.reverse.map Statement.decl ++ ds ∧
      good ds more) bad

section

variable {good : List Decl → List Token → Prop}

theorem RunsBody.mono {inBraces : Bool} {good' : List Decl → List Token → Prop}
    (h : RunsBody types block inBraces s rest good bad)
    (hgood : ∀ ds more, good ds more → good' ds more) :
    RunsBody types block inBraces s rest good' bad :=
  fun found within hwithin ↦ (h found within hwithin).mono fun _ more hbody ↦
    let ⟨ds, hds, hmore⟩ := hbody
    ⟨ds, hds, hgood ds more hmore⟩

theorem RunsBody.runs {inBraces : Bool} (h : RunsBody types block inBraces s rest good bad) :
    Runs (statements types block inBraces) s rest
      (fun body more ↦ good (body.map Statement.decl) more) bad := by
  refine (h []).runs.mono ?_
  rintro body more ⟨ds, hds, hgood⟩
  rwa [hds]

theorem runsBody_end (h : good [] []) : RunsBody types block false s [] good bad := fun found ↦
  repeats_done (a := found.reverse) (fun _ last ↦ ⟨last, rfl⟩)
    ⟨[], (List.append_nil _).symm, h⟩

theorem runsBody_brace (ht : t.isMark "\x7d") (h : good [] rest) :
    RunsBody types block true s (t :: rest) good bad := by
  intro found
  have hstep (s : Cursor) : Gives (statementsStep types block true found) s (t :: rest)
      (.done found.reverse) rest := by
    refine gives_get_bind fun last ↦ gives_atMark_bind.mpr ?_
    simp only [ht, if_true]
    exact gives_bump.bind (gives_pure _)
  exact repeats_done (fun _ ↦ hstep _) ⟨[], (List.append_nil _).symm, h⟩

theorem runsBody_cons {inBraces : Bool} (hbrace : t.isMark "\x7d" = false)
    (hsemicolon : t.isMark ";" = false) (hexport : t.isWord "export" = false)
    (hmodifier : statementModifier t (rest.headD s.finish) = false)
    (h : Runs (declaration types block false) s (t :: rest) (fun d mid ↦
      mid.length < (t :: rest).length ∧
        RunsBody types block inBraces s mid (fun ds ↦ good (d :: ds)) bad) bad) :
    RunsBody types block inBraces s (t :: rest) good bad := by
  refine fun found ↦ repeats_of_step (runs_get_bind fun last id ↦ runs_atMark_bind.mpr ?_)
  simp only [hbrace, Bool.false_eq_true, if_false]
  refine Gives.runs_bind (fun _ ↦ gives_eatMark_false hsemicolon) (runs_bind ?_)
  refine (runs_statement hexport hmodifier h).mono ?_
  rintro a mid ⟨hlength, hbody⟩
  refine runs_pure ⟨hlength, fun within hwithin ↦ (hbody (a :: found) within hwithin).mono ?_⟩
  rintro body more ⟨ds, hds, hgood⟩
  refine ⟨a.decl :: ds, ?_, hgood⟩
  rw [hds, List.reverse_cons, List.map_append, List.append_assoc]
  rfl

theorem RunsBody.runs_blockRule (ht : t.isMark "\x7b") (hdepth : s.depth < maxNesting)
    (h : RunsBody types block true { s with depth := s.depth + 1 } rest good bad) :
    Runs (blockRule types block) s (t :: rest) (fun body more ↦
      good (body.map Statement.decl) more) bad :=
  Gives.runs_bind (fun _ ↦ gives_expectMark ht) (runs_nested hdepth h.runs)

end

/-! ## Declarations -/

/-- A statement that declares nothing, with the semicolon behind it or without one. -/
theorem gives_skipStatement {l next : Token}
    (h : expressionEnd [";"] true none none (t :: rest) = .ok (some l, next :: more)) :
    Gives skipStatement s (t :: rest) () (if next.isMark ";" then more else next :: more) := by
  have hat (ts : List Token) :
      Gives (atMark "\x7d") s ts ((ts.getD 0 s.finish).isMark "\x7d") ts :=
      fun last ↦ ⟨last, rfl⟩
  refine (gives_passExpression h).bind ?_
  cases hnext : next.isMark ";" with
  | false => exact (gives_eatMark_false hnext).bind ((hat _).bind (gives_pure _))
  | true => exact (gives_eatMark hnext).bind ((hat _).bind (gives_pure _))

/-- The words that begin declarations. -/
def declarationWords : List String :=
  ["class", "interface", "type", "enum", "function", "var", "const", "let", "namespace", "module",
    "global", "import"]

/-- What begins neither a declaration nor a block is passed over. -/
theorem gives_declaration_other {l next : Token} (hbrace : t.isMark "\x7b" = false)
    (hword : t.kind = .word → t.text ∉ declarationWords)
    (h : expressionEnd [";"] true none none (t :: rest) = .ok (some l, next :: more)) :
    Gives (declaration types block false) s (t :: rest) .other
      (if next.isMark ";" then more else next :: more) := by
  have hskip : Gives (skipStatement >>= fun _ ↦ pure Decl.other) s (t :: rest) .other
      (if next.isMark ";" then more else next :: more) :=
    (gives_skipStatement h).bind (gives_pure _)
  refine gives_look_bind.mpr (gives_look_bind.mpr ?_)
  by_cases hkind : t.kind = .word
  · have hwords := hword hkind
    simp only [declarationWords, List.mem_cons, List.not_mem_nil, or_false, not_or] at hwords
    simp [hbrace, hkind, hwords, -bind_pure_comp]
    exact hskip
  · simp [hbrace, hkind, -bind_pure_comp]
    exact hskip

section

variable {good : Decl → List Token → Prop} {name paren : Token}

/-- A function with a body and no result type. -/
theorem runs_functionDeclaration (hname : name.kind = .word) (hparen : paren.isMark "(")
    (h : Runs (listUntil ")" (param (types.type true))) s rest (fun params mid ↦
      ∃ brace inside, mid = brace :: inside ∧ brace.isMark "\x7b" ∧
        Runs block s mid (fun body more ↦
          good (.function (some ⟨name.text, name.span⟩) ⟨[], params, none⟩
            (some body)) more) bad)
      bad) :
    Runs (functionDeclaration types block) s (t :: name :: paren :: rest) good bad := by
  have hstar : name.isMark "*" = false := Token.isMark_of_word hname _
  have hangle : paren.isMark "<" = false := Token.isMark_of_ne hparen (by decide)
  refine Gives.runs_bind (fun _ ↦ gives_bump) ?_
  refine Gives.runs_bind (fun _ ↦ gives_eatMark_false hstar) (runs_look_bind.mpr ?_)
  simp only [List.getD_cons_zero, hname, beq_self_eq_true, if_true]
  refine Gives.runs_bind (fun _ ↦ gives_declaredName hname) ?_
  refine Gives.runs_bind (fun _ ↦ gives_pure _) ?_
  refine runs_bind (Gives.runs_bind
    (fun _ ↦ (gives_eatMark_false hangle).bind (gives_pure [])) (runs_bind ?_))
  refine Gives.runs_bind (fun _ ↦ gives_expectMark hparen) (h.mono ?_)
  rintro params _ ⟨brace, inside, rfl, hbrace, hblock⟩
  have hcolon : brace.isMark ":" = false := Token.isMark_of_ne hbrace (by decide)
  refine Gives.runs_bind (fun _ ↦ (gives_eatMark_false hcolon).bind (gives_pure _)) (runs_pure ?_)
  refine runs_bind (runs_atMark_bind.mpr ?_)
  rw [hbrace, if_pos rfl]
  exact runs_bind (hblock.mono fun body more hbody ↦ runs_pure (runs_pure hbody))

theorem runs_declaration_function (ht : t.isWord "function")
    (h : Runs (functionDeclaration types block) s (t :: rest) good bad) :
    Runs (declaration types block false) s (t :: rest) good bad := by
  obtain ⟨kind, text, span, newline⟩ := t
  obtain ⟨rfl, rfl⟩ : kind = .word ∧ text = "function" := by simpa [Token.isWord] using ht
  refine runs_look_bind.mpr (runs_look_bind.mpr ?_)
  simp [Token.isMark]
  exact runs_look_bind.mpr h

end

/-- A function as the next statement of a body. -/
theorem runsBody_function {inBraces : Bool} {good : List Decl → List Token → Prop}
    {name paren : Token} (ht : t.isWord "function") (hname : name.kind = .word)
    (hparen : paren.isMark "(")
    (h : Runs (listUntil ")" (param (types.type true))) s rest (fun params mid ↦
      ∃ brace inside, mid = brace :: inside ∧ brace.isMark "\x7b" ∧
        Runs block s mid (fun body more ↦ more.length ≤ rest.length ∧
          RunsBody types block inBraces s more
            (fun ds ↦ good (.function (some ⟨name.text, name.span⟩) ⟨[], params, none⟩
              (some body) :: ds)) bad) bad)
      bad) :
    RunsBody types block inBraces s (t :: name :: paren :: rest) good bad := by
  obtain ⟨kind, text, span, newline⟩ := t
  obtain ⟨rfl, rfl⟩ : kind = .word ∧ text = "function" := by simpa [Token.isWord] using ht
  refine runsBody_cons rfl rfl rfl (by simp [statementModifier]) (runs_declaration_function rfl ?_)
  refine runs_functionDeclaration hname hparen (h.mono ?_)
  rintro params mid ⟨brace, inside, hmid, hbrace, hblock⟩
  refine ⟨brace, inside, hmid, hbrace, hblock.mono fun body more hbody ↦ ⟨?_, hbody.2⟩⟩
  have hle := hbody.1
  simp only [List.length_cons]
  omega

end StatementGrammar

/-! ## Source texts -/

namespace SourceFile

open PluginSurface.Parser StatementGrammar TypeGrammar

/-- What is read of the tokens of a text is read of the text. -/
theorem ofSource_of_runs {source : String} {l : Lexed} (hl : Lexed.ofSource source = .ok l)
    {good : List Decl → List Token → Prop} {bad : Fault → Prop}
    (h : RunsBody (within maxNesting) (block maxNesting) false (.start l) l.tokens good bad) :
    (∃ f more, ofSource source = .ok f ∧ good (f.statements.map Statement.decl) more) ∨
      ∃ e, ofSource source = .error e ∧ bad e.fault := by
  rcases h.runs none 0 with ⟨body, more, last, id, hbody, hrun⟩ | ⟨e, he, hrun⟩
  · refine .inl ⟨⟨body, l.directives.filterMap Reference.ofDirective?⟩, more, ?_, hbody⟩
    exact ofSource_eq_ok.mpr ⟨l, hl, rfl, _, hrun⟩
  · refine .inr ⟨e.clamp source.utf8ByteSize, ?_, he⟩
    exact except_bind_eq_error.mpr (.inr ⟨_, mapError_eq_ok.mpr hl, except_bind_eq_error.mpr
      (.inl (mapError_eq_error.mpr ⟨e, hrun, rfl⟩))⟩)

theorem exists_ofSource_eq_ok {source : String} {l : Lexed} (hl : Lexed.ofSource source = .ok l)
    {good : List Decl → List Token → Prop}
    (h : RunsBody (within maxNesting) (block maxNesting) false (.start l) l.tokens good never) :
    ∃ f more, ofSource source = .ok f ∧ good (f.statements.map Statement.decl) more :=
  (ofSource_of_runs hl h).resolve_right fun ⟨_, _, hnever⟩ ↦ hnever

theorem exists_ofSource_eq_error {source : String} {l : Lexed} (hl : Lexed.ofSource source = .ok l)
    {bad : Fault → Prop} (h : RunsBody (within maxNesting) (block maxNesting) false (.start l)
      l.tokens (fun _ _ ↦ False) bad) : ∃ e, ofSource source = .error e ∧ bad e.fault :=
  (ofSource_of_runs hl h).resolve_left fun ⟨_, _, _, hnever⟩ ↦ hnever

end SourceFile

end PluginSurface
