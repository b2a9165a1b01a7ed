import PluginSurface.Proofs.Syntax.KnownTokens
import PluginSurface.Proofs.Syntax.Layout
import PluginSurface.Proofs.Syntax.Runs
import PluginSurface.Proofs.Syntax.Spans

/-!
# Texts behind a byte-order mark

A byte-order mark is neither white space nor part of a name, so at the beginning of a text it is
a token, and a statement of the text in which nothing is declared. This statement goes on as far
as an expression does: where no line break or mark ends it, it takes the first statement of the
text as well.

The tokens behind the mark are those of the text in other places, so both are read in parallel from
the end of that statement on.

Main statement: `SourceFile.ofSource_byteOrderMark`.
-/

namespace PluginSurface

/-- The change for what stands behind the token `t`, where one statement begins before it. -/
def Relocation.behind (t : Token) : Relocation where
  offset n := t.span.stop + n
  offset_le h := Nat.add_le_add_left h _
  number n := n + 1
  number_succ _ := rfl
  before := some t
  stop_before := rfl

namespace Scan

open Text

/-- Behind a token, a text is scanned as it is at the beginning. -/
theorem Run.behind {size : Nat} {last : Option Token} {directives : List String} {here : Here}
    {ts : List Token} {all : List String} (h : Run size last directives here ts all) (t : Token)
    (size' : Nat) {last' : Option Token} (hlast : regexAllowed last' = regexAllowed last) :
    Run size' last' directives ⟨t.span.stop + here.offset, here.ahead⟩
      (ts.map (Relocation.behind t).token) all := by
  induction h generalizing last' with
  | @done last directives here g offset hgap =>
      obtain ⟨taken, mode, g₁, htaken, hpasses, hstops⟩ := gap_factor hgap
      have hall := hpasses size' .between (t.span.stop + here.offset) [] rfl
      rw [hstops.gap_eq, ← htaken] at hall
      exact .done hall
  | @token last directives here g start c rest l ts all hgap hlexeme hrest ih =>
      obtain ⟨gapTaken, hahead, hstart, hpasses, hends⟩ := gap_token hgap
      obtain ⟨taken, htaken, hstop, htakes⟩ := lexeme_token hlexeme
      have hstart' :
          t.span.stop + here.offset + byteCount gapTaken = t.span.stop + start := by omega
      have hstop' : t.span.stop + start + byteCount (c :: taken) = t.span.stop + l.here.offset := by
        omega
      have hmore : Run size' (some ((Relocation.behind t).token
          ⟨l.kind, l.text, ⟨start, l.here.offset⟩, g.newline⟩)) g.reversedDirectives
          ⟨t.span.stop + l.here.offset, l.here.ahead⟩
            (ts.map (Relocation.behind t).token) all := ih rfl
      have hrun : Run size' last' directives
          ⟨t.span.stop + here.offset, gapTaken ++ c :: (taken ++ l.here.ahead)⟩ _ all :=
        .token_alike hpasses (htaken ▸ hends) htakes (.refl _) hlast (by rwa [hstart', hstop'])
      rw [hstart', hstop', ← htaken, ← hahead] at hrun
      exact hrun

end Scan

/-! ## The mark as a token -/

/-- A byte-order mark. -/
def byteOrderMark : Char := '\uFEFF'

/-- The token that a byte-order mark is at the beginning of a text. -/
def Token.byteOrderMark : Token := ⟨.mark, "\uFEFF", ⟨0, 3⟩, false⟩

/-- The change for what stands behind a byte-order mark. -/
abbrev Relocation.behindMark : Relocation := .behind .byteOrderMark

namespace Lexed

open Text

/-- The tokens of the text behind a byte-order mark. -/
def marked (l : Lexed) : Lexed :=
  ⟨.byteOrderMark :: l.tokens.map Relocation.behindMark.token, l.directives, 3 + l.size⟩

/-- Behind a byte-order mark, a text has the same tokens in other places, and the
same directives. -/
theorem ofSource_marked {source : String} {l : Lexed} (h : Lexed.ofSource source = .ok l) :
    Lexed.ofSource ("\uFEFF" ++ source) = .ok l.marked := by
  obtain ⟨cs, rfl⟩ : ∃ cs, source = String.ofList cs := ⟨_, String.ofList_toList.symm⟩
  obtain ⟨hsize, hrun⟩ := ofSource_eq_ok.mp h
  have htext : "\uFEFF" ++ String.ofList cs = String.ofList (byteOrderMark :: cs) := by
    simp [byteOrderMark]
  have hbytes : byteCount (byteOrderMark :: cs) = 3 + byteCount cs := byteCount_cons _ _
  rw [htext]
  refine ofSource_eq_ok.mpr ⟨by rw [hbytes, ← hsize]; rfl, ?_⟩
  have hgap :
      Scan.gap (byteCount (byteOrderMark :: cs)) .between ⟨false, []⟩ 0 (byteOrderMark :: cs) =
      .ok (⟨false, []⟩, ⟨0, byteOrderMark :: cs⟩) :=
    Piece.gap_of_not_blank _ _ _ _ (by decide) (by decide)
  have hlength : Scan.markLength (byteOrderMark :: cs) = 1 := by
    rw [Scan.markLength] <;> simp [byteOrderMark]
  have hstarts : Piece.startsMark byteOrderMark := by decide +kernel
  have hlexeme : Scan.lexeme (byteCount (byteOrderMark :: cs)) none 0 byteOrderMark cs =
      .ok ⟨.mark, "\uFEFF", ⟨3, cs⟩⟩ := by
    rw [Piece.lexeme_of_startsMark _ _ _ hstarts (by simp [byteOrderMark]), hlength]
    rfl
  have hrest : Scan.Run (byteCount (byteOrderMark :: cs)) (some .byteOrderMark) [] ⟨3, cs⟩
      (l.tokens.map Relocation.behindMark.token) l.directives := hrun.behind .byteOrderMark _ rfl
  exact .token (g := ⟨false, []⟩) hgap hlexeme hrest

end Lexed

/-! ## The statement that begins with the mark -/

/-- The cursor behind the mark `;`, if that is next. -/
def Cursor.pastSemicolon (s : Cursor) : Cursor := if s.next.isMark ";" then s.advance else s

theorem Cursor.length_rest_pastSemicolon (s : Cursor) :
    s.pastSemicolon.rest.length ≤ s.rest.length := by
  unfold pastSemicolon
  split
  · rw [s.length_rest_advance]
    exact Nat.sub_le _ _
  · exact Nat.le_refl _

theorem Relocation.pastSemicolon_cursor (r : Relocation) (s : Cursor) :
    (r.cursor s).pastSemicolon = r.cursor s.pastSemicolon := by
  unfold Cursor.pastSemicolon
  rw [r.next_cursor, r.isMark_token, r.advance_cursor, apply_ite r.cursor]

namespace StatementGrammar

open PluginSurface.Parser TypeGrammar

variable {types : TypeGrammar} {block : Parser (List Statement)} {s u : Cursor}

/-- A statement that takes a token is passed over with the semicolon behind it. -/
theorem skipStatement_eq {last : Token} {rest : List Token}
    (h : expressionEnd [";"] true none none s.rest = .ok (some last, rest)) :
    skipStatement s =
      .ok ((), ({ s with previous := some last, rest := rest } : Cursor).pastSemicolon) := by
  have hpass : passExpression [";"] true s =
      .ok (true, { s with previous := some last, rest := rest }) := by
    unfold passExpression
    rw [h]
    rfl
  refine bind_eq_ok.mpr ⟨true, _, hpass, ?_⟩
  unfold Cursor.pastSemicolon
  split
  next hnext =>
    exact bind_eq_ok.mpr ⟨true, _, if_pos hnext, rfl⟩
  next hnext =>
    exact bind_eq_ok.mpr ⟨false, _, if_neg hnext, rfl⟩

/-- What begins with a mark that opens no block is passed over. -/
theorem modifiedDeclaration_mark (hkind : s.next.kind = .mark)
    (hbrace : s.next.isMark "\x7b" = false) :
    modifiedDeclaration types block s = (do skipStatement; return ([], Decl.other)) s := by
  have hword (text : String) : s.next.isWord text = false := by simp [Token.isWord, hkind]
  have htake : takeTokens statementModifier s = .ok ([], s) := by
    obtain ⟨previous, rest, finish, nextId, depth, inBound⟩ := s
    cases rest with
    | nil => rfl
    | cons t rest =>
        have ht : statementModifier t (rest.headD finish) = false := by
          simp [statementModifier, show t.kind = .mark from hkind]
        simp only [takeTokens, spanTokens, ht]
        rfl
  have hdeclaration : declaration types block false s =
      (do skipStatement; return Decl.other) s := by
    change (if s.next.isMark "\x7b" then _ else if s.next.kind == .word
      then _ else _ : Parser Decl) s = _
    rw [if_neg (by simp [hbrace]), if_neg (by simp [hkind])]
    rfl
  change (if s.next.isWord "export" then _ else _ : Parser (List Modifier × Decl)) s = _
  rw [hword, if_neg Bool.false_ne_true]
  change (takeTokens statementModifier s >>= fun r ↦
    (do return (modifiers r.1, ← declaration types block (!(modifiers r.1).isEmpty))) r.2) = _
  rw [htake]
  change (declaration types block false s >>= fun r ↦ pure (([], r.1), r.2)) = _
  rw [hdeclaration]
  change ((skipStatement s >>= fun r ↦ pure (Decl.other, r.2)) >>= fun r ↦
    pure (([], r.1), r.2)) = skipStatement s >>= fun r ↦ pure (([], Decl.other), r.2)
  cases skipStatement s <;> rfl

/-- A statement that begins with a mark is passed over, unless it is a block. -/
theorem statement_mark (hkind : s.next.kind = .mark) (hbrace : s.next.isMark "\x7b" = false) :
    statement types block s =
      (skipStatement { s with nextId := s.nextId + 1 }).map fun (_, u) ↦
        (⟨s.nextId, [], .other,
          ⟨s.next.span.start, max u.passed s.next.span.start⟩⟩, u) := by
  have hmodified : modifiedDeclaration types block { s with nextId := s.nextId + 1 } =
      (do skipStatement; return ([], Decl.other)) { s with nextId := s.nextId + 1 } :=
    modifiedDeclaration_mark hkind hbrace
  change (modifiedDeclaration types block { s with nextId := s.nextId + 1 } >>= fun r ↦
    pure (Statement.mk s.nextId r.1.1 r.1.2
      ⟨s.next.span.start, max r.2.passed s.next.span.start⟩, r.2)) = _
  rw [hmodified]
  change ((skipStatement { s with nextId := s.nextId + 1 } >>= fun r ↦
    pure (([], Decl.other), r.2)) >>= _) = _
  cases skipStatement { s with nextId := s.nextId + 1 } <;> rfl

/-- A round over statements where neither the end of the text nor a closing brace is next. -/
theorem statementsStep_eq {inBraces : Bool} (found : List Statement) (hrest : s.rest ≠ [])
    (hbrace : s.next.isMark "\x7d" = false) :
    statementsStep types block inBraces found s =
      if s.next.isMark ";" then .ok (.again found, s.advance)
      else (statement types block s).map fun (a, u) ↦ (.again (a :: found), u) := by
  have hend : ¬ s.atEnd := fun h ↦ hrest (List.isEmpty_iff.mp h)
  change (if s.atEnd then _ else _ : Parser (Round (List Statement) (List Statement))) s = _
  rw [if_neg hend]
  change (if s.next.isMark "\x7d" then _ else _ : Parser
    (Round (List Statement) (List Statement))) s = _
  rw [if_neg (by simp [hbrace])]
  change (Parser.eatMark ";" s >>= fun r ↦
    (if r.1 then pure (.again found) else do return .again ((← statement types block) :: found)
      : Parser (Round (List Statement) (List Statement))) r.2) = _
  unfold Parser.eatMark
  split
  · rfl
  · change (statement types block s >>= fun r ↦ pure (Round.again (r.1 :: found), r.2)) = _
    cases statement types block s <;> rfl

end StatementGrammar

/-! ## Statements behind the mark -/

/-- The statement that begins with a byte-order mark and ends at `stop`. -/
def Statement.byteOrderMark (stop : Nat) : Statement := ⟨0, [], .other, ⟨0, stop⟩⟩

/-- Whether an expression that consists of a byte-order mark ends in front of the token. -/
def Token.leavesMark (t : Token) : Bool :=
  t.isMark ";" || t.isCloser || (t.newlineBefore && !t.isMarkIn Parser.leadingMarks)

/-- Whether no token of the text belongs to an expression that a byte-order mark
before it begins. -/
def Lexed.leavesMark (l : Lexed) : Bool := l.tokens.head?.all Token.leavesMark

namespace Parser

theorem isMarkIn_semicolon (t : Token) : t.isMarkIn [";"] = t.isMark ";" := by
  simp only [Token.isMarkIn, Token.isMark, List.contains_cons, List.contains_nil, Bool.or_false]

theorem breaksExpression_byteOrderMark (t : Token) :
    breaksExpression (some .byteOrderMark) t = (t.newlineBefore && !t.isMarkIn leadingMarks) := by
  rw [breaksExpression, show Token.byteOrderMark.isMarkIn trailingMarks = false by decide,
    Bool.not_false, Bool.and_true]

/-- The expression that a byte-order mark begins takes the next token unless that ends it. -/
theorem expressionEnd_byteOrderMark (ts : List Token) :
    expressionEnd [";"] true none none (.byteOrderMark :: ts) =
      if ts.head?.all Token.leavesMark then .ok (some .byteOrderMark, ts)
      else expressionEnd [";"] true (ts.head?.bind fun t ↦ if t.isOpener then some (t, 0)
        else none) ts.head? ts.tail := by
  rw [expressionEnd_plain ⟨by decide, by decide⟩ (by decide) rfl]
  cases ts with
  | nil => rfl
  | cons t ts =>
      rw [expressionEnd, isMarkIn_semicolon, Bool.true_and, breaksExpression_byteOrderMark]
      rfl

theorem length_le_of_expressionEnd {t : Token} {ts rest : List Token} {last : Option Token}
    (ht : t.leavesMark = false)
    (h : expressionEnd [";"] true none none (.byteOrderMark :: t :: ts) = .ok (last, rest)) :
    rest.length ≤ ts.length := by
  rw [expressionEnd_byteOrderMark, if_neg (by simp [ht])] at h
  obtain ⟨taken, hts, -⟩ := expressionEnd_append h
  rw [List.tail_cons] at hts
  rw [hts, List.length_append]
  exact Nat.le_add_left _ _

end Parser

namespace StatementGrammar

open PluginSurface.Parser TypeGrammar

variable {types : TypeGrammar} {block : Parser (List Statement)} {l : Lexed} {u : Cursor}

/-- Behind the mark `;` that a text begins with, the same statements are read. -/
theorem rounds_pastSemicolon {body : List Statement}
    (h : statements types block false (.start l) = .ok (body, u)) :
    rounds (statementsStep types block false) [] (Cursor.start l).pastSemicolon =
      .ok (body, u) := by
  unfold Cursor.pastSemicolon
  split
  next hmark =>
    have hrest : (Cursor.start l).rest ≠ [] := rest_ne_nil_of_isMark rfl hmark
    obtain ⟨round, v, hround, h⟩ := bind_eq_ok.mp h
    rw [statementsStep_eq [] hrest (Token.isMark_of_ne hmark (by decide)), if_pos hmark] at hround
    cases hround
    refine roundsWithin_of_length_le ?_ h
    rw [List.length_cons, Cursor.length_rest_advance]
    have hlength := List.length_pos_of_ne_nil hrest
    change l.tokens.length ≤ l.tokens.length - 1 + 1
    omega
  next => exact h

/-- The statement that is the mark, where it leaves the text. -/
theorem statement_marked (hleaves : l.leavesMark) :
    statement types block (.start l.marked) =
      .ok (.byteOrderMark (3 + (Cursor.start l).pastSemicolon.passed),
        Relocation.behindMark.cursor (Cursor.start l).pastSemicolon) := by
  have hend : expressionEnd [";"] true none none l.marked.tokens =
      .ok (some .byteOrderMark, l.tokens.map Relocation.behindMark.token) := by
    refine (expressionEnd_byteOrderMark _).trans (if_pos ?_)
    rw [List.head?_map, Option.all_map]
    exact hleaves
  rw [statement_mark rfl rfl, skipStatement_eq hend]
  change Except.ok (Statement.mk 0 [] .other
    ⟨0, max (Relocation.behindMark.cursor (.start l)).pastSemicolon.passed 0⟩,
    (Relocation.behindMark.cursor (.start l)).pastSemicolon) = _
  rw [Relocation.pastSemicolon_cursor, Relocation.passed_cursor, Nat.max_zero]
  rfl

/-- Where the statement that is the mark leaves the text, all statements are read behind it. -/
theorem statements_marked (htype : ∀ conditional, Placeless .behindMark (types.type conditional))
    (hblock : Parallel .behindMark Relocation.behindMark.statements block block)
    (hleaves : l.leavesMark) {body : List Statement}
    (h : statements types block false (.start l) = .ok (body, u)) :
    statements types block false (.start l.marked) =
      .ok (.byteOrderMark (3 + (Cursor.start l).pastSemicolon.passed) ::
        Relocation.behindMark.statements body, Relocation.behindMark.cursor u) := by
  let first := Statement.byteOrderMark (3 + (Cursor.start l).pastSemicolon.passed)
  have hround : statementsStep types block false [] (.start l.marked) =
      .ok (.again [first], Relocation.behindMark.cursor (Cursor.start l).pastSemicolon) := by
    rw [statementsStep_eq [] (List.cons_ne_nil _ _) rfl, statement_marked hleaves]
    rfl
  have hrounds := parallel_rounds (parallel_statementsStep htype hblock false [first]) []
    (Cursor.start l).pastSemicolon
  rw [rounds_pastSemicolon h] at hrounds
  refine bind_eq_ok.mpr ⟨_, _, hround, roundsWithin_of_length_le ?_ hrounds⟩
  change _ ≤ l.marked.tokens.length
  simp only [Lexed.marked, List.length_cons, Relocation.rest_cursor, List.length_map]
  exact Nat.succ_le_succ (Cursor.start l).length_rest_pastSemicolon

/-- The statement that is the mark takes a token that does not end it. -/
theorem taken_marked (htaken : l.leavesMark = false) {a : Statement}
    (h : statement types block (.start l.marked) = .ok (a, u)) :
    (∃ stop, a = .byteOrderMark stop) ∧
      ∃ t ts, l.tokens = t :: ts ∧ t.leavesMark = false ∧ u.rest.length ≤ ts.length := by
  rw [statement_mark rfl rfl] at h
  obtain ⟨⟨_, v⟩, hskip, heq⟩ := except_map_eq_ok.mp h
  cases heq
  obtain ⟨taken, v, hpass, hbehind⟩ := bind_eq_ok.mp hskip
  have hreads : OnlyReads (do
      unless (← Parser.eatMark ";") || taken || (← atMark "\x7d") do
        let _ ← bump : Parser Unit) := by
    grind
  have hlength := (hreads.moves _ _ _ hbehind).length_le
  refine ⟨⟨_, rfl⟩, ?_⟩
  obtain ⟨tokens, directives, size⟩ := l
  cases tokens with
  | nil => cases htaken
  | cons t ts =>
      unfold passExpression at hpass
      split at hpass
      next last rest hend =>
        cases hpass
        have hrest := length_le_of_expressionEnd (t := Relocation.behindMark.token t) htaken hend
        rw [List.length_map] at hrest
        exact ⟨t, ts, rfl, htaken, Nat.le_trans hlength hrest⟩
      next => cases hpass

/-- The first statement of a marked text is the one that begins with the mark. -/
theorem exists_first_marked {body : List Statement}
    (h : statements types block false (.start l.marked) = .ok (body, u)) :
    ∃ a v rest, statement types block (.start l.marked) = .ok (a, v) ∧ body = a :: rest := by
  -- After the first round, the statement found in it stays the last one in the list.
  refine rounds_induction
    (I := fun found t ↦ found = [] ∧ t = .start l.marked ∨
      ∃ a v rest, statement types block (.start l.marked) = .ok (a, v) ∧ found = rest ++ [a])
    (Q := fun all _ ↦ ∃ a v rest, statement types block (.start l.marked) = .ok (a, v) ∧
      all = a :: rest) ?_ (.inl ⟨rfl, rfl⟩) h
  rintro found t r v (⟨rfl, rfl⟩ | ⟨a, w, rest, ha, rfl⟩) hr
  · rw [statementsStep_eq [] (List.cons_ne_nil _ _) rfl] at hr
    obtain ⟨⟨a, w⟩, ha, heq⟩ := except_map_eq_ok.mp hr
    cases heq
    exact .inr ⟨a, v, [], ha, rfl⟩
  · rcases statementsStep_eq_ok hr with ⟨rfl, -, -, -⟩ | ⟨rfl, -, -, -⟩ | ⟨rfl, -, -⟩ |
      ⟨b, rfl, -, -, -⟩
    · exact ⟨a, w, rest.reverse, ha, List.reverse_concat⟩
    · exact ⟨a, w, rest.reverse, ha, List.reverse_concat⟩
    · exact .inr ⟨a, w, rest, ha, rfl⟩
    · exact .inr ⟨a, w, b :: rest, ha, rfl⟩

end StatementGrammar

/-! ## Source texts -/

namespace SourceFile

open PluginSurface.Parser StatementGrammar TypeGrammar

/-- The tree in which the mark is a statement that ends at `stop`, and the statements
of `f` follow. -/
def marked (f : SourceFile) (stop : Nat) : SourceFile :=
  ⟨.byteOrderMark stop :: f.statements.map Relocation.behindMark.statement, f.references⟩

theorem isModule_marked (f : SourceFile) (stop : Nat) : (f.marked stop).isModule = f.isModule := by
  change (false || (f.statements.map Relocation.behindMark.statement).any Statement.marksModule) = _
  rw [Bool.false_or, List.any_map]
  exact congrArg (f.statements.any ·) (funext (marksModule_relocated _))

/-- A text that was scanned is read as its tokens are. -/
theorem ofSource_iff_statements {source : String} {l : Lexed} {f : SourceFile}
    (hl : Lexed.ofSource source = .ok l) :
    ofSource source = .ok f ↔ f.references = l.directives.filterMap Reference.ofDirective? ∧
      ∃ u, StatementGrammar.statements (within maxNesting) (block maxNesting) false (.start l) =
        .ok (f.statements, u) := by
  refine ofSource_eq_ok.trans ⟨?_, fun h ↦ ⟨l, hl, h⟩⟩
  rintro ⟨l', hl', h⟩
  cases hl.symm.trans hl'
  exact h

/-- The tokens of a text that was scanned are those of its statements. -/
theorem statementTokens_ofSource {source : String} {l : Lexed} {f : SourceFile}
    (hl : Lexed.ofSource source = .ok l) (h : ofSource source = .ok f) :
    StatementTokens (fun _ ↦ True) l.tokens f.statements := by
  obtain ⟨l', hl', htokens⟩ := tokens_ofSource h
  cases hl.symm.trans hl'
  exact htokens _ fun _ _ _ _ _ _ _ _ _ _ _ ↦ trivial

/-- Where the statement that is the mark leaves the text, all statements of the text follow it. -/
theorem ofSource_marked {source : String} {l : Lexed} {f : SourceFile}
    (hl : Lexed.ofSource source = .ok l) (hleaves : l.leavesMark) (h : ofSource source = .ok f) :
    ofSource ("\uFEFF" ++ source) =
      .ok (f.marked (3 + (Cursor.start l).pastSemicolon.passed)) := by
  obtain ⟨hreferences, u, hbody⟩ := (ofSource_iff_statements hl).mp h
  refine (ofSource_iff_statements (Lexed.ofSource_marked hl)).mpr
    ⟨hreferences, Relocation.behindMark.cursor u, ?_⟩
  rw [statements_marked (placeless_within maxNesting).1 (parallel_block maxNesting) hleaves hbody,
    Relocation.statements_eq_map]
  rfl

/-- Where the statement that is the mark does not leave the text, the first statement of the text
begins in it, and all others are behind it. -/
theorem taken_ofSource {source : String} {l : Lexed} {f g : SourceFile}
    (hl : Lexed.ofSource source = .ok l) (htaken : l.leavesMark = false)
    (hf : ofSource source = .ok f) (hg : ofSource ("\uFEFF" ++ source) = .ok g) :
    ∃ stop rest first more, g.statements = .byteOrderMark stop :: rest ∧
      f.statements = first :: more ∧ 3 + first.span.start < stop ∧
      ∀ s ∈ rest.flatMap Statement.subtree, stop ≤ s.span.start := by
  have hmarked := Lexed.ofSource_marked hl
  obtain ⟨-, u, hbody⟩ := (ofSource_iff_statements hmarked).mp hg
  obtain ⟨a, v, rest, ha, hstatements⟩ := exists_first_marked hbody
  obtain ⟨⟨stop, rfl⟩, t, ts, hts, ht, hlength⟩ := taken_marked htaken ha
  have hordered := ordered_ofSource hmarked
  have htokens := statementTokens_ofSource hmarked hg
  have hftokens := statementTokens_ofSource hl hf
  rw [hts] at hftokens
  have hsemicolon : t.isMark ";" = false := by
    simp only [Token.leavesMark, Bool.or_eq_false_iff] at ht
    exact ht.1.1
  obtain ⟨first, more, hfirst, hstart⟩ := hftokens.head hsemicolon
  refine ⟨stop, rest, first, more, hstatements, hfirst, ?_, fun s hs ↦ ?_⟩
  · -- The statement ends with a token that is not in front of the first one of the text.
    obtain ⟨-, own, begin, last, hrest, hbegin, hlast, -, hspan, -⟩ :=
      tokens_statement (P := fun _ ↦ True) (onlyReads_within maxNesting).1
        (readsBody_block hordered (fun _ _ _ _ _ _ _ _ _ _ _ ↦ trivial) maxNesting)
        (takesFrom_statement maxNesting) hordered (List.suffix_refl _)
        ⟨rfl, List.cons_ne_nil _ _, rfl⟩ ha
    have hall : l.marked.tokens = own ++ v.rest := hrest
    have htwo : 1 < own.length := by
      have hlengths := congrArg List.length hall
      simp only [Lexed.marked, hts, List.map_cons, List.length_cons, List.length_map,
        List.length_append] at hlengths
      omega
    have hmem : Relocation.behindMark.token t ∈ own := by
      refine List.mem_of_getElem? (i := 1) ?_
      have hsecond : (own ++ v.rest)[1]? = own[1]? := List.getElem?_append_left htwo
      rw [← hsecond, ← hall, Lexed.marked, hts]
      rfl
    have hown : Ordered own := hordered.sublist (hall ▸ List.sublist_append_left own v.rest)
    have hstop : stop = last.span.stop := congrArg Span.stop hspan
    have hnonempty := hown.nonempty _ hmem
    have hbehind := (hown.between hbegin hlast _ hmem).2
    rw [hstart, hstop]
    exact Nat.lt_of_lt_of_le hnonempty hbehind
  · obtain ⟨r, hr, hs⟩ := List.mem_flatMap.mp hs
    have hwithin : ∀ t ∈ l.marked.tokens, 0 ≤ t.span.start ∧
        t.span.stop ≤ 0 + byteCount ("\uFEFF" ++ source).toList :=
      fun t ht ↦ ⟨Nat.zero_le _, (Lexed.laid_of_ofSource hmarked).byteCount_le t ht⟩
    have hpairwise := (htokens.between hordered _ _ hwithin).2
    rw [hstatements] at hpairwise
    have hbefore : stop ≤ r.span.start := (List.pairwise_cons.mp hpairwise).1 r hr
    obtain ⟨own, hown, hr⟩ := htokens.hasTokens r (hstatements ▸ List.mem_cons_of_mem _ hr)
    exact Nat.le_trans hbefore (hr.inside (hordered.sublist hown) s hs).1

/-- With a byte-order mark in front, a text is never read as the same statements in other places:
the mark becomes a statement that declares nothing. If the text has no tokens, or its first token
ends an expression, all its statements follow in their new places, and the text is a module if it
was one. Otherwise its first statement begins inside that of the mark, so it is lost, or the text is
refused; whatever else is read stands behind. -/
theorem ofSource_byteOrderMark {source : String} {f : SourceFile} (h : ofSource source = .ok f) :
    ∃ l, Lexed.ofSource source = .ok l ∧ Lexed.ofSource ("\uFEFF" ++ source) = .ok l.marked ∧
      (l.leavesMark → ∃ stop, ofSource ("\uFEFF" ++ source) = .ok (f.marked stop) ∧
        (f.marked stop).isModule = f.isModule) ∧
      ∀ g, ofSource ("\uFEFF" ++ source) = .ok g → g.references = f.references ∧
        g.statements.map Statement.span ≠
          f.statements.map (fun s ↦ Relocation.behindMark.span s.span) ∧
        (l.leavesMark = false → ∃ stop rest first more, g.statements = .byteOrderMark stop ::
          rest ∧ f.statements = first :: more ∧ 3 + first.span.start < stop ∧
          ∀ s ∈ rest.flatMap Statement.subtree, stop ≤ s.span.start) := by
  obtain ⟨l, hl, -⟩ := tokens_ofSource h
  have hmarked := Lexed.ofSource_marked hl
  refine ⟨l, hl, hmarked, fun hleaves ↦
    ⟨_, ofSource_marked hl hleaves h, isModule_marked f _⟩,
    fun g hg ↦ ⟨?_, fun hspans ↦ ?_, fun htaken ↦ taken_ofSource hl htaken h hg⟩⟩
  · rw [((ofSource_iff_statements hmarked).mp hg).1, ((ofSource_iff_statements hl).mp h).1]
    rfl
  · obtain ⟨a, rest, ha, hstart⟩ := (statementTokens_ofSource hmarked hg).head (by decide)
    rw [ha, List.map_cons] at hspans
    obtain ⟨s, -, hs⟩ := List.mem_map.mp (hspans ▸ List.mem_cons_self)
    have hbegin : 3 + s.span.start = 0 := (congrArg Span.start hs).trans hstart
    omega

/-- An exported class, which is not declared behind a mark, and the text is no module. -/
theorem ofSource_byteOrderMark_exported :
    ∃ f g, ofSource "export class A \x7b\x7d" = .ok f ∧ f.isModule ∧
      ofSource "\uFEFFexport class A \x7b\x7d" = .ok g ∧ g.isModule = false ∧
      g.statements.map Statement.span = [⟨0, 20⟩] ∧
      g.statements.map Statement.span ≠
        f.statements.map (fun s ↦ Relocation.behindMark.span s.span) := by
  have hplain : (ofSource "export class A \x7b\x7d").toOption.map isModule = some true := by
    decide +kernel
  have hmarked : (ofSource "\uFEFFexport class A \x7b\x7d").toOption.map
      (fun g ↦ (g.isModule, g.statements.map Statement.span)) = some (false, [⟨0, 20⟩]) := by
    decide +kernel
  obtain ⟨f, hf, hmodule⟩ := Option.map_eq_some_iff.mp hplain
  obtain ⟨g, hg, hread⟩ := Option.map_eq_some_iff.mp hmarked
  have hf := toOption_eq_some.mp hf
  have hg := toOption_eq_some.mp hg
  obtain ⟨hnone, hspans⟩ := Prod.mk.injEq .. ▸ hread
  obtain ⟨_, -, -, -, hbehind⟩ := ofSource_byteOrderMark hf
  exact ⟨f, g, hf, hmodule, hg, hnone, hspans, (hbehind g hg).2.1⟩

-- Where only the name of a class is taken, its body is read as a block, and refused.
example : (ofSource "class A\n\x7b enum: string \x7d").toOption.isSome ∧
    (ofSource "\uFEFFclass A\n\x7b enum: string \x7d").toOption.isSome = false := by
  decide +kernel

end SourceFile

end PluginSurface
