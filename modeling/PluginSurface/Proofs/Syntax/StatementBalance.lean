import PluginSurface.Proofs.Syntax.Bodies
import PluginSurface.Proofs.Syntax.StatementProgress
import PluginSurface.Proofs.Syntax.TypeBalance

/-!
# Brackets in declarations

Each rule for declarations keeps brackets if the rules for types and blocks inside it do. A
statement that declares nothing is skipped up to a bracket that it did not open, so a statement
keeps brackets where that bracket can only be the brace of the block around it; and a block ends at
the partner of its brace.
-/

namespace PluginSurface.StatementGrammar

open PluginSurface.Parser TypeGrammar

/-! ## Rules without types -/

@[grind ←]
theorem keeps_declaredName : Keeps declaredName := by
  unfold declaredName
  grind

@[grind ←]
theorem keeps_terminator : Keeps terminator := by
  unfold terminator
  grind

@[grind ←]
theorem keeps_exportAssignment (isEquals : Bool) : Keeps (exportAssignment isEquals) := by
  unfold exportAssignment
  grind

@[grind ←]
theorem keeps_exportName : Keeps exportName := by
  intro k m s
  refine turnsFrom_look ?_
  split
  next h =>
    have hkind : (s.token 0).kind ≠ .mark := by
      rw [Bool.or_eq_true, beq_iff_eq, beq_iff_eq] at h
      rcases h with h | h <;> exact h ▸ nofun
    exact turnsFrom_bump (Token.isPlain_of_kind hkind) fun _ ↦ keeps_pure _
  next => exact keeps_unexpected _ _ _ _

@[grind ←]
theorem keeps_skipAttributes : Keeps skipAttributes := by
  intro k m s
  refine turnsFrom_look (turnsFrom_look ?_)
  split
  next h =>
    rw [Bool.and_eq_true, Bool.or_eq_true, ← Cursor.next_advance] at h
    refine turnsFrom_bump_bind (h.1.elim isPlain_of_isWord isPlain_of_isWord) ?_
    exact (enclosesFrom_skipGroup (Token.isOpener_of_isMark brace_mem h.2)).turnsFrom
  next => exact keeps_pure _ k m s

@[grind ←]
theorem keeps_skipTypeWord : Keeps skipTypeWord := by
  intro k m s
  refine turnsFrom_look (turnsFrom_atWord ?_)
  split
  next h =>
    rw [Bool.and_eq_true, Bool.and_eq_true] at h
    exact turnsFrom_bump (isPlain_of_isWord h.1.1) fun _ ↦ keeps_pure _
  next => exact keeps_pure _ k m s

theorem keeps_exportSpecifier : Keeps exportSpecifier := by
  unfold exportSpecifier
  grind

@[grind ←]
theorem keeps_exportDeclaration : Keeps exportDeclaration := by
  have hnamed := closes_listUntil brace_mem fun _ ↦ keeps_exportSpecifier
  unfold exportDeclaration
  refine keeps_bind (keeps_eatWord _) fun typeOnly ↦ keeps_bind (keeps_eatMark rfl) fun all ↦ ?_
  extract_lets rest
  have hrest (clause : ExportClause) : Keeps (rest clause) := by
    refine keeps_bind (keeps_afterWord _ keeps_expectString) fun _ ↦ ?_
    exact keeps_bind keeps_skipAttributes fun _ ↦
      keeps_bind keeps_terminator fun _ ↦ keeps_pure _
  split
  · exact keeps_bind (keeps_afterWord _ keeps_exportName) fun _ ↦ keeps_bind (keeps_pure _) hrest
  intro k
  refine turns_bind (turns_opener brace_mem k) fun _ ↦ turns_bind (hnamed.turns k) fun _ ↦ ?_
  exact turns_bind (keeps_pure _ k) fun _ ↦ hrest _ k

theorem sees_atTypeOnlyImport : Sees atTypeOnlyImport := by
  intro s found t h
  cases h
  refine ⟨rfl, fun hfound ↦ ?_⟩
  rw [Bool.and_eq_true, Bool.and_eq_true] at hfound
  exact isPlain_of_isWord hfound.1.1

@[grind ←]
theorem keeps_importTarget : Keeps importTarget := by
  intro k m s
  refine turnsFrom_atWord (turnsFrom_look ?_)
  split
  next h =>
    rw [Bool.and_eq_true, ← Cursor.next_advance] at h
    refine turnsFrom_bump_bind (isPlain_of_isWord h.1) ?_
    refine turnsFrom_bump_opener parenthesis_mem h.2 ?_
    refine turns_bind (keeps_expectString _) (fun _ ↦ ?_) m _
    exact turns_bind (turns_closer parenthesis_mem k) fun _ ↦ keeps_pure _ k
  next => exact keeps_bind keeps_entityName (fun _ ↦ keeps_pure _) k m s

theorem keeps_importSpecifier : Keeps importSpecifier := by
  unfold importSpecifier
  grind

@[grind ←]
theorem keeps_importClause : Keeps importClause := by
  have hnamed := closes_listUntil brace_mem fun _ ↦ keeps_importSpecifier
  unfold importClause
  refine keeps_bind (keeps_eatMark rfl) fun _ ↦ ?_
  split
  · grind
  intro k
  refine turns_eatMark_opener brace_mem ?_ ?_
  · exact turns_bind (hnamed.turns k) fun _ ↦ keeps_pure _ k
  · exact keeps_pure _ k

theorem keepsPlain_importDeclaration : KeepsPlain importDeclaration := by
  refine keepsPlain_bump fun _ k m s ↦
    turnsFrom_sees sees_atTypeOnlyImport fun typeOnly hplain ↦ ?_
  extract_lets unnamed clauses rest
  have hclauses (default : Option String) : Keeps (clauses () default) := by
    refine keeps_bind keeps_importClause fun _ ↦ ?_
    grind
  have hrest : Keeps (rest ()) := by
    intro k m s
    refine turnsFrom_look ?_
    split
    next h =>
      refine turnsFrom_bump (Token.isPlain_of_kind (beq_iff_eq.mp h ▸ nofun)) fun _ ↦ ?_
      exact keeps_bind keeps_skipAttributes fun _ ↦
        keeps_bind keeps_terminator fun _ ↦ keeps_pure _
    refine turnsFrom_look (turnsFrom_atWord ?_)
    split
    next h =>
      rw [Bool.and_eq_true, beq_iff_eq] at h
      refine turnsFrom_bump (Token.isPlain_of_word h.1) fun _ ↦ ?_
      refine keeps_bind (keeps_eatMark rfl) fun _ ↦ ?_
      split
      · grind
      · exact keeps_bind (keeps_eatMark rfl) fun _ ↦ hclauses _
    refine turnsFrom_atWord (turnsFrom_look ?_)
    split
    next h =>
      rw [Bool.and_eq_true] at h
      refine turnsFrom_bump (isPlain_of_isWord h.1) fun _ ↦ ?_
      exact keeps_bind (keeps_eatMark rfl) fun _ ↦ hclauses _
    next => exact hclauses _ k m s
  split
  next h => exact turnsFrom_bump (hplain h) fun _ ↦ hrest
  next => exact hrest k m s

/-! ## Declarations -/

theorem keeps_enumMember : Keeps enumMember := by
  intro k m s
  refine turnsFrom_look ?_
  extract_lets rest
  have hrest (name : Option String) : Keeps (rest name) := by
    have hvalue := keeps_skipExpression [","] false
    refine keeps_bind (keeps_eatMark rfl) fun _ ↦ ?_
    exact keeps_ite (keeps_bind hvalue fun _ ↦ keeps_pure _) (keeps_pure _)
  split
  next h =>
    have hkind : (s.token 0).kind ≠ .mark := by
      simp only [Bool.or_eq_true, beq_iff_eq] at h
      rcases h with (h | h) | h <;> exact h ▸ nofun
    exact turnsFrom_bump (Token.isPlain_of_kind hkind) fun _ ↦ keeps_bind (keeps_pure _) hrest
  split
  next h =>
    have hopener := Token.isOpener_of_isMark bracket_mem h
    exact turnsFrom_skipGroup hopener (keeps_bind (keeps_pure _) hrest k)
  next => exact keeps_bind (keeps_unexpected _) hrest k m s

theorem closes_enumMembers : Closes [] "\x7d" (listUntil "\x7d" fun _ ↦ enumMember) :=
  closes_listUntil brace_mem fun _ ↦ keeps_enumMember

theorem keeps_enumBody : Keeps enumBody := fun k ↦
  turns_bind (turns_opener brace_mem k) fun _ ↦ closes_enumMembers.turns k

theorem keepsPlain_enumDeclaration : KeepsPlain enumDeclaration := by
  refine keepsPlain_bump fun _ k ↦ turns_bind (keeps_declaredName k) fun _ ↦ ?_
  exact turns_bind (keeps_enumBody k) fun _ ↦ keeps_pure _ k

section

variable {types : TypeGrammar} (htype : ∀ conditional, Keeps (types.type conditional))

include htype

theorem keeps_declarator : Keeps (declarator types) := by
  intro k m s
  refine turnsFrom_look ?_
  extract_lets rest
  have hrest (name : Option Name) : Keeps (rest name) := by
    have hvalue := keeps_skipExpression [",", ";"] true
    refine keeps_bind (keeps_eatMark rfl) fun _ ↦ ?_
    refine keeps_bind (keeps_ascription (htype true)) fun _ ↦
      keeps_bind (keeps_eatMark rfl) fun _ ↦ ?_
    exact keeps_ite (keeps_bind hvalue fun _ ↦ keeps_pure _) (keeps_pure _)
  split
  next h =>
    have hopener : s.next.isOpener = true := Token.isOpener_of_isMarkIn (by decide) h
    exact turnsFrom_skipGroup hopener (keeps_bind (keeps_pure _) hrest k)
  next => exact keeps_bind keeps_declaredName (fun _ ↦ keeps_bind (keeps_pure _) hrest) k m s

theorem keepsPlain_variableStatement : KeepsPlain (variableStatement types) := by
  refine keepsPlain_bump fun _ ↦ ?_
  extract_lets word keyword
  have hdeclarators : Keeps (separated "," (declarator types)) :=
    keeps_separated rfl (keeps_declarator htype)
  exact keeps_bind hdeclarators fun _ ↦ keeps_bind keeps_terminator fun _ ↦ keeps_pure _

theorem keepsPlain_aliasDeclaration : KeepsPlain (aliasDeclaration types) := by
  refine keepsPlain_bump fun _ ↦ keeps_bind keeps_declaredName fun _ ↦ ?_
  refine keeps_bind (keeps_typeParams (htype true)) fun _ ↦ ?_
  refine keeps_bind (keeps_expectMark rfl) fun _ ↦ ?_
  exact keeps_bind (htype true) fun _ ↦ keeps_bind keeps_terminator fun _ ↦ keeps_pure _

theorem keeps_heritageType : Keeps (heritageType types) := by
  have hargs := keeps_typeArgs (htype true)
  unfold heritageType
  grind

theorem keepsPlain_interfaceDeclaration : KeepsPlain (interfaceDeclaration types) := by
  have hbases : Keeps (separated "," (heritageType types)) :=
    keeps_separated rfl (keeps_heritageType htype)
  refine keepsPlain_bump fun _ ↦ keeps_bind keeps_declaredName fun _ ↦ ?_
  refine keeps_bind (keeps_typeParams (htype true)) fun _ ↦ ?_
  refine keeps_bind (keeps_afterWord _ hbases) fun _ ↦ ?_
  exact keeps_bind (keeps_typeMembers (htype true)) fun _ ↦ keeps_pure _

theorem keeps_heritage : Keeps (heritage types) := by
  have htypes := keeps_heritageType htype
  refine keeps_rounds (fun found ↦ ?_) _
  unfold heritageStep
  refine keeps_bind (keeps_eatWord _) fun extending ↦ ?_
  split
  · refine keeps_bind htypes fun type k m s ↦ turnsFrom_atMark ?_
    split
    next h =>
      exact turnsFrom_skipGroup (Token.isOpener_of_isMark parenthesis_mem h) (keeps_pure _ k)
    next => exact keeps_pure _ k m s
  · grind

variable {block : Parser (List Statement)} (hblock : Keeps block)

include hblock

omit htype in
theorem keeps_optionalBody : Keeps (optionalBody block) := by
  unfold optionalBody
  grind

theorem keepsPlain_functionDeclaration : KeepsPlain (functionDeclaration types block) := by
  have hsignature := keeps_signature (htype true)
  have hbody := keeps_optionalBody hblock
  refine keepsPlain_bump fun _ ↦ keeps_bind (keeps_eatMark rfl) fun _ ↦ ?_
  refine keeps_bind (keeps_look _) fun _ ↦ ?_
  grind

omit htype in
theorem keepsPlain_moduleDeclaration : KeepsPlain (moduleDeclaration block) := by
  have hbody := keeps_optionalBody hblock
  refine keepsPlain_bump fun _ k m s ↦ turnsFrom_look ?_
  extract_lets rest
  have hrest (name : ModuleName) : Keeps (rest name) := keeps_bind hbody fun _ ↦ keeps_pure _
  split
  next h =>
    refine turnsFrom_bump (Token.isPlain_of_kind (beq_iff_eq.mp h ▸ nofun)) fun _ ↦ ?_
    exact keeps_bind (keeps_pure _) hrest
  next => exact keeps_bind keeps_entityName (fun _ ↦ keeps_bind (keeps_pure _) hrest) k m s

theorem keeps_classMemberKind : Keeps (classMemberKind types block) := by
  have hsignature := keeps_signature (htype true)
  have hbody := keeps_optionalBody hblock
  have hindex := keeps_indexSignature (htype true) false
  have hascription := keeps_ascription (htype true)
  intro k m s
  refine turnsFrom_atWord (turnsFrom_look ?_)
  split
  next h =>
    rw [Bool.and_eq_true] at h
    exact turnsFrom_bump (isPlain_of_isWord h.1) fun _ ↦ by grind
  refine turnsFrom_sees sees_atAccessor fun accessor hplain ↦ ?_
  split
  next h => exact turnsFrom_bump (hplain h) fun _ ↦ by grind
  refine keeps_bind keeps_atIndexSignature (fun _ ↦ keeps_ite ?_ ?_) k m s
  · grind
  refine keeps_bind (keeps_eatMark rfl) fun _ ↦ keeps_bind keeps_propertyName fun _ ↦ ?_
  refine keeps_bind (keeps_eatMark rfl) fun _ ↦ keeps_bind (keeps_eatMark rfl) fun _ ↦ ?_
  refine keeps_bind keeps_atSignature fun _ ↦ ?_
  grind

theorem keeps_classMember : Keeps (classMember types block) := by
  have hkind := keeps_classMemberKind htype hblock
  have hmodifier (t next : Token) (h : memberModifier t next = true) : t.IsPlain := by
    simp only [memberModifier, Bool.and_eq_true, beq_iff_eq] at h
    exact Token.isPlain_of_word h.1.1.1
  intro k m s
  refine turnsFrom_look (turnsFrom_atWord (turnsFrom_look ?_))
  split
  next h =>
    rw [Bool.and_eq_true] at h
    exact turnsFrom_bump (isPlain_of_isWord h.1) fun _ ↦
      keeps_bind hblock fun _ ↦ keeps_bind keeps_get fun _ ↦ keeps_pure _
  next =>
    exact keeps_bind (keeps_takeTokens hmodifier) (fun _ ↦
      keeps_bind hkind fun _ ↦ keeps_bind keeps_get fun _ ↦ keeps_pure _) k m s

theorem keepsPlain_classDeclaration : KeepsPlain (classDeclaration types block) := by
  have hmember := keeps_classMember htype hblock
  refine keepsPlain_bump fun _ ↦ keeps_bind (keeps_look _) fun _ ↦ ?_
  extract_lets rest
  have hrest (name : Option Name) : Keeps (rest name) := by
    refine keeps_bind (keeps_typeParams (htype true)) fun _ ↦ ?_
    refine keeps_bind (keeps_heritage htype) fun _ ↦ ?_
    exact keeps_bind (keeps_braced rfl hmember) fun _ ↦ keeps_pure _
  exact keeps_ite (keeps_bind keeps_declaredName fun _ ↦ keeps_bind (keeps_pure _) hrest)
    (keeps_bind (keeps_pure _) hrest)

/-! ## Statements -/

/-- The innermost open bracket is a brace, if one is open. -/
def InBlock (m : List String) : Prop := ∀ close ∈ m.head?, close = "\x7d"

/-- The parser leaves all brackets as they were if the innermost one is a brace or none is open. -/
def KeepsInBlock {α : Type} (p : Parser α) : Prop := ∀ m s, InBlock m → TurnsFrom m [] [] s p

omit htype hblock in
/-- What is not opened in a block and closed in it is the block. -/
theorem isMark_of_isCloser {m : List String} {s : Cursor} (hs : s.Inside m) (hm : InBlock m)
    (hcloser : s.next.isCloser = true) : s.next.isMark "\x7d" = true := by
  have hkind : s.next.kind ≠ .finish := (Token.isMarkIn_iff.mp hcloser).1 ▸ nofun
  have htokens := hs.tokens
  rw [(Cursor.rest_eq_cons (Cursor.rest_ne_nil hs.finish hkind)).1] at htokens
  obtain ⟨j, hj, -⟩ := openBehind_cons_eq_some.mp htokens
  rcases Token.openBehind_cases hj with ⟨hplain, -⟩ | ⟨-, -, -, hopener, -⟩ | ⟨close,
    hmark, -, -, rfl⟩
  · rw [hplain.2] at hcloser
    cases hcloser
  · rw [hopener] at hcloser
    cases hcloser
  · rw [← hm close rfl]
    exact hmark

omit htype hblock in
/-- An expression of no tokens is in front of the end of the text, of a mark at which it stops or of
a bracket that it did not open. -/
theorem stops_of_passExpression {stops : List String} {lines : Bool} {s t : Cursor}
    (h : passExpression stops lines s = .ok (false, t)) :
    s.rest = [] ∨ s.next.isMarkIn stops = true ∨ s.next.isCloser = true := by
  unfold passExpression at h
  cases hrest : s.rest with
  | nil => exact .inl rfl
  | cons t rest =>
      have hnext : s.next = t := by
        unfold Cursor.next Cursor.token
        rw [hrest]
        rfl
      rw [hnext]
      rw [hrest, expressionEnd] at h
      split at h
      next last rest' hend =>
        split at hend
        next hstop =>
          simpa [breaksExpression] using hstop
        next =>
          obtain ⟨taken, -, rfl⟩ := expressionEnd_append hend
          rw [Except.ok.injEq, Prod.mk.injEq] at h
          cases htaken : taken.getLast? <;> simp [htaken] at h
      next => cases h

omit htype hblock in
/-- What is neither part of an expression nor the end of a statement or a block is the end of the
text. -/
theorem isPlain_of_passExpression {m : List String} {s t : Cursor} (hs : s.Inside m)
    (hm : InBlock m) (h : passExpression [";"] true s = .ok (false, t))
    (hsemicolon : s.next.isMark ";" = false) (hbrace : s.next.isMark "\x7d" = false) :
    s.next.IsPlain := by
  rcases stops_of_passExpression h with hrest | hstop | hcloser
  · refine Token.isPlain_of_kind ?_
    rw [Cursor.next, Cursor.token, hrest]
    simp [hs.finish]
  · obtain ⟨hkind, htext⟩ := Token.isMarkIn_iff.mp hstop
    rw [Token.isMark_iff.mpr ⟨hkind, List.mem_singleton.mp htext⟩] at hsemicolon
    cases hsemicolon
  · rw [isMark_of_isCloser hs hm hcloser] at hbrace
    cases hbrace

omit htype hblock in
theorem keepsInBlock_skipStatement : KeepsInBlock skipStatement := by
  intro m s hm hs a u h
  obtain ⟨taken, t, ht, h⟩ := bind_eq_ok.mp h
  have hover := keeps_passExpression _ _ [] m s hs taken t ht
  obtain ⟨semicolon, v, hv, h⟩ := bind_eq_ok.mp h
  have hmark : Keeps (eatMark ";") := keeps_eatMark rfl
  have heaten := hmark [] m t (hs.kept hover) semicolon v hv
  obtain ⟨brace, w, hw, h⟩ := bind_eq_ok.mp h
  cases hw
  split at h
  next =>
    cases h
    exact hover.trans heaten
  next hnone =>
    cases h
    refine (hover.trans heaten).trans (Cursor.over_advance_plain ?_ [])
    simp only [Bool.or_eq_true, not_or, Bool.not_eq_true] at hnone
    obtain ⟨⟨rfl, rfl⟩, hbrace⟩ := hnone
    rcases eatMark_eq_ok hv with ⟨-, ⟨⟩, -⟩ | ⟨hsemicolon, -, rfl⟩
    rcases passExpression_eq_ok ht with ⟨⟨⟩, -⟩ | ⟨-, rfl⟩
    exact isPlain_of_passExpression hs hm ht hsemicolon hbrace

theorem keepsInBlock_declaration (modified : Bool) :
    KeepsInBlock (declaration types block modified) := by
  intro m s hm
  refine turnsFrom_look (turnsFrom_look (turnsFrom_ite (fun _ ↦ ?_) fun _ ↦ ?_))
  · exact keeps_bind hblock (fun _ ↦ keeps_pure _) [] m s
  extract_lets skip rest word
  have hskip (s : Cursor) : TurnsFrom m [] [] s (skip ()) :=
    turnsFrom_bind (keepsInBlock_skipStatement m s hm) fun _ t ↦ keeps_pure _ [] m t
  have hrest (s : Cursor) : TurnsFrom m [] [] s (rest ()) :=
    turnsFrom_ite (fun _ ↦ turnsFrom_bind (keeps_unexpected _ [] m s) fun _ t ↦ hskip t)
      fun _ ↦ hskip s
  refine turnsFrom_ite (fun hkind ↦ ?_) fun _ ↦ hrest s
  have hplain : s.next.IsPlain := Token.isPlain_of_word (beq_iff_eq.mp hkind)
  have hdecl {α : Type} {p : Parser α} (hp : KeepsPlain p) (f : α → Decl) :
      TurnsFrom m [] [] s (p >>= fun a ↦ pure (f a)) :=
    turnsFrom_bind (hp [] m s hplain) fun _ t ↦ keeps_pure _ [] m t
  refine turnsFrom_ite (fun _ ↦ hdecl (keepsPlain_classDeclaration htype hblock) _) fun _ ↦ ?_
  refine turnsFrom_ite (fun _ ↦ hdecl (keepsPlain_interfaceDeclaration htype) _) fun _ ↦ ?_
  refine turnsFrom_look (turnsFrom_ite (fun _ ↦ ?_) fun _ ↦ ?_)
  · exact hdecl (keepsPlain_aliasDeclaration htype) _
  refine turnsFrom_ite (fun _ ↦ keepsPlain_enumDeclaration [] m s hplain) fun _ ↦ ?_
  refine turnsFrom_ite (fun _ ↦ keepsPlain_functionDeclaration htype hblock
    [] m s hplain) fun _ ↦ ?_
  refine turnsFrom_ite (fun _ ↦ keepsPlain_variableStatement htype [] m s hplain) fun _ ↦ ?_
  refine turnsFrom_ite (fun _ ↦ keepsPlain_moduleDeclaration hblock [] m s hplain) fun _ ↦ ?_
  refine turnsFrom_ite (fun _ ↦ ?_) fun _ ↦ ?_
  · exact turnsFrom_bump hplain fun _ ↦ keeps_bind hblock fun _ ↦ keeps_pure _
  · exact turnsFrom_ite (fun _ ↦ keepsPlain_importDeclaration [] m s hplain) fun _ ↦ hrest s

theorem keepsInBlock_modifiedDeclaration : KeepsInBlock (modifiedDeclaration types block) := by
  have hmodifier (t next : Token) (h : statementModifier t next = true) : t.IsPlain := by
    simp only [statementModifier, Bool.and_eq_true, beq_iff_eq] at h
    exact Token.isPlain_of_word h.1
  intro m s hm
  unfold modifiedDeclaration
  extract_lets bare rest exported default
  have hrest (words : List Modifier) (s : Cursor) : TurnsFrom m [] [] s (rest () words) := by
    refine turnsFrom_bind (keeps_takeTokens hmodifier [] m s) fun _ t ↦ ?_
    refine turnsFrom_bind (keepsInBlock_declaration htype hblock _ m t hm) fun _ t ↦ ?_
    exact keeps_pure _ [] m t
  refine turnsFrom_atWord (turnsFrom_ite (fun hword ↦ ?_) fun _ ↦ hrest _ s)
  have hplain := isPlain_of_isWord hword
  refine turnsFrom_look (turnsFrom_look (turnsFrom_ite (fun h ↦ ?_) fun _ ↦ ?_))
  · exact turnsFrom_bumps hplain (isPlain_of_isMark rfl h) fun _ _ ↦
      keeps_bind (keeps_exportAssignment true) fun _ ↦ keeps_pure _
  refine turnsFrom_ite (fun _ ↦ ?_) fun _ ↦ turnsFrom_ite (fun _ ↦ ?_) fun _ ↦ ?_
  · exact turnsFrom_bump hplain fun _ ↦ keeps_bind keeps_exportDeclaration fun _ ↦ keeps_pure _
  · exact keeps_bind (keeps_skipExpression _ _) (fun _ ↦
      keeps_bind keeps_terminator fun _ ↦ keeps_pure _) [] m s
  refine turnsFrom_bump_bind hplain (turnsFrom_bind (keeps_eatWord _ [] m _) fun _ t ↦ ?_)
  refine turnsFrom_ite (fun _ ↦ turnsFrom_look (turnsFrom_look ?_)) fun _ ↦ hrest _ t
  refine turnsFrom_ite (fun _ ↦ hrest _ t) fun _ ↦ ?_
  exact keeps_bind (keeps_exportAssignment false) (fun _ ↦ keeps_pure _) [] m t

theorem keepsInBlock_statement : KeepsInBlock (statement types block) := by
  intro m s hm hs a t h
  obtain ⟨_, hdecl, -⟩ := statement_eq_ok h
  have hover := keepsInBlock_modifiedDeclaration htype hblock m { s with nextId := s.nextId + 1 } hm
    ⟨hs.finish, hs.tokens⟩ _ t hdecl
  exact ⟨hover.finish, hover.tokens⟩

/-- The statements of a block end at the partner of its brace. -/
theorem closes_statements : Closes [] "\x7d" (statements types block true) := by
  refine closes_rounds (fun m found s hs r t h ↦ ?_) []
  rcases statementsStep_eq_ok h with ⟨-, hbraces, -⟩ | ⟨rfl, -, hclose, rfl⟩ | ⟨rfl,
    hmark, rfl⟩ | ⟨a, rfl, -, -, ha⟩
  · cases hbraces
  · exact Cursor.past_advance brace_mem hs.finish hclose
  · exact Cursor.over_advance_plain (isPlain_of_isMark rfl hmark) []
  · refine keepsInBlock_statement htype hblock _ s (fun _ hclose ↦ ?_) hs a t ha
    cases hclose
    rfl

end

/-- A block ends at the partner of its brace, however many levels are left. -/
theorem enclosesFrom_block (n : Nat) (m : List String) (s : Cursor) :
    EnclosesFrom m s (block n) := by
  induction n generalizing m s with
  | zero =>
      intro hs a t h
      obtain ⟨_, _, _, h⟩ := bind_eq_ok.mp h
      cases h
  | succ n ih =>
      have hstatements := closes_statements (keeps_within n).1 (keeps_of_encloses ih)
      exact enclosesFrom_expectMark brace_mem (closes_nested hstatements)

theorem keeps_block (n : Nat) : Keeps (block n) := keeps_of_encloses (enclosesFrom_block n)

end PluginSurface.StatementGrammar
