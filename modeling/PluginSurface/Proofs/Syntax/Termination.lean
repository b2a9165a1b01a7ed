import PluginSurface.Proofs.Source.Boundaries
import PluginSurface.Proofs.Syntax.StatementProgress

/-!
# Parsing comes to an end

Every rule of the grammar keeps the cursor between where it began and the final token, and gives
back the levels and the mode that it found. Every round of a repetition after which another one
follows takes a token. So no repetition stalls, whatever the text, and what the parser refuses it
refuses at a token of the text.
-/

namespace PluginSurface

open PluginSurface.Parser TypeGrammar StatementGrammar

/-! ## Places in a list of tokens -/

/-- The cursor stands at place `i` of the list, whose last token is the final one. -/
structure Cursor.StandsAt (tokens : List Token) (i : Nat) (s : Cursor) : Prop where
  ahead : s.ahead = tokens.drop i
  previous : s.previous = (tokens.take i).getLast?
  finish : s.finish.kind = .finish

namespace Cursor

variable {tokens : List Token} {i : Nat} {s t : Cursor}

theorem length_ahead (s : Cursor) : s.ahead.length = s.rest.length + 1 := List.length_append

theorem StandsAt.lt (h : s.StandsAt tokens i) : i < tokens.length := by
  have hlength := congrArg List.length h.ahead
  rw [length_ahead, List.length_drop] at hlength
  omega

theorem standsAt_start (l : Lexed) : (start l).StandsAt (l.tokens ++ [l.finish]) 0 :=
  ⟨rfl, rfl, rfl⟩

/-- The token that is looked at is one of the list: behind the last one, the last one. -/
theorem StandsAt.token (h : s.StandsAt tokens i) (n : Nat) :
    tokens[min (i + n) (tokens.length - 1)]? = some (s.token n) := by
  have hlength := congrArg List.length h.ahead
  rw [length_ahead, List.length_drop] at hlength
  have hget (k : Nat) : tokens[i + k]? = s.ahead[k]? := by
    rw [h.ahead, List.getElem?_drop]
  unfold Cursor.token
  rcases Nat.lt_or_ge n s.rest.length with hn | hn
  · rw [Nat.min_eq_left (by omega), hget, Cursor.ahead, List.getElem?_append_left hn,
      List.getD_eq_getElem?_getD, List.getElem?_eq_getElem hn]
    rfl
  · rw [Nat.min_eq_right (by omega), List.getD_eq_getElem?_getD, List.getElem?_eq_none hn,
      Option.getD_none]
    have hlast : tokens.length - 1 = i + s.rest.length := by omega
    rw [hlast, hget, Cursor.ahead, List.getElem?_concat_length]

theorem StandsAt.passes (h : s.StandsAt tokens i) (hst : s.Passes t) :
    ∃ taken : Nat, t.StandsAt tokens (i + taken) ∧ s.rest.length = taken + t.rest.length := by
  obtain ⟨taken, hrest, hprevious⟩ := hst.tokens
  refine ⟨taken.length, ⟨?_, ?_, hst.finish ▸
    h.finish⟩, by rw [hrest, List.length_append]⟩
  · rw [← List.drop_drop, ← h.ahead, Cursor.ahead, Cursor.ahead, hrest, hst.finish,
      List.append_assoc, List.drop_left]
  · have htake : (tokens.drop i).take taken.length = taken := by
      rw [← h.ahead, Cursor.ahead, hrest, List.append_assoc, List.take_left]
    rw [List.take_add, htake, List.getLast?_append, hprevious, h.previous]

end Cursor

/-! ## The rules and the repetitions -/

namespace SourceGrammar

/-- The rules for types in a source text. -/
abbrev types : TypeGrammar := within maxNesting

/-- The rule for a type. -/
abbrev type : Parser TypeExpr := types.type true

/-- The rule for a block of statements in braces. -/
abbrev body : Parser (List Statement) := block maxNesting

/-- The parsers by which a source text is read. -/
inductive IsRule : {α : Type} → Parser α → Prop
  | takeTokens (p : Token → Token → Bool) : IsRule (takeTokens p)
  | takeGroup : IsRule takeGroup
  | skipGroup : IsRule skipGroup
  | passExpression (stops : List String) (lines : Bool) : IsRule (passExpression stops lines)
  | skipExpression (stops : List String) (lines : Bool) : IsRule (skipExpression stops lines)
  | entityName : IsRule entityName
  | propertyName : IsRule propertyName
  | memberSeparator : IsRule memberSeparator
  | ascription : IsRule (ascription type)
  | typeParam : IsRule (typeParam type)
  | typeParams : IsRule (typeParams type)
  | typeArgs : IsRule (typeArgs type)
  | param (place : Nat) : IsRule (param type place)
  | params : IsRule (params type)
  | resultType : IsRule (resultType type)
  | signature : IsRule (signature type)
  | indexSignature (readonly : Bool) : IsRule (indexSignature type readonly)
  | namedMember (readonly : Bool) : IsRule (namedMember type readonly)
  | typeMember : IsRule (typeMember type)
  | separatedMember : IsRule (separatedMember type)
  | typeMembers : IsRule (typeMembers type)
  | importType (isTypeof : Bool) : IsRule (importType type isTypeof)
  | namedType : IsRule (namedType type)
  | readonlyModifier : IsRule (mappedModifier (eatWord "readonly"))
  | optionalModifier : IsRule (mappedModifier (eatMark "?"))
  | mappedType : IsRule (mappedType type)
  | tupleElement : IsRule (tupleElement type)
  | tupleType : IsRule (tupleType type)
  | primaryType : IsRule (primaryType type)
  | postfixType : IsRule (postfixType type)
  | functionType : IsRule (functionType type)
  | inferBound : IsRule (inferBound (types.type false))
  | operand : IsRule types.operand
  | intersection : IsRule (chain "&" .intersection types.operand)
  | union : IsRule (chain "|" .union (chain "&" .intersection types.operand))
  | type (conditional : Bool) : IsRule (types.type conditional)
  | declaredName : IsRule declaredName
  | terminator : IsRule terminator
  | exportAssignment (isEquals : Bool) : IsRule (exportAssignment isEquals)
  | exportName : IsRule exportName
  | skipAttributes : IsRule skipAttributes
  | skipTypeWord : IsRule skipTypeWord
  | exportSpecifier : IsRule exportSpecifier
  | exportDeclaration : IsRule exportDeclaration
  | importTarget : IsRule importTarget
  | importSpecifier : IsRule importSpecifier
  | importClause : IsRule importClause
  | importDeclaration : IsRule importDeclaration
  | enumMember : IsRule enumMember
  | enumDeclaration : IsRule enumDeclaration
  | skipStatement : IsRule skipStatement
  | declarator : IsRule (declarator types)
  | variableStatement : IsRule (variableStatement types)
  | aliasDeclaration : IsRule (aliasDeclaration types)
  | heritageType : IsRule (heritageType types)
  | interfaceDeclaration : IsRule (interfaceDeclaration types)
  | optionalBody : IsRule (optionalBody body)
  | functionDeclaration : IsRule (functionDeclaration types body)
  | moduleDeclaration : IsRule (moduleDeclaration body)
  | classMemberKind : IsRule (classMemberKind types body)
  | classMember : IsRule (classMember types body)
  | heritage : IsRule (heritage types)
  | classDeclaration : IsRule (classDeclaration types body)
  | declaration (modified : Bool) : IsRule (declaration types body modified)
  | modifiedDeclaration : IsRule (modifiedDeclaration types body)
  | statement : IsRule (statement types body)
  | statements (inBraces : Bool) : IsRule (statements types body inBraces)
  | body : IsRule body

/-- The steps that are repeated while a source text is read. -/
inductive IsStep : {β α : Type} → (β → Parser (Round β α)) → Prop
  | entityName : IsStep entityStep
  | qualifier : IsStep qualifierStep
  | typeParams : IsStep (listStep ">" fun _ ↦ typeParam type)
  | typeArgs : IsStep (listStep ">" fun _ ↦ type)
  | params : IsStep (listStep ")" (param type))
  | tupleElements : IsStep (listStep "]" fun _ ↦ tupleElement type)
  | typeMembers : IsStep (bracedStep [";", ","] (separatedMember type))
  | suffix : IsStep (postfixStep type)
  | intersection : IsStep (separatedStep "&" types.operand)
  | union : IsStep (separatedStep "|" (chain "&" .intersection types.operand))
  | exports : IsStep (listStep "\x7d" fun _ ↦ exportSpecifier)
  | imports : IsStep (listStep "\x7d" fun _ ↦ importSpecifier)
  | enumMembers : IsStep (listStep "\x7d" fun _ ↦ enumMember)
  | declarators : IsStep (separatedStep "," (declarator types))
  | bases : IsStep (separatedStep "," (heritageType types))
  | heritage : IsStep (heritageStep types)
  | classMembers : IsStep (bracedStep [";"] (classMember types body))
  | statements (inBraces : Bool) : IsStep (statementsStep types body inBraces)

/-! ### They settle -/

theorem settles_type (conditional : Bool) :
    SettlesAs 0 (types.type conditional) (types.type conditional) :=
  ((settles_within (d := 0) (Nat.le_add_left _ _)).1 conditional).toSettles.as 0

theorem settles_operand : SettlesAs 0 types.operand types.operand :=
  (settles_within (d := 0) (Nat.le_add_left _ _)).2.toSettles.as 0

theorem settles_body : SettlesAs 0 body body :=
  (settles_block (d := 0) (Nat.le_add_left _ _)).1.toSettles.as 0

theorem takes_body : Takes body := (settles_block (d := 0) (Nat.le_add_left _ _)).2

theorem IsRule.settles {α : Type} {p : Parser α} (h : IsRule p) : SettlesAs 0 p p := by
  have htype := settles_type true
  have htypes := settles_type
  have hoperand := settles_operand
  have hbody := settles_body
  cases h with
  | takeTokens p => exact settles_takeTokens p
  | takeGroup => exact settles_takeGroup
  | skipGroup => exact settles_skipGroup
  | passExpression stops lines => exact settles_passExpression stops lines
  | skipExpression stops lines => exact settles_skipExpression stops lines
  | entityName => exact settles_entityName
  | propertyName => exact settles_propertyName
  | memberSeparator => exact settles_memberSeparator
  | ascription => exact settles_ascription htype
  | typeParam => exact settles_typeParam htype
  | typeParams => exact settles_typeParams htype
  | typeArgs => exact settles_typeArgs htype
  | param place => exact settles_param htype place
  | params => exact settles_params htype
  | resultType => exact settles_resultType htype
  | signature => exact settles_signature htype
  | indexSignature readonly => exact settles_indexSignature htype readonly
  | namedMember readonly => exact settles_namedMember htype readonly
  | typeMember => exact settles_typeMember htype
  | separatedMember => exact settles_separatedMember htype
  | typeMembers => exact settles_typeMembers htype
  | importType isTypeof => exact settles_importType htype isTypeof
  | namedType => exact settles_namedType htype
  | readonlyModifier => exact settles_mappedModifier (settles_eatWord _)
  | optionalModifier => exact settles_mappedModifier (settles_eatMark _)
  | mappedType => exact settles_mappedType htype
  | tupleElement => exact settles_tupleElement htype
  | tupleType => exact settles_tupleType htype
  | primaryType => exact settles_primaryType htype
  | postfixType => exact settles_postfixType htype
  | functionType => exact settles_functionType htype
  | inferBound => exact settles_inferBound (htypes false)
  | operand => exact hoperand
  | intersection => exact settles_chain _ _ hoperand
  | union => exact settles_chain _ _ (settles_chain _ _ hoperand)
  | type conditional => exact htypes conditional
  | declaredName => exact settles_declaredName
  | terminator => exact settles_terminator
  | exportAssignment isEquals => exact settles_exportAssignment isEquals
  | exportName => exact settles_exportName
  | skipAttributes => exact settles_skipAttributes
  | skipTypeWord => exact settles_skipTypeWord
  | exportSpecifier => exact settles_exportSpecifier
  | exportDeclaration => exact settles_exportDeclaration
  | importTarget => exact settles_importTarget
  | importSpecifier => exact settles_importSpecifier
  | importClause => exact settles_importClause
  | importDeclaration => exact importDeclaration_past.toSettlesAs
  | enumMember => exact settles_enumMember
  | enumDeclaration => exact enumDeclaration_past.toSettlesAs
  | skipStatement => exact settles_skipStatement
  | declarator => exact settles_declarator htypes
  | variableStatement => exact (variableStatement_past htypes).toSettlesAs
  | aliasDeclaration => exact (aliasDeclaration_past htypes).toSettlesAs
  | heritageType => exact settles_heritageType htypes
  | interfaceDeclaration => exact (interfaceDeclaration_past htypes).toSettlesAs
  | optionalBody => exact settles_optionalBody hbody
  | functionDeclaration => exact (functionDeclaration_past htypes hbody).toSettlesAs
  | moduleDeclaration => exact (moduleDeclaration_past hbody).toSettlesAs
  | classMemberKind => exact settles_classMemberKind htypes hbody
  | classMember => exact settles_classMember htypes hbody
  | heritage => exact settles_heritage htypes
  | classDeclaration => exact (classDeclaration_past htypes hbody).toSettlesAs
  | declaration modified =>
      exact (declaration_past htypes hbody takes_body modified).toSettlesAs
  | modifiedDeclaration => exact (modifiedDeclaration_past htypes hbody takes_body).toSettlesAs
  | statement => exact (statement_past htypes hbody takes_body).toSettlesAs
  | statements inBraces => exact settles_statements htypes hbody takes_body inBraces
  | body => exact hbody

/-- A round of a repetition settles, and takes a token if another one follows. -/
theorem IsStep.settles {α β : Type} {step : β → Parser (Round β α)} (h : IsStep step) :
    Advances step ∧ ∀ state, Settles (step state) := by
  have htype := settles_type true
  have htypes := settles_type
  have hoperand := settles_operand
  have hbody := settles_body
  have hlist (close : String) {α : Type} {item : Nat → Parser α}
      (hitem : ∀ n, SettlesAs 0 (item n) (item n)) :
      Advances (listStep close item) ∧ ∀ state, Settles (listStep close item state) :=
    ⟨advances_listStep close fun n ↦ (hitem n).moves,
      fun found ↦ (settles_listStep close hitem found).toSettles⟩
  have hseparated (separator : String) {α : Type} {item : Parser α}
      (hitem : SettlesAs 0 item item) :
      Advances (separatedStep separator item) ∧
        ∀ state, Settles (separatedStep separator item state) :=
    ⟨advances_separatedStep separator hitem.moves,
      fun found ↦ (settles_separatedStep separator hitem found).toSettles⟩
  cases h with
  | entityName => exact ⟨advances_entityStep, fun found ↦
      (settles_entityStep found (d := 0)).toSettles⟩
  | qualifier =>
      exact ⟨advances_qualifierStep, fun found ↦
        (settles_qualifierStep found (d := 0)).toSettles⟩
  | typeParams => exact hlist _ fun _ ↦ settles_typeParam htype
  | typeArgs => exact hlist _ fun _ ↦ htype
  | params => exact hlist _ (settles_param htype)
  | tupleElements => exact hlist _ fun _ ↦ settles_tupleElement htype
  | typeMembers =>
      exact ⟨advances_bracedStep _ (takes_separatedMember htype),
        fun found ↦ (settles_bracedStep _ (settles_separatedMember htype) found).toSettles⟩
  | suffix =>
      exact ⟨advances_postfixStep htype, fun object ↦
        (settles_postfixStep htype object).toSettles⟩
  | intersection => exact hseparated _ hoperand
  | union => exact hseparated _ (settles_chain _ _ hoperand)
  | exports => exact hlist _ fun _ ↦ settles_exportSpecifier
  | imports => exact hlist _ fun _ ↦ settles_importSpecifier
  | enumMembers => exact hlist _ fun _ ↦ settles_enumMember
  | declarators => exact hseparated _ (settles_declarator htypes)
  | bases => exact hseparated _ (settles_heritageType htypes)
  | heritage =>
      exact ⟨advances_heritageStep htypes, fun found ↦
        (settles_heritageStep htypes found).toSettles⟩
  | classMembers =>
      exact ⟨advances_bracedStep _ (takes_classMember htypes hbody),
        fun found ↦ (settles_bracedStep _ (settles_classMember htypes hbody) found).toSettles⟩
  | statements inBraces =>
      exact ⟨advances_statementsStep htypes hbody takes_body inBraces,
        fun found ↦ (settles_statementsStep htypes hbody takes_body inBraces found).toSettles⟩

/-! ### At places of a list -/

variable {α β : Type} {tokens : List Token} {i : Nat} {s t : Cursor}

/-- A rule stays between where it began and the final token, on its level and in its mode. -/
theorem IsRule.standsAt {p : Parser α} (h : IsRule p) (hs : s.StandsAt tokens i) {a : α}
    (ht : p s = .ok (a, t)) :
    (∃ j, i ≤ j ∧ t.StandsAt tokens j) ∧ t.depth = s.depth ∧ t.inBound = s.inBound := by
  have hpasses := h.settles.passes s a t ht
  obtain ⟨taken, ht, -⟩ := hs.passes hpasses
  exact ⟨⟨i + taken, Nat.le_add_right _ _, ht⟩, hpasses.depth, hpasses.inBound⟩

/-- A rule refuses the text at a token that it had not passed. -/
theorem IsRule.error_at {p : Parser α} (h : IsRule p) (hs : s.StandsAt tokens i) {e : SyntaxError}
    (he : p s = .error e) : e.fault ≠ .stalled ∧ ∃ t ∈ tokens.drop i, e.span = t.span := by
  rw [← hs.ahead]
  exact h.settles.blames s e hs.finish he

/-- A round after which another one follows ends further on. -/
theorem IsStep.standsAt {step : β → Parser (Round β α)} (h : IsStep step)
    (hs : s.StandsAt tokens i) {state state' : β} (ht : step state s = .ok (.again state', t)) :
    ∃ j, i < j ∧ t.StandsAt tokens j := by
  obtain ⟨hadvances, hsettles⟩ := h.settles
  obtain ⟨taken, ht', hlength⟩ := hs.passes ((hsettles state).passes s _ t ht)
  have hlt := hadvances state s hs.finish _ t ht trivial
  exact ⟨i + taken, by omega, ht'⟩

end SourceGrammar

/-! ## Whole texts -/

/-- A text is refused for a fault of its own. -/
theorem SourceFile.error_isIn {source : String} {e : SyntaxError} (h : ofSource source = .error e) :
    e.IsIn source.toList := by
  unfold ofSource at h
  rw [← byteCount_toList] at h
  rcases except_bind_eq_error.mp h with h | ⟨l, hl, h⟩
  · obtain ⟨e', he', rfl⟩ := mapError_eq_error.mp h
    have he := Lexed.error_isIn he'
    rwa [he.clamp_eq]
  have hl := mapError_eq_ok.mp hl
  rcases except_bind_eq_error.mp h with h | ⟨_, _, h⟩
  · obtain ⟨e', he', rfl⟩ := mapError_eq_error.mp h
    have hrule := SourceGrammar.IsRule.statements false
    obtain ⟨hfault, t, ht, hspan⟩ := hrule.error_at (Cursor.standsAt_start l) he'
    have he : e'.IsIn source.toList := ⟨hfault, hspan ▸ Lexed.tokens_isPartOf hl t ht⟩
    rwa [he.clamp_eq]
  · cases h

open SourceGrammar in
/-- Reading a source text ends, and no token is read that is not in the list.
* From any place of a list of tokens that ends with the final one, a rule looks at tokens of the
  list only, and ends at the place or further on, on the same level and in the same mode, or else
  refuses the text for a fault at a token from the place on.
* Each round of a repetition after which another one follows ends further on.
* The rules for types, operands and blocks lead back to themselves one level further in only, and
  no more than `maxNesting` levels are opened.
* More rounds than characters are never needed to find the tokens.
* The error for a text that is refused has the span of a part of the text. -/
theorem SourceGrammar.reading_ends :
    (∀ {α : Type} {p : Parser α} {tokens : List Token} {i : Nat} {s : Cursor}, IsRule p →
      s.StandsAt tokens i →
        (∀ n, tokens[min (i + n) (tokens.length - 1)]? = some (s.token n)) ∧
        (∀ a t, p s = .ok (a, t) →
          (∃ j, i ≤ j ∧ j < tokens.length ∧ t.StandsAt tokens j) ∧
            t.depth = s.depth ∧ t.inBound = s.inBound) ∧
        ∀ e, p s = .error e → e.fault ≠ .stalled ∧ ∃ t ∈ tokens.drop i,
        e.span = t.span) ∧
    (∀ {α β : Type} {step : β → Parser (Round β α)} {tokens : List Token} {i : Nat}
      {s : Cursor}, IsStep step → s.StandsAt tokens i →
        ∀ state state' t, step state s = .ok (.again state', t) →
          ∃ j, i < j ∧ j < tokens.length ∧ t.StandsAt tokens j) ∧
    ((∀ conditional, types.type conditional = typeRule types.operand types.type conditional) ∧
      types.operand = operandRule types.type types.operand ∧ body = blockRule types body ∧
      ∀ {α : Type} (p : Parser α) (s : Cursor), maxNesting ≤ s.depth →
        nested p s = .error ⟨.tooDeep, s.next.span⟩) ∧
    (∀ (source : String) (rounds : List Char), source.toList.length ≤ rounds.length →
      Scan.tokens source.utf8ByteSize rounds [] [] ⟨0, source.toList⟩ =
        (Lexed.ofSource source).map fun l ↦ (l.tokens, l.directives)) ∧
    ∀ source e, SourceFile.ofSource source = .error e → e.IsIn source.toList := by
  refine ⟨fun hp hs ↦ ⟨hs.token, fun a t ht ↦ ?_, fun e he ↦ hp.error_at hs he⟩,
    fun hstep hs state state' t ht ↦ ?_, ⟨?_, ?_, block_maxNesting_eq, ?_⟩,
    fun source rounds ↦ Lexed.tokens_ofSource, fun source e ↦ SourceFile.error_isIn⟩
  · obtain ⟨⟨j, hij, ht⟩, hkeeps⟩ := hp.standsAt hs ht
    exact ⟨⟨j, hij, ht.lt, ht⟩, hkeeps⟩
  · obtain ⟨j, hij, ht⟩ := hstep.standsAt hs ht
    exact ⟨j, hij, ht.lt, ht⟩
  · exact fun conditional ↦ (within_maxNesting_eq conditional).1
  · exact (within_maxNesting_eq true).2
  · exact fun p s hs ↦ nested_eq_fail hs

/-- In the text `é \x7d` a first statement is read, and the brace behind it is refused, which is
the fourth byte of the text. -/
theorem SourceGrammar.reading_ends_stray_brace :
    let word : Token := ⟨.word, "é", ⟨0, 2⟩, false⟩
    let brace : Token := ⟨.mark, "\x7d", ⟨3, 4⟩, false⟩
    let start : Cursor := ⟨none, [word, brace], .finish 4, 0, 0, false⟩
    let behind : Cursor := ⟨some word, [brace], .finish 4, 1, 0, false⟩
    let stray : SyntaxError := ⟨.strayBrace, ⟨3, 4⟩⟩
    statementsStep types body false [] start =
      .ok (.again [⟨0, [], .other, ⟨0, 2⟩⟩], behind) ∧
      (∃ j, 0 < j ∧ j < 3 ∧ behind.StandsAt [word, brace, .finish 4] j) ∧
      statements types body false start = .error stray ∧
      (∃ t ∈ [word, brace, .finish 4], stray.span = t.span) ∧
      SourceFile.ofSource "é \x7d" = .error stray ∧ stray.IsIn "é \x7d".toList := by
  intro word brace start behind stray
  obtain ⟨hrules, hsteps, -, -, herrors⟩ := SourceGrammar.reading_ends
  have hstart : start.StandsAt [word, brace, .finish 4] 0 := ⟨rfl, rfl, rfl⟩
  have hstep : statementsStep types body false [] start =
      .ok (.again [⟨0, [], .other, ⟨0, 2⟩⟩], behind) := rfl
  have hstatements : statements types body false start = .error stray := rfl
  have hsource : SourceFile.ofSource "é \x7d" = .error stray := rfl
  exact ⟨hstep, hsteps (.statements false) hstart _ _ _ hstep, hstatements,
    ((hrules (.statements false) hstart).2.2 _ hstatements).2, hsource, herrors _ _ hsource⟩

end PluginSurface
