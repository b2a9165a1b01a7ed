import PluginSurface.Proofs.Syntax.StatementReading
import PluginSurface.Proofs.Syntax.TypeProgress

/-!
# The grammar of declarations settles

A rule for a declaration with a word of its own takes that word, and what declares nothing is
skipped from its first token on. So every statement takes a token, except where the closing brace of
a block or the end of the text is next, and there no statement is read.
-/

namespace PluginSurface.StatementGrammar

open PluginSurface.Parser TypeGrammar

variable {d : Nat}

/-! ## Rules without types -/

@[grind ←]
theorem settles_declaredName : SettlesAs d declaredName declaredName := by
  unfold declaredName
  grind

@[grind ←]
theorem settles_terminator : SettlesAs d terminator terminator := by
  unfold terminator
  grind

@[grind ←]
theorem settles_exportAssignment (isEquals : Bool) :
    SettlesAs d (exportAssignment isEquals) (exportAssignment isEquals) := by
  unfold exportAssignment
  grind

@[grind ←]
theorem settles_exportName : SettlesAs d exportName exportName := by
  unfold exportName
  grind

@[grind ←]
theorem settles_skipAttributes : SettlesAs d skipAttributes skipAttributes := by
  unfold skipAttributes
  grind

@[grind ←]
theorem settles_skipTypeWord : SettlesAs d skipTypeWord skipTypeWord := by
  unfold skipTypeWord
  grind

@[grind ←]
theorem settles_exportSpecifier : SettlesAs d exportSpecifier exportSpecifier := by
  unfold exportSpecifier
  grind

@[grind ←]
theorem settles_exportDeclaration : SettlesAs d exportDeclaration exportDeclaration := by
  unfold exportDeclaration
  have hnamed := settles_listUntil (d := d) "\x7d" fun _ ↦ settles_exportSpecifier
  refine settles_bind (settles_eatWord _) fun _ ↦ settles_bind (settles_eatMark _) fun _ ↦ ?_
  grind

@[grind ←]
theorem settles_atTypeOnlyImport : SettlesAs d atTypeOnlyImport atTypeOnlyImport := by
  unfold atTypeOnlyImport
  grind

@[grind ←]
theorem settles_importTarget : SettlesAs d importTarget importTarget := by
  unfold importTarget
  grind

@[grind ←]
theorem settles_importSpecifier : SettlesAs d importSpecifier importSpecifier := by
  unfold importSpecifier
  grind

@[grind ←]
theorem settles_importClause : SettlesAs d importClause importClause := by
  unfold importClause
  have hnamed := settles_listUntil (d := d) "\x7d" fun _ ↦ settles_importSpecifier
  grind

@[grind ←]
theorem settles_enumMember : SettlesAs d enumMember enumMember := by
  unfold enumMember
  grind

@[grind ←]
theorem settles_skipStatement : SettlesAs d skipStatement skipStatement := by
  unfold skipStatement
  grind

/-! ## Rules that take a token -/

/-- A statement is next: neither the end of the text nor the closing brace of a block. -/
structure AtStatement (s : Cursor) : Prop where
  finish : s.finish.kind = .finish
  rest : s.rest ≠ []
  next : s.next.isMark "\x7d" = false

/-- The parser settles, and takes a token where a statement is next. -/
structure SettlesPast (d : Nat) {α : Type} (p q : Parser α) : Prop extends SettlesAs d p q where
  takes : ∀ s, AtStatement s → TakesFrom (fun _ ↦ True) s p

section

variable {α β : Type}

theorem settlesPast_bump {q q' : Token → Parser β} (h : ∀ t, SettlesAs d (q t) (q' t)) :
    SettlesPast d (bump >>= q) (bump >>= q') :=
  ⟨settles_bind settles_bump h, fun _ hs ↦ takesFrom_bump hs.rest fun t ↦ (h t).moves⟩

theorem settlesPast_first {p p' : Parser α} {q q' : α → Parser β} (hp : SettlesPast d p p')
    (hq : ∀ a, SettlesAs d (q a) (q' a)) : SettlesPast d (p >>= q) (p' >>= q') :=
  ⟨settles_bind hp.toSettlesAs hq,
    fun s hs ↦ takesFrom_first (hp.takes s hs) fun a ↦ (hq a).moves⟩

theorem settlesPast_look {n : Nat} {q q' : Token → Parser β}
    (h : ∀ t, SettlesPast d (q t) (q' t)) : SettlesPast d (look n >>= q) (look n >>= q') :=
  ⟨settles_bind (settles_look n) fun t ↦ (h t).toSettlesAs,
    fun s hs ↦ takesFrom_look ((h _).takes s hs)⟩

theorem settlesPast_ite {c : Prop} [Decidable c] {p p' q q' : Parser α} (hp : SettlesPast d p p')
    (hq : SettlesPast d q q') : SettlesPast d (if c then p else q) (if c then p' else q') := by
  split
  · exact hp
  · exact hq

theorem settlesPast_of_takes {p p' : Parser α} (hp : SettlesAs d p p') (htakes : Takes p) :
    SettlesPast d p p' := ⟨hp, fun s hs ↦ htakes s hs.finish⟩

end

/-- An expression takes a token, or the cursor stays where it is. -/
theorem passExpression_eq_ok {stops : List String} {lines taken : Bool} {s t : Cursor}
    (h : passExpression stops lines s = .ok (taken, t)) :
    taken = true ∧ t.rest.length < s.rest.length ∨ taken = false ∧ t = s := by
  unfold passExpression at h
  split at h
  next last rest hend =>
    cases h
    obtain ⟨run, hrest, hlast⟩ := expressionEnd_append hend
    rw [Option.or_none] at hlast
    subst hlast
    cases hlast : run.getLast? with
    | none =>
        rw [List.getLast?_eq_none_iff.mp hlast, List.nil_append] at hrest
        subst hrest
        exact .inr ⟨rfl, rfl⟩
    | some t =>
        have hrun : 0 < run.length := List.length_pos_of_mem (List.mem_of_getLast? hlast)
        refine .inl ⟨rfl, ?_⟩
        change rest.length < s.rest.length
        rw [hrest, List.length_append]
        omega
  next => cases h

/-- An expression that begins with a word takes a token. -/
theorem takesFrom_skipExpression {s : Cursor} {stops : List String} {lines : Bool}
    (hrest : s.rest ≠ []) (hword : s.next.kind = .word) :
    TakesFrom (fun _ ↦ True) s (skipExpression stops lines) := by
  refine takesFrom_first (fun taken t h _ ↦ ?_) fun _ ↦ (onlyReads_pure _).moves
  obtain ⟨t₀, more, hrest⟩ := List.exists_cons_of_ne_nil hrest
  have hkind : t₀.kind = .word := by
    rw [← hword, Cursor.next, Cursor.token, hrest]
    rfl
  have hmark (texts : List String) : t₀.isMarkIn texts = false := by
    rw [Token.isMarkIn, hkind]
    rfl
  unfold passExpression at h
  rw [hrest, expressionEnd, hmark, Token.isCloser, hmark, Token.isOpener, hmark] at h
  simp only [breaksExpression, Bool.or_false, Bool.and_false, Bool.false_eq_true, if_false] at h
  split at h
  next last rest hend =>
    cases h
    obtain ⟨run, hmore, -⟩ := expressionEnd_append hend
    change rest.length < s.rest.length
    rw [hrest, hmore, List.length_cons, List.length_append]
    omega
  next => cases h

theorem skipStatement_past : SettlesPast d skipStatement skipStatement := by
  refine ⟨settles_skipStatement, fun s hs u s' hskip _ ↦ ?_⟩
  obtain ⟨taken, t, hpass, h⟩ := bind_eq_ok.mp hskip
  have hmoves {taken : Bool} : Moves (do
      unless (← eatMark ";") || taken || (← atMark "\x7d") do
        let _ ← bump : Parser Unit) := by
    refine moves_bind (onlyReads_eatMark _).moves fun _ ↦ ?_
    refine moves_bind (onlyReads_atMark _).moves fun _ ↦ ?_
    split
    · exact (onlyReads_pure _).moves
    · exact moves_bind onlyReads_bump.moves fun _ ↦ (onlyReads_pure _).moves
  rcases passExpression_eq_ok hpass with ⟨rfl, hlt⟩ | ⟨rfl, rfl⟩
  · exact Nat.lt_of_le_of_lt (hmoves _ _ _ h).length_le hlt
  · refine takesFrom_eatMark (Q := fun _ ↦ True) hs.finish ?_ (takesFrom_atMark ?_)
      u s' h trivial
    · refine moves_bind (onlyReads_atMark _).moves fun _ ↦ ?_
      exact (onlyReads_pure _).moves
    · rw [hs.next]
      exact takesFrom_bump hs.rest fun _ ↦ (onlyReads_pure _).moves

/-- Modifiers take a token, or there are none and the cursor stays where it is. -/
theorem settlesPast_takeTokens {α : Type} {p : Token → Token → Bool}
    {q q' : List Token → Parser α} (h : ∀ words, SettlesPast d (q words) (q' words)) :
    SettlesPast d (takeTokens p >>= q) (takeTokens p >>= q') := by
  refine ⟨settles_bind (settles_takeTokens p) fun words ↦ (h words).toSettlesAs, ?_⟩
  intro s hs a u hu _
  have happend := spanTokens_append p s.finish s.rest
  change q _ { s with previous := _, rest := _ } = _ at hu
  cases hwords : (spanTokens p s.finish s.rest).1 with
  | nil =>
      rw [hwords, List.nil_append] at happend
      rw [hwords, happend] at hu
      exact (h []).takes s hs a u hu trivial
  | cons t words =>
      have hlength := congrArg List.length happend
      rw [hwords, List.length_append, List.length_cons] at hlength
      have hle := ((h _).moves _ a u hu).length_le
      dsimp only at hle
      omega

theorem importDeclaration_past : SettlesPast d importDeclaration importDeclaration := by
  refine settlesPast_bump fun _ ↦ settles_bind settles_atTypeOnlyImport fun _ ↦ ?_
  extract_lets unnamed clauses rest
  have hclauses (default : Option String) :
      SettlesAs d (clauses () default) (clauses () default) := by
    refine settles_bind settles_importClause fun _ ↦ ?_
    grind
  have hrest : SettlesAs d (rest ()) (rest ()) := by
    refine settles_bind (settles_look _) fun _ ↦ ?_
    split
    · grind
    refine settles_bind (settles_look _) fun _ ↦ settles_bind (settles_atWord _) fun _ ↦ ?_
    split
    · refine settles_bind settles_bump fun _ ↦ settles_bind (settles_eatMark _) fun _ ↦ ?_
      grind
    · refine settles_bind (settles_atWord _) fun _ ↦ settles_bind (settles_look _) fun _ ↦ ?_
      grind
  grind

@[grind ←]
theorem settles_enumBody : SettlesAs d enumBody enumBody := by
  have hmembers := settles_listUntil (d := d) "\x7d" fun _ ↦ settles_enumMember
  unfold enumBody
  grind

theorem enumDeclaration_past : SettlesPast d enumDeclaration enumDeclaration := by
  refine settlesPast_bump fun _ ↦ ?_
  grind

section

variable {types types' : TypeGrammar}
  (htype : ∀ conditional, SettlesAs d (types.type conditional) (types'.type conditional))

include htype

theorem settles_declarator : SettlesAs d (declarator types) (declarator types') := by
  refine settles_bind (settles_look _) fun _ ↦ ?_
  extract_lets rest rest'
  have hrest (name : Option Name) : SettlesAs d (rest name) (rest' name) := by
    refine settles_bind (settles_eatMark _) fun _ ↦ ?_
    refine settles_bind (settles_ascription (htype true)) fun _ ↦ ?_
    grind
  exact settles_ite (settles_bind settles_skipGroup fun _ ↦ settles_bind (settles_pure _) hrest)
    (settles_bind settles_declaredName fun _ ↦ settles_bind (settles_pure _) hrest)

theorem variableStatement_past :
    SettlesPast d (variableStatement types) (variableStatement types') := by
  refine settlesPast_bump fun _ ↦ ?_
  extract_lets word keyword
  exact settles_bind (settles_separated _ (settles_declarator htype)) fun _ ↦
    settles_bind settles_terminator fun _ ↦ settles_pure _

theorem aliasDeclaration_past :
    SettlesPast d (aliasDeclaration types) (aliasDeclaration types') := by
  refine settlesPast_bump fun _ ↦ settles_bind settles_declaredName fun _ ↦ ?_
  refine settles_bind (settles_typeParams (htype true)) fun _ ↦ ?_
  refine settles_bind (settles_expectMark _) fun _ ↦ settles_bind (htype true) fun _ ↦ ?_
  exact settles_bind settles_terminator fun _ ↦ settles_pure _

theorem settles_heritageType : SettlesAs d (heritageType types) (heritageType types') :=
  settles_bind settles_entityName fun _ ↦
    settles_bind (settles_typeArgs (htype true)) fun _ ↦ settles_pure _

theorem interfaceDeclaration_past :
    SettlesPast d (interfaceDeclaration types) (interfaceDeclaration types') := by
  refine settlesPast_bump fun _ ↦ settles_bind settles_declaredName fun _ ↦ ?_
  refine settles_bind (settles_typeParams (htype true)) fun _ ↦ ?_
  refine settles_bind (settles_afterWord _ (settles_separated _ (settles_heritageType htype)))
    fun _ ↦ ?_
  exact settles_bind (settles_typeMembers (htype true)) fun _ ↦ settles_pure _

theorem advances_heritageStep : Advances (heritageStep types) := by
  have hheritage := settles_heritageType htype
  intro found s hs
  unfold heritageStep
  refine takesFrom_eatWord hs ?_ (takesFrom_eatWord hs ?_ (takesFrom_pure nofun))
  · refine moves_bind hheritage.moves fun _ ↦ moves_bind (onlyReads_atMark _).moves fun _ ↦ ?_
    split
    · exact moves_bind onlyReads_skipGroup.moves fun _ ↦ (onlyReads_pure _).moves
    · exact (onlyReads_pure _).moves
  · exact moves_bind (settles_separated _ hheritage).moves fun _ ↦ (onlyReads_pure _).moves

theorem settles_heritageStep (found : Option TypeExpr × List TypeExpr) :
    SettlesAs d (heritageStep types found) (heritageStep types' found) := by
  have hheritage := settles_heritageType htype
  unfold heritageStep
  refine settles_bind (settles_eatWord _) fun _ ↦ settles_ite ?_ ?_
  · refine settles_bind hheritage fun _ ↦ settles_bind (settles_atMark _) fun _ ↦ ?_
    grind
  · refine settles_bind (settles_eatWord _) fun _ ↦ settles_ite ?_ (settles_pure _)
    exact settles_bind (settles_separated _ hheritage) fun _ ↦ settles_pure _

theorem settles_heritage : SettlesAs d (heritage types) (heritage types') :=
  settles_rounds (settles_heritageStep htype) (advances_heritageStep htype) (none, [])

/-! ## Rules with bodies -/

section

variable {block block' : Parser (List Statement)} (hblock : SettlesAs d block block')

include hblock

omit htype in
@[grind ←]
theorem settles_optionalBody : SettlesAs d (optionalBody block) (optionalBody block') := by
  unfold optionalBody
  refine settles_bind (settles_atMark _) fun _ ↦ settles_ite ?_ ?_
  · exact settles_bind hblock fun _ ↦ settles_pure _
  · exact settles_bind settles_terminator fun _ ↦ settles_pure _

theorem functionDeclaration_past :
    SettlesPast d (functionDeclaration types block) (functionDeclaration types' block') := by
  refine settlesPast_bump fun _ ↦ settles_bind (settles_eatMark _) fun _ ↦ ?_
  refine settles_bind (settles_look _) fun _ ↦ ?_
  extract_lets rest rest'
  have hrest (name : Option Name) : SettlesAs d (rest name) (rest' name) :=
    settles_bind (settles_signature (htype true)) fun _ ↦
      settles_bind (settles_optionalBody hblock) fun _ ↦ settles_pure _
  exact settles_ite (settles_bind settles_declaredName fun _ ↦
    settles_bind (settles_pure _) hrest) (settles_bind (settles_pure _) hrest)

omit htype in
theorem moduleDeclaration_past :
    SettlesPast d (moduleDeclaration block) (moduleDeclaration block') := by
  refine settlesPast_bump fun _ ↦ settles_bind (settles_look _) fun _ ↦ ?_
  extract_lets rest rest'
  have hrest (name : ModuleName) : SettlesAs d (rest name) (rest' name) :=
    settles_bind (settles_optionalBody hblock) fun _ ↦ settles_pure _
  exact settles_ite (settles_bind settles_bump fun _ ↦ settles_bind (settles_pure _) hrest)
    (settles_bind settles_entityName fun _ ↦ settles_bind (settles_pure _) hrest)

theorem settles_classMemberKind :
    SettlesAs d (classMemberKind types block) (classMemberKind types' block') := by
  have hsignature := settles_signature (htype true)
  have hbody := settles_optionalBody hblock
  have hannotated := settles_ascription (htype true)
  have hindex := settles_indexSignature (htype true)
  unfold classMemberKind
  refine settles_bind (settles_atWord _) fun _ ↦ settles_bind (settles_look _) fun _ ↦ ?_
  refine settles_ite ?_ (settles_bind settles_atAccessor fun _ ↦ settles_ite ?_ ?_)
  · refine settles_bind settles_bump fun _ ↦ settles_bind hsignature fun _ ↦ ?_
    exact settles_bind hbody fun _ ↦ settles_pure _
  · refine settles_bind settles_bump fun _ ↦ settles_bind settles_propertyName fun _ ↦ ?_
    exact settles_bind hsignature fun _ ↦ settles_bind hbody fun _ ↦ settles_pure _
  refine settles_bind settles_atIndexSignature fun _ ↦ settles_ite ?_ ?_
  · refine settles_bind (hindex false) fun _ ↦ settles_bind settles_memberSeparator fun _ ↦ ?_
    exact settles_pure _
  refine settles_bind (settles_eatMark _) fun _ ↦ settles_bind settles_propertyName fun _ ↦ ?_
  refine settles_bind (settles_eatMark _) fun _ ↦ settles_bind (settles_eatMark _) fun _ ↦ ?_
  refine settles_bind settles_atSignature fun _ ↦ settles_ite ?_ ?_
  · exact settles_bind hsignature fun _ ↦ settles_bind hbody fun _ ↦ settles_pure _
  · refine settles_bind hannotated fun _ ↦ settles_bind (settles_eatMark _) fun _ ↦ ?_
    grind

theorem settles_classMember :
    SettlesAs d (classMember types block) (classMember types' block') := by
  unfold classMember
  refine settles_bind (settles_look _) fun _ ↦ settles_bind (settles_atWord _) fun _ ↦ ?_
  refine settles_bind (settles_look _) fun _ ↦ settles_ite ?_ ?_
  · refine settles_bind settles_bump fun _ ↦ settles_bind hblock fun _ ↦ ?_
    exact settles_bind settles_get fun _ ↦ settles_pure _
  · refine settles_bind (settles_takeTokens _) fun _ ↦ ?_
    refine settles_bind (settles_classMemberKind htype hblock) fun _ ↦ ?_
    exact settles_bind settles_get fun _ ↦ settles_pure _

/-! ### A member takes a token: its name or what its word leads to -/

theorem takes_classMemberKind : Takes (classMemberKind types block) := by
  have hsignature := (settles_signature (htype true)).moves
  have hbody := (settles_optionalBody hblock).moves
  intro s hs
  unfold classMemberKind
  refine takesFrom_atWord (takesFrom_look ?_)
  split
  next h =>
    rw [Bool.and_eq_true] at h
    refine takesFrom_bump (rest_ne_nil_of_isWord hs h.1) fun _ ↦
      moves_bind hsignature fun _ ↦ ?_
    exact moves_bind hbody fun _ ↦ (onlyReads_pure _).moves
  refine takesFrom_then hs onlyReads_atAccessor.moves fun accessor t ht ↦ ?_
  split
  · refine takesFrom_then ht onlyReads_bump.moves fun _ u hu ↦ ?_
    refine takesFrom_first (takes_propertyName u hu) fun _ ↦ moves_bind hsignature fun _ ↦ ?_
    exact moves_bind hbody fun _ ↦ (onlyReads_pure _).moves
  refine takesFrom_then ht onlyReads_atIndexSignature.moves fun index u hu ↦ ?_
  split
  · refine takesFrom_first (takes_indexSignature (htype true) false u hu) fun _ ↦ ?_
    exact moves_bind onlyReads_memberSeparator.moves fun _ ↦ (onlyReads_pure _).moves
  refine takesFrom_then hu (onlyReads_eatMark _).moves fun _ v hv ↦ ?_
  refine takesFrom_first (takes_propertyName v hv) fun _ ↦ ?_
  refine moves_bind (onlyReads_eatMark _).moves fun _ ↦ ?_
  refine moves_bind (onlyReads_eatMark _).moves fun _ ↦ ?_
  refine moves_bind onlyReads_atSignature.moves fun _ ↦ ?_
  split
  · exact moves_bind hsignature fun _ ↦ moves_bind hbody fun _ ↦ (onlyReads_pure _).moves
  · refine moves_bind (settles_ascription (htype true)).moves fun _ ↦ ?_
    refine moves_bind (onlyReads_eatMark _).moves fun _ ↦ ?_
    split
    · refine moves_bind (onlyReads_skipExpression _ _).moves fun _ ↦ ?_
      exact moves_bind onlyReads_memberSeparator.moves fun _ ↦ (onlyReads_pure _).moves
    · exact moves_bind onlyReads_memberSeparator.moves fun _ ↦ (onlyReads_pure _).moves

theorem takes_classMember : Takes (classMember types block) := by
  intro s hs
  unfold classMember
  refine takesFrom_look (takesFrom_atWord (takesFrom_look ?_))
  split
  next h =>
    rw [Bool.and_eq_true] at h
    refine takesFrom_bump (rest_ne_nil_of_isWord hs h.1) fun _ ↦
      moves_bind hblock.moves fun _ ↦ ?_
    exact moves_bind onlyReads_get.moves fun _ ↦ (onlyReads_pure _).moves
  · refine takesFrom_then hs (onlyReads_takeTokens _).moves fun _ t ht ↦ ?_
    refine takesFrom_first (takes_classMemberKind htype hblock t ht) fun _ ↦ ?_
    exact moves_bind onlyReads_get.moves fun _ ↦ (onlyReads_pure _).moves

theorem classDeclaration_past :
    SettlesPast d (classDeclaration types block) (classDeclaration types' block') := by
  refine settlesPast_bump fun _ ↦ settles_bind (settles_look _) fun _ ↦ ?_
  extract_lets rest rest'
  have hrest (name : Option Name) : SettlesAs d (rest name) (rest' name) := by
    refine settles_bind (settles_typeParams (htype true)) fun _ ↦ ?_
    refine settles_bind (settles_heritage htype) fun _ ↦ ?_
    refine settles_bind (settles_braced _ (settles_classMember htype hblock) ?_) fun _ ↦ ?_
    · exact takes_classMember htype hblock
    · exact settles_pure _
  exact settles_ite (settles_bind settles_declaredName fun _ ↦
    settles_bind (settles_pure _) hrest) (settles_bind (settles_pure _) hrest)

/-! ## Statements -/

theorem declaration_past (hbody : Takes block) (modified : Bool) :
    SettlesPast d (declaration types block modified) (declaration types' block' modified) := by
  have hblock' := settlesPast_of_takes hblock hbody
  refine settlesPast_look fun _ ↦ settlesPast_look fun _ ↦ ?_
  refine settlesPast_ite (settlesPast_first hblock' fun _ ↦ settles_pure _) ?_
  extract_lets skip rest word
  have hskip : SettlesPast d (skip ()) (skip ()) :=
    settlesPast_first skipStatement_past fun _ ↦ settles_pure _
  have hrest : SettlesPast d (rest ()) (rest ()) := by
    refine settlesPast_ite ?_ hskip
    exact ⟨settles_bind (settles_unexpected _) fun _ ↦ hskip.toSettlesAs, fun _ _ ↦ nofun⟩
  refine settlesPast_ite ?_ hrest
  refine settlesPast_ite ?_ (settlesPast_ite ?_ (settlesPast_look fun _ ↦ ?_))
  · exact settlesPast_first (classDeclaration_past htype hblock) fun _ ↦ settles_pure _
  · exact settlesPast_first (interfaceDeclaration_past htype) fun _ ↦ settles_pure _
  refine settlesPast_ite ?_ (settlesPast_ite enumDeclaration_past ?_)
  · exact settlesPast_first (aliasDeclaration_past htype) fun _ ↦ settles_pure _
  refine settlesPast_ite (functionDeclaration_past htype hblock) ?_
  refine settlesPast_ite (variableStatement_past htype) ?_
  refine settlesPast_ite (moduleDeclaration_past hblock) ?_
  refine settlesPast_ite ?_ (settlesPast_ite importDeclaration_past hrest)
  exact settlesPast_bump fun _ ↦ settles_bind hblock fun _ ↦ settles_pure _

theorem modifiedDeclaration_past (hbody : Takes block) :
    SettlesPast d (modifiedDeclaration types block) (modifiedDeclaration types' block') := by
  unfold modifiedDeclaration
  extract_lets bare rest exported default rest'
  have hrest (words : List Modifier) : SettlesPast d (rest () words) (rest' () words) := by
    refine settlesPast_takeTokens fun _ ↦ ?_
    exact settlesPast_first (declaration_past htype hblock hbody _) fun _ ↦ settles_pure _
  have hassignment (isEquals : Bool) (words : List Modifier) :
      SettlesAs d (do return (words, ← exportAssignment isEquals))
        (do return (words, ← exportAssignment isEquals)) :=
    settles_bind (settles_exportAssignment isEquals) fun _ ↦ settles_pure _
  have hexported :
      SettlesAs d (do return ([], ← exportDeclaration) : Parser (List Modifier × Decl))
        (do return ([], ← exportDeclaration)) :=
    settles_bind settles_exportDeclaration fun _ ↦ settles_pure _
  have hskipped : SettlesAs d (do terminator; return ([], .other) : Parser (List Modifier × Decl))
      (do terminator; return ([], .other)) :=
      settles_bind settles_terminator fun _ ↦ settles_pure _
  have hdefault : SettlesAs d (do
      if ← eatWord "default" then
        if startsDeclaration (← look 0) (← look 1) then rest () default
        else return (default, ← exportAssignment false)
      else rest () exported) (do
      if ← eatWord "default" then
        if startsDeclaration (← look 0) (← look 1) then rest' () default
        else return (default, ← exportAssignment false)
      else rest' () exported) := by
    refine settles_bind (settles_eatWord _) fun _ ↦ settles_ite ?_ (hrest _).toSettlesAs
    refine settles_bind (settles_look _) fun _ ↦ settles_bind (settles_look _) fun _ ↦ ?_
    exact settles_ite (hrest _).toSettlesAs (hassignment false _)
  refine ⟨?_, fun s hs ↦ takesFrom_atWord ?_⟩
  · refine settles_bind (settles_atWord _) fun _ ↦ settles_ite ?_ (hrest _).toSettlesAs
    refine settles_bind (settles_look _) fun _ ↦ settles_bind (settles_look _) fun _ ↦ ?_
    refine settles_ite ?_ (settles_ite (settles_bind settles_bump fun _ ↦ hexported) ?_)
    · exact settles_bind settles_bump fun _ ↦ settles_bind settles_bump fun _ ↦
        hassignment true []
    refine settles_ite ?_ (settles_bind settles_bump fun _ ↦ hdefault)
    exact settles_bind (settles_skipExpression _ _) fun _ ↦ hskipped
  · split
    next hword =>
      refine takesFrom_look (takesFrom_look ?_)
      split
      · refine takesFrom_bump hs.rest fun _ ↦ ?_
        exact moves_bind onlyReads_bump.moves fun _ ↦ (hassignment true []).moves
      split
      · exact takesFrom_bump hs.rest fun _ ↦ hexported.moves
      split
      · refine takesFrom_first ?_ fun _ ↦ hskipped.moves
        exact takesFrom_skipExpression hs.rest (kind_of_isWord hword)
      · exact takesFrom_bump hs.rest fun _ ↦ hdefault.moves
    next => exact (hrest _).takes s hs

/-- The number of a statement is taken before the statement is read. -/
theorem statement_past (hbody : Takes block) :
    SettlesPast d (statement types block) (statement types' block') := by
  have hnumber : SettlesAs d (modify fun s ↦ { s with nextId := s.nextId + 1 } : Parser Unit)
      (modify fun s ↦ { s with nextId := s.nextId + 1 }) := by
    refine ⟨⟨?_, ?_⟩, fun _ _ ↦ rfl⟩
    · rintro s _ _ ⟨⟩
      exact ⟨⟨[], rfl, rfl⟩, rfl, rfl, rfl⟩
    · rintro _ _ _ ⟨⟩
  have hdeclaration := modifiedDeclaration_past htype hblock hbody
  refine ⟨settles_bind settles_get fun s ↦ ?_, fun s hs ↦ takesFrom_get ?_⟩
  · extract_lets start
    refine settles_bind hnumber fun _ ↦ settles_bind hdeclaration.toSettlesAs fun _ ↦ ?_
    exact settles_bind settles_get fun _ ↦ settles_pure _
  · extract_lets start
    rintro a u h -
    obtain ⟨_, t, hset, h⟩ := bind_eq_ok.mp h
    cases hset
    have hmoves (m : List Modifier × Decl) : Moves (do
        return (⟨s.nextId, m.1, m.2, ⟨start, max (← get).passed start⟩⟩ : Statement)) :=
      moves_bind onlyReads_get.moves fun _ ↦ (onlyReads_pure _).moves
    have hnext : AtStatement { s with nextId := s.nextId + 1 } := ⟨hs.finish, hs.rest, hs.next⟩
    exact takesFrom_first (Q := fun _ ↦ True) (hdeclaration.takes _ hnext) hmoves a u h trivial

theorem advances_statementsStep (hbody : Takes block) (inBraces : Bool) :
    Advances (statementsStep types block inBraces) := by
  have hstatement := statement_past htype hblock hbody
  intro found s hs
  unfold statementsStep
  refine takesFrom_get ?_
  extract_lets ended closed
  have hended : TakesFrom Round.IsAgain s (ended ()) := takesFrom_pure nofun
  have hclosed : TakesFrom Round.IsAgain s (closed ()) :=
    takesFrom_then hs onlyReads_bump.moves fun _ _ _ ↦ takesFrom_pure nofun
  split
  · split
    · rintro _ _ ⟨⟩
    · exact hended
  next hrest =>
    refine takesFrom_atMark ?_
    split
    · split
      · exact hclosed
      · rintro _ _ ⟨⟩
    next hclose =>
      refine takesFrom_eatMark hs (onlyReads_pure _).moves ?_
      have hs' : AtStatement s := by
        refine ⟨hs, fun hnil ↦ hrest ?_, eq_false_of_ne_true hclose⟩
        rw [Cursor.atEnd, hnil, List.isEmpty_nil]
      exact takesFrom_first (hstatement.takes s hs') fun _ ↦ (onlyReads_pure _).moves

theorem settles_statementsStep (hbody : Takes block) (inBraces : Bool) (found : List Statement) :
    SettlesAs d (statementsStep types block inBraces found)
      (statementsStep types' block' inBraces found) := by
  have hstatement := (statement_past htype hblock hbody).toSettlesAs
  unfold statementsStep
  refine settles_bind settles_get fun s ↦ ?_
  extract_lets ended closed
  have hclosed : SettlesAs d (closed ()) (closed ()) :=
    settles_bind settles_bump fun _ ↦ settles_pure _
  refine settles_ite ?_ (settles_bind (settles_atMark _) fun _ ↦ settles_ite ?_ ?_)
  · exact settles_ite (settles_bind (settles_unexpected _) fun _ ↦ settles_pure _)
      (settles_pure _)
  · refine settles_ite hclosed (settles_bind ?_ fun _ ↦ hclosed)
    exact settles_fail (by decide)
  · refine settles_bind (settles_eatMark _) fun _ ↦ settles_ite (settles_pure _) ?_
    exact settles_bind hstatement fun _ ↦ settles_pure _

theorem settles_statements (hbody : Takes block) (inBraces : Bool) :
    SettlesAs d (statements types block inBraces) (statements types' block' inBraces) :=
  settles_rounds (settles_statementsStep htype hblock hbody inBraces)
    (advances_statementsStep htype hblock hbody inBraces) []

end

end

/-! ## Blocks -/

section

variable {types types' : TypeGrammar}
  (htype : ∀ conditional, SettlesAs (d + 1) (types.type conditional) (types'.type conditional))
  {block block' : Parser (List Statement)} (hblock : SettlesAs (d + 1) block block')
  (hbody : Takes block)

include htype hblock hbody

theorem settles_blockRule : SettlesAs d (blockRule types block) (blockRule types' block') :=
  settles_bind (settles_expectMark _) fun _ ↦
    settles_nested (settles_statements htype hblock hbody true)

theorem takes_blockRule : Takes (blockRule types block) := fun s hs ↦
  takesFrom_first (takes_expectMark _ s hs) fun _ ↦
    (settles_nested (settles_statements htype hblock hbody true)).moves

end

/-- Where no more than `n` levels are left, a further level makes no difference. -/
theorem settles_block {d n : Nat} (h : maxNesting ≤ d + n) :
    SettlesAs d (block n) (block (n + 1)) ∧ Takes (block n) := by
  induction n generalizing d with
  | zero =>
      have hdeep : SettlesAs d (fail .tooDeep : Parser (List Statement)) (fail .tooDeep) :=
        settles_fail (by decide)
      refine ⟨settles_bind (settles_expectMark _) fun _ ↦ ?_, fun s hs ↦
        takesFrom_first (takes_expectMark _ s hs) fun _ ↦ hdeep.moves⟩
      exact ⟨hdeep.toSettles, fun s hs ↦ (nested_eq_fail (Nat.le_trans h hs)).symm⟩
  | succ n ih =>
      obtain ⟨hblock, hbody⟩ := ih (d := d + 1) (by omega)
      have htypes := (settles_within (d := d + 1) (n := n) (by omega)).1
      exact ⟨settles_blockRule htypes hblock hbody, takes_blockRule htypes hblock hbody⟩

/-- The rule for a block leads back to itself, as far as `nested` opens levels. -/
theorem block_maxNesting_eq :
    block maxNesting = blockRule (within maxNesting) (block maxNesting) := by
  have hsettles := (settles_block (d := 0) (n := maxNesting) (Nat.le_add_left _ _)).1
  refine (funext fun s ↦ hsettles.agrees s (Nat.zero_le _) : block maxNesting = _).trans ?_
  rw [block]

end PluginSurface.StatementGrammar
