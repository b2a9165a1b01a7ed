import PluginSurface.Proofs.Syntax.Balance
import PluginSurface.Syntax.TypeGrammar

/-!
# Brackets in types

Each rule for types keeps brackets if the rule for the types inside it does, and a rule that begins
at a bracket ends at its partner.
-/

namespace PluginSurface.TypeGrammar

open PluginSurface.Parser

theorem keeps_entityStep (found : List String) : Keeps (entityStep found) := by
  intro k m s
  refine turnsFrom_look (turnsFrom_look ?_)
  split
  next h =>
    rw [Bool.and_eq_true, beq_iff_eq] at h
    have hword : (s.token 1).IsPlain := Token.isPlain_of_word h.2
    exact turnsFrom_bumps (isPlain_of_isMark rfl h.1) hword fun _ _ ↦ keeps_pure _
  next => exact keeps_pure _ _ _ _

@[grind ←]
theorem keeps_entityName : Keeps entityName :=
  keeps_bind keeps_expectWordText fun first ↦ keeps_rounds keeps_entityStep [first]

/-- A name that begins with a bracket is computed, and ends at the partner of the bracket. -/
theorem enclosesFrom_propertyName {m : List String} {s : Cursor} (hs : s.next.isOpener = true) :
    EnclosesFrom m s propertyName := by
  refine enclosesFrom_look ?_
  rw [Cursor.token_zero, (Token.isMarkIn_iff.mp hs).1]
  dsimp only
  split
  · exact enclosesFrom_map (enclosesFrom_takeGroup hs) _
  · rintro - _ _ ⟨⟩

@[grind ←]
theorem keeps_propertyName : Keeps propertyName := by
  intro k m s
  cases hopener : s.next.isOpener with
  | true => exact (enclosesFrom_propertyName hopener).turnsFrom
  | false =>
      refine turnsFrom_look ?_
      rw [Cursor.token_zero]
      have hbump (hkind : s.next.kind ≠ .mark) {f : Token → PropertyName} :
          TurnsFrom m k k s (bump >>= fun t ↦ pure (f t)) :=
        turnsFrom_bump (Token.isPlain_of_kind hkind) fun _ ↦ keeps_pure _
      split
      next hkind => exact hbump (hkind ▸ nofun)
      next hkind => exact hbump (hkind ▸ nofun)
      next hkind => exact hbump (hkind ▸ nofun)
      next hkind => exact hbump (hkind ▸ nofun)
      split
      next hmark =>
        rw [Token.isOpener_of_isMark bracket_mem hmark] at hopener
        cases hopener
      next => exact keeps_unexpected _ _ _ _

@[grind ←]
theorem keeps_memberSeparator : Keeps memberSeparator := by
  unfold memberSeparator
  grind

@[grind ←]
theorem keeps_atIndexSignature : Keeps atIndexSignature := by
  unfold atIndexSignature
  grind

@[grind ←]
theorem keeps_atSignature : Keeps atSignature := by
  unfold atSignature
  grind

theorem sees_atAccessor : Sees atAccessor := by
  intro s found t h
  cases h
  refine ⟨rfl, fun hfound ↦ ?_⟩
  rw [Bool.and_eq_true, Bool.or_eq_true] at hfound
  exact hfound.1.elim isPlain_of_isWord isPlain_of_isWord

@[grind ←]
theorem keeps_atMappedType : Keeps atMappedType := by
  unfold atMappedType
  grind

@[grind ←]
theorem keeps_atFunctionType : Keeps atFunctionType := by
  unfold atFunctionType
  grind

@[grind ←]
theorem keeps_mappedModifier {eat : Parser Bool} (heat : Keeps eat) :
    Keeps (mappedModifier eat) := by
  intro k m s
  refine turnsFrom_look ?_
  split
  next h =>
    exact turnsFrom_bump (isPlain_of_isMarkIn rfl h) fun _ ↦
      keeps_bind heat fun _ ↦ keeps_pure _
  next => exact keeps_bind heat (fun _ ↦ by grind) _ _ _

@[grind ←]
theorem keeps_qualifier : Keeps (rounds qualifierStep []) := by
  refine keeps_rounds (fun found ↦ ?_) []
  unfold qualifierStep
  grind

/-! ## Rules over the rule for inner types -/

section

variable {type : Parser TypeExpr} (htype : Keeps type)

include htype

@[grind ←]
theorem keeps_ascription : Keeps (ascription type) := by
  unfold ascription
  grind

theorem keeps_typeParam : Keeps (typeParam type) := by
  have hvariance (t next : Token) (h : variance t next = true) : t.IsPlain := by
    have hkind : t.kind = .word := by
      simp only [variance, Token.isWord, Bool.and_eq_true, Bool.or_eq_true, beq_iff_eq] at h
      grind
    exact Token.isPlain_of_word hkind
  have htokens := keeps_takeTokens hvariance
  unfold typeParam
  grind

@[grind ←]
theorem keeps_typeParams : Keeps (typeParams type) := by
  have hparam := keeps_typeParam htype
  unfold typeParams
  grind

@[grind ←]
theorem keeps_typeArgs : Keeps (typeArgs type) := by
  unfold typeArgs
  grind

/-- A parameter takes nested tokens, its default among them. -/
theorem keeps_param (place : Nat) : Keeps (param type place) := by
  have hmodifier (t next : Token) (h : paramModifier t next = true) : t.IsPlain := by
    simp only [paramModifier, Bool.and_eq_true, beq_iff_eq] at h
    exact Token.isPlain_of_word h.1.1
  unfold param
  refine keeps_bind (keeps_takeTokens hmodifier) fun _ ↦
    keeps_bind (keeps_eatMark rfl) fun _ ↦ ?_
  intro k m s
  refine turnsFrom_atMark (turnsFrom_atMark ?_)
  extract_lets rest
  have hrest (name : String) : Keeps (rest name) := by
    have hascription := keeps_ascription htype
    have hdefault := keeps_skipExpression [","] false
    refine keeps_bind (keeps_eatMark rfl) fun _ ↦ keeps_bind hascription fun _ ↦ ?_
    refine keeps_bind (keeps_eatMark rfl) fun _ ↦ ?_
    exact keeps_ite (keeps_bind hdefault fun _ ↦ keeps_pure _) (keeps_pure _)
  split
  next h =>
    have hopener : s.next.isOpener = true := by
      rcases Bool.or_eq_true _ _ ▸ h with h | h
      · exact Token.isOpener_of_isMark brace_mem h
      · exact Token.isOpener_of_isMark bracket_mem h
    exact turnsFrom_skipGroup hopener (keeps_bind (keeps_pure _) hrest k)
  next => exact keeps_bind keeps_expectWordText hrest k m s

/-- The parameters end at the partner of the parenthesis in front of them. -/
theorem closes_params : Closes [] ")" (listUntil ")" (param type)) :=
  closes_listUntil parenthesis_mem (keeps_param htype)

@[grind ←]
theorem keeps_params : Keeps (params type) := keeps_bracketed parenthesis_mem (closes_params htype)

@[grind ←]
theorem keeps_resultType : Keeps (resultType type) := by
  intro k m s
  refine turnsFrom_look (turnsFrom_look ?_)
  split
  next h =>
    simp only [Bool.and_eq_true, beq_iff_eq] at h
    have hparam : (s.token 1).IsPlain := Token.isPlain_of_word h.1.1.2
    exact turnsFrom_bumps (isPlain_of_isWord h.1.1.1) hparam fun _ _ ↦
      keeps_bind (keeps_afterWord _ htype) fun _ ↦ keeps_pure _
  split
  next h =>
    simp only [Bool.and_eq_true, beq_iff_eq] at h
    have hparam : s.next.IsPlain := Token.isPlain_of_word h.1.1
    exact turnsFrom_bumps hparam (isPlain_of_isWord h.1.2) fun _ _ ↦
      keeps_bind htype fun _ ↦ keeps_pure _
  next => exact htype k m s

@[grind ←]
theorem keeps_signature : Keeps (signature type) := by
  unfold signature
  grind

@[grind ←]
theorem keeps_indexSignature (readonly : Bool) : Keeps (indexSignature type readonly) := by
  intro k
  unfold indexSignature
  refine turns_bind (turns_opener bracket_mem k) fun _ ↦
    turns_bind (keeps_expectWordText _) fun _ ↦ ?_
  refine turns_bind (keeps_expectMark rfl _) fun _ ↦ turns_bind (htype _) fun _ ↦ ?_
  refine turns_bind (turns_closer bracket_mem k) fun _ ↦ ?_
  exact turns_bind (keeps_ascription htype k) fun _ ↦ keeps_pure _ k

theorem keeps_namedMember (readonly : Bool) : Keeps (namedMember type readonly) := by
  have hsignature := keeps_signature htype
  have hascription := keeps_ascription htype
  intro k m s
  refine turnsFrom_sees sees_atAccessor fun accessor hplain ↦ ?_
  split
  next h =>
    exact turnsFrom_bump (hplain h) fun _ ↦ keeps_bind keeps_propertyName fun _ ↦
      keeps_bind hsignature fun _ ↦ keeps_pure _
  next => exact keeps_bind keeps_atIndexSignature (fun _ ↦ by grind) k m s

@[grind ←]
theorem keeps_typeMember : Keeps (typeMember type) := by
  have hsignature := keeps_signature htype
  have hmember := keeps_namedMember htype
  unfold typeMember
  refine keeps_bind keeps_atSignature fun _ ↦ keeps_ite (by grind) ?_
  intro k m s
  refine turnsFrom_atWord (turnsFrom_look ?_)
  split
  next h =>
    rw [Bool.and_eq_true] at h
    exact turnsFrom_bump (isPlain_of_isWord h.1) fun _ ↦
      keeps_bind hsignature fun _ ↦ keeps_pure _
  refine turnsFrom_atWord (turnsFrom_look ?_)
  extract_lets readonly rest
  split
  next h =>
    rw [Bool.and_eq_true] at h
    exact turnsFrom_bump (isPlain_of_isWord h.1) fun _ ↦ hmember _
  next => exact hmember _ k m s

theorem keeps_separatedMember : Keeps (separatedMember type) := by
  unfold separatedMember
  grind

@[grind ←]
theorem keeps_typeMembers : Keeps (typeMembers type) :=
  keeps_braced rfl (keeps_separatedMember htype)

/-! ### Types -/

/-- The word in front of an import type is taken with it. -/
theorem keepsPlain_importType (isTypeof : Bool) : KeepsPlain (importType type isTypeof) := by
  intro k m s hs
  refine turnsFrom_bump_bind hs (turns_bind (turns_opener parenthesis_mem k) (fun _ ↦ ?_) m _)
  refine turns_bind (keeps_expectString _) fun _ ↦ turns_bind (keeps_eatMark rfl _) fun _ ↦ ?_
  extract_lets rest
  have hrest : Turns (")" :: k) k (rest ()) := by
    refine turns_bind (turns_closer parenthesis_mem k) fun _ ↦ ?_
    exact keeps_bind keeps_qualifier (fun _ ↦ keeps_bind (keeps_typeArgs htype) fun _ ↦
      keeps_pure _) k
  split
  · intro m s
    refine turnsFrom_atMark ?_
    split
    next h =>
      exact turnsFrom_skipGroup (Token.isOpener_of_isMark brace_mem h) hrest
    next => exact hrest m s
  · exact hrest

theorem keepsPlain_namedType : KeepsPlain (namedType type) := by
  intro k m s hs
  have hargs := keeps_typeArgs htype
  refine turnsFrom_look (turnsFrom_look ?_)
  split
  · exact turnsFrom_bump hs fun _ ↦ keeps_pure _
  split
  · exact turnsFrom_bump hs fun _ ↦ keeps_pure _
  split
  · refine turnsFrom_bump hs fun _ ↦ ?_
    intro k m s
    refine turnsFrom_atWord (turnsFrom_look ?_)
    split
    next h =>
      rw [Bool.and_eq_true] at h
      exact keepsPlain_importType htype true k m s (isPlain_of_isWord h.1)
    next =>
      refine keeps_bind keeps_entityName (fun _ ↦ keeps_bind (keeps_look _) fun _ ↦ ?_) k m s
      exact keeps_ite (keeps_pure _) (keeps_bind hargs fun _ ↦ keeps_pure _)
  split
  · exact keepsPlain_importType htype false k m s hs
  extract_lets rest
  have hrest : Keeps (rest ()) :=
    keeps_bind keeps_entityName fun _ ↦ keeps_bind hargs fun _ ↦ keeps_pure _
  split
  · split
    · exact turnsFrom_bump hs fun _ ↦ keeps_pure _
    · exact hrest k m s
  · exact hrest k m s

/-- A mapped type ends at the partner of its brace, and its key at that of its bracket. -/
theorem enclosesFrom_mappedType (m : List String) (s : Cursor) :
    EnclosesFrom m s (mappedType type) := by
  refine enclosesFrom_expectMark brace_mem ?_
  refine closes_bind (keeps_mappedModifier (keeps_eatWord _) []) fun _ ↦ ?_
  refine closes_bind (turns_opener bracket_mem []) fun _ ↦ ?_
  refine closes_bind (keeps_expectWordText _) fun _ ↦
    closes_bind (keeps_expectWord _ _) fun _ ↦ ?_
  refine closes_bind (htype _) fun _ ↦ closes_bind (keeps_afterWord _ htype _) fun _ ↦ ?_
  refine closes_bind (turns_closer bracket_mem []) fun _ ↦ ?_
  refine closes_bind (keeps_mappedModifier (keeps_eatMark rfl) []) fun _ ↦ ?_
  refine closes_bind (keeps_ascription htype []) fun _ ↦ ?_
  refine closes_bind (keeps_memberSeparator []) fun _ ↦ ?_
  exact closes_map (closes_closer brace_mem) _

theorem keeps_tupleElement : Keeps (tupleElement type) := by
  unfold tupleElement
  refine keeps_bind (keeps_eatMark rfl) fun _ ↦ ?_
  intro k m s
  refine turnsFrom_look (turnsFrom_look (turnsFrom_look ?_))
  extract_lets rest
  have hrest (label : Option String × Bool) : Keeps (rest label) :=
    keeps_bind htype fun _ ↦ keeps_bind (keeps_eatMark rfl) fun _ ↦ keeps_pure _
  refine turnsFrom_look ?_
  extract_lets labelled
  split
  next h =>
    simp only [labelled, Bool.and_eq_true, beq_iff_eq] at h
    refine turnsFrom_bump (Token.isPlain_of_word h.1) fun _ ↦ ?_
    refine keeps_bind (keeps_eatMark rfl) fun _ ↦ keeps_bind (keeps_expectMark rfl) fun _ ↦ ?_
    exact keeps_bind (keeps_pure _) hrest
  next => exact keeps_bind (keeps_pure _) hrest k m s

/-- A tuple ends at the partner of its bracket. -/
theorem enclosesFrom_tupleType (m : List String) (s : Cursor) :
    EnclosesFrom m s (tupleType type) :=
  enclosesFrom_expectMark bracket_mem
    (closes_map (closes_listUntil bracket_mem fun _ ↦ keeps_tupleElement htype) _)

/-- A type that begins with a bracket, be it in parentheses, in braces or a tuple, ends at the
partner of the bracket. -/
theorem enclosesFrom_primaryType {m : List String} {s : Cursor} (hs : s.next.isOpener = true) :
    EnclosesFrom m s (primaryType type) := by
  obtain ⟨hkind, htext⟩ := Token.isMarkIn_iff.mp hs
  refine enclosesFrom_look ?_
  rw [Cursor.token_zero, hkind]
  dsimp only
  simp only [List.mem_cons, List.not_mem_nil, or_false] at htext
  rcases htext with htext | htext | htext
  · rw [htext, if_pos (by decide)]
    refine enclosesFrom_bump parenthesis_mem (Token.isMark_iff.mpr ⟨hkind, htext⟩) fun _ ↦ ?_
    exact closes_bind (htype []) fun _ ↦ closes_map (closes_closer parenthesis_mem) _
  · rw [htext, if_neg (by decide), if_neg (by decide), if_pos (by decide)]
    exact enclosesFrom_tupleType htype m s
  · rw [htext, if_neg (by decide), if_pos (by decide)]
    refine enclosesFrom_bind (fun s _ t h ↦ by cases h; rfl) fun mapped ↦ ?_
    cases mapped with
    | true => exact enclosesFrom_mappedType htype m s
    | false => exact enclosesFrom_map (enclosesFrom_braced rfl (keeps_separatedMember htype)) _

@[grind ←]
theorem keeps_primaryType : Keeps (primaryType type) := by
  intro k m s
  cases hopener : s.next.isOpener with
  | true => exact (enclosesFrom_primaryType htype hopener).turnsFrom
  | false =>
      have hplain (h : s.next.kind ≠ .mark) : s.next.IsPlain := Token.isPlain_of_kind h
      refine turnsFrom_look ?_
      rw [Cursor.token_zero]
      split
      next hkind => exact turnsFrom_bump (hplain (hkind ▸ nofun)) fun _ ↦ keeps_pure _
      next hkind => exact turnsFrom_bump (hplain (hkind ▸ nofun)) fun _ ↦ keeps_pure _
      next hkind => exact turnsFrom_bump (hplain (hkind ▸ nofun)) fun _ ↦ keeps_pure _
      next hkind => exact keepsPlain_namedType htype k m s (hplain (hkind ▸ nofun))
      next hkind =>
        have hne {b : String × String} (hb : b ∈ Token.brackets) :
            ¬(s.next.text == b.1) = true := by
          intro htext
          have hmark := Token.isMark_iff.mpr ⟨hkind, beq_iff_eq.mp htext⟩
          rw [Token.isOpener_of_isMark hb hmark] at hopener
          cases hopener
        rw [if_neg (hne parenthesis_mem), if_neg (hne brace_mem), if_neg (hne bracket_mem)]
        refine turnsFrom_look ?_
        split
        next h =>
          rw [Bool.and_eq_true, beq_iff_eq, beq_iff_eq] at h
          have hminus : s.next.isMark "-" = true := Token.isMark_iff.mpr ⟨hkind, h.1⟩
          exact turnsFrom_bumps (isPlain_of_isMark rfl hminus)
            (Token.isPlain_of_kind (h.2 ▸ nofun)) fun _ _ ↦ keeps_pure _
        next => exact keeps_unexpected _ _ _ _
      next => exact keeps_unexpected _ _ _ _

/-- The brackets of an indexed access or an array are taken together. -/
theorem keeps_postfixStep (object : TypeExpr) : Keeps (postfixStep type object) := by
  intro k m s
  refine turnsFrom_look ?_
  split
  next h =>
    rw [Bool.and_eq_true] at h
    refine turnsFrom_bump_opener bracket_mem h.1 ?_
    refine turns_eatMark_closer bracket_mem ?_ ?_ m _
    · exact keeps_pure _ k
    · refine turns_bind (htype _) fun _ ↦ ?_
      exact turns_bind (turns_closer bracket_mem k) fun _ ↦ keeps_pure _ k
  next => exact keeps_pure _ k m s

@[grind ←]
theorem keeps_postfixType : Keeps (postfixType type) := by
  unfold postfixType
  exact keeps_bind (keeps_primaryType htype) fun _ ↦ keeps_rounds (keeps_postfixStep htype) _

@[grind ←]
theorem keeps_functionType : Keeps (functionType type) := by
  have hparams := keeps_params htype
  unfold functionType
  grind

@[grind ←]
theorem keeps_inferBound : Keeps (inferBound type) := by
  unfold inferBound
  refine keeps_attempt ?_
  grind

end

@[grind ←]
theorem keeps_chain {mark : String} (hmark : isPlainMark mark = true)
    (combine : List TypeExpr → TypeExpr) {operand : Parser TypeExpr} (hoperand : Keeps operand) :
    Keeps (chain mark combine operand) := by
  unfold chain
  refine keeps_bind (keeps_eatMark hmark) fun _ ↦ ?_
  refine keeps_bind (keeps_separated hmark hoperand) fun _ ↦ ?_
  split <;> exact keeps_pure _

theorem keeps_operandRule {type : Bool → Parser TypeExpr}
    (htype : ∀ conditional, Keeps (type conditional)) {inner : Parser TypeExpr}
    (hinner : Keeps inner) : Keeps (operandRule type inner) := by
  intro k m s
  refine turnsFrom_look (turnsFrom_look ?_)
  extract_lets rest
  have hrest : TurnsFrom m k k s (rest ()) := by
    refine turnsFrom_look ?_
    split
    next h =>
      rw [Bool.and_eq_true] at h
      refine turnsFrom_bump (isPlain_of_isWord h.1) fun _ ↦
        keeps_bind keeps_expectWordText fun _ ↦ ?_
      exact keeps_bind (keeps_inferBound (htype false)) fun _ ↦ keeps_pure _
    next => exact keeps_postfixType (htype true) k m s
  split
  next h =>
    rw [Bool.and_eq_true, beq_iff_eq] at h
    split
    · exact turnsFrom_bump (Token.isPlain_of_word h.1) fun _ ↦
        keeps_bind (keeps_nested hinner) fun _ ↦ keeps_pure _
    · exact hrest
  next => exact hrest

theorem keeps_typeBody {operand : Parser TypeExpr} (hoperand : Keeps operand)
    {type : Bool → Parser TypeExpr} (htype : ∀ conditional, Keeps (type conditional))
    (conditional : Bool) : Keeps (typeBody operand type conditional) := by
  unfold typeBody
  refine keeps_bind keeps_atFunctionType fun _ ↦ keeps_ite (keeps_functionType (htype true)) ?_
  refine keeps_bind (keeps_chain rfl _ (keeps_chain rfl _ hoperand)) fun _ ↦ ?_
  refine keeps_ite (keeps_bind (keeps_eatWord _) fun _ ↦ keeps_ite ?_ (keeps_pure _))
    (keeps_pure _)
  refine keeps_bind (htype false) fun _ ↦ keeps_bind (keeps_expectMark rfl) fun _ ↦ ?_
  refine keeps_bind (htype true) fun _ ↦ keeps_bind (keeps_expectMark rfl) fun _ ↦ ?_
  exact keeps_bind (htype true) fun _ ↦ keeps_pure _

theorem keeps_typeRule {operand : Parser TypeExpr} (hoperand : Keeps operand)
    {type : Bool → Parser TypeExpr} (htype : ∀ conditional, Keeps (type conditional))
    (conditional : Bool) : Keeps (typeRule operand type conditional) :=
  keeps_nested (keeps_withBound _ (keeps_typeBody hoperand htype conditional))

/-- The grammar of types keeps brackets, however many levels are left. -/
theorem keeps_within (n : Nat) :
    (∀ conditional, Keeps ((within n).type conditional)) ∧ Keeps (within n).operand := by
  induction n with
  | zero =>
      have htooDeep : Keeps tooDeep := keeps_fail _
      exact ⟨fun _ ↦ htooDeep, keeps_operandRule (fun _ ↦ htooDeep) htooDeep⟩
  | succ n ih =>
      have htype := keeps_typeRule ih.2 ih.1
      exact ⟨htype, keeps_operandRule htype ih.2⟩

end PluginSurface.TypeGrammar
