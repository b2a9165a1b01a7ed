import PluginSurface.Proofs.Syntax.Progress
import PluginSurface.Proofs.Syntax.TypeReading

/-!
# The grammar of types settles

Each rule settles as it does over other rules for the types inside it, if those settle alike. So the
rules for types are the same for any number of levels that cannot be used up: they satisfy the
equation of the recursive grammar, in which nothing but the levels that are open ends the recursion.
-/

namespace PluginSurface.TypeGrammar

open PluginSurface.Parser

section

variable {d : Nat}

theorem advances_entityStep : Advances entityStep := by
  intro found s hs
  unfold entityStep
  refine takesFrom_look (takesFrom_look ?_)
  split
  next h =>
    rw [Bool.and_eq_true] at h
    exact takesFrom_bump (rest_ne_nil_of_isMark hs h.1) fun _ ↦
      moves_bind onlyReads_bump.moves fun _ ↦ (onlyReads_pure _).moves
  next => exact takesFrom_pure nofun

theorem settles_entityStep (found : List String) :
    SettlesAs d (entityStep found) (entityStep found) := by
  unfold entityStep
  grind

@[grind ←]
theorem settles_entityName : SettlesAs d entityName entityName :=
  settles_bind settles_expectWordText fun first ↦
    settles_rounds settles_entityStep advances_entityStep [first]

@[grind ←]
theorem settles_propertyName : SettlesAs d propertyName propertyName := by
  unfold propertyName
  grind

theorem takes_propertyName : Takes propertyName := by
  intro s hs
  unfold propertyName
  refine takesFrom_look ?_
  rw [Cursor.token_zero]
  split
  all_goals try
    next hkind =>
      exact takesFrom_bump (Cursor.rest_ne_nil hs (hkind ▸ nofun)) fun _ ↦
        (onlyReads_pure _).moves
  split
  · exact takesFrom_first (takes_takeGroup s hs) fun _ ↦ (onlyReads_pure _).moves
  · exact takesFrom_unexpected _

@[grind ←]
theorem settles_memberSeparator : SettlesAs d memberSeparator memberSeparator := by
  unfold memberSeparator
  grind

@[grind ←]
theorem settles_atIndexSignature : SettlesAs d atIndexSignature atIndexSignature := by
  unfold atIndexSignature
  grind

@[grind ←]
theorem settles_atSignature : SettlesAs d atSignature atSignature := by
  unfold atSignature
  grind

@[grind ←]
theorem settles_atAccessor : SettlesAs d atAccessor atAccessor := by
  unfold atAccessor
  grind

@[grind ←]
theorem settles_atMappedType : SettlesAs d atMappedType atMappedType := by
  unfold atMappedType
  grind

@[grind ←]
theorem settles_atFunctionType : SettlesAs d atFunctionType atFunctionType := by
  unfold atFunctionType
  grind

@[grind ←]
theorem settles_mappedModifier {eat : Parser Bool} (heat : SettlesAs d eat eat) :
    SettlesAs d (mappedModifier eat) (mappedModifier eat) := by
  unfold mappedModifier
  grind

theorem advances_qualifierStep : Advances qualifierStep := by
  intro found s hs
  refine takesFrom_eatMark hs ?_ (takesFrom_pure nofun)
  exact moves_bind onlyReads_expectWordText.moves fun _ ↦ (onlyReads_pure _).moves

theorem settles_qualifierStep (found : List String) :
    SettlesAs d (qualifierStep found) (qualifierStep found) := by
  unfold qualifierStep
  grind

@[grind ←]
theorem settles_qualifier : SettlesAs d (rounds qualifierStep []) (rounds qualifierStep []) :=
  settles_rounds settles_qualifierStep advances_qualifierStep []

/-! ## Rules over the rule for inner types -/

section

variable {type type' : Parser TypeExpr} (htype : SettlesAs d type type')

include htype

@[grind ←]
theorem settles_ascription : SettlesAs d (ascription type) (ascription type') := by
  unfold ascription
  grind

theorem settles_typeParam : SettlesAs d (typeParam type) (typeParam type') := by
  refine settles_bind (settles_takeTokens _) fun _ ↦
    settles_bind settles_expectWordText fun _ ↦ ?_
  refine settles_bind (settles_afterWord _ htype) fun _ ↦ ?_
  exact settles_bind (settles_afterMark _ htype) fun _ ↦ settles_pure _

@[grind ←]
theorem settles_typeParams : SettlesAs d (typeParams type) (typeParams type') := by
  have hparam := settles_typeParam htype
  refine settles_bind (settles_eatMark _) fun _ ↦ ?_
  split
  · exact settles_listUntil _ fun _ ↦ hparam
  · exact settles_pure _

@[grind ←]
theorem settles_typeArgs : SettlesAs d (typeArgs type) (typeArgs type') := by
  unfold typeArgs
  grind

theorem settles_param (place : Nat) : SettlesAs d (param type place) (param type' place) := by
  unfold param
  refine settles_bind (settles_takeTokens _) fun _ ↦ ?_
  refine settles_bind (settles_eatMark _) fun _ ↦ ?_
  refine settles_bind (settles_atMark _) fun _ ↦ settles_bind (settles_atMark _) fun _ ↦ ?_
  extract_lets rest rest'
  have hrest (name : String) : SettlesAs d (rest name) (rest' name) := by
    refine settles_bind (settles_eatMark _) fun _ ↦
      settles_bind (settles_ascription htype) fun _ ↦ ?_
    grind
  refine settles_ite ?_ (settles_bind settles_expectWordText hrest)
  exact settles_bind settles_skipGroup fun _ ↦ settles_bind (settles_pure _) hrest

@[grind ←]
theorem settles_params : SettlesAs d (params type) (params type') :=
  settles_bind (settles_expectMark _) fun _ ↦ settles_listUntil _ (settles_param htype)

@[grind ←]
theorem settles_resultType : SettlesAs d (resultType type) (resultType type') := by
  unfold resultType
  refine settles_bind (settles_look _) fun _ ↦ settles_bind (settles_look _) fun _ ↦ ?_
  refine settles_ite ?_ (settles_ite ?_ htype)
  · refine settles_bind settles_bump fun _ ↦ settles_bind settles_bump fun _ ↦ ?_
    exact settles_bind (settles_afterWord _ htype) fun _ ↦ settles_pure _
  · refine settles_bind settles_bump fun _ ↦ settles_bind settles_bump fun _ ↦ ?_
    exact settles_bind htype fun _ ↦ settles_pure _

@[grind ←]
theorem settles_signature : SettlesAs d (signature type) (signature type') := by
  unfold signature
  refine settles_bind (settles_typeParams htype) fun _ ↦
    settles_bind (settles_params htype) fun _ ↦ ?_
  exact settles_bind (settles_afterMark _ (settles_resultType htype)) fun _ ↦ settles_pure _

@[grind ←]
theorem settles_indexSignature (readonly : Bool) :
    SettlesAs d (indexSignature type readonly) (indexSignature type' readonly) := by
  unfold indexSignature
  refine settles_bind (settles_expectMark _) fun _ ↦
    settles_bind settles_expectWordText fun _ ↦ ?_
  refine settles_bind (settles_expectMark _) fun _ ↦ settles_bind htype fun _ ↦ ?_
  refine settles_bind (settles_expectMark _) fun _ ↦ ?_
  exact settles_bind (settles_ascription htype) fun _ ↦ settles_pure _

theorem settles_namedMember (readonly : Bool) :
    SettlesAs d (namedMember type readonly) (namedMember type' readonly) := by
  have hsignature := settles_signature htype
  unfold namedMember
  refine settles_bind settles_atAccessor fun _ ↦ settles_ite ?_ ?_
  · refine settles_bind settles_bump fun _ ↦ settles_bind settles_propertyName fun _ ↦ ?_
    exact settles_bind hsignature fun _ ↦ settles_pure _
  refine settles_bind settles_atIndexSignature fun _ ↦ settles_ite ?_ ?_
  · exact settles_bind (settles_indexSignature htype _) fun _ ↦ settles_pure _
  refine settles_bind settles_propertyName fun _ ↦ settles_bind (settles_eatMark _) fun _ ↦ ?_
  refine settles_bind settles_atSignature fun _ ↦ ?_
  exact settles_ite (settles_bind hsignature fun _ ↦ settles_pure _)
    (settles_bind (settles_ascription htype) fun _ ↦ settles_pure _)

@[grind ←]
theorem settles_typeMember : SettlesAs d (typeMember type) (typeMember type') := by
  have hsignature := settles_signature htype
  unfold typeMember
  refine settles_bind settles_atSignature fun _ ↦ ?_
  refine settles_ite (settles_bind hsignature fun _ ↦ settles_pure _) ?_
  refine settles_bind (settles_atWord _) fun _ ↦ settles_bind (settles_look _) fun _ ↦ ?_
  refine settles_ite (settles_bind settles_bump fun _ ↦
    settles_bind hsignature fun _ ↦ settles_pure _) ?_
  refine settles_bind (settles_atWord _) fun _ ↦ settles_bind (settles_look _) fun _ ↦ ?_
  have hmember := settles_namedMember htype
  exact settles_ite (settles_bind settles_bump fun _ ↦ hmember _) (hmember _)

/-! ### A member takes a token: its parameters or its name do -/

theorem takes_params : Takes (params type) := fun s hs ↦
  takesFrom_first (takes_expectMark _ s hs) fun _ ↦
    (settles_listUntil _ (settles_param htype)).moves

theorem takes_signature : Takes (signature type) := by
  intro s hs
  refine takesFrom_then hs (settles_typeParams htype).moves fun _ t ht ↦ ?_
  refine takesFrom_first (takes_params htype t ht) fun _ ↦ ?_
  exact moves_bind (settles_afterMark _ (settles_resultType htype)).moves fun _ ↦
    (onlyReads_pure _).moves

theorem takes_indexSignature (readonly : Bool) : Takes (indexSignature type readonly) := by
  intro s hs
  refine takesFrom_first (takes_expectMark _ s hs) fun _ ↦ ?_
  refine moves_bind onlyReads_expectWordText.moves fun _ ↦ ?_
  refine moves_bind (onlyReads_expectMark _).moves fun _ ↦ moves_bind htype.moves fun _ ↦ ?_
  refine moves_bind (onlyReads_expectMark _).moves fun _ ↦ ?_
  exact moves_bind (settles_ascription htype).moves fun _ ↦ (onlyReads_pure _).moves

theorem takes_namedMember (readonly : Bool) : Takes (namedMember type readonly) := by
  intro s hs
  have hsignature := (settles_signature htype).moves
  unfold namedMember
  refine takesFrom_then hs onlyReads_atAccessor.moves fun accessor t ht ↦ ?_
  split
  · refine takesFrom_then ht onlyReads_bump.moves fun _ u hu ↦ ?_
    refine takesFrom_first (takes_propertyName u hu) fun _ ↦ ?_
    exact moves_bind hsignature fun _ ↦ (onlyReads_pure _).moves
  refine takesFrom_then ht onlyReads_atIndexSignature.moves fun index u hu ↦ ?_
  split
  · exact takesFrom_first (takes_indexSignature htype readonly u hu) fun _ ↦
      (onlyReads_pure _).moves
  refine takesFrom_first (takes_propertyName u hu) fun _ ↦ ?_
  refine moves_bind (onlyReads_eatMark _).moves fun _ ↦ ?_
  refine moves_bind onlyReads_atSignature.moves fun _ ↦ ?_
  split
  · exact moves_bind hsignature fun _ ↦ (onlyReads_pure _).moves
  · exact moves_bind (settles_ascription htype).moves fun _ ↦ (onlyReads_pure _).moves

theorem takes_typeMember : Takes (typeMember type) := by
  intro s hs
  have htakes := takes_signature htype
  unfold typeMember
  refine takesFrom_then hs onlyReads_atSignature.moves fun call t ht ↦ ?_
  split
  · exact takesFrom_first (htakes t ht) fun _ ↦ (onlyReads_pure _).moves
  refine takesFrom_then ht (onlyReads_atWord _).moves fun _ t ht ↦ ?_
  refine takesFrom_then ht (onlyReads_look _).moves fun _ t ht ↦ ?_
  split
  · refine takesFrom_then ht onlyReads_bump.moves fun _ t ht ↦ ?_
    exact takesFrom_first (htakes t ht) fun _ ↦ (onlyReads_pure _).moves
  refine takesFrom_then ht (onlyReads_atWord _).moves fun _ t ht ↦ ?_
  refine takesFrom_then ht (onlyReads_look _).moves fun _ t ht ↦ ?_
  extract_lets readonly rest
  split
  · exact takesFrom_then ht onlyReads_bump.moves fun _ t ht ↦ takes_namedMember htype _ t ht
  · exact takes_namedMember htype _ t ht

theorem settles_separatedMember : SettlesAs d (separatedMember type) (separatedMember type') :=
  settles_bind (settles_typeMember htype) fun _ ↦
    settles_bind settles_memberSeparator fun _ ↦ settles_pure _

theorem takes_separatedMember : Takes (separatedMember type) := fun s hs ↦
  takesFrom_first (takes_typeMember htype s hs) fun _ ↦
    moves_bind onlyReads_memberSeparator.moves fun _ ↦ (onlyReads_pure _).moves

@[grind ←]
theorem settles_typeMembers : SettlesAs d (typeMembers type) (typeMembers type') :=
  settles_braced _ (settles_separatedMember htype) (takes_separatedMember htype)

/-! ### Types -/

theorem settles_importType (isTypeof : Bool) :
    SettlesAs d (importType type isTypeof) (importType type' isTypeof) := by
  unfold importType
  refine settles_bind settles_bump fun _ ↦ settles_bind (settles_expectMark _) fun _ ↦ ?_
  refine settles_bind settles_expectString fun _ ↦ settles_bind (settles_eatMark _) fun _ ↦ ?_
  extract_lets rest rest'
  have hrest : SettlesAs d (rest ()) (rest' ()) := by
    refine settles_bind (settles_expectMark _) fun _ ↦ settles_bind settles_qualifier fun _ ↦ ?_
    exact settles_bind (settles_typeArgs htype) fun _ ↦ settles_pure _
  refine settles_ite ?_ hrest
  refine settles_bind (settles_atMark _) fun _ ↦ ?_
  exact settles_ite (settles_bind settles_skipGroup fun _ ↦ hrest) hrest

theorem settles_namedType : SettlesAs d (namedType type) (namedType type') := by
  have hargs := settles_typeArgs htype
  unfold namedType
  refine settles_bind (settles_look _) fun _ ↦ settles_bind (settles_look _) fun _ ↦ ?_
  refine settles_ite (settles_bind settles_bump fun _ ↦ settles_pure _) ?_
  refine settles_ite (settles_bind settles_bump fun _ ↦ settles_pure _) ?_
  refine settles_ite ?_ (settles_ite (settles_importType htype false) ?_)
  · refine settles_bind settles_bump fun _ ↦ settles_bind (settles_atWord _) fun _ ↦ ?_
    refine settles_bind (settles_look _) fun _ ↦ settles_ite (settles_importType htype true) ?_
    refine settles_bind settles_entityName fun _ ↦ settles_bind (settles_look _) fun _ ↦ ?_
    exact settles_ite (settles_pure _) (settles_bind hargs fun _ ↦ settles_pure _)
  extract_lets rest rest'
  have hrest : SettlesAs d (rest ()) (rest' ()) :=
    settles_bind settles_entityName fun _ ↦ settles_bind hargs fun _ ↦ settles_pure _
  refine settles_ite ?_ hrest
  split
  · exact settles_bind settles_bump fun _ ↦ settles_pure _
  · exact hrest

theorem settles_mappedType : SettlesAs d (mappedType type) (mappedType type') := by
  unfold mappedType
  refine settles_bind (settles_expectMark _) fun _ ↦ ?_
  refine settles_bind (settles_mappedModifier (settles_eatWord _)) fun _ ↦ ?_
  refine settles_bind (settles_expectMark _) fun _ ↦
    settles_bind settles_expectWordText fun _ ↦ ?_
  refine settles_bind (settles_expectWord _) fun _ ↦ settles_bind htype fun _ ↦ ?_
  refine settles_bind (settles_afterWord _ htype) fun _ ↦
    settles_bind (settles_expectMark _) fun _ ↦ ?_
  refine settles_bind (settles_mappedModifier (settles_eatMark _)) fun _ ↦ ?_
  refine settles_bind (settles_ascription htype) fun _ ↦
    settles_bind settles_memberSeparator fun _ ↦ ?_
  exact settles_bind (settles_expectMark _) fun _ ↦ settles_pure _

theorem settles_tupleElement : SettlesAs d (tupleElement type) (tupleElement type') := by
  unfold tupleElement
  refine settles_bind (settles_eatMark _) fun _ ↦ settles_bind (settles_look _) fun _ ↦ ?_
  refine settles_bind (settles_look _) fun _ ↦ settles_bind (settles_look _) fun _ ↦ ?_
  extract_lets rest rest'
  have hrest (label : Option String × Bool) : SettlesAs d (rest label) (rest' label) :=
    settles_bind htype fun _ ↦ settles_bind (settles_eatMark _) fun _ ↦ settles_pure _
  refine settles_bind (settles_look _) fun _ ↦
    settles_ite ?_ (settles_bind (settles_pure _) hrest)
  refine settles_bind settles_bump fun _ ↦ settles_bind (settles_eatMark _) fun _ ↦ ?_
  exact settles_bind (settles_expectMark _) fun _ ↦ settles_bind (settles_pure _) hrest

theorem settles_tupleType : SettlesAs d (tupleType type) (tupleType type') := by
  refine settles_bind (settles_expectMark _) fun _ ↦ ?_
  exact settles_bind (settles_listUntil _ fun _ ↦ settles_tupleElement htype) fun _ ↦
    settles_pure _

theorem settles_primaryType : SettlesAs d (primaryType type) (primaryType type') := by
  unfold primaryType
  refine settles_bind (settles_look _) fun t ↦ ?_
  split
  · exact settles_bind settles_bump fun _ ↦ settles_pure _
  · exact settles_bind settles_bump fun _ ↦ settles_pure _
  · exact settles_bind settles_bump fun _ ↦ settles_pure _
  · exact settles_namedType htype
  · refine settles_ite ?_ (settles_ite ?_ (settles_ite (settles_tupleType htype) ?_))
    · refine settles_bind settles_bump fun _ ↦ settles_bind htype fun _ ↦ ?_
      exact settles_bind (settles_expectMark _) fun _ ↦ settles_pure _
    · refine settles_bind settles_atMappedType fun _ ↦ settles_ite (settles_mappedType htype) ?_
      exact settles_bind (settles_typeMembers htype) fun _ ↦ settles_pure _
    · grind
  · exact settles_unexpected _

theorem advances_postfixStep : Advances (postfixStep type) := by
  intro object s hs
  unfold postfixStep
  refine takesFrom_look ?_
  split
  next h =>
    rw [Bool.and_eq_true] at h
    refine takesFrom_bump (rest_ne_nil_of_isMark hs h.1) fun _ ↦ ?_
    refine moves_bind (onlyReads_eatMark _).moves fun _ ↦ ?_
    split
    · exact (onlyReads_pure _).moves
    · refine moves_bind htype.moves fun _ ↦ ?_
      exact moves_bind (onlyReads_expectMark _).moves fun _ ↦ (onlyReads_pure _).moves
  next => exact takesFrom_pure nofun

theorem settles_postfixStep (object : TypeExpr) :
    SettlesAs d (postfixStep type object) (postfixStep type' object) := by
  unfold postfixStep
  refine settles_bind (settles_look _) fun _ ↦ settles_ite ?_ (settles_pure _)
  refine settles_bind settles_bump fun _ ↦ settles_bind (settles_eatMark _) fun _ ↦ ?_
  refine settles_ite (settles_pure _) (settles_bind htype fun _ ↦ ?_)
  exact settles_bind (settles_expectMark _) fun _ ↦ settles_pure _

theorem settles_postfixType : SettlesAs d (postfixType type) (postfixType type') :=
  settles_bind (settles_primaryType htype) fun first ↦
    settles_rounds (settles_postfixStep htype) (advances_postfixStep htype) first

theorem settles_functionType : SettlesAs d (functionType type) (functionType type') := by
  unfold functionType
  refine settles_bind (settles_eatWord _) fun _ ↦ settles_bind (settles_eatWord _) fun _ ↦ ?_
  refine settles_bind (settles_typeParams htype) fun _ ↦
    settles_bind (settles_params htype) fun _ ↦ ?_
  refine settles_bind (settles_expectMark _) fun _ ↦ ?_
  exact settles_bind (settles_resultType htype) fun _ ↦ settles_pure _

theorem settles_inferBound : SettlesAs d (inferBound type) (inferBound type') := by
  refine settles_attempt (settles_bind settles_get fun _ ↦ ?_)
  refine settles_bind (settles_eatWord _) fun _ ↦ settles_ite ?_ (settles_pure _)
  refine settles_bind htype fun _ ↦ ?_
  grind

end

/-! ## Operands and whole types -/

theorem settles_chain (mark : String) (combine : List TypeExpr → TypeExpr)
    {operand operand' : Parser TypeExpr} (hoperand : SettlesAs d operand operand') :
    SettlesAs d (chain mark combine operand) (chain mark combine operand') := by
  refine settles_bind (settles_eatMark _) fun _ ↦
    settles_bind (settles_separated _ hoperand) fun operands ↦ ?_
  split <;> exact settles_pure _

theorem settles_operandRule {type type' : Bool → Parser TypeExpr} {inner inner' : Parser TypeExpr}
    (htype : ∀ conditional, SettlesAs d (type conditional) (type' conditional))
    (hinner : SettlesAs d (nested inner) (nested inner')) :
    SettlesAs d (operandRule type inner) (operandRule type' inner') := by
  unfold operandRule
  refine settles_bind (settles_look _) fun _ ↦ settles_bind (settles_look _) fun _ ↦ ?_
  extract_lets rest rest'
  have hrest : SettlesAs d (rest ()) (rest' ()) := by
    refine settles_bind (settles_look _) fun _ ↦ settles_ite ?_ (settles_postfixType (htype true))
    refine settles_bind settles_bump fun _ ↦ settles_bind settles_expectWordText fun _ ↦ ?_
    exact settles_bind (settles_inferBound (htype false)) fun _ ↦ settles_pure _
  refine settles_ite ?_ hrest
  split
  · exact settles_bind settles_bump fun _ ↦ settles_bind hinner fun _ ↦ settles_pure _
  · exact hrest

theorem settles_typeBody {operand operand' : Parser TypeExpr}
    {type type' : Bool → Parser TypeExpr} (hoperand : SettlesAs d operand operand')
    (htype : ∀ conditional, SettlesAs d (type conditional) (type' conditional))
    (conditional : Bool) :
    SettlesAs d (typeBody operand type conditional) (typeBody operand' type' conditional) := by
  unfold typeBody
  refine settles_bind settles_atFunctionType fun _ ↦
    settles_ite (settles_functionType (htype true)) ?_
  refine settles_bind (settles_chain _ _ (settles_chain _ _ hoperand)) fun _ ↦ ?_
  extract_lets rest
  refine settles_ite ?_ (settles_pure _)
  refine settles_bind (settles_eatWord _) fun _ ↦ settles_ite ?_ (settles_pure _)
  refine settles_bind (htype false) fun _ ↦ settles_bind (settles_expectMark _) fun _ ↦ ?_
  refine settles_bind (htype true) fun _ ↦ settles_bind (settles_expectMark _) fun _ ↦ ?_
  exact settles_bind (htype true) fun _ ↦ settles_pure _

/-! ## The recursive grammar -/

theorem settles_typeRule {operand operand' : Parser TypeExpr}
    {type type' : Bool → Parser TypeExpr} (hoperand : SettlesAs (d + 1) operand operand')
    (htype : ∀ conditional, SettlesAs (d + 1) (type conditional) (type' conditional))
    (conditional : Bool) :
    SettlesAs d (typeRule operand type conditional) (typeRule operand' type' conditional) :=
  settles_nested (settles_withBound _ (settles_typeBody hoperand htype conditional))

end

/-- Where no more than `n` levels are left, a further level makes no difference. -/
theorem settles_within {d n : Nat} (h : maxNesting ≤ d + n) :
    (∀ conditional, SettlesAs d ((within n).type conditional)
      ((within (n + 1)).type conditional)) ∧
      SettlesAs d (within n).operand (within (n + 1)).operand := by
  have hdeep {d : Nat} : SettlesAs d tooDeep tooDeep := settles_fail (by decide)
  induction n generalizing d with
  | zero =>
      simp only [within]
      have htype (conditional : Bool) :
          SettlesAs d tooDeep (typeRule (within 0).operand (within 0).type conditional) :=
        ⟨hdeep.toSettles (d := d), fun s hs ↦ (nested_eq_fail (Nat.le_trans h hs)).symm⟩
      refine ⟨htype, settles_operandRule htype ?_⟩
      refine ⟨(settles_nested hdeep).toSettles (d := d), fun s hs ↦ ?_⟩
      rw [nested_eq_fail (Nat.le_trans h hs), nested_eq_fail (Nat.le_trans h hs)]
  | succ n ih =>
      obtain ⟨htype, hoperand⟩ := ih (d := d + 1) (by omega)
      rw [within, within]
      dsimp only
      have htype' := settles_typeRule hoperand htype
      exact ⟨htype', settles_operandRule htype' (settles_nested hoperand)⟩

/-- The rules for types, as a grammar in which they lead back to one another: what ends the
recursion is that `nested` opens no more than `maxNesting` levels. -/
theorem within_maxNesting_eq (conditional : Bool) :
    let types := within maxNesting
    types.type conditional = typeRule types.operand types.type conditional ∧
      types.operand = operandRule types.type types.operand := by
  obtain ⟨htype, hoperand⟩ := settles_within (d := 0) (n := maxNesting) (Nat.le_add_left _ _)
  intro types
  have heq (conditional : Bool) :
      types.type conditional = typeRule types.operand types.type conditional :=
    funext fun s ↦ (htype conditional).agrees s (Nat.zero_le _)
  refine ⟨heq conditional, ?_⟩
  refine (funext fun s ↦ hoperand.agrees s (Nat.zero_le _) : types.operand = _).trans ?_
  rw [within]
  dsimp only
  rw [← funext heq]

end PluginSurface.TypeGrammar
