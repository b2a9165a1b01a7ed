import PluginSurface.Proofs.Syntax.Places
import PluginSurface.Proofs.Syntax.TypeReading

/-!
# The grammar of types does not look at places

Types hold no places, so each rule answers the same type wherever the tokens stand, if the rules for
the types inside it do.
-/

namespace PluginSurface.TypeGrammar

open PluginSurface.Parser

variable {r : Relocation}

@[grind ←]
theorem placeless_entityName : Placeless r entityName := by
  unfold entityName
  refine parallel_bind_id parallel_expectWordText fun first ↦
    parallel_rounds_id (fun found ↦ ?_) [first]
  unfold entityStep
  grind

theorem computedText_relocated (ts : List Token) :
    computedText (ts.map r.token) = computedText ts := by
  unfold computedText
  rw [List.foldl_map]
  rfl

@[grind ←]
theorem placeless_propertyName : Placeless r propertyName := by
  unfold propertyName
  grind [computedText_relocated]

@[grind =]
theorem startsPropertyName_relocated (t : Token) :
    startsPropertyName (r.token t) = startsPropertyName t := rfl

@[grind =]
theorem startsType_relocated (t : Token) : startsType (r.token t) = startsType t := rfl

@[grind ←]
theorem placeless_memberSeparator : Placeless r memberSeparator := by
  unfold memberSeparator
  grind

@[grind ←]
theorem placeless_atIndexSignature : Placeless r atIndexSignature := by
  unfold atIndexSignature
  grind

@[grind ←]
theorem placeless_atSignature : Placeless r atSignature := by
  unfold atSignature
  grind

@[grind ←]
theorem placeless_atAccessor : Placeless r atAccessor := by
  unfold atAccessor
  grind

@[grind ←]
theorem placeless_atMappedType : Placeless r atMappedType := by
  unfold atMappedType
  grind

/-- Whether an arrow stands behind the group that begins at the next token. -/
theorem arrowBehind_relocated (s : Cursor) :
    (match closeGroup 0 (r.cursor s).rest.tail with
      | some (_, _, rest) => (rest.headD (r.cursor s).finish).isMark "=>"
      | none => false) =
    (match closeGroup 0 s.rest.tail with
      | some (_, _, rest) => (rest.headD s.finish).isMark "=>"
      | none => false) := by
  rw [r.rest_cursor, ← List.map_tail, closeGroup_relocated]
  cases closeGroup 0 s.rest.tail with
  | none => rfl
  | some group =>
      obtain ⟨inside, close, rest⟩ := group
      cases rest <;> rfl

@[grind ←]
theorem placeless_atFunctionType : Placeless r atFunctionType := by
  unfold atFunctionType
  refine parallel_bind_cursor parallel_get fun s ↦ ?_
  have harrow := arrowBehind_relocated (r := r) s
  grind

@[grind ←]
theorem placeless_mappedModifier {eat : Parser Bool} (heat : Placeless r eat) :
    Placeless r (mappedModifier eat) := by
  unfold mappedModifier
  grind

@[grind ←]
theorem placeless_qualifierStep (found : List String) : Placeless r (qualifierStep found) := by
  unfold qualifierStep
  grind

/-! ## Rules over the rule for inner types -/

section

variable {type : Parser TypeExpr} (htype : Placeless r type)

include htype

theorem placeless_ascription : Placeless r (ascription type) := by
  unfold ascription
  grind

theorem placeless_typeParam : Placeless r (typeParam type) := by
  unfold typeParam
  refine parallel_bind_tokens (parallel_takeTokens fun _ _ ↦ rfl) fun _ ↦ ?_
  grind

theorem placeless_typeParams : Placeless r (typeParams type) := by
  have htypeParam := placeless_typeParam htype
  unfold typeParams
  grind

theorem placeless_typeArgs : Placeless r (typeArgs type) := by
  unfold typeArgs
  grind

theorem placeless_param (place : Nat) : Placeless r (param type place) := by
  have hascribed := placeless_ascription htype
  unfold param
  refine parallel_bind_tokens (parallel_takeTokens fun _ _ ↦ rfl) fun ts ↦ ?_
  have hmodifiers : (ts.map r.token).filterMap (fun t ↦ Modifier.ofWord? t.text) =
      ts.filterMap fun t ↦ Modifier.ofWord? t.text := List.filterMap_map
  rw [hmodifiers]
  refine parallel_bind_id (parallel_eatMark _) fun _ ↦ ?_
  refine parallel_bind_id (parallel_atMark _) fun _ ↦
    parallel_bind_id (parallel_atMark _) fun _ ↦ ?_
  grind

theorem placeless_params : Placeless r (params type) := by
  have hparam := placeless_param htype
  unfold params
  grind

theorem placeless_resultType : Placeless r (resultType type) := by
  unfold resultType
  grind

theorem placeless_signature : Placeless r (signature type) := by
  have htypeParams := placeless_typeParams htype
  have hparams := placeless_params htype
  have hresultType := placeless_resultType htype
  unfold signature
  grind

theorem placeless_indexSignature (readonly : Bool) :
    Placeless r (indexSignature type readonly) := by
  have hascribed := placeless_ascription htype
  unfold indexSignature
  grind

theorem placeless_namedMember (readonly : Bool) : Placeless r (namedMember type readonly) := by
  have hsignature := placeless_signature htype
  have hindexSignature := placeless_indexSignature htype
  have hascribed := placeless_ascription htype
  unfold namedMember
  grind

theorem placeless_typeMember : Placeless r (typeMember type) := by
  have hsignature := placeless_signature htype
  have hnamedMember := placeless_namedMember htype
  unfold typeMember
  grind

theorem placeless_separatedMember : Placeless r (separatedMember type) := by
  have htypeMember := placeless_typeMember htype
  unfold separatedMember
  grind

theorem placeless_typeMembers : Placeless r (typeMembers type) := by
  have hseparatedMember := placeless_separatedMember htype
  unfold typeMembers
  grind

theorem placeless_importType (isTypeof : Bool) : Placeless r (importType type isTypeof) := by
  have htypeArgs := placeless_typeArgs htype
  unfold importType
  refine parallel_bind_token parallel_bump fun _ ↦
    parallel_bind_id (parallel_expectMark _) fun _ ↦ ?_
  refine parallel_bind_id parallel_expectString fun _ ↦
    parallel_bind_id (parallel_eatMark _) fun _ ↦ ?_
  split
  · refine parallel_bind_id (parallel_atMark _) fun _ ↦ ?_
    grind
  · grind

theorem placeless_namedType : Placeless r (namedType type) := by
  have himportType := placeless_importType htype
  have htypeArgs := placeless_typeArgs htype
  unfold namedType
  refine parallel_bind_token (parallel_look _) fun t ↦ ?_
  refine parallel_bind_token (parallel_look _) fun next ↦ ?_
  simp only [r.text_token, r.isMark_token]
  refine parallel_ite ?boolean (parallel_ite ?this (parallel_ite ?query ?named))
  case query =>
    refine parallel_bind_token parallel_bump fun _ ↦
      parallel_bind_id (parallel_atWord _) fun _ ↦ ?_
    grind
  all_goals grind

theorem placeless_mappedType : Placeless r (mappedType type) := by
  have hascribed := placeless_ascription htype
  unfold mappedType
  refine parallel_bind_id (parallel_expectMark _) fun _ ↦ ?_
  refine parallel_bind_id (placeless_mappedModifier (parallel_eatWord _)) fun _ ↦ ?_
  refine parallel_bind_id (parallel_expectMark _) fun _ ↦ ?_
  refine parallel_bind_id parallel_expectWordText fun _ ↦ ?_
  refine parallel_bind_id (parallel_expectWord _) fun _ ↦ parallel_bind_id htype fun _ ↦ ?_
  grind

theorem placeless_tupleElement : Placeless r (tupleElement type) := by
  unfold tupleElement
  refine parallel_bind_id (parallel_eatMark _) fun _ ↦ ?_
  refine parallel_bind_token (parallel_look _) fun _ ↦ ?_
  refine parallel_bind_token (parallel_look _) fun _ ↦ ?_
  refine parallel_bind_token (parallel_look _) fun _ ↦ ?_
  refine parallel_bind_token (parallel_look _) fun _ ↦ ?_
  simp only [r.kind_token, r.isMark_token]
  refine parallel_ite ?labelled ?plain <;> grind

theorem placeless_tupleType : Placeless r (tupleType type) := by
  unfold tupleType
  refine parallel_bind_id (parallel_expectMark _) fun _ ↦ ?_
  exact parallel_bind_id (parallel_listUntil _ fun _ ↦ placeless_tupleElement htype) fun _ ↦
    parallel_pure rfl

theorem placeless_primaryType : Placeless r (primaryType type) := by
  have hnamedType := placeless_namedType htype
  have hmappedType := placeless_mappedType htype
  have htypeMembers := placeless_typeMembers htype
  have htupleType := placeless_tupleType htype
  unfold primaryType
  grind

theorem placeless_postfixStep (object : TypeExpr) : Placeless r (postfixStep type object) := by
  unfold postfixStep
  grind

theorem placeless_postfixType : Placeless r (postfixType type) := by
  have hprimaryType := placeless_primaryType htype
  have hpostfixStep := placeless_postfixStep htype
  unfold postfixType
  grind

theorem placeless_functionType : Placeless r (functionType type) := by
  have htypeParams := placeless_typeParams htype
  have hparams := placeless_params htype
  have hresultType := placeless_resultType htype
  unfold functionType
  grind

end

/-! ## Operands and whole types -/

theorem placeless_chain (mark : String) (combine : List TypeExpr → TypeExpr)
    {operand : Parser TypeExpr} (hoperand : Placeless r operand) :
    Placeless r (chain mark combine operand) := by
  unfold chain
  grind

theorem placeless_inferBound {type : Parser TypeExpr} (htype : Placeless r type) :
    Placeless r (inferBound type) := by
  unfold inferBound
  refine parallel_attempt (parallel_bind_cursor parallel_get fun s ↦ ?_)
  rw [r.inBound_cursor]
  grind

theorem placeless_operandRule {type : Bool → Parser TypeExpr} {inner : Parser TypeExpr}
    (htype : ∀ conditional, Placeless r (type conditional)) (hinner : Placeless r inner) :
    Placeless r (operandRule type inner) := by
  have hbound := placeless_inferBound (htype false)
  have hpostfix := placeless_postfixType (htype true)
  unfold operandRule
  refine parallel_bind_token (parallel_look _) fun t ↦ ?_
  refine parallel_bind_token (parallel_look _) fun next ↦ ?_
  simp only [r.kind_token, r.text_token, r.isWord_token, startsType_relocated]
  refine parallel_ite ?operator ?other
  case operator => cases TypeOperator.ofWord? t.text <;> grind
  case other => grind

theorem placeless_typeRule {operand : Parser TypeExpr} {type : Bool → Parser TypeExpr}
    (hoperand : Placeless r operand) (htype : ∀ conditional, Placeless r (type conditional))
    (conditional : Bool) : Placeless r (typeRule operand type conditional) := by
  have hfunction := placeless_functionType (htype true)
  have hcheck := placeless_chain "|" .union (placeless_chain "&" .intersection hoperand)
  unfold typeRule
  refine parallel_nested (parallel_withBound _ ?_)
  unfold typeBody
  refine parallel_bind_id placeless_atFunctionType fun _ ↦ ?_
  split
  · grind
  refine parallel_bind_id hcheck fun _ ↦ ?_
  grind

theorem placeless_within (n : Nat) :
    (∀ conditional, Placeless r ((within n).type conditional)) ∧
    Placeless r (within n).operand := by
  have hdeep : Placeless r tooDeep := parallel_fail _ _
  induction n with
  | zero =>
      simp only [within]
      exact ⟨fun _ ↦ hdeep, placeless_operandRule (fun _ ↦ hdeep) hdeep⟩
  | succ n ih =>
      simp only [within]
      have htype := placeless_typeRule ih.2 ih.1
      exact ⟨htype, placeless_operandRule htype ih.2⟩

end PluginSurface.TypeGrammar
