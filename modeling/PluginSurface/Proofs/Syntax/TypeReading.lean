import PluginSurface.Proofs.Syntax.Reading
import PluginSurface.Syntax.TypeGrammar

/-!
# The grammar of types only reads

Each rule only reads if the rules for the types inside it do. So types hold no statements and give
no number away, whatever their nesting.
-/

namespace PluginSurface.TypeGrammar

open PluginSurface.Parser

@[grind ←]
theorem onlyReads_entityName : OnlyReads entityName := by
  unfold entityName
  refine onlyReads_bind onlyReads_expectWordText fun first ↦
    onlyReads_rounds (fun found ↦ ?_) [first]
  unfold entityStep
  grind

@[grind ←]
theorem onlyReads_propertyName : OnlyReads propertyName := by
  unfold propertyName
  grind

@[grind ←]
theorem onlyReads_memberSeparator : OnlyReads memberSeparator := by
  unfold memberSeparator
  grind

@[grind ←]
theorem onlyReads_atIndexSignature : OnlyReads atIndexSignature := by
  unfold atIndexSignature
  grind

@[grind ←]
theorem onlyReads_atSignature : OnlyReads atSignature := by
  unfold atSignature
  grind

@[grind ←]
theorem onlyReads_atAccessor : OnlyReads atAccessor := by
  unfold atAccessor
  grind

@[grind ←]
theorem onlyReads_atMappedType : OnlyReads atMappedType := by
  unfold atMappedType
  grind

@[grind ←]
theorem onlyReads_atFunctionType : OnlyReads atFunctionType := by
  unfold atFunctionType
  grind

@[grind ←]
theorem onlyReads_mappedModifier {eat : Parser Bool} (heat : OnlyReads eat) :
    OnlyReads (mappedModifier eat) := by
  unfold mappedModifier
  grind

@[grind ←]
theorem onlyReads_qualifierStep (found : List String) : OnlyReads (qualifierStep found) := by
  unfold qualifierStep
  grind

/-! ## Rules over the rule for inner types -/

section

variable {type : Parser TypeExpr} (htype : OnlyReads type)

include htype

@[grind ←]
theorem onlyReads_ascription : OnlyReads <| ascription type := by
  unfold ascription
  grind

@[grind ←]
theorem onlyReads_typeParam : OnlyReads (typeParam type) := by
  unfold typeParam
  grind

@[grind ←]
theorem onlyReads_typeParams : OnlyReads (typeParams type) := by
  unfold typeParams
  grind

@[grind ←]
theorem onlyReads_typeArgs : OnlyReads (typeArgs type) := by
  unfold typeArgs
  grind

@[grind ←]
theorem onlyReads_param (place : Nat) : OnlyReads (param type place) := by
  unfold param
  refine onlyReads_bind (onlyReads_takeTokens _) fun _ ↦ ?_
  refine onlyReads_bind (onlyReads_eatMark _) fun _ ↦ ?_
  refine onlyReads_bind (onlyReads_atMark _) fun _ ↦
    onlyReads_bind (onlyReads_atMark _) fun _ ↦ ?_
  grind

@[grind ←]
theorem onlyReads_params : OnlyReads (params type) := by
  unfold params
  exact onlyReads_bind (onlyReads_expectMark _) fun _ ↦
    onlyReads_listUntil _ (onlyReads_param htype)

@[grind ←]
theorem onlyReads_resultType : OnlyReads (resultType type) := by
  unfold resultType
  grind

@[grind ←]
theorem onlyReads_signature : OnlyReads (signature type) := by
  unfold signature
  grind

@[grind ←]
theorem onlyReads_indexSignature (readonly : Bool) : OnlyReads (indexSignature type readonly) := by
  unfold indexSignature
  grind

@[grind ←]
theorem onlyReads_namedMember (readonly : Bool) : OnlyReads (namedMember type readonly) := by
  unfold namedMember
  grind

@[grind ←]
theorem onlyReads_typeMember : OnlyReads (typeMember type) := by
  unfold typeMember
  refine onlyReads_bind onlyReads_atSignature fun _ ↦ ?_
  split
  · grind
  refine onlyReads_bind (onlyReads_atWord _) fun _ ↦
    onlyReads_bind (onlyReads_look _) fun _ ↦ ?_
  split
  · grind
  refine onlyReads_bind (onlyReads_atWord _) fun _ ↦
    onlyReads_bind (onlyReads_look _) fun _ ↦ ?_
  grind

@[grind ←]
theorem onlyReads_separatedMember : OnlyReads (separatedMember type) := by
  unfold separatedMember
  grind

@[grind ←]
theorem onlyReads_typeMembers : OnlyReads (typeMembers type) := by
  unfold typeMembers
  grind

@[grind ←]
theorem onlyReads_importType (isTypeof : Bool) : OnlyReads (importType type isTypeof) := by
  unfold importType
  refine onlyReads_bind onlyReads_bump fun _ ↦
    onlyReads_bind (onlyReads_expectMark _) fun _ ↦ ?_
  refine onlyReads_bind onlyReads_expectString fun _ ↦
    onlyReads_bind (onlyReads_eatMark _) fun _ ↦ ?_
  split
  · refine onlyReads_bind (onlyReads_atMark _) fun _ ↦ ?_
    grind
  · grind

@[grind ←]
theorem onlyReads_namedType : OnlyReads (namedType type) := by
  unfold namedType
  refine onlyReads_bind (onlyReads_look _) fun _ ↦ onlyReads_bind (onlyReads_look _) fun _ ↦ ?_
  split
  · grind
  split
  · grind
  split
  · refine onlyReads_bind onlyReads_bump fun _ ↦ onlyReads_bind (onlyReads_atWord _) fun _ ↦ ?_
    grind
  split <;> grind

@[grind ←]
theorem onlyReads_mappedType : OnlyReads (mappedType type) := by
  unfold mappedType
  refine onlyReads_bind (onlyReads_expectMark _) fun _ ↦ ?_
  refine onlyReads_bind (onlyReads_mappedModifier (onlyReads_eatWord _)) fun _ ↦ ?_
  refine onlyReads_bind (onlyReads_expectMark _) fun _ ↦ ?_
  refine onlyReads_bind onlyReads_expectWordText fun _ ↦ ?_
  refine onlyReads_bind (onlyReads_expectWord _) fun _ ↦ onlyReads_bind htype fun _ ↦ ?_
  grind

@[grind ←]
theorem onlyReads_tupleElement : OnlyReads (tupleElement type) := by
  unfold tupleElement
  refine onlyReads_bind (onlyReads_eatMark _) fun _ ↦
    onlyReads_bind (onlyReads_look _) fun _ ↦ ?_
  refine onlyReads_bind (onlyReads_look _) fun _ ↦ onlyReads_bind (onlyReads_look _) fun _ ↦ ?_
  grind

@[grind ←]
theorem onlyReads_tupleType : OnlyReads (tupleType type) := by
  unfold tupleType
  refine onlyReads_bind (onlyReads_expectMark _) fun _ ↦ ?_
  exact onlyReads_bind (onlyReads_listUntil _ fun _ ↦ onlyReads_tupleElement htype) fun _ ↦
    onlyReads_pure _

@[grind ←]
theorem onlyReads_primaryType : OnlyReads (primaryType type) := by
  unfold primaryType
  grind

@[grind ←]
theorem onlyReads_postfixType : OnlyReads (postfixType type) := by
  unfold postfixType
  refine onlyReads_bind (onlyReads_primaryType htype) fun first ↦
    onlyReads_rounds (fun object ↦ ?_) first
  unfold postfixStep
  grind

@[grind ←]
theorem onlyReads_functionType : OnlyReads (functionType type) := by
  unfold functionType
  grind

end

/-! ## Operands and whole types -/

@[grind ←]
theorem onlyReads_chain (mark : String) (combine : List TypeExpr → TypeExpr)
    {operand : Parser TypeExpr} (hoperand : OnlyReads operand) :
    OnlyReads (chain mark combine operand) := by
  unfold chain
  grind

@[grind ←]
theorem onlyReads_inferBound {type : Parser TypeExpr} (htype : OnlyReads type) :
    OnlyReads (inferBound type) := by
  unfold inferBound
  refine onlyReads_attempt (onlyReads_bind onlyReads_get fun _ ↦ ?_)
  grind

@[grind ←]
theorem onlyReads_operandRule {type : Bool → Parser TypeExpr} {inner : Parser TypeExpr}
    (htype : ∀ conditional, OnlyReads (type conditional)) (hinner : OnlyReads inner) :
    OnlyReads (operandRule type inner) := by
  unfold operandRule
  refine onlyReads_bind (onlyReads_look _) fun _ ↦ onlyReads_bind (onlyReads_look _) fun _ ↦ ?_
  extract_lets rest
  have hrest : OnlyReads (rest ()) := by
    refine onlyReads_bind (onlyReads_look _) fun _ ↦ ?_
    grind
  grind

@[grind ←]
theorem onlyReads_typeRule {operand : Parser TypeExpr} {type : Bool → Parser TypeExpr}
    (hoperand : OnlyReads operand) (htype : ∀ conditional, OnlyReads (type conditional))
    (conditional : Bool) : OnlyReads (typeRule operand type conditional) := by
  unfold typeRule
  refine onlyReads_nested (onlyReads_withBound _ ?_)
  unfold typeBody
  refine onlyReads_bind onlyReads_atFunctionType fun _ ↦ ?_
  split
  · grind
  refine onlyReads_bind (by grind) fun _ ↦ ?_
  grind

theorem onlyReads_within (n : Nat) :
    (∀ conditional, OnlyReads ((within n).type conditional)) ∧
    OnlyReads (within n).operand := by
  have hdeep : OnlyReads tooDeep := onlyReads_fail _
  induction n with
  | zero =>
      simp only [within]
      exact ⟨fun _ ↦ hdeep, onlyReads_operandRule (fun _ ↦ hdeep) hdeep⟩
  | succ n ih =>
      simp only [within]
      have htype := onlyReads_typeRule ih.2 ih.1
      exact ⟨htype, onlyReads_operandRule htype ih.2⟩

end PluginSurface.TypeGrammar
