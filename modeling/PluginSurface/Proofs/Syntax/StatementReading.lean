import PluginSurface.Proofs.Syntax.TypeReading
import PluginSurface.Syntax.StatementGrammar

/-!
# Declarations without bodies only read

Imports, exports, variables, aliases, interfaces, enumerations, skipped statements and the heads of
classes hold no statements. Their rules only read, if those for types do.

A whole text is what the rule for statements reads of its tokens: `SourceFile.ofSource_eq_ok`.
-/

namespace PluginSurface.StatementGrammar

open PluginSurface.Parser TypeGrammar

@[grind ←]
theorem onlyReads_declaredName : OnlyReads declaredName := by
  unfold declaredName
  grind

@[grind ←]
theorem onlyReads_terminator : OnlyReads terminator := by
  unfold terminator
  grind

@[grind ←]
theorem onlyReads_exportAssignment (isEquals : Bool) : OnlyReads (exportAssignment isEquals) := by
  unfold exportAssignment
  grind

@[grind ←]
theorem onlyReads_exportName : OnlyReads exportName := by
  unfold exportName
  grind

@[grind ←]
theorem onlyReads_skipAttributes : OnlyReads skipAttributes := by
  unfold skipAttributes
  grind

@[grind ←]
theorem onlyReads_skipTypeWord : OnlyReads skipTypeWord := by
  unfold skipTypeWord
  grind

@[grind ←]
theorem onlyReads_exportSpecifier : OnlyReads exportSpecifier := by
  unfold exportSpecifier
  grind

@[grind ←]
theorem onlyReads_exportDeclaration : OnlyReads exportDeclaration := by
  unfold exportDeclaration
  have hnamed := onlyReads_listUntil "\x7d" fun _ ↦ onlyReads_exportSpecifier
  refine onlyReads_bind (onlyReads_eatWord _) fun _ ↦
    onlyReads_bind (onlyReads_eatMark _) fun _ ↦ ?_
  grind

@[grind ←]
theorem onlyReads_atTypeOnlyImport : OnlyReads atTypeOnlyImport := by
  unfold atTypeOnlyImport
  grind

@[grind ←]
theorem onlyReads_importTarget : OnlyReads importTarget := by
  unfold importTarget
  grind

@[grind ←]
theorem onlyReads_importSpecifier : OnlyReads importSpecifier := by
  unfold importSpecifier
  grind

@[grind ←]
theorem onlyReads_importClause : OnlyReads importClause := by
  unfold importClause
  have hnamed := onlyReads_listUntil "\x7d" fun _ ↦ onlyReads_importSpecifier
  grind

@[grind ←]
theorem onlyReads_importDeclaration : OnlyReads importDeclaration := by
  unfold importDeclaration
  refine onlyReads_bind onlyReads_bump fun _ ↦
    onlyReads_bind onlyReads_atTypeOnlyImport fun _ ↦ ?_
  extract_lets unnamed clauses rest
  have hclauses (default : Option String) : OnlyReads (clauses () default) := by
    refine onlyReads_bind onlyReads_importClause fun _ ↦ ?_
    grind
  have hrest : OnlyReads (rest ()) := by
    refine onlyReads_bind (onlyReads_look _) fun _ ↦ ?_
    split
    · grind
    refine onlyReads_bind (onlyReads_look _) fun _ ↦
      onlyReads_bind (onlyReads_atWord _) fun _ ↦ ?_
    split
    · refine onlyReads_bind onlyReads_bump fun _ ↦
        onlyReads_bind (onlyReads_eatMark _) fun _ ↦ ?_
      grind
    · refine onlyReads_bind (onlyReads_atWord _) fun _ ↦
        onlyReads_bind (onlyReads_look _) fun _ ↦ ?_
      grind
  grind

@[grind ←]
theorem onlyReads_enumMember : OnlyReads enumMember := by
  unfold enumMember
  grind

@[grind ←]
theorem onlyReads_enumBody : OnlyReads enumBody := by
  unfold enumBody
  have hmembers := onlyReads_listUntil "\x7d" fun _ ↦ onlyReads_enumMember
  grind

@[grind ←]
theorem onlyReads_enumDeclaration : OnlyReads enumDeclaration := by
  unfold enumDeclaration
  grind

@[grind ←]
theorem onlyReads_skipStatement : OnlyReads skipStatement := by
  unfold skipStatement
  grind

/-! ## Declarations with types -/

section

variable {types : TypeGrammar} (htype : ∀ conditional, OnlyReads (types.type conditional))

include htype

@[grind ←]
theorem onlyReads_declarator : OnlyReads (declarator types) := by
  unfold declarator
  grind

@[grind ←]
theorem onlyReads_variableStatement : OnlyReads (variableStatement types) := by
  unfold variableStatement
  grind

@[grind ←]
theorem onlyReads_aliasDeclaration : OnlyReads (aliasDeclaration types) := by
  unfold aliasDeclaration
  grind

@[grind ←]
theorem onlyReads_heritageType : OnlyReads (heritageType types) := by
  unfold heritageType
  grind

@[grind ←]
theorem onlyReads_interfaceDeclaration : OnlyReads (interfaceDeclaration types) := by
  unfold interfaceDeclaration
  refine onlyReads_bind onlyReads_bump fun _ ↦ onlyReads_bind onlyReads_declaredName fun _ ↦ ?_
  refine onlyReads_bind (onlyReads_typeParams (htype true)) fun _ ↦ ?_
  grind

@[grind ←]
theorem onlyReads_heritage : OnlyReads (heritage types) := by
  unfold heritage
  refine onlyReads_rounds (fun found ↦ ?_) (none, [])
  unfold heritageStep
  grind

end

end PluginSurface.StatementGrammar

/-! ## Source texts -/

namespace PluginSurface.SourceFile

open PluginSurface.Parser TypeGrammar

/-- A text is read as its tokens are read, with the directives that were found between them. -/
theorem ofSource_eq_ok {source : String} {f : SourceFile} :
    ofSource source = .ok f ↔ ∃ l, Lexed.ofSource source = .ok l ∧
      f.references = l.directives.filterMap Reference.ofDirective? ∧
      ∃ u, StatementGrammar.statements (within maxNesting) (StatementGrammar.block maxNesting)
        false (.start l) = .ok (f.statements, u) := by
  constructor
  · intro h
    obtain ⟨l, hl, h⟩ := except_bind_eq_ok.mp h
    obtain ⟨⟨body, u⟩, hbody, h⟩ := except_bind_eq_ok.mp h
    cases h
    exact ⟨l, mapError_eq_ok.mp hl, rfl, u, mapError_eq_ok.mp hbody⟩
  · rintro ⟨l, hl, hreferences, u, hbody⟩
    refine except_bind_eq_ok.mpr ⟨l, mapError_eq_ok.mpr hl, except_bind_eq_ok.mpr
      ⟨(f.statements, u), mapError_eq_ok.mpr hbody, ?_⟩⟩
    rw [← hreferences]
    rfl

end PluginSurface.SourceFile
