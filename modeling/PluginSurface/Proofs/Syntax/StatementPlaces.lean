import Mathlib.Data.Bool.Basic
import PluginSurface.Proofs.Syntax.StatementReading
import PluginSurface.Proofs.Syntax.TypePlaces

/-!
# The grammar of declarations does not look at places

Names, statements and class members keep where they stand, and statements their numbers. But for
these, a text is read as the same tree wherever its tokens stand and however many statements stand
before it.
-/

namespace PluginSurface

/-! ## Trees without places -/

def Declarator.bare (d : Declarator) : Declarator := { d with name := d.name.map Name.bare }

mutual

/-- The statement without the places of its parts. -/
def Statement.unplaced : Statement → Statement
  | ⟨id, modifiers, decl, _⟩ => ⟨id, modifiers, decl.unplaced, ⟨0, 0⟩⟩

def Decl.unplaced : Decl → Decl
  | .classDecl c => .classDecl c.unplaced
  | .interfaceDecl d => .interfaceDecl d.bare
  | .aliasDecl d => .aliasDecl d.bare
  | .variable keyword ds => .variable keyword (ds.map Declarator.bare)
  | .function name signature body => .function (name.map Name.bare) signature (unplacedBody body)
  | .enumDecl name members => .enumDecl name.bare members
  | .moduleDecl name body => .moduleDecl name (unplacedBody body)
  | .importDecl d => .importDecl d
  | .importEquals name target => .importEquals name target
  | .exportDecl d => .exportDecl d
  | .exportAssignment isEquals entity => .exportAssignment isEquals entity
  | .block body => .block (unplacedAll body)
  | .other => .other

def ClassDecl.unplaced : ClassDecl → ClassDecl
  | ⟨name, typeParams, base, interfaces, members⟩ =>
    ⟨name.map Name.bare, typeParams, base, interfaces, unplacedMembers members⟩

def unplacedMembers : List ClassMember → List ClassMember
  | [] => []
  | m :: rest => m.unplaced :: unplacedMembers rest

def ClassMember.unplaced : ClassMember → ClassMember
  | ⟨modifiers, kind, _⟩ => ⟨modifiers, kind.unplaced, ⟨0, 0⟩⟩

def ClassMemberKind.unplaced : ClassMemberKind → ClassMemberKind
  | .constructor params body => .constructor params (unplacedBody body)
  | .property name optional type => .property name optional type
  | .method name optional signature body => .method name optional signature (unplacedBody body)
  | .getter name type body => .getter name type (unplacedBody body)
  | .setter name param body => .setter name param (unplacedBody body)
  | .index index => .index index
  | .staticBlock body => .staticBlock (unplacedAll body)

def unplacedBody : Option (List Statement) → Option (List Statement)
  | none => none
  | some body => some (unplacedAll body)

def unplacedAll : List Statement → List Statement
  | [] => []
  | s :: rest => s.unplaced :: unplacedAll rest

end

theorem unplacedAll_eq_map (body : List Statement) :
    unplacedAll body = body.map Statement.unplaced := by
  induction body with
  | nil => simp [unplacedAll]
  | cons s rest ih => simp [unplacedAll, ih]

/-! ## Trees in other places -/

namespace Relocation

variable (r : Relocation)

def declarator (d : Declarator) : Declarator := { d with name := d.name.map r.name }

mutual

/-- The statement in the new places, with its new number. -/
def statement (r : Relocation) : Statement → Statement
  | ⟨id, modifiers, decl, span⟩ => ⟨r.number id, modifiers, r.decl decl, r.span span⟩

def decl (r : Relocation) : Decl → Decl
  | .classDecl c => .classDecl (r.classDecl c)
  | .interfaceDecl d => .interfaceDecl (r.interfaceDecl d)
  | .aliasDecl d => .aliasDecl (r.aliasDecl d)
  | .variable keyword ds => .variable keyword (ds.map r.declarator)
  | .function name signature body => .function (name.map r.name) signature (r.body body)
  | .enumDecl name members => .enumDecl (r.name name) members
  | .moduleDecl name body => .moduleDecl name (r.body body)
  | .importDecl d => .importDecl d
  | .importEquals name target => .importEquals name target
  | .exportDecl d => .exportDecl d
  | .exportAssignment isEquals entity => .exportAssignment isEquals entity
  | .block body => .block (r.statements body)
  | .other => .other

def classDecl (r : Relocation) : ClassDecl → ClassDecl
  | ⟨name, typeParams, base, interfaces, members⟩ =>
    ⟨name.map r.name, typeParams, base, interfaces, r.members members⟩

def members (r : Relocation) : List ClassMember → List ClassMember
  | [] => []
  | m :: rest => r.member m :: r.members rest

def member (r : Relocation) : ClassMember → ClassMember
  | ⟨modifiers, kind, span⟩ => ⟨modifiers, r.memberKind kind, r.span span⟩

def memberKind (r : Relocation) : ClassMemberKind → ClassMemberKind
  | .constructor params body => .constructor params (r.body body)
  | .property name optional type => .property name optional type
  | .method name optional signature body => .method name optional signature (r.body body)
  | .getter name type body => .getter name type (r.body body)
  | .setter name param body => .setter name param (r.body body)
  | .index index => .index index
  | .staticBlock body => .staticBlock (r.statements body)

def body (r : Relocation) : Option (List Statement) → Option (List Statement)
  | none => none
  | some body => some (r.statements body)

def statements (r : Relocation) : List Statement → List Statement
  | [] => []
  | s :: rest => r.statement s :: r.statements rest

end

theorem statements_eq_map (body : List Statement) : r.statements body = body.map r.statement := by
  induction body with
  | nil => simp [statements]
  | cons s rest ih => simp [statements, ih]

theorem members_eq_map (ms : List ClassMember) : r.members ms = ms.map r.member := by
  induction ms with
  | nil => simp [members]
  | cons m rest ih => simp [members, ih]

/-- What a round over statements ends with in the new places, where `before` was found in front of
them, last one first. -/
abbrev round (before : List Statement) :
    Round (List Statement) (List Statement) → Round (List Statement) (List Statement) :=
  Round.map (fun found ↦ r.statements found ++ before) (fun all ↦ before.reverse ++
    r.statements all)

/-- Giving a number away is the same in the new places. -/
theorem cursor_begin (s : Cursor) :
    ({ r.cursor s with nextId := (r.cursor s).nextId + 1 } : Cursor) =
    r.cursor { s with nextId := s.nextId + 1 } := by
  rw [r.nextId_cursor, ← r.number_succ]
  rfl

mutual

theorem statement_bare : (s : Statement) → bare.statement s = s.unplaced
  | ⟨id, modifiers, decl, span⟩ => by
    rw [statement, Statement.unplaced, decl_bare decl]
    rfl

theorem decl_bare : (d : Decl) → bare.decl d = d.unplaced
  | .classDecl c => by rw [decl, Decl.unplaced, classDecl_bare c]
  | .function name signature body => by
    rw [decl, Decl.unplaced, body_bare body]
    rfl
  | .moduleDecl name body => by rw [decl, Decl.unplaced, body_bare body]
  | .block body => by rw [decl, Decl.unplaced, statements_bare body]
  | .interfaceDecl d => by rw [decl, Decl.unplaced]; rfl
  | .aliasDecl d => by rw [decl, Decl.unplaced]; rfl
  | .variable keyword ds => by rw [decl, Decl.unplaced]; rfl
  | .enumDecl name members => by rw [decl, Decl.unplaced]; rfl
  | .importDecl d => by rw [decl, Decl.unplaced]
  | .importEquals name target => by rw [decl, Decl.unplaced]
  | .exportDecl d => by rw [decl, Decl.unplaced]
  | .exportAssignment isEquals entity => by rw [decl, Decl.unplaced]
  | .other => by rw [decl, Decl.unplaced]

theorem classDecl_bare : (c : ClassDecl) → bare.classDecl c = c.unplaced
  | ⟨name, typeParams, base, interfaces, members⟩ => by
    rw [classDecl, ClassDecl.unplaced, members_bare members]
    rfl

theorem members_bare : (ms : List ClassMember) → bare.members ms = unplacedMembers ms
  | [] => by rw [members, unplacedMembers]
  | m :: rest => by rw [members, unplacedMembers, member_bare m, members_bare rest]

theorem member_bare : (m : ClassMember) → bare.member m = m.unplaced
  | ⟨modifiers, kind, span⟩ => by
    rw [member, ClassMember.unplaced, memberKind_bare kind]
    rfl

theorem memberKind_bare : (k : ClassMemberKind) → bare.memberKind k = k.unplaced
  | .constructor params body => by rw [memberKind, ClassMemberKind.unplaced, body_bare body]
  | .property name optional type => by rw [memberKind, ClassMemberKind.unplaced]
  | .method name optional signature body => by
    rw [memberKind, ClassMemberKind.unplaced, body_bare body]
  | .getter name type body => by rw [memberKind, ClassMemberKind.unplaced, body_bare body]
  | .setter name param body => by rw [memberKind, ClassMemberKind.unplaced, body_bare body]
  | .index index => by rw [memberKind, ClassMemberKind.unplaced]
  | .staticBlock body => by rw [memberKind, ClassMemberKind.unplaced, statements_bare body]

theorem body_bare : (body : Option (List Statement)) → bare.body body = unplacedBody body
  | none => by rw [body, unplacedBody]
  | some body => by rw [Relocation.body, unplacedBody, statements_bare body]

theorem statements_bare : (body : List Statement) → bare.statements body = unplacedAll body
  | [] => by rw [statements, unplacedAll]
  | s :: rest => by rw [statements, unplacedAll, statement_bare s, statements_bare rest]

end

end Relocation

namespace StatementGrammar

open PluginSurface.Parser TypeGrammar

variable {r : Relocation}

/-! ## Rules without inner statements -/

theorem parallel_declaredName : Parallel r r.name declaredName declaredName :=
  parallel_bind (parallel_expectKind _ _) fun _ ↦ parallel_pure rfl

/-- A name, if there is one. -/
theorem parallel_someName {β β' : Type} {g : β → β'} {q : Option Name → Parser β}
    {q' : Option Name → Parser β'}
    (hq : ∀ name, Parallel r g (q name) (q' (name.map r.name))) :
    Parallel r g (declaredName >>= fun name ↦ pure (some name) >>= q)
      (declaredName >>= fun name ↦ pure (some name) >>= q') :=
  parallel_bind parallel_declaredName fun name ↦ hq (some name)

@[grind ←]
theorem placeless_terminator : Placeless r terminator := parallel_discard (parallel_eatMark _)

@[grind =]
theorem wholeEntity?_relocated (ts : List Token) :
    wholeEntity? (ts.map r.token) = wholeEntity? ts := by
  induction ts using wholeEntity?.induct with
  | case1 => rfl
  | case2 t rest hkind => cases rest <;> simp [wholeEntity?, hkind]
  | case3 t hkind => simp [wholeEntity?]
  | case4 t hkind next more hdot ih => simp [wholeEntity?, hdot, ih]
  | case5 t hkind next more hdot | case6 t hkind next more hdot => simp [wholeEntity?, hdot]

@[grind ←]
theorem parallel_exportAssignment (isEquals : Bool) :
    Parallel r r.decl (exportAssignment isEquals) (exportAssignment isEquals) := by
  unfold exportAssignment
  grind [Relocation.decl]

@[grind ←]
theorem placeless_exportName : Placeless r exportName := by
  unfold exportName
  grind

@[grind ←]
theorem placeless_skipAttributes : Placeless r skipAttributes := by
  unfold skipAttributes
  grind

@[grind ←]
theorem placeless_skipTypeWord : Placeless r skipTypeWord := by
  unfold skipTypeWord
  grind

@[grind ←]
theorem placeless_exportSpecifier : Placeless r exportSpecifier := by
  unfold exportSpecifier
  grind

@[grind ←]
theorem parallel_exportDeclaration : Parallel r r.decl exportDeclaration exportDeclaration := by
  unfold exportDeclaration
  have hnamed := parallel_listUntil (r := r) "\x7d" fun _ ↦ placeless_exportSpecifier
  refine parallel_bind_id (parallel_eatWord _) fun _ ↦
    parallel_bind_id (parallel_eatMark _) fun _ ↦ ?_
  grind [Relocation.decl]

@[grind ←]
theorem placeless_atTypeOnlyImport : Placeless r atTypeOnlyImport := by
  unfold atTypeOnlyImport
  grind

@[grind ←]
theorem placeless_importTarget : Placeless r importTarget := by
  unfold importTarget
  grind

@[grind ←]
theorem placeless_importSpecifier : Placeless r importSpecifier := by
  unfold importSpecifier
  grind

@[grind ←]
theorem placeless_importClause : Placeless r importClause := by
  unfold importClause
  have hnamed := parallel_listUntil (r := r) "\x7d" fun _ ↦ placeless_importSpecifier
  grind

@[grind ←]
theorem parallel_importDeclaration : Parallel r r.decl importDeclaration importDeclaration := by
  unfold importDeclaration
  refine parallel_bind_token parallel_bump fun _ ↦ ?_
  refine parallel_bind_id placeless_atTypeOnlyImport fun _ ↦ ?_
  extract_lets unnamed clauses rest
  have hclauses (default : Option String) :
      Parallel r r.decl (clauses () default) (clauses () default) := by
    refine parallel_bind_id placeless_importClause fun _ ↦ ?_
    grind [Relocation.decl]
  have hrest : Parallel r r.decl (rest ()) (rest ()) := by
    refine parallel_bind_token (parallel_look _) fun _ ↦ parallel_ite ?_ ?_
    · grind [Relocation.decl]
    refine parallel_bind_token (parallel_look _) fun _ ↦ ?_
    refine parallel_bind_id (parallel_atWord _) fun _ ↦ parallel_ite ?_ ?_
    · refine parallel_bind_token parallel_bump fun _ ↦
        parallel_bind_id (parallel_eatMark _) fun _ ↦ ?_
      refine parallel_ite ?_ (parallel_bind_id (parallel_eatMark _) fun _ ↦ hclauses _)
      grind [Relocation.decl]
    · refine parallel_bind_id (parallel_atWord _) fun _ ↦ ?_
      refine parallel_bind_token (parallel_look _) fun _ ↦ parallel_ite ?_ (hclauses _)
      refine parallel_bind_token parallel_bump fun _ ↦ ?_
      exact parallel_bind_id (parallel_eatMark _) fun _ ↦ hclauses _
  exact parallel_ite (parallel_bind_token parallel_bump fun _ ↦ hrest) hrest

@[grind ←]
theorem placeless_enumMember : Placeless r enumMember := by
  unfold enumMember
  grind

theorem placeless_enumBody : Placeless r enumBody :=
  parallel_bind_id (parallel_expectMark _) fun _ ↦
    parallel_listUntil _ fun _ ↦ placeless_enumMember

theorem parallel_enumDeclaration : Parallel r r.decl enumDeclaration enumDeclaration := by
  unfold enumDeclaration
  refine parallel_bind_token parallel_bump fun _ ↦
    parallel_bind parallel_declaredName fun _ ↦ ?_
  exact parallel_bind_id placeless_enumBody fun _ ↦ parallel_pure rfl

@[grind ←]
theorem placeless_skipStatement : Placeless r skipStatement := by
  unfold skipStatement
  grind

theorem modifiers_relocated (ts : List Token) : modifiers (ts.map r.token) = modifiers ts :=
  List.filterMap_map

/-! ## Declarations with types -/

section

variable {types : TypeGrammar} (htype : ∀ conditional, Placeless r (types.type conditional))

include htype

theorem parallel_declarator :
    Parallel r r.declarator (declarator types) (declarator types) := by
  unfold declarator
  refine parallel_bind_token (parallel_look _) fun _ ↦ ?_
  extract_lets rest
  have hrest (name : Option Name) :
      Parallel r r.declarator (rest name) (rest (name.map r.name)) := by
    refine parallel_bind_id (parallel_eatMark _) fun _ ↦ ?_
    refine parallel_bind_id ( placeless_ascription (htype true)) fun _ ↦ ?_
    grind [Relocation.declarator]
  refine parallel_ite ?_ (parallel_someName hrest)
  exact parallel_bind_id parallel_skipGroup fun _ ↦ hrest none

theorem parallel_variableStatement :
    Parallel r r.decl (variableStatement types) (variableStatement types) := by
  unfold variableStatement
  refine parallel_bind_token parallel_bump fun _ ↦ ?_
  refine parallel_bind (parallel_separated _ (parallel_declarator htype)) fun _ ↦ ?_
  grind [Relocation.decl]

theorem parallel_aliasDeclaration :
    Parallel r r.aliasDecl (aliasDeclaration types) (aliasDeclaration types) := by
  have htypeParams := placeless_typeParams (htype true)
  unfold aliasDeclaration
  refine parallel_bind_token parallel_bump fun _ ↦
    parallel_bind parallel_declaredName fun _ ↦ ?_
  grind [Relocation.aliasDecl]

@[grind ←]
theorem placeless_heritageType : Placeless r (heritageType types) := by
  have htypeArgs := placeless_typeArgs (htype true)
  unfold heritageType
  grind

theorem parallel_interfaceDeclaration :
    Parallel r r.interfaceDecl (interfaceDeclaration types) (interfaceDeclaration types) := by
  unfold interfaceDeclaration
  refine parallel_bind_token parallel_bump fun _ ↦
    parallel_bind parallel_declaredName fun _ ↦ ?_
  refine parallel_bind_id (placeless_typeParams (htype true)) fun _ ↦ ?_
  refine parallel_bind_id (by grind) fun _ ↦ ?_
  exact parallel_bind_id (placeless_typeMembers (htype true)) fun _ ↦ parallel_pure rfl

@[grind ←]
theorem placeless_heritage : Placeless r (heritage types) := by
  unfold heritage
  refine parallel_rounds_id (fun found ↦ ?_) (none, [])
  unfold heritageStep
  grind

end

/-! ## Declarations with bodies -/

section

variable {types : TypeGrammar} (htype : ∀ conditional, Placeless r (types.type conditional))
variable {block block' : Parser (List Statement)} (hblock : Parallel r r.statements block block')

include hblock

theorem parallel_optionalBody :
    Parallel r r.body (optionalBody block) (optionalBody block') := by
  unfold optionalBody
  refine parallel_bind_id (parallel_atMark _) fun _ ↦ parallel_ite ?_ ?_
  · exact parallel_bind hblock fun _ ↦ parallel_pure rfl
  · exact parallel_bind_id placeless_terminator fun _ ↦ parallel_pure rfl

theorem parallel_moduleDeclaration :
    Parallel r r.decl (moduleDeclaration block) (moduleDeclaration block') := by
  unfold moduleDeclaration
  refine parallel_bind_token parallel_bump fun _ ↦
    parallel_bind_token (parallel_look _) fun _ ↦ ?_
  extract_lets rest rest'
  have hrest (name : ModuleName) : Parallel r r.decl (rest name) (rest' name) :=
    parallel_bind (parallel_optionalBody hblock) fun _ ↦ parallel_pure rfl
  refine parallel_ite (parallel_bind_token parallel_bump fun _ ↦ hrest _) ?_
  exact parallel_bind_id placeless_entityName fun _ ↦ hrest _

include htype

theorem parallel_functionDeclaration :
    Parallel r r.decl (functionDeclaration types block) (functionDeclaration types block') := by
  unfold functionDeclaration
  refine parallel_bind_token parallel_bump fun _ ↦
    parallel_bind_id (parallel_eatMark _) fun _ ↦ ?_
  refine parallel_bind_token (parallel_look _) fun _ ↦ ?_
  extract_lets rest rest'
  have hrest (name : Option Name) :
      Parallel r r.decl (rest name) (rest' (name.map r.name)) := by
    refine parallel_bind_id (placeless_signature (htype true)) fun _ ↦ ?_
    exact parallel_bind (parallel_optionalBody hblock) fun _ ↦ parallel_pure rfl
  exact parallel_ite (parallel_someName hrest) (hrest none)

theorem parallel_classMemberKind :
    Parallel r r.memberKind (classMemberKind types block) (classMemberKind types block') := by
  have hsignature := placeless_signature (htype true)
  have hbody := parallel_optionalBody hblock
  unfold classMemberKind
  refine parallel_bind_id (parallel_atWord _) fun _ ↦
    parallel_bind_token (parallel_look _) fun _ ↦ ?_
  refine parallel_ite ?constructor ?_
  case constructor =>
    refine parallel_bind_token parallel_bump fun _ ↦ parallel_bind_id hsignature fun _ ↦ ?_
    exact parallel_bind hbody fun _ ↦ parallel_pure rfl
  refine parallel_bind_id placeless_atAccessor fun _ ↦ parallel_ite ?accessor ?_
  case accessor =>
    refine parallel_bind_token parallel_bump fun _ ↦ ?_
    refine parallel_bind_id placeless_propertyName fun _ ↦
      parallel_bind_id hsignature fun _ ↦ ?_
    refine parallel_bind hbody fun _ ↦ parallel_pure ?_
    rw [r.text_token]
    split <;> rfl
  refine parallel_bind_id placeless_atIndexSignature fun _ ↦ parallel_ite ?index ?_
  case index =>
    refine parallel_bind_id (placeless_indexSignature (htype true) _) fun _ ↦ ?_
    exact parallel_bind_id placeless_memberSeparator fun _ ↦ parallel_pure rfl
  refine parallel_bind_id (parallel_eatMark _) fun _ ↦ ?_
  refine parallel_bind_id placeless_propertyName fun _ ↦ ?_
  refine parallel_bind_id (parallel_eatMark _) fun _ ↦
    parallel_bind_id (parallel_eatMark _) fun _ ↦ ?_
  refine parallel_bind_id placeless_atSignature fun _ ↦ parallel_ite ?method ?property
  case method =>
    exact parallel_bind_id hsignature fun _ ↦ parallel_bind hbody fun _ ↦ parallel_pure rfl
  refine parallel_bind_id ( placeless_ascription (htype true)) fun _ ↦ ?_
  grind [Relocation.memberKind]

theorem parallel_classMember :
    Parallel r r.member (classMember types block) (classMember types block') := by
  unfold classMember
  refine parallel_bind_token (parallel_look _) fun _ ↦
    parallel_bind_id (parallel_atWord _) fun _ ↦ ?_
  refine parallel_bind_token (parallel_look _) fun _ ↦ parallel_ite ?_ ?_
  · refine parallel_bind_token parallel_bump fun _ ↦ parallel_bind hblock fun _ ↦ ?_
    refine parallel_bind_cursor parallel_get fun s ↦ parallel_pure ?_
    rw [r.passed_cursor]
    rfl
  · refine parallel_bind_tokens (parallel_takeTokens fun _ _ ↦ rfl) fun _ ↦ ?_
    refine parallel_bind (parallel_classMemberKind htype hblock) fun _ ↦ ?_
    refine parallel_bind_cursor parallel_get fun s ↦ parallel_pure ?_
    rw [r.passed_cursor, modifiers_relocated]
    rfl

theorem parallel_classDeclaration :
    Parallel r r.classDecl (classDeclaration types block) (classDeclaration types block') := by
  unfold classDeclaration
  refine parallel_bind_token parallel_bump fun _ ↦
    parallel_bind_token (parallel_look _) fun _ ↦ ?_
  extract_lets rest rest'
  have hrest (name : Option Name) :
      Parallel r r.classDecl (rest name) (rest' (name.map r.name)) := by
    refine parallel_bind_id (placeless_typeParams (htype true)) fun _ ↦ ?_
    refine parallel_bind_id (placeless_heritage htype) fun _ ↦ ?_
    have hmembers := parallel_braced [";"] (parallel_classMember htype hblock)
    refine parallel_bind hmembers fun _ ↦ parallel_pure ?_
    rw [Relocation.classDecl, r.members_eq_map]
  exact parallel_ite (parallel_someName hrest) (hrest none)

theorem parallel_declaration (modified : Bool) :
    Parallel r r.decl (declaration types block modified) (declaration types block' modified) := by
  unfold declaration
  refine parallel_bind_token (parallel_look _) fun t ↦ ?_
  refine parallel_bind_token (parallel_look _) fun next ↦ ?_
  extract_lets skipped refused word word'
  have hskipped : Parallel r r.decl (skipped ()) (skipped ()) :=
    parallel_bind_id placeless_skipStatement fun _ ↦ parallel_pure rfl
  have hrefused : Parallel r r.decl (refused ()) (refused ()) :=
    parallel_ite (parallel_bind_id (parallel_unexpected _ _) fun _ ↦ hskipped) hskipped
  refine parallel_ite (parallel_bind hblock fun _ ↦ parallel_pure rfl) ?_
  refine parallel_ite ?_ hrefused
  refine parallel_ite ?_ ?_
  · exact parallel_bind (parallel_classDeclaration htype hblock) fun _ ↦ parallel_pure rfl
  refine parallel_ite ?_ ?_
  · exact parallel_bind (parallel_interfaceDeclaration htype) fun _ ↦ parallel_pure rfl
  refine parallel_bind_token (parallel_look _) fun _ ↦ parallel_ite ?_ ?_
  · exact parallel_bind (parallel_aliasDeclaration htype) fun _ ↦ parallel_pure rfl
  refine parallel_ite parallel_enumDeclaration ?_
  refine parallel_ite (parallel_functionDeclaration htype hblock) ?_
  refine parallel_ite (parallel_variableStatement htype) ?_
  refine parallel_ite (parallel_moduleDeclaration hblock) ?_
  refine parallel_ite ?_ (parallel_ite parallel_importDeclaration hrefused)
  refine parallel_bind_token parallel_bump fun _ ↦ ?_
  exact parallel_bind hblock fun _ ↦ parallel_pure rfl

theorem parallel_modifiedDeclaration :
    Parallel r (Prod.map id r.decl) (modifiedDeclaration types block)
      (modifiedDeclaration types block') := by
  unfold modifiedDeclaration
  extract_lets unmodified rest exported default rest'
  have hrest (exported : List Modifier) :
      Parallel r (Prod.map id r.decl) (rest () exported) (rest' () exported) := by
    refine parallel_bind_tokens
      (parallel_takeTokens (p := statementModifier) fun _ _ ↦ rfl) fun words ↦ ?_
    rw [modifiers_relocated]
    exact parallel_bind (parallel_declaration htype hblock _) fun _ ↦ parallel_pure rfl
  have hassignment (isEquals : Bool) (modifiers : List Modifier) :
      Parallel r (Prod.map id r.decl) (do return (modifiers, ← exportAssignment isEquals))
        (do return (modifiers, ← exportAssignment isEquals)) :=
    parallel_bind (parallel_exportAssignment _) fun _ ↦ parallel_pure rfl
  refine parallel_bind_id (parallel_atWord _) fun _ ↦ parallel_ite ?_ (hrest _)
  refine parallel_bind_token (parallel_look _) fun next ↦ ?_
  refine parallel_bind_token (parallel_look _) fun third ↦ ?_
  refine parallel_ite ?_ ?_
  · refine parallel_bind_token parallel_bump fun _ ↦
      parallel_bind_token parallel_bump fun _ ↦ ?_
    exact hassignment _ _
  refine parallel_ite ?_ ?_
  · refine parallel_bind_token parallel_bump fun _ ↦ ?_
    exact parallel_bind parallel_exportDeclaration fun _ ↦ parallel_pure rfl
  refine parallel_ite ?_ ?_
  · refine parallel_bind_id (parallel_skipExpression _ _) fun _ ↦ ?_
    exact parallel_bind_id placeless_terminator fun _ ↦ parallel_pure rfl
  refine parallel_bind_token parallel_bump fun _ ↦ ?_
  refine parallel_bind_id (parallel_eatWord _) fun _ ↦ parallel_ite ?_ (hrest _)
  refine parallel_bind_token (parallel_look _) fun _ ↦
    parallel_bind_token (parallel_look _) fun _ ↦ ?_
  exact parallel_ite (hrest _) (hassignment _ _)

theorem parallel_statement :
    Parallel r r.statement (statement types block) (statement types block') := by
  unfold statement
  refine parallel_bind_cursor parallel_get fun s ↦ ?_
  refine parallel_bind_id (parallel_modify r.cursor_begin) fun _ ↦ ?_
  refine parallel_bind (parallel_modifiedDeclaration htype hblock) fun (modifiers, decl) ↦ ?_
  refine parallel_bind_cursor parallel_get fun t ↦ parallel_pure ?_
  rw [r.passed_cursor, r.next_cursor, Relocation.statement, Relocation.span, r.offset_max]
  rfl

/-- A round over statements, where the second parser has found `before` already. -/
theorem parallel_statementsStep (inBraces : Bool) (before found : List Statement) :
    Parallel r (r.round before) (statementsStep types block inBraces found)
      (statementsStep types block' inBraces (r.statements found ++ before)) := by
  unfold statementsStep
  refine parallel_bind_cursor parallel_get fun s ↦ ?_
  extract_lets ended closed ended' closed'
  have hended : Parallel r (r.round before) (ended ()) (ended' ()) := by
    refine parallel_pure ?_
    rw [Relocation.round, Round.map, List.reverse_append, r.statements_eq_map, r.statements_eq_map,
      List.map_reverse]
  have hclosed : Parallel r (r.round before) (closed ()) (closed' ()) :=
    parallel_bind_token parallel_bump fun _ ↦ hended
  rw [r.atEnd_cursor]
  refine parallel_ite ?_ (parallel_bind_id (parallel_atMark _) fun _ ↦ parallel_ite ?_ ?_)
  · exact parallel_ite (parallel_bind_id (parallel_unexpected _ _) fun _ ↦ hended) hended
  · exact parallel_ite hclosed (parallel_bind_id (parallel_fail _ _) fun _ ↦ hclosed)
  refine parallel_bind_id (parallel_eatMark _) fun _ ↦ parallel_ite (parallel_pure rfl) ?_
  refine parallel_bind (parallel_statement htype hblock) fun _ ↦ parallel_pure ?_
  rw [Relocation.round, Round.map, Relocation.statements, List.cons_append]

theorem parallel_statements (inBraces : Bool) :
    Parallel r r.statements (statements types block inBraces)
      (statements types block' inBraces) := by
  have hrounds := parallel_rounds (parallel_statementsStep htype hblock inBraces []) []
  rw [Relocation.statements] at hrounds
  exact hrounds

end

theorem parallel_block (n : Nat) : Parallel r r.statements (block n) (block n) := by
  induction n with
  | zero => exact parallel_bind_id (parallel_expectMark _) fun _ ↦ parallel_fail _ _
  | succ n ih =>
      exact parallel_bind_id (parallel_expectMark _) fun _ ↦
        parallel_nested (parallel_statements (placeless_within n).1 ih true)

end StatementGrammar

/-! ## Source texts -/

namespace Lexed

/-- The tokens without their places. -/
def bare (l : Lexed) : List Token := l.tokens.map Token.bare

end Lexed

namespace SourceFile

open PluginSurface.Parser StatementGrammar TypeGrammar

/-- The tree of a source text without the places of its parts. -/
def unplaced (f : SourceFile) : SourceFile :=
  { f with statements := f.statements.map Statement.unplaced }

/-- Whether a text is refused, and what for, but not where; or its tree, without places. -/
def outcome : Except SyntaxError SourceFile → Except Fault SourceFile
  | .ok f => .ok f.unplaced
  | .error e => .error e.fault

/-- Whether a statement makes a text a module does not depend on its place. -/
theorem marksModule_relocated (r : Relocation) (s : Statement) :
    (r.statement s).marksModule = s.marksModule := by
  obtain ⟨id, modifiers, decl, span⟩ := s
  cases decl <;> simp [Relocation.statement, Relocation.decl, Statement.marksModule, Statement.has]

theorem marksModule_unplaced (s : Statement) : s.unplaced.marksModule = s.marksModule := by
  rw [← Relocation.statement_bare, marksModule_relocated]

/-- The places of the parts do not make a text a module. -/
theorem isModule_unplaced (f : SourceFile) : f.unplaced.isModule = f.isModule := by
  unfold isModule
  rw [unplaced, List.any_map]
  exact congrArg (f.statements.any ·) (funext marksModule_unplaced)

/-- Whether a text is a module is seen from its tree without places. -/
theorem isModule_eq_of_outcome_eq {r r' : Except SyntaxError SourceFile}
    (h : outcome r' = outcome r) : r'.toOption.map isModule = r.toOption.map isModule := by
  cases r with
  | error e =>
      cases r' with
      | error e' => rfl
      | ok f' => cases h
  | ok f =>
      cases r' with
      | error e' => cases h
      | ok f' =>
          have hunplaced : f'.unplaced = f.unplaced := Except.ok.inj h
          change some f'.isModule = some f.isModule
          rw [← isModule_unplaced, hunplaced, isModule_unplaced]

/-- What a text comes to is seen from what its tokens are read as, without places. -/
theorem outcome_read (r : Except SyntaxError (List Statement × Cursor)) (size : Nat)
    (references : List Reference) :
    outcome (do
      let (statements, _) ← r.mapError (·.clamp size)
      return ⟨statements, references⟩) =
    match relocated .bare Relocation.bare.statements r with
    | .ok (body, _) => .ok ⟨body, references⟩
    | .error e => .error e.fault := by
  cases r with
  | error e => rfl
  | ok r =>
      change Except.ok (unplaced ⟨r.1, references⟩) =
        Except.ok ⟨Relocation.bare.statements r.1, references⟩
      rw [unplaced, Relocation.statements_bare, unplacedAll_eq_map]

/-- Two texts of the same tokens and directives, wherever these stand, are both refused for the
same reason or are read as the same tree. -/
theorem outcome_eq_of_bare_eq {source source' : String} {l l' : Lexed}
    (hl : Lexed.ofSource source = .ok l) (hl' : Lexed.ofSource source' = .ok l')
    (htokens : l'.bare = l.bare) (hdirectives : l'.directives = l.directives) :
    outcome (ofSource source') = outcome (ofSource source) := by
  have houtermost := parallel_statements (r := .bare) (placeless_within maxNesting).1
    (parallel_block maxNesting) false
  have hstart : Relocation.bare.cursor (.start l') = Relocation.bare.cursor (.start l) :=
    congrArg (fun rest ↦ (⟨none, rest, (Token.finish 0).bare, 0, 0, false⟩ : Cursor)) htokens
  have hresult := houtermost (.start l')
  rw [hstart, houtermost (.start l)] at hresult
  rw [ofSource, ofSource, hl, hl']
  refine (outcome_read _ _ _).trans (Eq.trans ?_ (outcome_read _ _ _).symm)
  rw [← hresult, hdirectives]

end SourceFile

end PluginSurface
