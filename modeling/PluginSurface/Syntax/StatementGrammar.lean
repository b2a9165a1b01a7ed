import PluginSurface.Syntax.Statement
import PluginSurface.Source.Scan
import PluginSurface.Syntax.TypeGrammar

/-!
# The grammar of declarations

Statements are read as far as they declare something; initializers and other expressions are passed
over as balanced text. The rules are written over the grammar of types and the rule for a block one
level further in; `StatementGrammar.block n` is the rule for a block where at most `n` levels of
blocks and types are left.
-/

namespace PluginSurface

open PluginSurface.Parser TypeGrammar

namespace StatementGrammar

def declaredName : Parser Name := do
  let t ← expectKind .word .identifier
  return ⟨t.text, t.span⟩

def terminator : Parser Unit := discard (eatMark ";")

/-! ## Imports and exports -/

def wholeEntity? : List Token → Option (List String)
  | [] => none
  | t :: rest =>
    if t.kind != .word then none
    else match rest with
      | [] => some [t.text]
      | next :: more =>
        if next.isMark "." then (wholeEntity? more).map (t.text :: ·)
        else if next.isMarkIn [";", "\x7d"] || next.newlineBefore then some [t.text]
        else none

def exportAssignment (isEquals : Bool) : Parser Decl := do
  let s ← get
  let entity := wholeEntity? s.rest
  skipExpression [";"] true
  terminator
  return .exportAssignment isEquals entity

def exportName : Parser String := do
  let t ← look 0
  if t.kind == .word || t.kind == .string then return (← bump).text
  unexpected .exportName

/-- Import attributes, which have no meaning here. -/
def skipAttributes : Parser Unit := do
  let t ← look 0
  if (t.isWord "with" || t.isWord "assert") && (← look 1).isMark "\x7b" then
    let _ ← bump
    skipGroup

/-- The word `type` before a name in braces, unless it is the name. -/
def skipTypeWord : Parser Unit := do
  let next ← look 1
  if (← atWord "type") && !next.isMarkIn [",", "\x7d"] && !next.isWord "as" then
    let _ ← bump

def exportSpecifier : Parser ExportSpecifier := do
  skipTypeWord
  let name ← exportName
  let rename ← afterWord "as" exportName
  return ⟨name, rename.getD name⟩

def exportDeclaration : Parser Decl := do
  let typeOnly ← eatWord "type"
  let clause ←
    if ← eatMark "*" then pure (.all (← afterWord "as" exportName))
    else
      expectMark "\x7b"
      pure (.named (← listUntil "\x7d" fun _ ↦ exportSpecifier))
  let specifier ← afterWord "from" expectString
  skipAttributes
  terminator
  return .exportDecl ⟨typeOnly, clause, specifier⟩

/-- Whether the word `type` behind `import` makes it an import of types. -/
def atTypeOnlyImport : Parser Bool := do
  let next ← look 1
  return (← atWord "type") && (next.kind == .word || next.isMarkIn ["\x7b", "*"]) &&
    !next.isWord "from"

def importTarget : Parser ImportTarget := do
  if (← atWord "require") && (← look 1).isMark "(" then
    let _ ← bump
    let _ ← bump
    let specifier ← expectString
    expectMark ")"
    return .require specifier
  return .entity (← entityName)

def importSpecifier : Parser ImportSpecifier := do
  skipTypeWord
  let imported ← exportName
  let rename ← afterWord "as" expectWordText
  return ⟨imported, rename.getD imported⟩

/-- The names of an import in braces, or the one that stands for the whole module. -/
def importClause : Parser (Option String × List ImportSpecifier) := do
  if ← eatMark "*" then
    expectWord "as"
    return (some (← expectWordText), [])
  if ← eatMark "\x7b" then return (none, ← listUntil "\x7d" fun _ ↦ importSpecifier)
  return (none, [])

def importDeclaration : Parser Decl := do
  let _ ← bump
  let typeOnly ← atTypeOnlyImport
  if typeOnly then
    let _ ← bump
  if (← look 0).kind == .string then
    let specifier := (← bump).text
    skipAttributes
    terminator
    return .importDecl ⟨typeOnly, none, none, [], specifier⟩
  let mut default := none
  if (← look 0).kind == .word && !(← atWord "from") then
    let name := (← bump).text
    if ← eatMark "=" then
      let target ← importTarget
      terminator
      return .importEquals name target
    default := some name
    let _ ← eatMark ","
  else if (← atWord "from") && (← look 1).kind == .word then
    default := some (← bump).text
    let _ ← eatMark ","
  let (allAs, named) ← importClause
  expectWord "from"
  let specifier ← expectString
  skipAttributes
  terminator
  return .importDecl ⟨typeOnly, default, allAs, named, specifier⟩

/-! ## Declarations -/

/-- A member of an enumeration, with its name if that is not computed. -/
def enumMember : Parser (Option String) := do
  let t ← look 0
  let name ←
    if t.kind == .word || t.kind == .string || t.kind == .number then
      pure (some (← bump).text)
    else if t.isMark "[" then
      skipGroup
      pure none
    else unexpected .enumMember
  if ← eatMark "=" then skipExpression [","] false
  return name

/-- The members of an enumeration in braces. -/
def enumBody : Parser (List (Option String)) := do
  expectMark "\x7b"
  listUntil "\x7d" fun _ ↦ enumMember

/-- An enumeration, of whose members those count that have a name. -/
def enumDeclaration : Parser Decl := do
  let _ ← bump
  let name ← declaredName
  let members ← enumBody
  return .enumDecl name (members.filterMap id)

/-- Skips a statement that declares nothing. One token is taken in any case, except a brace that
closes the block around the statement. -/
def skipStatement : Parser Unit := do
  let taken ← passExpression [";"] true
  unless (← eatMark ";") || taken || (← atMark "\x7d") do
    let _ ← bump

/-- Whether the token is a word that can be a modifier of a class member, and is used as one before
`next`. -/
def memberModifier (t next : Token) : Bool :=
  t.kind == .word &&
    ["public", "private", "protected", "static", "readonly", "abstract", "override", "declare",
      "accessor", "async"].contains t.text &&
    (match next.kind with
      | .word | .string | .number | .privateName => true
      | .mark => ["[", "*", "\x7b"].contains next.text
      | _ => false) &&
    !(t.text == "static" && next.isMark "\x7b")

def statementModifier (t next : Token) : Bool :=
  t.kind == .word &&
    ((t.text == "declare" && next.kind == .word) || (t.text == "abstract" && next.isWord "class") ||
      (t.text == "async" && next.isWord "function") || (t.text == "const" && next.isWord "enum"))

def modifiers (words : List Token) : List Modifier :=
  words.filterMap fun t ↦ Modifier.ofWord? t.text

/-- Whether a declaration and not an expression begins behind `export default`. -/
def startsDeclaration (t next : Token) : Bool :=
  t.kind == .word &&
    (["class", "function", "enum"].contains t.text ||
      (["interface", "namespace", "module", "type", "declare"].contains t.text &&
        next.kind == .word) ||
      (t.text == "abstract" && next.isWord "class") ||
      (t.text == "async" && next.isWord "function"))

section

variable (types : TypeGrammar)

def declarator : Parser Declarator := do
  let name ←
    if (← look 0).isMarkIn ["\x7b", "["] then
      skipGroup
      pure none
    else pure (some (← declaredName))
  let _ ← eatMark "!"
  let type ← ascription (types.type true)
  if ← eatMark "=" then skipExpression [",", ";"] true
  return ⟨name, type⟩

def variableStatement : Parser Decl := do
  let word := (← bump).text
  let keyword : VariableKeyword :=
    if word == "var" then .var else if word == "let" then .let else .const
  let declarators ← separated "," (declarator types)
  terminator
  return .variable keyword declarators

def aliasDeclaration : Parser AliasDecl := do
  let _ ← bump
  let name ← declaredName
  let typeParams ← typeParams (types.type true)
  expectMark "="
  let type ← types.type true
  terminator
  return ⟨name, typeParams, type⟩

def heritageType : Parser TypeExpr := do
  let name ← entityName
  return .reference name (← typeArgs (types.type true))

def interfaceDeclaration : Parser InterfaceDecl := do
  let _ ← bump
  let name ← declaredName
  let typeParams ← typeParams (types.type true)
  let bases ← afterWord "extends" (separated "," (heritageType types))
  return ⟨name, typeParams, bases.getD [], ← typeMembers (types.type true)⟩

variable (block : Parser (List Statement))

def optionalBody : Parser (Option (List Statement)) := do
  if ← atMark "\x7b" then return some (← block)
  terminator
  return none

def functionDeclaration : Parser Decl := do
  let _ ← bump
  let _ ← eatMark "*"
  let name ← if (← look 0).kind == .word then pure (some (← declaredName)) else pure none
  let signature ← signature (types.type true)
  return .function name signature (← optionalBody block)

def moduleDeclaration : Parser Decl := do
  let _ ← bump
  let name ←
    if (← look 0).kind == .string then pure (.string (← bump).text)
    else pure (.path (← entityName))
  return .moduleDecl name (← optionalBody block)

def classMemberKind : Parser ClassMemberKind := do
  if (← atWord "constructor") && (← look 1).isMarkIn ["(", "<"] then
    let _ ← bump
    let signature ← signature (types.type true)
    return .constructor signature.params (← optionalBody block)
  if ← atAccessor then
    let isGetter := (← bump).text == "get"
    let name ← propertyName
    let signature ← signature (types.type true)
    let body ← optionalBody block
    return if isGetter then .getter name signature.result body
      else .setter name signature.params.head? body
  if ← atIndexSignature then
    let index ← indexSignature (types.type true) false
    memberSeparator
    return .index index
  let _ ← eatMark "*"
  let name ← propertyName
  let optional ← eatMark "?"
  let _ ← eatMark "!"
  if ← atSignature then
    let signature ← signature (types.type true)
    return .method name optional signature (← optionalBody block)
  let type ← ascription (types.type true)
  if ← eatMark "=" then skipExpression [";"] true
  memberSeparator
  return .property name optional type

def classMember : Parser ClassMember := do
  let start := (← look 0).span.start
  if (← atWord "static") && (← look 1).isMark "\x7b" then
    let _ ← bump
    let body ← block
    return ⟨[.static], .staticBlock body, ⟨start, (← get).passed⟩⟩
  let words ← takeTokens memberModifier
  let kind ← classMemberKind types block
  return ⟨modifiers words, kind, ⟨start, (← get).passed⟩⟩

def heritageStep (found : Option TypeExpr × List TypeExpr) :
    Parser (Round (Option TypeExpr × List TypeExpr) (Option TypeExpr × List TypeExpr)) := do
  let (base, interfaces) := found
  if ← eatWord "extends" then
    let type ← heritageType types
    if ← atMark "(" then
      skipGroup
      return .again (base, interfaces)
    return .again (some type, interfaces)
  if ← eatWord "implements" then
    return .again (base, interfaces ++ (← separated "," (heritageType types)))
  return .done (base, interfaces)

/-- The `extends` and `implements` clauses of a class, in any number and order. The last plain base
counts; a base that is called is none. -/
def heritage : Parser (Option TypeExpr × List TypeExpr) :=
  rounds (heritageStep types) (none, [])

def classDeclaration : Parser ClassDecl := do
  let _ ← bump
  let t ← look 0
  let name ←
    if t.kind == .word && !t.isWord "extends" && !t.isWord "implements" then
      pure (some (← declaredName))
    else pure none
  let typeParams ← typeParams (types.type true)
  let (base, interfaces) ← heritage types
  return ⟨name, typeParams, base, interfaces, ← braced [";"] (classMember types block)⟩

def declaration (modified : Bool) : Parser Decl := do
  let t ← look 0
  let next ← look 1
  if t.isMark "\x7b" then return .block (← block)
  if t.kind == .word then
    let word := t.text
    if word == "class" then return .classDecl (← classDeclaration types block)
    if word == "interface" && next.kind == .word then
      return .interfaceDecl (← interfaceDeclaration types)
    if word == "type" && next.kind == .word && (← look 2).isMarkIn ["=", "<"] then
      return .aliasDecl (← aliasDeclaration types)
    if word == "enum" then return ← enumDeclaration
    if word == "function" then return ← functionDeclaration types block
    if word == "var" || word == "const" ||
        (word == "let" && (next.kind == .word || next.isMarkIn ["\x7b", "["])) then
      return ← variableStatement types
    if (word == "namespace" || word == "module") &&
        (next.kind == .word || next.kind == .string) then
      return ← moduleDeclaration block
    if word == "global" && next.isMark "\x7b" then
      let _ ← bump
      return .moduleDecl .global (some (← block))
    if word == "import" && !next.isMarkIn ["(", "."] then return ← importDeclaration
  if modified then unexpected .declaration
  skipStatement
  return .other

def modifiedDeclaration : Parser (List Modifier × Decl) := do
  let mut exported := []
  if ← atWord "export" then
    let next ← look 1
    let third ← look 2
    if next.isMark "=" then
      let _ ← bump
      let _ ← bump
      return ([], ← exportAssignment true)
    if next.isMarkIn ["*", "\x7b"] || (next.isWord "type" && third.isMarkIn ["\x7b", "*"]) then
      let _ ← bump
      return ([], ← exportDeclaration)
    if next.isWord "as" && third.isWord "namespace" then
      skipExpression [";"] true
      terminator
      return ([], .other)
    let _ ← bump
    exported := [.exported]
    if ← eatWord "default" then
      exported := [.exported, .default]
      unless startsDeclaration (← look 0) (← look 1) do
        return (exported, ← exportAssignment false)
  let words ← takeTokens statementModifier
  let all := exported ++ modifiers words
  return (all, ← declaration types block !all.isEmpty)

/-- A statement. Its number is taken before those of the statements inside it. -/
def statement : Parser Statement := do
  let s ← get
  let start := s.next.span.start
  modify fun s ↦ { s with nextId := s.nextId + 1 }
  let (modifiers, decl) ← modifiedDeclaration types block
  return ⟨s.nextId, modifiers, decl, ⟨start, max (← get).passed start⟩⟩

def statementsStep (inBraces : Bool) (found : List Statement) :
    Parser (Round (List Statement) (List Statement)) := do
  if (← get).atEnd then
    if inBraces then unexpected (.mark "\x7d")
    return .done found.reverse
  if ← atMark "\x7d" then
    unless inBraces do fail .strayBrace
    let _ ← bump
    return .done found.reverse
  if ← eatMark ";" then return .again found
  return .again ((← statement types block) :: found)

/-- Statements up to the closing brace, or up to the end of the text for the outermost ones. -/
def statements (inBraces : Bool) : Parser (List Statement) :=
  rounds (statementsStep types block inBraces) []

end

/-- A block in braces, over the rules for what stands inside it. -/
def blockRule (types : TypeGrammar) (block : Parser (List Statement)) :
    Parser (List Statement) := do
  expectMark "\x7b"
  nested (statements types block true)

/-- A block in braces where at most `n` further levels may be opened. -/
def block : Nat → Parser (List Statement)
  | 0 => do
    expectMark "\x7b"
    fail .tooDeep
  | n + 1 => blockRule (within n) (block n)

end StatementGrammar

/-! ## Source texts -/

namespace Reference

open Text

def dropWord? (word : String) (cs : List Char) : Option (List Char) :=
  if word.toList.isPrefixOf cs then some (cs.drop word.length) else none

/-- The directive in the body of a `///` comment: a quoted path or package behind
`<reference path=` or `<reference types=`. Anything may follow the closing quote. -/
def ofDirective? (directive : String) : Option Reference := do
  let cs ← dropWord? "<reference" directive.toList
  guard (cs.head?.any isBlank)
  let cs := cs.dropWhile isBlank
  let (make, cs) ←
    ((dropWord? "path" cs).map fun cs ↦ (Reference.path, cs)) <|>
      ((dropWord? "types" cs).map fun cs ↦ (Reference.types, cs))
  let cs ← dropWord? "=" (cs.dropWhile isBlank)
  let isQuote (c : Char) : Bool := c == '"' || c == '\''
  let cs := cs.dropWhile isBlank
  guard (cs.head?.any isQuote)
  let value := cs.tail.takeWhile (!isQuote ·)
  guard (!value.isEmpty && value.length < cs.tail.length)
  return make (String.ofList value)

end Reference

namespace SourceFile

/-- The tree of a source text, or the first error in it, which lies inside the text. -/
def ofSource (source : String) : Except SyntaxError SourceFile := do
  let lexed ← (Lexed.ofSource source).mapError (·.clamp source.utf8ByteSize)
  let outermost :=
    StatementGrammar.statements (TypeGrammar.within Parser.maxNesting)
      (StatementGrammar.block Parser.maxNesting) false
  let (statements, _) ← (outermost (.start lexed)).mapError (·.clamp source.utf8ByteSize)
  return ⟨statements, lexed.directives.filterMap Reference.ofDirective?⟩

end SourceFile

end PluginSurface
