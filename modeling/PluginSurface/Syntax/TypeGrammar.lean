import PluginSurface.Syntax.Cursor
import PluginSurface.Syntax.Type

/-!
# The grammar of types

Types nest, so each rule is written over the rules for the types one level further in. A
`TypeGrammar` is the pair of rules that others lead back to. The cursor counts the levels that are
open, and no more than `Parser.maxNesting` may be; so the recursion ends, and `TypeGrammar.within n`
are the rules where at most `n` levels are left.
-/

namespace PluginSurface

open PluginSurface.Parser

/-- The rules for a type and for the operand of a type operator. The first takes whether a
conditional type may stand there. -/
structure TypeGrammar where
  type : Bool → Parser TypeExpr
  operand : Parser TypeExpr

namespace TypeGrammar

def entityStep (found : List String) : Parser (Round (List String) (List String)) := do
  if (← look 0).isMark "." && (← look 1).kind == .word then
    let _ ← bump
    return .again ((← bump).text :: found)
  return .done found.reverse

def entityName : Parser (List String) := do
  let first ← expectWordText
  rounds entityStep [first]

/-- The tokens inside a computed name as one text, with a blank between two words. -/
def computedText (tokens : List Token) : String :=
  (tokens.foldl (fun (text, afterWord) t ↦
    let isWord := t.kind != .mark
    ((if isWord && afterWord then text ++ " " else text) ++ t.text, isWord)) ("", false)).1

def propertyName : Parser PropertyName := do
  let t ← look 0
  match t.kind with
  | .word => return .identifier (← bump).text
  | .string => return .string (← bump).text
  | .number => return .number (← bump).text
  | .privateName => return .hash (← bump).text
  | _ =>
    if t.isMark "[" then return .computed (computedText (← takeGroup))
    unexpected .propertyName

/-- Whether the token can begin the name behind `get`, `set` or `readonly`. -/
def startsPropertyName (t : Token) : Bool :=
  match t.kind with
  | .word | .string | .number | .privateName => true
  | .mark => t.text == "["
  | _ => false

def startsType (t : Token) : Bool :=
  match t.kind with
  | .word | .string | .number | .template => true
  | .mark => ["(", "[", "\x7b", "<", "-", "|", "&"].contains t.text
  | _ => false

def memberSeparator : Parser Unit := do
  unless ← eatMark ";" do
    let _ ← eatMark ","

section

variable (type : Parser TypeExpr)

def ascription : Parser (Option TypeExpr) := afterMark ":" type

def variance (t next : Token) : Bool :=
  (t.isWord "const" || t.isWord "in" || t.isWord "out") && next.kind == .word

def typeParam : Parser TypeParam := do
  let _ ← takeTokens variance
  let name ← expectWordText
  let bound ← afterWord "extends" type
  let default ← afterMark "=" type
  return ⟨name, bound, default⟩

def typeParams : Parser (List TypeParam) := do
  unless ← eatMark "<" do return []
  listUntil ">" fun _ ↦ typeParam type

def typeArgs : Parser (List TypeExpr) := do
  unless ← eatMark "<" do return []
  listUntil ">" fun _ ↦ type

def paramModifier (t next : Token) : Bool :=
  t.kind == .word && ["public", "private", "protected", "readonly", "override"].contains t.text &&
    (next.kind == .word || next.isMark "\x7b" || next.isMark "[")

/-- A parameter, which is told how many stand before it. A destructured one is named
for its place. -/
def param (place : Nat) : Parser Param := do
  let modifiers ← takeTokens paramModifier
  let rest ← eatMark "..."
  let name ←
    if (← atMark "\x7b") || (← atMark "[") then
      skipGroup
      pure ("__" ++ toString place)
    else expectWordText
  let optional ← eatMark "?"
  let type ← ascription type
  if ← eatMark "=" then skipExpression [","] false
  return ⟨name, modifiers.filterMap fun t ↦ Modifier.ofWord? t.text, optional, rest, type⟩

def params : Parser (List Param) := do
  expectMark "("
  listUntil ")" (param type)

def resultType : Parser TypeExpr := do
  let t ← look 0
  let next ← look 1
  if t.isWord "asserts" && next.kind == .word && !next.newlineBefore && !next.isWord "is" then
    let _ ← bump
    let param := (← bump).text
    return .predicate true param (← afterWord "is" type)
  if t.kind == .word && next.isWord "is" && !next.newlineBefore then
    let param := (← bump).text
    let _ ← bump
    return .predicate false param (some (← type))
  type

/-- Type parameters, parameters and, behind a colon, the type of the result. -/
def signature : Parser Signature := do
  let typeParams ← typeParams type
  let params ← params type
  return ⟨typeParams, params, ← afterMark ":" (resultType type)⟩

/-- Whether an index signature and not a computed name begins at a bracket. -/
def atIndexSignature : Parser Bool :=
  return (← look 0).isMark "[" && (← look 1).kind == .word && (← look 2).isMark ":"

def indexSignature (readonly : Bool) : Parser IndexSignature := do
  expectMark "["
  let keyName ← expectWordText
  expectMark ":"
  let key ← type
  expectMark "]"
  return ⟨readonly, keyName, key, ← ascription type⟩

def atSignature : Parser Bool := return (← look 0).isMarkIn ["(", "<"]

def atAccessor : Parser Bool :=
  return ((← look 0).isWord "get" || (← look 0).isWord "set") && startsPropertyName (← look 1)

/-- An accessor, an index signature, a method or a property. -/
def namedMember (readonly : Bool) : Parser TypeMember := do
  if ← atAccessor then
    let isGetter := (← bump).text == "get"
    let name ← propertyName
    let signature ← signature type
    return if isGetter then .getter name signature.result else .setter name signature.params.head?
  if ← atIndexSignature then return .index (← indexSignature type readonly)
  let name ← propertyName
  let optional ← eatMark "?"
  if ← atSignature then return .method name optional (← signature type)
  return .property name optional readonly (← ascription type)

def typeMember : Parser TypeMember := do
  if ← atSignature then return .call (← signature type)
  if (← atWord "new") && (← look 1).isMarkIn ["(", "<"] then
    let _ ← bump
    return .construct (← signature type)
  let readonly := (← atWord "readonly") && startsPropertyName (← look 1)
  if readonly then
    let _ ← bump
  namedMember type readonly

/-- A member with what separates it from the next one. -/
def separatedMember : Parser TypeMember := do
  let member ← typeMember type
  memberSeparator
  return member

def typeMembers : Parser (List TypeMember) := braced [";", ","] (separatedMember type)

def qualifierStep (found : List String) : Parser (Round (List String) (List String)) := do
  if ← eatMark "." then return .again ((← expectWordText) :: found)
  return .done found.reverse

def importType (isTypeof : Bool) : Parser TypeExpr := do
  let _ ← bump
  expectMark "("
  let specifier ← expectString
  if ← eatMark "," then
    if ← atMark "\x7b" then skipGroup
  expectMark ")"
  let qualifier ← rounds qualifierStep []
  return .imported isTypeof specifier qualifier (← typeArgs type)

def namedType : Parser TypeExpr := do
  let word := (← look 0).text
  let next ← look 1
  if word == "true" || word == "false" then
    let _ ← bump
    return .literal (.boolean (word == "true"))
  if word == "this" && !next.isMark "." then
    let _ ← bump
    return .this
  if word == "typeof" then
    let _ ← bump
    if (← atWord "import") && (← look 1).isMark "(" then return ← importType type true
    let name ← entityName
    if (← look 0).newlineBefore then return .query name []
    return .query name (← typeArgs type)
  if word == "import" && next.isMark "(" then return ← importType type false
  if !next.isMark "." then
    if let some keyword := Keyword.ofWord? word then
      let _ ← bump
      return .keyword keyword
  let name ← entityName
  return .reference name (← typeArgs type)

def mappedModifier (eat : Parser Bool) : Parser (Option MappedModifier) := do
  if (← look 0).isMarkIn ["+", "-"] then
    let sign ← bump
    let _ ← eat
    return some (if sign.text == "-" then .remove else .add)
  return if ← eat then some .add else none

def atMappedType : Parser Bool := do
  let s ← get
  let i := if (s.token 1).isMarkIn ["+", "-"] then 2 else 1
  let i := if (s.token i).isWord "readonly" then i + 1 else i
  return (s.token i).isMark "[" && (s.token (i + 1)).kind == .word &&
    (s.token (i + 2)).isWord "in"

def mappedType : Parser TypeExpr := do
  expectMark "\x7b"
  let readonly ← mappedModifier (eatWord "readonly")
  expectMark "["
  let key ← expectWordText
  expectWord "in"
  let bound ← type
  let rename ← afterWord "as" type
  expectMark "]"
  let optional ← mappedModifier (eatMark "?")
  let value ← ascription type
  memberSeparator
  expectMark "\x7d"
  return .mapped readonly key bound rename optional value

def tupleElement : Parser TupleElement := do
  let rest ← eatMark "..."
  let labelled := (← look 0).kind == .word &&
    ((← look 1).isMark ":" || ((← look 1).isMark "?" && (← look 2).isMark ":"))
  let (label, optional) ←
    if labelled then
      let label := (← bump).text
      let optional ← eatMark "?"
      expectMark ":"
      pure (some label, optional)
    else pure (none, false)
  let type ← type
  let late ← eatMark "?"
  return ⟨label, optional || late, rest, type⟩

def tupleType : Parser TypeExpr := do
  expectMark "["
  return .tuple (← listUntil "]" fun _ ↦ tupleElement type)

def primaryType : Parser TypeExpr := do
  let t ← look 0
  match t.kind with
  | .string => return .literal (.string (← bump).text)
  | .number => return .literal (.ofNumber (← bump).text)
  | .template => return .template (← bump).text
  | .word => namedType type
  | .mark =>
    if t.text == "(" then
      let _ ← bump
      let inner ← type
      expectMark ")"
      return inner
    if t.text == "\x7b" then
      if ← atMappedType then return ← mappedType type
      return .members (← typeMembers type)
    if t.text == "[" then return ← tupleType type
    if t.text == "-" && (← look 1).kind == .number then
      let _ ← bump
      return .literal (.ofNumber ("-" ++ (← bump).text))
    unexpected .type
  | _ => unexpected .type

def postfixStep (object : TypeExpr) : Parser (Round TypeExpr TypeExpr) := do
  let t ← look 0
  if t.isMark "[" && !t.newlineBefore then
    let _ ← bump
    if ← eatMark "]" then return .again (.array object)
    let index ← type
    expectMark "]"
    return .again (.indexed object index)
  return .done object

/-- A primary type and the brackets behind it, as long as they begin on the same line. -/
def postfixType : Parser TypeExpr := do
  let first ← primaryType type
  rounds (postfixStep type) first

/-- Whether a function type begins at the next token. A parenthesis begins one if an arrow follows
its partner. -/
def atFunctionType : Parser Bool := do
  let s ← get
  let t := s.next
  let next := s.token 1
  if t.isMark "<" || (t.isWord "new" && next.isMarkIn ["(", "<"]) ||
      (t.isWord "abstract" && next.isWord "new") then
    return true
  if t.isMark "(" then
    return match closeGroup 0 s.rest.tail with
      | some (_, _, rest) => (rest.headD s.finish).isMark "=>"
      | none => false
  return false

def functionType : Parser TypeExpr := do
  let isAbstract ← eatWord "abstract"
  let isConstructor ← eatWord "new"
  let typeParams ← typeParams type
  let params ← params type
  expectMark "=>"
  let result ← resultType type
  return .function isConstructor isAbstract ⟨typeParams, params, some result⟩

end

/-- Operands between marks `mark`, which may also stand before the first one. A single operand
stands for itself. -/
def chain (mark : String) (combine : List TypeExpr → TypeExpr) (operand : Parser TypeExpr) :
    Parser TypeExpr := do
  let _ ← eatMark mark
  match ← separated mark operand with
  | [single] => return single
  | several => return combine several

/-- The bound of an `infer`. Outside the bound of a conditional type, what follows `extends` is none
if a question mark follows. -/
def inferBound (type : Parser TypeExpr) : Parser (Option TypeExpr) := attempt do
  let inBound := (← get).inBound
  unless ← eatWord "extends" do return none
  let bound ← type
  if !inBound && (← atMark "?") then return none
  return some bound

/-- A type operator with its operand, an `infer`, or a postfix type. The rule `inner` is the one
for operands a level further in. -/
def operandRule (type : Bool → Parser TypeExpr) (inner : Parser TypeExpr) : Parser TypeExpr := do
  let t ← look 0
  if t.kind == .word && startsType (← look 1) then
    if let some op := TypeOperator.ofWord? t.text then
      let _ ← bump
      return .operator op (← nested inner)
  if t.isWord "infer" && (← look 1).kind == .word then
    let _ ← bump
    let name ← expectWordText
    return .infer name (← inferBound (type false))
  postfixType (type true)

/-- A type on its level, over the rules for its operands and for the types inside it. -/
def typeBody (operand : Parser TypeExpr) (type : Bool → Parser TypeExpr) (conditional : Bool) :
    Parser TypeExpr := do
  if ← atFunctionType then return ← functionType (type true)
  let check ← chain "|" .union (chain "&" .intersection operand)
  if conditional then
    if ← eatWord "extends" then
      let bound ← type false
      expectMark "?"
      let yes ← type true
      expectMark ":"
      let no ← type true
      return .conditional check bound yes no
  return check

def typeRule (operand : Parser TypeExpr) (type : Bool → Parser TypeExpr) (conditional : Bool) :
    Parser TypeExpr :=
  nested (withBound (!conditional) (typeBody operand type conditional))

/-- The rule behind the last level. -/
def tooDeep : Parser TypeExpr := fail .tooDeep

/-- The grammar of types where at most `n` further levels may be opened. -/
def within : Nat → TypeGrammar
  | 0 => ⟨fun _ ↦ tooDeep, operandRule (fun _ ↦ tooDeep) tooDeep⟩
  | n + 1 =>
    let inner := within n
    let type := typeRule inner.operand inner.type
    ⟨type, operandRule type inner.operand⟩

end TypeGrammar

end PluginSurface
