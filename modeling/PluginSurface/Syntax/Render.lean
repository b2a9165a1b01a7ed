import PluginSurface.Syntax.Type
import PluginSurface.Text.Identifier
import PluginSurface.Text.Quoted

/-!
# Written types as text

One line per type, with canonical spacing. Parentheses stand only around the operand of an array,
an operator or an indexed access, where they are needed.
-/

namespace PluginSurface

open Text

namespace PropertyName

/-- The name as it is written. A quoted name that is a plain name loses its quotes. -/
def render : PropertyName → String
  | .identifier text | .number text | .hash text => text
  | .string value => if isName value then value else quote value
  | .computed text => "[" ++ text ++ "]"

end PropertyName

namespace Literal

def render : Literal → String
  | .string value => quote value
  | .number text | .bigint text => text
  | .boolean value => if value then "true" else "false"

end Literal

namespace TypeExpr

/-- Whether the type is put in parentheses as an array element or an operand. -/
def needsParens : TypeExpr → Bool
  | .union _ | .intersection _ | .function .. | .conditional .. | .infer .. | .operator .. => true
  | _ => false

end TypeExpr

def dotted (segments : List String) : String := ".".intercalate segments

def angled : List String → String
  | [] => ""
  | items => "<" ++ ", ".intercalate items ++ ">"

def parenthesized (wrap : Bool) (text : String) : String :=
  if wrap then "(" ++ text ++ ")" else text

mutual

def TypeExpr.render : TypeExpr → String
  | .keyword word => word.word
  | .this => "this"
  | .literal value => value.render
  | .reference name args => dotted name ++ angled (renderTypes args)
  | .union members => " | ".intercalate (renderTypes members)
  | .intersection members => " & ".intercalate (renderTypes members)
  | .array element => parenthesized element.needsParens element.render ++ "[]"
  | .tuple elements => "[" ++ ", ".intercalate (renderElements elements) ++ "]"
  | .function isConstructor isAbstract signature =>
    (if isAbstract then "abstract " else "") ++ (if isConstructor then "new " else "") ++
      signature.render ++ " => " ++ signature.renderResult
  | .members members =>
    match members with
    | [] => "\x7b\x7d"
    | _ => "\x7b " ++ String.join (renderMembers members) ++ "\x7d"
  | .query name args => "typeof " ++ dotted name ++ angled (renderTypes args)
  | .operator op operand => op.word ++ " " ++ parenthesized operand.needsParens operand.render
  | .indexed object index =>
    parenthesized object.needsParens object.render ++ "[" ++ index.render ++ "]"
  | .conditional check bound yes no =>
    check.render ++ " extends " ++ bound.render ++ " ? " ++ yes.render ++ " : " ++ no.render
  | .infer name bound => "infer " ++ name ++ renderAfter " extends " "" bound
  | .mapped readonly key bound rename optional value =>
    "\x7b " ++
      (match readonly with
        | some .add => "readonly "
        | some .remove => "-readonly "
        | none => "") ++
      "[" ++ key ++ " in " ++ bound.render ++ renderAfter " as " "" rename ++ "]" ++
      (match optional with
        | some .add => "?"
        | some .remove => "-?"
        | none => "") ++
      renderAfter ": " ": any" value ++ "; \x7d"
  | .template raw => raw
  | .imported isTypeof specifier qualifier args =>
    (if isTypeof then "typeof " else "") ++ "import(" ++ quote specifier ++ ")" ++
      (if qualifier.isEmpty then "" else "." ++ dotted qualifier) ++ angled (renderTypes args)
  | .predicate asserts param type =>
    (if asserts then "asserts " else "") ++ param ++ renderAfter " is " "" type

def renderAfter (lead otherwise : String) : Option TypeExpr → String
  | none => otherwise
  | some type => lead ++ type.render

def renderTypes : List TypeExpr → List String
  | [] => []
  | type :: rest => type.render :: renderTypes rest

def TupleElement.render : TupleElement → String
  | ⟨label, optional, rest, type⟩ =>
    let mark := if optional then "?" else ""
    (if rest then "..." else "") ++
      match label with
      | some label => label ++ mark ++ ": " ++ type.render
      | none => type.render ++ mark

def renderElements : List TupleElement → List String
  | [] => []
  | element :: rest => element.render :: renderElements rest

def TypeParam.render : TypeParam → String
  | ⟨name, bound, default⟩ => name ++ renderAfter " extends " "" bound ++
      renderAfter " = " "" default

def renderTypeParams : List TypeParam → List String
  | [] => []
  | param :: rest => param.render :: renderTypeParams rest

def Param.render : Param → String
  | ⟨name, _, optional, rest, type⟩ =>
    (if rest then "..." else "") ++ name ++ (if optional then "?" else "") ++
      renderAfter ": " ": any" type

def renderParams : List Param → List String
  | [] => []
  | param :: rest => param.render :: renderParams rest

def renderParam? : Option Param → String
  | none => ""
  | some param => param.render

def Signature.render : Signature → String
  | ⟨typeParams, params, _⟩ =>
    angled (renderTypeParams typeParams) ++ "(" ++ ", ".intercalate (renderParams params) ++ ")"

def Signature.renderResult : Signature → String
  | ⟨_, _, result⟩ => renderAfter "" "any" result

def TypeMember.render : TypeMember → String
  | .property name optional readonly type =>
    (if readonly then "readonly " else "") ++ name.render ++ (if optional then "?" else "") ++
      renderAfter ": " ": any" type
  | .method name optional signature =>
    name.render ++ (if optional then "?" else "") ++ signature.render ++ ": " ++
      signature.renderResult
  | .call signature => signature.render ++ ": " ++ signature.renderResult
  | .construct signature => "new " ++ signature.render ++ ": " ++ signature.renderResult
  | .index ⟨readonly, keyName, key, value⟩ =>
    (if readonly then "readonly " else "") ++ "[" ++ keyName ++ ": " ++ key.render ++ "]" ++
      renderAfter ": " ": any" value
  | .getter name type => "get " ++ name.render ++ "()" ++ renderAfter ": " "" type
  | .setter name param => "set " ++ name.render ++ "(" ++ renderParam? param ++ ")"

def renderMembers : List TypeMember → List String
  | [] => []
  | member :: rest => (member.render ++ "; ") :: renderMembers rest

end

end PluginSurface
