import PluginSurface.Syntax.Render
import PluginSurface.Ty.Basic

/-!
# Resolved types as text

One line per type, in the manner of the compiler's own messages, so that equal types declared in
different packages read alike.
-/

namespace PluginSurface

open Text

/-- The name of a property as text. Names that are no plain names are quoted, except computed ones
and those that begin with a digit. -/
def renderPropertyName (name : String) : String :=
  match name.toList with
  | c :: _ => if isName name || c.isDigit || c == '[' then name else quote name
  | [] => quote name

mutual

def Ty.render : Ty → String
  | .primitive p => p.word
  | .literal value => value.render
  | .union members => " | ".intercalate (renderUnion members)
  | .intersection members => " & ".intercalate (renderOperands members)
  | .array element readonly =>
    (if readonly then "readonly " else "") ++
      parenthesized element.needsParens element.render ++ "[]"
  | .tuple elements readonly =>
    (if readonly then "readonly " else "") ++ "[" ++ ", ".intercalate (renderItems elements) ++ "]"
  | .function f => f.render
  | .object o => o.render
  | .reference _ name args | .aliased name args _ | .named name args =>
    name ++ angled (renderTys args)
  | .param name => name
  | .verbatim text => text

def renderTys : List Ty → List String
  | [] => []
  | t :: rest => t.render :: renderTys rest

def renderUnion : List Ty → List String
  | [] => []
  | t :: rest => parenthesized t.isFunctionLike t.render :: renderUnion rest

def renderOperands : List Ty → List String
  | [] => []
  | t :: rest => parenthesized t.needsParens t.render :: renderOperands rest

def TupleItem.render : TupleItem → String
  | ⟨label, optional, rest, type⟩ =>
    let mark := if optional then "?" else ""
    (if rest then "..." else "") ++
      match label with
      | some label => label ++ mark ++ ": " ++ type.render
      | none => type.render ++ mark

def renderItems : List TupleItem → List String
  | [] => []
  | item :: rest => item.render :: renderItems rest

def ParamTy.render : ParamTy → String
  | ⟨name, optional, rest, type⟩ =>
    (if rest then "..." else "") ++ name ++ (if optional then "?" else "") ++ ": " ++ type.render

def renderParamTys : List ParamTy → List String
  | [] => []
  | p :: rest => p.render :: renderParamTys rest

def FunctionTy.render : FunctionTy → String
  | ⟨isConstructor, isAbstract, typeParams, params, result⟩ =>
    (if isAbstract then "abstract " else "") ++ (if isConstructor then "new " else "") ++
      angled typeParams ++ "(" ++ ", ".intercalate (renderParamTys params) ++ ") => " ++
      result.render

/-- A function as a member of an object, behind its name if it is a method. -/
def FunctionTy.renderMember : FunctionTy → String
  | ⟨isConstructor, _, typeParams, params, result⟩ =>
    (if isConstructor then "new " else "") ++ angled typeParams ++ "(" ++
      ", ".intercalate (renderParamTys params) ++ "): " ++ result.render

def renderSignatures : List FunctionTy → List String
  | [] => []
  | f :: rest => (f.renderMember ++ "; ") :: renderSignatures rest

def IndexTy.render : IndexTy → String
  | ⟨keyName, key, value, readonly⟩ =>
    (if readonly then "readonly " else "") ++ "[" ++ keyName ++ ": " ++ key.render ++ "]: " ++
      value.render

def renderIndexes : List IndexTy → List String
  | [] => []
  | i :: rest => (i.render ++ "; ") :: renderIndexes rest

def Property.render : Property → String
  | ⟨name, optional, readonly, isMethod, type⟩ =>
    (if readonly then "readonly " else "") ++ renderPropertyName name ++
      (if optional then "?" else "") ++
      match type, isMethod with
      | .function f, true => f.renderMember
      | type, _ => ": " ++ type.render

def renderProperties : List Property → List String
  | [] => []
  | p :: rest => (p.render ++ "; ") :: renderProperties rest

/-- An object as text. One with a single signature and nothing else reads like a function. -/
def ObjectTy.render : ObjectTy → String
  | ⟨[], [f], [], []⟩ => f.render
  | ⟨[], [], [f], []⟩ => f.render
  | ⟨[], [], [], []⟩ => "\x7b\x7d"
  | ⟨properties, calls, constructs, indexes⟩ =>
    "\x7b " ++ String.join (renderSignatures calls ++ renderSignatures constructs ++
      renderIndexes indexes ++ renderProperties properties) ++ "\x7d"

end

namespace Ty

/-- A type as the operand of `keyof`, of brackets or of an indexed access. -/
def renderOperand (t : Ty) : String := parenthesized t.needsParens t.render

end Ty

end PluginSurface
