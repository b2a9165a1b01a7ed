import PluginSurface.Source.Span

/-!
# Why a source text is refused

A fault names what is wrong; its message is written in one place. A syntax error is a fault with
the stretch of text that it concerns.
-/

namespace PluginSurface

/-- What the grammar asked for where something else stood. -/
inductive Wanted where
  | mark (text : String)
  | word (text : String)
  | identifier
  | stringLiteral
  | exportName
  | enumMember
  | propertyName
  | type
  | declaration
deriving DecidableEq, Repr

/-- The reasons for which a source text is refused. A repetition would stall if one of its rounds
took no token; each round of the grammar takes one. -/
inductive Fault where
  | unclosedComment
  | unclosedString
  | unclosedTemplate
  | unclosedRegex
  | unbalanced
  | strayBrace
  | tooDeep
  | stalled
  | expected (what : Wanted) (found : Option String)
deriving DecidableEq, Repr

namespace Wanted

def describe : Wanted → String
  | mark text => "`" ++ text ++ "`"
  | word text => "`" ++ text ++ "`"
  | identifier => "an identifier"
  | stringLiteral => "a string literal"
  | exportName => "an export name"
  | enumMember => "an enum member"
  | propertyName => "a property name"
  | type => "a type"
  | declaration => "a declaration"

end Wanted

namespace Fault

def message : Fault → String
  | unclosedComment => "unterminated block comment"
  | unclosedString => "unterminated string literal"
  | unclosedTemplate => "unterminated template literal"
  | unclosedRegex => "unterminated regular expression"
  | unbalanced => "unbalanced brackets"
  | strayBrace => "unexpected `\x7d`"
  | tooDeep => "nesting too deep"
  | stalled => "no token was taken"
  | expected what none => "expected " ++ what.describe ++ ", found end of file"
  | expected what (some text) => "expected " ++ what.describe ++ ", found `" ++ text ++ "`"

end Fault

/-- A fault and where it was met. -/
structure SyntaxError where
  fault : Fault
  span : Span
deriving DecidableEq, Repr

namespace SyntaxError

def clamp (e : SyntaxError) (total : Nat) : SyntaxError := { e with span := e.span.clamp total }

def message (e : SyntaxError) : String := e.fault.message

def line (e : SyntaxError) (source : String) : Nat := lineAt source e.span.start

end SyntaxError

end PluginSurface
