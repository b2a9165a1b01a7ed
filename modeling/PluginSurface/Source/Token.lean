import PluginSurface.Source.Span

/-!
# Tokens

Keywords are words like any other: most of them are keywords in some places only, so it is the
grammar that tells them apart.
-/

namespace PluginSurface

inductive TokenKind where
  | word
  | privateName
  | string
  | number
  | template
  | regex
  | mark
  | finish
deriving DecidableEq, Repr

/-- A token: its class, its text (for a string literal the value it denotes, otherwise the source
text), where it stands, and whether a line feed separates it from the token before it. -/
structure Token where
  kind : TokenKind
  text : String
  span : Span
  newlineBefore : Bool
deriving DecidableEq, Repr

namespace Token

/-- The token that stands after all others, at the end of a text of `size` bytes. -/
def finish (size : Nat) : Token := ⟨.finish, "", ⟨size, size⟩, true⟩

def isMark (t : Token) (text : String) : Bool := t.kind == .mark && t.text == text

def isWord (t : Token) (text : String) : Bool := t.kind == .word && t.text == text

def isMarkIn (t : Token) (texts : List String) : Bool := t.kind == .mark && texts.contains t.text

def isOpener (t : Token) : Bool := t.isMarkIn ["(", "[", "\x7b"]

def isCloser (t : Token) : Bool := t.isMarkIn [")", "]", "\x7d"]

end Token

/-- What a source text consists of: its tokens in order without the final one, the bodies of its
`///` comments in order, and its size in bytes. -/
structure Lexed where
  tokens : List Token
  directives : List String
  size : Nat
deriving DecidableEq, Repr

def Lexed.finish (l : Lexed) : Token := Token.finish l.size

end PluginSurface
