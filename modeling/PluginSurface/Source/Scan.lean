import PluginSurface.Source.Fault
import PluginSurface.Source.Token
import PluginSurface.Text.Blank
import PluginSurface.Text.Identifier

/-!
# From text to tokens

The text is an alternation of gaps (white space and comments) and lexemes. Each scanner takes the
characters ahead and the offset of the first of them, and hands back what it took, the offset
behind it and the characters that follow, so that what it took and what follows make up what was
ahead.
-/

namespace PluginSurface.Scan

open Text

/-- Where a scanner stopped: the offset and the characters from there on. -/
structure Here where
  offset : Nat
  ahead : List Char

/-- The error for a lexeme that begins at `start` and was followed up to `offset` in a text of
`size` bytes; it covers at least one byte, as far as the text has one. -/
def failure (size : Nat) (fault : Fault) (start offset : Nat) : SyntaxError :=
  ⟨fault, ⟨start, min (max offset (start + 1)) (max size start)⟩⟩

/-! ## Gaps -/

/-- What a gap scanner is inside of. -/
inductive GapMode where
  | between
  | lineComment (reversedBody : List Char)
  | blockComment (start : Nat)

/-- A gap: whether it holds a line feed, and the directives in it, last one first. -/
structure Gap where
  newline : Bool
  reversedDirectives : List String

/-- The gap after a line comment whose text behind the two slashes is given in reverse. A third
slash makes it a directive. -/
def Gap.addLineComment (g : Gap) (reversedBody : List Char) : Gap :=
  match reversedBody.reverse with
  | '/' :: body =>
    { g with reversedDirectives := String.ofList (trimBlank body) :: g.reversedDirectives }
  | _ => g

def gap (size : Nat) : GapMode → Gap → Nat → List Char → Except SyntaxError (Gap × Here)
  | .between, g, offset, [] => .ok (g, ⟨offset, []⟩)
  | .between, g, offset, '/' :: '/' :: rest => gap size (.lineComment []) g (offset + 2) rest
  | .between, g, offset, '/' :: '*' :: rest => gap size (.blockComment offset) g (offset + 2) rest
  | .between, g, offset, c :: rest =>
    if isBlank c then
      gap size .between { g with newline := g.newline || c == '\n' } (offset + c.utf8Size) rest
    else .ok (g, ⟨offset, c :: rest⟩)
  | .lineComment body, g, offset, [] => .ok (g.addLineComment body, ⟨offset, []⟩)
  | .lineComment body, g, offset, c :: rest =>
    if c = '\n' then
      gap size .between { g.addLineComment body with newline := true } (offset + 1) rest
    else gap size (.lineComment (c :: body)) g (offset + c.utf8Size) rest
  | .blockComment start, _, offset, [] => .error (failure size .unclosedComment start offset)
  | .blockComment _, g, offset, '*' :: '/' :: rest => gap size .between g (offset + 2) rest
  | .blockComment start, g, offset, c :: rest =>
    gap size (.blockComment start) { g with newline := g.newline || c == '\n' }
      (offset + c.utf8Size) rest

/-! ## Lexemes -/

/-- What a backslash and `c` stand for in a string literal. A backslash at the end of a line stands
for nothing. -/
def unescape (c : Char) : List Char :=
  if c = 'n' then ['\n']
  else if c = 't' then ['\t']
  else if c = 'r' then ['\r']
  else if c = '0' then [Char.ofNat 0]
  else if c = '\n' then []
  else [c]

/-- The rest of a string literal behind its opening quote: the value it denotes and where it ends.
The error is the offset at which it was found to be open. -/
def stringTail (quote : Char) : Nat → List Char → Except Nat (List Char × Here)
  | offset, [] => .error offset
  | offset, ['\\'] => .error (offset + 1)
  | offset, '\\' :: c :: rest =>
    (stringTail quote (offset + 1 + c.utf8Size) rest).map fun (value, here) =>
      (unescape c ++ value, here)
  | offset, c :: rest =>
    if c = quote then .ok ([], ⟨offset + c.utf8Size, rest⟩)
    else if c = '\n' then .error (offset + 1)
    else (stringTail quote (offset + c.utf8Size) rest).map fun (value, here) => (c :: value, here)

/-- What a template scanner is inside of, innermost first: a template literal, a substitution with
a number of braces open in it, or a string literal in a substitution. Each knows where the literal
began that is reported when the text ends in it. -/
inductive Frame where
  | template (start : Nat)
  | substitution (start : Nat) (depth : Nat)
  | quoted (start : Nat) (quote : Char)

def Frame.failure (size : Nat) (offset : Nat) : Frame → SyntaxError
  | template start => Scan.failure size .unclosedTemplate start offset
  | substitution start _ => Scan.failure size .unclosedTemplate start offset
  | quoted start _ => Scan.failure size .unclosedString start offset

def consTaken (c : Char) (r : List Char × Here) : List Char × Here := (c :: r.1, r.2)

/-- The rest of a template literal inside the given frames: what it took and where it ends. -/
def templateTail (size : Nat) :
    List Frame → Nat → List Char → Except SyntaxError (List Char × Here)
  | [], offset, ahead => .ok ([], ⟨offset, ahead⟩)
  | frame :: _, offset, [] => .error (frame.failure size offset)
  | .template start :: outer, offset, '\\' :: c :: rest =>
    (templateTail size (.template start :: outer) (offset + 1 + c.utf8Size) rest).map
      (consTaken '\\' ∘ consTaken c)
  | .template start :: outer, offset, '$' :: '\x7b' :: rest =>
    (templateTail size (.substitution start 0 :: .template start :: outer) (offset + 2) rest).map
      (consTaken '$' ∘ consTaken '\x7b')
  | .template start :: outer, offset, c :: rest =>
    let inner := if c = '`' then outer else .template start :: outer
    (templateTail size inner (offset + c.utf8Size) rest).map (consTaken c)
  | .substitution start depth :: outer, offset, c :: rest =>
    let inner :=
      if c = '\x7b' then .substitution start (depth + 1) :: outer
      else if c = '\x7d' then
        match depth with
        | 0 => outer
        | less + 1 => .substitution start less :: outer
      else if c = '"' ∨ c = '\'' then .quoted offset c :: .substitution start depth :: outer
      else if c = '`' then .template offset :: .substitution start depth :: outer
      else .substitution start depth :: outer
    (templateTail size inner (offset + c.utf8Size) rest).map (consTaken c)
  | .quoted start quote :: outer, offset, '\\' :: c :: rest =>
    (templateTail size (.quoted start quote :: outer) (offset + 1 + c.utf8Size) rest).map
      (consTaken '\\' ∘ consTaken c)
  | .quoted start quote :: outer, offset, c :: rest =>
    if c = '\n' then .error (failure size .unclosedString start (offset + 1))
    else
      let inner := if c = quote then outer else .quoted start quote :: outer
      (templateTail size inner (offset + c.utf8Size) rest).map (consTaken c)

/-- The rest of a regular expression behind its opening slash, without its flags. A slash inside a
character class does not end it. The error is the offset at which it was found to be open. -/
def regexTail : Bool → Nat → List Char → Except Nat (List Char × Here)
  | _, offset, [] => .error offset
  | inClass, offset, '\\' :: c :: rest =>
    (regexTail inClass (offset + 1 + c.utf8Size) rest).map (consTaken '\\' ∘ consTaken c)
  | inClass, offset, c :: rest =>
    if c = '/' ∧ ¬ inClass then .ok ([c], ⟨offset + 1, rest⟩)
    else if c = '\n' then .error (offset + 1)
    else
      let inClass := if c = '[' then true else if c = ']' then false else inClass
      (regexTail inClass (offset + c.utf8Size) rest).map (consTaken c)

/-- Whether `c` is one of the digits 0 to 9, or one of the 52 letters. -/
def isAsciiAlphanumeric (c : Char) : Bool := c.isAlphanum

/-- How much of the characters ahead a number takes, when `previous` is the character before them.
A sign belongs to it behind the exponent mark of a number that is not hexadecimal. -/
def numberTail (isHex : Bool) (previous : Option Char) : List Char → List Char × List Char
  | [] => ([], [])
  | c :: rest =>
    if isAsciiAlphanumeric c || c == '_' || c == '.' ||
        ((c == '+' || c == '-') && !isHex && (previous == some 'e' || previous == some 'E')) then
      let (taken, rest) := numberTail isHex (some c) rest
      (c :: taken, rest)
    else ([], c :: rest)

def startsHex : List Char → Bool
  | '0' :: 'x' :: _ => true
  | '0' :: 'X' :: _ => true
  | _ => false

def markLength : List Char → Nat
  | '.' :: '.' :: '.' :: _ => 3
  | '=' :: '>' :: _ => 2
  | '?' :: '?' :: _ => 2
  | '?' :: '.' :: c :: _ => if c.isDigit then 1 else 2
  | ['?', '.'] => 2
  | _ => 1

/-- The words behind which a slash begins a regular expression. -/
def regexLeads : List String :=
  ["return", "typeof", "case", "in", "of", "new", "delete", "void", "throw", "yield", "await",
    "instanceof"]

def regexAllowed : Option Token → Bool
  | none => true
  | some last =>
    match last.kind with
    | .word => regexLeads.contains last.text
    | .mark => !last.isCloser
    | _ => false

/-- A lexeme: its class, its text, and where it ends. -/
structure Lexeme where
  kind : TokenKind
  text : String
  here : Here

def Lexeme.plain (kind : TokenKind) (offset : Nat) (taken rest : List Char) : Lexeme :=
  ⟨kind, String.ofList taken, ⟨offset + byteCount taken, rest⟩⟩

/-- The lexeme that begins with `c`, the first character ahead, when `last` is the token before. -/
def lexeme (size : Nat) (last : Option Token) (offset : Nat) (c : Char) (rest : List Char) :
    Except SyntaxError Lexeme :=
  if isNameStart c then
    .ok (.plain .word offset (c :: rest.takeWhile isNamePart) (rest.dropWhile isNamePart))
  else if c == '#' && rest.head?.any isNameStart then
    .ok (.plain .privateName offset (c :: rest.takeWhile isNamePart) (rest.dropWhile isNamePart))
  else if c.isDigit || (c == '.' && rest.head?.any Char.isDigit) then
    let (taken, rest) := numberTail (startsHex (c :: rest)) none (c :: rest)
    .ok (.plain .number offset taken rest)
  else if c == '"' || c == '\'' then
    match stringTail c (offset + 1) rest with
    | .ok (value, here) => .ok ⟨.string, String.ofList value, here⟩
    | .error stop => .error (failure size .unclosedString offset stop)
  else if c == '`' then
    (templateTail size [.template offset] (offset + 1) rest).map fun (taken, here) =>
      ⟨.template, String.ofList (c :: taken), here⟩
  else if c == '/' && regexAllowed last then
    match regexTail false (offset + 1) rest with
    | .ok (taken, here) =>
      .ok (.plain .regex offset (c :: taken ++ here.ahead.takeWhile isNamePart)
        (here.ahead.dropWhile isNamePart))
    | .error stop => .error (failure size .unclosedRegex offset stop)
  else
    let n := markLength (c :: rest)
    .ok (.plain .mark offset ((c :: rest).take n) ((c :: rest).drop n))

/-- Scans the gap and the lexeme ahead, then what follows them, in front of the tokens and
directives found so far, last one first. Each round takes at least one character, so the
characters ahead at the start are rounds enough. -/
def tokens (size : Nat) :
    List Char → List Token → List String → Here →
    Except SyntaxError (List Token × List String)
  | [], found, directives, _ => .ok (found.reverse, directives.reverse)
  | _ :: rounds, found, directives, here =>
    match gap size .between ⟨false, directives⟩ here.offset here.ahead with
    | .error e => .error e
    | .ok (g, ⟨_, []⟩) => .ok (found.reverse, g.reversedDirectives.reverse)
    | .ok (g, ⟨start, c :: rest⟩) =>
      match lexeme size found.head? start c rest with
      | .error e => .error e
      | .ok l =>
        let token : Token := ⟨l.kind, l.text, ⟨start, l.here.offset⟩, g.newline⟩
        tokens size rounds (token :: found) g.reversedDirectives l.here

end Scan

def Lexed.ofSource (source : String) : Except SyntaxError Lexed :=
  let chars := source.toList
  (Scan.tokens source.utf8ByteSize chars [] [] ⟨0, chars⟩).map fun (tokens, directives) =>
    ⟨tokens, directives, source.utf8ByteSize⟩

end PluginSurface
