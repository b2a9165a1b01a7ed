import PluginSurface.Source.Fault
import PluginSurface.Source.Token

/-!
# Reading tokens

A cursor stands between the token read last and those that follow. A parser reads on from a cursor
or refuses the text; it never steps behind the last token.
-/

namespace PluginSurface

/-- A place between two tokens. `finish` stands behind all others, and `nextId` is the number of
the statement that begins next. `depth` is the number of levels of types and blocks that are open,
and `inBound` is set while the bound of a conditional type is being read. -/
structure Cursor where
  previous : Option Token
  rest : List Token
  finish : Token
  nextId : Nat
  depth : Nat
  inBound : Bool

namespace Cursor

def start (l : Lexed) : Cursor := ⟨none, l.tokens, l.finish, 0, 0, false⟩

/-- The token `n` places ahead; behind the last one it is the final one. -/
def token (s : Cursor) (n : Nat) : Token := s.rest.getD n s.finish

def next (s : Cursor) : Token := s.token 0

def atEnd (s : Cursor) : Bool := s.rest.isEmpty

def passed (s : Cursor) : Nat :=
  match s.previous with
  | none => 0
  | some t => t.span.stop

/-- The cursor behind the next token; it stays where it is at the end. -/
def advance (s : Cursor) : Cursor :=
  match s.rest with
  | [] => s
  | t :: rest => { s with previous := some t, rest := rest }

@[simp] theorem token_zero (s : Cursor) : s.token 0 = s.next := rfl

theorem length_rest_advance (s : Cursor) : s.advance.rest.length = s.rest.length - 1 := by
  unfold advance
  split <;> simp [*]

end Cursor

abbrev Parser := StateT Cursor (Except SyntaxError)

/-- What one round of a repetition ends with. -/
inductive Round (β α : Type) where
  | again (state : β)
  | done (result : α)

namespace Parser

variable {α β : Type}

def fail (fault : Fault) : Parser α := fun s ↦ .error ⟨fault, s.next.span⟩

def unexpected (what : Wanted) : Parser α := fun s ↦
  .error ⟨.expected what (if s.next.kind == .finish then none else some s.next.text),
    s.next.span⟩

def look (n : Nat) : Parser Token := return (← get).token n

def bump : Parser Token := fun s ↦ .ok (s.next, s.advance)

def atMark (text : String) : Parser Bool := return (← look 0).isMark text

def atWord (text : String) : Parser Bool := return (← look 0).isWord text

def eatMark (text : String) : Parser Bool := fun s ↦
  if s.next.isMark text then .ok (true, s.advance) else .ok (false, s)

def eatWord (text : String) : Parser Bool := fun s ↦
  if s.next.isWord text then .ok (true, s.advance) else .ok (false, s)

def expectMark (text : String) : Parser Unit := fun s ↦
  if s.next.isMark text then .ok ((), s.advance) else unexpected (.mark text) s

def expectWord (text : String) : Parser Unit := fun s ↦
  if s.next.isWord text then .ok ((), s.advance) else unexpected (.word text) s

def expectKind (kind : TokenKind) (what : Wanted) : Parser Token := fun s ↦
  if s.next.kind == kind then .ok (s.next, s.advance) else unexpected what s

def expectWordText : Parser String := return (← expectKind .word .identifier).text

def expectString : Parser String := return (← expectKind .string .stringLiteral).text

/-- The parser that runs when the mark `text` was next, and `none` otherwise. -/
def afterMark (text : String) (p : Parser α) : Parser (Option α) := do
  if ← eatMark text then return some (← p) else return none

/-- The parser that runs when the word `text` was next, and `none` otherwise. -/
def afterWord (text : String) (p : Parser α) : Parser (Option α) := do
  if ← eatWord text then return some (← p) else return none

/-- Runs the parser, and takes back the tokens that it read if it finds nothing. -/
def attempt (p : Parser (Option α)) : Parser (Option α) := fun s ↦
  (p s).map fun (found, t) ↦
    (found, if found.isSome then t else { t with previous := s.previous, rest := s.rest })

/-! ## Levels -/

/-- The number of levels of types and blocks that may be open at once. -/
def maxNesting : Nat := 64

/-- Runs the parser one level further in, if a further level may be opened. -/
def nested (p : Parser α) : Parser α := fun s ↦
  if s.depth < maxNesting then
    (p { s with depth := s.depth + 1 }).map fun (a, t) ↦ (a, { t with depth := t.depth - 1 })
  else fail .tooDeep s

/-- Runs the parser inside or outside the bound of a conditional type. -/
def withBound (inBound : Bool) (p : Parser α) : Parser α := fun s ↦
  (p { s with inBound := inBound }).map fun (a, t) ↦ (a, { t with inBound := s.inBound })

/-! ## Runs of tokens -/

/-- The longest run of tokens that satisfy `p` together with the token behind each, and what
follows the run. -/
def spanTokens (p : Token → Token → Bool) (finish : Token) :
    List Token → List Token × List Token
  | [] => ([], [])
  | t :: rest =>
    if p t (rest.headD finish) then
      let (taken, rest) := spanTokens p finish rest
      (t :: taken, rest)
    else ([], t :: rest)

/-- Takes the longest run of tokens that satisfy `p` together with the token behind each. -/
def takeTokens (p : Token → Token → Bool) : Parser (List Token) := fun s ↦
  let (taken, rest) := spanTokens p s.finish s.rest
  .ok (taken, { s with previous := taken.getLast?.or s.previous, rest := rest })

/-- The inside of a bracketed group whose opener was read and in which `depth` further groups are
open, the token that closes it, and what follows. Brackets of all kinds count alike. -/
def closeGroup : Nat → List Token → Option (List Token × Token × List Token)
  | _, [] => none
  | depth, t :: rest =>
    if t.isOpener then
      (closeGroup (depth + 1) rest).map fun (inside, close, rest) ↦ (t :: inside, close, rest)
    else if t.isCloser then
      match depth with
      | 0 => some ([], t, rest)
      | less + 1 =>
        (closeGroup less rest).map fun (inside, close, rest) ↦ (t :: inside, close, rest)
    else (closeGroup depth rest).map fun (inside, close, rest) ↦ (t :: inside, close, rest)

/-- Takes the bracketed group whose opener is next, and answers the tokens between its brackets. -/
def takeGroup : Parser (List Token) := fun s ↦
  match closeGroup 0 s.rest.tail with
  | some (inside, close, rest) => .ok (inside, { s with previous := some close, rest := rest })
  | none => fail .unbalanced s

def skipGroup : Parser Unit := discard takeGroup

/-- Marks behind which an expression goes on after a line break. -/
def trailingMarks : List String :=
  ["=", ",", ".", "?.", "(", "[", "\x7b", "+", "-", "*", "/", "%", "&", "|", "??", "?", ":", "=>",
    "<", ">", "!", "^", "~"]

/-- Marks with which an expression goes on after a line break. -/
def leadingMarks : List String :=
  [".", "?.", "?", ":", "=>", "&", "|", "+", "*", "/", "%", "=", ",", "??", "^", ">", "<"]

/-- Whether the line break between `last` and `t` ends an expression. -/
def breaksExpression (last : Option Token) (t : Token) : Bool :=
  match last with
  | none => false
  | some last => t.newlineBefore && !last.isMarkIn trailingMarks && !t.isMarkIn leadingMarks

/-- Where an expression ends: before one of the marks `stops`, before a closing bracket that it did
not open, at the end of the text and, if `lines` is set, at a line break that ends it. `last` is
the token of the expression before `rest`, and `group` the opener of the group that is being passed
over with the number of groups open in it. The error is the opener of a group that does not end. -/
def expressionEnd (stops : List String) (lines : Bool) :
    Option (Token × Nat) → Option Token → List Token →
    Except Token (Option Token × List Token)
  | none, last, [] => .ok (last, [])
  | some (opener, _), _, [] => .error opener
  | none, last, t :: rest =>
    if t.isMarkIn stops || t.isCloser ||
      (lines && breaksExpression last t) then .ok (last, t :: rest)
    else expressionEnd stops lines (if t.isOpener then some (t, 0) else none) (some t) rest
  | some (opener, depth), _, t :: rest =>
    let group :=
      if t.isOpener then some (opener, depth + 1)
      else if t.isCloser then
        match depth with
        | 0 => none
        | less + 1 => some (opener, less)
      else some (opener, depth)
    expressionEnd stops lines group (some t) rest

def passExpression (stops : List String) (lines : Bool) : Parser Bool := fun s ↦
  match expressionEnd stops lines none none s.rest with
  | .ok (last, rest) => .ok (last.isSome, { s with previous := last.or s.previous, rest := rest })
  | .error opener => .error ⟨.unbalanced, opener.span⟩

def skipExpression (stops : List String) (lines : Bool) : Parser Unit :=
  discard (passExpression stops lines)

/-! ## Repetition -/

/-- Runs `step` until it is done, for at most as many rounds as tokens are given. -/
def roundsWithin (step : β → Parser (Round β α)) : List Token → β → Parser α
  | [], _ => fail .stalled
  | _ :: more, state => do
    match ← step state with
    | .again state => roundsWithin step more state
    | .done result => pure result

/-- Runs `step` until it is done. Each round but the last takes a token, so one round more than
tokens are left is enough. -/
def rounds (step : β → Parser (Round β α)) (state : β) : Parser α := fun s ↦
  roundsWithin step (s.finish :: s.rest) state s

def listStep (close : String) (item : Nat → Parser α) (found : List α) :
    Parser (Round (List α) (List α)) := do
  if ← eatMark close then return .done found.reverse
  let found := (← item found.length) :: found
  if ← eatMark "," then return .again found
  expectMark close
  return .done found.reverse

/-- Items with commas between them up to the mark `close`, which may also follow a comma. An item
is told how many stand before it. -/
def listUntil (close : String) (item : Nat → Parser α) : Parser (List α) :=
  rounds (listStep close item) []

def bracedStep (separators : List String) (item : Parser α) (found : List α) :
    Parser (Round (List α) (List α)) := do
  if ← eatMark "\x7d" then return .done found.reverse
  if (← get).atEnd then unexpected (.mark "\x7d")
  if (← look 0).isMarkIn separators then
    let _ ← bump
    return .again found
  return .again ((← item) :: found)

/-- Items up to a closing brace, which has to be there. Marks among `separators` are passed over
between the items. -/
def braced (separators : List String) (item : Parser α) : Parser (List α) := do
  expectMark "\x7b"
  rounds (bracedStep separators item) []

def separatedStep (separator : String) (item : Parser α) (found : List α) :
    Parser (Round (List α) (List α)) := do
  if ← eatMark separator then return .again ((← item) :: found)
  return .done found.reverse

def separated (separator : String) (item : Parser α) : Parser (List α) := do
  let first ← item
  rounds (separatedStep separator item) [first]

end Parser

end PluginSurface
