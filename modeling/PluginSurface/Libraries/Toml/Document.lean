import PluginSurface.Libraries.Toml.Layout
import PluginSurface.Libraries.Toml.Scalar

/-!
# TOML documents

A document is read line by line. Only strings in three quotes and arrays run over several lines.
-/

namespace PluginSurface.Toml

open Text

/-- One more than the number of brackets that may be open at once, and than the number of parts
that a key may have. -/
def depthLimit : Nat := 80

def skipBlank : Reader Unit := modify (·.dropWhile isBlank)

/-! ## Keys -/

def isKeyChar (c : Char) : Bool := c.isAlphanum || c == '-' || c == '_'

def keyPart : Reader String := do
  match ← get with
  | '"' :: _ => lineString '"'
  | '\'' :: _ => lineString '\''
  | _ => String.ofList <$> Reader.many1 isKeyChar

/-- The parts of a key with dots between them, and blanks around them. The list bounds their
number. -/
def keyParts : List Char → Reader (List String)
  | [] => failure
  | _ :: more => do
    skipBlank
    let part ← keyPart
    skipBlank
    match ← get with
    | '.' :: rest =>
      set rest
      return part :: (← keyParts more)
    | _ => return [part]

def key : Reader (List String) := do
  let parts ← keyParts (← get)
  guard (parts.length < depthLimit)
  return parts

/-! ## Values -/

/-- What follows blanks, line breaks and comments. A comment begins with the number sign and ends
with its line. -/
def afterLines (inComment : Bool) : List Char → List Char
  | '\n' :: rest | '\r' :: '\n' :: rest => afterLines false rest
  | c :: rest =>
    if inComment then if isPlain c then afterLines true rest else c :: rest
    else if c == '#' then afterLines true rest
    else if isBlank c then afterLines false rest
    else c :: rest
  | [] => []

def skipLines : Reader Unit := modify (afterLines false)

/-- The items of an array up to its closing bracket, from behind the opening one or a comma on. The
list bounds their number. -/
def items (item : Reader Toml) : List Char → List Toml → Reader (List Toml)
  | [], _ => failure
  | _ :: more, found => do
    skipLines
    match ← get with
    | ']' :: rest =>
      set rest
      return found.reverse
    | _ =>
      let found := (← item) :: found
      skipLines
      let c ← Reader.next
      if c == ']' then return found.reverse
      if c == ',' then items item more found else failure

def pair (item : Reader Toml) : Reader (List String × Toml) := do
  let path ← key
  Reader.char '='
  skipBlank
  return (path, ← item)

/-- The entries of a table in braces up to the closing one, of which at least one is there. The list
bounds their number. -/
def pairs (item : Reader Toml) :
    List Char → List (List String × Toml) → Reader (List (List String × Toml))
  | [], _ => failure
  | _ :: more, found => do
    let found := (← pair item) :: found
    skipBlank
    let c ← Reader.next
    if c == '\x7d' then return found.reverse
    if c == ',' then pairs item more found else failure

def arrayTail (item : Reader Toml) : Reader Toml := do
  return .array (← items item (← get) [])

def inlineTable (item : Reader Toml) : Reader Toml := do
  skipBlank
  match ← get with
  | '\x7d' :: rest =>
    set rest
    return .table []
  | cs => ofPairs? (← pairs item cs [])

def scalar : Reader Toml := do
  match ← get with
  | '"' :: _ => .string <$> anyString '"'
  | '\'' :: _ => .string <$> anyString '\''
  | 't' :: _ => Reader.word "true" *> return .boolean true
  | 'f' :: _ => Reader.word "false" *> return .boolean false
  | _ => moment <|> number

/-- A value in which fewer than `depth` brackets may be open at once. -/
def value : Nat → Reader Toml
  | 0 => failure
  | depth + 1 => do
    match ← get with
    | '[' :: rest =>
      guard (depth != 0)
      set rest
      arrayTail (value depth)
    | '\x7b' :: rest =>
      guard (depth != 0)
      set rest
      inlineTable (value depth)
    | _ => scalar

/-! ## Lines -/

/-- The end of a line: blanks, a comment if there is one, and a line break or the end of the
text. -/
def lineEnd : Reader Unit := do
  skipBlank
  match ← get with
  | '#' :: rest => set (rest.dropWhile isPlain)
  | _ => pure ()
  match ← get with
  | [] => return
  | cs => set (← afterBreak? cs)

def line : Reader Line := do
  match ← get with
  | '[' :: '[' :: rest =>
    set rest
    let path ← key
    Reader.word "]]"
    return .element path
  | '[' :: rest =>
    set rest
    let path ← key
    Reader.char ']'
    return .table path
  | _ =>
    let (path, v) ← pair (value depthLimit)
    return .entry path v

def isBare : List Char → Bool
  | [] | '#' :: _ | '\n' :: _ | '\r' :: _ => true
  | _ => false

/-- The lines that say something. The list bounds the number of lines. -/
def lines : List Char → List Line → Reader (List Line)
  | [], found => return found.reverse
  | _ :: more, found => do
    skipBlank
    let found ← if isBare (← get) then pure found else (· :: found) <$> line
    lineEnd
    lines more found

/-- The table that a text spells. A byte order mark at its beginning is left out. -/
def ofText? (text : String) : Option Toml := do
  let cs :=
    match text.toList with
    | '\uFEFF' :: rest => rest
    | cs => cs
  let (found, rest) ← lines cs [] cs
  guard rest.isEmpty
  ofLines? found

end PluginSurface.Toml
