import PluginSurface.Data.Json
import PluginSurface.Libraries.Digits
import PluginSurface.Libraries.Reader

/-!
# Reading JSON

A strict reader. Nothing but blanks may stand around the value, control characters have to be
escaped in strings, and half of a surrogate pair is refused.
-/

namespace PluginSurface.Json

open Text

def isSpace (c : Char) : Bool := c == ' ' || c == '\n' || c == '\t' || c == '\r'

def skipSpace : Reader Unit := modify (·.dropWhile isSpace)

def peek : Reader Char := fun cs ↦
  match cs.dropWhile isSpace with
  | [] => none
  | c :: rest => some (c, c :: rest)

def shortEscape? : Char → Option Char
  | '"' => some '"'
  | '\\' => some '\\'
  | '/' => some '/'
  | 'b' => some '\x08'
  | 'f' => some '\x0c'
  | 'n' => some '\n'
  | 'r' => some '\r'
  | 't' => some '\t'
  | _ => none

def ofPair? (high low : Nat) : Option Char :=
  if 0xD800 ≤ high ∧ high < 0xDC00 ∧ 0xDC00 ≤ low ∧ low < 0xE000 then
    some (Char.ofNat (0x10000 + (high - 0xD800) * 0x400 + (low - 0xDC00)))
  else none

/-- The rest of a string behind its opening quote, and what follows it. -/
def stringTail : List Char → Option (List Char × List Char)
  | [] => none
  | '"' :: rest => some ([], rest)
  | '\\' :: 'u' :: a :: b :: c :: d :: rest => do
    let unit ← ofDigits? 16 [a, b, c, d]
    if 0xD800 ≤ unit ∧ unit < 0xDC00 then
      match rest with
      | '\\' :: 'u' :: e :: f :: g :: h :: rest =>
        let char ← ofPair? unit (← ofDigits? 16 [e, f, g, h])
        let (value, rest) ← stringTail rest
        return (char :: value, rest)
      | _ => none
    else
      let char ← charOfCode? [a, b, c, d]
      let (value, rest) ← stringTail rest
      return (char :: value, rest)
  | '\\' :: c :: rest => do
    let char ← shortEscape? c
    let (value, rest) ← stringTail rest
    return (char :: value, rest)
  | c :: rest => do
    guard (0x20 ≤ c.toNat && c != '\\')
    let (value, rest) ← stringTail rest
    return (c :: value, rest)

def readString : Reader String := fun
  | '"' :: rest => (stringTail rest).map fun (value, rest) ↦ (String.ofList value, rest)
  | _ => none

def readDigits : Reader (List Char) := Reader.many1 Char.isDigit

def readFraction : Reader (List Char) := do
  match ← get with
  | '.' :: rest =>
    set rest
    readDigits
  | _ => return []

def readExponent : Reader (Bool × List Char) := do
  match ← get with
  | e :: rest =>
    if e == 'e' || e == 'E' then
      match rest with
      | '+' :: rest => set rest
      | '-' :: rest =>
        set rest
        return (true, ← readDigits)
      | _ => set rest
      return (false, ← readDigits)
    else return (false, [])
  | [] => return (false, [])

/-- The least number that has no place in a word of 64 bits. -/
def wordLimit : Nat := Nat.pow 2 64

/-- Whether a number with the given digits, times ten to the power `up - down`, is not too large.
The digits count as far as they fit into a word. -/
def inRange (whole fraction : List Char) (up down : Nat) : Bool :=
  let (n, skipped) := takeDigits wordLimit 0 whole
  let (n, unused) := takeDigits wordLimit n fraction
  roundedFitsDouble n (up + skipped.length) (down + (fraction.length - unused.length))

/-- A number. Its whole part has no needless zero, and it is not too large. -/
def readNumber : Reader String := Reader.taken do
  let _ ← Reader.optional (Reader.char '-')
  let whole ← readDigits
  guard (whole.length == 1 || whole.head? != some '0')
  let fraction ← readFraction
  let (negative, exponent) ← readExponent
  let power := ofDigits 10 exponent
  let (up, down) := if negative then (0, power) else (power, 0)
  guard (inRange whole fraction up down)

/-- Items with commas between them up to the character `close`, of which at least one is there. The
list bounds the number of items. -/
def readItems {α : Type} (close : Char) (item : Reader α) :
    List Char → List α → Reader (List α)
  | [], _ => failure
  | _ :: more, found => do
    let found := (← item) :: found
    skipSpace
    let c ← Reader.next
    if c == close then return found.reverse
    if c == ',' then readItems close item more found else failure

def readGroup {α : Type} (close : Char) (item : Reader α) : Reader (List α) := do
  let _ ← Reader.next
  if (← peek) == close then
    let _ ← Reader.next
    return []
  readItems close item (← get) []

/-- A value in which fewer than `depth` brackets may be open at once. -/
def readValue : Nat → Reader Json
  | 0 => failure
  | depth + 1 => do
    let c ← peek
    match c with
    | '"' => return .string (← readString)
    | '[' =>
      guard (depth != 0)
      return .array (← readGroup ']' (readValue depth))
    | '\x7b' =>
      guard (depth != 0)
      return .object (← readGroup '\x7d' do
        let _ ← peek
        let key ← readString
        skipSpace
        Reader.char ':'
        return (key, ← readValue depth))
    | 't' => Reader.word "true" *> return .bool true
    | 'f' => Reader.word "false" *> return .bool false
    | 'n' => Reader.word "null" *> return .null
    | _ => return .number (← readNumber)

/-- The number of brackets that may be open at once. -/
def maxDepth : Nat := 127

def ofText? (text : String) : Option Json := do
  let (value, rest) ← readValue (maxDepth + 1) text.toList
  guard (rest.all isSpace)
  return value

end PluginSurface.Json
