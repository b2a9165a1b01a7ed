import PluginSurface.Data.Toml
import PluginSurface.Libraries.Digits
import PluginSurface.Libraries.Reader

/-!
# TOML strings, numbers, dates and times

Strings stand in double quotes, with escapes, or in single quotes, without. Three quotes in a row
open a string that may run over several lines. Underscores may stand between the digits of a number.
-/

namespace PluginSurface.Toml

open Text

def isBlank (c : Char) : Bool := c == ' ' || c == '\t'

def isPlain (c : Char) : Bool := c == '\t' || (0x20 ≤ c.toNat && c.toNat != 0x7F)

def afterBreak? : List Char → Option (List Char)
  | '\n' :: rest | '\r' :: '\n' :: rest => some rest
  | _ => none

def afterSpace : List Char → List Char
  | '\n' :: rest | '\r' :: '\n' :: rest => afterSpace rest
  | c :: rest => if isBlank c then afterSpace rest else c :: rest
  | [] => []

/-! ## Strings -/

def shortEscape? : Char → Option Char
  | '"' => some '"'
  | '\\' => some '\\'
  | 'b' => some '\x08'
  | 'f' => some '\x0c'
  | 'n' => some '\n'
  | 'r' => some '\r'
  | 't' => some '\t'
  | _ => none

/-- The character that an escape stands for, from behind the backslash on, and what follows it. -/
def escape? : List Char → Option (Char × List Char)
  | 'u' :: a :: b :: c :: d :: rest => (charOfCode? [a, b, c, d]).map (·, rest)
  | 'U' :: a :: b :: c :: d :: e :: f :: g :: h :: rest =>
    (charOfCode? [a, b, c, d, e, f, g, h]).map (·, rest)
  | c :: rest => (shortEscape? c).map (·, rest)
  | [] => none

/-- What follows a line break that a backslash hides, with the blanks and line breaks around it. -/
def hiddenBreak? (cs : List Char) : Option (List Char) :=
  (afterBreak? (cs.dropWhile isBlank)).map afterSpace

theorem length_of_escape? {cs rest : List Char} {c : Char} (h : escape? cs = some (c, rest)) :
    rest.length < cs.length := by
  unfold escape? at h
  split at h
  case h_4 => simp at h
  all_goals
    obtain ⟨_, _, h⟩ := Option.map_eq_some_iff.1 h
    obtain ⟨_, rfl⟩ := Prod.mk.inj h
    simp only [List.length_cons]
    omega

theorem length_afterSpace_le (cs : List Char) : (afterSpace cs).length ≤ cs.length := by
  fun_induction afterSpace cs with
  | case1 rest ih | case2 rest ih | case3 c rest _ _ _ ih =>
    simp only [List.length_cons]
    omega
  | case4 | case5 => exact Nat.le_refl _

theorem length_of_afterBreak? {cs rest : List Char} (h : afterBreak? cs = some rest) :
    rest.length < cs.length := by
  unfold afterBreak? at h
  split at h
  · simp_all
  · obtain rfl := Option.some.inj h
    simp only [List.length_cons]
    omega
  · simp at h

theorem length_dropWhile_le (p : Char → Bool) (cs : List Char) :
    (cs.dropWhile p).length ≤ cs.length :=
  (List.dropWhile_suffix p).length_le

theorem length_of_hiddenBreak? {cs rest : List Char} (h : hiddenBreak? cs = some rest) :
    rest.length < cs.length := by
  obtain ⟨tail, htail, rfl⟩ := Option.map_eq_some_iff.1 h
  have := length_of_afterBreak? htail
  have := length_afterSpace_le tail
  have := length_dropWhile_le isBlank cs
  omega

def push (c : Char) : List Char × List Char → List Char × List Char
  | (value, rest) => (c :: value, rest)

def basicTail (cs : List Char) : Option (List Char × List Char) :=
  match cs with
  | [] => none
  | c :: tail =>
    if c = '"' then some ([], tail)
    else if c = '\\' then
      match _h : escape? tail with
      | some (c, rest) => (basicTail rest).map (push c)
      | none => none
    else if isPlain c then (basicTail tail).map (push c)
    else none
termination_by cs.length
decreasing_by
  · have := length_of_escape? _h
    simp only [List.length_cons]
    omega
  · simp

/-- The rest of a string over several lines, and what follows it. Up to two quotes may stand right
before the three that close it. -/
def blockTail (quote : Char) (cs : List Char) : Option (List Char × List Char) :=
  match cs with
  | [] => none
  | c :: tail =>
    if c = quote then
      let run := (cs.takeWhile (· == quote)).length
      if 3 ≤ run then some (List.replicate (min run 5 - 3) quote, cs.drop (min run 5))
      else (blockTail quote tail).map (push c)
    else if c = '\\' ∧ quote = '"' then
      match _h : hiddenBreak? tail with
      | some rest => blockTail quote rest
      | none =>
        match _h : escape? tail with
        | some (c, rest) => (blockTail quote rest).map (push c)
        | none => none
    else if isPlain c then (blockTail quote tail).map (push c)
    else
      match _h : afterBreak? (c :: tail) with
      | some rest => (blockTail quote rest).map (push '\n')
      | none => none
termination_by cs.length
decreasing_by
  · simp
  · have := length_of_hiddenBreak? _h
    simp only [List.length_cons]
    omega
  · have := length_of_escape? _h
    simp only [List.length_cons]
    omega
  · simp
  · exact length_of_afterBreak? _h

/-- The rest of a string that opens with a quote and does not run over several lines. -/
def lineTail (quote : Char) (cs : List Char) : Option (List Char × List Char) :=
  if quote = '"' then basicTail cs
  else
    match cs.dropWhile fun c ↦ isPlain c && c != quote with
    | c :: rest =>
      if c = quote then some (cs.takeWhile fun c ↦ isPlain c && c != quote, rest) else none
    | [] => none

def lineString (quote : Char) : Reader String := do
  Reader.char quote
  return String.ofList (← lineTail quote)

/-- A string in the given quotes. A line break right behind three opening quotes is left out. -/
def anyString (quote : Char) : Reader String := do
  match ← get with
  | a :: b :: c :: rest =>
    if [a, b, c] = [quote, quote, quote] then
      set ((afterBreak? rest).getD rest)
      return String.ofList (← blockTail quote)
    else lineString quote
  | _ => lineString quote

/-! ## Numbers -/

def moreDigits (base : Nat) : List Char → List Char × List Char
  | '_' :: c :: rest =>
    if isDigitIn base c then push c (moreDigits base rest) else ([], '_' :: c :: rest)
  | c :: rest => if isDigitIn base c then push c (moreDigits base rest) else ([], c :: rest)
  | [] => ([], [])

def digits (base : Nat) : Reader (List Char) := fun
  | c :: rest => if isDigitIn base c then some (push c (moreDigits base rest)) else none
  | [] => none

def sign : Reader Bool := do
  match ← get with
  | '+' :: rest =>
    set rest
    return false
  | '-' :: rest =>
    set rest
    return true
  | _ => return false

/-- The integer of a sign and an absolute value, if it has at most 64 bits. -/
def integer? (negative : Bool) (size : Nat) : Option Toml :=
  if negative then if size ≤ Nat.pow 2 63 then some (.integer (-size)) else none
  else if size < Nat.pow 2 63 then some (.integer size) else none

def based (base : Nat) : Reader Toml := do
  let _ ← Reader.next
  let _ ← Reader.next
  integer? false (ofDigits base (← digits base))

def wholeDigits : Reader (List Char) := do
  let whole ← digits 10
  guard (whole.length == 1 || whole.head? != some '0')
  return whole

def fraction : Reader (Option (List Char)) := do
  match ← get with
  | '.' :: rest =>
    set rest
    return some (← digits 10)
  | _ => return none

/-- The exponent of a number, if there is one: whether it is negative, and its size. -/
def exponent : Reader (Option (Bool × Nat)) := do
  match ← get with
  | c :: rest =>
    if c == 'e' || c == 'E' then
      set rest
      let negative ← sign
      return some (negative, ofDigits 10 (← digits 10))
    else return none
  | [] => return none

/-- Whether the number with these digits is kept. Only positive numbers can be too large. -/
def isKept (negative : Bool) (whole : List Char) (fraction : Option (List Char))
    (exponent : Option (Bool × Nat)) : Bool :=
  let fraction := fraction.getD []
  let (up, down) :=
    match exponent with
    | none => (0, 0)
    | some (true, size) => (0, size)
    | some (false, size) => (size, 0)
  negative || fitsDouble (ofDigits 10 (whole ++ fraction)) up (down + fraction.length)

/-- A decimal number. It is an integer if it has neither a fraction nor an exponent. -/
def decimal : Reader Toml := fun cs ↦ (·.run cs) do
  let negative ← sign
  let whole ← wholeDigits
  let fraction ← fraction
  let exponent ← exponent
  if fraction.isNone && exponent.isNone then integer? negative (ofDigits 10 whole)
  else
    guard (isKept negative whole fraction exponent)
    return .float (String.ofList (cs.take (cs.length - (← get).length)))

def special : Reader Toml :=
  .float <$> Reader.taken (sign *> (Reader.word "inf" <|> Reader.word "nan"))

def number : Reader Toml := do
  match ← get with
  | '0' :: 'x' :: _ => based 16
  | '0' :: 'o' :: _ => based 8
  | '0' :: 'b' :: _ => based 2
  | _ => special <|> decimal

/-! ## Dates and times -/

def field (n low high : Nat) : Reader Nat := fun cs ↦ do
  guard (n ≤ cs.length)
  let value ← ofDigits? 10 (cs.take n)
  guard (low ≤ value && value ≤ high)
  return (value, cs.drop n)

def daysOf (year month : Nat) : Nat :=
  if month = 2 then if year % 4 = 0 ∧ (year % 100 ≠ 0 ∨ year % 400 = 0) then 29 else 28
  else if month ∈ [4, 6, 9, 11] then 30
  else 31

def date : Reader Unit := do
  let year ← field 4 0 9999
  Reader.char '-'
  let month ← field 2 1 12
  Reader.char '-'
  let _ ← field 2 1 (daysOf year month)

/-- A time of day. A minute may have a leap second. -/
def time : Reader Unit := do
  let _ ← field 2 0 23
  Reader.char ':'
  let _ ← field 2 0 59
  Reader.char ':'
  let _ ← field 2 0 60
  let _ ← Reader.optional (Reader.char '.' *> Reader.many1 Char.isDigit)

def offset : Reader Unit := do
  let c ← Reader.next
  if c == 'Z' || c == 'z' then return
  guard (c == '+' || c == '-')
  let _ ← field 2 0 23
  Reader.char ':'
  let _ ← field 2 0 59

def timeOfDate : Reader Unit := do
  let c ← Reader.next
  guard (c == 'T' || c == 't' || c == ' ')
  time
  let _ ← Reader.optional offset

def moment : Reader Toml :=
  .datetime <$> Reader.taken ((date *> Reader.optional timeOfDate *> pure ()) <|> time)

end PluginSurface.Toml
