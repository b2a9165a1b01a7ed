/-!
# Digits

Numbers from the digits that spell them, in a base of at most sixteen. Digits above nine are
letters, of either case.
-/

namespace PluginSurface.Text

def digitValue? (c : Char) : Option Nat :=
  if c.isDigit then some (c.toNat - '0'.toNat)
  else if 'a' ≤ c ∧ c ≤ 'f' then some (c.toNat - 'a'.toNat + 10)
  else if 'A' ≤ c ∧ c ≤ 'F' then some (c.toNat - 'A'.toNat + 10)
  else none

def isDigitIn (base : Nat) (c : Char) : Bool := (digitValue? c).any (· < base)

def ofDigits (base : Nat) (cs : List Char) : Nat :=
  cs.foldl (fun n c ↦ base * n + (digitValue? c).getD 0) 0

/-- The number that digits spell in a base, if each of them is one. -/
def ofDigits? (base : Nat) (cs : List Char) : Option Nat :=
  if cs.all (isDigitIn base) then some (ofDigits base cs) else none

def charOfCode? (cs : List Char) : Option Char := do
  let code ← ofDigits? 16 cs
  if code.isValidChar then some (Char.ofNat code) else none

/-- The least number that is out of the range of double precision when it is rounded. -/
def doubleLimit : Nat := Nat.pow 2 1024 - Nat.pow 2 970

/-- Whether `n` times ten to the power `up - down` is within the range of double precision. Powers
that settle the matter by themselves are cut short. -/
def fitsDouble (n up down : Nat) : Bool :=
  if down ≤ up then n == 0 || (up - down ≤ 400 && n * Nat.pow 10 (up - down) < doubleLimit)
  else n < doubleLimit * Nat.pow 10 (min (down - up) n.log2)

/-- A number rounded to its 53 leading binary digits; a tie goes to the even neighbour. -/
def roundBinary (n : Nat) : Nat :=
  let unit := Nat.pow 2 (n.log2 - 52)
  let (q, r) := (n / unit, n % unit)
  if unit < 2 * r ∨ unit = 2 * r ∧ q % 2 = 1 then unit * (q + 1) else unit * q

/-- Whether `n` times ten to the power `up - down` is within the range of double precision if both
factors and then their product are rounded. -/
def roundedFitsDouble (n up down : Nat) : Bool :=
  n == 0 || up ≤ down ||
    (up - down ≤ 308 && roundBinary n * roundBinary (Nat.pow 10 (up - down)) < doubleLimit)

/-- Goes on from a number by decimal digits as long as it stays below a limit. The digits from the
first one on that would take it further are left. -/
def takeDigits (limit n : Nat) : List Char → Nat × List Char
  | [] => (n, [])
  | c :: cs =>
    let more := 10 * n + (digitValue? c).getD 0
    if more < limit then takeDigits limit more cs else (n, c :: cs)

end PluginSurface.Text
