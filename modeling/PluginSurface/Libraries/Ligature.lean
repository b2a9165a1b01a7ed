import PluginSurface.Libraries.Columns

/-!
# Ligatures

Sequences of letters that are written as one, and so take fewer columns than the letters do one by
one. A text is read from its end, so what is known of a ligature is its tail: the letters that may
still be drawn into one with those in front of them.
-/

namespace PluginSurface.Text

def joiner : Nat := 0x200D

/-- The letters that a ligature may end in. For some of them it counts whether a joiner stands in
front of them. -/
inductive LigatureTail where
  | alef
  | lamed (joined : Bool)
  | ya (joined : Bool)
  | vowelAndYa
  | tifinagh (joined : Bool)
  | tifinaghBehindSign
  | toneLetter
  | orkhonI (joined : Bool)
  | coengLetter
  | vowelE
  | vowelAI
deriving DecidableEq, Repr

def isAlef (n : Nat) : Bool :=
  inRanges n [(0x622, 0x623), (0x625, 0x625), (0x627, 0x627), (0x671, 0x673), (0x675, 0x675),
    (0x773, 0x774), (0x870, 0x882)]

def isLam (n : Nat) : Bool :=
  inRanges n [(0x644, 0x644), (0x6B5, 0x6B8), (0x76A, 0x76A), (0x8A6, 0x8A6), (0x8C7, 0x8C7)]

/-- Whether `n` is a Khmer letter that can be written below another one. -/
def isCoengLetter (n : Nat) : Bool :=
  inRanges n [(0x1780, 0x1782), (0x1784, 0x1787), (0x1789, 0x178C), (0x178E, 0x1793),
    (0x1795, 0x1798), (0x179B, 0x179D), (0x17A0, 0x17A0), (0x17A2, 0x17A2), (0x17A7, 0x17A7),
    (0x17AB, 0x17AC), (0x17AF, 0x17AF)]

def isTifinagh (n : Nat) : Bool := inRanges n [(0x2D31, 0x2D65), (0x2D6F, 0x2D6F)]

/-- Whether `n` is an ignorable mark; such a mark breaks no ligature. -/
def isIgnorableMark (n : Nat) : Bool :=
  inRanges n [(0x34F, 0x34F), (0x17B4, 0x17B5), (0x180B, 0x180D), (0x180F, 0x180F),
    (0xFE00, 0xFE0F), (0xE0100, 0xE01EF)]

/-- Code points without width that do break an Arabic ligature: their joining type is not
Transparent. -/
def opaqueRanges : List (Nat × Nat) :=
  [(0x605, 0x605), (0x890, 0x891), (0x8E2, 0x8E2), (0x9BE, 0x9BE), (0x9D7, 0x9D7), (0xB3E, 0xB3E),
   (0xB57, 0xB57), (0xBBE, 0xBBE), (0xBD7, 0xBD7), (0xCC0, 0xCC0), (0xCC2, 0xCC2), (0xCC7, 0xCC8),
   (0xCCA, 0xCCB), (0xCD5, 0xCD6), (0xD3E, 0xD3E), (0xD4E, 0xD4E), (0xD57, 0xD57), (0xDCF, 0xDCF),
   (0xDDF, 0xDDF), (0x1160, 0x11FF), (0x1715, 0x1715), (0x1734, 0x1734), (0x180E, 0x180E),
   (0x1B35, 0x1B35), (0x1B3B, 0x1B3B), (0x1B3D, 0x1B3D), (0x1B43, 0x1B44), (0x1BAA, 0x1BAA),
   (0x1BF2, 0x1BF3), (0x200C, 0x200D), (0x2065, 0x2069), (0x302E, 0x302F), (0x3164, 0x3164),
   (0xA8FA, 0xA8FA), (0xA953, 0xA953), (0xA9C0, 0xA9C0), (0xD7B0, 0xD7C6), (0xD7CB, 0xD7FB),
   (0xFFA0, 0xFFA0), (0xFFF0, 0xFFF8), (0x111C0, 0x111C0), (0x111C2, 0x111C3), (0x11235, 0x11235),
   (0x1133E, 0x1133E), (0x1134D, 0x1134D), (0x11357, 0x11357), (0x113B8, 0x113B8),
   (0x113C2, 0x113C2), (0x113C5, 0x113C5), (0x113C7, 0x113C9), (0x113CF, 0x113CF),
   (0x113D1, 0x113D1), (0x114B0, 0x114B0), (0x114BD, 0x114BD), (0x115AF, 0x115AF),
   (0x116B6, 0x116B6), (0x11930, 0x11930), (0x1193D, 0x1193D), (0x1193F, 0x1193F),
   (0x11941, 0x11941), (0x11A3A, 0x11A3A), (0x11A84, 0x11A89), (0x11D46, 0x11D46),
   (0x11DF0, 0x11DF0), (0x11F02, 0x11F02), (0x11F41, 0x11F41), (0x16FF0, 0x16FF1),
   (0x1D165, 0x1D166), (0x1D16D, 0x1D172), (0xE0000, 0xE0000), (0xE0002, 0xE001F),
   (0xE0080, 0xE00FF), (0xE01F0, 0xE0FFF)]

/-- Whether `c` stands between the letters of an Arabic ligature without breaking it. -/
def isTransparent (c : Char) : Bool := charWidth c == 0 && !inRanges c.toNat opaqueRanges

namespace LigatureTail

def ofChar? (c : Char) : Option LigatureTail :=
  match c.toNat with
  | 0x05DC => some (.lamed false)
  | 0x1A10 => some (.ya false)
  | 0xA4FC | 0xA4FD => some .toneLetter
  | 0x10C03 => some (.orkhonI false)
  | 0x16D67 => some .vowelE
  | 0x16D68 => some .vowelAI
  | n =>
    if isAlef n then some .alef
    else if isCoengLetter n then some .coengLetter
    else if isTifinagh n then some (.tifinagh false)
    else none

/-- Whether ignorable marks may stand in front of the tail without breaking the ligature. -/
def admitsMarks : LigatureTail → Bool
  | vowelE | vowelAI => false
  | _ => true

/-- The tail with a joiner in front of it. An alef is not reached through a joiner. -/
def join? : LigatureTail → Option LigatureTail
  | lamed _ => some (lamed true)
  | ya _ => some (ya true)
  | tifinagh _ => some (tifinagh true)
  | orkhonI _ => some (orkhonI true)
  | vowelAndYa => some vowelAndYa
  | tifinaghBehindSign => some tifinaghBehindSign
  | toneLetter => some toneLetter
  | coengLetter => some coengLetter
  | alef | vowelE | vowelAI => none

/-- The columns that a letter adds in front of a tail that it is drawn into one with, and the tail
that both make, if any. The columns of the tail are counted already, so they may have to be taken
back. -/
def precede? (n : Nat) : LigatureTail → Option (Int × Option LigatureTail)
  | alef => if isLam n then some (0, none) else none
  | lamed true => if n = 0x05D0 then some (0, none) else none
  | ya true => if n = 0x1A17 then some (0, some vowelAndYa) else none
  | vowelAndYa => if n = 0x1A15 then some (0, none) else none
  | tifinagh joined =>
    if n = 0x2D7F then some (1, some tifinaghBehindSign)
    else if joined && isTifinagh n then some (0, none)
    else none
  | tifinaghBehindSign => if isTifinagh n then some (-1, none) else none
  | toneLetter => if 0xA4F8 ≤ n ∧ n ≤ 0xA4FB then some (0, none) else none
  | orkhonI true => if n = 0x10C32 then some (0, none) else none
  | coengLetter => if n = 0x17D2 then some (-1, none) else none
  | vowelE =>
    match n with
    | 0x16D63 | 0x16D69 => some (0, none)
    | 0x16D67 => some (0, some vowelAI)
    | 0x16D68 => some (1, some vowelE)
    | _ => none
  | vowelAI => if n = 0x16D63 then some (0, none) else none
  | lamed false | ya false | orkhonI false => none

/-- The columns that `c` adds in front of a tail if it goes on with the ligature or does not break
it, and the tail that there is then. -/
def extend? (c : Char) (t : LigatureTail) : Option (Int × Option LigatureTail) :=
  let n := c.toNat
  if t = .alef ∧ isTransparent c then some (0, some t)
  else if t ≠ .alef ∧ t.admitsMarks ∧ isIgnorableMark n then some (0, some t)
  else if n = joiner then t.join?.map fun joined ↦ (0, some joined)
  else t.precede? n

end LigatureTail

end PluginSurface.Text
