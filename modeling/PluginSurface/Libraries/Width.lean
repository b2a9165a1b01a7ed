import PluginSurface.Libraries.Emoji
import PluginSurface.Libraries.Ligature

/-!
# Display width

The number of columns that a text takes in a terminal, outside an East Asian setting. It is the sum
over its characters, but for sequences that are drawn as one: a carriage return with a line feed, an
emoji with what selects, colours, extends or joins it, and ligatures. The text is read from its end,
and each character is counted in view of what the text behind it begins with.
-/

namespace PluginSurface.Text

/-- What a text begins with, as far as it bears on the character in front of it. In front of a
joiner, what is joined to it is counted already. -/
inductive Opening where
  | other
  | lineFeed
  | tone
  | flagLetters (count : Nat)
  | emoji
  | joinedEmoji
  | joinedKeycap
  | joinedFlagLetters (count : Nat)
  | joinedTag (letters digits : Nat)
  | ligature (tail : LigatureTail)
deriving DecidableEq, Repr

/-- The selectors that bear on width: for the text form, the emoji form and the full-width form of
the character in front of them. -/
inductive Selector where
  | text
  | emoji
  | fullWidth
deriving DecidableEq, Repr

def Selector.ofChar? (c : Char) : Option Selector :=
  match c.toNat with
  | 0xFE01 => some .fullWidth
  | 0xFE0E => some .text
  | 0xFE0F => some .emoji
  | _ => none

/-- What stands behind a character: what the text begins with, and a selector in front of that. -/
structure Following where
  opening : Opening
  selector : Option Selector
deriving DecidableEq, Repr

namespace Opening

/-- What a text is to the character in front of it if it begins with `c` and `c` is not drawn into
one with what follows. -/
def ofChar (c : Char) : Opening :=
  if c = '\n' then .lineFeed
  else if c.toNat ≤ 0xA0 then .other
  else if isTone c then .tone
  else if isFlagLetter c then .flagLetters 1
  else if isShownEmoji c then .emoji
  else match LigatureTail.ofChar? c with
    | some tail => .ligature tail
    | none => .other

/-- Whether the text begins with a joiner that waits for an emoji in front of it, or with a keycap
in front of such a joiner. -/
def isJoined : Opening → Bool
  | joinedEmoji | joinedKeycap => true
  | _ => false

/-- Whether the text begins with a ligature that ignorable marks do not break. -/
def admitsMarks : Opening → Bool
  | ligature tail => tail.admitsMarks
  | _ => false

def isJoinable : Opening → Bool
  | emoji | tone => true
  | flagLetters count | joinedFlagLetters count => 2 ≤ count
  | _ => false

def beforeJoined? (c : Char) : Option (Int × Opening) :=
  if c.toNat = 0x20E3 then some (0, .joinedKeycap)
  else if isFlagLetter c then some (1, .joinedFlagLetters 1)
  else if isTone c then some (0, .tone)
  else if c.toNat = 0xE007F then some (0, .joinedTag 0 0)
  else if isShownEmoji c then some (0, .emoji)
  else none

/-- The columns that `c` adds in front of the end of a tag. A tag names a region by three digits, or
by two letters and one to four more for a part of it; a black flag stands in front of it. -/
def beforeTag? (c : Char) (letters digits : Nat) : Option (Int × Opening) :=
  if isTagLetter c ∧ digits = 0 ∧ letters < 6 then some (0, .joinedTag (letters + 1) 0)
  else if isTagDigit c ∧ (digits = 0 ∧ letters ≤ 4 ∨ digits = 1 ∨ digits = 2) then
    some (0, .joinedTag letters (digits + 1))
  else if c.toNat = 0x1F3F4 ∧ (digits = 0 ∧ 3 ≤ letters ∨ digits = 3) then some (0, .emoji)
  else none

/-- The columns that `c` adds in front of a text if it is drawn into one with what the text begins
with, and what the whole begins with. -/
def extend? (c : Char) : Opening → Option (Int × Opening)
  | lineFeed => if c = '\r' then some (0, .other) else none
  | ligature tail =>
    (tail.extend? c).map fun (columns, tail) ↦ (columns, (tail.map .ligature).getD .other)
  | joinedEmoji => beforeJoined? c
  | joinedTag letters digits => beforeTag? c letters digits
  | opening =>
    if c.toNat = joiner ∧ opening.isJoinable then some (0, .joinedEmoji)
    else match opening with
      | tone => if takesTone c then some (0, .emoji) else none
      | flagLetters count => if isFlagLetter c then some (1, .flagLetters (count + 1)) else none
      | joinedFlagLetters count =>
        if isFlagLetter c then
          some (if count % 2 = 0 then 3 else -1, .joinedFlagLetters (count + 1))
        else none
      | _ => none

end Opening

namespace Following

/-- The columns of a character whose form the selector behind it chooses, and what it is then. -/
def select? (c : Char) (f : Following) : Option (Int × Opening) :=
  match f.selector with
  | some .emoji =>
    if isSelectable c then some (if f.opening.isJoined then 0 else 2, .emoji) else none
  | some .text => if narrowsAsText c then some (1, .other) else none
  | some .fullWidth =>
    if c ∈ ['\u2018', '\u2019', '\u201C', '\u201D'] then some (2, .other) else none
  | none => none

/-- What stands behind a character for which the selector means nothing. -/
def unselected (f : Following) : Opening :=
  if f.selector.isNone || f.opening.admitsMarks then f.opening else .other

/-- What stands behind a character if a selector stands in front of the text. -/
def behind (s : Selector) (opening : Opening) : Following :=
  ⟨if opening.admitsMarks || (s == .emoji && opening.isJoined) then opening else .other, some s⟩

/-- The columns that `c` adds in front of what follows, and what stands behind the character in
front of it. -/
def widthBefore (c : Char) (f : Following) : Int × Following :=
  match f.select? c with
  | some (columns, opening) => (columns, ⟨opening, none⟩)
  | none =>
    match Selector.ofChar? c with
    | some s => (0, behind s f.unselected)
    | none =>
      let (columns, opening) := (f.unselected.extend? c).getD (charWidth c, .ofChar c)
      (columns, ⟨opening, none⟩)

end Following

/-- The columns that the characters take, and what they begin with. -/
def widthFrom : List Char → Int × Following
  | [] => (0, ⟨.other, none⟩)
  | c :: rest =>
    let (columns, following) := widthFrom rest
    let (more, here) := following.widthBefore c
    (more + columns, here)

def displayWidth (s : String) : Nat := (widthFrom s.toList).1.toNat

end PluginSurface.Text
