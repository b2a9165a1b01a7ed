/-!
# Readers

A reader takes characters from the front of a text, or refuses it. A reader that refuses takes
nothing, so another one can be tried.
-/

namespace PluginSurface.Text

abbrev Reader := StateT (List Char) Option

namespace Reader

def next : Reader Char := fun
  | [] => none
  | c :: rest => some (c, rest)

def char (c : Char) : Reader Unit := do guard ((← next) == c)

def word (word : String) : Reader Unit := fun cs ↦
  if word.toList.isPrefixOf cs then some ((), cs.drop word.length) else none

def many (p : Char → Bool) : Reader (List Char) :=
  fun cs ↦ some (cs.takeWhile p, cs.dropWhile p)

/-- The characters up to the first that is not in a class, at least one. -/
def many1 (p : Char → Bool) : Reader (List Char) := do
  let cs ← many p
  guard !cs.isEmpty
  return cs

def optional {α : Type} (r : Reader α) : Reader (Option α) := fun cs ↦
  match r cs with
  | none => some (none, cs)
  | some (a, rest) => some (some a, rest)

def taken {α : Type} (r : Reader α) : Reader String := fun cs ↦
  (r cs).map fun (_, rest) ↦ (String.ofList (cs.take (cs.length - rest.length)), rest)

end Reader

end PluginSurface.Text
