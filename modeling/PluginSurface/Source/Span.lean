/-!
# Places in a source text

Offsets count the bytes of the UTF-8 form of the text; lines begin with 1 and end at line feeds.
-/

namespace PluginSurface

/-- The stretch of a source text from byte `start` up to, but without, byte `stop`. -/
structure Span where
  start : Nat
  stop : Nat
deriving DecidableEq, Repr

namespace Span

/-- The number of bytes in the stretch; a stretch that ends before it starts has none. -/
def size (s : Span) : Nat := s.stop - s.start

def isEmpty (s : Span) : Bool := s.size == 0

def clamp (s : Span) (total : Nat) : Span :=
  let start := min s.start total
  ⟨start, start + min s.size (total - start)⟩

end Span

def byteCount (cs : List Char) : Nat := cs.foldr (fun c n ↦ c.utf8Size + n) 0

@[simp] theorem byteCount_nil : byteCount [] = 0 := rfl

@[simp] theorem byteCount_cons (c : Char) (cs : List Char) :
    byteCount (c :: cs) = c.utf8Size + byteCount cs := rfl

@[simp] theorem byteCount_append (xs ys : List Char) :
    byteCount (xs ++ ys) = byteCount xs + byteCount ys := by
  induction xs with
  | nil => simp
  | cons c rest ih => rw [List.cons_append, byteCount_cons, byteCount_cons, ih, Nat.add_assoc]

/-- The number of line feeds among the first `bytes` bytes of `cs`. -/
def lineFeedsWithin : List Char → Nat → Nat
  | [], _ => 0
  | _, 0 => 0
  | c :: cs, bytes => (if c = '\n' then 1 else 0) + lineFeedsWithin cs (bytes - c.utf8Size)

/-- The line of `source` that holds byte `offset`; an offset past the end counts as the end. -/
def lineAt (source : String) (offset : Nat) : Nat := lineFeedsWithin source.toList offset + 1

end PluginSurface
