/-!
# Paths

A path is kept as the text it was built from. What it denotes is read off its components, which
ignore doubled slashes and single dots.
-/

namespace PluginSurface

structure Path where
  text : String
deriving DecidableEq, Repr, Hashable, Inhabited

namespace Path

/-- A part of a path: the root, a dot at the beginning of a relative path, two dots, or a name. -/
inductive Component where
  | root
  | current
  | parent
  | name (text : String)
deriving DecidableEq, Repr

def Component.text : Component → String
  | root => "/"
  | current => "."
  | parent => ".."
  | name text => text

def isAbsolute (p : Path) : Bool := p.text.startsWith "/"

/-- The component that a stretch between slashes stands for, if it stands for one. -/
def component? (stretch : List Char) : Option Component :=
  match stretch with
  | [] | ['.'] => none
  | ['.', '.'] => some .parent
  | cs => some (.name (String.ofList cs))

def stretches (cs : List Char) : List (List Char) :=
  match cs with
  | [] => [[]]
  | c :: rest =>
    if c = '/' then [] :: stretches rest
    else match stretches rest with
      | [] => [[c]]
      | s :: more => (c :: s) :: more

def components (p : Path) : List Component :=
  let parts := stretches p.text.toList
  let start : List Component :=
    if p.isAbsolute then [.root] else if parts.head? = some ['.'] then [.current] else []
  start ++ parts.filterMap component?

def same (p q : Path) : Bool := p.components == q.components

def join (p q : Path) : Path :=
  if q.isAbsolute then q
  else if p.text.isEmpty || p.text.endsWith "/" then ⟨p.text ++ q.text⟩
  else ⟨p.text ++ "/" ++ q.text⟩

def ofComponents (cs : List Component) : Path := cs.foldl (fun p c ↦ p.join ⟨c.text⟩) ⟨""⟩

/-- The components with single dots gone and each pair of a name and two dots taken out. -/
def normalComponents (cs : List Component) : List Component :=
  cs.foldl (fun kept c ↦
    match c with
    | .current => kept
    | .parent =>
      match kept.getLast? with
      | none | some .root => kept ++ [.parent]
      | some _ => kept.dropLast
    | c => kept ++ [c]) []

/-- The path without dots, as far as that can be told from its text. -/
def normalize (p : Path) : Path := ofComponents (normalComponents p.components)

/-- The paths above the stretches of a path, innermost first. The stretches are given in reverse
and without the one that stands for the root. -/
def above (absolute : Bool) : List (List Char) → List Path
  | [] => []
  | s :: outer =>
    if s = [] ∨ (s = ['.'] ∧ (absolute ∨ outer ≠ [])) then above absolute outer
    else
      let kept := outer.dropWhile fun s ↦ s = [] || (s = ['.'] && absolute)
      let text := String.ofList (['/'].intercalate kept.reverse)
      ⟨if absolute then "/" ++ text else text⟩ :: above absolute outer

def parents (p : Path) : List Path :=
  let parts := stretches p.text.toList
  above p.isAbsolute (if p.isAbsolute then parts.tail else parts).reverse

def parent? (p : Path) : Option Path := p.parents.head?

def directory (p : Path) : Path := p.parent?.getD ⟨""⟩

def ancestors (p : Path) : List Path := p :: p.parents

def append (p : Path) (text : String) : Path := ⟨p.text ++ text⟩

/-- What is left of two lists of components behind their common beginning. -/
def dropCommon : List Component → List Component → List Component × List Component
  | a :: as, b :: bs => if a = b then dropCommon as bs else (a :: as, b :: bs)
  | as, bs => (as, bs)

/-- The components that lead from `base` to `target` once their common beginning is gone. There is
no way back out of two dots in `base`. -/
def wayFrom : List Component → List Component → Option (List Component)
  | [], base => some (base.map fun _ ↦ .parent)
  | target, [] => some target
  | a :: as, b :: bs =>
    match b with
    | .current => (wayFrom as bs).map (a :: ·)
    | .parent => none
    | _ => some (.parent :: bs.map (fun _ ↦ .parent) ++ a :: as)

def relativeTo? (p base : Path) : Option Path :=
  if p.isAbsolute == base.isAbsolute then
    let (target, base) := dropCommon p.components base.components
    (wayFrom target base).map ofComponents
  else if p.isAbsolute then some p
  else none

end Path

end PluginSurface
