import PluginSurface.Path

/-!
# File trees

The files and directories that a program is loaded from; there are no symbolic links. A path is
followed from the root one stretch at a time; whatever is not the last stretch has to be a
directory, also before dots.
-/

namespace PluginSurface

/-- A file or a directory, never a link to one. A file has no text if its bytes are not UTF-8. -/
inductive FileTree where
  | file (text : Option String)
  | directory (entries : List (String × FileTree))

namespace FileTree

def child? (name : String) : FileTree → Option FileTree
  | file _ => none
  | directory entries => (entries.find? (·.1 == name)).map (·.2)

def isDirectoryNode : FileTree → Bool
  | file _ => false
  | directory _ => true

/-- A node with the names that lead to it from the root and the nodes on the way, innermost
first. -/
structure Trail where
  root : FileTree
  steps : List (String × FileTree)

namespace Trail

def node (t : Trail) : FileTree :=
  match t.steps with
  | [] => t.root
  | (_, node) :: _ => node

def path (t : Trail) : Path := ⟨"/" ++ "/".intercalate (t.steps.reverse.map (·.1))⟩

/-- Follows one stretch of a path. Two dots at the root stay there. -/
def step (t : Trail) (stretch : List Char) : Option Trail :=
  if !t.node.isDirectoryNode then none
  else match stretch with
    | [] | ['.'] => some t
    | ['.', '.'] => some { t with steps := t.steps.tail }
    | cs =>
      let name := String.ofList cs
      (t.node.child? name).map fun node ↦ { t with steps := (name, node) :: t.steps }

end Trail

/-- The trail of an absolute path, if there is something at its end. -/
def follow? (root : FileTree) (p : Path) : Option Trail :=
  if p.isAbsolute then (Path.stretches p.text.toList).foldlM Trail.step ⟨root, []⟩ else none

def node? (root : FileTree) (p : Path) : Option FileTree := (root.follow? p).map Trail.node

def isFile (root : FileTree) (p : Path) : Bool :=
  match root.node? p with
  | some (file _) => true
  | _ => false

def isDirectory (root : FileTree) (p : Path) : Bool :=
  match root.node? p with
  | some (directory _) => true
  | _ => false

def read? (root : FileTree) (p : Path) : Option String :=
  match root.node? p with
  | some (file text) => text
  | _ => none

/-- The path without dots that leads to the same file or directory; where there is none, the path
without dots as its text has it. -/
def canonical (root : FileTree) (p : Path) : Path :=
  match root.follow? p with
  | some trail => trail.path
  | none => p.normalize

/-- The tree with a node at the end of the given names. Directories are made on the way; a file on
the way is replaced. -/
def insert (tree : FileTree) (names : List String) (node : FileTree) : FileTree :=
  match names with
  | [] => node
  | name :: names =>
    let entries :=
      match tree with
      | directory entries => entries
      | file _ => []
    let inner := (child? name (directory entries)).getD (directory [])
    directory (entries.filter (·.1 != name) ++ [(name, inner.insert names node)])

def empty : FileTree := directory []

mutual

/-- The number of ways down to files, where each `node_modules` may be followed by a detour through
`@types` and back by two dots. -/
def ways : FileTree → Nat
  | file _ => 1
  | directory entries => waysIn entries

def waysIn : List (String × FileTree) → Nat
  | [] => 0
  | (name, tree) :: rest =>
    (if name == "node_modules" && (tree.child? "@types").any isDirectoryNode then 2 else 1) *
      tree.ways + waysIn rest

end

end FileTree

end PluginSurface
