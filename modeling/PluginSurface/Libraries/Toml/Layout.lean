import PluginSurface.Data.Toml

/-!
# How the lines of a TOML document make a table

A header opens a table, or a further element of an array of tables, and the entries behind it go
there. No table is opened by two headers, no key is given two values, and what a header or braces
made cannot be extended through dotted keys.
-/

namespace PluginSurface.Toml

/-- How a table came about: by its own header, by the header of a table inside it, or by a dotted
key. -/
inductive Origin where
  | header
  | inner
  | dotted
deriving DecidableEq, Repr

/-- What stands under a key while a document is put together. The tables of an array come last one
first. -/
inductive Node where
  | value (value : Toml)
  | table (origin : Origin) (entries : List (String × Node))
  | tables (last : List (String × Node)) (earlier : List (List (String × Node)))

abbrev Entries := List (String × Node)

/-- A line that says something: the header of a table or of an element of an array of tables, or an
entry. -/
inductive Line where
  | table (path : List String)
  | element (path : List String)
  | entry (path : List String) (value : Toml)

namespace Entries

def put (key : String) (n : Node) (es : Entries) : Entries :=
  if es.any (·.1 == key) then es.map fun (k, m) ↦ if k == key then (k, n) else (k, m)
  else es ++ [(key, n)]

/-- Changes the node at the end of a path of headers. Tables that are missing on the way are made;
of an array of tables the last one is taken. -/
def alter (f : Option Node → Option Node) : List String → Entries → Option Entries
  | [], _ => none
  | [key], es => do return es.put key (← f (es.lookup key))
  | key :: path, es =>
    match es.lookup key with
    | none => do return es.put key (.table .inner (← alter f path []))
    | some (.table origin inner) => do return es.put key (.table origin (← alter f path inner))
    | some (.tables last earlier) => do return es.put key (.tables (← alter f path last) earlier)
    | some (.value _) => none

/-- Puts a value at the end of a dotted key. Tables that are missing on the way are made. The table
that holds the value has to be the first one or made by a dotted key. -/
def insert (v : Toml) : List String → Entries → Option Entries
  | [], _ => none
  | [key], es => if (es.lookup key).isSome then none else some (es ++ [(key, .value v)])
  | key :: path, es =>
    match es.lookup key with
    | none => do return es.put key (.table .dotted (← insert v path []))
    | some (.table .dotted inner) => do return es.put key (.table .dotted (← insert v path inner))
    | some (.table .inner inner) => do
      guard (path.length != 1)
      return es.put key (.table .inner (← insert v path inner))
    | some (.tables last earlier) => do
      guard (path.length != 1)
      return es.put key (.tables (← insert v path last) earlier)
    | some (.table .header _) | some (.value _) => none

def openTable : Option Node → Option Node
  | none => some (.table .header [])
  | some (.table .inner entries) => some (.table .header entries)
  | _ => none

def openElement : Option Node → Option Node
  | none => some (.tables [] [])
  | some (.tables last earlier) => some (.tables [] (last :: earlier))
  | _ => none

/-- Puts a value at the end of a dotted key into the table that is open. -/
def insertOpen (path : List String) (v : Toml) : Option Node → Option Node
  | some (.table origin entries) => return .table origin (← insert v path entries)
  | some (.tables last earlier) => return .tables (← insert v path last) earlier
  | _ => none

/-- A document up to some line, with the path of the table that is open. -/
structure Layout where
  entries : Entries
  current : List String

def addLine (l : Layout) : Line → Option Layout
  | .table path => do return ⟨← alter openTable path l.entries, path⟩
  | .element path => do return ⟨← alter openElement path l.entries, path⟩
  | .entry path v => do
    let entries ←
      if l.current.isEmpty then insert v path l.entries
      else alter (insertOpen path v) l.current l.entries
    return ⟨entries, l.current⟩

end Entries

mutual

def Node.toToml : Node → Toml
  | .value v => v
  | .table _ entries => .table (Node.entriesToToml entries)
  | .tables last earlier => .array (Node.tablesToToml earlier [.table (Node.entriesToToml last)])

def Node.entriesToToml : List (String × Node) → List (String × Toml)
  | [] => []
  | (key, n) :: rest => (key, n.toToml) :: Node.entriesToToml rest

/-- The values of tables that come last one first, before those of later ones. -/
def Node.tablesToToml : List (List (String × Node)) → List Toml → List Toml
  | [], later => later
  | entries :: earlier, later =>
    Node.tablesToToml earlier (.table (Node.entriesToToml entries) :: later)

end

def ofLines? (lines : List Line) : Option Toml := do
  let layout ← lines.foldlM Entries.addLine ⟨[], []⟩
  return .table (Node.entriesToToml layout.entries)

def ofPairs? (pairs : List (List String × Toml)) : Option Toml :=
  ofLines? (pairs.map fun (path, v) ↦ .entry path v)

end PluginSurface.Toml
