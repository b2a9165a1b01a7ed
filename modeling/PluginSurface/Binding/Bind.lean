import PluginSurface.Binding.Symbol
import PluginSurface.Program.Load

/-!
# Binding a program

The statements of all files are gone through once, and each name that is declared gets a symbol in
the scope it is declared in or among the exports of the module or namespace around it. Declarations
of one name in one place share a symbol.
-/

namespace PluginSurface

abbrev Binder := StateM Binding

/-- Where statements stand: their file and scope, the module or namespace that they are directly
in, and whether they only describe what exists elsewhere. -/
structure Place where
  file : Nat
  scope : Nat
  container : Option Nat
  ambient : Bool

namespace Binder

variable (program : Program)

def newScope (outer : List Nat) (container : Option Nat) : Binder Nat := do
  let b ← get
  set { b with scopes := b.scopes.push ⟨outer, [], container⟩ }
  return b.scopes.size

/-- The numbers of a scope and those around it, from the inside out. -/
def scopeChain (scope : Nat) : Binder (List Nat) := return scope :: ((← get).scope scope).outer

/-- The numbers of a symbol and those around it, from the inside out. -/
def symbolChain (symbol : Option Nat) : Binder (List Nat) := do
  match symbol with
  | none => return []
  | some id => return id :: ((← get).symbol id).outer

def newSymbol (name : String) (parent : Option Nat) : Binder Nat := do
  let outer ← symbolChain parent
  let b ← get
  set { b with symbols := b.symbols.push (.fresh name outer) }
  return b.symbols.size

def changeSymbol (id : Nat) (f : Symbol → Symbol) : Binder Unit :=
  modify fun b ↦ { b with symbols := b.symbols.modify id f }

def addDeclaration (id : Nat) (d : Declaration) : Binder Unit :=
  changeSymbol id fun s ↦ { s with declarations := s.declarations ++ [d] }

def addExport (container : Nat) (name : String) (id : Nat) : Binder Unit :=
  changeSymbol container fun s ↦ { s with exports := (name, id) :: s.exports }

/-- Declares a name. An exported one goes to the exports of the container, if there is one, any
other to the scope; if the name is there already, the declaration is added to its symbol. -/
def declare (place : Place) (exported : Bool) (name : String) (kind : DeclarationKind) :
    Binder Nat := do
  let b ← get
  let d : Declaration := ⟨place.file, place.scope, kind⟩
  let container := if exported then place.container else none
  let known :=
    match container with
    | some c => (b.symbol c).exports.lookup name
    | none => (b.scope place.scope).names.lookup name
  if let some id := known then
    addDeclaration id d
    return id
  let id ← newSymbol name (b.scope place.scope).container
  addDeclaration id d
  match container with
  | some c => addExport c name id
  | none =>
    modify fun b ↦ { b with scopes := b.scopes.modify place.scope fun s ↦
      { s with names := (name, id) :: s.names } }
  return id

/-- Makes a symbol for a link an export of a container; an export of that name is replaced. -/
def exportLink (place : Place) (container : Nat) (name : String) (link : Link) : Binder Unit := do
  let id ← newSymbol name (some container)
  addDeclaration id ⟨place.file, place.scope, .link link⟩
  addExport container name id

/-- Makes a declaration the default export: the symbol of its name, or one of its own. -/
def exportDefault (place : Place) (named : Option Nat) (kind : DeclarationKind) :
    Binder Unit := do
  if let some c := place.container then
    match named with
    | some id => addExport c "default" id
    | none =>
      let id ← newSymbol "default" (some c)
      addDeclaration id ⟨place.file, place.scope, kind⟩
      addExport c "default" id

/-- Declares a class, interface or function with its name, if it has one, and makes it the default
export if it is one. -/
def declareMain (place : Place) (exported isDefault : Bool) (name : Option Name)
    (kind : DeclarationKind) : Binder Unit := do
  let id ←
    match name with
    | some n => pure (some (← declare place exported n.text kind))
    | none => pure none
  if isDefault then exportDefault place id kind

def declareImport (place : Place) (decl : ImportDecl) : Binder Unit := do
  let module : ModuleRef := ⟨place.file, decl.specifier⟩
  let add (name : String) (link : Link) : Binder Unit :=
    discard (declare place false name (.link link))
  if let some name := decl.default then add name (.member module "default")
  if let some name := decl.allAs then add name (.namespace module)
  decl.named.forM fun s ↦ add s.name (.member module s.imported)

/-- Adds what an export declaration exports. A name that is exported already is not exported again
from its own file. -/
def declareExport (place : Place) (container : Nat) (decl : ExportDecl) : Binder Unit := do
  let module := decl.specifier.map (ModuleRef.mk place.file)
  match decl.clause, module with
  | .all none, some module =>
    changeSymbol container fun s ↦ { s with starExports := s.starExports ++ [module] }
  | .all (some name), some module => exportLink place container name (.namespace module)
  | .all _, none => return
  | .named specifiers, some module =>
    specifiers.forM fun s ↦ exportLink place container s.exported (.member module s.name)
  | .named specifiers, none =>
    specifiers.forM fun s ↦ do
      if (((← get).symbol container).exports.lookup s.exported).isNone then
        exportLink place container s.exported (.entity [s.name])

/-- The symbol of a module that is declared by name. In a module, a name that stands for a module
file of the program means that file. -/
def namedModule (place : Place) (specifier : String) : Binder Nat := do
  let b ← get
  let augmented :=
    if place.container.isSome then
      (program.resolvedModule place.file specifier).bind fun file ↦ b.fileModules.getD file none
    else none
  if let some id := augmented <|> b.ambientModules.lookup specifier then return id
  let id ← newSymbol specifier none
  modify fun b ↦ { b with ambientModules := (specifier, id) :: b.ambientModules }
  return id

def inside (place : Place) (symbol : Nat) (ambient : Bool) : Binder Place := do
  let scope ← newScope (← scopeChain place.scope) (some symbol)
  return ⟨place.file, scope, some symbol, ambient⟩

/-- Declares the namespaces of a dotted name, each inside the one before and all but the first
exported from it, and answers the place inside the last one. -/
def enterNamespaces (place : Place) (exported : Bool) : List String → Binder Place
  | [] => return place
  | segment :: rest => do
    let id ← declare place exported segment .namespaceDecl
    enterNamespaces (← inside place id place.ambient) true rest

/-- Declares a namespace or module, and answers the place inside it. -/
def enterModule (place : Place) (exported : Bool) : ModuleName → Binder Place
  | .global => return ⟨place.file, Binding.globalScope, none, true⟩
  | .string specifier => do
    let id ← namedModule program place specifier
    addDeclaration id ⟨place.file, place.scope, .moduleDecl⟩
    inside place id true
  | .path segments => enterNamespaces place exported segments

/-- Whether every declaration among the statements is exported: in a module or namespace that only
describes what exists elsewhere, unless it says what it exports. -/
def exportsAll (place : Place) (body : List Statement) : Bool :=
  place.ambient && place.container.isSome && !body.any fun s ↦
    match s.decl with
    | .exportDecl _ | .exportAssignment .. => true
    | _ => false

/-- Declares the names of a statement, except those of namespaces and modules. -/
def declareOwn (place : Place) (exported isDefault : Bool) (decl : Decl) : Binder Unit := do
  match decl with
  | .classDecl c => declareMain place exported isDefault c.name (.classDecl c)
  | .interfaceDecl i => declareMain place exported isDefault (some i.name) (.interfaceDecl i)
  | .function name _ _ => declareMain place exported isDefault name .function
  | .aliasDecl a => discard (declare place exported a.name.text (.aliasDecl a))
  | .enumDecl name _ => discard (declare place exported name.text .enum)
  | .variable _ declarators =>
    declarators.forM fun d ↦ do
      if let some name := d.name then
        discard (declare place exported name.text (.variable d.type))
  | .importDecl decl => declareImport place decl
  | .importEquals name target =>
    let link : Link :=
      match target with
      | .require specifier => .require ⟨place.file, specifier⟩
      | .entity path => .entity path
    discard (declare place exported name (.link link))
  | .exportDecl decl =>
    if let some c := place.container then declareExport place c decl
  | .exportAssignment isEquals entity =>
    if let (some c, some path) := (place.container, entity) then
      if isEquals then
        changeSymbol c fun s ↦ { s with exportEquals := some (path, place.scope) }
      else exportLink place c "default" (.entity path)
  | .moduleDecl .. | .block _ | .other => return

/-- The place in a body: a scope of its own, in which nothing is exported. -/
def enterBody (place : Place) : Binder Place := do
  let scope ← newScope (← scopeChain place.scope) none
  return ⟨place.file, scope, none, false⟩

mutual

/-- Binds a statement and those inside it. With `all` set, its names are exported also without the
word. -/
def bindStatement (place : Place) (all : Bool) : Statement → Binder Unit
  | ⟨id, modifiers, decl, _⟩ => do
    modify fun b ↦
      { b with statementScopes := ((place.file, id), place.scope) :: b.statementScopes }
    let isDefault := modifiers.contains .default
    let exported := !isDefault && (all || modifiers.contains .exported)
    declareOwn place exported isDefault decl
    let ambient := place.ambient || modifiers.contains .ambient
    bindInside place ambient exported decl

def bindInside (place : Place) (ambient exported : Bool) : Decl → Binder Unit
  | .classDecl ⟨_, _, _, _, members⟩ => bindMembers place members
  | .function _ _ body => bindBody place body
  | .block body => do bindAll (← enterBody place) false body
  | .moduleDecl name body => do
    bindModule (← enterModule program { place with ambient := ambient } exported name) body
  | _ => return

/-- Binds the statements in the body of a namespace or module that may be missing. -/
def bindModule (place : Place) : Option (List Statement) → Binder Unit
  | none => return
  | some body => bindAll place (exportsAll place body) body

def bindBody (place : Place) : Option (List Statement) → Binder Unit
  | none => return
  | some body => do bindAll (← enterBody place) false body

def bindMembers (place : Place) : List ClassMember → Binder Unit
  | [] => return
  | ⟨_, kind, _⟩ :: rest => do
    bindMember place kind
    bindMembers place rest

def bindMember (place : Place) : ClassMemberKind → Binder Unit
  | .constructor _ body => bindBody place body
  | .method _ _ _ body => bindBody place body
  | .getter _ _ body => bindBody place body
  | .setter _ _ body => bindBody place body
  | .staticBlock body => do bindAll (← enterBody place) false body
  | .property .. => return
  | .index _ => return

def bindAll (place : Place) (all : Bool) : List Statement → Binder Unit
  | [] => return
  | s :: rest => do
    bindStatement place all s
    bindAll place all rest

end

def declareFile (unit : SourceUnit) (file : Nat) : Binder Unit := do
  let id ←
    if unit.tree.isModule then
      let id ← newSymbol unit.path.text none
      addDeclaration id ⟨file, Binding.globalScope, .moduleDecl⟩
      pure (some id)
    else pure none
  modify fun b ↦ { b with fileModules := b.fileModules.push id }

/-- Binds the statements of a file: those of a module in a scope of its own, all others in the
global one. -/
def bindFile (unit : SourceUnit) (file : Nat) : Binder Unit := do
  let global : Place := ⟨file, Binding.globalScope, none, unit.isDeclaration⟩
  let place ←
    match (← get).fileModules.getD file none with
    | some id => inside global id unit.isDeclaration
    | none => pure global
  bindAll program place (exportsAll place unit.tree.statements) unit.tree.statements

/-- Binds a program. The symbols of all files come first, so that a module can be added to from any
file. -/
def bindProgram : Binder Unit := do
  let _ ← newScope [] none
  let files := program.units.toList.zipIdx
  files.forM fun (unit, file) ↦ declareFile unit file
  files.forM fun (unit, file) ↦ bindFile program unit file

end Binder

def Binding.ofProgram (program : Program) : Binding :=
  ((Binder.bindProgram program).run ⟨#[], #[], #[], [], []⟩).2

end PluginSurface
