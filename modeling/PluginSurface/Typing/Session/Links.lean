import PluginSurface.Binding.Links
import PluginSurface.Typing.Session.Run

/-!
# Following links in runs

What a symbol stands for and what it exports are asked of each other without a bound. The rest of
following links and looking names up asks these two questions.
-/

namespace PluginSurface.Session

variable (c : Checker)

section

variable (ask : LinkQuery → Session (Option Nat))

def membersBy (id : Nat) : List String → Session (Option Nat)
  | [] => return some id
  | segment :: rest => do
    match ← ask (.member id segment) with
    | some next => membersBy next rest
    | none => return none

def entityBy (path : List String) (scope : Nat) (exclude : Option Nat) : Session (Option Nat) :=
  match path with
  | [] => return none
  | first :: rest =>
    match c.binding.lookup first scope exclude with
    | none => return none
    | some found => do
      match ← ask (.target found) with
      | some id => membersBy ask id rest
      | none => return none

def exportEqualsBy (module : Nat) : Session (Option Nat) :=
  match (c.binding.symbol module).exportEquals with
  | some (path, scope) => entityBy c ask path scope none
  | none => return none

def followBy (id : Nat) (link : Link) (scope : Nat) : Session (Option Nat) :=
  match link with
  | .member m name =>
    match c.moduleSymbol m with
    | none => return none
    | some module => do
      match ← ask (.member module name) with
      | some found => return some found
      | none => if name == "default" then exportEqualsBy c ask module else return none
  | .namespace m | .require m =>
    match c.moduleSymbol m with
    | none => return none
    | some module => return some ((← exportEqualsBy c ask module).getD module)
  | .entity path => entityBy c ask path scope (some id)

/-- The symbol that the one behind a link stands for. -/
def behindBy (id : Nat) (link : Link) (scope : Nat) : Session (Option Nat) := do
  match ← followBy c ask id link scope with
  | some next => ask (.target next)
  | none => return none

/-- The symbol that a symbol stands for. -/
def targetBy (id : Nat) : Session (Option Nat) :=
  match (c.binding.symbol id).link? with
  | none => return some id
  | some (link, scope) => do
    if id ∈ (← get).links then return none
    openLink id
    let found ← behindBy c ask id link scope
    closeLink
    return found

def exportBy (id : Nat) (name : String) : Session (Option Nat) :=
  let s := c.binding.symbol id
  if s.exportEquals.isSome then do
    match ← exportEqualsBy c ask id with
    | some whole => ask (.member whole name)
    | none => return none
  else match s.exports.lookup name with
    | some found => ask (.target found)
    | none =>
      if name == "default" then return none
      else s.starExports.findSomeM? fun m ↦
        match c.moduleSymbol m with
        | some module => ask (.member module name)
        | none => return none

/-- The export of what a symbol stands for. -/
def memberBy (id : Nat) (name : String) : Session (Option Nat) := do
  match ← ask (.target id) with
  | none => return none
  | some id =>
    if id ∈ (← get).askedFor then return none
    openModule id
    let found ← exportBy c ask id name
    closeModule
    return found

def linkBy : LinkQuery → Session (Option Nat)
  | .target id => targetBy c ask id
  | .member id name => memberBy c ask id name

end

/-! ## The more is answered, the more is found -/

section

variable {ask ask' : LinkQuery → Session (Option Nat)} (h : ∀ q, Below (ask q) (ask' q))

include h

theorem below_membersBy (id : Nat) (path : List String) :
    Below (membersBy ask id path) (membersBy ask' id path) := by
  induction path generalizing id with
  | nil => exact below_refl _
  | cons segment rest ih =>
      refine below_bind (h _) fun found ↦ ?_
      cases found with
      | none => exact below_refl _
      | some next => exact ih next

theorem below_entityBy (path : List String) (scope : Nat) (exclude : Option Nat) :
    Below (entityBy c ask path scope exclude) (entityBy c ask' path scope exclude) := by
  cases path with
  | nil => exact below_refl _
  | cons first rest =>
      rw [entityBy, entityBy]
      cases c.binding.lookup first scope exclude with
      | none => exact below_refl _
      | some found =>
          refine below_bind (h _) fun target ↦ ?_
          cases target with
          | none => exact below_refl _
          | some id => exact below_membersBy h id rest

theorem below_exportEqualsBy (module : Nat) :
    Below (exportEqualsBy c ask module) (exportEqualsBy c ask' module) := by
  rw [exportEqualsBy, exportEqualsBy]
  cases (c.binding.symbol module).exportEquals with
  | none => exact below_refl _
  | some whole => exact below_entityBy c h whole.1 whole.2 none

theorem below_followBy (id : Nat) (link : Link) (scope : Nat) :
    Below (followBy c ask id link scope) (followBy c ask' id link scope) := by
  cases link with
  | member m name =>
      rw [followBy, followBy]
      cases c.moduleSymbol m with
      | none => exact below_refl _
      | some module =>
          refine below_bind (h _) fun found ↦ ?_
          cases found with
          | some found => exact below_refl _
          | none =>
              dsimp only
              split
              · exact below_exportEqualsBy c h module
              · exact below_refl _
  | «namespace» m | require m =>
      rw [followBy, followBy]
      cases c.moduleSymbol m with
      | none => exact below_refl _
      | some module => exact below_map (below_exportEqualsBy c h module) _
  | entity path => exact below_entityBy c h path scope (some id)

theorem below_behindBy (id : Nat) (link : Link) (scope : Nat) :
    Below (behindBy c ask id link scope) (behindBy c ask' id link scope) := by
  refine below_bind (below_followBy c h id link scope) fun next ↦ ?_
  cases next with
  | none => exact below_refl _
  | some next => exact h _

theorem below_targetBy (id : Nat) : Below (targetBy c ask id) (targetBy c ask' id) := by
  rw [targetBy, targetBy]
  cases (c.binding.symbol id).link? with
  | none => exact below_refl _
  | some link =>
      refine below_bind (below_refl _) fun s ↦ ?_
      split
      · exact below_refl _
      · exact below_opened (below_behindBy c h id link.1 link.2) _ _ _

theorem below_exportBy (id : Nat) (name : String) :
    Below (exportBy c ask id name) (exportBy c ask' id name) := by
  rw [exportBy, exportBy]
  split
  · refine below_bind (below_exportEqualsBy c h id) fun whole ↦ ?_
    cases whole with
    | none => exact below_refl _
    | some whole => exact h _
  cases (c.binding.symbol id).exports.lookup name with
  | some found => exact h _
  | none =>
      dsimp only
      split
      · exact below_refl _
      · refine below_findSomeM? (fun m ↦ ?_) _
        cases c.moduleSymbol m with
        | none => exact below_refl _
        | some module => exact h _

theorem below_memberBy (id : Nat) (name : String) :
    Below (memberBy c ask id name) (memberBy c ask' id name) := by
  refine below_bind (h _) fun target ↦ ?_
  cases target with
  | none => exact below_refl _
  | some id =>
      refine below_bind (below_refl _) fun s ↦ ?_
      split
      · exact below_refl _
      · exact below_opened (below_exportBy c h id name) _ _ _

theorem below_linkBy (q : LinkQuery) : Below (linkBy c ask q) (linkBy c ask' q) := by
  cases q with
  | target id => exact below_targetBy c h id
  | member id name => exact below_memberBy c h id name

end

/-! ## Without a bound -/

def linkRecursion : Recursion Opened fun _ : LinkQuery ↦ Option Nat × Opened :=
  ⟨linkBy c, below_linkBy c⟩

def link : LinkQuery → Session (Option Nat) := (linkRecursion c).fix

theorem link_eq (q : LinkQuery) : link c q = linkBy c (link c) q := (linkRecursion c).fix_eq q

def target (id : Nat) : Session (Option Nat) := link c (.target id)

def member (id : Nat) (name : String) : Session (Option Nat) := link c (.member id name)

def members (id : Nat) (path : List String) : Session (Option Nat) := membersBy (link c) id path

def entity (path : List String) (scope : Nat) (exclude : Option Nat) : Session (Option Nat) :=
  entityBy c (link c) path scope exclude

end PluginSurface.Session
