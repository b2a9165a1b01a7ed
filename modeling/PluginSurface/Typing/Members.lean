import PluginSurface.Ty.Canonical

/-!
# Collecting members

Members with resolved types are collected into a list of properties in which each name stands once.
The first declaration of a name counts, except that further signatures of a method are added to it
and that accessors for one name go together.
-/

namespace PluginSurface

/-- A member whose types are resolved. -/
inductive Member where
  | property (name : String) (optional readonly : Bool) (type : Ty)
  | method (name : String) (optional : Bool) (f : FunctionTy)
  | call (f : FunctionTy)
  | construct (f : FunctionTy)
  | index (i : IndexTy)
  | getter (name : String) (type : Ty)
  | setter (name : String) (type : Ty)

namespace Property

/-- The property with one more signature; one that is no method stays as it is. -/
def overload (p : Property) (f : FunctionTy) : Property :=
  if p.isMethod then
    match p.type with
    | .function first => { p with type := .object { ObjectTy.empty with calls := [first, f] } }
    | .object o => { p with type := .object { ObjectTy.empty with calls := o.calls ++ [f] } }
    | _ => p
  else p

/-- The property with a getter beside it, which fixes its type. It can be written. -/
def withGetter (type : Ty) (p : Property) : Property := { p with type := type, readonly := false }

/-- The property with a setter beside it. It can be written. -/
def withSetter (p : Property) : Property := { p with readonly := false }

/-- The property of an intersection in which two types have a property of this name. -/
def meet (q p : Property) : Property :=
  { p with type := Ty.meet [p.type, q.type], optional := p.optional && q.optional }

end Property

namespace Members

def has (name : String) (ps : List Property) : Bool := ps.any (·.name == name)

/-- Changes the property of a name if there is one, and else adds a property. -/
def change (f : Property → Property) (new : Property) (ps : List Property) : List Property :=
  if has new.name ps then ps.map fun p ↦ if p.name == new.name then f p else p
  else ps ++ [new]

def addNew (ps : List Property) (p : Property) : List Property := change id p ps

def addMeet (ps : List Property) (p : Property) : List Property := change p.meet p ps

def addMember (ps : List Property) : Member → List Property
  | .property name optional readonly type => addNew ps ⟨name, optional, readonly, false, type⟩
  | .method name optional f =>
      change (·.overload f) ⟨name, optional, false, true, .function f⟩ ps
  | .getter name type => change (.withGetter type) ⟨name, false, true, false, type⟩ ps
  | .setter name type => change .withSetter ⟨name, false, false, false, type⟩ ps
  | .call _ | .construct _ | .index _ => ps

def call? : Member → Option FunctionTy
  | .call f => some f
  | _ => none

/-- The signature by which an object with this member is constructed. -/
def construct? : Member → Option FunctionTy
  | .construct f => some f
  | _ => none

def index? : Member → Option IndexTy
  | .index i => some i
  | _ => none

def toObject (ms : List Member) : ObjectTy :=
  ⟨ms.foldl addMember [], ms.filterMap call?, ms.filterMap construct?, ms.filterMap index?⟩

end Members

end PluginSurface
