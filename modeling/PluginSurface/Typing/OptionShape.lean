import PluginSurface.Search
import PluginSurface.Typing.Resolve

/-!
# The options of a plugin

The options of a plugin are the first parameter of its first constructor. Its type gives the shape
of the options: a list of fields if its properties can be listed, and else its text.
-/

namespace PluginSurface

/-- The type of the options that a statement declares for a plugin of a kind, with the type
parameters that it is written under. -/
def Statement.optionType? (s : Statement) (kind : PluginKind) :
    Option (List TypeParam × TypeExpr) :=
  match kind, s.decl with
  | .classDecl, .classDecl decl => do
    let param ← (← decl.constructorParams?).head?
    return (decl.typeParams, ← param.type)
  | .constConstructible, .variable _ declarators => do
    let signature ← (← (← declarators.head?).type).constructSignature?
    return (signature.typeParams, ← (← signature.params.head?).type)
  | _, _ => none

namespace Checker

variable (c : Checker)

def shapeOf (t : Ty) : Shape :=
  if t.isStructured then .structured ((c.propertiesOf t).map fun p ↦ ⟨p.name, p.type.render⟩)
  else .scalar t.render

/-- The shape of the options of a plugin; none if no type is written for them. -/
def optionShape? (e : Entity) : Option Shape := do
  let unit ← c.program.units[e.file]?
  let statement ← unit.tree.statement? e.node
  let env ← c.envAt? e.file e.node
  let (typeParams, type) ← statement.optionType? e.kind
  return c.shapeOf (c.typeAt (env.bindTypeParams typeParams) type)

end Checker

end PluginSurface
