import PluginSurface.Proofs.Session.Links
import PluginSurface.Proofs.Typing.Rules
import PluginSurface.Typing.Session.Types

/-!
# Resolving ends

Resolving a type opens aliases, variables, classes and interfaces. None is opened while it is on its
list, and in between a written type or a resolved one is gone through part by part. So every run
ends and leaves all lists as they were, and what it returns is what `Checker.typeAt` and
`Checker.propertiesOf` answer. Main statement: `Session.answer_after`.
-/

namespace PluginSurface

namespace Opened

/-- How many more aliases, variables, classes and interfaces can be opened. -/
def typeRoom (s : Opened) (c : Checker) : Nat :=
  unlisted c.binding.symbols.size s.types + unlisted c.binding.symbols.size s.heritage

def typeTrail (s : Opened) : TypeTrail := ⟨s.types, s.heritage⟩

/-- No link is being followed. -/
def Idle (s : Opened) : Prop := s.links = [] ∧ s.askedFor = []

theorem typeRoom_le (s : Opened) (c : Checker) : s.typeRoom c ≤ c.trailLimit := by
  have htypes := unlisted_le c.binding.symbols.size s.types
  have hheritage := unlisted_le c.binding.symbols.size s.heritage
  unfold typeRoom Checker.trailLimit
  omega

theorem typeRoom_openType_lt {s : Opened} {c : Checker} {id : Nat}
    (hid : id < c.binding.symbols.size) (hnew : id ∉ s.types) :
    Opened.typeRoom { s with types := id :: s.types } c < s.typeRoom c :=
  Nat.add_lt_add_right (unlisted_cons_lt hid hnew) _

theorem typeRoom_openHeritage_lt {s : Opened} {c : Checker} {id : Nat}
    (hid : id < c.binding.symbols.size) (hnew : id ∉ s.heritage) :
    Opened.typeRoom { s with heritage := id :: s.heritage } c < s.typeRoom c :=
  Nat.add_lt_add_left (unlisted_cons_lt hid hnew) _

end Opened

namespace Session

open Typing

variable {α β : Type} {c : Checker} {ask : TypeRules} {n : Nat} {s : Opened}

theorem returns_cons {exact : Prop} {f : α → Session β} {x : α} {rest : List α} {b : β}
    {bs : List β} (hx : Returns exact (f x) s b) (hrest : Returns exact (rest.mapM f) s bs) :
    Returns exact ((x :: rest).mapM f) s (b :: bs) := by
  rw [List.mapM_cons]
  exact returns_bind (g := fun b ↦ b :: bs) hx fun b ↦ returns_map hrest (b :: ·)

/-! ## Names -/

theorem linkTrail_eq (h : s.Idle) : s.linkTrail = ⟨[], []⟩ := by
  rw [Opened.linkTrail, h.1, h.2]

theorem returns_entity? (path : List String) (scope : Nat) :
    Returns s.Idle (entity c path scope none) s (c.entity? path scope) := by
  obtain ⟨found, hrun, heq⟩ :=
    returns_entity (answersLinks_links c) (lt_trailLimit_succ s c) path scope none
  refine ⟨found, hrun, fun h ↦ ?_⟩
  rw [heq trivial, linkTrail_eq h, Checker.entity?]

theorem returns_export? (path : List String) (module : Nat) :
    Returns s.Idle (members c module path) s (path.foldlM c.export? module) := by
  obtain ⟨found, hrun, heq⟩ :=
    returns_members (answersLinks_links c) (lt_trailLimit_succ s c) module path
  refine ⟨found, hrun, fun h ↦ ?_⟩
  rw [heq trivial, linkTrail_eq h]
  rfl

/-! ## What is asked -/

/-- The rules answer as the runs do that begin with less room than `n`. -/
structure AnswersTypes (c : Checker) (ask : TypeRules) (n : Nat) : Prop where
  typeAt : ∀ s : Opened, s.typeRoom c < n → ∀ env type,
    Returns s.Idle (typeAt c env type) s (ask.typeAt s.typeTrail env type)
  signatureAt : ∀ s : Opened, s.typeRoom c < n → ∀ env signature,
    Returns s.Idle ((types c).signatureAt env signature) s
      (ask.signatureAt s.typeTrail env signature)
  objectAt : ∀ s : Opened, s.typeRoom c < n → ∀ env members,
    Returns s.Idle ((types c).objectAt env members) s (ask.objectAt s.typeTrail env members)
  propertiesOf : ∀ s : Opened, s.typeRoom c < n → ∀ t,
    Returns s.Idle (propertiesOf c t) s (ask.propertiesOf s.typeTrail t)

theorem returns_instantiate (hask : AnswersTypes c ask n) (hs : s.typeRoom c < n) (env : TypeEnv)
    (params : List TypeParam) (args : List Ty) :
    Returns s.Idle ((types c).instantiate env params args) s
      (Typing.instantiate (ask.typeAt s.typeTrail) env params args) := by
  induction params generalizing env args with
  | nil =>
      rw [TypeRun.instantiate, Typing.instantiate]
      exact returns_pure env
  | cons p rest ih =>
      cases args with
      | cons arg args =>
          rw [TypeRun.instantiate, Typing.instantiate]
          exact ih _ _
      | nil =>
          rw [TypeRun.instantiate, Typing.instantiate]
          cases p.default with
          | none => exact ih _ _
          | some default =>
              exact returns_bind (g := fun t ↦
                Typing.instantiate (ask.typeAt s.typeTrail) (env.bind p.name t) rest [])
                (hask.typeAt s hs env default) fun t ↦ ih _ _

theorem returns_annotated (hask : AnswersTypes c ask n) (hs : s.typeRoom c < n) (env : TypeEnv)
    (type : Option TypeExpr) :
    Returns s.Idle ((types c).annotated env type) s
      (Typing.annotated ask s.typeTrail env type) := by
  cases type with
  | none =>
      rw [TypeRun.annotated, Typing.annotated]
      exact returns_pure Ty.any
  | some type =>
      rw [TypeRun.annotated, Typing.annotated]
      exact hask.typeAt s hs env type

/-! ## Properties -/

theorem returns_classMembers (hask : AnswersTypes c ask n) (hs : s.typeRoom c < n) (env : TypeEnv)
    (m : ClassMember) :
    Returns s.Idle ((types c).classMembers env m) s
      (Typing.classMembers ask s.typeTrail env m) := by
  have hannotated := returns_annotated hask hs env
  have hvisible {α : Type} {run : Session α} {v : α} (name : PropertyName)
      (member : α → Member) (h : Returns s.Idle run s v) :
      Returns s.Idle (if isHidden name = true then pure [] else do return [member (← run)]) s
        (if isHidden name = true then [] else [member v]) := by
    split
    · exact returns_pure []
    · exact returns_map h _
  rw [TypeRun.classMembers, Typing.classMembers]
  cases m.kind with
  | constructor params body =>
      exact returns_mapM _ fun p _ ↦ returns_map (hannotated p.type) _
  | property name optional type => exact hvisible name _ (hannotated type)
  | method name optional signature body =>
      exact hvisible name _ (hask.signatureAt s hs env signature)
  | getter name type body => exact hvisible name _ (hannotated type)
  | setter name param body => exact hvisible name _ (hannotated _)
  | index index => exact returns_pure []
  | staticBlock body => exact returns_pure []

theorem returns_addDeclaration (hask : AnswersTypes c ask n) (hs : s.typeRoom c < n)
    (args : List Ty) (found : List Property × List Ty) (d : Declaration) :
    Returns s.Idle ((types c).addDeclaration args found d) s
      (Typing.addDeclaration ask s.typeTrail args found d) := by
  have htypes (env : TypeEnv) (types : List TypeExpr) :
      Returns s.Idle (types.mapM (typeAt c env)) s (types.map (ask.typeAt s.typeTrail env)) :=
    returns_mapM types fun type _ ↦ hask.typeAt s hs env type
  obtain ⟨ps, bases⟩ := found
  rw [TypeRun.addDeclaration, Typing.addDeclaration]
  cases d.kind with
  | classDecl decl =>
      refine returns_bind (g := fun env ↦
        (((decl.members.filter (!·.isStatic)).flatMap
          (Typing.classMembers ask s.typeTrail env)).foldl Members.addMember ps,
          bases ++ decl.base.toList.map (ask.typeAt s.typeTrail env)))
        (returns_instantiate hask hs _ decl.typeParams args) fun env ↦ ?_
      rw [List.flatMap_def]
      refine returns_bind (g := fun members ↦ (members.flatten.foldl Members.addMember ps,
          bases ++ decl.base.toList.map (ask.typeAt s.typeTrail env)))
        (returns_mapM _ fun m _ ↦ returns_classMembers hask hs env m) fun members ↦ ?_
      exact returns_map (htypes env _) _
  | interfaceDecl decl =>
      refine returns_bind (g := fun env ↦
        ((ask.objectAt s.typeTrail env decl.members).properties.foldl Members.addNew ps,
          bases ++ decl.bases.map (ask.typeAt s.typeTrail env)))
        (returns_instantiate hask hs _ decl.typeParams args) fun env ↦ ?_
      refine returns_bind (g := fun object ↦ (object.properties.foldl Members.addNew ps,
          bases ++ decl.bases.map (ask.typeAt s.typeTrail env)))
        (hask.objectAt s hs env decl.members) fun object ↦ ?_
      exact returns_map (htypes env _) _
  | _ => exact returns_pure (ps, bases)

/-- The properties of a symbol while it is on its list. -/
theorem returns_collected (hask : AnswersTypes c ask n) (id : Nat) (args : List Ty)
    (hs : id < c.binding.symbols.size → s.typeRoom c < n) :
    Returns s.Idle ((types c).collected c id args) s
      ((((c.binding.symbol id).declarations.foldl
        (Typing.addDeclaration ask s.typeTrail args) ([], [])).2.flatMap
          (ask.propertiesOf s.typeTrail)).foldl Members.addNew
        ((c.binding.symbol id).declarations.foldl
          (Typing.addDeclaration ask s.typeTrail args) ([], [])).1) := by
  rw [TypeRun.collected]
  rcases lt_or_ge id c.binding.symbols.size with hid | hid
  · refine returns_bind (g := fun found ↦
        (found.2.flatMap (ask.propertiesOf s.typeTrail)).foldl Members.addNew found.1)
      (returns_foldlM _ (fun found d _ ↦ returns_addDeclaration hask (hs hid) args found d) _)
      fun found ↦ ?_
    rw [List.flatMap_def]
    exact returns_map (returns_mapM _ fun base _ ↦ hask.propertiesOf s (hs hid) base) _
  · rw [Binding.symbol_of_le hid]
    exact returns_pure []

theorem returns_declaredProperties (hask : AnswersTypes c ask n) (hs : s.typeRoom c ≤ n)
    (id : Nat) (args : List Ty) :
    Returns s.Idle ((types c).declaredProperties c id args) s
      (Typing.declaredProperties c ask s.typeTrail id args) := by
  rw [TypeRun.declaredProperties, Typing.declaredProperties]
  refine returns_get ?_
  change Returns _ _ s (if id ∈ s.heritage then [] else _)
  split
  case isTrue => exact returns_pure []
  case isFalse hnew =>
      have hcollected :=
        returns_collected (s := { s with heritage := id :: s.heritage }) hask id args
        fun hid ↦ (Opened.typeRoom_openHeritage_lt hid hnew).trans_le hs
      exact returns_opened (g := fun ps ↦ ps) rfl hcollected fun ps ↦ returns_pure ps

mutual

theorem returns_propertiesRule (hask : AnswersTypes c ask n) (hs : s.typeRoom c ≤ n) :
    ∀ t, Returns s.Idle (propertiesOf c t) s (propertiesRule c ask s.typeTrail t)
  | .object o => by
      rw [propertiesOf_eq, TypeRun.propertiesBy, propertiesRule]
      exact returns_pure o.properties
  | .aliased _ _ target => by
      rw [propertiesOf_eq, TypeRun.propertiesBy, propertiesRule]
      exact returns_propertiesRule hask hs target
  | .reference id _ args => by
      rw [propertiesOf_eq, TypeRun.propertiesBy, propertiesRule]
      exact returns_declaredProperties hask hs id args
  | .intersection members => by
      rw [propertiesOf_eq, TypeRun.propertiesBy, propertiesRule]
      exact returns_map (returns_propertiesRules hask hs members) meetProperties
  | .primitive _ | .literal _ | .union _ | .array .. | .tuple .. | .function _ | .param _
  | .named .. | .verbatim _ => by
      rw [propertiesOf_eq]
      simp only [TypeRun.propertiesBy, propertiesRule]
      exact returns_pure []

theorem returns_propertiesRules (hask : AnswersTypes c ask n) (hs : s.typeRoom c ≤ n) :
    ∀ ts : List Ty, Returns s.Idle (ts.mapM (propertiesOf c)) s
      (propertiesRules c ask s.typeTrail ts)
  | [] => returns_pure []
  | t :: rest => by
      rw [propertiesRules]
      exact returns_cons (returns_propertiesRule hask hs t) (returns_propertiesRules hask hs rest)

end

/-! ## Declared names -/

theorem returns_aliasType (hask : AnswersTypes c ask n) (hs : s.typeRoom c ≤ n) {id : Nat}
    (hid : id < c.binding.symbols.size) (d : Declaration) (decl : AliasDecl) (args : List Ty) :
    Returns s.Idle ((types c).aliasType c id d decl args) s
      (Typing.aliasType c ask s.typeTrail id d decl args) := by
  rw [TypeRun.aliasType, Typing.aliasType]
  refine returns_get ?_
  change Returns _ _ s (if id ∈ s.types then _ else _)
  split
  case isTrue => exact returns_pure (Ty.named _ args)
  case isFalse hnew =>
      have hroom := (Opened.typeRoom_openType_lt hid hnew).trans_le hs
      have htarget :
          Returns s.Idle ((types c).aliasTarget d decl args) { s with types := id :: s.types }
          (ask.typeAt ⟨id :: s.types, s.heritage⟩ (Typing.instantiate
            (ask.typeAt ⟨id :: s.types, s.heritage⟩) (declarationEnv d) decl.typeParams args)
            decl.type) := by
        exact returns_bind (g := fun env ↦ ask.typeAt ⟨id :: s.types, s.heritage⟩ env
          decl.type) (returns_instantiate hask hroom _ decl.typeParams args)
          fun env ↦ hask.typeAt _ hroom env decl.type
      exact returns_opened rfl htarget fun target ↦ returns_pure _

theorem lt_of_findSome? {κ : Type} {find : Declaration → Option κ} {id : Nat} {found : κ}
    (h : (c.binding.symbol id).declarations.findSome? find = some found) :
    id < c.binding.symbols.size := by
  obtain ⟨d, hd, _⟩ := List.exists_of_findSome?_eq_some h
  exact Binding.lt_of_mem_declarations hd

theorem returns_declaredType (hask : AnswersTypes c ask n) (hs : s.typeRoom c ≤ n) (id : Nat)
    (args : List Ty) :
    Returns s.Idle ((types c).declaredType c id args) s
      (Typing.declaredType c ask s.typeTrail id args) := by
  rw [TypeRun.declaredType, Typing.declaredType]
  split
  · exact returns_pure _
  split
  · exact returns_pure _
  cases halias : (c.binding.symbol id).declarations.findSome? aliasDecl? with
  | none => exact returns_pure _
  | some found => exact returns_aliasType hask hs (lt_of_findSome? halias) found.1 found.2 args

theorem returns_variableType (hask : AnswersTypes c ask n) (hs : s.typeRoom c ≤ n) {id : Nat}
    (hid : id < c.binding.symbols.size) (d : Declaration) (type : TypeExpr) :
    Returns s.Idle ((types c).variableType c id d type) s
      (if id ∈ s.types then .verbatim ("typeof " ++ c.binding.qualifiedName id)
        else ask.typeAt ⟨id :: s.types, s.heritage⟩ (declarationEnv d) type) := by
  refine returns_get ?_
  split
  case isTrue => exact returns_pure _
  case isFalse hnew =>
      have hroom := (Opened.typeRoom_openType_lt hid hnew).trans_le hs
      exact returns_opened rfl (hask.typeAt { s with types := id :: s.types } hroom _ type)
        fun t ↦ returns_pure t

theorem queryType_eq (trail : TypeTrail) (path : List String) (env : TypeEnv) :
    Typing.queryType c ask trail path env =
      (c.entity? path env.scope).elim (.verbatim ("typeof " ++ dotted path)) fun id ↦
        ((c.binding.symbol id).declarations.findSome? variableType?).elim
          (.verbatim ("typeof " ++ c.binding.qualifiedName id)) fun found ↦
            if id ∈ trail.types then .verbatim ("typeof " ++ c.binding.qualifiedName id)
            else ask.typeAt ⟨id :: trail.types, trail.heritage⟩
              (declarationEnv found.1) found.2 := by
  rw [Typing.queryType]
  cases c.entity? path env.scope with
  | none => rfl
  | some id =>
      dsimp only [Option.elim_some]
      cases (c.binding.symbol id).declarations.findSome? variableType? <;> rfl

theorem returns_queryType (hask : AnswersTypes c ask n) (hs : s.typeRoom c ≤ n)
    (path : List String) (env : TypeEnv) :
    Returns s.Idle ((types c).queryType c path env) s
      (Typing.queryType c ask s.typeTrail path env) := by
  rw [queryType_eq]
  refine returns_bind_elim (returns_entity? path env.scope) (returns_pure _) fun id ↦ ?_
  dsimp only
  cases hvariable : (c.binding.symbol id).declarations.findSome? variableType? with
  | none => exact returns_pure _
  | some found => exact returns_variableType hask hs (lt_of_findSome? hvariable) found.1 found.2

/-! ## Types -/

theorem namedType_eq (trail : TypeTrail) (path : List String) (ts : List Ty) (env : TypeEnv) :
    namedType c ask trail path ts env =
      (c.entity? path env.scope).elim (undeclared (dotted path) ts) fun id ↦
        Typing.declaredType c ask trail id ts := by
  rw [namedType]
  cases c.entity? path env.scope <;> rfl

theorem returns_namedType (hask : AnswersTypes c ask n) (hs : s.typeRoom c ≤ n)
    (path : List String) {env : TypeEnv} {args : List TypeExpr} {ts : List Ty}
    (hargs : Returns s.Idle (args.mapM (typeAt c env)) s ts) :
    Returns s.Idle ((types c).namedType c path args env) s
      (namedType c ask s.typeTrail path ts env) := by
  refine returns_bind (g := fun ts ↦ namedType c ask s.typeTrail path ts env) hargs fun ts ↦ ?_
  rw [namedType_eq]
  exact returns_bind_elim (returns_entity? path env.scope) (returns_pure _)
    fun id ↦ returns_declaredType hask hs id ts

theorem returns_importedType (hask : AnswersTypes c ask n) (hs : s.typeRoom c ≤ n)
    (specifier : String) (path : List String) (kept : Ty) {env : TypeEnv} {args : List TypeExpr}
    {ts : List Ty} (hargs : Returns s.Idle (args.mapM (typeAt c env)) s ts) :
    Returns s.Idle ((types c).importedType c specifier path args kept env) s
      (match importedSymbol? c env specifier path with
        | some id => Typing.declaredType c ask s.typeTrail id ts
        | none => kept) := by
  rw [importedSymbol?, TypeRun.importedType]
  cases c.moduleSymbol ⟨env.file, specifier⟩ with
  | none => exact returns_pure kept
  | some module =>
      refine returns_bind (g := fun found ↦ match found with
        | some id => Typing.declaredType c ask s.typeTrail id ts
        | none => kept) (returns_export? path module) fun found ↦ ?_
      cases found with
      | none => exact returns_pure kept
      | some id =>
          exact returns_bind (g := fun ts ↦ Typing.declaredType c ask s.typeTrail id ts) hargs
            fun ts ↦ returns_declaredType hask hs id ts

theorem returns_indexedType (hask : AnswersTypes c ask n) (hs : s.typeRoom c ≤ n)
    (object index : Ty) : Returns s.Idle ((types c).indexedType object index) s
      (indexedType c ask s.typeTrail object index) := by
  rw [TypeRun.indexedType, indexedType]
  cases index.unaliased with
  | literal value =>
      cases value with
      | string key =>
          dsimp only
          have hproperty := returns_map (returns_propertiesRule hask hs object) fun ps ↦
            ((ps.find? (·.name == key)).map (·.type)).getD
              (.verbatim (object.renderOperand ++ "[" ++ index.render ++ "]"))
          cases hfind : (propertiesRule c ask s.typeTrail object).find? (·.name == key) with
          | none =>
              rw [hfind] at hproperty
              exact hproperty
          | some p =>
              rw [hfind] at hproperty
              exact hproperty
      | _ => exact returns_pure _
  | _ => exact returns_pure _

theorem returns_conditional {checkRun boundRun yesRun noRun : Session Ty} {check bound yes no : Ty}
    {exact : Prop} (hcheck : Returns exact checkRun s check)
    (hbound : Returns exact boundRun s bound)
    (hyes : Returns exact yesRun s yes) (hno : Returns exact noRun s no) :
    Returns exact (do
      let check ← checkRun
      let bound ← boundRun
      let yes ← yesRun
      let no ← noRun
      return Ty.verbatim (check.render ++ " extends " ++ bound.render ++ " ? " ++ yes.render ++
        " : " ++ no.render)) s
      (.verbatim (check.render ++ " extends " ++ bound.render ++ " ? " ++ yes.render ++ " : " ++
        no.render)) := by
  let text (check bound yes no : Ty) : Ty := .verbatim (check.render ++ " extends " ++
    bound.render ++ " ? " ++ yes.render ++ " : " ++ no.render)
  refine returns_bind (g := (text · bound yes no)) hcheck fun check ↦ ?_
  refine returns_bind (g := (text check · yes no)) hbound fun bound ↦ ?_
  refine returns_bind (g := (text check bound · no)) hyes fun yes ↦ ?_
  exact returns_map hno (text check bound yes)

theorem returns_mapped (readonly : Option MappedModifier) (key : String)
    {boundRun valueRun : Session Ty} {renameRun : Session (Option Ty)} {bound value : Ty}
    {rename : Option Ty} {exact : Prop} (hbound : Returns exact boundRun s bound)
    (hrename : Returns exact renameRun s rename) (optional : Option MappedModifier)
    (hvalue : Returns exact valueRun s value) :
    Returns exact (do
      let bound ← boundRun
      let rename ← renameRun
      let value ← valueRun
      return mapped readonly key bound.render (rename.map Ty.render) optional value.render) s
      (mapped readonly key bound.render (rename.map Ty.render) optional value.render) := by
  let text (bound : Ty) (rename : Option Ty) (value : Ty) : Ty :=
    mapped readonly key bound.render (rename.map Ty.render) optional value.render
  refine returns_bind (g := (text · rename value)) hbound fun bound ↦ ?_
  refine returns_bind (g := (text bound · value)) hrename fun rename ↦ ?_
  exact returns_map hvalue (text bound rename)

mutual

theorem returns_typeRule (hask : AnswersTypes c ask n) (hs : s.typeRoom c ≤ n) (env : TypeEnv) :
    ∀ type, Returns s.Idle (typeAt c env type) s (typeRule c ask s.typeTrail env type)
  | .keyword word => by
      rw [typeAt_eq, TypeRun.typeBy, typeRule]
      exact returns_pure _
  | .this => by
      rw [typeAt_eq, TypeRun.typeBy, typeRule]
      exact returns_pure _
  | .literal value => by
      rw [typeAt_eq, TypeRun.typeBy, typeRule]
      exact returns_pure _
  | .reference path args => by
      rw [typeAt_eq, TypeRun.typeBy, typeRule]
      cases boundType? path env with
      | some t => exact returns_pure t
      | none => exact returns_namedType hask hs path (returns_typeRules hask hs env args)
  | .union members => by
      rw [typeAt_eq, TypeRun.typeBy, typeRule]
      exact returns_map (returns_typeRules hask hs env members) _
  | .intersection members => by
      rw [typeAt_eq, TypeRun.typeBy, typeRule]
      exact returns_map (returns_typeRules hask hs env members) Ty.meet
  | .array element => by
      rw [typeAt_eq, TypeRun.typeBy, typeRule]
      exact returns_map (returns_typeRule hask hs env element) (Ty.array · false)
  | .tuple elements => by
      rw [typeAt_eq, TypeRun.typeBy, typeRule]
      exact returns_map (returns_itemRules hask hs env elements) (Ty.tuple · false)
  | .function isConstructor isAbstract signature => by
      rw [typeAt_eq, TypeRun.typeBy, typeRule]
      exact returns_map (returns_signatureRule hask hs env signature) _
  | .members members => by
      rw [typeAt_eq, TypeRun.typeBy, typeRule]
      exact returns_map (returns_map (returns_memberRules hask hs env members) Members.toObject)
        Ty.object
  | .query path _ => by
      rw [typeAt_eq, TypeRun.typeBy, typeRule]
      exact returns_queryType hask hs path env
  | .operator op operand => by
      rw [typeAt_eq, TypeRun.typeBy, typeRule]
      exact returns_map (returns_typeRule hask hs env operand) (operate op)
  | .indexed object index => by
      rw [typeAt_eq, TypeRun.typeBy, typeRule]
      refine returns_bind (g := fun object ↦ indexedType c ask s.typeTrail object _)
        (returns_typeRule hask hs env object) fun object ↦ ?_
      exact returns_bind (returns_typeRule hask hs env index) (returns_indexedType hask hs object)
  | .imported isTypeof specifier path args => by
      rw [typeAt_eq, TypeRun.typeBy, typeRule]
      split
      · exact returns_pure _
      · exact returns_importedType hask hs specifier path _ (returns_typeRules hask hs env args)
  | .conditional check bound yes no => by
      rw [typeAt_eq, TypeRun.typeBy, typeRule]
      exact returns_conditional (returns_typeRule hask hs env check)
        (returns_typeRule hask hs (env.bindNames bound.inferNames) bound)
        (returns_typeRule hask hs (env.bindNames bound.inferNames) yes)
        (returns_typeRule hask hs env no)
  | .infer name none => by
      rw [typeAt_eq, TypeRun.typeBy, typeRule]
      exact returns_pure _
  | .infer name (some bound) => by
      rw [typeAt_eq, TypeRun.typeBy, typeRule]
      exact returns_map (returns_typeRule hask hs env bound) _
  | .mapped readonly key bound rename optional value => by
      have hvalue := returns_optionalTypeRule hask hs (env.bindNames [key]) value
      cases rename with
      | none =>
          rw [typeAt_eq, TypeRun.typeBy, typeRule]
          exact returns_mapped readonly key (returns_typeRule hask hs env bound)
            (returns_pure none) optional hvalue
      | some rename =>
          rw [typeAt_eq, TypeRun.typeBy, typeRule]
          exact returns_mapped readonly key (returns_typeRule hask hs env bound)
            (returns_map (returns_typeRule hask hs (env.bindNames [key]) rename) some)
              optional hvalue
  | .template raw => by
      rw [typeAt_eq, TypeRun.typeBy, typeRule]
      exact returns_pure _
  | .predicate asserts param none => by
      rw [typeAt_eq, TypeRun.typeBy, typeRule]
      exact returns_pure _
  | .predicate asserts param (some type) => by
      rw [typeAt_eq, TypeRun.typeBy, typeRule]
      exact returns_map (returns_typeRule hask hs env type) _

theorem returns_optionalTypeRule (hask : AnswersTypes c ask n) (hs : s.typeRoom c ≤ n)
    (env : TypeEnv) :
    ∀ type, Returns s.Idle ((types c).annotated env type) s (typeRule? c ask s.typeTrail env type)
  | none => by
      rw [TypeRun.annotated, typeRule?]
      exact returns_pure _
  | some type => by
      rw [TypeRun.annotated, typeRule?]
      exact returns_typeRule hask hs env type

theorem returns_typeRules (hask : AnswersTypes c ask n) (hs : s.typeRoom c ≤ n) (env : TypeEnv) :
    ∀ types : List TypeExpr,
      Returns s.Idle (types.mapM (typeAt c env)) s (typeRules c ask s.typeTrail env types)
  | [] => by
      rw [typeRules]
      exact returns_pure []
  | type :: rest => by
      rw [typeRules]
      exact returns_cons (returns_typeRule hask hs env type) (returns_typeRules hask hs env rest)

theorem returns_itemRules (hask : AnswersTypes c ask n) (hs : s.typeRoom c ≤ n) (env : TypeEnv) :
    ∀ elements : List TupleElement,
      Returns s.Idle (elements.mapM fun e ↦ do
        return (⟨e.label, e.optional, e.rest, ← typeAt c env e.type⟩ : TupleItem)) s
        (itemRules c ask s.typeTrail env elements)
  | [] => by
      rw [itemRules]
      exact returns_pure []
  | ⟨label, optional, isRest, type⟩ :: rest => by
      rw [itemRules]
      exact returns_cons (returns_map (returns_typeRule hask hs env type) _)
        (returns_itemRules hask hs env rest)

theorem returns_paramRules (hask : AnswersTypes c ask n) (hs : s.typeRoom c ≤ n) (env : TypeEnv) :
    ∀ params : List Param,
      Returns s.Idle (params.mapM fun p ↦ do
        return (⟨p.name, p.optional, p.rest, ← (types c).annotated env p.type⟩ : ParamTy)) s
        (paramRules c ask s.typeTrail env params)
  | [] => by
      rw [paramRules]
      exact returns_pure []
  | ⟨name, _, optional, isRest, type⟩ :: rest => by
      rw [paramRules]
      exact returns_cons (returns_map (returns_optionalTypeRule hask hs env type) _)
        (returns_paramRules hask hs env rest)

theorem returns_signatureRule (hask : AnswersTypes c ask n) (hs : s.typeRoom c ≤ n)
    (env : TypeEnv) :
    ∀ signature, Returns s.Idle ((types c).signatureAt env signature) s
      (signatureRule c ask s.typeTrail env signature)
  | ⟨typeParams, params, result⟩ => by
      rw [TypeRun.signatureAt, signatureRule]
      refine returns_bind (g := fun params ↦ FunctionTy.mk false false
        (renderTypeParams typeParams) params
        (typeRule? c ask s.typeTrail (env.bindTypeParams typeParams) result))
        (returns_paramRules hask hs (env.bindTypeParams typeParams) params) fun params ↦ ?_
      exact returns_map
        (returns_optionalTypeRule hask hs (env.bindTypeParams typeParams) result) _

theorem returns_memberRules (hask : AnswersTypes c ask n) (hs : s.typeRoom c ≤ n)
    (env : TypeEnv) :
    ∀ members : List TypeMember,
      Returns s.Idle (members.mapM ((types c).memberAt env)) s
        (memberRules c ask s.typeTrail env members)
  | [] => by
      rw [memberRules]
      exact returns_pure []
  | member :: rest => by
      rw [memberRules]
      exact returns_cons (returns_memberRule hask hs env member)
        (returns_memberRules hask hs env rest)

theorem returns_memberRule (hask : AnswersTypes c ask n) (hs : s.typeRoom c ≤ n) (env : TypeEnv) :
    ∀ member, Returns s.Idle ((types c).memberAt env member) s
      (memberRule c ask s.typeTrail env member)
  | .property name optional readonly type => by
      rw [TypeRun.memberAt, memberRule]
      exact returns_map (returns_optionalTypeRule hask hs env type) _
  | .method name optional signature => by
      rw [TypeRun.memberAt, memberRule]
      exact returns_map (returns_signatureRule hask hs env signature) _
  | .call signature => by
      rw [TypeRun.memberAt, memberRule]
      exact returns_map (returns_signatureRule hask hs env signature) _
  | .construct signature => by
      rw [TypeRun.memberAt, memberRule]
      exact returns_map (returns_signatureRule hask hs env signature) _
  | .index ⟨readonly, keyName, key, value⟩ => by
      rw [TypeRun.memberAt, memberRule]
      refine returns_bind (g := fun key ↦
        Member.index ⟨keyName, key, typeRule? c ask s.typeTrail env value, readonly⟩)
        (returns_typeRule hask hs env key) fun key ↦ ?_
      exact returns_map (returns_optionalTypeRule hask hs env value) _
  | .getter name type => by
      rw [TypeRun.memberAt, memberRule]
      exact returns_map (returns_optionalTypeRule hask hs env type) _
  | .setter name param => by
      rw [TypeRun.memberAt, memberRule]
      exact returns_map (returns_paramTypeRule hask hs env param) _

theorem returns_paramTypeRule (hask : AnswersTypes c ask n) (hs : s.typeRoom c ≤ n)
    (env : TypeEnv) :
    ∀ param : Option Param, Returns s.Idle ((types c).annotated env (param.bind (·.type))) s
      (paramTypeRule c ask s.typeTrail env param)
  | some ⟨_, _, _, _, some type⟩ => by
      rw [paramTypeRule, Option.bind_some, TypeRun.annotated]
      exact returns_typeRule hask hs env type
  | some ⟨_, _, _, _, none⟩ => by
      rw [Option.bind_some, TypeRun.annotated]
      simp only [paramTypeRule]
      exact returns_pure _
  | none => by
      rw [Option.bind_none, TypeRun.annotated]
      simp only [paramTypeRule]
      exact returns_pure _

end

/-! ## All questions -/

theorem returns_objectRule (hask : AnswersTypes c ask n) (hs : s.typeRoom c ≤ n) (env : TypeEnv)
    (members : List TypeMember) : Returns s.Idle ((types c).objectAt env members) s
      (Members.toObject (memberRules c ask s.typeTrail env members)) := by
  exact returns_map (returns_memberRules hask hs env members) Members.toObject

theorem rulesWithin_eq (n : Nat) : rulesWithin c (n + 1) = rules c (rulesWithin c n) := by
  cases n <;> rfl

theorem answersTypes_rules (hask : AnswersTypes c ask n) :
    AnswersTypes c (rules c ask) (n + 1) where
  typeAt _ hs env type := returns_typeRule hask (Nat.le_of_lt_succ hs) env type
  signatureAt _ hs env signature := returns_signatureRule hask (Nat.le_of_lt_succ hs) env signature
  objectAt _ hs env members := returns_objectRule hask (Nat.le_of_lt_succ hs) env members
  propertiesOf _ hs t := returns_propertiesRule hask (Nat.le_of_lt_succ hs) t

/-- With as many levels as there is room, the rules answer what the runs return. -/
theorem answersTypes_within (c : Checker) (n : Nat) : AnswersTypes c (rulesWithin c n) (n + 1) := by
  induction n with
  | zero =>
      refine answersTypes_rules ⟨?_, ?_, ?_, ?_⟩
      all_goals exact fun _ hs ↦ absurd hs (Nat.not_lt_zero _)
  | succ n ih =>
      rw [rulesWithin_eq]
      exact answersTypes_rules ih

theorem returns_answer (s : Opened) (q : TypeQuery) :
    Returns (s = .nothing) (answer c q) s (c.answer q) := by
  have hask := answersTypes_within c c.trailLimit
  have hs := Nat.lt_succ_of_le (s.typeRoom_le c)
  have hidle (h : s = .nothing) : s.Idle := by
    rw [h]
    exact ⟨rfl, rfl⟩
  cases q with
  | typeAt env type =>
      obtain ⟨a, ha, hv⟩ := returns_map (hask.typeAt s hs env type) TypeAnswer.type
      refine ⟨a, ha, fun h ↦ ?_⟩
      rw [hv (hidle h), h]
      rfl
  | propertiesOf t =>
      obtain ⟨a, ha, hv⟩ := returns_map (hask.propertiesOf s hs t) TypeAnswer.properties
      refine ⟨a, ha, fun h ↦ ?_⟩
      rw [hv (hidle h), h]
      rfl

/-- Whatever is open, following links, looking names up and resolving types end and leave the four
lists as they were. An answer does not depend on the questions before it; with nothing open it is
that of the checker. -/
theorem answer_after (c : Checker) (s : Opened) (before : List TypeQuery) (q : TypeQuery) :
    (∀ id, ∃ found, target c id s = some (found, s)) ∧
    (∀ id name, ∃ found, member c id name s = some (found, s)) ∧
    (∀ path scope exclude, ∃ found, entity c path scope exclude s = some (found, s)) ∧
    (∃ a, answer c q s = some (a, s)) ∧
    (do let _ ← before.mapM (answer c); answer c q) s = answer c q s ∧
    answer c q .nothing = some (c.answer q, .nothing) := by
  have hlinks := answersLinks_links c
  have hroom := lt_trailLimit_succ s c
  have hfound {m : Session (Option Nat)} {v : Option Nat} (h : Returns True m s v) :
      ∃ found, m s = some (found, s) := h.imp fun _ h ↦ h.1
  refine ⟨fun id ↦ hfound (hlinks.target s hroom id),
    fun id name ↦ hfound (hlinks.member s hroom id name),
    fun path scope exclude ↦ hfound (returns_entity hlinks hroom path scope exclude),
    (returns_answer s q).imp fun _ h ↦ h.1, ?_, ?_⟩
  · obtain ⟨_, hrun, _⟩ := returns_mapM (s := s) before fun p _ ↦ returns_answer (c := c) s p
    change (before.mapM (answer c) s).bind (fun p ↦ answer c q p.2) = _
    rw [hrun]
    rfl
  · obtain ⟨a, ha, hv⟩ := returns_answer (c := c) .nothing q
    rw [ha, hv rfl]

end Session

end PluginSurface
