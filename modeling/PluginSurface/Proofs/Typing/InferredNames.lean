import PluginSurface.Proofs.Syntax.Parts
import PluginSurface.Proofs.Typing.Congruence
import PluginSurface.Proofs.Typing.Placeholders

/-!
# Inferred names are hygienic

An `infer` in the bound of a conditional type introduces a name for the bound and the first branch.
There the name stands for itself, whatever it is bound to outside: in every reference to it, however
deep in the branch. This holds of the names at the places that are searched for them. A name that is
introduced at another place only, as in an index signature, means in the branch what it means
outside.
-/

namespace PluginSurface

/-! ## Introducing a name -/

/-- The types in a signature in which inferred names are searched for. -/
def Signature.inferParts (s : Signature) : List TypeExpr :=
  s.params.flatMap Param.types ++ s.result.toList

/-- The types in a member in which inferred names are searched for. -/
def TypeMember.inferParts : TypeMember → List TypeExpr
  | .property _ _ _ type | .getter _ type => type.toList
  | .method _ _ signature | .call signature | .construct signature => signature.inferParts
  | .index _ | .setter .. => []

namespace TypeExpr

/-- The types directly inside a type whose inferred names belong to the conditional type around it.
Those inside a conditional type belong to that one. -/
def openParts : TypeExpr → List TypeExpr
  | .conditional .. => []
  | t => t.parts .all

/-- The types directly inside a type in which inferred names are searched for. -/
def inferParts : TypeExpr → List TypeExpr
  | .function _ _ signature => signature.inferParts
  | .members ms => ms.flatMap TypeMember.inferParts
  | .conditional .. | .mapped .. | .imported .. | .predicate .. => []
  | t => t.parts .all

/-- An `infer` introduces the name in the type, in one of the given parts or further inside. -/
inductive Introduces (parts : TypeExpr → List TypeExpr) (name : String) : TypeExpr → Prop
  | infer {bound : Option TypeExpr} : Introduces parts name (.infer name bound)
  | part {t part : TypeExpr} (hpart : part ∈ parts t) (h : Introduces parts name part) :
    Introduces parts name t

end TypeExpr

/-! ## Searching for names -/

theorem inferNamesOfTypes_eq (types : List TypeExpr) :
    inferNamesOfTypes types = types.flatMap TypeExpr.inferNames := by
  induction types with
  | nil => rfl
  | cons type rest ih => rw [inferNamesOfTypes, ih, List.flatMap_cons]

theorem inferNamesOfType?_eq (type : Option TypeExpr) :
    inferNamesOfType? type = type.toList.flatMap TypeExpr.inferNames := by
  cases type <;> simp [inferNamesOfType?]

theorem inferNamesOfElements_eq (elements : List TupleElement) :
    inferNamesOfElements elements = (elements.map (·.type)).flatMap TypeExpr.inferNames := by
  induction elements with
  | nil => rfl
  | cons element rest ih =>
      obtain ⟨_, _, _, type⟩ := element
      rw [inferNamesOfElements, ih, List.map_cons, List.flatMap_cons]

theorem inferNamesOfParams_eq (params : List Param) :
    inferNamesOfParams params = (params.flatMap Param.types).flatMap TypeExpr.inferNames := by
  induction params with
  | nil => rfl
  | cons p rest ih =>
      obtain ⟨_, _, _, _, type⟩ := p
      rw [inferNamesOfParams, ih, inferNamesOfType?_eq, List.flatMap_cons, List.flatMap_append,
        Param.types]

theorem Signature.inferNames_eq (s : Signature) :
    s.inferNames = s.inferParts.flatMap TypeExpr.inferNames := by
  obtain ⟨typeParams, params, result⟩ := s
  rw [Signature.inferNames, inferNamesOfParams_eq, inferNamesOfType?_eq, Signature.inferParts,
    List.flatMap_append]

theorem TypeMember.inferNames_eq (m : TypeMember) :
    m.inferNames = m.inferParts.flatMap TypeExpr.inferNames := by
  cases m with
  | property name optional readonly type | getter name type => exact inferNamesOfType?_eq type
  | method name optional signature | call signature | construct signature =>
      exact signature.inferNames_eq
  | index | setter => rfl

theorem inferNamesOfMembers_eq (members : List TypeMember) :
    inferNamesOfMembers members =
      (members.flatMap TypeMember.inferParts).flatMap TypeExpr.inferNames := by
  induction members with
  | nil => rfl
  | cons m rest ih =>
      rw [inferNamesOfMembers, ih, m.inferNames_eq, List.flatMap_cons, List.flatMap_append]

theorem Signature.inferParts_subset (s : Signature) : s.inferParts ⊆ s.types := by
  intro t ht
  unfold Signature.types
  rcases List.mem_append.mp ht with h | h
  · exact List.mem_append_left _ (List.mem_append_left _ h)
  · exact List.mem_append_right _ h

theorem TypeMember.inferParts_subset (m : TypeMember) : m.inferParts ⊆ m.types .all := by
  cases m with
  | property | getter => exact fun _ ↦ id
  | method name optional signature | call signature | construct signature =>
      exact signature.inferParts_subset
  | index | setter => exact List.nil_subset _

namespace TypeExpr

/-- The name that a type introduces itself. -/
def ownName : TypeExpr → List String
  | .infer name _ => [name]
  | _ => []

theorem inferNames_eq (t : TypeExpr) :
    t.inferNames = t.ownName ++ t.inferParts.flatMap inferNames := by
  cases t with
  | reference path args | query path args | union members | intersection members =>
      rw [inferNames, inferNamesOfTypes_eq]
      rfl
  | tuple elements => rw [inferNames, inferNamesOfElements_eq]; rfl
  | function isConstructor isAbstract signature => rw [inferNames, signature.inferNames_eq]; rfl
  | members members => rw [inferNames, inferNamesOfMembers_eq]; rfl
  | infer name bound => rw [inferNames, inferNamesOfType?_eq]; rfl
  | array | operator | indexed | conditional | mapped | imported | predicate | keyword | this
  | literal | template => simp [inferNames, ownName, inferParts, parts]

theorem inferParts_subset (t : TypeExpr) : t.inferParts ⊆ t.openParts := by
  cases t with
  | function isConstructor isAbstract signature => exact signature.inferParts_subset
  | members members =>
      intro part hpart
      obtain ⟨m, hm, hpart⟩ := List.mem_flatMap.mp hpart
      exact List.mem_flatMap.mpr ⟨m, hm, m.inferParts_subset hpart⟩
  | conditional | mapped | imported | predicate => exact List.nil_subset _
  | _ => exact fun _ ↦ id

theorem openParts_subset (t : TypeExpr) : t.openParts ⊆ t.parts .all := by
  cases t with
  | conditional => exact List.nil_subset _
  | _ => exact fun _ ↦ id

theorem introduces_iff {parts : TypeExpr → List TypeExpr} {name : String} {t : TypeExpr} :
    t.Introduces parts name ↔
      name ∈ t.ownName ∨ ∃ part ∈ parts t, part.Introduces parts name := by
  constructor
  · intro h
    cases h with
    | infer => exact .inl List.mem_cons_self
    | part hpart h => exact .inr ⟨_, hpart, h⟩
  · rintro (h | ⟨part, hpart, h⟩)
    · cases t with
      | infer other bound =>
          obtain rfl := List.mem_singleton.mp h
          exact .infer
      | _ => cases h
    · exact .part hpart h

/-- The names that are found in a bound are those that are introduced at the searched places. -/
theorem mem_inferNames {name : String} (t : TypeExpr) :
    name ∈ t.inferNames ↔ t.Introduces inferParts name := by
  induction t using parts_induction .all with
  | h t ih =>
      rw [inferNames_eq, List.mem_append, List.mem_flatMap, introduces_iff]
      exact or_congr_right (exists_congr fun part ↦ and_congr_right fun hpart ↦
        ih part (t.openParts_subset (t.inferParts_subset hpart)))

end TypeExpr

/-! ## The places in a type -/

namespace TypeEnv

/-- The types in a signature with the environment in which they are resolved. -/
def signaturePlaces (env : TypeEnv) (s : Signature) : List (TypeEnv × TypeExpr) :=
  (s.params.flatMap Param.types ++ s.result.toList).map (env.bindTypeParams s.typeParams, ·)

def memberPlaces (env : TypeEnv) : TypeMember → List (TypeEnv × TypeExpr)
  | .method _ _ signature | .call signature | .construct signature => env.signaturePlaces signature
  | m => (m.types .all).map (env, ·)

/-- The types directly inside a type with the environments in which they are resolved. -/
def places (env : TypeEnv) : TypeExpr → List (TypeEnv × TypeExpr)
  | .function _ _ signature => env.signaturePlaces signature
  | .members members => members.flatMap env.memberPlaces
  | .conditional check bound yes no =>
    let branch := env.bindNames bound.inferNames
    [(env, check), (branch, bound), (branch, yes), (env, no)]
  | .mapped _ key bound rename _ value =>
    (env, bound) :: (rename.toList ++ value.toList).map (env.bindNames [key], ·)
  | t => (t.parts .all).map (env, ·)

/-- A type stands in another, or is the other itself, with the environments in which the two are
resolved. -/
inductive Stands : TypeEnv → TypeExpr → TypeEnv → TypeExpr → Prop
  | self {env : TypeEnv} {t : TypeExpr} : Stands env t env t
  | part {env env' inner : TypeEnv} {s part t : TypeExpr} (hpart : (env', part) ∈ env.places s)
    (h : Stands env' part inner t) : Stands env s inner t

theorem bindNames_append (env : TypeEnv) (names more : List String) :
    env.bindNames (names ++ more) = (env.bindNames names).bindNames more :=
  List.foldl_append

theorem eq_of_mem_map {inner env' : TypeEnv} {t : TypeExpr} {types : List TypeExpr}
    (h : (env', t) ∈ types.map (inner, ·)) : env' = inner := by
  obtain ⟨_, _, heq⟩ := List.mem_map.mp h
  exact (congrArg Prod.fst heq).symm

theorem exists_bindNames_of_mem_memberPlaces {env env' : TypeEnv} {t : TypeExpr} {m : TypeMember}
    (h : (env', t) ∈ env.memberPlaces m) : ∃ names, env' = env.bindNames names := by
  cases m with
  | method | call | construct => exact ⟨_, eq_of_mem_map h⟩
  | _ => exact ⟨[], eq_of_mem_map h⟩

/-- On the way from a type to its parts, names are bound only to themselves. -/
theorem exists_bindNames_of_mem_places {env env' : TypeEnv} {s t : TypeExpr}
    (h : (env', t) ∈ env.places s) : ∃ names, env' = env.bindNames names := by
  cases s with
  | function => exact ⟨_, eq_of_mem_map h⟩
  | members =>
      obtain ⟨m, _, h⟩ := List.mem_flatMap.mp h
      exact exists_bindNames_of_mem_memberPlaces h
  | conditional check bound yes no =>
      simp only [places, List.mem_cons, Prod.mk.injEq, List.not_mem_nil, or_false] at h
      obtain ⟨rfl, _⟩ | ⟨rfl, _⟩ | ⟨rfl, _⟩ | ⟨rfl, _⟩ := h
      · exact ⟨[], rfl⟩
      · exact ⟨_, rfl⟩
      · exact ⟨_, rfl⟩
      · exact ⟨[], rfl⟩
  | mapped =>
      rcases List.mem_cons.mp h with h | h
      · exact ⟨[], congrArg Prod.fst h⟩
      · exact ⟨_, eq_of_mem_map h⟩
  | _ => exact ⟨[], eq_of_mem_map h⟩

theorem Stands.exists_bindNames {env inner : TypeEnv} {s t : TypeExpr}
    (h : Stands env s inner t) : ∃ names, inner = env.bindNames names := by
  induction h with
  | self => exact ⟨[], rfl⟩
  | part hpart _ ih =>
      obtain ⟨more, rfl⟩ := exists_bindNames_of_mem_places hpart
      obtain ⟨names, rfl⟩ := ih
      exact ⟨more ++ names, (bindNames_append _ _ _).symm⟩

/-- A name that stands for itself does so in every type inside. -/
theorem Stands.bound? {env inner : TypeEnv} {s t : TypeExpr} {name : String}
    (h : Stands env s inner t) (hname : env.bound? name = some (.param name)) :
    inner.bound? name = some (.param name) := by
  obtain ⟨names, rfl⟩ := h.exists_bindNames
  rw [bound?_bindNames, hname, ite_self]

/-! ## Environments that bind alike -/

/-- The environments are of one place and bind the same names to the same types. -/
structure Same (env env' : TypeEnv) : Prop where
  file : env'.file = env.file
  scope : env'.scope = env.scope
  bound? : ∀ name, env'.bound? name = env.bound? name

/-- The environments are of one place and differ at most in what some names are bound to. -/
structure SameBut (names : List String) (env env' : TypeEnv) : Prop where
  file : env'.file = env.file
  scope : env'.scope = env.scope
  bound? : ∀ name ∉ names, env'.bound? name = env.bound? name

/-- Names that are bound to themselves hide what they were bound to before. -/
theorem SameBut.bindNames {names : List String} {env env' : TypeEnv} (h : SameBut names env env') :
    Same (env.bindNames names) (env'.bindNames names) where
  file := by rw [Typing.file_bindNames, Typing.file_bindNames, h.file]
  scope := by rw [Typing.scope_bindNames, Typing.scope_bindNames, h.scope]
  bound? name := by
    rw [bound?_bindNames, bound?_bindNames]
    split
    next => rfl
    next hname => exact h.bound? name hname

namespace Same

variable {env env' : TypeEnv} (h : Same env env')

include h

theorem bindNames (names : List String) : Same (env.bindNames names) (env'.bindNames names) :=
  SameBut.bindNames ⟨h.file, h.scope, fun name _ ↦ h.bound? name⟩

theorem placeholder : env'.placeholder = env.placeholder := by
  funext inner
  unfold TypeEnv.placeholder
  rw [h.bound?]

theorem template (raw : String) : env'.template raw = env.template raw := by
  unfold TypeEnv.template
  rw [Template.templateText_eq, Template.templateText_eq, h.placeholder]

theorem boundType? (path : List String) :
    Typing.boundType? path env' = Typing.boundType? path env := by
  match path with
  | [] | _ :: _ :: _ => rfl
  | [single] => exact h.bound? single

end Same

end TypeEnv

namespace Typing

variable (c : Checker) (ask : TypeRules) (trail : TypeTrail)

theorem congruent_same :
    Congruent c c (fun _ ↦ True) (fun _ ↦ True) TypeEnv.Same ask ask trail trail where
  options := rfl
  bindNames h names := h.bindNames names
  boundType? h path := h.boundType? path
  template h raw := h.template raw
  typeRule _ _ _ := trivial
  entity? h _ := by rw [h.scope]
  importedSymbol? h _ _ := by simp only [importedSymbol?, h.file]
  declaredType _ _ _ := rfl
  queryType h _ _ := by simp only [queryType, h.scope]
  indexedType _ _ := rfl

/-- What a type resolves to depends on its place and on what the names are bound to. -/
theorem typeRule_same {env env' : TypeEnv} (h : env.Same env') (type : TypeExpr) :
    typeRule c ask trail env' type = typeRule c ask trail env type :=
  typeRule_congr (congruent_same c ask trail) h type fun _ _ _ _ ↦ trivial

theorem typeRule_reference (env : TypeEnv) (name : String) (args : List TypeExpr) :
    typeRule c ask trail env (.reference [name] args) =
      (env.bound? name).getD
        (namedType c ask trail [name] (typeRules c ask trail env args) env) := by
  simp only [typeRule, boundType?]
  cases env.bound? name <;> rfl

theorem exists_typeRule (n : Nat) :
    ∃ ask, ∀ trail, (rulesWithin c n).typeAt trail = typeRule c ask trail := by
  cases n <;> exact ⟨_, fun _ ↦ rfl⟩

/-- In the first branch of a conditional type each reference to an inferred name is the name itself,
and the branch does not depend on what inferred names are bound to outside. These are the names that
are introduced at a searched place; one that is introduced elsewhere only stays what it is
outside. -/
theorem typeAt_conditional (n : Nat) (env : TypeEnv) (check bound yes no : TypeExpr) :
    let typeAt := (rulesWithin c n).typeAt trail
    let branch := env.bindNames bound.inferNames
    (typeAt env (.conditional check bound yes no)).render =
      (typeAt env check).render ++ " extends " ++ (typeAt branch bound).render ++ " ? " ++
        (typeAt branch yes).render ++ " : " ++ (typeAt env no).render ∧
    (∀ name, bound.Introduces TypeExpr.openParts name →
      (bound.Introduces TypeExpr.inferParts name → ∀ inner args,
        branch.Stands yes inner (.reference [name] args) →
          typeAt inner (.reference [name] args) = .param name) ∧
      (¬bound.Introduces TypeExpr.inferParts name →
        typeAt branch (.reference [name] []) = typeAt env (.reference [name] []))) ∧
    ∀ outer, env.SameBut bound.inferNames outer →
      ∀ t, typeAt (outer.bindNames bound.inferNames) t = typeAt branch t := by
  intro typeAt branch
  obtain ⟨ask, hask⟩ := exists_typeRule c n
  have htypeAt : typeAt = typeRule c ask trail := hask trail
  clear_value typeAt
  subst htypeAt
  refine ⟨by rw [typeRule, Ty.render], fun name _ ↦ ⟨?hygienic, ?missed⟩, ?outside⟩
  case hygienic =>
    intro hname inner args hinner
    have hbranch : branch.bound? name = some (.param name) := by
      rw [TypeEnv.bound?_bindNames, if_pos (bound.mem_inferNames.mpr hname)]
    rw [typeRule_reference, hinner.bound? hbranch, Option.getD_some]
  case missed =>
    intro hname
    have hbranch : branch.bound? name = env.bound? name := by
      rw [TypeEnv.bound?_bindNames, if_neg (mt bound.mem_inferNames.mp hname)]
    rw [typeRule_reference, typeRule_reference, hbranch, typeRules, typeRules, namedType,
      scope_bindNames, ← namedType]
  case outside => exact fun outer houter t ↦ typeRule_same c ask trail houter.bindNames t

/-- A bound that introduces names in a property, in a parameter and in an index signature. -/
def itemBound : TypeExpr := .members
  [.property (.identifier "item") false false (some (.infer "Item" none)),
    .method (.identifier "add") false
      ⟨[], [⟨"arg", [], false, false, some (.infer "Arg" none)⟩], some (.keyword .void)⟩,
    .index ⟨false, "key", .keyword .string, some (.infer "Entry" none)⟩]

def itemBranch : TypeExpr :=
  .tuple [⟨none, false, false, .array (.reference ["Item"] [])⟩,
    ⟨none, false, false, .reference ["Arg"] []⟩,
    ⟨none, false, false, .reference ["Entry"] []⟩]

def itemProgram : Program :=
  let item : InterfaceDecl := ⟨⟨"Item", ⟨0, 0⟩⟩, [], [], []⟩
  ⟨.default, #[
    ⟨⟨"/item.d.ts"⟩, "", ⟨[⟨0, [], .interfaceDecl item, ⟨0, 0⟩⟩], []⟩, []⟩]⟩

theorem typeAt_conditional_shadows :
    let c := Checker.ofProgram itemProgram
    let env : TypeEnv := ⟨0, 0, [("Arg", .primitive .number), ("Entry", .primitive .string)]⟩
    let outer : TypeEnv := ⟨0, 0, [("Entry", .primitive .string)]⟩
    let branch := env.bindNames itemBound.inferNames
    let item : TypeExpr := .reference ["Item"] []
    let entry : TypeExpr := .reference ["Entry"] []
    (itemBound.Introduces TypeExpr.openParts "Item" ∧
      itemBound.Introduces TypeExpr.inferParts "Item" ∧ branch.Stands itemBranch branch item ∧
      c.typeAt env item = .reference 0 "Item" [] ∧ c.typeAt branch item = .param "Item") ∧
    (itemBound.Introduces TypeExpr.openParts "Entry" ∧
      ¬itemBound.Introduces TypeExpr.inferParts "Entry" ∧
      c.typeAt branch entry = c.typeAt env entry) ∧
    (env.SameBut itemBound.inferNames outer ∧
      c.typeAt (outer.bindNames itemBound.inferNames) itemBranch = c.typeAt branch itemBranch) ∧
    (c.typeAt env (.conditional item itemBound itemBranch item)).render =
      "Item extends \x7b [key: string]: infer Entry; item: infer Item; " ++
        "add(arg: infer Arg): void; \x7d ? [Item[], Arg, string] : Item" := by
  intro c env outer branch item entry
  have hnames : itemBound.inferNames = ["Item", "Arg"] := rfl
  have hitem : itemBound.Introduces TypeExpr.inferParts "Item" :=
    itemBound.mem_inferNames.mp (by simp [hnames])
  have hentry : ¬itemBound.Introduces TypeExpr.inferParts "Entry" :=
    mt itemBound.mem_inferNames.mpr (by simp [hnames])
  have hpart : ∀ name ∈ ["Item", "Entry"], .infer name none ∈ itemBound.openParts := by
    simp [itemBound, TypeExpr.openParts, TypeExpr.parts, TypeMember.types, Signature.types,
      IndexSignature.types, Places.unsearched]
  have hopenItem : itemBound.Introduces TypeExpr.openParts "Item" :=
    .part (hpart "Item" (by simp)) .infer
  have hopenEntry : itemBound.Introduces TypeExpr.openParts "Entry" :=
    .part (hpart "Entry" (by simp)) .infer
  have houter : env.SameBut itemBound.inferNames outer := by
    refine ⟨rfl, rfl, fun name hname ↦ ?_⟩
    have hne : name ≠ "Arg" := by
      rintro rfl
      exact hname (by simp [hnames])
    simp [env, outer, TypeEnv.bound?, List.lookup_cons, beq_false_of_ne hne]
  have hstands : branch.Stands itemBranch branch item :=
    .part List.mem_cons_self (.part List.mem_cons_self .self)
  obtain ⟨_, hkept, hsame⟩ :=
    typeAt_conditional c ⟨[], []⟩ c.trailLimit env item itemBound itemBranch item
  have hitemAt := (hkept "Item" hopenItem).1 hitem branch [] hstands
  have hentryAt := (hkept "Entry" hopenEntry).2 hentry
  exact ⟨⟨hopenItem, hitem, hstands, by decide +kernel, hitemAt⟩,
    ⟨hopenEntry, hentry, hentryAt⟩,
    ⟨houter, hsame outer houter itemBranch⟩, by decide +kernel⟩

end Typing

end PluginSurface
