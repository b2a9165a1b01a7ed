import PluginSurface.Proofs.Typing.MemberTypes

/-!
# Indexed access

An indexed access picks a property out of a class or interface, whose members are collected for it.
Where the class or interface is not open, it does not matter where the access stands: the type is
the one that is reported for the property, as long as what is written for it does not lead back.
Where it is open, as in the members of the class or interface itself, no members are found, and the
access stays as it is written.
-/

namespace PluginSurface

namespace Checker

open Typing

variable (c : Checker)

/-- What is mentioned leads to a symbol: a name stands for it, in the type itself or in a
declaration of a symbol that it leads to. -/
inductive LeadsTo (file scope : Nat) (ms : List Mention) : Nat → Prop
  | name {m : Mention} {id : Nat} (hm : m ∈ ms) (h : c.mentioned? file scope m = some id) :
    LeadsTo file scope ms id
  | behind {other : Nat} {d : Declaration} {m : Mention} {id : Nat}
    (hother : LeadsTo file scope ms other) (hd : d ∈ (c.binding.symbol other).declarations)
    (hm : m ∈ d.kind.mentions) (h : c.mentioned? d.file d.scope m = some id) :
    LeadsTo file scope ms id

/-- The type that the properties of a type have under a name. -/
def reported? (t : Ty) (key : String) : Option Ty :=
  ((c.propertiesOf t).find? (·.name == key)).map Property.type

/-- The written type picks a property of a symbol, by the name of the symbol without arguments. -/
inductive Picks (env : TypeEnv) (id : Nat) (key : String) : TypeExpr → Prop
  | indexed {object : TypeExpr} (huses : c.Uses env id [] object) :
    Picks env id key (.indexed object (.literal (.string key)))

/-- A reference to the symbol with the name of a property in brackets. -/
def indexedText (id : Nat) (key : String) : String :=
  (Ty.reference id (c.binding.qualifiedName id) []).renderOperand ++ "[" ++
    (Ty.literal (.string key)).render ++ "]"

/-- A declaration without type parameters says about a property only that its type is picked out of
another symbol. -/
inductive Forwards (id : Nat) (key : String) (other : Nat) (key' : String) : Prop
  | said {d : Declaration} {type : TypeExpr}
    (honce : c.memberTypes other key' = [(d, .type (some type))])
    (hgeneric : d.kind.typeParams = []) (hpicks : c.Picks (declarationEnv d) id key type) :
    Forwards id key other key'

/-- What a property has as its type wherever it is picked, if `led` are the symbols that what is
written for it leads to. -/
structure PickedAs (id : Nat) (key : String) (led : Nat → Prop) (t : Ty) : Prop where
  reported : ∀ name, c.reported? (.reference id name []) key = some t
  typeAt : ∀ env type, c.Picks env id key type → c.typeAt env type = t
  whileOpen : ∀ s : Opened, s.Idle → id ∉ s.heritage →
    (∀ other, led other → other ∉ s.types ∧ other ∉ s.heritage) →
    ∀ env type, c.Picks env id key type → Session.typeAt c env type s = some (t, s)
  forwarded : ∀ other key', other ≠ id → c.Forwards id key other key' →
    ∀ name, c.reported? (.reference other name []) key' = some t
  forwardedInside : ∀ key', c.Forwards id key id key' →
    ∀ name, c.reported? (.reference id name []) key' = some (.verbatim (c.indexedText id key))

variable {c}

/-! ## What a type leads to -/

theorem closed_leadsTo {file scope : Nat} {ms : List Mention} :
    c.Closed (c.LeadsTo file scope ms) :=
  fun _ hid _ hd _ hm _ h ↦ .behind hid hd hm h

theorem mentions_leadsTo {file scope : Nat} {ms : List Mention} :
    c.Mentions (c.LeadsTo file scope ms) file scope ms :=
  fun _ hm _ h ↦ .name hm h

theorem LeadsTo.of_closed {named : Nat → Prop} (hnamed : c.Closed named) {file scope : Nat}
    {ms : List Mention} (hms : c.Mentions named file scope ms) {id : Nat}
    (h : c.LeadsTo file scope ms id) : named id := by
  induction h with
  | name hm h => exact hms _ hm _ h
  | behind _ hd hm h ih => exact hnamed _ ih _ hd _ hm _ h

/-- What a member says, if it leads to none of what is open, resolves as where nothing is open. -/
theorem resolve_eq {d : Declaration} {a : MemberType} {trail : TypeTrail}
    (hfree : ∀ other, c.LeadsTo d.file d.scope a.mentions other →
      other ∉ trail.types ∧ other ∉ trail.heritage) :
    a.resolve c.typing trail (declarationEnv d) =
      a.resolve c.typing ⟨[], []⟩ (declarationEnv d) := by
  have hsame : TypeTrail.SameFor (c.LeadsTo d.file d.scope a.mentions) ⟨[], []⟩ trail :=
    ⟨fun other hother ↦ by simp [hfree other hother],
      fun other hother ↦ by simp [hfree other hother]⟩
  have hanswers := (indifferent_of_sameFor closed_leadsTo hsame).answers
  have hmentions : c.Mentions (c.LeadsTo d.file d.scope a.mentions) (declarationEnv d).file
      (declarationEnv d).scope a.mentions := mentions_leadsTo
  cases a with
  | type t => exact hanswers.annotated (hanswers.declarationEnv d) t hmentions
  | method signature =>
      exact congrArg Ty.function
        (hanswers.signatureAt (hanswers.declarationEnv d) signature hmentions)

/-! ## Picking properties -/

section

variable {env : TypeEnv} {id : Nat} {key : String} {type : TypeExpr}

theorem Uses.mentions (h : c.Uses env id [] type) :
    ∃ m ∈ type.mentions, c.mentioned? env.file env.scope m = some id := by
  cases h with
  | @reference path hbound h =>
      exact ⟨.entity path, by simp [TypeExpr.mentions], h⟩
  | @imported specifier path hpath h =>
      exact ⟨.imported specifier path, by simp [TypeExpr.mentions, hpath], h⟩

theorem Picks.mentions (h : c.Picks env id key type) :
    ∃ m ∈ type.mentions, c.mentioned? env.file env.scope m = some id := by
  obtain ⟨huses⟩ := h
  obtain ⟨m, hm, hid⟩ := huses.mentions
  exact ⟨m, by rw [TypeExpr.mentions]; exact List.mem_append_left _ hm, hid⟩

theorem typeRule_of_uses {ask : TypeRules} {trail : TypeTrail} (h : c.Uses env id [] type)
    (hinstances : (c.binding.symbol id).hasInstances = true) :
    typeRule c ask trail env type = .reference id (c.binding.qualifiedName id) [] := by
  cases h with
  | reference hbound h =>
      simp only [typeRule, hbound, namedType, h, typeRules, declaredType_of_hasInstances hinstances]
  | @imported specifier path hpath h =>
      have hpath : ¬((false || path.isEmpty) = true) := by simpa using hpath
      simp only [typeRule, if_neg hpath, h, typeRules, declaredType_of_hasInstances hinstances]

/-- The type of the property where there is one, and else what is written. -/
theorem typeAt_of_picks (h : c.Picks env id key type)
    (hinstances : (c.binding.symbol id).hasInstances = true) (trail : TypeTrail) :
    c.typing.typeAt trail env type =
      (c.propertyType? trail (.reference id (c.binding.qualifiedName id) []) key).getD
        (.verbatim (c.indexedText id key)) := by
  obtain ⟨huses⟩ := h
  rw [typing_typeAt, typeRule, typeRule_of_uses huses hinstances, propertyType?,
    typing_propertiesOf, typeRule]
  simp only [indexedType, Ty.unaliased]
  cases (propertiesRule c c.typing trail
    (.reference id (c.binding.qualifiedName id) [])).find? (·.name == key) <;> rfl

end

/-! ## Where an access stands -/

/-- The type of a property that leads back to none of what is open does not depend on what is
open. -/
theorem propertyType?_free {id : Nat} {key : String} {d : Declaration} {a : MemberType}
    (honce : c.memberTypes id key = [(d, a)]) (hgeneric : d.kind.typeParams = [])
    (hback : ¬c.LeadsTo d.file d.scope a.mentions id) {trail : TypeTrail}
    (hclosed : id ∉ trail.heritage)
    (hfree : ∀ other, c.LeadsTo d.file d.scope a.mentions other →
      other ∉ trail.types ∧ other ∉ trail.heritage) (name : String) :
    c.propertyType? trail (.reference id name []) key =
      some (a.resolve c.typing ⟨[], []⟩ (declarationEnv d)) := by
  have hinner : ∀ other, c.LeadsTo d.file d.scope a.mentions other →
      other ∉ (trail.openHeritage id).types ∧ other ∉ (trail.openHeritage id).heritage :=
    fun other hother ↦ ⟨(hfree other hother).1, List.not_mem_cons_of_ne_of_not_mem
      (fun heq ↦ hback (heq ▸ hother)) (hfree other hother).2⟩
  rw [propertyType?_of_memberTypes honce hclosed, instanceEnv, hgeneric, instantiate,
    resolve_eq hinner]

theorem reported?_forwards {id other : Nat} {key key' : String} (h : c.Forwards id key other key')
    (hinstances : (c.binding.symbol id).hasInstances = true) (name : String) :
    c.reported? (.reference other name []) key' =
      some ((c.propertyType? ⟨[], [other]⟩ (.reference id (c.binding.qualifiedName id) [])
        key).getD (.verbatim (c.indexedText id key))) := by
  obtain ⟨honce, hgeneric, hpicks⟩ := h
  have hreported : c.reported? (.reference other name []) key' = _ :=
    propertyType?_of_memberTypes honce List.not_mem_nil name []
  rw [instanceEnv, hgeneric, instantiate] at hreported
  exact hreported.trans (congrArg some (typeAt_of_picks hpicks hinstances _))

/-- What is written for a property leads to no symbol that forwards to it, if it does not lead back:
the symbol would lead there. -/
theorem not_leadsTo_of_forwards {id other : Nat} {key key' : String}
    (h : c.Forwards id key other key') {file scope : Nat} {ms : List Mention}
    (hback : ¬c.LeadsTo file scope ms id) : ¬c.LeadsTo file scope ms other := by
  obtain ⟨honce, -, hpicks⟩ := h
  obtain ⟨m, hm, hid⟩ := hpicks.mentions
  obtain ⟨hd, hsub⟩ := mentions_memberTypes (honce ▸ List.mem_singleton_self _)
  exact fun hother ↦
    hback (.behind hother hd (hsub (by rwa [MemberType.mentions, mentionsOfType?])) hid)

/-- A property of a class or interface without type parameters, that is declared once and whose type
does not lead back to it, has one type. It is reported for the property and for all that forwards to
the property from elsewhere, and it is found wherever the property is picked while neither its class
or interface is open nor anything that its type leads to. In the members of the class or interface
itself, an access stays as it is written. -/
theorem exists_pickedAs (c : Checker) {id : Nat} {key : String} {d : Declaration} {a : MemberType}
    (hinstances : (c.binding.symbol id).hasInstances = true)
    (honce : c.memberTypes id key = [(d, a)]) (hgeneric : d.kind.typeParams = [])
    (hback : ¬c.LeadsTo d.file d.scope a.mentions id) :
    ∃ t, c.PickedAs id key (c.LeadsTo d.file d.scope a.mentions) t := by
  have htype {trail : TypeTrail} (hclosed : id ∉ trail.heritage)
      (hfree : ∀ other, c.LeadsTo d.file d.scope a.mentions other →
        other ∉ trail.types ∧ other ∉ trail.heritage) (name : String) :=
    propertyType?_free honce hgeneric hback hclosed hfree name
  have hnothing : ∀ other, c.LeadsTo d.file d.scope a.mentions other →
      other ∉ (⟨[], []⟩ : TypeTrail).types ∧
      other ∉ (⟨[], []⟩ : TypeTrail).heritage :=
    fun _ _ ↦ ⟨List.not_mem_nil, List.not_mem_nil⟩
  refine ⟨a.resolve c.typing ⟨[], []⟩ (declarationEnv d), htype List.not_mem_nil hnothing,
    ?typeAt, ?whileOpen, ?forwarded, ?forwardedInside⟩
  case typeAt =>
    intro env type hpicks
    rw [Checker.typeAt, typeAt_of_picks hpicks hinstances, htype List.not_mem_nil hnothing]
    rfl
  case whileOpen =>
    intro s hidle hclosed hfree env type hpicks
    obtain ⟨t, hrun, ht⟩ :=
      (answers_typing c).typeAt s (Nat.lt_succ_of_le (s.typeRoom_le c)) env type
    rw [hrun, ht hidle, typeAt_of_picks hpicks hinstances, htype hclosed hfree]
    rfl
  case forwarded =>
    intro other key' hother hforwards name
    have hfree : ∀ led, c.LeadsTo d.file d.scope a.mentions led →
        led ∉ (⟨[], [other]⟩ : TypeTrail).types ∧
        led ∉ (⟨[], [other]⟩ : TypeTrail).heritage :=
      fun led hled ↦ ⟨List.not_mem_nil, fun hmem ↦ not_leadsTo_of_forwards hforwards hback
        (List.mem_singleton.mp hmem ▸ hled)⟩
    rw [reported?_forwards hforwards hinstances,
      htype (fun hmem ↦ hother (List.mem_singleton.mp hmem).symm) hfree]
    rfl
  case forwardedInside =>
    intro key' hforwards name
    rw [reported?_forwards hforwards hinstances, propertyType?, typing_propertiesOf, propertiesRule,
      declaredProperties_of_mem (List.mem_singleton_self id)]
    rfl

end Checker

def accessedProperty (name : String) (type : TypeExpr) : TypeMember :=
  .property (.identifier name) false false (some type)

/-- An access to the property `p` of the interface `S`. -/
def propertyAccess : TypeExpr := .indexed (.reference ["S"] []) (.literal (.string "p"))

def sizeInterface : InterfaceDecl :=
  ⟨⟨"Size", ⟨0, 0⟩⟩, [], [], [accessedProperty "width" (.keyword .number)]⟩

def accessedInterface : InterfaceDecl := ⟨⟨"S", ⟨0, 0⟩⟩, [], [],
  [accessedProperty "p" (.reference ["Size"] []), accessedProperty "q" propertyAccess]⟩

def accessingInterface : InterfaceDecl :=
  ⟨⟨"T", ⟨0, 0⟩⟩, [], [], [accessedProperty "r" propertyAccess]⟩

def accessProgram : Program :=
  let statements := [sizeInterface, accessedInterface, accessingInterface].mapIdx fun id decl ↦
    ⟨id, [], .interfaceDecl decl, ⟨0, 0⟩⟩
  ⟨.default, #[⟨⟨"/index.d.ts"⟩, "", ⟨statements, []⟩, []⟩]⟩

theorem exists_pickedAs_size :
    let c := Checker.ofProgram accessProgram
    let d : Declaration := ⟨0, 0, .interfaceDecl accessedInterface⟩
    let a : MemberType := .type (some (.reference ["Size"] []))
    (c.binding.symbol 1).hasInstances = true ∧ c.memberTypes 1 "p" = [(d, a)] ∧
      d.kind.typeParams = [] ∧ ¬c.LeadsTo d.file d.scope a.mentions 1 ∧
      c.Forwards 1 "p" 2 "r" ∧ c.Forwards 1 "p" 1 "q" ∧
      c.reported? (.reference 1 "S" []) "p" = some (.reference 0 "Size" []) ∧
      c.reported? (.reference 2 "T" []) "r" = some (.reference 0 "Size" []) ∧
      c.reported? (.reference 1 "S" []) "q" = some (.verbatim "S[\"p\"]") := by
  intro c d a
  have hinstances : (c.binding.symbol 1).hasInstances = true := by decide +kernel
  have honce : c.memberTypes 1 "p" = [(d, a)] := by with_unfolding_all rfl
  have huses : c.Uses ⟨0, 0, []⟩ 1 [] (.reference ["S"] []) :=
    .reference rfl (by decide +kernel)
  have hback : ¬c.LeadsTo d.file d.scope a.mentions 1 := by
    have hsize :
        (c.binding.symbol 0).declarations = [⟨0, 0, .interfaceDecl sizeInterface⟩] := by
      with_unfolding_all rfl
    have hclosed : c.Closed (· = 0) := by
      rintro _ rfl other hother
      rw [hsize, List.mem_singleton] at hother
      subst hother
      exact fun m hm ↦ absurd hm List.not_mem_nil
    have hmentions : c.Mentions (· = 0) d.file d.scope a.mentions := by
      have hentity : c.entity? ["Size"] 0 = some 0 := by decide +kernel
      intro m hm id hid
      obtain rfl : m = .entity ["Size"] := List.mem_singleton.mp hm
      exact Option.some.inj (Option.mem_def.mp hid ▸ hentity)
    exact fun h ↦ one_ne_zero (h.of_closed hclosed hmentions)
  have helsewhere : c.Forwards 1 "p" 2 "r" :=
    .said (d := ⟨0, 0, .interfaceDecl accessingInterface⟩) (by with_unfolding_all rfl) rfl
      (.indexed huses)
  have hinside : c.Forwards 1 "p" 1 "q" :=
    .said (d := d) (by with_unfolding_all rfl) rfl (.indexed huses)
  obtain ⟨t, h⟩ := Checker.exists_pickedAs c hinstances honce rfl hback
  have ht : some t = some (.reference 0 "Size" []) :=
    (h.reported "S").symm.trans (by decide +kernel)
  exact ⟨hinstances, honce, rfl, hback, helsewhere, hinside, (h.reported "S").trans ht,
    (h.forwarded 2 "r" (by decide) helsewhere "T").trans ht,
    (h.forwardedInside "q" hinside "S").trans (by decide +kernel)⟩

end PluginSurface
