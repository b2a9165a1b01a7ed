import Mathlib.Data.List.Basic
import Mathlib.Data.List.Forall2
import PluginSurface.Proofs.Binding.SameLinks
import PluginSurface.Proofs.Typing.Congruence
import PluginSurface.Proofs.Typing.Members
import PluginSurface.Proofs.Typing.Rules

/-!
# Types that resolve alike in two programs

Types resolve alike in two programs if what is behind each name opens alike: if, with one set of
rules that answers questions, a class or interface has the same properties in both, and an alias
stands for the same type. Then each rule gives the same type in both, if the questions that it asks
are answered alike, and by induction on the levels that may be opened, the two checkers answer
alike. What may be opened is said by the trails that are `safe`; the lists of properties are
compared by a relation.
-/

namespace PluginSurface

namespace Members

/-- Collecting keeps the relation between lists of properties, and a property is found in both under
its name, with the same type. -/
structure Congruence (R : List Property → List Property → Prop) : Prop where
  refl : ∀ ps, R ps ps
  trans : ∀ {ps qs rs}, R ps qs → R qs rs → R ps rs
  find? : ∀ {ps qs}, R ps qs → ∀ name : String,
    (ps.find? (·.name == name)).map Property.type = (qs.find? (·.name == name)).map Property.type
  flatten : ∀ {pss qss}, List.Forall₂ R pss qss → R pss.flatten qss.flatten
  addNew : ∀ {ps ps' qs qs'}, R ps ps' → R qs qs' → R (qs.foldl Members.addNew ps)
    (qs'.foldl Members.addNew ps')
  addMeet :
    ∀ {qs qs'}, R qs qs' → R (qs.foldl Members.addMeet []) (qs'.foldl Members.addMeet [])
  addMember : ∀ {ps ps'}, R ps ps' → ∀ ms : List Member, R (ms.foldl Members.addMember ps)
    (ms.foldl Members.addMember ps')

theorem congruence_eq : Congruence Eq where
  refl _ := rfl
  trans := Eq.trans
  find? h _ := h ▸ rfl
  flatten h := by rw [List.forall₂_eq_eq_eq] at h; rw [h]
  addNew h hqs := by rw [h, hqs]
  addMeet h := by rw [h]
  addMember h _ := by rw [h]

end Members

/-- The answers to questions on safe trails are the same, up to the relation on properties. In what
is asked about, all names stand for symbols that are `named`. -/
structure TypeRules.Alike (R : List Property → List Property → Prop) (safe : TypeTrail → Prop)
    (c : Checker) (named : Nat → Prop) (ask ask' : TypeRules) : Prop where
  typeAt : ∀ trail env type, safe trail → c.Mentions named env.file env.scope type.mentions →
    ask'.typeAt trail env type = ask.typeAt trail env type
  signatureAt : ∀ trail env signature, safe trail →
    c.Mentions named env.file env.scope signature.mentions →
    ask'.signatureAt trail env signature = ask.signatureAt trail env signature
  objectAt : ∀ trail env members, safe trail →
    c.Mentions named env.file env.scope (mentionsOfMembers members) →
    ask'.objectAt trail env members = ask.objectAt trail env members
  propertiesOf :
    ∀ trail t, safe trail → R (ask.propertiesOf trail t) (ask'.propertiesOf trail t)

theorem TypeRules.Alike.refl {R : List Property → List Property → Prop}
    (hR : Members.Congruence R) (safe : TypeTrail → Prop) (c : Checker) (named : Nat → Prop)
    (ask : TypeRules) : ask.Alike R safe c named ask :=
  ⟨fun _ _ _ _ _ ↦ rfl, fun _ _ _ _ _ ↦ rfl, fun _ _ _ _ _ ↦ rfl, fun _ _ _ ↦ hR.refl _⟩

namespace Typing

/-- The properties that a class or interface declares itself, and the types that it extends. -/
def ownParts (c : Checker) (ask : TypeRules) (trail : TypeTrail) (id : Nat) (args : List Ty) :
    List Property × List Ty :=
  (c.binding.symbol id).declarations.foldl
    (addDeclaration ask { trail with heritage := id :: trail.heritage } args) ([], [])

theorem declaredProperties_eq {id : Nat} (hid : id ∉ trail.heritage) (args : List Ty) :
    declaredProperties c ask trail id args =
      ((ownParts c ask trail id args).2.flatMap
        (ask.propertiesOf { trail with heritage := id :: trail.heritage })).foldl Members.addNew
          (ownParts c ask trail id args).1 := by
  unfold declaredProperties
  rw [if_neg hid]
  rfl

theorem declaredProperties_of_mem {id : Nat} (hid : id ∈ trail.heritage) (args : List Ty) :
    declaredProperties c ask trail id args = [] := if_pos hid

/-- The properties are related, and the types that are extended are the same. -/
structure SameParts (R : List Property → List Property → Prop)
    (parts parts' : List Property × List Ty) : Prop where
  properties : R parts.1 parts'.1
  bases : parts'.2 = parts.2

theorem SameParts.refl {R : List Property → List Property → Prop} (hR : Members.Congruence R)
    (parts : List Property × List Ty) : SameParts R parts parts := ⟨hR.refl _, rfl⟩

theorem SameParts.trans {R : List Property → List Property → Prop} (hR : Members.Congruence R)
    {parts parts' parts'' : List Property × List Ty} (h : SameParts R parts parts')
    (h' : SameParts R parts' parts'') : SameParts R parts parts'' :=
  ⟨hR.trans h.properties h'.properties, h'.bases.trans h.bases⟩

end Typing

/-- What is behind a name opens alike in the two programs, with any one set of rules that keeps the
law. All that is opened on safe trails is the same, up to the relation on properties. -/
structure Checker.OpensAlike (R : List Property → List Property → Prop)
    (safe : TypeTrail → Prop)
    (named : Nat → Prop) (law : TypeRules → Prop) (c c' : Checker) : Prop where
  sameLinks : c.SameLinks c'
  options : c'.program.options = c.program.options
  congruence : Members.Congruence R
  law_rules : ∀ ask, law (Typing.rules c' ask)
  law_noRules : law Typing.noRules
  mentions : ∀ id, ∀ d ∈ (c.binding.symbol id).declarations,
    c.Mentions named d.file d.scope d.kind.mentions
  safe_types : ∀ trail id, safe trail → safe { trail with types := id :: trail.types }
  safe_heritage : ∀ trail id, safe trail → safe { trail with heritage := id :: trail.heritage }
  ownParts : ∀ {ask trail id}, law ask → safe trail → id ∉ trail.heritage → ∀ args,
    Typing.SameParts R (Typing.ownParts c ask trail id args) (Typing.ownParts c' ask trail id args)
  declaredType : ∀ {ask trail id}, safe trail → named id → ∀ args,
    Typing.declaredType c' ask trail id args = Typing.declaredType c ask trail id args
  queryType : ∀ {ask trail path env}, safe trail →
    c.Mentions named env.file env.scope [.entity path] →
    Typing.queryType c' ask trail path env = Typing.queryType c ask trail path env

namespace Typing

variable {R : List Property → List Property → Prop} {safe : TypeTrail → Prop}
  {named : Nat → Prop} {law : TypeRules → Prop} {c c' : Checker} {ask ask' : TypeRules}
  {trail : TypeTrail}

/-! ## Declarations -/

theorem sameAnswers_of_alike (hask : ask.Alike R safe c named ask') (hsafe : safe trail) :
    SameAnswers c named (fun _ ↦ True) (fun _ ↦ True) ask ask' trail trail where
  declarationEnv _ := trivial
  bind _ _ _ _ := trivial
  param _ := trivial
  good _ _ _ := trivial
  typeAt _ type := hask.typeAt trail _ type hsafe
  signatureAt _ signature := hask.signatureAt trail _ signature hsafe
  objectAt _ members := hask.objectAt trail _ members hsafe

/-- What a declaration adds to related properties is related. -/
theorem addDeclaration_sameParts (hR : Members.Congruence R) (d : Declaration) (args : List Ty)
    {found found' : List Property × List Ty} (hfound : SameParts R found found') :
    SameParts R (addDeclaration ask trail args found d)
      (addDeclaration ask trail args found' d) := by
  obtain ⟨ps, bases⟩ := found
  obtain ⟨ps', _⟩ := found'
  obtain ⟨hps, rfl⟩ := hfound
  obtain ⟨file, scope, kind⟩ := d
  cases kind with
  | classDecl decl => exact ⟨hR.addMember hps _, rfl⟩
  | interfaceDecl decl => exact ⟨hR.addNew hps (hR.refl _), rfl⟩
  | _ => exact ⟨hps, rfl⟩

/-- What a declaration adds is the same, whatever rules answer alike. -/
theorem addDeclaration_alike (hask : ask.Alike R safe c named ask') (hsafe : safe trail)
    (hR : Members.Congruence R) {d : Declaration}
    (hd : c.Mentions named d.file d.scope d.kind.mentions) (args : List Ty)
    {found found' : List Property × List Ty} (hfound : SameParts R found found') :
    SameParts R (addDeclaration ask trail args found d)
      (addDeclaration ask' trail args found' d) := by
  rw [(sameAnswers_of_alike hask hsafe).addDeclaration hd fun _ _ ↦ trivial]
  exact addDeclaration_sameParts hR d args hfound

section

variable (h : c.OpensAlike R safe named law c') (hask : ask.Alike R safe c named ask')
  (hlaw : law ask') (hsafe : safe trail)

include h hask hlaw hsafe

theorem ownParts_alike {id : Nat} (hid : id ∉ trail.heritage) (args : List Ty) :
    SameParts R (ownParts c ask trail id args) (ownParts c' ask' trail id args) := by
  have hsame : SameParts R (ownParts c ask trail id args) (ownParts c ask' trail id args) :=
    List.foldl_rel (r := SameParts R) (.refl h.congruence ([], [])) fun d hd _ _ hfound ↦
      addDeclaration_alike hask (h.safe_heritage trail id hsafe) h.congruence (h.mentions id d hd)
        args hfound
  exact hsame.trans h.congruence (h.ownParts hlaw hsafe hid args)

theorem declaredProperties_alike (id : Nat) (args : List Ty) :
    R (declaredProperties c ask trail id args) (declaredProperties c' ask' trail id args) := by
  by_cases hid : id ∈ trail.heritage
  · rw [declaredProperties_of_mem hid, declaredProperties_of_mem hid]
    exact h.congruence.refl []
  obtain ⟨hown, hbases⟩ := ownParts_alike h hask hlaw hsafe hid args
  rw [declaredProperties_eq hid, declaredProperties_eq hid, hbases]
  refine h.congruence.addNew hown ?_
  rw [List.flatMap_def, List.flatMap_def]
  refine h.congruence.flatten (List.forall₂_map_left_iff.mpr
    (List.forall₂_map_right_iff.mpr ?_))
  exact List.forall₂_same.mpr fun t _ ↦ hask.propertiesOf _ t (h.safe_heritage trail id hsafe)

end

mutual

theorem propertiesRule_alike (h : c.OpensAlike R safe named law c')
    (hask : ask.Alike R safe c named ask') (hlaw : law ask') (hsafe : safe trail) :
    ∀ t, R (propertiesRule c ask trail t) (propertiesRule c' ask' trail t)
  | .object o => by
      rw [propertiesRule, propertiesRule]
      exact h.congruence.refl _
  | .aliased _ _ target => by
      rw [propertiesRule, propertiesRule]
      exact propertiesRule_alike h hask hlaw hsafe target
  | .reference id _ args => by
      rw [propertiesRule, propertiesRule]
      exact declaredProperties_alike h hask hlaw hsafe id args
  | .intersection members => by
      rw [propertiesRule, propertiesRule]
      exact h.congruence.addMeet
        (h.congruence.flatten (propertiesRules_alike h hask hlaw hsafe members))
  | .primitive _ | .literal _ | .union _ | .array .. | .tuple .. | .function _ | .param _
  | .named .. | .verbatim _ => by
      simp only [propertiesRule]
      exact h.congruence.refl _

theorem propertiesRules_alike (h : c.OpensAlike R safe named law c')
    (hask : ask.Alike R safe c named ask') (hlaw : law ask') (hsafe : safe trail) :
    ∀ ts, List.Forall₂ R (propertiesRules c ask trail ts) (propertiesRules c' ask' trail ts)
  | [] => by
      rw [propertiesRules, propertiesRules]
      exact .nil
  | t :: rest => by
      rw [propertiesRules, propertiesRules]
      exact .cons (propertiesRule_alike h hask hlaw hsafe t)
        (propertiesRules_alike h hask hlaw hsafe rest)

end

/-! ## Names -/

section

variable (h : c.OpensAlike R safe named law c') (hask : ask.Alike R safe c named ask')
  (hlaw : law ask') (hsafe : safe trail)

include h hask hsafe

theorem opensSame_alike (id : Nat) :
    OpensSame c named (fun _ ↦ True) (fun _ ↦ True) ask ask' trail trail id where
  mentions := h.mentions id
  listed := Iff.rfl
  answers _ _ := sameAnswers_of_alike hask (h.safe_types trail id hsafe)

theorem declaredType_alike {id : Nat} (hid : named id) (args : List Ty) :
    declaredType c' ask' trail id args = declaredType c ask trail id args := by
  rw [h.declaredType hsafe hid]
  exact (opensSame_alike h hask hsafe id).declaredType fun _ _ ↦ trivial

theorem queryType_alike (path : List String) (env : TypeEnv)
    (hpath : c.Mentions named env.file env.scope [.entity path]) :
    queryType c' ask' trail path env = queryType c ask trail path env := by
  rw [h.queryType hsafe hpath]
  exact OpensSame.queryType rfl fun id _ ↦ opensSame_alike h hask hsafe id

include hlaw

theorem indexedType_alike (object index : Ty) :
    indexedType c' ask' trail object index = indexedType c ask trail object index := by
  have hfind (key : String) := h.congruence.find?
    (propertiesRule_alike h hask hlaw hsafe object) key
  unfold indexedType
  split
  next key _ =>
    have hkey := hfind key
    generalize (propertiesRule c ask trail object).find? (·.name == key) = o at hkey ⊢
    generalize (propertiesRule c' ask' trail object).find? (·.name == key) = o' at hkey ⊢
    cases o with
    | none =>
        cases o' with
        | none => rfl
        | some p => cases hkey
    | some p =>
        cases o' with
        | none => cases hkey
        | some p' => exact (Option.some.inj hkey).symm
  next => rfl

end

theorem importedSymbol?_sameLinks (h : c.SameLinks c') (env : TypeEnv) (specifier : String)
    (path : List String) :
    importedSymbol? c' env specifier path = importedSymbol? c env specifier path := by
  simp only [importedSymbol?, h.moduleSymbol, funext₂ h.export?]

/-! ## Types -/

theorem congruent_of_opensAlike (h : c.OpensAlike R safe named law c')
    (hask : ask.Alike R safe c named ask') (hlaw : law ask') (hsafe : safe trail) :
    Congruent c c' named (fun _ ↦ True) Eq ask ask' trail trail where
  options := h.options
  bindNames henv _ := henv ▸ rfl
  boundType? henv _ := henv ▸ rfl
  template henv _ := henv ▸ rfl
  typeRule _ _ _ := trivial
  entity? henv path := henv ▸ h.sameLinks.entity? path _
  importedSymbol? henv specifier path :=
    henv ▸ importedSymbol?_sameLinks h.sameLinks _ specifier path
  declaredType hid _ _ := declaredType_alike h hask hsafe hid _
  queryType henv path hpath := henv ▸ queryType_alike h hask hsafe path _ hpath
  indexedType _ index := indexedType_alike h hask hlaw hsafe _ index

/-! ## The checker -/

theorem alike_rules (h : c.OpensAlike R safe named law c') (hask : ask.Alike R safe c named ask')
    (hlaw : law ask') : (rules c ask).Alike R safe c named (rules c' ask') where
  typeAt _ _ type hsafe := typeRule_congr (congruent_of_opensAlike h hask hlaw hsafe) rfl type
  signatureAt _ _ signature hsafe :=
    signatureRule_congr (congruent_of_opensAlike h hask hlaw hsafe) rfl signature
  objectAt _ _ members hsafe hmembers := congrArg Members.toObject
    (memberRules_congr (congruent_of_opensAlike h hask hlaw hsafe) rfl members hmembers)
  propertiesOf _ t hsafe := propertiesRule_alike h hask hlaw hsafe t

theorem law_rulesWithin (hrules : ∀ ask, law (rules c ask)) (n : Nat) :
    law (rulesWithin c n) := by
  cases n with
  | zero => exact hrules noRules
  | succ n => exact hrules _

theorem alike_rulesWithin (h : c.OpensAlike R safe named law c') (n : Nat) :
    (rulesWithin c n).Alike R safe c named (rulesWithin c' n) := by
  induction n with
  | zero => exact alike_rules h (.refl h.congruence safe c named noRules) h.law_noRules
  | succ n ih =>
      exact alike_rules h ⟨ih.typeAt, ih.signatureAt, ih.objectAt, ih.propertiesOf⟩
        (law_rulesWithin h.law_rules n)

end Typing

end PluginSurface
