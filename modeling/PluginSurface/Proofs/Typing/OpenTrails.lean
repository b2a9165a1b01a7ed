import PluginSurface.Proofs.Session.Types
import PluginSurface.Proofs.Typing.Opening

/-!
# What is open elsewhere

A trail lists what is open, so that it is not opened again. A type depends on it only through the
symbols that it leads to: those that are named in it, in their declarations, and so on. Whatever
else is open, the type resolves to the same. The levels of the rules make no difference either: with
as many as the checker has, the rules answer their own questions.
-/

namespace PluginSurface

/-- The declarations of named symbols mention only named symbols. -/
def Checker.Closed (c : Checker) (named : Nat → Prop) : Prop :=
  ∀ id, named id → ∀ d ∈ (c.binding.symbol id).declarations,
    c.Mentions named d.file d.scope d.kind.mentions

/-- If the type is a reference, it is to a named symbol. -/
def Ty.Refers (named : Nat → Prop) (t : Ty) : Prop := ∀ id ∈ t.symbol?, named id

namespace TypeTrail

def openType (trail : TypeTrail) (id : Nat) : TypeTrail := ⟨id :: trail.types, trail.heritage⟩

def openHeritage (trail : TypeTrail) (id : Nat) : TypeTrail :=
  ⟨trail.types, id :: trail.heritage⟩

/-- The lists of a process that has opened what is on the trail and follows no link. -/
def opened (trail : TypeTrail) : Opened := ⟨[], [], trail.types, trail.heritage⟩

theorem idle_opened (trail : TypeTrail) : trail.opened.Idle := ⟨rfl, rfl⟩

/-- The same named symbols are on both trails. -/
structure SameFor (named : Nat → Prop) (trail trail' : TypeTrail) : Prop where
  types : ∀ id, named id → (id ∈ trail'.types ↔ id ∈ trail.types)
  heritage : ∀ id, named id → (id ∈ trail'.heritage ↔ id ∈ trail.heritage)

namespace SameFor

variable {named : Nat → Prop} {trail trail' : TypeTrail} (h : SameFor named trail trail')

include h

theorem openType (id : Nat) : SameFor named (trail.openType id) (trail'.openType id) where
  types other hother := by simp only [TypeTrail.openType, List.mem_cons, h.types other hother]
  heritage := h.heritage

theorem openHeritage (id : Nat) :
    SameFor named (trail.openHeritage id) (trail'.openHeritage id) where
  types := h.types
  heritage other hother := by
    simp only [TypeTrail.openHeritage, List.mem_cons, h.heritage other hother]

end SameFor

end TypeTrail

namespace Typing

variable {c : Checker} {named : Nat → Prop}

theorem invariantFor_refers (h : c.Closed named) : InvariantFor c named (Ty.Refers named) where
  mentions := h
  reference _ _ _ := by simp [Ty.Refers, Ty.symbol?]
  plain t _ ht := by simp [Ty.Refers, ht]
  object _ := by simp [Ty.Refers, Ty.symbol?]
  union _ _ _ _ := by simp [Ty.Refers, Ty.symbol?]
  intersection _ _ _ _ := by simp [Ty.Refers, Ty.symbol?]

/-! ## Levels -/

theorem eq_of_returns {α : Type} {m : Session α} {trail : TypeTrail} {v w : α}
    (hv : Session.Returns trail.opened.Idle m trail.opened v)
    (hw : Session.Returns trail.opened.Idle m trail.opened w) : v = w := by
  obtain ⟨a, ha, hav⟩ := hv
  obtain ⟨b, hb, hbw⟩ := hw
  have hab : a = b := congrArg Prod.fst (Option.some.inj (ha.symm.trans hb))
  exact (hav trail.idle_opened).symm.trans (hab.trans (hbw trail.idle_opened))

section

variable (c : Checker) (trail : TypeTrail)

theorem answers_typing : Session.AnswersTypes c c.typing (c.trailLimit + 1) :=
  Session.answersTypes_within c c.trailLimit

theorem answers_rules_typing : Session.AnswersTypes c (rules c c.typing) (c.trailLimit + 1 + 1) :=
  Session.answersTypes_rules (answers_typing c)

theorem room_lt : trail.opened.typeRoom c < c.trailLimit + 1 :=
  Nat.lt_succ_of_le (trail.opened.typeRoom_le c)

theorem typing_typeAt (env : TypeEnv) (type : TypeExpr) :
    c.typing.typeAt trail env type = typeRule c c.typing trail env type :=
  eq_of_returns ((answers_typing c).typeAt trail.opened (room_lt c trail) env type)
    ((answers_rules_typing c).typeAt trail.opened (Nat.lt_succ_of_lt (room_lt c trail)) env type)

theorem typing_signatureAt (env : TypeEnv) (signature : Signature) :
    c.typing.signatureAt trail env signature = signatureRule c c.typing trail env signature :=
  eq_of_returns ((answers_typing c).signatureAt trail.opened (room_lt c trail) env signature)
    ((answers_rules_typing c).signatureAt trail.opened (Nat.lt_succ_of_lt (room_lt c trail)) env
      signature)

theorem typing_objectAt (env : TypeEnv) (members : List TypeMember) :
    c.typing.objectAt trail env members =
      Members.toObject (memberRules c c.typing trail env members) :=
  eq_of_returns ((answers_typing c).objectAt trail.opened (room_lt c trail) env members)
    ((answers_rules_typing c).objectAt trail.opened (Nat.lt_succ_of_lt (room_lt c trail)) env
      members)

theorem typing_propertiesOf (t : Ty) :
    c.typing.propertiesOf trail t = propertiesRule c c.typing trail t :=
  eq_of_returns ((answers_typing c).propertiesOf trail.opened (room_lt c trail) t)
    ((answers_rules_typing c).propertiesOf trail.opened (Nat.lt_succ_of_lt (room_lt c trail)) t)

end

/-! ## Trails -/

/-- All questions about what mentions only named symbols are answered alike on the two trails. -/
structure Indifferent (c : Checker) (named : Nat → Prop) (trail trail' : TypeTrail) : Prop where
  answers : SameAnswers c named (·.Everywhere (Ty.Refers named))
    (·.Everywhere (Ty.Refers named)) c.typing c.typing trail trail'
  propertiesOf : ∀ t : Ty, t.Everywhere (Ty.Refers named) →
    c.typing.propertiesOf trail' t = c.typing.propertiesOf trail t

/-- The two trails make no difference once one more of the named symbols is open. -/
structure IndifferentBehind (c : Checker) (named : Nat → Prop) (trail trail' : TypeTrail) : Prop
    extends trail.SameFor named trail' where
  openType : ∀ id, named id → (c.binding.symbol id).declarations ≠ [] →
    id ∉ trail.types → Indifferent c named (trail.openType id) (trail'.openType id)
  openHeritage : ∀ id, named id → (c.binding.symbol id).declarations ≠ [] →
    id ∉ trail.heritage → Indifferent c named (trail.openHeritage id) (trail'.openHeritage id)

namespace IndifferentBehind

variable (hnamed : c.Closed named) {trail trail' : TypeTrail}
  (h : IndifferentBehind c named trail trail')

include hnamed h

theorem declaredProperties {id : Nat} (hid : named id) {args : List Ty}
    (hargs : ∀ t ∈ args, t.Everywhere (Ty.Refers named)) :
    Typing.declaredProperties c c.typing trail' id args =
      Typing.declaredProperties c c.typing trail id args := by
  by_cases hopen : id ∈ trail.heritage
  · rw [declaredProperties_of_mem hopen,
      declaredProperties_of_mem ((h.heritage id hid).mpr hopen)]
  rw [declaredProperties_eq hopen, declaredProperties_eq (mt (h.heritage id hid).mp hopen)]
  by_cases hempty : (c.binding.symbol id).declarations = []
  · simp [ownParts, hempty]
  have hinner := h.openHeritage id hid hempty hopen
  have hP := invariantFor_refers hnamed
  have hparts : ownParts c c.typing trail' id args = ownParts c c.typing trail id args :=
    List.foldl_rel (r := Eq) rfl fun d hd _ found hfound ↦ by
      rw [hfound]
      exact hinner.answers.addDeclaration (hnamed id hid d hd) hargs found
  have hbases := (everywhere_foldl_addDeclaration hP (keep_rulesWithin hP c.trailLimit)
    (trail.openHeritage id) hargs (hnamed id hid) (fun p hp ↦ absurd hp List.not_mem_nil)
    (fun t ht ↦ absurd ht List.not_mem_nil)).2
  rw [hparts, List.flatMap_def, List.flatMap_def]
  exact congrArg (fun pss ↦ List.foldl Members.addNew _ (List.flatten pss))
    (List.map_congr_left fun t ht ↦ hinner.propertiesOf t (hbases t ht))

theorem propertiesRule {t : Ty} (ht : t.Everywhere (Ty.Refers named)) :
    Typing.propertiesRule c c.typing trail' t = Typing.propertiesRule c c.typing trail t := by
  induction ht with
  | aliased _ _ _ _ ih => rw [Typing.propertiesRule, Typing.propertiesRule, ih]
  | reference here arguments _ =>
      rw [Typing.propertiesRule, Typing.propertiesRule]
      exact h.declaredProperties hnamed (here _ rfl) arguments
  | intersection _ _ ih =>
      rw [Typing.propertiesRule, Typing.propertiesRule, propertiesRules_eq_map,
        propertiesRules_eq_map, List.map_congr_left ih]
  | _ => simp only [Typing.propertiesRule]

theorem opensSame {id : Nat} (hid : named id) :
    OpensSame c named (·.Everywhere (Ty.Refers named)) (·.Everywhere (Ty.Refers named)) c.typing
      c.typing trail trail' id where
  mentions := hnamed id hid
  listed := h.types id hid
  answers hdeclared hopen := (h.openType id hid hdeclared hopen).answers

theorem congruent :
    Congruent c c named (·.Everywhere (Ty.Refers named))
      (fun env env' ↦ env' = env ∧ env.Everywhere (Ty.Refers named)) c.typing c.typing trail
      trail' := by
  have hP := invariantFor_refers hnamed
  have hask := keep_rulesWithin hP c.trailLimit
  exact {
    options := rfl
    bindNames := fun ⟨heq, henv⟩ names ↦ ⟨heq ▸ rfl, hP.everywhere_bindNames henv names⟩
    boundType? := fun ⟨heq, _⟩ _ ↦ heq ▸ rfl
    template := fun ⟨heq, _⟩ _ ↦ heq ▸ rfl
    typeRule := fun ⟨_, henv⟩ type htype ↦ everywhere_typeRule hP hask henv type htype
    entity? := fun ⟨heq, _⟩ _ ↦ heq ▸ rfl
    importedSymbol? := fun ⟨heq, _⟩ _ _ ↦ heq ▸ rfl
    declaredType := fun hid _ hargs ↦ (h.opensSame hnamed hid).declaredType hargs
    queryType := fun ⟨heq, _⟩ _ hpath ↦
      OpensSame.queryType (heq ▸ rfl) fun _ hid ↦ h.opensSame hnamed (hpath.entity hid)
    indexedType := fun hobject _ ↦ by
      unfold indexedType
      rw [h.propertiesRule hnamed hobject] }

theorem indifferent : Indifferent c named trail trail' := by
  have hP := invariantFor_refers hnamed
  have hask := keep_rulesWithin hP c.trailLimit
  have hcongruent := h.congruent hnamed
  refine ⟨⟨everywhere_declarationEnv, fun henv name _ ht ↦ everywhere_bind henv ht,
    fun _ ↦ .param (hP.plain _ rfl rfl), fun henv type htype ↦ hask.typeAt _ _ type henv htype,
    ?typeAt, ?signatureAt, ?objectAt⟩, ?propertiesOf⟩
  case typeAt =>
    intro env henv type htype
    rw [typing_typeAt, typing_typeAt]
    exact typeRule_congr hcongruent ⟨rfl, henv⟩ type htype
  case signatureAt =>
    intro env henv signature hsignature
    rw [typing_signatureAt, typing_signatureAt]
    exact signatureRule_congr hcongruent ⟨rfl, henv⟩ signature hsignature
  case objectAt =>
    intro env henv members hmembers
    rw [typing_objectAt, typing_objectAt]
    exact congrArg Members.toObject (memberRules_congr hcongruent ⟨rfl, henv⟩ members hmembers)
  case propertiesOf =>
    intro t ht
    rw [typing_propertiesOf, typing_propertiesOf]
    exact h.propertiesRule hnamed ht

end IndifferentBehind

theorem lt_of_declarations_ne_nil {id : Nat} (h : (c.binding.symbol id).declarations ≠ []) :
    id < c.binding.symbols.size := by
  obtain ⟨d, hd⟩ := List.exists_mem_of_ne_nil _ h
  exact Binding.lt_of_mem_declarations hd

/-- What is open besides the named symbols does not matter to what mentions only these. -/
theorem indifferent_of_sameFor (hnamed : c.Closed named) {trail trail' : TypeTrail}
    (hsame : trail.SameFor named trail') : Indifferent c named trail trail' := by
  -- Each symbol that is opened leaves less room on the trail.
  induction hroom : trail.opened.typeRoom c using Nat.strong_induction_on
    generalizing trail trail' with
  | h room ih =>
      subst hroom
      refine IndifferentBehind.indifferent hnamed ⟨hsame, ?_, ?_⟩
      · intro id _ hdeclared hnew
        exact ih _ (Opened.typeRoom_openType_lt (lt_of_declarations_ne_nil hdeclared) hnew)
          (hsame.openType id) rfl
      · intro id _ hdeclared hnew
        exact ih _ (Opened.typeRoom_openHeritage_lt (lt_of_declarations_ne_nil hdeclared) hnew)
          (hsame.openHeritage id) rfl

end Typing

end PluginSurface
