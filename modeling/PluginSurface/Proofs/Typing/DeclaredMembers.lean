import PluginSurface.Proofs.Typing.MemberOrder

/-!
# The members of one declaration

A class or interface has a property under each name that one of its declarations has a member of.
Under a name that no other declaration has, it is the property of that declaration alone.
-/

namespace PluginSurface

namespace Members

theorem filter_name_eq_nil {name : String} {ps : List Property} (h : has name ps = false) :
    ps.filter (·.name == name) = [] := by
  refine List.filter_eq_nil_iff.mpr fun p hp hname ↦ Bool.false_ne_true (h.symm.trans ?_)
  exact List.any_eq_true.mpr ⟨p, hp, hname⟩

/-- Adding something to properties changes what they have under its own names, and this depends on
nothing else that they have. -/
structure AddsUnder {α : Type} (add : List Property → α → List Property)
    (under : α → String → Bool) : Prop where
  has : ∀ ps a name, has name (add ps a) = (Members.has name ps || under a name)
  other : ∀ ps a name, under a name = false →
    (add ps a).filter (·.name == name) = ps.filter (·.name == name)
  congr : ∀ ps qs a name, ps.filter (·.name == name) = qs.filter (·.name == name) →
    (add ps a).filter (·.name == name) = (add qs a).filter (·.name == name)

namespace AddsUnder

variable {α β : Type} {add : List Property → α → List Property}
    {under : α → String → Bool}

theorem of_filter
    (hhas : ∀ ps a name, Members.has name (add ps a) = (Members.has name ps || under a name))
    (hfilter : ∀ ps a name, (add ps a).filter (·.name == name) =
      if under a name then add (ps.filter (·.name == name)) a else ps.filter (·.name == name)) :
    AddsUnder add under where
  has := hhas
  other ps a name hunder := by rw [hfilter, hunder, if_neg Bool.false_ne_true]
  congr ps qs a name h := by rw [hfilter, hfilter, h]

theorem foldl (h : AddsUnder add under) :
    AddsUnder (fun ps (as : List α) ↦ as.foldl add ps) fun as name ↦
    as.any (under · name) where
  has ps as name := by
    induction as generalizing ps with
    | nil => exact (Bool.or_false _).symm
    | cons a rest ih => rw [List.foldl_cons, ih, h.has, List.any_cons, Bool.or_assoc]
  other ps as name hunder := by
    induction as generalizing ps with
    | nil => rfl
    | cons a rest ih =>
        rw [List.any_cons, Bool.or_eq_false_iff] at hunder
        exact (ih _ hunder.2).trans (h.other ps a name hunder.1)
  congr ps qs as name hsame := by
    induction as generalizing ps qs with
    | nil => exact hsame
    | cons a rest ih => exact ih _ _ (h.congr ps qs a name hsame)

/-- What adds something as one of these does adds it under the names that it gives to no
properties. -/
theorem of_each {add : List Property → β → List Property}
    (h : ∀ b, ∃ (α : Type) (add' : List Property → α → List Property)
      (under : α → String → Bool) (a : α), AddsUnder add' under ∧
      ∀ ps, add ps b = add' ps a) :
    AddsUnder add fun b name ↦ Members.has name (add [] b) where
  has ps b name := by
    obtain ⟨α, add', under, a, hadds, heq⟩ := h b
    rw [heq, heq, hadds.has, hadds.has []]
    rfl
  other ps b name hunder := by
    obtain ⟨α, add', under, a, hadds, heq⟩ := h b
    rw [heq, hadds.has] at hunder
    rw [heq]
    exact hadds.other ps a name hunder
  congr ps qs b name hsame := by
    obtain ⟨α, add', under, a, hadds, heq⟩ := h b
    rw [heq, heq]
    exact hadds.congr ps qs a name hsame

/-- Under a name that is added once, there is what would be there without the rest. -/
theorem foldl_alone (h : AddsUnder add under) {before after : List α} {a : α} {name : String}
    (halone : ∀ other ∈ before ++ after, under other name = false) :
    ((before ++ a :: after).foldl add []).filter (·.name == name) =
      (add [] a).filter (·.name == name) := by
  have hnone {as : List α} (has : as ⊆ before ++ after) : as.any (under · name) = false :=
    List.any_eq_false.mpr fun b hb ↦ Bool.eq_false_iff.mp (halone b (has hb))
  rw [List.foldl_append, List.foldl_cons,
    h.foldl.other _ after name (hnone (List.subset_append_right _ _))]
  exact h.congr _ _ a name (h.foldl.other [] before name (hnone (List.subset_append_left _ _)))

end AddsUnder

theorem has_change {f : Property → Property} (hf : ∀ p, (f p).name = p.name) (new : Property)
    (ps : List Property) (name : String) :
    has name (change f new ps) = (has name ps || new.name == name) := by
  rw [Bool.eq_iff_iff, Bool.or_eq_true, has_iff, has_iff, names_change hf, beq_iff_eq]
  split
  next hnew => exact ⟨.inl, fun h ↦ h.elim id fun heq ↦ heq ▸ hnew⟩
  next => simp [eq_comm]

theorem addsUnder_addNew : AddsUnder addNew fun p name ↦ p.name == name :=
  .of_filter (fun ps p name ↦ has_change (fun _ ↦ rfl) p ps name) filter_addNew

theorem addsUnder_addMember : AddsUnder addMember fun m name ↦ m.key? == some name := by
  refine .of_filter (fun ps m name ↦ ?_) filter_addMember
  cases m with
  | property key optional readonly type => exact has_change (fun _ ↦ rfl) _ ps name
  | method key optional f => exact has_change (fun p ↦ name_overload p f) _ ps name
  | getter key type => exact has_change (name_withGetter type) _ ps name
  | setter key type => exact has_change name_withSetter _ ps name
  | call f | construct f | index i => exact (Bool.or_false _).symm

theorem has_toObject (ms : List Member) (name : String) :
    has name (toObject ms).properties = ms.any (·.key? == some name) :=
  addsUnder_addMember.foldl.has [] ms name

end Members

namespace Typing

open Members

variable (ask : TypeRules) (trail : TypeTrail) (args : List Ty)

/-- Adds the properties that a declaration declares itself. -/
def addOwn (ps : List Property) (d : Declaration) : List Property :=
  (addDeclaration ask trail args (ps, []) d).1

theorem addDeclaration_fst (ps : List Property) (bases : List Ty) (d : Declaration) :
    (addDeclaration ask trail args (ps, bases) d).1 = addOwn ask trail args ps d := by
  unfold addOwn addDeclaration
  cases d.kind <;> rfl

theorem foldl_addDeclaration_fst (ds : List Declaration) (found : List Property × List Ty) :
    (ds.foldl (addDeclaration ask trail args) found).1 =
      ds.foldl (addOwn ask trail args) found.1 := by
  induction ds generalizing found with
  | nil => rfl
  | cons d rest ih => rw [List.foldl_cons, ih, addDeclaration_fst, List.foldl_cons]

theorem addsUnder_addOwn :
    AddsUnder (addOwn ask trail args) fun d name ↦ has name (addOwn ask trail args [] d) := by
  refine .of_each fun d ↦ ?_
  unfold addOwn addDeclaration
  cases d.kind with
  | classDecl decl => exact ⟨_, _, _, _, addsUnder_addMember.foldl, fun ps ↦ rfl⟩
  | interfaceDecl decl => exact ⟨_, _, _, _, addsUnder_addNew.foldl, fun ps ↦ rfl⟩
  | _ => exact ⟨_, _, _, [], addsUnder_addNew.foldl, fun ps ↦ rfl⟩

theorem has_objectAt_within (c : Checker) (n : Nat) (env : TypeEnv) (ms : List TypeMember)
    (key : String) : has key ((rulesWithin c n).objectAt trail env ms).properties =
      ms.any (·.key? == some key) := by
  cases n with
  | zero | succ n =>
      unfold rulesWithin rules
      rw [has_toObject, memberRules_eq_map, List.any_map]
      simp only [Function.comp_def, key?_memberRule]

end Typing

namespace Checker

variable (c : Checker) (id : Nat) (args : List Ty)

/-- The properties that one declaration of a class or interface declares. -/
def declaredBy (d : Declaration) : List Property := Typing.addOwn c.inner ⟨[], [id]⟩ args [] d

theorem ownProperties_eq : c.ownProperties id args =
    (c.binding.symbol id).declarations.foldl (Typing.addOwn c.inner ⟨[], [id]⟩ args) [] :=
  Typing.foldl_addDeclaration_fst _ _ _ _ _

theorem has_ownProperties (name : String) : Members.has name (c.ownProperties id args) =
    (c.binding.symbol id).declarations.any fun d ↦ Members.has name (c.declaredBy id args d) := by
  rw [ownProperties_eq]
  exact (Typing.addsUnder_addOwn _ _ _).foldl.has [] _ name

/-- Under a name that one declaration has alone, the properties are those that it declares. -/
theorem filter_ownProperties {before after : List Declaration} {d : Declaration} {name : String}
    (hds : (c.binding.symbol id).declarations = before ++ d :: after)
    (halone : ∀ other ∈ before ++ after, Members.has name
      (c.declaredBy id args other) = false) :
    (c.ownProperties id args).filter (·.name == name) =
      (c.declaredBy id args d).filter (·.name == name) := by
  rw [ownProperties_eq, hds]
  exact (Typing.addsUnder_addOwn _ _ _).foldl_alone halone

variable {c id args}

/-- An interface declares properties under the names of its members. -/
theorem has_declaredBy {d : Declaration} {decl : InterfaceDecl}
    (hsymbols : 0 < c.binding.symbols.size) (hkind : d.kind = .interfaceDecl decl) (name : String) :
    Members.has name (c.declaredBy id args d) = decl.members.any (·.key? == some name) := by
  obtain ⟨n, hn⟩ : ∃ n, c.trailLimit = n + 1 :=
    Nat.exists_eq_succ_of_ne_zero (by unfold trailLimit; omega)
  unfold declaredBy inner Typing.addOwn Typing.addDeclaration
  rw [hn, hkind]
  refine (Members.addsUnder_addNew.foldl.has [] _ name).trans ?_
  exact Typing.has_objectAt_within _ c n _ _ name

/-- Nothing is inherited under a name that is declared. -/
theorem not_has_inheritedProperties {key : String}
    (hkey : Members.has key (c.ownProperties id args) = true) :
    Members.has key (c.inheritedProperties id args) = false := by
  refine (Members.addsUnder_addNew.foldl.has [] _ key).trans (List.any_eq_false.mpr ?_)
  intro q hq hname
  rw [beq_iff_eq] at hname
  have hdeclared := (List.mem_filter.mp hq).2
  rw [hname, hkey] at hdeclared
  cases hdeclared

theorem filter_propertiesOf_reference {key : String}
    (hkey : Members.has key (c.ownProperties id args) = true) (name : String) :
    (c.propertiesOf (.reference id name args)).filter (·.name == key) =
      (c.ownProperties id args).filter (·.name == key) := by
  rw [propertiesOf_reference, List.filter_append,
    Members.filter_name_eq_nil (not_has_inheritedProperties hkey), List.append_nil]

/-- Whatever else is declared, there is a property under the name of each member of an interface;
under a name that no other declaration has, it is the one that the interface declares. -/
theorem propertiesOf_of_interface {d : Declaration} {decl : InterfaceDecl}
    (hd : d ∈ (c.binding.symbol id).declarations) (hkind : d.kind = .interfaceDecl decl)
    {key : String} (hkey : ∃ m ∈ decl.members, m.key? = some key) (name : String) :
    Members.has key (c.propertiesOf (.reference id name args)) = true ∧
    ∀ before after, (c.binding.symbol id).declarations = before ++ d :: after →
      (∀ other ∈ before ++ after, Members.has key (c.declaredBy id args other) = false) →
      (c.propertiesOf (.reference id name args)).filter (·.name == key) =
        (c.declaredBy id args d).filter (·.name == key) := by
  have hsymbols : 0 < c.binding.symbols.size :=
    Nat.zero_lt_of_lt (Binding.lt_of_mem_declarations hd)
  have hown : Members.has key (c.ownProperties id args) = true := by
    rw [has_ownProperties]
    refine List.any_eq_true.mpr ⟨d, hd, ?_⟩
    rw [has_declaredBy hsymbols hkind]
    simpa using hkey
  refine ⟨?_, fun before after hds halone ↦ ?_⟩
  · rw [propertiesOf_reference, Members.has_append, hown, Bool.true_or]
  · rw [filter_propertiesOf_reference hown, filter_ownProperties c id args hds halone]

end Checker

end PluginSurface
