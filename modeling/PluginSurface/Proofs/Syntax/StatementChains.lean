import PluginSurface.Proofs.Syntax.TypeChains

/-!
# Chains of types in declarations

The types that stand directly in a declaration are read by the rules for types, with at most one
type around them: a base of a class or an interface, or a predicate in a signature.

Main statement: `SourceFile.shallow_of_hasType`.
-/

namespace PluginSurface

open PluginSurface.Parser TypeGrammar TypeExpr

/-- The types in a declaration, without those in the statements inside it. -/
def Decl.types (d : Decl) : List TypeExpr := Statement.types .all ⟨0, [], d, ⟨0, 0⟩⟩

def ClassMemberKind.types (k : ClassMemberKind) : List TypeExpr :=
  ClassMember.types .all ⟨[], k, ⟨0, 0⟩⟩

theorem Decl.IsPlain.types_eq {d : Decl} (h : d.IsPlain) : d.types = [] := by
  cases d <;> first | rfl | cases h

namespace StatementGrammar

variable {m : Nat}

/-- The types in the declaration are shallow. -/
abbrev HoldsShallow (m : Nat) (d : Decl) : Prop := AllOf (Shallow m) d.types

section

variable {types : TypeGrammar}
    (htype : ∀ conditional, Ensures (Shallow m) (types.type conditional))

theorem ensures_plain {p : Parser Decl} (h : Ensures Decl.IsPlain p) : Ensures (HoldsShallow m) p :=
  h.mono fun d hd ↦ by
    rw [HoldsShallow, hd.types_eq]
    exact nofun

include htype

theorem ensures_declarator :
    Ensures (fun d ↦ AllOf (Shallow m) d.type.toList) (declarator types) := by
  refine ensures_then fun _ ↦ ?_
  extract_lets named
  have hnamed (name : Option Name) :
      Ensures (fun d ↦ AllOf (Shallow m) d.type.toList) (named name) := by
    refine ensures_then fun _ ↦ ensures_bind (ensures_ascription (htype true)) fun type h ↦ ?_
    refine ensures_then fun _ ↦ ensures_ite ?_ (ensures_pure h)
    exact ensures_then fun _ ↦ ensures_pure h
  exact ensures_ite (ensures_then fun _ ↦ ensures_then hnamed)
    (ensures_then fun _ ↦ ensures_then hnamed)

theorem ensures_variableStatement : Ensures (HoldsShallow m) (variableStatement types) := by
  refine ensures_then fun _ ↦ ?_
  refine ensures_bind (ensures_separated "," (ensures_declarator htype)) fun declarators h ↦ ?_
  exact ensures_then fun _ ↦ ensures_pure (allOf_flatMap h)

theorem ensures_aliasDeclaration :
    Ensures (fun a ↦ HoldsShallow m (.aliasDecl a)) (aliasDeclaration types) := by
  refine ensures_then fun _ ↦ ensures_then fun _ ↦ ?_
  refine ensures_bind (ensures_typeParams (htype true)) fun typeParams htypeParams ↦ ?_
  refine ensures_then fun _ ↦ ensures_bind (htype true) fun type h ↦ ?_
  refine ensures_then fun _ ↦ ensures_pure ?_
  exact allOf_append htypeParams (allOf_cons h nofun)

/-- A base is a type around its arguments. -/
theorem ensures_heritageType : Ensures (Shallow (m + 1)) (heritageType types) :=
  ensures_then fun _ ↦ ensures_withArgs (htype true) fun _ ↦ rfl

theorem ensures_interfaceDeclaration :
    Ensures (fun i ↦ HoldsShallow (m + 1) (.interfaceDecl i)) (interfaceDeclaration types) := by
  refine ensures_then fun _ ↦ ensures_then fun _ ↦ ?_
  refine ensures_bind (ensures_typeParams (htype true)) fun typeParams htypeParams ↦ ?_
  refine ensures_bind (ensures_afterWord "extends"
    (ensures_separated "," (ensures_heritageType htype)))
    fun bases hbases ↦ ?_
  refine ensures_map (ensures_typeMembers (htype true)) fun members hmembers ↦ ?_
  refine allOf_append (allOf_shallow_mono htypeParams (Nat.le_succ m)) (allOf_append ?_ hmembers)
  cases bases with
  | none => exact nofun
  | some bases => exact hbases bases rfl

theorem ensures_heritage :
    Ensures (fun h ↦ AllOf (Shallow (m + 1)) (h.1.toList ++ h.2)) (heritage types) := by
  have hbase := ensures_heritageType htype
  refine ensures_rounds (I := fun h ↦ AllOf (Shallow (m + 1)) (h.1.toList ++ h.2)) ?_ nofun
  rintro ⟨base, interfaces⟩ hfound
  refine ensures_then fun _ ↦
    ensures_ite ?_ (ensures_then fun _ ↦ ensures_ite ?_ (ensures_pure hfound))
  · refine ensures_bind hbase fun type htype ↦ ensures_then fun _ ↦ ?_
    refine ensures_ite (ensures_then fun _ ↦ ensures_pure hfound) (ensures_pure ?_)
    exact allOf_cons htype fun t ht ↦ hfound t (List.mem_append_right _ ht)
  · refine ensures_map (ensures_separated "," hbase) fun more hmore ↦ ?_
    change AllOf _ (base.toList ++ (interfaces ++ more))
    rw [← List.append_assoc]
    exact allOf_append hfound hmore

variable {block : Parser (List Statement)}

theorem ensures_functionDeclaration :
    Ensures (HoldsShallow (m + 1)) (functionDeclaration types block) := by
  refine ensures_then fun _ ↦ ensures_then fun _ ↦ ensures_then fun _ ↦ ?_
  extract_lets named
  have hnamed (name : Option Name) : Ensures (HoldsShallow (m + 1)) (named name) :=
    ensures_bind (ensures_signature (htype true)) fun _ h ↦ ensures_then fun _ ↦ ensures_pure h
  exact ensures_ite (ensures_then fun _ ↦ ensures_then hnamed) (ensures_then hnamed)

theorem ensures_classMemberKind :
    Ensures (fun kind ↦ AllOf (Shallow (m + 1)) kind.types) (classMemberKind types block) := by
  have hsignature := ensures_signature (htype true)
  refine ensures_then fun _ ↦ ensures_then fun _ ↦ ensures_ite ?_ (ensures_then fun _ ↦
    ensures_ite ?_ (ensures_then fun _ ↦ ensures_ite ?_ ?_))
  · refine ensures_then fun _ ↦ ensures_bind hsignature fun signature h ↦
      ensures_then fun _ ↦ ?_
    exact ensures_pure (allOf_params h)
  · refine ensures_then fun _ ↦ ensures_then fun _ ↦
      ensures_bind hsignature fun signature h ↦ ?_
    refine ensures_then fun _ ↦ ensures_pure ?_
    split
    · exact allOf_result h
    · exact allOf_firstParam h
  · refine ensures_bind (ensures_indexSignature (htype true) _) fun index h ↦
      ensures_then fun _ ↦ ?_
    exact ensures_pure (allOf_shallow_mono h (Nat.le_succ m))
  · refine ensures_then fun _ ↦ ensures_then fun _ ↦ ensures_then fun _ ↦
      ensures_then fun _ ↦
      ensures_then fun _ ↦ ensures_ite ?_ ?_
    · exact ensures_bind hsignature fun signature h ↦ ensures_then fun _ ↦ ensures_pure h
    refine ensures_bind (ensures_ascription (htype true)) fun type h ↦ ensures_then fun _ ↦ ?_
    extract_lets property
    have hproperty : Ensures (fun kind ↦ AllOf (Shallow (m + 1)) kind.types) (property ()) :=
      ensures_then fun _ ↦ ensures_pure (allOf_shallow_mono h (Nat.le_succ m))
    exact ensures_ite (ensures_then fun _ ↦ hproperty) hproperty

theorem ensures_classMember :
    Ensures (fun member ↦ AllOf (Shallow (m + 1)) member.kind.types)
      (classMember types block) := by
  refine ensures_then fun _ ↦ ensures_then fun _ ↦ ensures_then fun _ ↦ ensures_ite ?_ ?_
  · exact ensures_then fun _ ↦ ensures_then fun _ ↦ ensures_then fun _ ↦ ensures_pure nofun
  · refine ensures_then fun _ ↦ ensures_bind (ensures_classMemberKind htype) fun kind h ↦ ?_
    exact ensures_then fun _ ↦ ensures_pure h

theorem ensures_classDeclaration :
    Ensures (fun c ↦ HoldsShallow (m + 1) (.classDecl c)) (classDeclaration types block) := by
  refine ensures_then fun _ ↦ ensures_then fun _ ↦ ?_
  extract_lets named
  have hnamed (name : Option Name) :
      Ensures (fun c ↦ HoldsShallow (m + 1) (.classDecl c)) (named name) := by
    refine ensures_bind (ensures_typeParams (htype true)) fun typeParams htypeParams ↦ ?_
    refine ensures_bind (ensures_heritage htype) fun bases hbases ↦ ?_
    refine ensures_map (ensures_braced _ (ensures_classMember htype)) fun members hmembers ↦ ?_
    exact allOf_append (allOf_shallow_mono htypeParams (Nat.le_succ m))
      (allOf_append hbases (allOf_flatMap hmembers))
  exact ensures_ite (ensures_then fun _ ↦ ensures_then hnamed) (ensures_then hnamed)

omit htype in
theorem ensures_moduleDeclaration : Ensures (HoldsShallow m) (moduleDeclaration block) := by
  refine ensures_then fun _ ↦ ensures_then fun _ ↦ ?_
  extract_lets named
  have hnamed (name : ModuleName) : Ensures (HoldsShallow m) (named name) :=
    ensures_then fun _ ↦ ensures_pure nofun
  exact ensures_ite (ensures_then fun _ ↦ ensures_then hnamed)
    (ensures_then fun _ ↦ ensures_then hnamed)

theorem ensures_declaration (modified : Bool) :
    Ensures (HoldsShallow (m + 1)) (declaration types block modified) := by
  have hmono {d : Decl} (h : HoldsShallow m d) : HoldsShallow (m + 1) d :=
    allOf_shallow_mono h (Nat.le_succ m)
  refine ensures_then fun _ ↦ ensures_then fun _ ↦ ?_
  extract_lets skipped refused word
  have hskipped : Ensures (HoldsShallow (m + 1)) (skipped ()) :=
    ensures_then fun _ ↦ ensures_pure nofun
  have hrefused : Ensures (HoldsShallow (m + 1)) (refused ()) :=
    ensures_ite (ensures_then fun _ ↦ hskipped) hskipped
  refine ensures_ite (ensures_then fun _ ↦ ensures_pure nofun) (ensures_ite ?_ hrefused)
  refine ensures_ite (ensures_map (ensures_classDeclaration htype) fun _ h ↦ h) ?_
  refine ensures_ite (ensures_map (ensures_interfaceDeclaration htype) fun _ h ↦ h) ?_
  refine ensures_then fun _ ↦ ?_
  refine ensures_ite (ensures_map (ensures_aliasDeclaration htype) fun _ ↦ hmono) ?_
  refine ensures_ite (ensures_plain plain_enumDeclaration) ?_
  refine ensures_ite (ensures_functionDeclaration htype) ?_
  refine ensures_ite ((ensures_variableStatement htype).mono fun _ ↦ hmono) ?_
  refine ensures_ite ensures_moduleDeclaration ?_
  refine ensures_ite (ensures_then fun _ ↦ ensures_then fun _ ↦ ensures_pure nofun) ?_
  exact ensures_ite (ensures_plain plain_importDeclaration) hrefused

theorem ensures_modifiedDeclaration :
    Ensures (fun d ↦ HoldsShallow (m + 1) d.2) (modifiedDeclaration types block) := by
  have hplain {p : Parser Decl} (modifiers : List Modifier) (h : Ensures Decl.IsPlain p) :
      Ensures (fun d ↦ HoldsShallow (m + 1) d.2) (do return (modifiers, ← p)) :=
    ensures_map (ensures_plain h) fun _ h ↦ h
  unfold modifiedDeclaration
  extract_lets unmodified rest
  have hrest (exported : List Modifier) :
      Ensures (fun d ↦ HoldsShallow (m + 1) d.2) (rest () exported) :=
    ensures_then fun _ ↦ ensures_map (ensures_declaration htype _) fun _ h ↦ h
  refine ensures_then fun _ ↦ ensures_ite ?_ (hrest _)
  refine ensures_then fun _ ↦ ensures_then fun _ ↦
    ensures_ite ?_ (ensures_ite ?_ (ensures_ite ?_ ?_))
  · exact ensures_then fun _ ↦ ensures_then fun _ ↦ hplain _ (plain_exportAssignment _)
  · exact ensures_then fun _ ↦ hplain _ plain_exportDeclaration
  · exact ensures_then fun _ ↦ ensures_then fun _ ↦ ensures_pure nofun
  · refine ensures_then fun _ ↦ ensures_then fun _ ↦ ensures_ite ?_ (hrest _)
    refine ensures_then fun _ ↦ ensures_then fun _ ↦ ensures_ite (hrest _) ?_
    exact hplain _ (plain_exportAssignment _)

end

/-! ## Statements -/

end StatementGrammar

/-- The types in the statement and in those inside it are shallow. -/
def Statement.IsShallow (m : Nat) (s : Statement) : Prop :=
  ∀ t ∈ s.subtree, AllOf (Shallow m) t.decl.types

namespace StatementGrammar

variable {m k : Nat}

theorem isShallow_mono {body : List Statement} (h : AllOf (Statement.IsShallow m) body)
    (hle : m ≤ k) : AllOf (Statement.IsShallow k) body :=
  fun s hs t ht ↦ allOf_shallow_mono (h s hs t ht) hle

/-- The bodies that were read hold shallow types. -/
def ShallowBodies (m : Nat) (bodies : List (List Statement)) (_ : Cursor) : Prop :=
  AllOf (AllOf (Statement.IsShallow m)) bodies

instance : Steady (ShallowBodies m) := ⟨fun _ h ↦ h⟩

variable {types : TypeGrammar} (hreads : ∀ conditional, OnlyReads (types.type conditional))
  (htype : ∀ conditional, Ensures (Shallow m) (types.type conditional))
  {block : Parser (List Statement)} (hblock : Ensures (AllOf (Statement.IsShallow (m + 1))) block)

include hreads htype hblock

theorem ensures_statement : Ensures (Statement.IsShallow (m + 1)) (statement types block) := by
  intro s a u h
  obtain ⟨d, hd, rfl⟩ := statement_eq_ok h
  have hgathers : Gathers (ShallowBodies (m + 1)) block fun body ↦ [body] :=
    fun bodies s body t hbodies hbody ↦
      allOf_append hbodies (allOf_cons (hblock s body t hbody) nofun)
  have hbodies := gathers_modifiedDeclaration hreads hgathers [] _ d u nofun hd
  intro t ht
  rw [Statement.subtree_eq, Statement.children_eq] at ht
  rcases List.mem_cons.mp ht with rfl | ht
  · exact ensures_modifiedDeclaration htype _ d u hd
  · obtain ⟨c, hc, ht⟩ := List.mem_flatMap.mp ht
    obtain ⟨body, hbody, hc⟩ := List.mem_flatten.mp hc
    exact hbodies body hbody c hc t ht

theorem ensures_statements (inBraces : Bool) :
    Ensures (AllOf (Statement.IsShallow (m + 1))) (statements types block inBraces) := by
  refine ensures_rounds (I := AllOf (Statement.IsShallow (m + 1))) (fun found hfound ↦ ?_) nofun
  intro s r u h
  rcases statementsStep_eq_ok h with
    ⟨rfl, -⟩ | ⟨rfl, -⟩ | ⟨rfl, -⟩ | ⟨a, rfl, -, -, ha⟩
  · exact allOf_reverse hfound
  · exact allOf_reverse hfound
  · exact hfound
  · exact allOf_cons (ensures_statement hreads htype hblock s a u ha) hfound

omit hreads htype hblock in
theorem shallow_block (n : Nat) :
    Ensures (AllOf (Statement.IsShallow (5 * n + 1))) (StatementGrammar.block n) := by
  induction n with
  | zero => exact ensures_then fun _ ↦ ensures_fail _
  | succ n ih =>
      refine ensures_then fun _ ↦ ensures_nested ?_
      have hbody := ensures_statements (onlyReads_within n).1 (shallow_within n).1 ih true
      exact hbody.mono fun _ h ↦ isShallow_mono h (by omega)

end StatementGrammar

/-! ## Source texts -/

namespace SourceFile

open StatementGrammar

/-- The type stands in a declaration of the text, at any depth. -/
def HasType (f : SourceFile) (t : TypeExpr) : Prop :=
  ∃ s ∈ f.allStatements, ∃ u ∈ s.types .all, t.Within .all u

theorem shallow_of_hasType {source : String} {f : SourceFile} (h : ofSource source = .ok f)
    {t : TypeExpr} (ht : f.HasType t) : Shallow (5 * maxNesting + 1) t := by
  obtain ⟨l, -, -, u, hstatements⟩ := ofSource_eq_ok.mp h
  have hall := ensures_statements (onlyReads_within maxNesting).1 (shallow_within maxNesting).1
    (shallow_block maxNesting) false _ f.statements u hstatements
  obtain ⟨s, hs, v, hv, ht⟩ := ht
  obtain ⟨r, hr, hs⟩ := List.mem_flatMap.mp hs
  exact Shallow.of_within ht (hall r hr s hs v hv)

end SourceFile

end PluginSurface
