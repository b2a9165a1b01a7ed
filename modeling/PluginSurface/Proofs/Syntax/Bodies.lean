import PluginSurface.Proofs.Syntax.Answers
import PluginSurface.Proofs.Syntax.StatementReading
import PluginSurface.Syntax.Subtree

/-!
# Bodies that are read

The statements inside a declaration stand in its bodies. The rules for declarations read them in the
order in which the declaration has them, all with the rule for a block, and beside that take tokens
only. So what is known behind the bodies read so far, whatever tokens are taken behind them, is
known behind a declaration if each block adds one body to it.

Main statement: `StatementGrammar.gathers_modifiedDeclaration`.
-/

namespace PluginSurface

open PluginSurface.Parser

/-! ## Bodies -/

/-- The statements in the body of a class member, if it has a body. -/
def ClassMemberKind.body? : ClassMemberKind → Option (List Statement)
  | .constructor _ body | .method _ _ _ body | .getter _ _ body | .setter _ _ body => body
  | .staticBlock body => some body
  | .property .. | .index _ => none

/-- The bodies in a statement; those that are missing count. -/
def Decl.bodies : Decl → List (Option (List Statement))
  | .classDecl c => c.members.map fun m ↦ m.kind.body?
  | .function _ _ body | .moduleDecl _ body => [body]
  | .block body => [some body]
  | _ => []

def ClassMemberKind.written (k : ClassMemberKind) : List (List Statement) := k.body?.toList

def ClassDecl.written (c : ClassDecl) : List (List Statement) := c.members.flatMap (·.kind.written)

/-- The bodies that are written, in the order of the text. -/
def Decl.written (d : Decl) : List (List Statement) := d.bodies.flatMap Option.toList

theorem ClassDecl.written_eq (c : ClassDecl) : (Decl.classDecl c).written = c.written :=
  List.flatMap_map ..

theorem written_of_bodies {d : Decl} {body : Option (List Statement)} (h : d.bodies = [body]) :
    d.written = body.toList := by
  rw [Decl.written, h, List.flatMap_singleton]

theorem ClassMember.body_eq (m : ClassMember) : m.body = m.kind.body?.getD [] := by
  obtain ⟨_, kind, _⟩ := m
  cases kind <;> rfl

theorem flatten_flatMap {α β : Type} (xs : List α) (f : α → List (List β)) :
    (xs.flatMap f).flatten = xs.flatMap fun x ↦ (f x).flatten := by
  rw [← List.flatMap_id, List.flatMap_assoc]
  simp only [List.flatMap_id]

theorem flatten_toList {α : Type} (body : Option (List α)) :
    body.toList.flatten = body.getD [] := by
  cases body <;> simp

/-- The children of a statement are those in its bodies, one body after the other. -/
theorem Statement.children_eq (s : Statement) : s.children = s.decl.written.flatten := by
  obtain ⟨_, _, decl, _⟩ := s
  rw [Decl.written, flatten_flatMap, funext flatten_toList]
  cases decl <;> simp [children, Decl.bodies, List.flatMap_map, funext ClassMember.body_eq]

/-- The declaration holds neither statements nor types: it imports, exports or enumerates something,
or is a statement that was skipped. -/
def Decl.IsPlain : Decl → Prop
  | .enumDecl .. | .importDecl _ | .importEquals .. | .exportDecl _
  | .exportAssignment .. | .other =>
    True
  | _ => False

theorem Decl.IsPlain.written_eq {d : Decl} (h : d.IsPlain) : d.written = [] := by
  cases d <;> first | rfl | cases h

/-! ## What is known behind things that are read -/

/-- What is known of a cursor behind things that were read stays known whatever tokens are taken. -/
class Steady {ι : Type} (G : List ι → Cursor → Prop) : Prop where
  onward : ∀ {xs s t}, s.Onward t → G xs s → G xs t

namespace Parser

variable {α β ι : Type} {G : List ι → Cursor → Prop} {xs : List ι}

/-- Behind the things `xs`, the parser answers behind those that `after` reads off its result. -/
def Collects (G : List ι → Cursor → Prop) (xs : List ι) (p : Parser α)
    (after : α → List ι) : Prop :=
  ∀ s a t, G xs s → p s = .ok (a, t) → G (after a) t

/-- The parser reads the things that `f` reads off its result. -/
def Gathers (G : List ι → Cursor → Prop) (p : Parser α) (f : α → List ι) : Prop :=
  ∀ xs, Collects G xs p fun a ↦ xs ++ f a

theorem collects_pure {a : α} {after : α → List ι} (h : after a = xs) :
    Collects G xs (pure a) after := by
  intro s b t hs hb
  cases hb
  rwa [h]

theorem collects_bind {p : Parser α} {q : α → Parser β} {mid : α → List ι}
    {after : β → List ι}
    (hp : Collects G xs p mid) (hq : ∀ a, Collects G (mid a) (q a) after) :
    Collects G xs (p >>= q) after := by
  intro s b u hs h
  obtain ⟨a, t, ha, hb⟩ := bind_eq_ok.mp h
  exact hq a t b u (hp s a t hs ha) hb

theorem collects_of_onlyReads [Steady G] {p : Parser α} (hp : OnlyReads p) :
    Collects G xs p fun _ ↦ xs :=
  fun s a t hs h ↦ Steady.onward (hp s a t h) hs

theorem collects_read [Steady G] {p : Parser α} {q : α → Parser β} {after : β → List ι}
    (hp : OnlyReads p)    (hq : ∀ a, Collects G xs (q a) after) : Collects G xs (p >>= q) after :=
  collects_bind (collects_of_onlyReads hp) hq

theorem collects_fail (fault : Fault) (after : α → List ι) :
    Collects G xs (fail fault) after := by
  intro s a t _ h
  cases h

theorem collects_unexpected (what : Wanted) (after : α → List ι) :
    Collects G xs (unexpected what) after := by
  intro s a t _ h
  cases h

theorem collects_ite {c : Prop} [Decidable c] {p q : Parser α} {after : α → List ι}
    (hp : Collects G xs p after) (hq : Collects G xs q after) :
    Collects G xs (if c then p else q) after := by
  split
  · exact hp
  · exact hq

/-- Nothing should be read off the result of a parser that only takes tokens. -/
theorem collects_map [Steady G] {p : Parser α} {f : α → β} {after : β → List ι}
    (hp : OnlyReads p)
    (h : ∀ a, after (f a) = xs) : Collects G xs (p >>= fun a ↦ pure (f a)) after :=
  collects_read hp fun a ↦ collects_pure (h a)

/-- The things read behind a round. -/
def roundThings (between : β → List ι) (after : α → List ι) : Round β α → List ι
  | .again state => between state
  | .done a => after a

/-- The things read before each round of a repetition are those that `between` reads
off its state. -/
theorem collects_rounds {step : β → Parser (Round β α)} {between : β → List ι}
    {after : α → List ι}
    (hstep : ∀ state, Collects G (between state) (step state) (roundThings between after))
    (state : β) : Collects G (between state) (rounds step state) after := by
  intro s a t hs h
  refine rounds_induction (I := fun state ↦ G (between state)) (Q :=
    fun a ↦ G (after a)) ?_ hs h
  intro state s r t hs hr
  have ht := hstep state s r t hs hr
  cases r <;> exact ht

/-- The things read behind a round of a repetition that collects what it finds, the last first. -/
abbrev foundThings (xs : List ι) (f : α → List ι) : Round (List α) (List α) → List ι :=
  roundThings (fun found ↦ xs ++ found.reverse.flatMap f) fun all ↦ xs ++ all.flatMap f

theorem collects_collect {step : List α → Parser (Round (List α) (List α))}
    {f : α → List ι} (hstep : ∀ found,
      Collects G (xs ++ found.reverse.flatMap f) (step found) (foundThings xs f)) :
    Collects G xs (rounds step []) fun all ↦ xs ++ all.flatMap f := by
  simpa using collects_rounds hstep []

theorem collects_found {item : Parser α} {f : α → List ι} (hitem : Gathers G item f)
    (found : List α) :
    Collects G (xs ++ found.reverse.flatMap f)
      (item >>= fun a ↦ pure (.again (a :: found))) (foundThings xs f) := by
  refine collects_bind (hitem _) fun a ↦ collects_pure ?_
  change xs ++ (a :: found).reverse.flatMap f = _
  rw [List.reverse_cons, List.flatMap_append, List.flatMap_singleton, List.append_assoc]

theorem gathers_braced [Steady G] (separators : List String) {item : Parser α} {f : α → List ι}
    (hitem : Gathers G item f) :
    Gathers G (braced separators item) fun items ↦ items.flatMap f := by
  intro xs
  unfold braced
  refine collects_read (onlyReads_expectMark _) fun _ ↦ collects_collect fun found ↦ ?_
  refine collects_read (onlyReads_eatMark _) fun _ ↦ ?_
  split
  · exact collects_pure rfl
  refine collects_read onlyReads_get fun _ ↦ ?_
  extract_lets rest
  have hrest : Collects G (xs ++ found.reverse.flatMap f) (rest ()) (foundThings xs f) := by
    refine collects_read (onlyReads_look _) fun _ ↦ ?_
    split
    · exact collects_read onlyReads_bump fun _ ↦ collects_pure rfl
    · exact collects_found hitem found
  split
  · exact collects_bind (collects_unexpected _ _) fun _ ↦ hrest
  · exact hrest

end Parser

/-! ## The rules for declarations -/

namespace StatementGrammar

open TypeGrammar

variable {G : List (List Statement) → Cursor → Prop} [Steady G]

section

variable {types : TypeGrammar} (htype : ∀ conditional, OnlyReads (types.type conditional))
variable {block : Parser (List Statement)} (hblock : Gathers G block fun body ↦ [body])

include hblock

theorem gathers_optionalBody :
    Gathers G (optionalBody block) fun body ↦ body.toList := by
  intro xs
  unfold optionalBody
  refine collects_read (onlyReads_atMark _) fun _ ↦ ?_
  split
  · exact collects_bind (hblock xs) fun _ ↦ collects_pure rfl
  · exact collects_map onlyReads_terminator fun _ ↦ List.append_nil xs

theorem collects_withBody {α : Type} {xs : List (List Statement)}
    {make : Option (List Statement) → α} {f : α → List (List Statement)}
    (h : ∀ body, f (make body) = body.toList) :
    Collects G xs (optionalBody block >>= fun body ↦ pure (make body)) fun a ↦ xs ++ f a := by
  refine collects_bind (gathers_optionalBody hblock xs) fun body ↦ collects_pure ?_
  rw [h]

include htype

theorem gathers_functionDeclaration :
    Gathers G (functionDeclaration types block) Decl.written := by
  intro xs
  unfold functionDeclaration
  refine collects_read onlyReads_bump fun _ ↦ collects_read (onlyReads_eatMark _) fun _ ↦ ?_
  refine collects_read (onlyReads_look _) fun _ ↦ ?_
  extract_lets rest
  have hrest (name : Option Name) : Collects G xs (rest name) fun d ↦ xs ++ d.written := by
    refine collects_read (onlyReads_signature (htype true)) fun _ ↦ ?_
    exact collects_withBody hblock fun _ ↦ written_of_bodies rfl
  split
  · exact collects_read onlyReads_declaredName fun _ ↦ collects_read (onlyReads_pure _) hrest
  · exact collects_read (onlyReads_pure _) hrest

omit htype in
theorem gathers_moduleDeclaration : Gathers G (moduleDeclaration block) Decl.written := by
  intro xs
  unfold moduleDeclaration
  refine collects_read onlyReads_bump fun _ ↦ collects_read (onlyReads_look _) fun _ ↦ ?_
  extract_lets rest
  have hrest (name : ModuleName) : Collects G xs (rest name) fun d ↦ xs ++ d.written :=
    collects_withBody hblock fun _ ↦ written_of_bodies rfl
  split
  · exact collects_read onlyReads_bump fun _ ↦ collects_read (onlyReads_pure _) hrest
  · exact collects_read onlyReads_entityName fun _ ↦ collects_read (onlyReads_pure _) hrest

theorem gathers_classMemberKind :
    Gathers G (classMemberKind types block) ClassMemberKind.written := by
  intro xs
  have hsignature := onlyReads_signature (htype true)
  unfold classMemberKind
  refine collects_read (onlyReads_atWord _) fun _ ↦ collects_read (onlyReads_look _) fun _ ↦ ?_
  split
  · refine collects_read onlyReads_bump fun _ ↦ collects_read hsignature fun _ ↦ ?_
    exact collects_withBody hblock fun _ ↦ rfl
  refine collects_read onlyReads_atAccessor fun _ ↦ ?_
  split
  · refine collects_read onlyReads_bump fun _ ↦ collects_read onlyReads_propertyName fun _ ↦ ?_
    refine collects_read hsignature fun _ ↦ collects_withBody hblock fun _ ↦ ?_
    split <;> rfl
  refine collects_read onlyReads_atIndexSignature fun _ ↦ ?_
  split
  · refine collects_read (onlyReads_indexSignature (htype true) _) fun _ ↦ ?_
    exact collects_map onlyReads_memberSeparator fun _ ↦ List.append_nil xs
  refine collects_read (onlyReads_eatMark _) fun _ ↦
    collects_read onlyReads_propertyName fun _ ↦ ?_
  refine collects_read (onlyReads_eatMark _) fun _ ↦
    collects_read (onlyReads_eatMark _) fun _ ↦ ?_
  refine collects_read onlyReads_atSignature fun _ ↦ ?_
  split
  · exact collects_read hsignature fun _ ↦ collects_withBody hblock fun _ ↦ rfl
  refine collects_read (onlyReads_ascription (htype true)) fun _ ↦ ?_
  refine collects_read (onlyReads_eatMark _) fun _ ↦ ?_
  extract_lets rest
  have hrest : Collects G xs (rest ()) fun k ↦ xs ++ k.written :=
    collects_map onlyReads_memberSeparator fun _ ↦ List.append_nil xs
  split
  · exact collects_read (onlyReads_skipExpression _ _) fun _ ↦ hrest
  · exact hrest

theorem gathers_classMember :
    Gathers G (classMember types block) fun m ↦ m.kind.written := by
  intro xs
  unfold classMember
  refine collects_read (onlyReads_look _) fun _ ↦ collects_read (onlyReads_atWord _) fun _ ↦ ?_
  refine collects_read (onlyReads_look _) fun _ ↦ ?_
  split
  · refine collects_read onlyReads_bump fun _ ↦ collects_bind (hblock xs) fun _ ↦ ?_
    exact collects_map onlyReads_get fun _ ↦ rfl
  · refine collects_read (onlyReads_takeTokens _) fun _ ↦ ?_
    refine collects_bind (gathers_classMemberKind htype hblock xs) fun _ ↦ ?_
    exact collects_map onlyReads_get fun _ ↦ rfl

theorem gathers_classDeclaration :
    Gathers G (classDeclaration types block) ClassDecl.written := by
  intro xs
  unfold classDeclaration
  refine collects_read onlyReads_bump fun _ ↦ collects_read (onlyReads_look _) fun _ ↦ ?_
  extract_lets rest
  have hrest (name : Option Name) : Collects G xs (rest name) fun c ↦ xs ++ c.written := by
    refine collects_read (onlyReads_typeParams (htype true)) fun _ ↦ ?_
    refine collects_read (onlyReads_heritage htype) fun _ ↦ ?_
    have hmembers := gathers_braced [";"] (gathers_classMember htype hblock)
    exact collects_bind (hmembers xs) fun _ ↦ collects_pure rfl
  split
  · exact collects_read onlyReads_declaredName fun _ ↦ collects_read (onlyReads_pure _) hrest
  · exact collects_read (onlyReads_pure _) hrest

end

/-! ## Declarations without statements -/

theorem gathers_of_ensures {p : Parser Decl} (h : Ensures (fun d ↦ d.written = []) p)
    (hp : OnlyReads p) : Gathers G p Decl.written := by
  intro xs s d t hs hd
  change G (xs ++ d.written) t
  rw [h s d t hd, List.append_nil]
  exact collects_of_onlyReads hp s d t hs hd

theorem gathers_plain {p : Parser Decl} (h : Ensures Decl.IsPlain p) (hp : OnlyReads p) :
    Gathers G p Decl.written :=
  gathers_of_ensures (h.mono fun _ ↦ Decl.IsPlain.written_eq) hp

theorem plain_exportAssignment (isEquals : Bool) :
    Ensures Decl.IsPlain (exportAssignment isEquals) :=
  ensures_then fun _ ↦ ensures_then fun _ ↦ ensures_then fun _ ↦ ensures_pure trivial

theorem plain_exportDeclaration : Ensures Decl.IsPlain exportDeclaration := by
  refine ensures_then fun _ ↦ ensures_then fun _ ↦ ?_
  have hrest (clause : ExportClause) (typeOnly : Bool) : Ensures Decl.IsPlain (do
      let specifier ← afterWord "from" expectString
      skipAttributes
      terminator
      return .exportDecl ⟨typeOnly, clause, specifier⟩) :=
    ensures_then fun _ ↦ ensures_then fun _ ↦ ensures_then fun _ ↦ ensures_pure trivial
  split
  · exact ensures_then fun _ ↦ ensures_then fun _ ↦ hrest _ _
  · exact ensures_then fun _ ↦ ensures_then fun _ ↦ ensures_then fun _ ↦ hrest _ _

theorem plain_importDeclaration : Ensures Decl.IsPlain importDeclaration := by
  unfold importDeclaration
  refine ensures_then fun _ ↦ ensures_then fun _ ↦ ?_
  extract_lets unnamed clauses rest
  have hclauses (default : Option String) : Ensures Decl.IsPlain (clauses () default) :=
    ensures_then fun _ ↦ ensures_then fun _ ↦ ensures_then fun _ ↦ ensures_then fun _ ↦
      ensures_then fun _ ↦ ensures_pure trivial
  have hrest : Ensures Decl.IsPlain (rest ()) := by
    refine ensures_then fun _ ↦ ?_
    split
    · exact ensures_then fun _ ↦ ensures_then fun _ ↦ ensures_then fun _ ↦
        ensures_pure trivial
    refine ensures_then fun _ ↦ ensures_then fun _ ↦ ?_
    split
    · refine ensures_then fun _ ↦ ensures_then fun _ ↦ ?_
      split
      · exact ensures_then fun _ ↦ ensures_then fun _ ↦ ensures_pure trivial
      · exact ensures_then fun _ ↦ hclauses _
    · refine ensures_then fun _ ↦ ensures_then fun _ ↦ ?_
      split
      · exact ensures_then fun _ ↦ ensures_then fun _ ↦ hclauses _
      · exact hclauses _
  split
  · exact ensures_then fun _ ↦ hrest
  · exact hrest

theorem plain_enumDeclaration : Ensures Decl.IsPlain enumDeclaration :=
  ensures_then fun _ ↦ ensures_then fun _ ↦ ensures_then fun _ ↦ ensures_pure trivial

theorem written_variableStatement (types : TypeGrammar) :
    Ensures (fun d ↦ d.written = []) (variableStatement types) :=
  ensures_then fun _ ↦ ensures_then fun _ ↦ ensures_then fun _ ↦ ensures_pure rfl

/-! ## Statements -/

section

variable {types : TypeGrammar} (htype : ∀ conditional, OnlyReads (types.type conditional))
variable {block : Parser (List Statement)} (hblock : Gathers G block fun body ↦ [body])

include htype hblock

theorem gathers_declaration (modified : Bool) :
    Gathers G (declaration types block modified) Decl.written := by
  intro xs
  unfold declaration
  refine collects_read (onlyReads_look _) fun _ ↦ collects_read (onlyReads_look _) fun _ ↦ ?_
  extract_lets skipped refused word
  have hskipped : Collects G xs (skipped ()) fun d ↦ xs ++ d.written :=
    collects_map onlyReads_skipStatement fun _ ↦ List.append_nil xs
  have hrefused : Collects G xs (refused ()) fun d ↦ xs ++ d.written := by
    unfold refused
    split
    · exact collects_bind (collects_unexpected _ _) fun _ ↦ hskipped
    · exact hskipped
  refine collects_ite (collects_bind (hblock xs) fun _ ↦ collects_pure rfl) ?_
  refine collects_ite ?_ hrefused
  refine collects_ite ?_ ?_
  · refine collects_bind (gathers_classDeclaration htype hblock xs) fun c ↦ collects_pure ?_
    rw [c.written_eq]
  refine collects_ite ?_ ?_
  · exact collects_map (onlyReads_interfaceDeclaration htype) fun _ ↦ List.append_nil xs
  refine collects_read (onlyReads_look _) fun _ ↦ collects_ite ?_ ?_
  · exact collects_map (onlyReads_aliasDeclaration htype) fun _ ↦ List.append_nil xs
  refine collects_ite (gathers_plain plain_enumDeclaration onlyReads_enumDeclaration xs) ?_
  refine collects_ite (gathers_functionDeclaration htype hblock xs) ?_
  refine collects_ite ?_ ?_
  · exact gathers_of_ensures (written_variableStatement types)
      (onlyReads_variableStatement htype) xs
  refine collects_ite (gathers_moduleDeclaration hblock xs) ?_
  refine collects_ite ?_ ?_
  · exact collects_read onlyReads_bump fun _ ↦ collects_bind (hblock xs) fun _ ↦
      collects_pure rfl
  exact collects_ite (gathers_plain plain_importDeclaration onlyReads_importDeclaration xs) hrefused

theorem gathers_modifiedDeclaration :
    Gathers G (modifiedDeclaration types block) fun m ↦ m.2.written := by
  intro xs
  unfold modifiedDeclaration
  extract_lets unmodified rest
  have hrest (exported : List Modifier) :
      Collects G xs (rest () exported) fun m ↦ xs ++ m.2.written := by
    refine collects_read (onlyReads_takeTokens _) fun _ ↦ ?_
    exact collects_bind (gathers_declaration htype hblock _ xs) fun _ ↦ collects_pure rfl
  have hassignment (isEquals : Bool) (modifiers : List Modifier) :
      Collects G xs (do return (modifiers, ← exportAssignment isEquals))
        fun m ↦ xs ++ m.2.written :=
    collects_bind (gathers_plain (plain_exportAssignment _) (onlyReads_exportAssignment _) xs)
      fun _ ↦ collects_pure rfl
  refine collects_read (onlyReads_atWord _) fun _ ↦ ?_
  split
  · refine collects_read (onlyReads_look _) fun _ ↦ collects_read (onlyReads_look _) fun _ ↦ ?_
    split
    · refine collects_read onlyReads_bump fun _ ↦ collects_read onlyReads_bump fun _ ↦ ?_
      exact hassignment _ _
    split
    · refine collects_read onlyReads_bump fun _ ↦ ?_
      exact collects_bind (gathers_plain plain_exportDeclaration onlyReads_exportDeclaration xs)
        fun _ ↦ collects_pure rfl
    split
    · refine collects_read (onlyReads_skipExpression _ _) fun _ ↦ ?_
      exact collects_map onlyReads_terminator fun _ ↦ List.append_nil xs
    refine collects_read onlyReads_bump fun _ ↦ collects_read (onlyReads_eatWord _) fun _ ↦ ?_
    split
    · refine collects_read (onlyReads_look _) fun _ ↦
        collects_read (onlyReads_look _) fun _ ↦ ?_
      split
      · exact hrest _
      · exact hassignment _ _
    · exact hrest _
  · exact hrest _

end

/-! ## Statements -/

section

variable {types : TypeGrammar} {block : Parser (List Statement)} {s u : Cursor}

/-- A statement is its declaration behind the number it takes. -/
theorem statement_eq_ok {a : Statement} (h : statement types block s = .ok (a, u)) :
    ∃ m, modifiedDeclaration types block { s with nextId := s.nextId + 1 } = .ok (m, u) ∧
      a = ⟨s.nextId, m.1, m.2, ⟨s.next.span.start, max u.passed s.next.span.start⟩⟩ := by
  obtain ⟨s', t, hget, h⟩ := bind_eq_ok.mp h
  cases hget
  obtain ⟨_, t, hset, h⟩ := bind_eq_ok.mp h
  cases hset
  obtain ⟨m, t, hdecl, h⟩ := bind_eq_ok.mp h
  obtain ⟨s', t', hget, h⟩ := bind_eq_ok.mp h
  cases hget
  cases h
  exact ⟨m, hdecl, rfl⟩

/-- What a round over statements can do: the statements end with the text or with a closing brace,
or a mark between statements or a further statement is read. -/
theorem statementsStep_eq_ok {inBraces : Bool} {found : List Statement}
    {r : Round (List Statement) (List Statement)}
    (h : statementsStep types block inBraces found s = .ok (r, u)) :
    (r = .done found.reverse ∧ inBraces = false ∧ s.rest = [] ∧ u = s) ∨
    (r = .done found.reverse ∧ inBraces = true ∧ s.next.isMark "\x7d" ∧ u = s.advance) ∨
    (r = .again found ∧ s.next.isMark ";" ∧ u = s.advance) ∨
    ∃ a, r = .again (a :: found) ∧ s.rest ≠ [] ∧ s.next.isMark "\x7d" = false ∧
      statement types block s = .ok (a, u) := by
  obtain ⟨_, _, hget, h⟩ := bind_eq_ok.mp h
  cases hget
  dsimp only at h
  by_cases hend : s.atEnd
  · rw [if_pos hend] at h
    cases inBraces
    · cases h
      exact .inl ⟨rfl, rfl, List.isEmpty_iff.mp hend, rfl⟩
    · cases h
  rw [if_neg hend] at h
  obtain ⟨closing, _, hclosing, h⟩ := bind_eq_ok.mp h
  cases hclosing
  change (if s.next.isMark "\x7d" then _ else _ : Parser _) s = _ at h
  by_cases hclose : s.next.isMark "\x7d"
  · rw [if_pos hclose] at h
    cases inBraces
    · cases h
    · cases h
      exact .inr (.inl ⟨rfl, rfl, hclose, rfl⟩)
  rw [if_neg hclose] at h
  obtain ⟨eaten, t, heaten, h⟩ := bind_eq_ok.mp h
  unfold eatMark at heaten
  split at heaten
  next hmark =>
    cases heaten
    cases h
    exact .inr (.inr (.inl ⟨rfl, hmark, rfl⟩))
  next =>
    cases heaten
    obtain ⟨a, t, ha, h⟩ := bind_eq_ok.mp h
    cases h
    refine .inr (.inr (.inr ⟨a, rfl, ?_, Bool.eq_false_iff.mpr hclose, ha⟩))
    rintro hnil
    exact hend (List.isEmpty_iff.mpr hnil)

end

end StatementGrammar

end PluginSurface
