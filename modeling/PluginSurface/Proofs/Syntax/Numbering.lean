import PluginSurface.Proofs.Syntax.Bodies

/-!
# The numbers of statements

A statement takes its number when it begins, before the statements inside it take theirs. So the
numbers in a tree, read in the order of the text, are those from 0 on without a gap, and no two
statements of a text have the same number.
-/

namespace PluginSurface

open PluginSurface.Parser

namespace Statement

/-- The numbers of a statement and of those inside it, in the order of the text. -/
def numbers (s : Statement) : List Nat := s.subtree.map Statement.id

theorem numbers_eq (s : Statement) : s.numbers = s.id :: s.children.flatMap numbers := by
  unfold numbers
  rw [subtree_eq, List.map_cons, List.map_flatMap]

end Statement

def bodyNumbers (body : List Statement) : List Nat := body.flatMap Statement.numbers

theorem Statement.numbers_eq_written (s : Statement) :
    s.numbers = s.id :: s.decl.written.flatMap bodyNumbers := by
  rw [numbers_eq, children_eq, ← List.flatMap_id', List.flatMap_assoc]
  rfl

/-! ## Numbers that a parser gives away -/

/-- The statements begun since number `n` are those with the numbers `ids`. -/
def Cursor.Given (n : Nat) (ids : List Nat) (s : Cursor) : Prop :=
  ids = List.range' n ids.length ∧ s.nextId = n + ids.length

theorem Cursor.Given.next {n : Nat} {ids : List Nat} {s : Cursor} (h : s.Given n ids) :
    ({ s with nextId := s.nextId + 1 } : Cursor).Given n (ids ++ [s.nextId]) := by
  obtain ⟨hids, hnext⟩ := h
  constructor
  · rw [List.length_append, List.length_singleton, List.range'_concat, ← hids,
      hnext, Nat.one_mul]
  · rw [List.length_append, List.length_singleton, hnext, Nat.add_assoc]

instance steady_given (n : Nat) : Steady (Cursor.Given n) :=
  ⟨fun hst h ↦ ⟨h.1, hst.nextId_eq.trans h.2⟩⟩

/-- The statements begun since number `n` are those with the numbers `ids` and those
in the bodies. -/
def Cursor.GivenIn (n : Nat) (ids : List Nat) (bodies : List (List Statement)) : Cursor → Prop :=
  Cursor.Given n (ids ++ bodies.flatMap bodyNumbers)

instance steady_givenIn (n : Nat) (ids : List Nat) : Steady (Cursor.GivenIn n ids) :=
  ⟨(steady_given n).onward⟩

namespace StatementGrammar

open TypeGrammar

/-- The parser gives away the numbers that `f` reads off its result. -/
def Allots {α : Type} (p : Parser α) (f : α → List Nat) : Prop :=
  ∀ n, Gathers (Cursor.Given n) p f

section

variable {types : TypeGrammar} (htype : ∀ conditional, OnlyReads (types.type conditional))
variable {block : Parser (List Statement)} (hblock : Allots block bodyNumbers)

include hblock in
theorem Allots.bodies (n : Nat) (ids : List Nat) :
    Gathers (Cursor.GivenIn n ids) block fun body ↦ [body] := by
  intro bodies s body t hs h
  have ht := hblock n _ s body t hs h
  change t.Given n _
  rwa [List.flatMap_append, List.flatMap_singleton, ← List.append_assoc]

include htype hblock

theorem allots_statement : Allots (statement types block) Statement.numbers := by
  intro n ids s a u hs h
  obtain ⟨m, hdecl, rfl⟩ := statement_eq_ok h
  have hbegun : Cursor.GivenIn n (ids ++ [s.nextId]) [] { s with nextId := s.nextId + 1 } := by
    change Cursor.Given n (ids ++ [s.nextId] ++ []) _
    rw [List.append_nil]
    exact hs.next
  have hu := gathers_modifiedDeclaration htype (hblock.bodies n _) [] _ _ u hbegun hdecl
  change u.Given n (ids ++ Statement.numbers _)
  rw [Statement.numbers_eq_written, ← List.singleton_append, ← List.append_assoc]
  exact hu

theorem allots_statements (inBraces : Bool) :
    Allots (statements types block inBraces) bodyNumbers := by
  intro n ids
  refine collects_collect fun found s r u hs h ↦ ?_
  rcases statementsStep_eq_ok h with ⟨rfl, -, -, rfl⟩ | ⟨rfl, -, -, rfl⟩ | ⟨rfl, -,
    rfl⟩ | ⟨a, rfl, -, -, ha⟩
  · exact hs
  · exact (steady_given n).onward s.onward_advance hs
  · exact (steady_given n).onward s.onward_advance hs
  · exact collects_found (allots_statement htype hblock n) found s _ u hs
      (bind_eq_ok.mpr ⟨a, u, ha, rfl⟩)

end

theorem allots_block (n : Nat) : Allots (block n) bodyNumbers := by
  induction n with
  | zero =>
      intro n ids
      exact collects_read (onlyReads_expectMark _) fun _ ↦ collects_fail _ _
  | succ n ih =>
      intro m ids
      refine collects_read (onlyReads_expectMark _) fun _ s a t hs h ↦ ?_
      obtain ⟨-, t', ht', rfl⟩ := nested_eq_ok h
      exact allots_statements (onlyReads_within n).1 ih true m ids { s with depth :=
        s.depth + 1 } a t' hs ht'

end StatementGrammar

/-! ## Source texts -/

namespace SourceFile

open StatementGrammar TypeGrammar

/-- The statements of a text have the numbers from 0 on, in the order of the text. -/
theorem ids_eq_range {source : String} {f : SourceFile} (h : ofSource source = .ok f) :
    f.allStatements.map Statement.id = List.range f.allStatements.length := by
  obtain ⟨l, -, -, u, hstatements⟩ := ofSource_eq_ok.mp h
  have hallots := allots_statements (onlyReads_within maxNesting).1 (allots_block maxNesting) false
  have hgiven := hallots 0 [] _ _ _ ⟨rfl, rfl⟩ hstatements
  have hnumbers : bodyNumbers f.statements =
      (f.statements.flatMap Statement.subtree).map Statement.id := (List.map_flatMap ..).symm
  rw [List.range_eq_range', allStatements, ← hnumbers, ← List.length_map
    (f := Statement.id), ← hnumbers]
  exact hgiven.1

theorem nodup_ids {source : String} {f : SourceFile} (h : ofSource source = .ok f) :
    (f.allStatements.map Statement.id).Nodup := by
  rw [ids_eq_range h]
  exact List.nodup_range

end SourceFile

end PluginSurface
