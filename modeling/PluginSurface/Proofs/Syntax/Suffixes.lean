import PluginSurface.Proofs.Source.Printed
import PluginSurface.Proofs.Syntax.Runs
import PluginSurface.Proofs.Syntax.StatementChains

/-!
# Suffixes without a bound

The brackets behind a type are read in a loop on one level. So beside suffixes the chains of types
in a text that is read have a bound, but a text with any number of suffixes is read.

Main statement: `SourceFile.length_chain_le`.
-/

namespace PluginSurface

open PluginSurface.Parser

namespace TypeExpr

/-- The type `string` with brackets behind it. -/
def arrays : Nat → TypeExpr
  | 0 => .keyword .string
  | n + 1 => .array (arrays n)

/-- The types inside `arrays n`, from the outside in. -/
def insideArrays : Nat → List TypeExpr
  | 0 => []
  | n + 1 => arrays n :: insideArrays n

@[simp] theorem length_insideArrays (n : Nat) : (insideArrays n).length = n := by
  induction n with
  | zero => rfl
  | succ n ih => rw [insideArrays, List.length_cons, ih]

theorem isChain_arrays (n : Nat) : IsChain (arrays n :: insideArrays n) := by
  induction n with
  | zero => exact .singleton _
  | succ n ih => exact List.isChain_cons_cons.mpr ⟨by simp [arrays, parts], ih⟩

end TypeExpr

namespace TypeGrammar

open TypeExpr Printed

/-- The pieces of brackets behind a type. -/
def brackets (n : Nat) : List Printed :=
  (List.replicate n [mark "" "[", mark "" "]"]).flatten

theorem brackets_succ (n : Nat) :
    brackets (n + 1) = mark "" "[" :: mark "" "]" :: brackets n := rfl

section

variable {s : Cursor} {type : Bool → Parser TypeExpr} {next : Token}

/-- Each pair of brackets is a round of the loop. -/
theorem gives_rounds_brackets (hnext : next.isMark "[" = false) (m n offset : Nat)
    (more : List Token) :
    Gives (rounds (postfixStep (type true)) (arrays m)) s
      (tokensFrom offset (brackets n) ++ next :: more) (arrays (m + n)) (next :: more) := by
  induction n generalizing m offset with
  | zero => exact gives_postfix_done hnext
  | succ n ih =>
      rw [brackets_succ, tokensFrom_cons, tokensFrom_cons, List.cons_append, List.cons_append]
      have hmore := ih (m + 1) ((mark "" "]").stop ((mark "" "[").stop offset))
      rw [Nat.add_right_comm] at hmore
      refine gives_rounds_again (gives_look_bind.mpr ?_) ?_ hmore
      · exact gives_bump.bind ((gives_eatMark rfl).bind (gives_pure _))
      · simp only [List.length_cons]
        omega

theorem gives_postfixType_brackets (hnext : IsStop next) (n offset : Nat) (more : List Token) :
    Gives (postfixType (type true)) s
      (tokensFrom offset (word " " "string" :: brackets n) ++ next :: more) (arrays n)
      (next :: more) := by
  have hbrackets : Gives (rounds (postfixStep (type true)) (arrays 0)) s _ _ _ :=
    gives_rounds_brackets (hnext.isMark_eq_false rfl) 0 n ((word " " "string").stop offset) more
  obtain ⟨behind, rest, hbehind, hpoint⟩ : ∃ behind rest,
      tokensFrom ((word " " "string").stop offset) (brackets n) ++ next :: more = behind :: rest ∧
        behind.isMark "." = false := by
    cases n with
    | zero => exact ⟨next, more, rfl, hnext.isMark_eq_false rfl⟩
    | succ n => exact ⟨_, _, rfl, rfl⟩
  rw [Nat.zero_add, hbehind] at hbrackets
  rw [tokensFrom_cons, List.cons_append, hbehind]
  refine Gives.bind (gives_look_bind.mpr ?_) hbrackets
  exact gives_namedType_keyword rfl rfl hpoint

/-- However many brackets there are, they are read on one level. -/
theorem gives_type_brackets {k : Nat} (hdepth : s.depth < maxNesting) (hnext : IsStop next)
    (n offset : Nat) (more : List Token) :
    Gives ((within (k + 1)).type true) s
      (tokensFrom offset (word " " "string" :: brackets n) ++ next :: more) (arrays n)
      (next :: more) := by
  obtain ⟨inner, hoperand⟩ := operand_within k
  have hoperand (s : Cursor) : Gives (within k).operand s
      (tokensFrom offset (word " " "string" :: brackets n) ++ next :: more) (arrays n)
      (next :: more) := by
    rw [hoperand]
    exact gives_operandRule_suffixed (gives_postfixType_brackets hnext n offset more)
      (fun _ ↦ rfl) rfl
  refine gives_typeRule hdepth (fun s ↦ gives_atFunctionType_false rfl rfl rfl rfl) ?_
    (hnext.isWord_eq_false _)
  exact gives_chain_single (gives_chain_single (hoperand _) rfl (hnext.isMark_eq_false rfl)) rfl
    (hnext.isMark_eq_false rfl)

end

end TypeGrammar

namespace StatementGrammar

open TypeExpr TypeGrammar Printed

/-- The pieces of an alias for a type with brackets behind it. -/
def bracketsAlias (n : Nat) : List Printed :=
  word "" "type" :: word " " "A" :: mark " " "=" ::
    (word " " "string" :: brackets n ++ [mark "" ";"])

theorem gives_aliasDeclaration_brackets (k n offset : Nat) : ∃ name, ∀ s : Cursor,
    s.depth < maxNesting → Gives (aliasDeclaration (within (k + 1))) s
      (tokensFrom offset (bracketsAlias n)) ⟨name, [], arrays n⟩ [] := by
  have hsemicolon (stop : Nat) : IsStop ((mark "" ";").token stop) := rfl
  let name := (word " " "A").token ((word "" "type").stop offset)
  refine ⟨⟨name.text, name.span⟩, fun s hdepth ↦ ?_⟩
  simp only [bracketsAlias, tokensFrom_cons, List.cons_append, tokensFrom_append, tokensFrom_nil]
  refine gives_bump.bind ((gives_declaredName rfl).bind ?_)
  refine Gives.bind ((gives_eatMark_false rfl).bind (gives_pure []))
    ((gives_expectMark rfl).bind ?_)
  refine (gives_type_brackets hdepth (hsemicolon _) n _ []).bind ?_
  exact (gives_eatMark rfl).discard.bind (gives_pure _)

theorem runsBody_brackets {block : Parser (List Statement)} {s : Cursor} {bad : Fault → Prop}
    (hdepth : s.depth < maxNesting) (k n offset : Nat) :
    RunsBody (within (k + 1)) block false s (tokensFrom offset (bracketsAlias n))
      (fun ds _ ↦ ∃ name, ds = [.aliasDecl ⟨name, [], arrays n⟩]) bad := by
  obtain ⟨name, halias⟩ := gives_aliasDeclaration_brackets k n offset
  have hdecl (s : Cursor) (hdepth : s.depth < maxNesting) :
      Gives (declaration (within (k + 1)) block false) s (tokensFrom offset (bracketsAlias n))
        (.aliasDecl ⟨name, [], arrays n⟩) [] := by
    have halias : Gives (aliasDeclaration (within (k + 1)) >>= fun d ↦ pure (Decl.aliasDecl d)) s
        (tokensFrom offset (bracketsAlias n)) (.aliasDecl ⟨name, [], arrays n⟩) [] :=
      (halias s hdepth).bind (gives_pure _)
    refine gives_look_bind.mpr (gives_look_bind.mpr ?_)
    simpa [bracketsAlias, token, Token.isMark, Token.isMarkIn, -bind_pure_comp] using halias
  have hruns := fun id ↦ hdecl { s with nextId := id } hdepth
  simp only [bracketsAlias, tokensFrom_cons] at hruns ⊢
  exact runsBody_cons rfl rfl rfl (by simp [statementModifier, token, Token.isWord])
    (Gives.runs hruns ⟨Nat.succ_pos _, runsBody_end ⟨name, rfl⟩⟩)

theorem whole_bracketsAlias (n : Nat) : Whole (bracketsAlias n) := by
  have hbrackets : Whole (brackets n ++ [mark "" ";"]) := by
    induction n with
    | zero => exact ⟨by decide, .singleton _, by decide⟩
    | succ n ih =>
        have hpair : Whole [mark "" "[", mark "" "]"] := ⟨by decide, by decide, by decide⟩
        exact hpair.append ih
  obtain ⟨q, rest, heq, hmark⟩ : ∃ q rest, brackets n ++ [mark "" ";"] = q :: rest ∧
      q.kind = .mark := by
    cases n <;> exact ⟨_, _, rfl, rfl⟩
  rw [bracketsAlias, List.cons_append, heq]
  rw [heq] at hbrackets
  have hstring := hbrackets.cons (p := word " " "string") (by decide)
    (by simp [isBeside, hmark])
  have hequals := hstring.cons (p := mark " " "=") (by decide) rfl
  exact (hequals.cons (p := word " " "A") (by decide) rfl).cons (by decide) rfl

theorem textOf_bracketsAlias (n : Nat) :
    textOf (bracketsAlias n) = "type A = string" ++ String.join (List.replicate n "[]") ++ ";" := by
  have hbrackets : textOf (brackets n) = String.join (List.replicate n "[]") := by
    rw [brackets, ← List.flatMap_id, textOf_flatMap, List.map_replicate]
    rfl
  have hpieces :
      bracketsAlias n = [word "" "type", word " " "A", mark " " "=", word " " "string"] ++
      (brackets n ++ [mark "" ";"]) := rfl
  rw [hpieces, textOf_append, textOf_append, hbrackets, ← String.append_assoc]
  rfl

end StatementGrammar

namespace SourceFile

open StatementGrammar TypeGrammar TypeExpr Printed

theorem ofSource_brackets (n : Nat) : ∃ f name,
    ofSource ("type A = string" ++ String.join (List.replicate n "[]") ++ ";") = .ok f ∧
      f.statements.map Statement.decl = [.aliasDecl ⟨name, [], arrays n⟩] := by
  have hlexed := Lexed.ofSource_printed (whole_bracketsAlias n)
  rw [textOf_bracketsAlias] at hlexed
  obtain ⟨f, -, hf, name, hname⟩ := exists_ofSource_eq_ok hlexed
    (runsBody_brackets (by decide : 0 < maxNesting) 63 n 0)
  exact ⟨f, name, hf, hname⟩

theorem hasType_of_alias {f : SourceFile} {name : Name} {t : TypeExpr}
    (h : f.statements.map Statement.decl = [.aliasDecl ⟨name, [], t⟩]) : f.HasType t := by
  obtain ⟨s, hs, hdecl⟩ := List.map_eq_singleton_iff.mp h
  refine ⟨s, ?_, t, ?_, .self⟩
  · rw [allStatements, hs, List.flatMap_singleton, Statement.subtree_eq]
    exact List.mem_cons_self
  · simp [Statement.types, hdecl]

/-- In a chain of types of a text that is read, at most five types for each level and one more are
no suffixes, so with few suffixes the chain is no longer than ten types for each level. Without that
there is no bound on chains. -/
theorem length_chain_le {source : String} {f : SourceFile} (h : ofSource source = .ok f)
    {t : TypeExpr} (ht : f.HasType t) {more : List TypeExpr} (hchain : IsChain (t :: more)) :
    (t :: more).length ≤ (t :: more).countP isSuffix + (5 * maxNesting + 1) ∧
    ((t :: more).countP isSuffix < 5 * maxNesting → (t :: more).length ≤ 10 * maxNesting) ∧
    ∀ n, ∃ g u rest,
      ofSource ("type A = string" ++ String.join (List.replicate n "[]") ++ ";") = .ok g ∧
      g.HasType u ∧ IsChain (u :: rest) ∧ (u :: rest).length = n + 1 := by
  have hcount : (t :: more).countP (fun u ↦ decide ¬u.isSuffix) ≤ 5 * maxNesting + 1 := by
    simpa using shallow_of_hasType h ht more hchain
  have hlength := List.length_eq_countP_add_countP isSuffix (l := t :: more)
  refine ⟨by omega, fun hfew ↦ by omega, fun n ↦ ?_⟩
  obtain ⟨g, name, hg, hname⟩ := ofSource_brackets n
  exact ⟨g, arrays n, insideArrays n, hg, hasType_of_alias hname, isChain_arrays n, by simp⟩

theorem length_chain_le_brackets : ∃ f t more,
    ofSource "type A = string[][];" = .ok f ∧ f.HasType t ∧ IsChain (t :: more) ∧
      (t :: more).length = 3 ∧ (t :: more).countP isSuffix = 2 ∧
      (t :: more).length ≤ (t :: more).countP isSuffix + (5 * maxNesting + 1) ∧
      (t :: more).length ≤ 10 * maxNesting := by
  obtain ⟨f, name, hf, hname⟩ := ofSource_brackets 2
  obtain ⟨hle, hfew, -⟩ := length_chain_le hf (hasType_of_alias hname) (isChain_arrays 2)
  have hsuffixes : (arrays 2 :: insideArrays 2).countP isSuffix = 2 := rfl
  exact ⟨f, arrays 2, insideArrays 2, hf, hasType_of_alias hname, isChain_arrays 2, rfl,
    hsuffixes, hle, hfew (by decide)⟩

end SourceFile

end PluginSurface
