import PluginSurface.Proofs.Syntax.Spans
import PluginSurface.Proofs.Syntax.StatementBalance

/-!
# Texts with nested brackets

In a text whose brackets are nested, what the parser reads from an opening bracket on ends at the
partner of the bracket: each body in braces, each list of parameters, each type in brackets and each
computed name.

Main statement: `SourceFile.ends_at_partners`.
-/

namespace PluginSurface

open PluginSurface.Parser TypeGrammar StatementGrammar

/-- The cursor is at a place in the text. -/
structure Cursor.IsIn (l : Lexed) (s : Cursor) : Prop where
  finish : s.finish = l.finish
  tokens : s.rest <:+ l.tokens

/-- Wherever the cursor is in a nested text, what is ahead closes the brackets that are open. -/
theorem Cursor.IsIn.inside {l : Lexed} {s : Cursor} (hs : s.IsIn l) (h : Nested l.tokens) :
    ∃ m, s.Inside m := by
  obtain ⟨before, hbefore⟩ := hs.tokens
  rw [← hbefore] at h
  obtain ⟨m, -, hrest⟩ := openBehind_append_eq_some.mp h
  exact ⟨m, hs.finish ▸ rfl, hrest⟩

namespace StatementGrammar

/-- The rules for what stands between brackets, where at most `n` further levels may be opened: the
body of a function, a member, a module or a static block; the bodies of classes and enumerations; a
list of parameters; object types, mapped types, tuples and types in parentheses; a computed name;
and a group that is skipped. -/
inductive IsBracketed (n : Nat) : {α : Type} → Parser α → Prop
  | body : IsBracketed n (block n)
  | classBody : IsBracketed n (braced [";"] (classMember (within n) (block n)))
  | enumBody : IsBracketed n enumBody
  | params : IsBracketed n (params ((within n).type true))
  | typeMembers : IsBracketed n (typeMembers ((within n).type true))
  | mappedType : IsBracketed n (mappedType ((within n).type true))
  | tupleType : IsBracketed n (tupleType ((within n).type true))
  | primaryType : IsBracketed n (primaryType ((within n).type true))
  | propertyName : IsBracketed n propertyName
  | group : IsBracketed n skipGroup

theorem IsBracketed.encloses {n : Nat} {α : Type} {p : Parser α} (h : IsBracketed n p)
    {m : List String} {s : Cursor} (hs : s.next.isOpener = true) : EnclosesFrom m s p := by
  have htype := (keeps_within n).1
  cases h with
  | body => exact enclosesFrom_block n m s
  | classBody => exact enclosesFrom_braced rfl (keeps_classMember htype (keeps_block n))
  | enumBody => exact enclosesFrom_expectMark brace_mem closes_enumMembers
  | params => exact enclosesFrom_expectMark parenthesis_mem (closes_params (htype true))
  | typeMembers => exact enclosesFrom_braced rfl (keeps_separatedMember (htype true))
  | mappedType => exact enclosesFrom_mappedType (htype true) m s
  | tupleType => exact enclosesFrom_tupleType (htype true) m s
  | primaryType => exact enclosesFrom_primaryType (htype true) hs
  | propertyName => exact enclosesFrom_propertyName hs
  | group => exact enclosesFrom_skipGroup hs

/-- The tokens of each body in a nested text are nested. -/
theorem nestedInBlocks {ts : List Token} (h : Nested ts) : HoldsInBlocks Nested ts := by
  rintro n s body t o inner c ⟨before, hbefore⟩ hfinish hblock hrest
  rw [← hbefore] at h
  obtain ⟨m, -, htokens⟩ := openBehind_append_eq_some.mp h
  obtain ⟨-, inner', c', hrest', hinner, -⟩ :=
    enclosesFrom_block n m s ⟨hfinish, htokens⟩ body t hblock
  rw [hrest] at hrest'
  have htaken : inner ++ [c] ++ t.rest = inner' ++ [c'] ++ t.rest := by
    simpa using (List.cons.inj hrest').2
  rwa [(List.append_inj' (List.append_cancel_right htaken) rfl).1]

end StatementGrammar

namespace SourceFile

/-- In a text whose brackets are nested, what is read from a bracket on ends at its partner.
* If the text is read, it falls apart into its statements, and the tokens of each body between two
  braces are nested.
* Wherever a bracket is opened there is a partner of its kind with nested tokens between them, and
each rule for what stands between brackets that reads from there leaves what is behind the partner.
* An expression that is passed over from any place is nested, so that it closes each bracket that it
  opens and no other.
* A statement takes nested tokens where the innermost open bracket is a brace or none is open. -/
theorem ends_at_partners {source : String} {l : Lexed} (hl : Lexed.ofSource source = .ok l)
    (hnested : Nested l.tokens) :
    (∀ f, ofSource source = .ok f → StatementTokens Nested l.tokens f.statements) ∧
    (∀ s : Cursor, s.IsIn l → s.next.isOpener = true →
      ∃ inner c after, s.rest = s.next :: (inner ++ c :: after) ∧ Nested inner ∧
        s.next.Partners c ∧ ∀ n {α : Type} (p : Parser α) a t, IsBracketed n p →
          p s = .ok (a, t) → t.rest = after) ∧
    (∀ s : Cursor, s.IsIn l → ∀ stops lines taken t, passExpression stops lines s =
      .ok (taken, t) → ∃ passed, s.rest = passed ++ t.rest ∧ Nested passed) ∧
    ∀ before m (s : Cursor), s.finish = l.finish → l.tokens = before ++ s.rest →
      openBehind [] before = some m → InBlock m → ∀ n a t,
        statement (within n) (block n) s = .ok (a, t) →
          ∃ own, s.rest = own ++ t.rest ∧ Nested own := by
  refine ⟨fun f hf ↦ ?_, fun s hs hopener ↦ ?_, fun s hs stops lines taken t ht ↦ ?_,
    fun before m s hfinish htokens hm hblock n a t ht ↦ ?_⟩
  · obtain ⟨l', hl', htokens⟩ := tokens_ofSource hf
    cases hl.symm.trans hl'
    exact htokens Nested (nestedInBlocks hnested)
  · obtain ⟨m, hm⟩ := hs.inside hnested
    obtain ⟨inner, c, after, hrest, hinner, hpartners⟩ := hm.exists_partner hopener
    refine ⟨inner, c, after, hrest, hinner, hpartners, fun n α p a t hp ht ↦ ?_⟩
    obtain ⟨-, inner', c', hrest', hinner', hpartners'⟩ := hp.encloses hopener hm a t ht
    have heq := (List.cons.inj (hrest.symm.trans hrest')).2
    exact (hinner.partner_unique hinner' hpartners.isCloser hpartners'.isCloser heq).2.2.symm
  · obtain ⟨m, hm⟩ := hs.inside hnested
    exact (keeps_passExpression stops lines [] m s hm taken t ht).tokens
  · rw [htokens] at hnested
    obtain ⟨j, hj, hrest⟩ := openBehind_append_eq_some.mp hnested
    cases hm.symm.trans hj
    have hs : s.Inside m := ⟨hfinish ▸ rfl, hrest⟩
    exact (keepsInBlock_statement (keeps_within n).1 (keeps_block n) m s hblock hs a t ht).tokens

/-- A class with a method, whose parameter has a default in brackets of two kinds. The braces of the
method are its fourteenth token and the last but one. -/
theorem ends_at_partners_method :
    ∃ l f body t, Lexed.ofSource "class A \x7b m(a = [(1)]) \x7b var x \x7d \x7d" = .ok l ∧
      Nested l.tokens ∧ ofSource "class A \x7b m(a = [(1)]) \x7b var x \x7d \x7d" = .ok f ∧
      StatementTokens Nested l.tokens f.statements ∧
      block 1 ⟨none, l.tokens.drop 13, l.finish, 0, 0, false⟩ = .ok (body, t) ∧
      ∃ o inner c, l.tokens.drop 13 = o :: (inner ++ c :: t.rest) ∧ Nested inner ∧
      o.Partners c := by
  have htokens : (Lexed.ofSource "class A \x7b m(a = [(1)]) \x7b var x \x7d \x7d").toOption.map
      (fun l ↦ (decide (Nested l.tokens), (l.tokens.drop 13).head?.map Token.isOpener,
        (block 1 ⟨none, l.tokens.drop 13, l.finish, 0, 0, false⟩).toOption.isSome)) =
      some (true, some true, true) := by decide +kernel
  have hread :
      (ofSource "class A \x7b m(a = [(1)]) \x7b var x \x7d \x7d").toOption.isSome = true := by
    decide +kernel
  obtain ⟨l, hl, hbody⟩ := Option.map_eq_some_iff.mp htokens
  obtain ⟨f, hf⟩ := Option.isSome_iff_exists.mp hread
  simp only [Prod.mk.injEq, decide_eq_true_eq] at hbody
  obtain ⟨hnested, hopener, hbody⟩ := hbody
  obtain ⟨⟨body, t⟩, hbody⟩ := Option.isSome_iff_exists.mp hbody
  have hl := toOption_eq_some.mp hl
  have hf := toOption_eq_some.mp hf
  have hbody := toOption_eq_some.mp hbody
  obtain ⟨hstatements, hbrackets, -⟩ := ends_at_partners hl hnested
  let s : Cursor := ⟨none, l.tokens.drop 13, l.finish, 0, 0, false⟩
  have hs : s.next.isOpener = true := by
    obtain ⟨o, ho, hopener⟩ := Option.map_eq_some_iff.mp hopener
    rw [Cursor.next, Cursor.token, List.getD_eq_getElem?_getD, ← List.head?_eq_getElem?]
    exact ho ▸ hopener
  obtain ⟨inner, c, after, hrest, hinner, hpartners, hall⟩ :=
    hbrackets s ⟨rfl, List.drop_suffix 13 l.tokens⟩ hs
  have hafter : t.rest = after := hall 1 (block 1) body t .body hbody
  exact ⟨l, f, body, t, hl, hnested, hf, hstatements f hf, hbody, s.next, inner, c, hafter ▸
    hrest, hinner, hpartners⟩

end SourceFile

end PluginSurface
