import PluginSurface.Proofs.Syntax.KnownTokens
import PluginSurface.Proofs.Syntax.Parenthesized
import PluginSurface.Syntax.StatementGrammar

/-!
# Reading types in full parentheses

A type is read one level further in than the parentheses around it, and the parser of a list reads
one level further in than the list; so a plain type of height `n` takes `2 * n + 1` levels.

Main statement: `SourceFile.ofSource_parenthesized`.
-/

namespace PluginSurface

open PluginSurface.Parser Piece

namespace TypeGrammar

/-- Marks that stand behind a whole type. -/
def stopMarks : List String := [")", ";", ",", ">", "]", ":", "?"]

def IsStop (t : Token) : Prop := t.isMarkIn stopMarks

theorem IsStop.isMark_eq_false {t : Token} (h : IsStop t) {text : String}
    (htext : stopMarks.contains text = false) : t.isMark text = false := by
  simp only [IsStop, Token.isMarkIn, Token.isMark, Bool.and_eq_true, beq_iff_eq] at h ⊢
  refine Bool.eq_false_iff.mpr fun heq ↦ Bool.eq_false_iff.mp htext ?_
  simp only [Bool.and_eq_true, beq_iff_eq] at heq
  exact heq.2 ▸ h.2

theorem IsStop.kind_eq {t : Token} (h : IsStop t) : t.kind = .mark := by
  simp only [IsStop, Token.isMarkIn, Bool.and_eq_true, beq_iff_eq] at h
  exact h.1

theorem IsStop.isWord_eq_false {t : Token} (h : IsStop t) (text : String) :
    t.isWord text = false := by
  simp [Token.isWord, h.kind_eq]

theorem isStop_token {blank : Bool} {text : String} (h : stopMarks.contains text) (offset : Nat) :
    IsStop ((mark blank text).token offset) := h

theorem tokensFrom_group (offset : Nat) (blank : Bool) (ps : List Piece) (more : List Token) :
    ∃ inside behind, tokensFrom offset (group blank ps) ++ more =
      (mark blank "(").token offset ::
        (tokensFrom inside ps ++ (mark false ")").token behind :: more) :=
  ⟨_, _, by
    rw [group, tokensFrom_cons, tokensFrom_append, List.cons_append, List.append_assoc]
    rfl⟩

section

variable {s : Cursor} {type : Bool → Parser TypeExpr} {inner : Parser TypeExpr} {t a : TypeExpr}
  {blank : Bool} {ps : List Piece} {next first : Token} {rest more : List Token}

theorem gives_primaryType_group (h : ReadsBefore IsStop (type true) s ps t) (offset : Nat)
    (more : List Token) :
    Gives (primaryType (type true)) s (tokensFrom offset (group blank ps) ++ more) t more := by
  obtain ⟨inside, behind, heq⟩ := tokensFrom_group offset blank ps more
  rw [heq]
  refine gives_look_bind.mpr ?_
  simp only [token, List.getD_cons_zero, beq_self_eq_true, if_true]
  exact gives_bump.bind
    ((h inside _ more (isStop_token rfl behind)).bind ((gives_expectMark rfl).bind (gives_pure _)))

theorem gives_postfix_done (hnext : next.isMark "[" = false) :
    Gives (rounds (postfixStep (type true)) t) s (next :: more) t (next :: more) := by
  refine gives_rounds_done (gives_look_bind.mpr ?_)
  simp only [List.getD_cons_zero, hnext, Bool.false_and, Bool.false_eq_true, if_false]
  exact gives_pure _

/-- An operand that begins with a parenthesis has neither an operator nor an `infer`. -/
theorem gives_operandRule_of_postfix {offset : Nat}
    (h : Gives (postfixType (type true)) s (tokensFrom offset (group blank ps) ++ rest) t more) :
    Gives (operandRule type inner) s (tokensFrom offset (group blank ps) ++ rest) t more := by
  obtain ⟨inside, behind, heq⟩ := tokensFrom_group offset blank ps rest
  rw [heq] at h ⊢
  refine gives_look_bind.mpr (gives_look_bind.mpr ?_)
  simpa [token, Token.isWord] using h

theorem gives_operandRule_group (h : ReadsBefore IsStop (type true) s ps t) (offset : Nat)
    (hnext : next.isMark "[" = false) :
    Gives (operandRule type inner) s (tokensFrom offset (group blank ps) ++ next :: more) t
      (next :: more) :=
  gives_operandRule_of_postfix
    ((gives_primaryType_group h offset (next :: more)).bind (gives_postfix_done hnext))

/-- A type in parentheses with a pair of brackets behind it. -/
theorem gives_operandRule_brackets (h : ReadsBefore IsStop (type true) s ps t) (offset : Nat)
    (hstep : Gives (postfixStep (type true) t) s rest (.again a) (next :: more))
    (hlength : (next :: more).length < rest.length) (hnext : next.isMark "[" = false) :
    Gives (operandRule type inner) s (tokensFrom offset (group blank ps) ++ rest) a
      (next :: more) :=
  gives_operandRule_of_postfix ((gives_primaryType_group h offset rest).bind
    (gives_rounds_again hstep hlength (gives_postfix_done hnext)))

/-! ## Levels of the grammar -/

theorem gives_atFunctionType_false (hangle : first.isMark "<" = false)
    (hparen : first.isMark "(" = false) (hnew : first.isWord "new" = false)
    (habstract : first.isWord "abstract" = false) :
    Gives atFunctionType s (first :: rest) false (first :: rest) := by
  refine gives_get_bind fun last ↦ ?_
  simp only [Cursor.next, Cursor.token, List.getD_cons_zero, hangle, hparen, hnew, habstract,
    Bool.false_and, Bool.or_self, Bool.false_eq_true, if_false]
  exact gives_pure _

/-- A closed group begins a function type if an arrow follows it. -/
theorem gives_atFunctionType_group (hps : Balanced ps) (offset : Nat) :
    Gives atFunctionType s (tokensFrom offset (group blank ps) ++ next :: more) (next.isMark "=>")
      (tokensFrom offset (group blank ps) ++ next :: more) := by
  obtain ⟨inside, behind, heq⟩ := tokensFrom_group offset blank ps (next :: more)
  have hclose : closeGroup 0
      (tokensFrom inside ps ++ (mark false ")").token behind :: next :: more) =
      some (tokensFrom inside ps, (mark false ")").token behind, next :: more) := by
    rw [hps, closeGroup_zero_of_closer rfl rfl]
    simp
  rw [heq]
  refine gives_get_bind fun last ↦ ?_
  simp [Cursor.next, Cursor.token, token, Token.isMark, Token.isWord]
  simp only [token] at hclose
  rw [hclose]
  exact gives_pure _

theorem gives_chain_single {sign : String} {combine : List TypeExpr → TypeExpr}
    (h : Gives inner s (first :: rest) a (next :: more)) (hfirst : first.isMark sign = false)
    (hnext : next.isMark sign = false) :
    Gives (chain sign combine inner) s (first :: rest) a (next :: more) := by
  have hlist : Gives (separated sign inner) s (first :: rest) [a] (next :: more) :=
    h.bind (gives_rounds_done ((gives_eatMark_false hnext).bind (gives_pure _)))
  exact (gives_eatMark_false hfirst).bind (hlist.bind (gives_pure _))

theorem gives_chain_several {sign : String} {combine : List TypeExpr → TypeExpr}
    {ts : List TypeExpr} (h : Gives (separated sign inner) s (first :: rest) ts (next :: more))
    (hseveral : 2 ≤ ts.length) (hfirst : first.isMark sign = false) :
    Gives (chain sign combine inner) s (first :: rest) (combine ts) (next :: more) := by
  refine (gives_eatMark_false hfirst).bind (h.bind ?_)
  match ts, hseveral with
  | _ :: _ :: _, _ => exact gives_pure _

end

section

variable {s : Cursor} {type : Bool → Parser TypeExpr} {operand : Parser TypeExpr} {t : TypeExpr}
  {conditional : Bool} {next : Token} {rest more : List Token}

/-- A type that is neither a function nor a condition. -/
theorem gives_typeRule (hdepth : s.depth < maxNesting)
    (hfunction : ∀ s, Gives atFunctionType s rest false rest)
    (hcheck : Gives (chain "|" .union (chain "&" .intersection operand))
      { s with depth := s.depth + 1, inBound := !conditional } rest t (next :: more))
    (hnext : next.isWord "extends" = false) :
    Gives (typeRule operand type conditional) s rest t (next :: more) := by
  refine gives_nested hdepth (gives_withBound ((hfunction _).bind ?_))
  refine hcheck.bind ?_
  cases conditional with
  | false => exact gives_pure _
  | true => exact (gives_eatWord_false hnext).bind (gives_pure _)

end

/-! ## Types in parentheses -/

/-- Behind its pieces the type is read wherever `2 * n + 1` further levels may be opened. -/
def IsReadAt (n : Nat) (t : TypeExpr) : Prop :=
  ∀ k s, 2 * n + 1 ≤ k → s.depth + (2 * n + 1) ≤ maxNesting →
    ReadsBefore IsStop ((within k).type true) s t.pieces t

theorem operand_within (k : Nat) :
    ∃ inner, (within k).operand = operandRule (within k).type inner := by
  cases k <;> exact ⟨_, rfl⟩

section

variable {n k : Nat} {s : Cursor} {t : TypeExpr} {next : Token}

theorem IsReadAt.gives_operand (h : IsReadAt n t) (hk : 2 * n + 1 ≤ k)
    (hdepth : s.depth + (2 * n + 1) ≤ maxNesting) (blank : Bool) (offset : Nat)
    (hnext : next.isMark "[" = false) (more : List Token) :
    Gives (within k).operand s (tokensFrom offset (group blank t.pieces) ++ next :: more) t
      (next :: more) := by
  obtain ⟨inner, hoperand⟩ := operand_within k
  rw [hoperand]
  exact gives_operandRule_group (h k s hk hdepth) offset hnext

theorem IsReadAt.gives_chains (h : IsReadAt n t) (hk : 2 * n + 1 ≤ k)
    (hdepth : s.depth + (2 * n + 1) ≤ maxNesting) (blank : Bool) (offset : Nat)
    (hnext : ["[", "|", "&"].all fun text ↦ !next.isMark text) (more : List Token) :
    Gives (chain "|" .union (chain "&" .intersection (within k).operand)) s
      (tokensFrom offset (group blank t.pieces) ++ next :: more) t (next :: more) := by
  simp only [List.all_cons, List.all_nil, Bool.and_true, Bool.and_eq_true,
    Bool.not_eq_true'] at hnext
  have hoperand := h.gives_operand hk hdepth blank offset hnext.1 more
  obtain ⟨inside, behind, heq⟩ := tokensFrom_group offset blank t.pieces (next :: more)
  rw [heq] at hoperand ⊢
  exact gives_chain_single (gives_chain_single hoperand rfl hnext.2.2) rfl hnext.2.1

theorem IsStop.all_isMark (h : IsStop next) :
    ["[", "|", "&"].all fun text ↦ !next.isMark text := by
  have hbracket : next.isMark "[" = false := h.isMark_eq_false rfl
  have hor : next.isMark "|" = false := h.isMark_eq_false rfl
  have hand : next.isMark "&" = false := h.isMark_eq_false rfl
  simp [hbracket, hor, hand]

/-- A type in parentheses is read where a type may stand. -/
theorem IsReadAt.reads_group (h : IsReadAt n t) (hclosed : Closed t.pieces) (hk : 2 * n + 2 ≤ k)
    (hdepth : s.depth + (2 * n + 2) ≤ maxNesting) (conditional blank : Bool) :
    ReadsBefore IsStop ((within k).type conditional) s (group blank t.pieces) t := by
  obtain ⟨k, rfl⟩ :=
    Nat.exists_eq_succ_of_ne_zero (Nat.ne_of_gt (Nat.lt_of_lt_of_le (by omega) hk))
  intro offset next more hnext
  refine gives_typeRule (by omega) (fun s ↦ ?_) ?_ (hnext.isWord_eq_false _)
  · rw [← hnext.isMark_eq_false (rfl : stopMarks.contains "=>" = false)]
    exact gives_atFunctionType_group hclosed.balanced offset
  · exact h.gives_chains (by omega) (by dsimp only; omega) blank offset hnext.all_isMark more

end

/-! ## Words and literals -/

section

variable {s : Cursor} {type : Bool → Parser TypeExpr} {inner : Parser TypeExpr} {t : TypeExpr}
  {first next : Token} {rest more : List Token}

/-- An operand with neither an operator nor an `infer` in front. -/
theorem gives_operandRule_suffixed
    (hsuffixed : Gives (postfixType (type true)) s (first :: rest) t more)
    (hoperator : first.kind = .word → TypeOperator.ofWord? first.text = none)
    (hinfer : first.isWord "infer" = false) :
    Gives (operandRule type inner) s (first :: rest) t more := by
  refine gives_look_bind.mpr (gives_look_bind.mpr ?_)
  simp only [List.getD_cons_zero, hinfer, Bool.false_and, Bool.false_eq_true, if_false]
  split
  next h =>
    rw [hoperator (by simpa using (Bool.and_eq_true_iff.mp h).1)]
    exact gives_look_bind.mpr hsuffixed
  · exact gives_look_bind.mpr hsuffixed

theorem gives_operandRule_primary (hprimary : Gives (primaryType (type true)) s (first :: rest) t
      (next :: more))
    (hoperator : first.kind = .word → TypeOperator.ofWord? first.text = none)
    (hinfer : first.isWord "infer" = false) (hnext : next.isMark "[" = false) :
    Gives (operandRule type inner) s (first :: rest) t (next :: more) :=
  gives_operandRule_suffixed (hprimary.bind (gives_postfix_done hnext)) hoperator hinfer

/-- The kind and text of the first token are those of no function type. -/
theorem isReadAt_of_operand {n : Nat} {t : TypeExpr}
    (hfunction : ∀ s offset next more, IsStop next → Gives atFunctionType s
      (tokensFrom offset t.pieces ++ next :: more) false
      (tokensFrom offset t.pieces ++ next :: more))
    (hfirst : ∃ p ps, t.pieces = p :: ps ∧
      ∀ offset, ((p.token offset).isMark "|" || (p.token offset).isMark "&") = false)
    (hoperand : ∀ k s, 2 * n ≤ k → s.depth + 2 * n ≤ maxNesting →
      ReadsBefore IsStop (within k).operand s t.pieces t) : IsReadAt n t := by
  intro k s hk hdepth offset next more hnext
  obtain ⟨k, rfl⟩ :=
    Nat.exists_eq_succ_of_ne_zero (Nat.ne_of_gt (Nat.lt_of_lt_of_le (by omega) hk))
  refine gives_typeRule (by omega) (hfunction · offset next more hnext) ?_
    (hnext.isWord_eq_false _)
  have hchains := hoperand k { s with depth := s.depth + 1, inBound := !true } (by omega)
    (by dsimp only; omega) offset next more hnext
  obtain ⟨p, ps, heq, hmark⟩ := hfirst
  simp only [Bool.or_eq_false_iff] at hmark
  rw [heq, tokensFrom_cons, List.cons_append] at hchains ⊢
  exact gives_chain_single (gives_chain_single hchains (hmark offset).2 (hnext.isMark_eq_false rfl))
    (hmark offset).1 (hnext.isMark_eq_false rfl)

theorem gives_namedType_keyword {keyword : Keyword} (hkind : first.kind = .word)
    (htext : first.text = keyword.word) (hnext : next.isMark "." = false) :
    Gives (namedType inner) s (first :: next :: more) (.keyword keyword) (next :: more) := by
  obtain ⟨kind, text, span, newline⟩ := first
  obtain ⟨rfl, rfl⟩ : kind = .word ∧ text = keyword.word := ⟨hkind, htext⟩
  have hword : Keyword.ofWord? keyword.word = some keyword := by
    cases keyword <;> decide
  refine gives_look_bind.mpr (gives_look_bind.mpr ?_)
  have hother : ["true", "false", "this", "typeof", "import"].all (keyword.word != ·) := by
    cases keyword <;> decide
  simp at hother
  simp [hother, hnext, hword, -bind_pure_comp]
  exact gives_bump.bind (gives_pure _)

/-- The rest of a dotted name. -/
theorem gives_rounds_entityStep (hnext : next.isMark "." = false) (names found : List String)
    (offset : Nat) :
    Gives (rounds entityStep found) s
      (tokensFrom offset ((names.map fun segment ↦ [word false segment]).flatMap
        (mark false "." :: ·)) ++ next :: more)
      (found.reverse ++ names) (next :: more) := by
  induction names generalizing found offset with
  | nil =>
      refine gives_rounds_done (gives_look_bind.mpr (gives_look_bind.mpr ?_))
      simp [hnext]
      exact gives_pure _
  | cons name names ih =>
      have hmore := ih (name :: found)
        ((word false name).stop ((mark false ".").stop offset))
      rw [List.reverse_cons, List.append_assoc] at hmore
      refine gives_rounds_again (gives_look_bind.mpr (gives_look_bind.mpr ?_)) ?_ hmore
      · simp [token, Token.isMark, -bind_pure_comp]
        exact gives_bump.bind (gives_bump.bind (gives_pure _))
      · simp only [List.map_cons, List.flatMap_cons, List.cons_append, List.nil_append, tokensFrom,
          List.length_append, List.length_cons]
        omega

theorem gives_entityName {name : List String} (hname : name ≠ [])
    (hnext : next.isMark "." = false) (offset : Nat) :
    Gives entityName s (tokensFrom offset (qualified name) ++ next :: more) name
      (next :: more) := by
  cases name with
  | nil => exact absurd rfl hname
  | cons first names =>
      exact (gives_expectWordText rfl).bind
        (gives_rounds_entityStep hnext names [first] ((word false first).stop offset))

theorem ofWord?_eq_none {segment : String} (h : segment ∉ TypeExpr.typeWords) :
    Keyword.ofWord? segment = none := by
  refine List.find?_eq_none.mpr fun keyword hkeyword ↦ ?_
  simp only [beq_iff_eq]
  rintro rfl
  exact h (List.mem_append_left _ (List.mem_map_of_mem hkeyword))

theorem gives_namedType_reference {name : List String} {args : List TypeExpr}
    (hname : TypeExpr.IsTypeName name) (offset : Nat)
    (hargs : Gives (typeArgs inner) s (first :: rest) args (next :: more))
    (hfirst : first.isMark "." = false) :
    Gives (namedType inner) s (tokensFrom offset (qualified name) ++ first :: rest)
      (.reference name args) (next :: more) := by
  have hreference : Gives (entityName >>= fun name ↦ typeArgs inner >>= fun args ↦
      pure (TypeExpr.reference name args)) s (tokensFrom offset (qualified name) ++ first :: rest)
      (.reference name args) (next :: more) :=
    (gives_entityName hname.nonempty hfirst offset).bind (hargs.bind (gives_pure _))
  obtain ⟨hne, -, hwords⟩ := hname
  cases name with
  | nil => exact absurd rfl hne
  | cons segment names =>
      have hword := hwords segment rfl
      have hkeyword := ofWord?_eq_none hword
      simp only [TypeExpr.typeWords, List.mem_append, List.mem_cons, List.not_mem_nil, or_false,
        not_or] at hword
      refine gives_look_bind.mpr (gives_look_bind.mpr ?_)
      simp [qualified, joined, token, hword, hkeyword, -bind_pure_comp] at hreference ⊢
      exact hreference

end

/-! ## Lists of types -/

theorem forall₂_groupTypes {R : List Piece → TypeExpr → Prop} {ts : List TypeExpr}
    (h : ∀ t ∈ ts, ∀ blank, R (group blank t.pieces) t) (blank : Bool) :
    List.Forall₂ R (groupTypes blank ts) ts := by
  induction ts generalizing blank with
  | nil => exact .nil
  | cons t ts ih =>
      obtain ⟨ht, hts⟩ := List.forall_mem_cons.mp h
      exact .cons (ht blank) (ih hts true)

/-- What stands behind an element of a tuple. -/
def IsElementStop (t : Token) : Prop := t.isMarkIn [",", "]"]

theorem IsElementStop.isStop {t : Token} (h : IsElementStop t) :
    IsStop t ∧ t.isMark "?" = false := by
  simp only [IsElementStop, Token.isMarkIn, Bool.and_eq_true, beq_iff_eq, List.contains_iff_mem,
    List.mem_cons, List.not_mem_nil, or_false] at h
  obtain ⟨hkind, htext | htext⟩ := h <;>
    simp [IsStop, Token.isMarkIn, Token.isMark, stopMarks, hkind, htext]

section

variable {n k : Nat} {s : Cursor} {t : TypeExpr} {ts : List TypeExpr} {next : Token}
  (hclosed : ∀ t ∈ ts, Closed t.pieces) (h : ∀ t ∈ ts, IsReadAt n t)

include hclosed h

theorem forall₂_isItem (hk : 2 * n + 2 ≤ k) (hdepth : s.depth + (2 * n + 2) ≤ maxNesting)
    {close : String} (hclose : close ≠ "(") :
    List.Forall₂ (IsItem close IsStop (fun _ ↦ (within k).type true) s)
      (groupTypes false ts) ts :=
  forall₂_groupTypes (fun t ht blank ↦
    { opens := ⟨_, _, rfl, fun _ ↦ by simp [token, Token.isMark, hclose.symm]⟩
      reads := fun _ ↦ (h t ht).reads_group (hclosed t ht) hk hdepth true blank }) false

theorem gives_typeArgs (hk : 2 * n + 2 ≤ k) (hdepth : s.depth + (2 * n + 2) ≤ maxNesting)
    (offset : Nat) (more : List Token) :
    Gives (typeArgs ((within k).type true)) s
      (tokensFrom offset (mark false "<" ::
        (joined (mark false ",") (groupTypes false ts) ++ [mark false ">"])) ++ more)
      ts more :=
  (gives_eatMark rfl).bind (gives_listUntil (forall₂_isItem hclosed h hk hdepth (by decide))
    (isStop_token rfl) (isStop_token rfl) (by decide) _ more)

theorem gives_tupleType (hk : 2 * n + 2 ≤ k) (hdepth : s.depth + (2 * n + 2) ≤ maxNesting)
    (offset : Nat) (more : List Token) :
    Gives (tupleType ((within k).type true)) s
      (tokensFrom offset (mark false "[" ::
        (joined (mark false ",") (groupTypes false ts) ++ [mark false "]"])) ++ more)
      (.tuple (ts.map .plain)) more := by
  have helement (t : TypeExpr) (ht : t ∈ ts) (blank : Bool) : ReadsBefore IsElementStop
      (tupleElement ((within k).type true)) s (group blank t.pieces) (.plain t) := by
    intro offset next more hnext
    obtain ⟨hstop, hmark⟩ := hnext.isStop
    have htype := (h t ht).reads_group (hclosed t ht) hk hdepth true blank offset next more hstop
    obtain ⟨inside, behind, heq⟩ := tokensFrom_group offset blank t.pieces (next :: more)
    rw [heq] at htype ⊢
    refine (gives_eatMark_false rfl).bind ?_
    simp [token, -bind_pure_comp]
    exact htype.bind ((gives_eatMark_false hmark).bind (gives_pure _))
  have hitems : List.Forall₂
      (IsItem "]" IsElementStop (fun _ ↦ tupleElement ((within k).type true)) s)
      (groupTypes false ts) (ts.map TupleElement.plain) :=
    List.forall₂_map_right_iff.mpr ((forall₂_groupTypes fun t ht blank ↦
      { opens := ⟨_, _, rfl, fun _ ↦ rfl⟩
        reads := fun _ ↦ helement t ht blank }) false)
  exact (gives_expectMark rfl).bind ((gives_listUntil hitems (fun _ ↦ rfl) (fun _ ↦ rfl)
    (by decide) _ more).bind (gives_pure _))

end

/-! ## Functions -/

section

variable {n k : Nat} {s : Cursor} {params : List (String × TypeExpr)}

theorem forall₂_groupParams {R : List Piece → Param → Prop}
    (h : ∀ p ∈ params, ∀ blank,
      R (word blank p.1 :: mark false ":" :: group true p.2.pieces) (.required p.1 p.2))
    (blank : Bool) :
    List.Forall₂ R (groupParams blank (params.map fun p ↦ .required p.1 p.2))
      (params.map fun p ↦ .required p.1 p.2) := by
  induction params generalizing blank with
  | nil => exact .nil
  | cons p params ih =>
      obtain ⟨hp, hparams⟩ := List.forall_mem_cons.mp h
      exact .cons (hp blank) (ih hparams true)

theorem gives_params (hclosed : ∀ p ∈ params, Closed p.2.pieces)
    (h : ∀ p ∈ params, IsReadAt n p.2)
    (hk : 2 * n + 2 ≤ k) (hdepth : s.depth + (2 * n + 2) ≤ maxNesting) (offset : Nat)
    (more : List Token) :
    Gives (TypeGrammar.params ((within k).type true)) s
      (tokensFrom offset (group false (joined (mark false ",")
        (groupParams false (params.map fun p ↦ .required p.1 p.2)))) ++ more)
      (params.map fun p ↦ .required p.1 p.2) more := by
  have hparam (p : String × TypeExpr) (hp : p ∈ params) (blank : Bool) (place : Nat) :
      ReadsBefore IsStop (param ((within k).type true) place) s
        (word blank p.1 :: mark false ":" :: group true p.2.pieces) (.required p.1 p.2) := by
    intro offset next more hnext
    have htype := (h p hp).reads_group (hclosed p hp) hk hdepth true true
      ((mark false ":").stop ((word blank p.1).stop offset)) next more hnext
    have hascription : Gives (ascription ((within k).type true)) s
        ((mark false ":").token ((word blank p.1).stop offset) ::
          (tokensFrom ((mark false ":").stop ((word blank p.1).stop offset))
            (group true p.2.pieces) ++ next :: more))
        (some p.2) (next :: more) :=
      (gives_eatMark rfl).bind (htype.bind (gives_pure _))
    refine (gives_takeTokens_nil ?_).bind ((gives_eatMark_false rfl).bind ?_)
    · simp [paramModifier, token, Token.isMark]
    simp [token, Token.isMark, -bind_pure_comp]
    refine (gives_expectWordText rfl).bind ((gives_eatMark_false rfl).bind ?_)
    exact hascription.bind ((gives_eatMark_false (hnext.isMark_eq_false rfl)).bind (gives_pure _))
  have hitems := forall₂_groupParams (R := IsItem ")" IsStop (param ((within k).type true)) s)
    (fun p hp blank ↦
      { opens := ⟨_, _, rfl, fun _ ↦ rfl⟩
        reads := hparam p hp blank }) false
  exact (gives_expectMark rfl).bind (gives_listUntil hitems (isStop_token rfl) (isStop_token rfl)
    (by decide) _ more)

/-- A result in parentheses is no predicate. -/
theorem gives_resultType {type : Parser TypeExpr} {t : TypeExpr} {ps : List Piece} {next : Token}
    {offset : Nat} {more : List Token}
    (h : Gives type s (tokensFrom offset (group true ps) ++ next :: more) t (next :: more)) :
    Gives (resultType type) s (tokensFrom offset (group true ps) ++ next :: more) t
      (next :: more) := by
  obtain ⟨inside, behind, heq⟩ := tokensFrom_group offset true ps (next :: more)
  rw [heq] at h ⊢
  refine gives_look_bind.mpr (gives_look_bind.mpr ?_)
  simpa [token, Token.isWord] using h

theorem gives_functionType {type : Parser TypeExpr} {args : List Param} {t : TypeExpr}
    {ps : List Piece} {offset arrow : Nat} {rest more : List Token}
    (hparams : Gives (TypeGrammar.params type) s
      (tokensFrom offset (group false ps) ++ (mark true "=>").token arrow :: rest) args
      ((mark true "=>").token arrow :: rest))
    (hresult : Gives (resultType type) s rest t more) :
    Gives (functionType type) s
      (tokensFrom offset (group false ps) ++ (mark true "=>").token arrow :: rest)
      (.function false false ⟨[], args, some t⟩) more := by
  obtain ⟨inside, behind, heq⟩ :=
    tokensFrom_group offset false ps ((mark true "=>").token arrow :: rest)
  rw [heq] at hparams ⊢
  refine (gives_eatWord_false rfl).bind ((gives_eatWord_false rfl).bind ?_)
  refine Gives.bind ((gives_eatMark_false rfl).bind (gives_pure [])) (hparams.bind ?_)
  exact (gives_expectMark rfl).bind (hresult.bind (gives_pure _))

theorem isReadAt_function {t : TypeExpr} (hlist : Balanced (joined (mark false ",")
      (groupParams false (params.map fun p ↦ .required p.1 p.2))))
    (hclosed : ∀ p ∈ params, Closed p.2.pieces) (hresult : Closed t.pieces)
    (h : ∀ p ∈ params, IsReadAt n p.2) (ht : IsReadAt n t) :
    IsReadAt (n + 1)
      (.function false false ⟨[], params.map fun p ↦ .required p.1 p.2, some t⟩) := by
  intro k s hk hdepth offset next more hnext
  obtain ⟨k, rfl⟩ :=
    Nat.exists_eq_succ_of_ne_zero (Nat.ne_of_gt (Nat.lt_of_lt_of_le (by omega) hk))
  have hpieces : (TypeExpr.function false false
      ⟨[], params.map fun p ↦ .required p.1 p.2, some t⟩).pieces =
      group false (joined (mark false ",")
        (groupParams false (params.map fun p ↦ .required p.1 p.2))) ++
        mark true "=>" :: group true t.pieces := by
    simp [TypeExpr.pieces, group]
  rw [hpieces, tokensFrom_append, List.append_assoc, tokensFrom_cons, List.cons_append]
  refine gives_nested (by omega)
    (gives_withBound ((gives_atFunctionType_group hlist offset).bind ?_))
  refine gives_functionType ?_ (gives_resultType ?_)
  · exact gives_params hclosed h (by omega) (by dsimp only; omega) offset _
  · exact ht.reads_group hresult (by omega) (by dsimp only; omega) true true _ next more hnext

end

/-! ## Kinds of types -/

section

variable {n : Nat} {t u v w : TypeExpr} {ts : List TypeExpr}

/-- A type that begins with a word. -/
theorem isReadAt_of_word {text : String} {ps : List Piece}
    (hpieces : t.pieces = word false text :: ps) (htext : text ∉ ["new", "abstract", "infer"])
    (hoperator : TypeOperator.ofWord? text = none)
    (hnamed : ∀ k s, 2 * n ≤ k → s.depth + 2 * n ≤ maxNesting →
      ReadsBefore IsStop (namedType ((within k).type true)) s t.pieces t) : IsReadAt n t := by
  simp only [List.mem_cons, List.not_mem_nil, or_false, not_or] at htext
  refine isReadAt_of_operand (fun s offset next more _ ↦ ?_) ⟨_, ps, hpieces,
    fun _ ↦ rfl⟩ ?_
  · rw [hpieces]
    exact gives_atFunctionType_false rfl rfl (by simp [token, Token.isWord, htext])
      (by simp [token, Token.isWord, htext])
  · intro k s hk hdepth offset next more hnext
    obtain ⟨inner, hoperand⟩ := operand_within k
    have hprimary := hnamed k s hk hdepth offset next more hnext
    rw [hpieces] at hprimary ⊢
    rw [hoperand]
    exact gives_operandRule_primary (gives_look_bind.mpr hprimary) (fun _ ↦ hoperator)
      (by simp [token, Token.isWord, htext]) (hnext.isMark_eq_false rfl)

theorem isReadAt_keyword (keyword : Keyword) : IsReadAt n (.keyword keyword) := by
  refine isReadAt_of_word rfl ?_ ?_ fun k s _ _ offset next more hnext ↦ ?_
  · cases keyword <;> decide
  · cases keyword <;> decide
  · exact gives_namedType_keyword rfl rfl (hnext.isMark_eq_false rfl)

theorem isReadAt_string (value : String) : IsReadAt n (.literal (.string value)) := by
  refine isReadAt_of_operand (fun s offset next more _ ↦ gives_atFunctionType_false rfl rfl rfl
    rfl) ⟨_, _, rfl, fun _ ↦ rfl⟩ fun k s _ _ offset next more hnext ↦ ?_
  obtain ⟨inner, hoperand⟩ := operand_within k
  rw [hoperand]
  refine gives_operandRule_primary (gives_look_bind.mpr (gives_bump.bind (gives_pure _))) nofun rfl
    (hnext.isMark_eq_false rfl)

/-- The words that begin a type of their own have no part in a name. -/
theorem isReadAt_of_name {name : List String} (hname : TypeExpr.IsTypeName name) {ps : List Piece}
    (hpieces : t.pieces = qualified name ++ ps)
    (hnamed : ∀ k s, 2 * n ≤ k → s.depth + 2 * n ≤ maxNesting →
      ReadsBefore IsStop (namedType ((within k).type true)) s t.pieces t) : IsReadAt n t := by
  obtain ⟨hne, -, hwords⟩ := hname
  cases name with
  | nil => exact absurd rfl hne
  | cons segment names =>
      have hword := hwords segment rfl
      simp only [TypeExpr.typeWords, List.mem_append, List.mem_cons, List.not_mem_nil, or_false,
        not_or] at hword
      refine isReadAt_of_word hpieces (by simp [hword]) ?_ hnamed
      simp [TypeOperator.ofWord?, TypeOperator.word, Ne.symm, hword]

theorem isReadAt_name {name : List String} (hname : TypeExpr.IsTypeName name) :
    IsReadAt n (.reference name []) := by
  refine isReadAt_of_name hname (List.append_nil _).symm fun k s _ _ offset next more hnext ↦ ?_
  exact gives_namedType_reference hname offset
    ((gives_eatMark_false (hnext.isMark_eq_false rfl)).bind (gives_pure []))
    (hnext.isMark_eq_false rfl)

theorem isReadAt_reference {name : List String} (hname : TypeExpr.IsTypeName name)
    (hclosed : ∀ t ∈ ts, Closed t.pieces) (h : ∀ t ∈ ts, IsReadAt n t) :
    IsReadAt (n + 1) (.reference name ts) := by
  cases ts with
  | nil => exact isReadAt_name hname
  | cons t ts =>
      have hpieces : (TypeExpr.reference name (t :: ts)).pieces = qualified name ++
          mark false "<" ::
            (joined (mark false ",") (groupTypes false (t :: ts)) ++ [mark false ">"]) := by
        simp [TypeExpr.pieces]
      refine isReadAt_of_name hname hpieces fun k s hk hdepth offset next more hnext ↦ ?_
      rw [hpieces, tokensFrom_append, List.append_assoc]
      exact gives_namedType_reference hname offset
        (gives_typeArgs hclosed h (by omega) (by omega) _ (next :: more)) rfl

/-! ## Types that begin with a parenthesis -/

/-- A type in parentheses that is not followed by an arrow begins no function type. -/
theorem gives_atFunctionType_of_group {s : Cursor} {ps qs : List Piece} {p : Piece}
    (hps : Balanced ps) (hp : ∀ offset, (p.token offset).isMark "=>" = false) (offset : Nat)
    (more : List Token) :
    Gives atFunctionType s (tokensFrom offset (group false ps ++ p :: qs) ++ more) false
      (tokensFrom offset (group false ps ++ p :: qs) ++ more) := by
  rw [tokensFrom_append, List.append_assoc, ← hp (stopOf offset (group false ps))]
  exact gives_atFunctionType_group hps offset

theorem isReadAt_array (hclosed : Closed t.pieces) (h : IsReadAt n t) :
    IsReadAt (n + 1) (.array t) := by
  refine isReadAt_of_operand (fun s offset next more _ ↦ ?_) ⟨_, _, rfl, fun _ ↦ rfl⟩ ?_
  · exact gives_atFunctionType_of_group hclosed.balanced (fun _ ↦ rfl) offset (next :: more)
  · intro k s hk hdepth offset next more hnext
    obtain ⟨inner, hoperand⟩ := operand_within k
    rw [hoperand, TypeExpr.pieces, tokensFrom_append, List.append_assoc]
    refine gives_operandRule_brackets (h k s (by omega) (by omega)) offset ?_ (by simp)
      (hnext.isMark_eq_false rfl)
    exact gives_look_bind.mpr (gives_bump.bind ((gives_eatMark rfl).bind (gives_pure _)))

theorem isReadAt_indexed (ht : Closed t.pieces) (h : IsReadAt n t) (hu : Closed u.pieces)
    (h' : IsReadAt n u) : IsReadAt (n + 1) (.indexed t u) := by
  have hpieces : (TypeExpr.indexed t u).pieces = group false t.pieces ++ mark false "[" ::
      (group false u.pieces ++ [mark false "]"]) := by
    simp [TypeExpr.pieces]
  refine isReadAt_of_operand (fun s offset next more _ ↦ ?_) ⟨_, _, hpieces, fun _ ↦ rfl⟩ ?_
  · rw [hpieces]
    exact gives_atFunctionType_of_group ht.balanced (fun _ ↦ rfl) offset (next :: more)
  · intro k s hk hdepth offset next more hnext
    obtain ⟨inner, hoperand⟩ := operand_within k
    rw [hoperand, hpieces, tokensFrom_append, List.append_assoc, tokensFrom_cons, tokensFrom_append,
      List.cons_append, List.append_assoc]
    refine gives_operandRule_brackets (h k s (by omega) (by omega)) offset ?_ (by simp; omega)
      (hnext.isMark_eq_false rfl)
    generalize stopOf offset (group false t.pieces) = bracket
    generalize stopOf ((mark false "[").stop bracket) (group false u.pieces) = close
    have hlevel : 2 * n + 2 ≤ k := by omega
    have hstop : IsStop ((mark false "]").token close) := rfl
    have hindex := h'.reads_group hu hlevel (by omega) true false ((mark false "[").stop bracket) _
      (next :: more) hstop
    exact gives_look_bind.mpr (gives_bump.bind ((gives_eatMark_false rfl).bind
      (hindex.bind ((gives_expectMark rfl).bind (gives_pure _)))))

/-! ## Unions and intersections -/

theorem joined_groupTypes (hseveral : 2 ≤ ts.length) (separator : Piece) :
    ∃ t ∈ ts, ∃ qs, joined separator (groupTypes false ts) =
      group false t.pieces ++ separator :: qs :=
  match ts, hseveral with
  | t :: _ :: _, _ => ⟨t, List.mem_cons_self, _, rfl⟩

theorem tokensFrom_joined (hseveral : 2 ≤ ts.length) (separator : Piece) (offset : Nat)
    (more : List Token) :
    ∃ rest, tokensFrom offset (joined separator (groupTypes false ts)) ++ more =
      (mark false "(").token offset :: rest :=
  match ts, hseveral with
  | _ :: _ :: _, _ => ⟨_, rfl⟩

theorem groupTypes_ne_nil (hseveral : 2 ≤ ts.length) : groupTypes false ts ≠ [] :=
  match ts, hseveral with
  | _ :: _ :: _, _ => nofun

/-- Types in groups with a sign between them are read as the chain of them. -/
theorem gives_chain_joined {s : Cursor} {inner : Parser TypeExpr} {sign : String}
    {combine : List TypeExpr → TypeExpr} {Stop : Token → Prop} {next : Token}
    (hseveral : 2 ≤ ts.length)
    (hmember : ∀ t ∈ ts, ∀ blank, ReadsBefore Stop inner s (group blank t.pieces) t)
    (hparen : ∀ offset, ((mark false "(").token offset).isMark sign = false)
    (hsign : ∀ offset, Stop ((mark true sign).token offset)) (hnext : Stop next)
    (hend : next.isMark sign = false) (offset : Nat) (more : List Token) :
    Gives (chain sign combine inner) s
      (tokensFrom offset (joined (mark true sign) (groupTypes false ts)) ++ next :: more)
      (combine ts) (next :: more) := by
  have hlist := gives_separated (mark true sign) rfl (forall₂_groupTypes hmember false)
    (groupTypes_ne_nil hseveral) hsign hnext hend offset more
  obtain ⟨rest, hrest⟩ := tokensFrom_joined hseveral (mark true sign) offset (next :: more)
  rw [hrest] at hlist ⊢
  exact gives_chain_several hlist hseveral (hparen offset)

/-- Groups with a sign between them begin no function type, so the chains read the whole of them. -/
theorem isReadAt_of_joined {a : TypeExpr} {sign : String} (hseveral : 2 ≤ ts.length)
    (hclosed : ∀ t ∈ ts, Closed t.pieces)
    (hpieces : a.pieces = joined (mark true sign) (groupTypes false ts))
    (harrow : ∀ offset, ((mark true sign).token offset).isMark "=>" = false)
    (hchains : ∀ k s, 2 * n + 1 ≤ k → s.depth + (2 * n + 1) ≤ maxNesting →
      ReadsBefore IsStop (chain "|" .union (chain "&" .intersection (within k).operand)) s
        (joined (mark true sign) (groupTypes false ts)) a) : IsReadAt (n + 1) a := by
  intro k s hk hdepth offset next more hnext
  obtain ⟨k, rfl⟩ :=
    Nat.exists_eq_succ_of_ne_zero (Nat.ne_of_gt (Nat.lt_of_lt_of_le (by omega) hk))
  rw [hpieces]
  refine gives_typeRule (by omega) (fun s ↦ ?_) ?_ (hnext.isWord_eq_false _)
  · obtain ⟨t, ht, qs, hjoined⟩ := joined_groupTypes hseveral (mark true sign)
    rw [hjoined]
    exact gives_atFunctionType_of_group (hclosed t ht).balanced harrow offset (next :: more)
  · exact hchains k _ (by omega) (by dsimp only; omega) offset next more hnext

theorem isReadAt_union (hseveral : 2 ≤ ts.length) (hclosed : ∀ t ∈ ts, Closed t.pieces)
    (h : ∀ t ∈ ts, IsReadAt n t) : IsReadAt (n + 1) (.union ts) := by
  refine isReadAt_of_joined hseveral hclosed (TypeExpr.pieces.eq_def _) (fun _ ↦ rfl)
    fun k s hk hdepth offset next more hnext ↦ ?_
  have hmember (t : TypeExpr) (ht : t ∈ ts) (blank : Bool) :
      ReadsBefore (fun t ↦ t.isMark "[" = false ∧ t.isMark "&" = false)
        (chain "&" .intersection (within k).operand) s (group blank t.pieces) t := by
    rintro offset next more ⟨hbracket, hand⟩
    have hoperand := (h t ht).gives_operand hk hdepth blank offset hbracket more
    obtain ⟨inside, behind, heq⟩ := tokensFrom_group offset blank t.pieces (next :: more)
    rw [heq] at hoperand ⊢
    exact gives_chain_single hoperand rfl hand
  exact gives_chain_joined hseveral hmember (fun _ ↦ rfl) (fun _ ↦ ⟨rfl, rfl⟩)
    ⟨hnext.isMark_eq_false rfl, hnext.isMark_eq_false rfl⟩
      (hnext.isMark_eq_false rfl) offset more

theorem isReadAt_intersection (hseveral : 2 ≤ ts.length) (hclosed : ∀ t ∈ ts, Closed t.pieces)
    (h : ∀ t ∈ ts, IsReadAt n t) : IsReadAt (n + 1) (.intersection ts) := by
  refine isReadAt_of_joined hseveral hclosed (TypeExpr.pieces.eq_def _) (fun _ ↦ rfl)
    fun k s hk hdepth offset next more hnext ↦ ?_
  have hmember (t : TypeExpr) (ht : t ∈ ts) (blank : Bool) :
      ReadsBefore (fun t ↦ t.isMark "[" = false) (within k).operand s (group blank t.pieces) t :=
    fun offset next more hbracket ↦ (h t ht).gives_operand hk hdepth blank offset hbracket more
  have hchain : Gives (chain "&" .intersection (within k).operand) s _ (.intersection ts) _ :=
    gives_chain_joined hseveral hmember (fun _ ↦ rfl) (fun _ ↦ rfl) (hnext.isMark_eq_false rfl)
      (hnext.isMark_eq_false rfl) offset more
  obtain ⟨rest, hrest⟩ := tokensFrom_joined hseveral (mark true "&") offset (next :: more)
  rw [hrest] at hchain ⊢
  exact gives_chain_single hchain rfl (hnext.isMark_eq_false rfl)

/-! ## Tuples, operators and conditions -/

theorem isReadAt_tuple (hclosed : ∀ t ∈ ts, Closed t.pieces) (h : ∀ t ∈ ts, IsReadAt n t) :
    IsReadAt (n + 1) (.tuple (ts.map .plain)) := by
  refine isReadAt_of_operand
    (fun s offset next more _ ↦ gives_atFunctionType_false rfl rfl rfl rfl)
    ⟨_, _, rfl, fun _ ↦ rfl⟩ fun k s hk hdepth offset next more hnext ↦ ?_
  obtain ⟨inner, hoperand⟩ := operand_within k
  have htuple := gives_tupleType (k := k) (s := s) hclosed h (by omega) (by omega) offset
    (next :: more)
  rw [hoperand, TypeExpr.pieces, TypeExpr.groupElements_plain]
  exact gives_operandRule_primary (gives_look_bind.mpr htuple)
    (fun hword ↦ TokenKind.noConfusion hword) rfl (hnext.isMark_eq_false rfl)

theorem isReadAt_keyof (h : IsReadAt n t) : IsReadAt (n + 1) (.operator .keyof t) := by
  refine isReadAt_of_operand
    (fun s offset next more _ ↦ gives_atFunctionType_false rfl rfl rfl rfl)
    ⟨_, _, rfl, fun _ ↦ rfl⟩ fun k s hk hdepth offset next more hnext ↦ ?_
  obtain ⟨k, rfl⟩ :=
    Nat.exists_eq_succ_of_ne_zero (Nat.ne_of_gt (Nat.lt_of_lt_of_le (by omega) hk))
  have hinner := h.gives_operand (k := k) (s := { s with depth := s.depth + 1 }) (by omega)
    (by dsimp only; omega) true ((word false "keyof").stop offset) (hnext.isMark_eq_false rfl) more
  have hpieces : (TypeExpr.operator .keyof t).pieces =
      word false "keyof" :: group true t.pieces := rfl
  rw [hpieces, tokensFrom_cons, List.cons_append]
  obtain ⟨inside, behind, heq⟩ :=
    tokensFrom_group ((word false "keyof").stop offset) true t.pieces (next :: more)
  have hkeyof : TypeOperator.ofWord? "keyof" = some .keyof := rfl
  rw [heq] at hinner ⊢
  refine gives_look_bind.mpr (gives_look_bind.mpr ?_)
  simp [token, startsType, hkeyof, -bind_pure_comp]
  exact gives_bump.bind ((gives_nested (by omega) hinner).bind (gives_pure _))

theorem isReadAt_conditional (ht : Closed t.pieces) (hu : Closed u.pieces) (hv : Closed v.pieces)
    (hw : Closed w.pieces) (h : IsReadAt n t) (hbound : IsReadAt n u) (hyes : IsReadAt n v)
    (hno : IsReadAt n w) : IsReadAt (n + 1) (.conditional t u v w) := by
  intro k s hk hdepth offset next more hnext
  obtain ⟨k, rfl⟩ :=
    Nat.exists_eq_succ_of_ne_zero (Nat.ne_of_gt (Nat.lt_of_lt_of_le (by omega) hk))
  have hpieces : (TypeExpr.conditional t u v w).pieces = group false t.pieces ++
      word true "extends" :: (group true u.pieces ++
        mark true "?" :: (group true v.pieces ++ mark true ":" :: group true w.pieces)) := by
    simp [TypeExpr.pieces]
  rw [hpieces]
  refine gives_nested (by omega) (gives_withBound ?_)
  have hlevel : s.depth + 1 + (2 * n + 2) ≤ maxNesting := by omega
  generalize hinner : ({ s with depth := s.depth + 1, inBound := !true } : Cursor) = s'
  replace hlevel : s'.depth + (2 * n + 2) ≤ maxNesting := by rw [← hinner]; exact hlevel
  refine (gives_atFunctionType_of_group ht.balanced (fun _ ↦ rfl) offset (next :: more)).bind ?_
  simp only [tokensFrom_append, tokensFrom_cons, List.append_assoc, List.cons_append]
  refine (h.gives_chains (by omega) (by omega) false offset rfl _).bind
    ((gives_eatWord rfl).bind ?_)
  refine (hbound.reads_group hu (by omega) hlevel false true _ _ _
    (isStop_token (rfl : stopMarks.contains "?" = true) _)).bind ((gives_expectMark rfl).bind ?_)
  refine (hyes.reads_group hv (by omega) hlevel true true _ _ _
    (isStop_token (rfl : stopMarks.contains ":" = true) _)).bind ((gives_expectMark rfl).bind ?_)
  exact (hno.reads_group hw (by omega) hlevel true true _ _ _ hnext).bind (gives_pure _)

end

/-- Plain types are read back from what is printed of them. -/
theorem isReadAt_of_plain {n : Nat} {t : TypeExpr} (h : t.Plain n) : IsReadAt n t := by
  induction h with
  | keyword word => exact isReadAt_keyword word
  | string => exact isReadAt_string _
  | name hname => exact isReadAt_name hname
  | reference hname hargs ih => exact isReadAt_reference hname (fun t ht ↦ (hargs t ht).closed) ih
  | union hseveral hmembers ih =>
      exact isReadAt_union hseveral (fun t ht ↦ (hmembers t ht).closed) ih
  | intersection hseveral hmembers ih =>
      exact isReadAt_intersection hseveral (fun t ht ↦ (hmembers t ht).closed) ih
  | array helement ih => exact isReadAt_array helement.closed ih
  | tuple helements ih => exact isReadAt_tuple (fun t ht ↦ (helements t ht).closed) ih
  | keyof _ ih => exact isReadAt_keyof ih
  | indexed hobject hindex ih ih' => exact isReadAt_indexed hobject.closed ih hindex.closed ih'
  | conditional hcheck hbound hyes hno ihcheck ihbound ihyes ihno =>
      exact isReadAt_conditional hcheck.closed hbound.closed hyes.closed hno.closed ihcheck ihbound
        ihyes ihno
  | function hnames hparams hresult ihparams ihresult =>
      have hclosed := fun p hp ↦ (hparams p hp).closed
      exact isReadAt_function (TypeExpr.closed_groupParams hnames hclosed).balanced hclosed
        hresult.closed ihparams ihresult

end TypeGrammar

/-! ## Declarations -/

namespace StatementGrammar

open TypeGrammar

/-- The pieces of an alias declaration for the type. -/
def aliasPieces (t : TypeExpr) : List Piece :=
  word false "type" :: word true "X" :: mark true "=" :: (spaced t.pieces ++ [mark false ";"])

variable {n : Nat} {t : TypeExpr}

theorem textOf_aliasPieces (ht : t.Plain n) :
    textOf (aliasPieces t) = "type X = " ++ t.parenthesized ++ ";" := by
  obtain ⟨p, ps, hpieces, hp⟩ := ht.pieces_eq_cons
  refine String.toList_inj.mp ?_
  simp only [aliasPieces, textOf, TypeExpr.parenthesized, hpieces, String.toList_append,
    String.toList_ofList, List.flatMap_cons, List.flatMap_append, flatMap_chars_spaced hp]
  rfl

theorem closed_aliasPieces (ht : t.Plain n) : Closed (aliasPieces t) := by
  obtain ⟨p, ps, hpieces, hp⟩ := ht.pieces_eq_cons
  have htype := ht.closed
  rw [hpieces] at htype
  have hrest : Closed (spaced (p :: ps) ++ [mark false ";"]) :=
    (htype.spaced hp).append (closed_nil.mark_cons rfl (fun _ ↦ rfl) fun _ ↦ rfl) (by simp)
  have hequals : Closed (mark true "=" :: (spaced (p :: ps) ++ [mark false ";"])) :=
    hrest.cons rfl (fun _ ↦ rfl) (fun _ ↦ rfl) (by simp [spaced, isBeside]) nofun
  rw [aliasPieces, hpieces]
  exact (hequals.word_cons (by decide +kernel) (by simp)).word_cons (by decide +kernel) (by simp)

theorem gives_declaredName {s : Cursor} {first : Token} {rest : List Token}
    (h : first.kind = .word) :
    Gives declaredName s (first :: rest) ⟨first.text, first.span⟩ rest :=
  (gives_expectKind h).bind (gives_pure _)

theorem gives_aliasDeclaration (ht : t.Plain n) (hn : n ≤ 31) {s : Cursor} (hs : s.depth = 0) :
    Gives (aliasDeclaration (within maxNesting)) s (tokensFrom 0 (aliasPieces t))
      ⟨⟨"X", ⟨5, 6⟩⟩, [], t⟩ [] := by
  obtain ⟨p, ps, hpieces, hp⟩ := ht.pieces_eq_cons
  have htype := isReadAt_of_plain ht maxNesting s (by simp only [maxNesting]; omega)
    (by simp only [maxNesting]; omega)
  rw [hpieces] at htype
  have hname : (word true "X").token ((word false "type").stop 0) =
      ⟨.word, "X", ⟨5, 6⟩, false⟩ := by
    decide +kernel
  simp only [aliasPieces, hpieces, tokensFrom_cons, tokensFrom_append]
  rw [hname, tokensFrom_spaced hp]
  refine gives_bump.bind ((gives_declaredName rfl).bind ?_)
  refine Gives.bind ((gives_eatMark_false rfl).bind (gives_pure _)) ((gives_expectMark rfl).bind ?_)
  refine (htype _ _ _ (isStop_token (rfl : stopMarks.contains ";" = true) _)).bind ?_
  exact (gives_eatMark rfl).discard.bind (gives_pure _)

theorem gives_declaration (ht : t.Plain n) (hn : n ≤ 31) {s : Cursor} (hs : s.depth = 0)
    (block : Parser (List Statement)) :
    Gives (declaration (within maxNesting) block false) s (tokensFrom 0 (aliasPieces t))
      (.aliasDecl ⟨⟨"X", ⟨5, 6⟩⟩, [], t⟩) [] := by
  have halias : Gives (aliasDeclaration (within maxNesting) >>= fun d ↦ pure (Decl.aliasDecl d)) s
      (tokensFrom 0 (aliasPieces t)) (.aliasDecl ⟨⟨"X", ⟨5, 6⟩⟩, [], t⟩) [] :=
    (gives_aliasDeclaration ht hn hs).bind (gives_pure _)
  refine gives_look_bind.mpr (gives_look_bind.mpr ?_)
  simp [aliasPieces, token, Token.isMark, Token.isMarkIn, -bind_pure_comp] at halias ⊢
  exact halias

theorem gives_modifiedDeclaration (ht : t.Plain n) (hn : n ≤ 31) {s : Cursor} (hs : s.depth = 0)
    (block : Parser (List Statement)) :
    Gives (modifiedDeclaration (within maxNesting) block) s (tokensFrom 0 (aliasPieces t))
      ([], .aliasDecl ⟨⟨"X", ⟨5, 6⟩⟩, [], t⟩) [] := by
  refine gives_atWord_bind.mpr ?_
  refine (gives_takeTokens_nil ?_).bind ((gives_declaration ht hn hs block).bind (gives_pure _))
  simp [statementModifier, token]

theorem statement_aliasPieces (ht : t.Plain n) (hn : n ≤ 31) (finish : Token)
    (block : Parser (List Statement)) :
    ∃ span last, statement (within maxNesting) block
        ⟨none, tokensFrom 0 (aliasPieces t), finish, 0, 0, false⟩ =
      .ok (⟨0, [], .aliasDecl ⟨⟨"X", ⟨5, 6⟩⟩, [], t⟩, span⟩,
        ⟨last, [], finish, 1, 0, false⟩) := by
  obtain ⟨last, hdecl⟩ := gives_modifiedDeclaration ht hn
    (s := ⟨none, tokensFrom 0 (aliasPieces t), finish, 1, 0, false⟩) rfl block none
  exact ⟨_, last, bind_eq_ok.mpr ⟨_, _, rfl, bind_eq_ok.mpr ⟨_, _, rfl,
    bind_eq_ok.mpr ⟨_, _, hdecl, rfl⟩⟩⟩⟩

/-- The declaration is the only statement. -/
theorem statements_aliasPieces (ht : t.Plain n) (hn : n ≤ 31) (finish : Token)
    (block : Parser (List Statement)) :
    ∃ span u, statements (within maxNesting) block false
        ⟨none, tokensFrom 0 (aliasPieces t), finish, 0, 0, false⟩ =
      .ok ([⟨0, [], .aliasDecl ⟨⟨"X", ⟨5, 6⟩⟩, [], t⟩, span⟩], u) := by
  obtain ⟨span, last, hstatement⟩ := statement_aliasPieces ht hn finish block
  have hround : statementsStep (within maxNesting) block false []
      ⟨none, tokensFrom 0 (aliasPieces t), finish, 0, 0, false⟩ =
      .ok (.again [⟨0, [], .aliasDecl ⟨⟨"X", ⟨5, 6⟩⟩, [], t⟩, span⟩],
        ⟨last, [], finish, 1, 0, false⟩) :=
    bind_eq_ok.mpr ⟨_, _, rfl, bind_eq_ok.mpr ⟨_, _, rfl, bind_eq_ok.mpr ⟨_, _, rfl,
      bind_eq_ok.mpr ⟨_, _, hstatement, rfl⟩⟩⟩⟩
  exact ⟨span, _, bind_eq_ok.mpr ⟨_, _, hround, rfl⟩⟩

end StatementGrammar

namespace SourceFile

/-- A plain type of height 31 at most is the type of the alias that is declared for what is printed
of it. -/
theorem ofSource_parenthesized {n : Nat} {t : TypeExpr} (ht : t.Plain n) (hn : n ≤ 31) :
    ∃ span, ofSource ("type X = " ++ t.parenthesized ++ ";") =
      .ok ⟨[⟨0, [], .aliasDecl ⟨⟨"X", ⟨5, 6⟩⟩, [], t⟩, span⟩], []⟩ := by
  have hclosed := StatementGrammar.closed_aliasPieces ht
  have hlexed := Lexed.ofSource_written hclosed.spelled hclosed.beside
  rw [StatementGrammar.textOf_aliasPieces ht] at hlexed
  obtain ⟨span, u, hstatements⟩ := StatementGrammar.statements_aliasPieces ht hn
    (Token.finish ("type X = " ++ t.parenthesized ++ ";").utf8ByteSize)
    (StatementGrammar.block maxNesting)
  exact ⟨span, except_bind_eq_ok.mpr ⟨_, mapError_eq_ok.mpr hlexed,
    except_bind_eq_ok.mpr ⟨_, mapError_eq_ok.mpr hstatements, rfl⟩⟩⟩

theorem ofSource_parenthesized_condition : ∃ t : TypeExpr,
    t = .conditional (.array (.keyword .any)) (.reference ["a", "b"] [.keyword .void])
      (.function false false ⟨[], [.required "x" (.literal (.string "y"))], some (.tuple [])⟩)
      (.union [.keyword .null, .operator .keyof (.keyword .object)]) ∧
    t.Plain 3 ∧ 3 ≤ 31 ∧
    t.parenthesized =
      "((any)[]) extends (a.b<(void)>) ? ((x: (\"y\")) => ([])) : ((null) | (keyof (object)))" ∧
    ∃ span, ofSource ("type X = " ++ t.parenthesized ++ ";") =
      .ok ⟨[⟨0, [], .aliasDecl ⟨⟨"X", ⟨5, 6⟩⟩, [], t⟩, span⟩], []⟩ := by
  have hname : TypeExpr.IsTypeName ["a", "b"] := ⟨by decide, by decide +kernel, by decide⟩
  have hreference := @TypeExpr.Plain.reference 1 _ [.keyword .void] hname
    (by simpa using .keyword .void)
  have hfunction := @TypeExpr.Plain.function 1 [("x", .literal (.string "y"))] (.tuple [])
    (by decide +kernel) (by simpa using .string (by decide +kernel))
    (@TypeExpr.Plain.tuple 0 [] nofun)
  have hunion := @TypeExpr.Plain.union 1 [.keyword .null, .operator .keyof (.keyword .object)]
    (by decide) (by simpa using ⟨.keyword .null, .keyof (.keyword .object)⟩)
  have hplain := TypeExpr.Plain.conditional (.array (.keyword .any)) hreference hfunction hunion
  exact ⟨_, rfl, hplain, by decide, by decide +kernel, ofSource_parenthesized hplain
    (by decide)⟩

end SourceFile

end PluginSurface
