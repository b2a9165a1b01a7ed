import PluginSurface.Proofs.Source.Printed
import PluginSurface.Proofs.Syntax.Runs

/-!
# Initializers with type arguments

An initializer is passed over up to a comma outside of brackets, and angle brackets are no brackets
there. So the type arguments of a class that is instantiated, from the second one on, are read as
further variables or as further parameters, of which the last one does not end as it should.

Main statement: `SourceFile.ofSource_instantiation`.
-/

namespace PluginSurface

open PluginSurface.Parser

namespace StatementGrammar

open TypeGrammar Printed

/-- The pieces of further names in a list. -/
def moreNames (names : List String) : List Printed :=
  names.flatMap fun name ↦ [mark "" ",", word " " name]

@[simp] theorem moreNames_cons (name : String) (names : List String) :
    moreNames (name :: names) = mark "" "," :: word " " name :: moreNames names := rfl

/-- The pieces of an instantiation up to its first type argument. -/
def instantiationFront (cls first : String) : List Printed :=
  [word " " "new", word " " cls, mark "" "<", word "" first]

/-- The pieces of an instantiation behind its last type argument. -/
def instantiationEnd : List Printed := [mark "" ">", mark "" "(", mark "" ")"]

/-- The pieces of an instantiation of a class with type arguments. -/
def instantiation (cls first : String) (more : List String) : List Printed :=
  instantiationFront cls first ++ (moreNames more ++ instantiationEnd)

/-! ## Expressions -/

section

variable (stops : List String) (lines : Bool) (hstops : stops.contains "<" = false)
  (cls first : String)

include hstops

theorem expressionEnd_instantiationFront (offset : Nat) : ∃ last : Token,
    ∀ rest, expressionEnd stops lines none none
        (tokensFrom offset (instantiationFront cls first) ++ rest) =
      expressionEnd stops lines none (some last) rest := by
  have hline {last : Option Token} {t : Token} (ht : t.newlineBefore = false) :
      (lines && breaksExpression last t) = false := by
    cases last <;> simp [breaksExpression, ht]
  have hword {last : Option Token} {t : Token} {rest : List Token} (ht : t.kind = .word)
      (hnewline : t.newlineBefore = false) : expressionEnd stops lines none last (t :: rest) =
        expressionEnd stops lines none (some t) rest := by
    have hmark : t.isMarkIn stops = false := by simp [Token.isMarkIn, ht]
    exact expressionEnd_plain (Token.isPlain_of_word ht) hmark (hline hnewline)
  simp only [instantiationFront, tokensFrom_cons, tokensFrom_nil, List.cons_append, List.nil_append]
  refine ⟨_, fun rest ↦ (hword rfl rfl).trans ((hword rfl rfl).trans
    ((expressionEnd_plain ⟨rfl, rfl⟩ ?_ (hline rfl)).trans (hword rfl rfl)))⟩
  simpa [Token.isMarkIn, token] using hstops

/-- With one type argument the instantiation is passed over as a whole. -/
theorem expressionEnd_single (hangle : stops.contains ">" = false)
    (hparen : stops.contains "(" = false) (offset : Nat) (next : Token)
    (hnext : next.isMarkIn stops || next.isCloser) (rest : List Token) :
    ∃ last : Token, expressionEnd stops lines none none
        (tokensFrom offset (instantiation cls first []) ++ next :: rest) =
      .ok (some last, next :: rest) := by
  obtain ⟨last, hfront⟩ := expressionEnd_instantiationFront stops lines hstops cls first offset
  rw [instantiation, tokensFrom_append, List.append_assoc, hfront]
  have hline (t u : Token) (hu : u.newlineBefore = false) :
      (lines && breaksExpression (some t) u) = false := by simp [breaksExpression, hu]
  refine ⟨_, (expressionEnd_plain ⟨rfl, rfl⟩ ?_ (hline _ _ rfl)).trans
    ((expressionEnd_group rfl rfl ?_ (hline _ _ rfl) (show Nested [] from rfl) rfl).trans
      (expressionEnd_stop ?_))⟩
  · simpa [Token.isMarkIn, token] using hangle
  · simpa [Token.isMarkIn, token] using hparen
  · rw [hnext, Bool.true_or]

/-- With several type arguments the expression ends behind the first one. -/
theorem expressionEnd_several (hcomma : stops.contains ",") (offset : Nat) (second : String)
    (more : List String) (rest : List Token) : ∃ last : Token, ∃ behind,
    expressionEnd stops lines none none
        (tokensFrom offset (instantiation cls first (second :: more)) ++ rest) =
      .ok (some last, tokensFrom behind (moreNames (second :: more)) ++
        (tokensFrom (stopOf behind (moreNames (second :: more))) instantiationEnd ++ rest)) := by
  obtain ⟨last, hfront⟩ := expressionEnd_instantiationFront stops lines hstops cls first offset
  refine ⟨last, stopOf offset (instantiationFront cls first), ?_⟩
  rw [instantiation, tokensFrom_append, List.append_assoc, hfront, tokensFrom_append,
    List.append_assoc]
  refine expressionEnd_stop ?_
  have hstop (offset : Nat) : ((mark "" ",").token offset).isMarkIn stops := by
    simpa [Token.isMarkIn, token] using hcomma
  rw [hstop, Bool.true_or, Bool.true_or]

end

/-! ## Lists of names -/

/-- Behind a name stands another one or the end of the list. -/
theorem exists_behindName {close : Token} (hclose : close.isMark ">") (names : List String)
    (offset : Nat) (rest : List Token) : ∃ next more,
    tokensFrom offset (moreNames names) ++ close :: rest = next :: more ∧
      next.isMarkIn [",", ">"] := by
  cases names with
  | nil =>
      refine ⟨close, rest, rfl, ?_⟩
      rw [Token.isMarkIn_eq hclose]
      decide
  | cons name names => exact ⟨_, _, rfl, rfl⟩

/-- Behind a name, the token `next` begins an initializer, which is passed over up to the tokens
`more`, or it ends an item without one. -/
def Initialized (stops : List String) (lines : Bool) (next : Token) (rest more : List Token) :
    Prop :=
  (next.isMark "=" ∧ ∃ last, expressionEnd stops lines none none rest = .ok (last, more)) ∨
    next.isMarkIn [",", ">"] ∧ more = next :: rest

section

variable {stops : List String} {lines : Bool} {name next : Token} {rest more : List Token}

theorem Initialized.kind (h : Initialized stops lines next rest more) : next.kind = .mark := by
  rcases h with ⟨h, -⟩ | ⟨h, -⟩
  · exact (Token.isMark_iff.mp h).1
  · exact (Token.isMarkIn_iff.mp h).1

theorem Initialized.isMark (h : Initialized stops lines next rest more) {text : String}
    (htext : ["=", ",", ">"].contains text = false) : next.isMark text = false := by
  simp only [List.contains_cons, Bool.or_eq_false_iff, beq_eq_false_iff_ne] at htext
  rcases h with ⟨h, -⟩ | ⟨h, -⟩
  · exact Token.isMark_of_ne h htext.1.symm
  · exact Token.isMark_of_isMarkIn h (by simpa using htext.2)

variable {types : TypeGrammar} {type : Parser TypeExpr} {s : Cursor} (hname : name.kind = .word)

include hname

theorem gives_declarator (h : Initialized [",", ";"] true next rest more) :
    Gives (declarator types) s (name :: next :: rest) ⟨some ⟨name.text, name.span⟩,
      none⟩ more := by
  have hbracket : name.isMarkIn ["\x7b", "["] = false := by simp [Token.isMarkIn, hname]
  refine gives_look_bind.mpr ?_
  simp only [List.getD_cons_zero, hbracket, Bool.false_eq_true, if_false]
  refine (gives_declaredName hname).bind ((gives_pure _).bind ?_)
  refine (gives_eatMark_false (h.isMark rfl)).bind ?_
  refine Gives.bind ((gives_eatMark_false (h.isMark rfl)).bind (gives_pure none)) ?_
  rcases h with ⟨hequals, last, h⟩ | ⟨hnext, rfl⟩
  · exact (gives_eatMark hequals).bind ((gives_skipExpression h).bind (gives_pure _))
  · exact (gives_eatMark_false (Token.isMark_of_isMarkIn hnext rfl)).bind (gives_pure _)

theorem gives_param (h : Initialized [","] false next rest more) (place : Nat) :
    Gives (param type place) s (name :: next :: rest) ⟨name.text, [], false, false,
      none⟩ more := by
  have hmark := Token.isMark_of_word hname
  have hmodifier : paramModifier name next = false := by
    have hbrace : next.isMark "\x7b" = false := h.isMark rfl
    have hbracket : next.isMark "[" = false := h.isMark rfl
    simp [paramModifier, h.kind, hbrace, hbracket]
  refine (gives_takeTokens_nil hmodifier).bind ((gives_eatMark_false (hmark _)).bind ?_)
  refine gives_atMark_bind.mpr (gives_atMark_bind.mpr ?_)
  simp only [hmark, Bool.or_self, Bool.false_eq_true, if_false]
  refine (gives_expectWordText hname).bind ((gives_eatMark_false (h.isMark rfl)).bind ?_)
  refine Gives.bind ((gives_eatMark_false (h.isMark rfl)).bind (gives_pure none)) ?_
  rcases h with ⟨hequals, last, h⟩ | ⟨hnext, rfl⟩
  · exact (gives_eatMark hequals).bind ((gives_skipExpression h).bind (gives_pure _))
  · exact (gives_eatMark_false (Token.isMark_of_isMarkIn hnext rfl)).bind (gives_pure _)

end

section

variable {close : Token}

/-- Further names are read as declarators. -/
theorem gives_declarators (types : TypeGrammar) (hclose : close.isMark ">") (names : List String)
    (offset : Nat) (rest : List Token) (found : List Declarator) : ∃ ds : List Declarator,
    ds.map (fun d ↦ d.name.map Name.text) = names.map some ∧
      ∀ s, Gives (rounds (separatedStep "," (declarator types)) found) s
        (tokensFrom offset (moreNames names) ++ close :: rest) (found.reverse ++ ds)
        (close :: rest) := by
  induction names generalizing offset found with
  | nil =>
      have hcomma : close.isMark "," = false := Token.isMark_of_ne hclose (by decide)
      refine ⟨[], rfl, fun s ↦ gives_rounds_done ((gives_eatMark_false hcomma).bind ?_)⟩
      rw [List.append_nil]
      exact gives_pure _
  | cons name names ih =>
      let comma := mark "" ","
      let piece := word " " name
      let t := piece.token (comma.stop offset)
      let d : Declarator := ⟨some ⟨t.text, t.span⟩, none⟩
      obtain ⟨ds, hds, hmore⟩ := ih (piece.stop (comma.stop offset)) (d :: found)
      obtain ⟨next, more, hnames, hnext⟩ :=
        exists_behindName hclose names (piece.stop (comma.stop offset)) rest
      refine ⟨d :: ds, by rw [List.map_cons, hds]; rfl, fun s ↦ ?_⟩
      have hstep : Gives (separatedStep "," (declarator types) found) s
          (comma.token offset :: t :: next :: more) (.again (d :: found)) (next :: more) :=
        (gives_eatMark rfl).bind ((gives_declarator rfl (.inr ⟨hnext, rfl⟩)).bind
          (gives_pure _))
      have hmore := hmore s
      rw [List.reverse_cons, List.append_assoc] at hmore
      rw [← hnames] at hstep
      refine gives_rounds_again hstep ?_ hmore
      change _ < (comma.token offset :: t ::
        (tokensFrom _ (moreNames names) ++ close :: rest)).length
      simp only [List.length_cons, piece, comma]
      omega

/-- Further names are read as parameters, and the mark behind the last one is refused. -/
theorem repeats_params {type : Parser TypeExpr} {s : Cursor} {rest : List Token}
    (hclose : close.isMark ">") (name : String) (names : List String) (offset : Nat)
    (found : List Param) {good : List Param → List Token → Prop} :
    Repeats (listStep ")" (param type)) found s
      (tokensFrom offset (word " " name :: moreNames names) ++ close :: rest) good
      (· = .expected (.mark ")") (some ">")) := by
  induction names generalizing name offset found with
  | nil =>
      have hcomma : close.isMark "," = false := Token.isMark_of_ne hclose (by decide)
      have hparen : close.isMark ")" = false := Token.isMark_of_ne hclose (by decide)
      have hnext : close.isMarkIn [",", ">"] := by
        rw [Token.isMarkIn_eq hclose]
        decide
      refine repeats_of_step (Gives.runs_bind (fun _ ↦ gives_eatMark_false rfl) ?_)
      refine Gives.runs_bind (fun _ ↦ gives_param rfl (.inr ⟨hnext, rfl⟩) _) ?_
      refine Gives.runs_bind (fun _ ↦ gives_eatMark_false hcomma) (runs_bind ?_)
      refine runs_expectMark_error hparen ?_
      obtain ⟨hkind, htext⟩ := Token.isMark_iff.mp hclose
      simp [hkind, htext]
  | cons second names ih =>
      simp only [moreNames_cons, tokensFrom_cons, List.cons_append] at ih ⊢
      refine repeats_again (fun _ ↦ (gives_eatMark_false rfl).bind
        ((gives_param rfl (.inr ⟨rfl, rfl⟩) _).bind
          ((gives_eatMark rfl).bind (gives_pure _)))) ?_
        (ih second _ _)
      simp only [List.length_cons, List.length_append]
      omega

end

/-! ## Statements -/

/-- The pieces of a constant with the pieces of its initializer. -/
def constant (initializer : List Printed) : List Printed :=
  word "" "const" :: word " " "x" :: mark " " "=" :: (initializer ++ [mark "" ";"])

/-- The pieces of a function with the pieces of the initializer of its parameter. -/
def defaulted (initializer : List Printed) : List Printed :=
  word "" "function" :: word " " "f" :: mark "" "(" :: word "" "p" :: mark " " "=" ::
    (initializer ++ [mark "" ")", mark " " "\x7b", mark "" "\x7d"])

section

variable {types : TypeGrammar} {block : Parser (List Statement)} {s : Cursor} {bad : Fault → Prop}

theorem gives_declaration_const {t next : Token} {rest more : List Token} {ds : List Declarator}
    (ht : t.isWord "const")
    (h : Gives (separated "," (declarator types)) s rest ds (next :: more)) :
    Gives (declaration types block false) s (t :: rest) (.variable .const ds)
      (if next.isMark ";" then more else next :: more) := by
  have hend : Gives terminator s (next :: more) ()
      (if next.isMark ";" then more else next :: more) := by
    cases hnext : next.isMark ";" with
    | false => exact (gives_eatMark_false hnext).discard
    | true => exact (gives_eatMark hnext).discard
  have hstatement : Gives (variableStatement types) s (t :: rest) (.variable .const ds)
      (if next.isMark ";" then more else next :: more) := by
    have hword : t.text = "const" := by
      simp only [Token.isWord, Bool.and_eq_true, beq_iff_eq] at ht
      exact ht.2
    refine gives_bump.bind ?_
    simp only [hword]
    exact h.bind (hend.bind (gives_pure _))
  obtain ⟨kind, text, span, newline⟩ := t
  obtain ⟨rfl, rfl⟩ : kind = .word ∧ text = "const" := by simpa [Token.isWord] using ht
  refine gives_look_bind.mpr (gives_look_bind.mpr ?_)
  simpa [Token.isMark, -bind_pure_comp] using hstatement

/-- With one type argument the constant is all that is declared. -/
theorem runsBody_constant_single (cls first : String) (offset : Nat) :
    RunsBody types block false s (tokensFrom offset (constant (instantiation cls first [])))
      (fun ds _ ↦ ∃ d, ds = [.variable .const [d]] ∧ d.name.map Name.text =
        some "x") bad := by
  simp only [constant, tokensFrom_cons, tokensFrom_append, tokensFrom_nil]
  generalize (mark " " "=").stop _ = behind
  generalize stopOf behind _ = stop
  obtain ⟨last, hend⟩ := expressionEnd_single [",", ";"] true rfl cls first rfl rfl behind
    ((mark "" ";").token stop) rfl []
  refine runsBody_cons rfl rfl rfl (by simp [statementModifier, token, Token.isWord])
    (Gives.runs (fun _ ↦ gives_declaration_const rfl
      ((gives_declarator rfl (.inl ⟨rfl, _, hend⟩)).bind
        (gives_rounds_done ((gives_eatMark_false rfl).bind (gives_pure _)))))
      ⟨Nat.succ_pos _, runsBody_end ⟨_, rfl, rfl⟩⟩)

/-- What is left of the instantiation behind its type arguments is a statement of its own. -/
theorem runsBody_instantiationEnd (offset stop : Nat) :
    RunsBody types block false s (tokensFrom offset instantiationEnd ++ [(mark "" ";").token stop])
      (fun ds _ ↦ ds = [.other]) bad := by
  obtain ⟨last, hend⟩ : ∃ last, expressionEnd [";"] true none none
      (tokensFrom offset instantiationEnd ++ [(mark "" ";").token stop]) =
        .ok (some last, [(mark "" ";").token stop]) :=
    ⟨_, (expressionEnd_plain ⟨rfl, rfl⟩ rfl rfl).trans
      ((expressionEnd_group rfl rfl rfl rfl (show Nested [] from rfl) rfl).trans
        (expressionEnd_stop rfl))⟩
  refine runsBody_cons rfl rfl rfl (by simp [statementModifier, token])
    (Gives.runs (fun _ ↦ gives_declaration_other rfl nofun hend)
      ⟨Nat.succ_pos _, runsBody_end rfl⟩)

/-- With several type arguments all but the first one are declared, and a statement that declares
nothing is left. -/
theorem runsBody_constant_several (cls first second : String) (more : List String) (offset : Nat) :
    RunsBody types block false s
      (tokensFrom offset (constant (instantiation cls first (second :: more))))
      (fun ds _ ↦ ∃ found, ds = [.variable .const found, .other] ∧
        found.map (fun d ↦ d.name.map Name.text) = ("x" :: second :: more).map some) bad := by
  simp only [constant, tokensFrom_cons, tokensFrom_append, tokensFrom_nil]
  generalize (word " " "x").stop _ = place
  generalize stopOf _ _ = stop
  obtain ⟨last, behind, hend⟩ := expressionEnd_several [",", ";"] true rfl cls first rfl
    ((mark " " "=").stop place) second more [(mark "" ";").token stop]
  let x := (word " " "x").token ((word "" "const").stop offset)
  obtain ⟨ds, hds, hdeclared⟩ := gives_declarators types
    (show ((mark "" ">").token _).isMark ">" from rfl) (second :: more) behind _
    [⟨some ⟨x.text, x.span⟩, none⟩]
  refine runsBody_cons rfl rfl rfl (by simp [statementModifier, token, Token.isWord])
    (Gives.runs (fun _ ↦ gives_declaration_const rfl
      ((gives_declarator rfl (.inl ⟨rfl, _, hend⟩)).bind (hdeclared _))) ⟨?_, ?_⟩)
  · have hfew : instantiationEnd.length < (instantiation cls first (second :: more)).length := by
      simp [instantiation, instantiationFront]
      omega
    change (tokensFrom _ instantiationEnd ++ [_]).length < _
    simp only [List.length_cons, List.length_append, length_tokensFrom]
    omega
  · refine (runsBody_instantiationEnd _ stop).mono ?_
    rintro _ _ rfl
    exact ⟨_, rfl, by
      rw [List.reverse_singleton, List.singleton_append, List.map_cons, hds]
      rfl⟩

/-- With one type argument the parameter is the only one. -/
theorem runsBody_defaulted_single (types' : TypeGrammar) (block' : Parser (List Statement))
    (hdepth : s.depth < maxNesting) (cls first : String) (offset : Nat) :
    RunsBody types (blockRule types' block') false s
      (tokensFrom offset (defaulted (instantiation cls first [])))
      (fun ds _ ↦ ∃ name,
        ds = [.function (some name) ⟨[], [⟨"p", [], false, false, none⟩], none⟩
          (some [])]) bad := by
  simp only [defaulted, tokensFrom_cons, tokensFrom_append, tokensFrom_nil]
  generalize (word "" "p").stop _ = place
  generalize stopOf _ _ = stop
  obtain ⟨last, hend⟩ := expressionEnd_single [","] false rfl cls first rfl rfl
    ((mark " " "=").stop place) ((mark "" ")").token stop) rfl
    (tokensFrom ((mark "" ")").stop stop) [mark " " "\x7b", mark "" "\x7d"])
  refine runsBody_function rfl rfl rfl (Gives.runs (fun _ ↦ gives_rounds_done
    ((gives_eatMark_false rfl).bind ((gives_param rfl (.inl ⟨rfl, _, hend⟩) _).bind
      ((gives_eatMark_false rfl).bind ((gives_expectMark rfl).bind (gives_pure _))))))
    ⟨_, _, rfl, rfl, ?_⟩)
  have hempty (close : Token) (hclose : close.isMark "\x7d") : RunsBody types' block' true
      { s with depth := s.depth + 1 } [close] (fun ds more ↦ ds = [] ∧ more = []) bad :=
    runsBody_brace hclose ⟨rfl, rfl⟩
  refine (RunsBody.runs_blockRule rfl hdepth (hempty _ rfl)).mono ?_
  rintro body _ ⟨hbody, rfl⟩
  obtain rfl := List.map_eq_nil_iff.mp hbody
  exact ⟨Nat.zero_le _, runsBody_end ⟨_, rfl⟩⟩

/-- With several type arguments the list of parameters is refused. -/
theorem runsBody_defaulted_several (cls first second : String) (more : List String) (offset : Nat)
    {good : List Decl → List Token → Prop} :
    RunsBody types block false s
      (tokensFrom offset (defaulted (instantiation cls first (second :: more)))) good
      (· = .expected (.mark ")") (some ">")) := by
  simp only [defaulted, tokensFrom_cons, tokensFrom_append, tokensFrom_nil]
  generalize (word "" "p").stop _ = place
  generalize stopOf _ _ = stop
  obtain ⟨last, behind, hend⟩ := expressionEnd_several [","] false rfl cls first rfl
    ((mark " " "=").stop place) second more
    (tokensFrom stop [mark "" ")", mark " " "\x7b", mark "" "\x7d"])
  refine runsBody_function rfl rfl rfl (Repeats.runs (repeats_again (fun _ ↦
    (gives_eatMark_false rfl).bind ((gives_param rfl (.inl ⟨rfl, _, hend⟩) _).bind
      ((gives_eatMark rfl).bind (gives_pure _)))) ?_ (repeats_params rfl second more _ _)))
  have hfew : (moreNames (second :: more) ++ instantiationEnd).length <
      (instantiation cls first (second :: more)).length := by
    simp [instantiation, instantiationFront]
  rw [List.length_append] at hfew
  change (tokensFrom _ (word " " second :: moreNames more) ++
    (tokensFrom _ instantiationEnd ++ _)).length < _
  simp only [List.length_cons, List.length_append, length_tokensFrom, moreNames_cons] at hfew ⊢
  omega

end

/-! ## Texts -/

/-- The text of an instantiation of a class with the type argument `first` and more of them. -/
def instantiationText (cls first : String) (more : List String) : String :=
  "new " ++ cls ++ "<" ++ first ++ String.join (more.map (", " ++ ·)) ++ ">()"

theorem textOf_instantiation (cls first : String) (more : List String) :
    textOf (instantiation cls first more) = " " ++ instantiationText cls first more := by
  have hname (name : String) : textOf [mark "" ",", word " " name] = ", " ++ name := by
    refine String.toList_inj.mp ?_
    simp [textOf, chars]
  have hmore : textOf (moreNames more) = String.join (more.map (", " ++ ·)) := by
    simp only [moreNames, textOf_flatMap, hname]
  rw [instantiation, textOf_append, textOf_append, hmore]
  refine String.toList_inj.mp ?_
  simp [instantiationText, instantiationFront, instantiationEnd, textOf, chars]

section

variable {cls first : String} {more : List String} (hcls : Text.isName cls)
  (hfirst : Text.isName first) (hmore : ∀ name ∈ more, Text.isName name)

include hfirst hmore in
theorem whole_typeArguments (blanks : String) (hblanks : blanks.toList.all Text.isBlank) :
    Whole (word blanks first :: (moreNames more ++ instantiationEnd)) := by
  induction more generalizing first blanks with
  | nil =>
      have hend : Whole instantiationEnd := ⟨by decide, by decide, by decide⟩
      exact hend.cons (isSpelled_word blanks hblanks hfirst) (by simp [isBeside])
  | cons second more ih =>
      obtain ⟨hsecond, hmore⟩ := List.forall_mem_cons.mp hmore
      have hcomma := (ih hsecond hmore " " rfl).cons (p := mark "" ",") (by decide) rfl
      exact hcomma.cons (isSpelled_word blanks hblanks hfirst) (by simp [isBeside])

include hcls hfirst hmore

theorem whole_equals : Whole (mark " " "=" :: instantiation cls first more) := by
  have hnew : Text.isName "new" := by decide
  have hangle := (whole_typeArguments hfirst hmore "" rfl).cons
    (p := mark "" "<") (by decide) rfl
  have hinstantiation := (hangle.cons (isSpelled_word " " rfl hcls) rfl).cons
    (isSpelled_word " " rfl hnew) rfl
  exact hinstantiation.cons (by decide) rfl

theorem whole_constant : Whole (constant (instantiation cls first more)) := by
  have hsemicolon : Whole [mark "" ";"] := ⟨by decide, by decide, by decide⟩
  have hequals := (whole_equals hcls hfirst hmore).append hsemicolon
  exact (hequals.cons (p := word " " "x") (by decide) rfl).cons (p := word "" "const")
    (by decide) rfl

theorem whole_defaulted : Whole (defaulted (instantiation cls first more)) := by
  have hopen : Whole [word "" "function", word " " "f", mark "" "("] :=
    ⟨by decide, by decide, by decide⟩
  have hclose : Whole [mark "" ")", mark " " "\x7b", mark "" "\x7d"] :=
    ⟨by decide, by decide, by decide⟩
  have hequals := (whole_equals hcls hfirst hmore).append hclose
  exact hopen.append (hequals.cons (p := word "" "p") (by decide) rfl)

end

theorem textOf_constant (cls first : String) (more : List String) :
    textOf (constant (instantiation cls first more)) =
      "const x = " ++ instantiationText cls first more ++ ";" := by
  have hpieces : constant (instantiation cls first more) =
      [word "" "const", word " " "x", mark " " "="] ++
        (instantiation cls first more ++ [mark "" ";"]) := rfl
  rw [hpieces, textOf_append, textOf_append, textOf_instantiation]
  refine String.toList_inj.mp ?_
  simp [textOf, chars]

theorem textOf_defaulted (cls first : String) (more : List String) :
    textOf (defaulted (instantiation cls first more)) =
      "function f(p = " ++ instantiationText cls first more ++ ") \x7b\x7d" := by
  have hpieces : defaulted (instantiation cls first more) =
      [word "" "function", word " " "f", mark "" "(", word "" "p", mark " " "="] ++
        (instantiation cls first more ++ [mark "" ")", mark " " "\x7b", mark "" "\x7d"]) := rfl
  rw [hpieces, textOf_append, textOf_append, textOf_instantiation]
  refine String.toList_inj.mp ?_
  simp [textOf, chars]

end StatementGrammar

namespace SourceFile

open StatementGrammar TypeGrammar Printed

/-- Where a class is instantiated with one type argument, the instantiation is passed over as a
whole. The type arguments behind the first one are declared with the constant that is initialized;
in a list of parameters they are refused. -/
theorem ofSource_instantiation {cls first : String} {more : List String} (hcls : Text.isName cls)
    (hfirst : Text.isName first) (hmore : ∀ name ∈ more, Text.isName name) :
    (∃ f ds, ofSource ("const x = " ++ instantiationText cls first more ++ ";") = .ok f ∧
      f.statements.map Statement.decl =
        .variable .const ds :: (if more = [] then [] else [.other]) ∧
      ds.map (fun d ↦ d.name.map Name.text) = ("x" :: more).map some) ∧
    (more = [] → ∃ f name,
      ofSource ("function f(p = " ++ instantiationText cls first more ++ ") \x7b\x7d") = .ok f ∧
      f.statements.map Statement.decl =
        [.function (some name) ⟨[], [⟨"p", [], false, false, none⟩], none⟩ (some [])]) ∧
    (more ≠ [] → ∃ span,
      ofSource ("function f(p = " ++ instantiationText cls first more ++ ") \x7b\x7d") =
        .error ⟨.expected (.mark ")") (some ">"), span⟩) := by
  have hconstant := Lexed.ofSource_printed (whole_constant hcls hfirst hmore)
  have hdefaulted := Lexed.ofSource_printed (whole_defaulted hcls hfirst hmore)
  rw [textOf_constant] at hconstant
  rw [textOf_defaulted] at hdefaulted
  cases more with
  | nil =>
      refine ⟨?_, fun _ ↦ ?_, fun h ↦ absurd rfl h⟩
      · obtain ⟨f, -, hf, d, hd, hname⟩ :=
          exists_ofSource_eq_ok hconstant (runsBody_constant_single cls first 0)
        exact ⟨f, [d], hf, hd, by rw [List.map_singleton, hname]; rfl⟩
      · obtain ⟨f, -, hf, name, hname⟩ := exists_ofSource_eq_ok hdefaulted
          (runsBody_defaulted_single (within 63) (StatementGrammar.block 63)
            (by decide : 0 < maxNesting) cls first 0)
        exact ⟨f, name, hf, hname⟩
  | cons second more =>
      refine ⟨?_, nofun, fun _ ↦ ?_⟩
      · obtain ⟨f, -, hf, ds, hds, hnames⟩ :=
          exists_ofSource_eq_ok hconstant (runsBody_constant_several cls first second more 0)
        exact ⟨f, ds, hf, hds, hnames⟩
      · obtain ⟨⟨_, span⟩, he, rfl⟩ :=
          exists_ofSource_eq_error hdefaulted (runsBody_defaulted_several cls first second more 0)
        exact ⟨span, he⟩

theorem ofSource_instantiation_two :
    (∃ f ds, ofSource "const x = new C<A, B>();" = .ok f ∧
      f.statements.map Statement.decl = [.variable .const ds, .other] ∧
      ds.map (fun d ↦ d.name.map Name.text) = [some "x", some "B"]) ∧
    ∃ span, ofSource "function f(p = new C<A, B>()) \x7b\x7d" =
      .error ⟨.expected (.mark ")") (some ">"), span⟩ := by
  have hnames : ∀ name ∈ ["B"], Text.isName name := by decide
  have htwo := @ofSource_instantiation "C" "A" ["B"] (by decide) (by decide) hnames
  exact ⟨htwo.1, htwo.2.2 nofun⟩

end SourceFile

end PluginSurface
