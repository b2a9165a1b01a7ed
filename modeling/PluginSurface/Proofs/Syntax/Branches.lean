import PluginSurface.Proofs.Source.Printed
import PluginSurface.Proofs.Syntax.Runs

/-!
# Classes in branches

A statement that declares nothing is passed over as an expression, and with it a group in braces
that begins on its last line. So the classes in the block behind a condition are lost, while they
are kept where the block stands alone or on a line of its own.

Main statement: `SourceFile.classNames_branching`.
-/

namespace PluginSurface

open PluginSurface.Parser

def Decl.className? : Decl → Option String
  | .classDecl c => c.name.map Name.text
  | _ => none

namespace Statement

/-- The names of the classes that are declared by the statement and those inside it. -/
def classNames (s : Statement) : List String := s.subtree.filterMap fun t ↦ t.decl.className?

theorem classNames_eq (s : Statement) :
    s.classNames = s.decl.className?.toList ++ s.children.flatMap classNames := by
  unfold classNames
  rw [subtree_eq, List.filterMap_cons, List.filterMap_flatMap]
  cases s.decl.className? <;> rfl

end Statement

/-- The names of the classes in a declaration. -/
def Decl.classNames (d : Decl) : List String := Statement.classNames ⟨0, [], d, ⟨0, 0⟩⟩

theorem Statement.classNames_decl (s : Statement) : s.classNames = s.decl.classNames := by
  rw [Decl.classNames, classNames_eq, classNames_eq]
  rfl

theorem Decl.classNames_body (body : List Statement) :
    body.flatMap Statement.classNames = (body.map Statement.decl).flatMap Decl.classNames := by
  rw [List.flatMap_map]
  exact List.flatMap_congr fun s _ ↦ s.classNames_decl

/-! ## Empty classes -/

namespace StatementGrammar

open TypeGrammar Printed

/-- A name that a class may have. -/
def IsClassName (name : String) : Prop :=
  Text.isName name ∧ name ≠ "extends" ∧ name ≠ "implements"

/-- The pieces of a class without members. -/
def emptyClass (name : String) : List Printed :=
  [word " " "class", word " " name, mark " " "\x7b", mark "" "\x7d"]

variable {types : TypeGrammar} {block : Parser (List Statement)} {s : Cursor}
  {rest : List Token} {bad : Fault → Prop}

section

variable {t name brace close : Token} (hname : name.kind = .word)
  (hextends : name.isWord "extends" = false) (himplements : name.isWord "implements" = false)
  (hbrace : brace.isMark "\x7b") (hclose : close.isMark "\x7d")

include hname hextends himplements hbrace hclose

theorem gives_emptyClassDeclaration :
    Gives (classDeclaration types block) s (t :: name :: brace :: close :: rest)
      ⟨some ⟨name.text, name.span⟩, [], none, [], []⟩ rest := by
  have hangle : brace.isMark "<" = false := Token.isMark_of_ne hbrace (by decide)
  have hword (text : String) : brace.isWord text = false := by
    simp [Token.isWord, (Token.isMark_iff.mp hbrace).1]
  refine gives_bump.bind (gives_look_bind.mpr ?_)
  simp only [List.getD_cons_zero, hname, hextends, himplements, beq_self_eq_true, Bool.not_false,
    Bool.and_self, if_true]
  refine (gives_declaredName hname).bind ((gives_pure _).bind ?_)
  refine Gives.bind ((gives_eatMark_false hangle).bind (gives_pure [])) ?_
  have hheritage : Gives (heritage types) s (brace :: close :: rest) (none, [])
      (brace :: close :: rest) :=
    gives_rounds_done ((gives_eatWord_false (hword _)).bind
      ((gives_eatWord_false (hword _)).bind (gives_pure _)))
  refine hheritage.bind ?_
  refine Gives.bind ((gives_expectMark hbrace).bind (gives_rounds_done ?_)) (gives_pure _)
  exact (gives_eatMark hclose).bind (gives_pure _)

theorem gives_emptyClass (ht : t.isWord "class") :
    Gives (declaration types block false) s (t :: name :: brace :: close :: rest)
      (.classDecl ⟨some ⟨name.text, name.span⟩, [], none, [], []⟩) rest := by
  have hclass (t : Token) : Gives (classDeclaration types block) s
      (t :: name :: brace :: close :: rest) ⟨some ⟨name.text, name.span⟩, [], none,
        [], []⟩ rest :=
    gives_emptyClassDeclaration hname hextends himplements hbrace hclose
  obtain ⟨kind, text, span, newline⟩ := t
  obtain ⟨rfl, rfl⟩ : kind = .word ∧ text = "class" := by simpa [Token.isWord] using ht
  refine gives_look_bind.mpr (gives_look_bind.mpr ?_)
  simp [Token.isMark, -bind_pure_comp]
  exact (hclass _).bind (gives_pure _)

end

theorem runsBody_emptyClasses {names : List String} (hnames : ∀ name ∈ names, IsClassName name)
    {close : Token} (hclose : close.isMark "\x7d") (offset : Nat) :
    RunsBody types block true s
      (tokensFrom offset (names.flatMap emptyClass) ++ close :: rest)
      (fun ds more ↦ ds.flatMap Decl.classNames = names ∧ more = rest) bad := by
  induction names generalizing offset with
  | nil => exact runsBody_brace hclose ⟨rfl, rfl⟩
  | cons name names ih =>
      obtain ⟨⟨-, hextends, himplements⟩, hnames⟩ := List.forall_mem_cons.mp hnames
      have hmore := ih hnames (stopOf offset (emptyClass name))
      rw [List.flatMap_cons, tokensFrom_append, List.append_assoc]
      simp only [emptyClass, tokensFrom_cons, tokensFrom_nil, List.cons_append, List.nil_append]
      refine runsBody_cons rfl rfl rfl (by simp [statementModifier, token]) ?_
      refine Gives.runs (fun _ ↦ gives_emptyClass rfl ?_ ?_ rfl rfl rfl) ⟨?_, hmore.mono ?_⟩
      · simpa [token, Token.isWord] using hextends
      · simpa [token, Token.isWord] using himplements
      · simp only [List.length_cons]
        omega
      · rintro ds more ⟨hds, rfl⟩
        refine ⟨?_, rfl⟩
        rw [List.flatMap_cons, hds, Decl.classNames, Statement.classNames_eq]
        rfl

theorem nested_emptyClasses (names : List String) (offset : Nat) :
    Nested (tokensFrom offset (names.flatMap emptyClass)) := by
  induction names generalizing offset with
  | nil => rfl
  | cons name names ih =>
      rw [List.flatMap_cons, tokensFrom_append]
      exact openBehind_append_eq_some.mpr ⟨[], rfl, ih _⟩

theorem whole_emptyClass {name : String} (h : IsClassName name) : Whole (emptyClass name) := by
  have hbraces : Whole [mark " " "\x7b", mark "" "\x7d"] := ⟨by decide, by decide, by decide⟩
  exact (hbraces.cons (isSpelled_word " " rfl h.1) rfl).cons (by decide) rfl

theorem textOf_emptyClass (name : String) :
    textOf (emptyClass name) = " class " ++ name ++ " \x7b\x7d" := by
  refine String.toList_inj.mp ?_
  simp [textOf, emptyClass, chars]

/-! ## Statements -/

section

variable {t : Token} {good : Decl → List Token → Prop}

theorem runs_declaration_block (ht : t.isMark "\x7b")
    (h : Runs block s (t :: rest) (fun body ↦ good (.block body)) bad) :
    Runs (declaration types block false) s (t :: rest) good bad := by
  refine runs_look_bind.mpr (runs_look_bind.mpr ?_)
  simp only [List.getD_cons_zero, ht, if_true]
  exact runs_bind (h.mono fun body more hbody ↦ runs_pure hbody)

end

/-- The pieces of the classes in braces. -/
def bracedClasses (blanks : String) (names : List String) : List Printed :=
  mark blanks "\x7b" :: (names.flatMap emptyClass ++ [mark " " "\x7d"])

/-- The pieces of a condition on a name. -/
def condition : List Printed := [word " " "if", mark " " "(", word "" "c", mark "" ")"]

/-- The pieces of a function with the pieces in its body. -/
def plainFunction (inside : List Printed) : List Printed :=
  word "" "function" :: word " " "f" :: mark "" "(" :: mark "" ")" :: mark " " "\x7b" ::
    (inside ++ [mark " " "\x7d"])

theorem expressionEnd_condition (offset : Nat) : ∃ last : Token, last.isMark ")" ∧
    ∀ mid, expressionEnd [";"] true none none (tokensFrom offset condition ++ mid) =
      expressionEnd [";"] true none (some last) mid := by
  simp only [condition, tokensFrom_cons, tokensFrom_nil, List.cons_append, List.nil_append]
  have hname (offset : Nat) : Nested [(word "" "c").token offset] := rfl
  refine ⟨_, ?_, fun mid ↦ (expressionEnd_plain (Token.isPlain_of_word rfl) rfl rfl).trans
    (expressionEnd_group rfl rfl rfl rfl (hname _) rfl)⟩
  rfl

/-- The condition is passed over with what belongs to the expression behind it. -/
theorem runsBody_condition {good : List Decl → List Token → Prop} {next : Token}
    {mid more : List Token} (hend : ∀ last, last.isMark ")" → ∃ l : Token,
      expressionEnd [";"] true none (some last) mid = .ok (some l, next :: more))
    (hnext : next.isMark ";" = false) (hlength : (next :: more).length ≤ mid.length)
    (h : RunsBody types block true s (next :: more) (fun ds ↦ good (.other :: ds)) bad)
    (offset : Nat) :
    RunsBody types block true s (tokensFrom offset condition ++ mid) good bad := by
  obtain ⟨last, hlast, hcondition⟩ := expressionEnd_condition offset
  obtain ⟨l, hend⟩ := hend last hlast
  have hother (s : Cursor) : Gives (declaration types block false) s
      (tokensFrom offset condition ++ mid) .other (next :: more) := by
    have hpass := @gives_declaration_other types block s _ _ _ l next rfl
      (fun _ ↦ (by decide : "if" ∉ declarationWords)) ((hcondition mid).trans hend)
    rwa [hnext, if_neg Bool.false_ne_true] at hpass
  have hlength : (next :: more).length < (tokensFrom offset condition ++ mid).length := by
    simp only [condition, tokensFrom_cons, tokensFrom_nil, List.length_append, List.length_cons]
      at hlength ⊢
    omega
  exact runsBody_cons rfl rfl rfl (by simp [statementModifier, token])
    (Gives.runs (fun _ ↦ hother _) ⟨hlength, h⟩)

section

variable {names : List String} (hnames : ∀ name ∈ names, IsClassName name) {n : Nat}
  {close : Token} (hclose : close.isMark "\x7d") (hdepth : s.depth < maxNesting)

include hnames hclose hdepth

/-- The block alone is a statement that holds the classes. -/
theorem runsBody_block (blanks : String) (offset : Nat) :
    RunsBody (within (n + 1)) (StatementGrammar.block (n + 1)) true s
      (tokensFrom offset (bracedClasses blanks names) ++ close :: rest)
      (fun ds more ↦ ds.flatMap Decl.classNames = names ∧ more = rest) bad := by
  simp only [bracedClasses, tokensFrom_cons, tokensFrom_append, tokensFrom_nil, List.cons_append,
    List.append_assoc, List.nil_append]
  generalize stopOf _ _ = stop
  have hclasses : RunsBody (within n) (StatementGrammar.block n) true
      { s with depth := s.depth + 1 }
      (tokensFrom ((mark blanks "\x7b").stop offset) (names.flatMap emptyClass) ++
        (mark " " "\x7d").token stop :: close :: rest)
      (fun ds more ↦ ds.flatMap Decl.classNames = names ∧ more = close :: rest) bad :=
    runsBody_emptyClasses hnames rfl _
  refine runsBody_cons rfl rfl rfl (by simp [statementModifier, token])
    (runs_declaration_block rfl ((RunsBody.runs_blockRule rfl hdepth hclasses).mono ?_))
  rintro body _ ⟨hbody, rfl⟩
  refine ⟨by simp only [List.length_cons, List.length_append]; omega, runsBody_brace hclose
    ⟨?_, rfl⟩⟩
  rw [List.flatMap_singleton, Decl.classNames, Statement.classNames_eq]
  exact (Decl.classNames_body body).trans hbody

omit hnames hdepth in
/-- The block on the line of a condition is passed over with it. -/
theorem runsBody_sameLine (names : List String) (offset : Nat) :
    RunsBody types block true s
      (tokensFrom offset (condition ++ bracedClasses " " names) ++ close :: rest)
      (fun ds more ↦ ds.flatMap Decl.classNames = [] ∧ more = rest) bad := by
  rw [tokensFrom_append, List.append_assoc]
  have hcloser : close.isCloser := by rw [Token.isCloser_eq hclose]; rfl
  have hsemicolon : close.isMark ";" = false := Token.isMark_of_ne hclose (by decide)
  refine runsBody_condition (fun last _ ↦ ?_) hsemicolon ?_
    (runsBody_brace hclose ⟨rfl, rfl⟩) offset
  · simp only [bracedClasses, tokensFrom_cons, tokensFrom_append, tokensFrom_nil, List.cons_append,
      List.append_assoc, List.nil_append]
    refine ⟨_, (expressionEnd_group rfl rfl rfl ?_ (nested_emptyClasses _ _) rfl).trans
      (expressionEnd_stop ?_)⟩
    · simp [breaksExpression, token]
    · simp [hcloser]
  · simp

/-- The block on a line of its own is a statement behind that with the condition. -/
theorem runsBody_ownLine (offset : Nat) :
    RunsBody (within (n + 1)) (StatementGrammar.block (n + 1)) true s
      (tokensFrom offset (condition ++ bracedClasses "\n" names) ++ close :: rest)
      (fun ds more ↦ ds.flatMap Decl.classNames = names ∧ more = rest) bad := by
  rw [tokensFrom_append, List.append_assoc]
  refine runsBody_condition (fun last hlast ↦ ⟨last, expressionEnd_stop ?_⟩) rfl
    (Nat.le_refl _)
    ((runsBody_block hnames hclose hdepth "\n" (stopOf offset condition)).mono ?_) offset
  · have hends : last.isMarkIn trailingMarks = false := by
      rw [Token.isMarkIn_eq hlast]
      decide
    have hline (offset : Nat) :
        breaksExpression (some last) ((mark "\n" "\x7b").token offset) := by
      simp only [breaksExpression, hends]
      rfl
    exact Bool.or_eq_true_iff.mpr (.inr (hline _))
  · rintro ds more ⟨hds, rfl⟩
    exact ⟨hds, rfl⟩

end

/-! ## Texts -/

/-- The text of a function whose body holds the classes in braces behind `front`. -/
def branching (front : String) (names : List String) : String :=
  "function f() \x7b" ++ front ++ "\x7b" ++
    String.join (names.map fun name ↦ " class " ++ name ++ " \x7b\x7d") ++ " \x7d \x7d"

theorem textOf_branching (front : List Printed) (blanks : String) (names : List String) :
    textOf (plainFunction (front ++ bracedClasses blanks names)) =
      branching (textOf front ++ blanks) names := by
  have hclasses := textOf_flatMap emptyClass names
  simp only [textOf_emptyClass] at hclasses
  have hbranching : branching (textOf front ++ blanks) names =
      "function f() \x7b" ++ (textOf front ++ blanks) ++ "\x7b" ++
        textOf (names.flatMap emptyClass) ++ " \x7d \x7d" := by
    rw [hclasses]
    rfl
  rw [hbranching]
  refine String.toList_inj.mp ?_
  simp [textOf, plainFunction, bracedClasses, chars]

theorem whole_bracedClasses {names : List String} (hnames : ∀ name ∈ names, IsClassName name)
    (blanks : String) (hblanks : blanks.toList.all Text.isBlank) :
    Whole (bracedClasses blanks names) := by
  have hopen : Whole [mark blanks "\x7b"] := by
    refine ⟨List.forall_mem_singleton.mpr ?_, .singleton _, by simp⟩
    simp only [isSpelled, hblanks, Bool.true_and]
    decide
  have hclose : Whole [mark " " "\x7d"] := ⟨by decide, .singleton _, by decide⟩
  exact hopen.append ((whole_flatMap fun name h ↦ whole_emptyClass (hnames name h)).append hclose)

theorem whole_plainFunction {inside : List Printed} (h : Whole inside) :
    Whole (plainFunction inside) := by
  have hopen :
      Whole [word "" "function", word " " "f", mark "" "(", mark "" ")", mark " " "\x7b"] :=
    ⟨by decide, by decide, by decide⟩
  have hclose : Whole [mark " " "\x7d"] := ⟨by decide, .singleton _, by decide⟩
  exact hopen.append (h.append hclose)

end StatementGrammar

namespace SourceFile

open StatementGrammar TypeGrammar Printed

/-- The classes in a function are those in its body. -/
theorem ofSource_plainFunction {inside : List Printed} (hinside : Whole inside)
    {found : List String}
    (h : ∀ (s : Cursor) (close : Token) offset rest, s.depth < maxNesting →
      close.isMark "\x7d" → RunsBody (within 63) (StatementGrammar.block 63) true s
        (tokensFrom offset inside ++ close :: rest)
        (fun ds more ↦ ds.flatMap Decl.classNames = found ∧ more = rest) never) :
    ∃ f s, ofSource (textOf (plainFunction inside)) = .ok f ∧ f.statements = [s] ∧
      s.classNames = found := by
  have houter : 0 < maxNesting := by decide
  have hinner : 1 < maxNesting := by decide
  have hlexed := Lexed.ofSource_printed (whole_plainFunction hinside)
  generalize byteCount _ = size at hlexed
  have hruns : RunsBody (within maxNesting) (StatementGrammar.block maxNesting) false
      (.start ⟨tokensFrom 0 (plainFunction inside), [], size⟩)
        (tokensFrom 0 (plainFunction inside))
      (fun ds _ ↦ ∃ d, ds = [d] ∧ d.classNames = found) never := by
    simp only [plainFunction, tokensFrom_cons, tokensFrom_append, tokensFrom_nil]
    refine runsBody_function rfl rfl rfl (Gives.runs (a := [])
      (fun _ ↦ gives_rounds_done ((gives_eatMark rfl).bind (gives_pure _)))
        ⟨_, _, rfl, rfl, ?_⟩)
    change Runs (blockRule (within 63) (StatementGrammar.block 63)) _ _ _ _
    refine (RunsBody.runs_blockRule rfl houter (h _ _ _ [] hinner rfl)).mono ?_
    rintro body _ ⟨hbody, rfl⟩
    refine ⟨Nat.zero_le _, runsBody_end ⟨_, rfl, ?_⟩⟩
    rw [Decl.classNames, Statement.classNames_eq]
    exact (Decl.classNames_body body).trans hbody
  obtain ⟨f, -, hf, d, hd, hfound⟩ := exists_ofSource_eq_ok hlexed hruns
  obtain ⟨s, hs, rfl⟩ := List.map_eq_singleton_iff.mp hd
  exact ⟨f, s, hf, hs, s.classNames_decl.trans hfound⟩

/-- Of a function whose body holds classes in braces, the classes are lost where the braces open on
the line of a condition; they are kept where the block stands alone or on a line of its own. -/
theorem classNames_branching {names : List String} (hnames : ∀ name ∈ names, IsClassName name) :
    (∃ f s, ofSource (branching " if (c) " names) = .ok f ∧ f.statements = [s] ∧
      s.classNames = []) ∧
    (∃ f s, ofSource (branching " " names) = .ok f ∧ f.statements = [s] ∧
      s.classNames = names) ∧
    ∃ f s, ofSource (branching " if (c)\n" names) = .ok f ∧ f.statements = [s] ∧
      s.classNames = names := by
  have hcondition : Whole condition := ⟨by decide, by decide, by decide⟩
  have hblank := whole_bracedClasses hnames " " (by decide)
  have hline := whole_bracedClasses hnames "\n" (by decide)
  have hsame :=
    ofSource_plainFunction (hcondition.append hblank) fun s close offset rest _ hclose ↦
    runsBody_sameLine hclose names offset
  have halone := ofSource_plainFunction hblank fun s close offset rest hdepth hclose ↦
    runsBody_block (n := 62) hnames hclose hdepth " " offset
  have hown := ofSource_plainFunction (hcondition.append hline)
    fun s close offset rest hdepth hclose ↦ runsBody_ownLine (n := 62) hnames hclose hdepth offset
  rw [textOf_branching] at hsame hown
  exact ⟨hsame, textOf_branching [] " " names ▸ halone, hown⟩

theorem classNames_branching_two :
    (∃ f s,
      ofSource "function f() \x7b if (c) \x7b class A \x7b\x7d class B \x7b\x7d \x7d \x7d" =
        .ok f ∧
      f.statements = [s] ∧ s.classNames = []) ∧
    ∃ f s,
      ofSource "function f() \x7b \x7b class A \x7b\x7d class B \x7b\x7d \x7d \x7d" = .ok f ∧
      f.statements = [s] ∧ s.classNames = ["A", "B"] := by
  have hnames : ∀ name ∈ ["A", "B"], IsClassName name := by
    intro name hname
    refine ⟨?_, ?_⟩
    · revert name
      decide
    · revert name
      decide
  have htwo := classNames_branching hnames
  exact ⟨htwo.1, htwo.2.1⟩

end SourceFile

end PluginSurface
