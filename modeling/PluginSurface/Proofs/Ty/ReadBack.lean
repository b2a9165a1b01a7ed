import PluginSurface.Proofs.Ty.Everywhere
import PluginSurface.Proofs.Ty.Reading

/-!
# What the text of a type tells

The text of an elementary type is read back as the hoisted type, by induction over the type with
one case for each kind. So the text tells two such types apart unless they differ in nothing but
where readonly marks stand in nested arrays.

Main statements: `Ty.render_eq_iff_hoisted` and `Ty.eq_of_render_eq`.
-/

namespace PluginSurface.Ty

open Text

/-! ## Functions -/

def itemOfParam (p : ParamTy) : TupleItem := ⟨some p.name, p.optional, p.rest, p.type⟩

theorem render_itemOfParam (p : ParamTy) : (itemOfParam p).render = p.render := by
  obtain ⟨name, optional, rest, type⟩ := p
  simp only [itemOfParam, TupleItem.render, ParamTy.render, String.append_assoc]

theorem renderParamTys_eq_items (ps : List ParamTy) :
    renderParamTys ps = (ps.map itemOfParam).map TupleItem.render := by
  rw [renderParamTys_eq_map, List.map_map]
  exact List.map_congr_left fun p _ ↦ (render_itemOfParam p).symm

/-- The text of a function behind its words. -/
theorem toList_render_function (f : FunctionTy) (cs : List Char) :
    f.render.toList ++ cs = (if f.isAbstract then "abstract " else "").toList ++
      ((if f.isConstructor then "new " else "").toList ++
        ((angled f.typeParams).toList ++ ("(".toList ++
          ((", ".intercalate (renderParamTys f.params)).toList ++
            (")".toList ++ (" => ".toList ++ (f.result.render.toList ++ cs))))))) := by
  obtain ⟨isConstructor, isAbstract, typeParams, params, result⟩ := f
  rw [FunctionTy.render, show ") => " = ")" ++ " => " from rfl]
  simp only [String.toList_append, List.append_assoc]

/-- What a function is behind its words: type parameters or a parenthesis. -/
theorem angled_paren_cases (texts : List String) (cs : List Char) :
    (∃ more, (angled texts).toList ++ ("(".toList ++ cs) = '<' :: more) ∨
      (angled texts).toList ++ ("(".toList ++ cs) = '(' :: cs := by
  cases texts with
  | nil => exact Or.inr rfl
  | cons text texts =>
      refine Or.inl ⟨(", ".intercalate (text :: texts)).toList ++
        (">".toList ++ ("(".toList ++ cs)), ?_⟩
      simp [angled]

theorem startsItem_space (word : List Char) {cs : List Char} (hne : word ≠ [])
    (hword : word.all isNamePart) : startsItem (word ++ ' ' :: cs) = false := by
  refine startsItem_word hne (List.all_eq_true.mp hword) (fun c hc ↦ ?_) rfl
  rw [← Option.some.inj hc]
  decide

theorem startsItem_function (f : FunctionTy) (cs : List Char) :
    startsItem (f.render.toList ++ cs) = false := by
  rw [toList_render_function]
  cases f.isAbstract with
  | true => exact startsItem_space "abstract".toList (by decide) (by decide)
  | false =>
      cases f.isConstructor with
      | true => exact startsItem_space "new".toList (by decide) (by decide)
      | false =>
          simp only [Bool.false_eq_true, if_false, String.toList_empty, List.nil_append]
          rcases angled_paren_cases f.typeParams _ with ⟨more, hmore⟩ | hmore
          · rw [hmore]
            exact startsItem_cons (by decide) (by decide)
          · rw [hmore]
            exact startsItem_cons (by decide) (by decide)

theorem startsFunction_word (word : String) (h : word ∈ ["<", "abstract ", "new "])
    (cs : List Char) : startsFunction (word.toList ++ cs) = true := by
  simp only [List.mem_cons, List.not_mem_nil, or_false] at h
  rcases h with rfl | rfl | rfl <;>
    (rw [startsFunction, eat_append]
     simp only [Option.isSome_some, Bool.true_or, Bool.or_true])

theorem startsItem_params {ps : List ParamTy} (hnames : ∀ p ∈ ps, isName p.name)
    (cs : List Char) :
    startsItem ((", ".intercalate (renderParamTys ps)).toList ++ (")".toList ++ cs)) = true := by
  cases ps with
  | nil =>
      rw [renderParamTys, String.intercalate_nil, String.toList_empty, List.nil_append, startsItem,
        eat_append]
      rfl
  | cons p ps =>
      have hname := hnames p List.mem_cons_self
      rw [renderParamTys, intercalate_cons]
      obtain ⟨name, optional, rest, type⟩ := p
      cases rest with
      | true =>
          simp only [ParamTy.render, if_true, String.toList_append, List.append_assoc]
          rw [startsItem, eat_append]
          simp only [Option.isSome_some, Bool.true_or, Bool.or_true]
      | false =>
          simp only [ParamTy.render, Bool.false_eq_true, if_false, String.empty_append,
            String.toList_append, List.append_assoc]
          rw [startsItem, readLabel_append hname, Option.isSome_some, Bool.or_true]

theorem startsFunction_function {f : FunctionTy} (hnames : ∀ p ∈ f.params, isName p.name)
    (cs : List Char) : startsFunction (f.render.toList ++ cs) = true := by
  rw [toList_render_function]
  cases f.isAbstract with
  | true => exact startsFunction_word _ (by decide) _
  | false =>
      simp only [Bool.false_eq_true, if_false, String.toList_empty, List.nil_append]
      cases f.isConstructor with
      | true => exact startsFunction_word _ (by decide) _
      | false =>
          simp only [Bool.false_eq_true, if_false, String.toList_empty, List.nil_append]
          rcases angled_paren_cases f.typeParams _ with ⟨more, hmore⟩ | hmore
          · rw [hmore]
            exact startsFunction_word "<" (by decide) more
          · rw [hmore, startsFunction_paren]
            exact startsItem_params hnames _

/-- A function is read back. -/
theorem reads_readFunction {f : FunctionTy} (htypeParams : ∀ text ∈ f.typeParams, isClosed text)
    (hnames : ∀ p ∈ f.params, isName p.name) (hparams : ∀ p ∈ f.params, Readable p.type)
    (hresult : Readable f.result) :
    Reads readFunction f.render (function f).hoisted afterType := by
  intro cs hcs
  have hnew (more : List Char) : eatMark "new " ((if f.isConstructor then "new " else "").toList ++
      ((angled f.typeParams).toList ++ ("(".toList ++ more))) =
        (f.isConstructor, (angled f.typeParams).toList ++ ("(".toList ++ more)) := by
    refine eatMark_append f.isConstructor ?_
    rcases angled_paren_cases f.typeParams more with ⟨rest, hrest⟩ | hrest <;> (rw [hrest]; rfl)
  have habstract (more : List Char) : eatMark "abstract "
      ((if f.isAbstract then "abstract " else "").toList ++
        ((if f.isConstructor then "new " else "").toList ++
          ((angled f.typeParams).toList ++ ("(".toList ++ more)))) =
        (f.isAbstract, (if f.isConstructor then "new " else "").toList ++
          ((angled f.typeParams).toList ++ ("(".toList ++ more))) := by
    refine eatMark_append f.isAbstract ?_
    cases f.isConstructor with
    | true => rfl
    | false =>
        simp only [Bool.false_eq_true, if_false, String.toList_empty, List.nil_append]
        rcases angled_paren_cases f.typeParams more with ⟨rest, hrest⟩ | hrest <;>
          (rw [hrest]; rfl)
  have htypeParams' (more : List Char) :
      readTypeParams ((angled f.typeParams).toList ++ ("(".toList ++ more)) =
        some (f.typeParams, "(".toList ++ more) :=
    reads_readTypeParams htypeParams _ (follows_append "(" (by decide) more)
  have hitems (more : List Char) :
      readItems ")" ((", ".intercalate (renderParamTys f.params)).toList ++ (")".toList ++ more)) =
        some ((f.params.map itemOfParam).map hoistedItem, more) := by
    rw [renderParamTys_eq_items]
    exact readItems_append ")" (by decide) (by simpa [itemOfParam] using hnames)
      (by simpa [itemOfParam] using hparams) more
  rw [toList_render_function, readFunction, functionBy]
  simp only [habstract, hnew, htypeParams', eat_append, hitems, hresult.type cs hcs,
    Option.bind_eq_bind, Option.bind_some, Option.pure_def, hoisted_function, List.map_map]
  rfl

/-! ## Every elementary type is read back -/

variable {t : Ty}

theorem startsItem_parenthesized (text : String) (cs : List Char) :
    startsItem (("(" ++ text ++ ")").toList ++ cs) = false := by
  rw [String.toList_append, String.toList_append, List.append_assoc, List.append_assoc]
  exact startsItem_cons (c := '(') (by decide) (by decide)

theorem Readable.notItem_operand (h : Readable t) {cs : List Char} (hcs : Follows afterPrimary cs) :
    startsItem (t.renderOperand.toList ++ cs) = false := by
  rw [renderOperand]
  cases t.needsParens with
  | true => exact startsItem_parenthesized _ cs
  | false => exact h.notItem cs hcs

theorem Readable.notItem_alternative (h : Readable t) {cs : List Char}
    (hcs : Follows afterPrimary cs) : startsItem (t.renderAlternative.toList ++ cs) = false := by
  rw [renderAlternative]
  cases t.isFunctionLike with
  | true => exact startsItem_parenthesized _ cs
  | false => exact h.notItem cs hcs

theorem startsFunction_parenthesized {text : String} {cs : List Char}
    (h : startsItem (text.toList ++ (")".toList ++ cs)) = false) :
    startsFunction (("(" ++ text ++ ")").toList ++ cs) = false := by
  rw [String.toList_append, String.toList_append, List.append_assoc, List.append_assoc]
  exact (startsFunction_paren _).trans h

theorem follows_close (cs : List Char) : Follows afterPrimary (")".toList ++ cs) :=
  follows_append _ (by decide) cs

theorem Readable.notFunction_operand (h : Readable t) {cs : List Char}
    (hcs : Follows afterPrimary cs) : startsFunction (t.renderOperand.toList ++ cs) = false := by
  cases hparens : t.needsParens with
  | true =>
      rw [renderOperand, hparens]
      exact startsFunction_parenthesized (h.notItem _ (follows_close cs))
  | false =>
      have hlike : t.isFunctionLike = false := by
        cases t <;> simp_all [needsParens]
      have htext := h.notFunction cs hcs
      rw [renderAlternative, hlike] at htext
      rw [renderOperand, hparens]
      exact htext

/-- A type that is written without parentheses everywhere is known by how it reads as an operand. -/
theorem Readable.of_operand (hparens : t.needsParens = false)
    (notItem : ∀ cs, Follows afterPrimary cs → startsItem (t.render.toList ++ cs) = false)
    (notFunction : ∀ cs, Follows afterPrimary cs →
      startsFunction (t.render.toList ++ cs) = false)
    (operand : ∀ n, Reads readOperand (t.renderOperand ++ bracketText n)
      (markOuter^[t.marks] (arrays n t.bare)) Joint.intersection.afterPart) : Readable t := by
  have halternative : t.renderAlternative = t.render := by
    have hlike : t.isFunctionLike = false := by
      cases t <;> simp_all [needsParens]
    rw [renderAlternative, hlike]
    rfl
  have hpart : Reads (readPart .union) t.renderAlternative t.hoisted Joint.union.afterPart := by
    have hzero : Reads readOperand t.render t.hoisted Joint.intersection.afterPart := by
      have hread := operand 0
      rwa [bracketText, String.append_empty, renderOperand_of_not_needsParens hparens] at hread
    intro cs hcs
    rw [halternative, readPart, partBy]
    refine reads_single .intersection (fun more hmore ↦ ?_) cs hcs
    rw [readPart, partBy]
    exact hzero more hmore
  refine ⟨notItem, by rwa [halternative], operand, fun _ ↦ hpart, fun cs hcs ↦ ?_⟩
  rw [readType_eq, typeBy, notFunction cs (follows_afterType hcs)]
  have hread := reads_single .union hpart cs hcs
  rwa [halternative] at hread

/-- A type that is written in parentheses as an operand is known by how it reads alone. -/
theorem operand_of_type (hparens : t.needsParens = true)
    (type : Reads readType t.render t.hoisted afterType) (n : Nat) :
    Reads readOperand (t.renderOperand ++ bracketText n)
      (markOuter^[t.marks] (arrays n t.bare)) Joint.intersection.afterPart := by
  have hmarks : t.marks = 0 := by
    cases t <;> simp_all [needsParens, isFunctionLike, marks]
  have hhoisted : t.hoisted = t.bare := by rw [hoisted, hmarks]; rfl
  rw [renderOperand, hparens, hmarks, ← hhoisted]
  exact reads_brackets (reads_parenthesized type) (fun cs _ ↦ by
    rw [String.toList_append, String.toList_append, List.append_assoc, List.append_assoc]
    exact eat_cons (c := '(') (d := 'r') rfl (by decide)) n

/-- A type that is written as one word or number. -/
theorem readable_word {word : String} (hrender : t.render = word) (hparens : t.needsParens = false)
    (hbare : t.bare = t) (hmarks : t.marks = 0) (hof : ofWord word = t) (hne : word.toList ≠ [])
    (hword : ∀ c ∈ word.toList, isWordPart c)
    (notItem : ∀ cs, Follows afterPrimary cs → startsItem (word.toList ++ cs) = false)
    (notFunction : ∀ cs, startsFunction (word.toList ++ cs) = false)
    (notReadonly : ∀ cs, eat "readonly " (word.toList ++ cs) = none) : Readable t := by
  subst hrender
  refine .of_operand hparens notItem (fun cs _ ↦ notFunction cs) fun n ↦ ?_
  rw [renderOperand_of_not_needsParens hparens, hbare, hmarks]
  refine reads_brackets (fun cs hcs ↦ ?_) (fun cs _ ↦ notReadonly cs) n
  rw [readPrimary_word hne hword (isWordPart_of_follows hcs), String.ofList_toList, hof]

theorem startsItem_name {word : List Char} (hne : word ≠ [])
    (hword : ∀ c ∈ word, isNamePart c)
    {cs : List Char} (hcs : Follows afterPrimary cs) : startsItem (word ++ cs) = false := by
  refine startsItem_word hne hword (fun c hc ↦ ?_) (eat_colon_of_follows hcs)
  exact (Bool.or_eq_false_iff.mp (isWordPart_of_follows hcs c hc)).1

theorem readable_primitive (p : Primitive) : Readable (.primitive p) := by
  have hparts : ∀ c ∈ p.word.toList, isNamePart c :=
    List.all_eq_true.mp (by cases p <;> decide)
  have hne : p.word.toList ≠ [] := by
    cases p <;> decide
  refine readable_word rfl rfl rfl rfl (ofWord_word p) hne (fun c hc ↦ ?_)
    (fun cs hcs ↦ startsItem_name hne hparts hcs) (fun cs ↦ ?_) (fun cs ↦ ?_)
  · rw [isWordPart, hparts c hc, Bool.true_or]
  · cases p <;> rfl
  · cases p <;> rfl

theorem readable_boolean (b : Bool) : Readable (.literal (.boolean b)) := by
  have hparts : ∀ c ∈ (Literal.boolean b).render.toList, isNamePart c :=
    List.all_eq_true.mp (by cases b <;> decide)
  have hne : (Literal.boolean b).render.toList ≠ [] := by
    cases b <;> decide
  refine readable_word rfl rfl rfl rfl (by cases b <;> rfl) hne (fun c hc ↦ ?_)
    (fun cs hcs ↦ startsItem_name hne hparts hcs) (fun cs ↦ ?_) (fun cs ↦ ?_)
  · rw [isWordPart, hparts c hc, Bool.true_or]
  · cases b <;> rfl
  · cases b <;> rfl

theorem readable_number {text : String} (h : isSigned text.toList) {value : Literal}
    (hvalue : Literal.ofNumber text = value) (hrender : value.render = text) :
    Readable (.literal value) := by
  obtain ⟨c, rest, hlist, hparts, hc⟩ := isSigned_cases h
  have hne : ∀ d : Char, d.isDigit = false → d ≠ '-' → d ≠ '.' → c ≠ d := by
    rintro d hdigit hminus hpoint rfl
    rcases hc with hc | rfl | ⟨rfl, -⟩
    · rw [hdigit] at hc
      cases hc
    · exact hminus rfl
    · exact hpoint rfl
  have hstart : isNameStart c = false := by
    rcases hc with hc | rfl | ⟨rfl, -⟩
    · exact isNameStart_of_isDigit hc
    · decide
    · decide
  have hdots (cs : List Char) : eat "..." (c :: rest ++ cs) = none := by
    rcases hc with hc | rfl | ⟨rfl, hrest⟩
    · refine eat_cons (d := '.') rfl ?_
      rintro rfl
      cases hc
    · exact eat_cons (d := '.') rfl (by decide)
    · cases rest with
      | nil => cases hrest
      | cons d rest =>
          have hd : d ≠ '.' := by
            rintro rfl
            cases hrest
          change eat ".." (d :: rest ++ cs) = none
          exact eat_cons (d := '.') rfl hd
  refine readable_word hrender rfl rfl rfl (by rw [ofWord_number h, hvalue]) ?_ ?_ ?_ ?_ ?_
  · rw [hlist]
    exact List.cons_ne_nil c rest
  · intro d hd
    rw [isWordPart, hparts d hd, Bool.or_true]
  · intro cs _
    rw [hlist]
    refine startsItem_eq_false_iff.mpr ⟨?_, ?_, hdots cs, ?_⟩
    · exact eat_cons (d := ')') rfl (hne _ rfl (by decide) (by decide))
    · exact eat_cons (d := ']') rfl (hne _ rfl (by decide) (by decide))
    · exact readLabel_cons_eq_none hstart (rest ++ cs)
  · intro cs
    rw [hlist]
    refine startsFunction_cons ?_
    simp only [List.mem_cons, List.not_mem_nil, or_false, not_or]
    exact ⟨hne _ rfl (by decide) (by decide), hne _ rfl (by decide) (by decide),
      hne _ rfl (by decide) (by decide), hne _ rfl (by decide) (by decide)⟩
  · intro cs
    rw [hlist]
    exact eat_cons (d := 'r') rfl (hne _ rfl (by decide) (by decide))

theorem readable_string (value : String) : Readable (.literal (.string value)) := by
  have hlist (cs : List Char) : (quote value).toList ++ cs =
      '"' :: (value.toList.flatMap escapeChar ++ '"' :: cs) := by
    simp [quote]
  have hrender : (Ty.literal (.string value)).renderOperand = quote value := rfl
  refine .of_operand rfl (fun cs _ ↦ ?_) (fun cs _ ↦ ?_) fun n ↦ ?_
  · exact (congrArg startsItem (hlist cs)).trans (startsItem_cons (by decide) (by decide))
  · exact (congrArg startsFunction (hlist cs)).trans (startsFunction_cons (by decide))
  · rw [hrender]
    refine reads_brackets (fun cs _ ↦ ?_) (fun cs _ ↦ ?_) n
    · rw [hlist, readPrimary, primaryBy, readQuoted_flatMap]
      simp only [Option.bind_eq_bind, Option.bind_some, String.ofList_toList, Option.pure_def]
      rfl
    · rw [hlist]
      exact eat_cons (d := 'r') rfl (by decide)

theorem readable_literal {value : Literal} (h : value.isSpelled) : Readable (.literal value) := by
  cases value with
  | string value => exact readable_string value
  | number text =>
      obtain ⟨hsigned, hvalue⟩ := Bool.and_eq_true_iff.mp h
      exact readable_number hsigned (beq_iff_eq.mp hvalue) rfl
  | bigint text =>
      obtain ⟨hsigned, hvalue⟩ := Bool.and_eq_true_iff.mp h
      exact readable_number hsigned (beq_iff_eq.mp hvalue) rfl
  | boolean b => exact readable_boolean b

theorem readable_array {readonly : Bool} (h : Readable t) : Readable (.array t readonly) := by
  have hrender (cs : List Char) : (array t readonly).render.toList ++ cs =
      (if readonly then "readonly " else "").toList ++
        (t.renderOperand.toList ++ ("[]".toList ++ cs)) := by
    rw [render, ← renderOperand]
    simp only [String.toList_append, List.append_assoc]
  have hfollow (cs : List Char) : Follows afterPrimary ("[]".toList ++ cs) :=
    follows_append _ List.mem_cons_self cs
  refine .of_operand rfl (fun cs _ ↦ ?_) (fun cs _ ↦ ?_) fun n ↦ ?_
  · rw [hrender]
    cases readonly with
    | true => exact startsItem_space "readonly".toList (by decide) (by decide)
    | false => exact h.notItem_operand (hfollow cs)
  · rw [hrender]
    cases readonly with
    | true => exact startsFunction_cons (c := 'r') (by decide)
    | false => exact h.notFunction_operand (hfollow cs)
  · -- the marks in front are those of the array and of its element, the brackets one more
    have hread := reads_marks (h.operand (n + 1)) readonly.toNat
    rw [renderOperand_array, String.append_assoc, String.append_assoc, ← bracketText, marks,
      Function.iterate_add_apply]
    exact hread

theorem readable_tuple {items : List TupleItem} {readonly : Bool}
    (hlabels : ∀ i ∈ items, ∀ label ∈ i.label, isName label)
    (h : ∀ i ∈ items, Readable i.type) : Readable (.tuple items readonly) := by
  have hrender (cs : List Char) : (tuple items readonly).render.toList ++ cs =
      (if readonly then "readonly " else "").toList ++
        ('[' :: ((", ".intercalate (renderItems items)).toList ++ ("]".toList ++ cs))) := by
    simp [render]
  refine .of_operand rfl (fun cs _ ↦ ?_) (fun cs _ ↦ ?_) fun n ↦ ?_
  · rw [hrender]
    cases readonly with
    | true => exact startsItem_space "readonly".toList (by decide) (by decide)
    | false => exact startsItem_cons (c := '[') (by decide) (by decide)
  · rw [hrender]
    cases readonly with
    | true => exact startsFunction_cons (c := 'r') (by decide)
    | false => exact startsFunction_cons (c := '[') (by decide)
  · have hprimary : Reads readPrimary ("[" ++ ", ".intercalate (renderItems items) ++ "]")
        (tuple items readonly).bare afterPrimary := by
      intro cs _
      rw [String.toList_append, String.toList_append, List.append_assoc, List.append_assoc]
      change readPrimary
        ('[' :: ((", ".intercalate (renderItems items)).toList ++ ("]".toList ++ cs))) = _
      rw [readPrimary, primaryBy, renderItems_eq_map, readItems_append "]" (by decide) hlabels h,
        bare_tuple]
      rfl
    have hread := reads_marks (reads_brackets hprimary (fun cs _ ↦ by
      rw [String.toList_append, String.toList_append, List.append_assoc, List.append_assoc]
      exact eat_cons (c := '[') (d := 'r') rfl (by decide)) n) readonly.toNat
    rw [renderOperand_tuple, marks]
    simpa only [String.append_assoc] using hread

theorem readable_function {f : FunctionTy} (htypeParams : ∀ text ∈ f.typeParams, isClosed text)
    (hnames : ∀ p ∈ f.params, isName p.name) (hparams : ∀ p ∈ f.params, Readable p.type)
    (hresult : Readable f.result) : Readable (.function f) := by
  have hrender : (function f).render = f.render := rfl
  have htype : Reads readType (function f).render (function f).hoisted afterType := by
    intro cs hcs
    rw [readType_eq, typeBy, hrender, startsFunction_function hnames, if_pos rfl]
    exact reads_readFunction htypeParams hnames hparams hresult cs hcs
  have hoperand := operand_of_type rfl htype
  refine ⟨fun cs _ ↦ startsItem_function f cs, fun cs _ ↦ ?_, hoperand,
    fun _ cs hcs ↦ ?_, htype⟩
  · exact startsFunction_parenthesized (startsItem_function f _)
  · rw [readPart, partBy]
    refine reads_single .intersection (fun more hmore ↦ ?_) cs hcs
    rw [readPart, partBy]
    have hzero := hoperand 0 more hmore
    rwa [bracketText, String.append_empty] at hzero

/-- The text of a union or intersection of several parts begins with that of its first part, and a
sign follows. -/
theorem intercalate_sign (joint : Joint) (texts : List String) (h : 2 ≤ texts.length)
    (cs : List Char) : ∃ text ∈ texts, ∃ more, (joint.sign.intercalate texts).toList ++ cs =
      text.toList ++ more ∧ Follows afterPrimary more := by
  match texts, h with
  | text :: next :: texts, _ =>
    refine ⟨text, List.mem_cons_self,
      joint.sign.toList ++ ((joint.sign.intercalate (next :: texts)).toList ++ cs), ?_,
      Joint.follows_afterPrimary (follows_append _ List.mem_cons_self _)⟩
    rw [String.intercalate_cons_cons, String.toList_append, String.toList_append,
      List.append_assoc, List.append_assoc]

theorem Joint.join_union {ts : List Ty} (hseveral : 2 ≤ ts.length) :
    Joint.union.join ts = .union ts := by
  rcases ts with _ | ⟨t, _ | ⟨u, ts⟩⟩
  · cases hseveral
  · simp at hseveral
  · rfl

theorem Joint.join_intersection {ts : List Ty} (hseveral : 2 ≤ ts.length) :
    Joint.intersection.join ts = .intersection ts := by
  rcases ts with _ | ⟨t, _ | ⟨u, ts⟩⟩
  · cases hseveral
  · simp at hseveral
  · rfl

theorem readable_union {ts : List Ty} (hseveral : 2 ≤ ts.length)
    (hflat : ∀ t ∈ ts, t.isUnion = false) (h : ∀ t ∈ ts, Readable t) :
    Readable (.union ts) := by
  have hrender : (union ts).render = " | ".intercalate (ts.map renderAlternative) := by
    rw [render, renderUnion_eq_map]
  have hfirst (cs : List Char) : ∃ t ∈ ts, ∃ more, (union ts).render.toList ++ cs =
      t.renderAlternative.toList ++ more ∧ Follows afterPrimary more := by
    obtain ⟨text, htext, more, hmore, hfollow⟩ := intercalate_sign .union
      (ts.map renderAlternative) (by rwa [List.length_map]) cs
    obtain ⟨t, ht, rfl⟩ := List.mem_map.mp htext
    exact ⟨t, ht, more, by rw [hrender]; exact hmore, hfollow⟩
  have notItem (cs : List Char) : startsItem ((union ts).render.toList ++ cs) = false := by
    obtain ⟨t, ht, more, hmore, hfollow⟩ := hfirst cs
    rw [hmore]
    exact (h t ht).notItem_alternative hfollow
  have notFunction (cs : List Char) : startsFunction ((union ts).render.toList ++ cs) = false := by
    obtain ⟨t, ht, more, hmore, hfollow⟩ := hfirst cs
    rw [hmore]
    exact (h t ht).notFunction more hfollow
  have htype : Reads readType (union ts).render (union ts).hoisted afterType := by
    intro cs hcs
    have hjoin : Joint.union.join (ts.map hoisted) = (union ts).hoisted := by
      rw [hoisted_union, Joint.join_union (by rwa [List.length_map])]
    rw [readType_eq, typeBy, notFunction, hrender, ← hjoin]
    exact reads_joined .union (List.ne_nil_of_length_pos (by omega)) (fun t ht ↦
      (h t ht).part (hflat t ht)) cs hcs
  exact ⟨fun cs _ ↦ notItem cs, fun cs _ ↦ notFunction cs, operand_of_type rfl htype,
    fun hunion ↦ Bool.noConfusion hunion, htype⟩

theorem readable_intersection {ts : List Ty} (hseveral : 2 ≤ ts.length)
    (h : ∀ t ∈ ts, Readable t) : Readable (.intersection ts) := by
  have hrender : (intersection ts).render = " & ".intercalate (ts.map renderOperand) := by
    rw [render, renderOperands_eq_map]
  have hfirst (cs : List Char) : ∃ t ∈ ts, ∃ more, (intersection ts).render.toList ++ cs =
      t.renderOperand.toList ++ more ∧ Follows afterPrimary more := by
    obtain ⟨text, htext, more, hmore, hfollow⟩ := intercalate_sign .intersection
      (ts.map renderOperand) (by rwa [List.length_map]) cs
    obtain ⟨t, ht, rfl⟩ := List.mem_map.mp htext
    exact ⟨t, ht, more, by rw [hrender]; exact hmore, hfollow⟩
  have notItem (cs : List Char) : startsItem ((intersection ts).render.toList ++ cs) = false := by
    obtain ⟨t, ht, more, hmore, hfollow⟩ := hfirst cs
    rw [hmore]
    exact (h t ht).notItem_operand hfollow
  have notFunction (cs : List Char) :
      startsFunction ((intersection ts).render.toList ++ cs) = false := by
    obtain ⟨t, ht, more, hmore, hfollow⟩ := hfirst cs
    rw [hmore]
    exact (h t ht).notFunction_operand hfollow
  have hpart : Reads (readPart .union) (intersection ts).render (intersection ts).hoisted
      Joint.union.afterPart := by
    intro cs hcs
    have hjoin : Joint.intersection.join (ts.map hoisted) = (intersection ts).hoisted := by
      rw [hoisted_intersection, Joint.join_intersection (by rwa [List.length_map])]
    rw [readPart, partBy, hrender, ← hjoin]
    refine reads_joined .intersection (List.ne_nil_of_length_pos (by omega))
      (fun t ht more hmore ↦ ?_) cs hcs
    have hzero := (h t ht).operand 0 more hmore
    rw [readPart, partBy]
    rwa [bracketText, String.append_empty] at hzero
  have htype : Reads readType (intersection ts).render (intersection ts).hoisted afterType := by
    intro cs hcs
    rw [readType_eq, typeBy, notFunction]
    exact reads_single .union hpart cs hcs
  exact ⟨fun cs _ ↦ notItem cs, fun cs _ ↦ notFunction cs, operand_of_type rfl htype,
    fun _ ↦ hpart, htype⟩

theorem Elementary.readable (h : t.Elementary) : Readable t := by
  induction h with
  | primitive p => exact readable_primitive p
  | literal spelled => exact readable_literal spelled
  | array _ ih => exact readable_array ih
  | tuple labels _ ih => exact readable_tuple labels ih
  | function typeParams names _ _ ihparams ihresult =>
      exact readable_function typeParams names ihparams ihresult
  | union several flat _ ih => exact readable_union several flat ih
  | intersection several _ _ ih => exact readable_intersection several ih

/-- The text of an elementary type is read back as the hoisted type. -/
theorem readType_render (h : t.Elementary) : readType t.render.toList = some (t.hoisted, []) := by
  have hread := h.readable.type [] (Or.inl rfl)
  rwa [List.append_nil] at hread

/-! ## Types without a readonly element -/

/-- In a type in which no element of an array is readonly, the marks stand where hoisting puts
them. -/
theorem hoisted_eq_self (h : t.Elementary)
    (hmarks : t.Everywhere fun u ↦ ∀ e b, u = .array e b → e.marks = 0) : t.hoisted = t := by
  induction h with
  | primitive p => rfl
  | literal _ => rfl
  | @array e b _ ih =>
      cases hmarks with
      | array here element =>
          have hzero := here e b rfl
          have hbare : e.bare = e := by
            have hself := ih element
            rwa [hoisted, hzero] at hself
          rw [hoisted, marks, hzero, bare, hbare]
          cases b <;> rfl
  | @tuple items b _ _ ih =>
      cases hmarks with
      | tuple _ elements =>
          have hitems : (items.map fun i ↦ { i with type := i.type.hoisted }) = items := by
            refine (List.map_congr_left fun i hi ↦ ?_).trans (List.map_id items)
            rw [ih i hi (elements i hi)]
            cases i
            rfl
          rw [hoisted, marks, bare_tuple, hitems]
          cases b <;> rfl
  | @function f _ _ _ _ ihparams ihresult =>
      cases hmarks with
      | function _ params result =>
          have hparams : (f.params.map fun p ↦ { p with type := p.type.hoisted }) = f.params := by
            refine (List.map_congr_left fun p hp ↦ ?_).trans (List.map_id f.params)
            rw [ihparams p hp (params p hp)]
            cases p
            rfl
          rw [hoisted_function, hparams, ihresult result]
          cases f
          rfl
  | @union ts _ _ _ ih =>
      cases hmarks with
      | union _ members =>
          rw [hoisted_union]
          exact congrArg _ ((List.map_congr_left fun t ht ↦ ih t ht (members t ht)).trans
            (List.map_id ts))
  | @intersection ts _ _ _ ih =>
      cases hmarks with
      | intersection _ members =>
          rw [hoisted_intersection]
          exact congrArg _ ((List.map_congr_left fun t ht ↦ ih t ht (members t ht)).trans
            (List.map_id ts))

/-- Elementary types in which no element of an array is readonly are told apart by their text. -/
theorem eq_of_render_eq {a b : Ty} (ha : a.Elementary) (hb : b.Elementary)
    (hma : a.Everywhere fun u ↦ ∀ e r, u = .array e r → e.marks = 0)
    (hmb : b.Everywhere fun u ↦ ∀ e r, u = .array e r → e.marks = 0)
    (h : a.render = b.render) : a = b := by
  have hread := readType_render ha
  rw [h, readType_render hb, hoisted_eq_self ha hma, hoisted_eq_self hb hmb] at hread
  exact (Prod.mk.inj (Option.some.inj hread)).1.symm

/-- Two elementary types have the same text exactly if they differ in nothing but where the readonly
marks stand in a nest of arrays. -/
theorem render_eq_iff_hoisted {a b : Ty} (ha : a.Elementary) (hb : b.Elementary) :
    a.render = b.render ↔ a.hoisted = b.hoisted := by
  constructor
  · intro h
    have hread := readType_render ha
    rw [h, readType_render hb] at hread
    exact (Prod.mk.inj (Option.some.inj hread)).1.symm
  · intro h
    rw [← render_hoisted ha, h, render_hoisted hb]

/-- An array of readonly arrays reads like a readonly array of arrays. -/
theorem render_readonly_element :
    (array (array string true) false).render = (array (array string false) true).render ∧
      array (array string true) false ≠ array (array string false) true :=
  ⟨(render_eq_iff_hoisted (.array (.array (.primitive .string)))
    (.array (.array (.primitive .string)))).mpr rfl, fun h ↦ by cases h⟩

end PluginSurface.Ty
