import PluginSurface.Proofs.Ty.Hoisting
import PluginSurface.Proofs.Ty.Words
import PluginSurface.Recursion

/-!
# A reader for the texts of types

The reader takes the text of an elementary type apart. Which rule it takes is decided by the words
ahead, and it gives every readonly mark to the outermost array that has none.

Main statements: `Ty.reads_joined` and `Ty.readItems_append`, unions, intersections and lists of
elements are read back if their parts are.
-/

namespace PluginSurface.Ty

open Text

/-! ## The reader -/

/-- Whether the characters begin as a list of elements or parameters may go on behind its bracket,
but no type begins: with a closing bracket, dots or a label. -/
def startsItem (cs : List Char) : Bool :=
  (eat ")" cs).isSome || (eat "]" cs).isSome || (eat "..." cs).isSome || (readLabel cs).isSome

def startsFunction (cs : List Char) : Bool :=
  (eat "<" cs).isSome || (eat "abstract " cs).isSome || (eat "new " cs).isSome ||
    (eat "(" cs).any startsItem

def isWordPart (c : Char) : Bool := isNamePart c || isNumberPart c

def primitives : List Primitive :=
  [.any, .unknown, .never, .void, .undefined, .null, .string, .number, .boolean, .bigint, .symbol,
    .object]

/-- The primitive type or literal with this text. -/
def ofWord (word : String) : Ty :=
  if word = "true" then .literal (.boolean true)
  else if word = "false" then .literal (.boolean false)
  else
    match primitives.find? (·.word == word) with
    | some p => .primitive p
    | none => .literal (.ofNumber word)

/-- The two kinds of types that are written as parts with a sign between them. -/
inductive Joint where
  | union
  | intersection

namespace Joint

def sign : Joint → String
  | union => " | "
  | intersection => " & "

/-- The type with these parts; one part stands for itself. -/
def join : Joint → List Ty → Ty
  | _, [t] => t
  | union, ts => .union ts
  | intersection, ts => .intersection ts

end Joint

/-- Arrays of the type, one for each pair of brackets. -/
def readBrackets (t : Ty) : List Char → Ty × List Char
  | '[' :: ']' :: cs => readBrackets (.array t false) cs
  | cs => (t, cs)

def paramOfItem (i : TupleItem) : ParamTy := ⟨i.label.getD "", i.optional, i.rest, i.type⟩

/-! ### One step

Each reader takes the readers for what stands inside. -/

section

variable (type function operand primary : List Char → Option (Ty × List Char))
  (joined part : Joint → List Char → Option (Ty × List Char))
  (parts : Joint → List Char → Option (List Ty × List Char))
  (item : List Char → Option (TupleItem × List Char))
  (items : String → List Char → Option (List TupleItem × List Char))

def typeBy (cs : List Char) : Option (Ty × List Char) :=
  if startsFunction cs then function cs else joined .union cs

def functionBy (cs : List Char) : Option (Ty × List Char) := do
  let (isAbstract, cs) := eatMark "abstract " cs
  let (isConstructor, cs) := eatMark "new " cs
  let (typeParams, cs) ← readTypeParams cs
  let cs ← eat "(" cs
  let (params, cs) ← items ")" cs
  let cs ← eat " => " cs
  let (result, cs) ← type cs
  return (.function ⟨isConstructor, isAbstract, typeParams, params.map paramOfItem, result⟩, cs)

def joinedBy (joint : Joint) (cs : List Char) : Option (Ty × List Char) := do
  let (t, cs) ← part joint cs
  let (ts, cs) ← parts joint cs
  return (joint.join (t :: ts), cs)

/-- Further parts, each behind the sign. -/
def partsBy (joint : Joint) (cs : List Char) : Option (List Ty × List Char) :=
  match eat joint.sign cs with
  | none => some ([], cs)
  | some cs => do
    let (t, cs) ← part joint cs
    let (ts, cs) ← parts joint cs
    return (t :: ts, cs)

def partBy (joint : Joint) (cs : List Char) : Option (Ty × List Char) :=
  match joint with
  | .union => joined .intersection cs
  | .intersection => operand cs

/-- A type with its readonly marks, which go to the outermost arrays, and its brackets. -/
def operandBy (cs : List Char) : Option (Ty × List Char) :=
  match eat "readonly " cs with
  | some cs => do
    let (t, cs) ← operand cs
    return (t.markOuter, cs)
  | none => do
    let (t, cs) ← primary cs
    return readBrackets t cs

def primaryBy (cs : List Char) : Option (Ty × List Char) :=
  match cs with
  | '(' :: cs => do
    let (t, cs) ← type cs
    return (t, ← eat ")" cs)
  | '[' :: cs => do
    let (elements, cs) ← items "]" cs
    return (.tuple elements false, cs)
  | '"' :: cs => do
    let (value, cs) ← readQuoted none cs
    return (.literal (.string (String.ofList value)), cs)
  | cs => some (ofWord (String.ofList (cs.takeWhile isWordPart)), cs.dropWhile isWordPart)

/-- The elements of a tuple or the parameters of a function, up to the closing bracket. -/
def itemsBy (close : String) (cs : List Char) : Option (List TupleItem × List Char) :=
  match eat close cs with
  | some cs => some ([], cs)
  | none => do
    let (first, cs) ← item cs
    match eat ", " cs with
    | some cs => do
      let (more, cs) ← items close cs
      return (first :: more, cs)
    | none => return ([first], ← eat close cs)

def itemBy (cs : List Char) : Option (TupleItem × List Char) := do
  let (rest, cs) := eatMark "..." cs
  match readLabel cs with
  | some (label, optional, cs) =>
    let (t, cs) ← type cs
    return (⟨some label, optional, rest, t⟩, cs)
  | none =>
    let (t, cs) ← type cs
    let (optional, cs) := eatMark "?" cs
    return (⟨none, optional, rest, t⟩, cs)

end

/-! ### The more is read inside, the more is read -/

section

variable {type type' function function' operand operand' primary primary' :
    List Char → Option (Ty × List Char)}
  {joined joined' part part' : Joint → List Char → Option (Ty × List Char)}
  {parts parts' : Joint → List Char → Option (List Ty × List Char)}
  {item item' : List Char → Option (TupleItem × List Char)}
  {items items' : String → List Char → Option (List TupleItem × List Char)}

theorem below_typeBy (hfunction : ∀ cs, Below (function cs) (function' cs))
    (hjoined : ∀ joint cs, Below (joined joint cs) (joined' joint cs)) (cs : List Char) :
    Below (typeBy function joined cs) (typeBy function' joined' cs) := by
  rw [typeBy, typeBy]
  split
  · exact hfunction cs
  · exact hjoined .union cs

theorem below_functionBy (htype : ∀ cs, Below (type cs) (type' cs))
    (hitems : ∀ close cs, Below (items close cs) (items' close cs)) (cs : List Char) :
    Below (functionBy type items cs) (functionBy type' items' cs) :=
  .bind (.refl _) fun _ ↦ .bind (.refl _) fun _ ↦ .bind (hitems _ _) fun _ ↦
    .bind (.refl _) fun _ ↦ .bind (htype _) fun _ ↦ .refl _

theorem below_joinedBy (hpart : ∀ joint cs, Below (part joint cs) (part' joint cs))
    (hparts : ∀ joint cs, Below (parts joint cs) (parts' joint cs)) (joint : Joint)
    (cs : List Char) : Below (joinedBy part parts joint cs) (joinedBy part' parts' joint cs) :=
  .bind (hpart joint cs) fun _ ↦ .bind (hparts joint _) fun _ ↦ .refl _

theorem below_partsBy (hpart : ∀ joint cs, Below (part joint cs) (part' joint cs))
    (hparts : ∀ joint cs, Below (parts joint cs) (parts' joint cs)) (joint : Joint)
    (cs : List Char) : Below (partsBy part parts joint cs) (partsBy part' parts' joint cs) := by
  rw [partsBy, partsBy]
  cases eat joint.sign cs with
  | none => exact .refl _
  | some cs => exact .bind (hpart joint cs) fun _ ↦ .bind (hparts joint _) fun _ ↦ .refl _

theorem below_partBy (hoperand : ∀ cs, Below (operand cs) (operand' cs))
    (hjoined : ∀ joint cs, Below (joined joint cs) (joined' joint cs)) (joint : Joint)
    (cs : List Char) :
    Below (partBy operand joined joint cs) (partBy operand' joined' joint cs) := by
  cases joint with
  | union => exact hjoined .intersection cs
  | intersection => exact hoperand cs

theorem below_operandBy (hoperand : ∀ cs, Below (operand cs) (operand' cs))
    (hprimary : ∀ cs, Below (primary cs) (primary' cs)) (cs : List Char) :
    Below (operandBy operand primary cs) (operandBy operand' primary' cs) := by
  rw [operandBy, operandBy]
  cases eat "readonly " cs with
  | some cs => exact .bind (hoperand cs) fun _ ↦ .refl _
  | none => exact .bind (hprimary cs) fun _ ↦ .refl _

theorem below_primaryBy (htype : ∀ cs, Below (type cs) (type' cs))
    (hitems : ∀ close cs, Below (items close cs) (items' close cs)) (cs : List Char) :
    Below (primaryBy type items cs) (primaryBy type' items' cs) := by
  unfold primaryBy
  split
  · exact .bind (htype _) fun _ ↦ .refl _
  · exact .bind (hitems _ _) fun _ ↦ .refl _
  · exact .refl _
  · exact .refl _

theorem below_itemsBy (hitem : ∀ cs, Below (item cs) (item' cs))
    (hitems : ∀ close cs, Below (items close cs) (items' close cs)) (close : String)
    (cs : List Char) : Below (itemsBy item items close cs) (itemsBy item' items' close cs) := by
  rw [itemsBy, itemsBy]
  cases eat close cs with
  | some cs => exact .refl _
  | none =>
      refine .bind (hitem cs) fun first ↦ ?_
      dsimp only
      split
      · exact .bind (hitems close _) fun _ ↦ .refl _
      · exact .refl _

theorem below_itemBy (htype : ∀ cs, Below (type cs) (type' cs)) (cs : List Char) :
    Below (itemBy type cs) (itemBy type' cs) := by
  unfold itemBy
  dsimp only
  split <;> exact .bind (htype _) fun _ ↦ .refl _

end

/-! ### Reading without a bound -/

inductive Reader where
  | type
  | joined (joint : Joint)
  | parts (joint : Joint)
  | operand
  | items (close : String)

def Reader.Result : Reader → Type
  | type | joined _ | operand => Ty
  | parts _ => List Ty
  | items _ => List TupleItem

section

variable (read : Answers (List Char) fun q : Reader ↦ q.Result × List Char)

def partOf : Joint → List Char → Option (Ty × List Char) :=
  partBy (read .operand) fun joint ↦ read (.joined joint)

def readBy : Answers (List Char) fun q : Reader ↦ q.Result × List Char
  | .type => typeBy (functionBy (read .type) fun close ↦ read (.items close))
      fun joint ↦ read (.joined joint)
  | .joined joint => joinedBy (partOf read) (fun joint ↦ read (.parts joint)) joint
  | .parts joint => partsBy (partOf read) (fun joint ↦ read (.parts joint)) joint
  | .operand => operandBy (read .operand)
      (primaryBy (read .type) fun close ↦ read (.items close))
  | .items close => itemsBy (itemBy (read .type)) (fun close ↦ read (.items close)) close

end

theorem below_readBy {read read' : Answers (List Char) fun q : Reader ↦ q.Result × List Char}
    (h : ∀ q cs, Below (read q cs) (read' q cs)) (q : Reader) (cs : List Char) :
    Below (readBy read q cs) (readBy read' q cs) := by
  have hpart := below_partBy (h .operand) fun joint ↦ h (.joined joint)
  cases q with
  | type =>
      exact below_typeBy (below_functionBy (h .type) fun close ↦ h (.items close))
        (fun joint ↦ h (.joined joint)) cs
  | joined joint => exact below_joinedBy hpart (fun joint ↦ h (.parts joint)) joint cs
  | parts joint => exact below_partsBy hpart (fun joint ↦ h (.parts joint)) joint cs
  | operand =>
      exact below_operandBy (h .operand)
        (below_primaryBy (h .type) fun close ↦ h (.items close)) cs
  | items close =>
      exact below_itemsBy (below_itemBy (h .type)) (fun close ↦ h (.items close)) close cs

def reading : Recursion (List Char) fun q : Reader ↦ q.Result × List Char :=
  ⟨readBy, below_readBy⟩

def readType : List Char → Option (Ty × List Char) := reading.fix .type

def readJoined (joint : Joint) : List Char → Option (Ty × List Char) :=
  reading.fix (.joined joint)

def readParts (joint : Joint) : List Char → Option (List Ty × List Char) :=
  reading.fix (.parts joint)

def readOperand : List Char → Option (Ty × List Char) := reading.fix .operand

def readItems (close : String) : List Char → Option (List TupleItem × List Char) :=
  reading.fix (.items close)

def readFunction : List Char → Option (Ty × List Char) := functionBy readType readItems

def readPart : Joint → List Char → Option (Ty × List Char) := partBy readOperand readJoined

def readPrimary : List Char → Option (Ty × List Char) := primaryBy readType readItems

def readItem : List Char → Option (TupleItem × List Char) := itemBy readType

theorem readType_eq : readType = typeBy readFunction readJoined := reading.fix_eq .type

theorem readJoined_eq (joint : Joint) : readJoined joint = joinedBy readPart readParts joint :=
  reading.fix_eq (.joined joint)

theorem readParts_eq (joint : Joint) : readParts joint = partsBy readPart readParts joint :=
  reading.fix_eq (.parts joint)

theorem readOperand_eq : readOperand = operandBy readOperand readPrimary := reading.fix_eq .operand

theorem readItems_eq (close : String) : readItems close = itemsBy readItem readItems close :=
  reading.fix_eq (.items close)

/-! ## What may follow -/

/-- What follows a type that is not part of another. -/
def afterType : List String := [",", "]", ")", "?,", "?]", "?)"]

namespace Joint

/-- What follows a whole union or intersection. -/
def afterWhole : Joint → List String
  | union => afterType
  | intersection => " | " :: afterType

/-- What follows a part of a union or intersection. -/
def afterPart (joint : Joint) : List String := joint.sign :: joint.afterWhole

end Joint

/-- What follows a type in front of its brackets. -/
def afterPrimary : List String := "[]" :: Joint.intersection.afterPart

theorem isWordPart_of_follows {cs : List Char} (h : Follows afterPrimary cs) :
    ∀ c ∈ cs.head?, isWordPart c = false := by
  have hwords : ∀ word ∈ afterPrimary, word.toList.head?.map isWordPart = some false := by
    decide
  intro c hc
  rcases h with rfl | ⟨word, hword, rest, rfl⟩
  · cases hc
  · obtain ⟨d, hd, hpart⟩ := Option.map_eq_some_iff.mp (hwords word hword)
    rw [List.head?_append, hd, Option.some_or] at hc
    rwa [← Option.some.inj hc]

theorem eat_colon_of_follows {cs : List Char} (h : Follows afterPrimary cs) :
    eat ": " (eatMark "?" cs).2 = none := by
  rcases h with rfl | ⟨word, hword, rest, rfl⟩
  · rfl
  · simp only [afterPrimary, afterType, Joint.afterPart, Joint.afterWhole, Joint.sign,
      List.mem_cons, List.not_mem_nil, or_false] at hword
    rcases hword with rfl | rfl | rfl | rfl | rfl | rfl | rfl | rfl | rfl <;> rfl

theorem eat_sign_of_follows {joint : Joint} {cs : List Char} (h : Follows joint.afterWhole cs) :
    eat joint.sign cs = none := by
  rcases h with rfl | ⟨word, hword, rest, rfl⟩
  · cases joint <;> rfl
  · cases joint
    all_goals
      simp only [afterType, Joint.afterWhole, List.mem_cons, List.not_mem_nil, or_false] at hword
      rcases hword with rfl | rfl | rfl | rfl | rfl | rfl | rfl <;> rfl

theorem Joint.follows_afterPrimary {joint : Joint} {cs : List Char}
    (h : Follows joint.afterPart cs) : Follows afterPrimary cs := by
  refine h.mono fun word hword ↦ ?_
  cases joint
  · exact List.mem_cons_of_mem _ (List.mem_cons_of_mem _ hword)
  · exact List.mem_cons_of_mem _ hword

/-! ## How types begin -/

theorem startsItem_cons {c : Char} {cs : List Char} (hc : isNameStart c = false)
    (hmark : c ∉ [')', ']', '.']) : startsItem (c :: cs) = false := by
  simp only [List.mem_cons, List.not_mem_nil, or_false, not_or] at hmark
  have hparen : eat ")" (c :: cs) = none := eat_cons (d := ')') rfl hmark.1
  have hbracket : eat "]" (c :: cs) = none := eat_cons (d := ']') rfl hmark.2.1
  have hdots : eat "..." (c :: cs) = none := eat_cons (d := '.') rfl hmark.2.2
  rw [startsItem, hparen, hbracket, hdots, readLabel_cons_eq_none hc]
  rfl

theorem startsItem_word {word cs : List Char} (hne : word ≠ [])
    (hword : ∀ c ∈ word, isNamePart c)
    (hcs : ∀ c ∈ cs.head?, isNamePart c = false) (hcolon : eat ": " (eatMark "?" cs).2 = none) :
    startsItem (word ++ cs) = false := by
  obtain ⟨c, front, rfl⟩ := List.exists_cons_of_ne_nil hne
  have hhead : ∀ d : Char, isNamePart d = false → (c :: front ++ cs).head? ≠ some d := by
    intro d hd h
    rw [← Option.some.inj h, hword c List.mem_cons_self] at hd
    cases hd
  have hparen : eat ")" (c :: front ++ cs) = none := eat_eq_none rfl (hhead _ (by decide))
  have hbracket : eat "]" (c :: front ++ cs) = none := eat_eq_none rfl (hhead _ (by decide))
  have hdots : eat "..." (c :: front ++ cs) = none := eat_eq_none rfl (hhead _ (by decide))
  rw [startsItem, hparen, hbracket, hdots, readLabel_eq_none hword hcs hcolon]
  rfl

theorem startsFunction_cons {c : Char} {cs : List Char} (h : c ∉ ['<', 'a', 'n', '(']) :
    startsFunction (c :: cs) = false := by
  simp only [List.mem_cons, List.not_mem_nil, or_false, not_or] at h
  have hangle : eat "<" (c :: cs) = none := eat_cons (d := '<') rfl h.1
  have habstract : eat "abstract " (c :: cs) = none := eat_cons (d := 'a') rfl h.2.1
  have hnew : eat "new " (c :: cs) = none := eat_cons (d := 'n') rfl h.2.2.1
  have hparen : eat "(" (c :: cs) = none := eat_cons (d := '(') rfl h.2.2.2
  simp [startsFunction, hangle, habstract, hnew, hparen]

theorem startsFunction_paren (cs : List Char) : startsFunction ('(' :: cs) = startsItem cs := by
  have hparen : eat "(" ('(' :: cs) = some cs := eat_append "(" cs
  rw [startsFunction, hparen]
  rfl

/-! ## Words and numbers -/

theorem isNameStart_of_isDigit {c : Char} (h : c.isDigit) : isNameStart c = false := by
  have hdigits : ∀ n < 58, 48 ≤ n → isNameStart (Char.ofNat n) = false := by decide
  obtain ⟨hlow, hhigh⟩ := Bool.and_eq_true_iff.mp h
  rw [← Char.ofNat_toNat c]
  exact hdigits c.toNat (Nat.lt_succ_of_le (of_decide_eq_true hhigh)) (of_decide_eq_true hlow)

theorem readPrimary_word {word cs : List Char} (hne : word ≠ [])
    (hword : ∀ c ∈ word, isWordPart c) (hcs : ∀ c ∈ cs.head?, isWordPart c = false) :
    readPrimary (word ++ cs) = some (ofWord (String.ofList word), cs) := by
  obtain ⟨c, front, rfl⟩ := List.exists_cons_of_ne_nil hne
  obtain ⟨htake, hdrop⟩ := takeWhile_append_of_all hword hcs
  have hc : ∀ d : Char, isWordPart d = false → c ≠ d := by
    rintro d hd rfl
    exact absurd (hword c List.mem_cons_self) (Bool.eq_false_iff.mp hd)
  rw [readPrimary, primaryBy, htake, hdrop]
  all_goals exact fun _ h ↦ absurd (List.cons.inj h).1 (hc _ (by decide))

theorem ofWord_word (p : Primitive) : ofWord p.word = .primitive p := by
  cases p <;> rfl

/-- A signed number begins with a digit, a minus sign, or a point before a digit. -/
theorem isSigned_cases {cs : List Char} (h : isSigned cs) :
    ∃ c rest, cs = c :: rest ∧ (∀ d ∈ cs, isNumberPart d) ∧
      (c.isDigit ∨ c = '-' ∨ c = '.' ∧ rest.head?.any Char.isDigit) := by
  have hunsigned : ∀ cs : List Char, isUnsigned cs → ∃ c rest, cs = c :: rest ∧
      (∀ d ∈ cs, isNumberPart d) ∧
      (c.isDigit ∨ c = '.' ∧ rest.head?.any Char.isDigit) := by
    rintro (- | ⟨c, rest⟩) hcs
    · cases hcs
    · obtain ⟨hc, hrest⟩ := Bool.and_eq_true_iff.mp hcs
      have hc' : c.isDigit ∨ c = '.' ∧ rest.head?.any Char.isDigit := by simpa using hc
      refine ⟨c, rest, rfl, List.forall_mem_cons.mpr ⟨?_, List.all_eq_true.mp hrest⟩, hc'⟩
      rcases hc' with hdigit | ⟨rfl, -⟩
      · simp [isNumberPart, Char.isAlphanum, hdigit]
      · rfl
  unfold isSigned at h
  split at h
  · next rest =>
    obtain ⟨c, more, rfl, hparts, -⟩ := hunsigned _ h
    exact ⟨'-', _, rfl, List.forall_mem_cons.mpr ⟨rfl, hparts⟩, Or.inr (Or.inl rfl)⟩
  · obtain ⟨c, rest, hcs, hparts, hc⟩ := hunsigned _ h
    exact ⟨c, rest, hcs, hparts, hc.imp_right Or.inr⟩

theorem ofWord_number {text : String} (h : isSigned text.toList) :
    ofWord text = .literal (.ofNumber text) := by
  have hwords : ∀ word ∈ "true" :: "false" :: primitives.map Primitive.word,
      isSigned word.toList = false := by decide
  have hne : ∀ word ∈ "true" :: "false" :: primitives.map Primitive.word, text ≠ word := by
    rintro word hword rfl
    exact absurd h (Bool.eq_false_iff.mp (hwords _ hword))
  have hfind : primitives.find? (·.word == text) = none := by
    refine List.find?_eq_none.mpr fun p hp heq ↦ ?_
    exact hne p.word (by simpa using Or.inr (Or.inr ⟨p, hp, rfl⟩)) (beq_iff_eq.mp heq).symm
  rw [ofWord, if_neg (hne _ (by simp)), if_neg (hne _ (by simp)), hfind]

/-! ## Operands -/

/-- Arrays of the type, so many levels of them. -/
def arrays : Nat → Ty → Ty
  | 0, t => t
  | n + 1, t => arrays n (.array t false)

def bracketText : Nat → String
  | 0 => ""
  | n + 1 => "[]" ++ bracketText n

theorem readBrackets_append (n : Nat) (t : Ty) {cs : List Char}
    (h : Follows Joint.intersection.afterPart cs) :
    readBrackets t ((bracketText n).toList ++ cs) = (arrays n t, cs) := by
  induction n generalizing t with
  | zero =>
      rcases h with rfl | ⟨word, hword, rest, rfl⟩
      · rfl
      · simp only [afterType, Joint.afterPart, Joint.afterWhole, Joint.sign, List.mem_cons,
          List.not_mem_nil, or_false] at hword
        rcases hword with rfl | rfl | rfl | rfl | rfl | rfl | rfl | rfl <;> rfl
  | succ n ih =>
      rw [bracketText, String.toList_append, List.append_assoc]
      exact ih (.array t false)

theorem follows_bracketText (n : Nat) {cs : List Char}
    (h : Follows Joint.intersection.afterPart cs) :
    Follows afterPrimary ((bracketText n).toList ++ cs) := by
  cases n with
  | zero => exact Joint.follows_afterPrimary h
  | succ n =>
      rw [bracketText, String.toList_append, List.append_assoc]
      exact follows_append _ List.mem_cons_self _

/-- A type that is read without its brackets is read with any number of them. -/
theorem reads_brackets {text : String} {t : Ty} (h : Reads readPrimary text t afterPrimary)
    (hreadonly : ∀ cs, Follows afterPrimary cs → eat "readonly " (text.toList ++ cs) = none)
    (n : Nat) :
    Reads readOperand (text ++ bracketText n) (arrays n t) Joint.intersection.afterPart := by
  intro cs hcs
  have hfollow := follows_bracketText n hcs
  rw [readOperand_eq, operandBy, String.toList_append, List.append_assoc, hreadonly _ hfollow]
  simp only [h _ hfollow, Option.bind_eq_bind, Option.bind_some, readBrackets_append n t hcs,
    Option.pure_def]

/-- Each mark in front of an operand goes to the outermost array that has none. -/
theorem reads_marks {text : String} {t : Ty} {words : List String}
    (h : Reads readOperand text t words) (n : Nat) :
    Reads readOperand (markText n ++ text) (markOuter^[n] t) words := by
  induction n with
  | zero => simpa [markText] using h
  | succ n ih =>
      intro cs hcs
      rw [markText, String.append_assoc, String.toList_append, List.append_assoc,
        readOperand_eq, operandBy, eat_append]
      simp only [ih cs hcs, Option.bind_eq_bind, Option.bind_some, Option.pure_def,
        Function.iterate_succ_apply']

theorem reads_parenthesized {text : String} {t : Ty} (h : Reads readType text t afterType) :
    Reads readPrimary ("(" ++ text ++ ")") t afterPrimary := by
  intro cs _
  have hclose : Follows afterType (")".toList ++ cs) := follows_append ")" (by decide) cs
  rw [String.toList_append, String.toList_append, List.append_assoc, List.append_assoc]
  change readPrimary ('(' :: (text.toList ++ (")".toList ++ cs))) = _
  rw [readPrimary, primaryBy, h _ hclose]
  simp only [Option.bind_eq_bind, Option.bind_some, eat_append, Option.pure_def]

/-! ## Unions and intersections -/

/-- One part with no sign behind it is the whole type. -/
theorem reads_single (joint : Joint) {text : String} {t : Ty}
    (h : Reads (readPart joint) text t joint.afterPart) :
    Reads (readJoined joint) text t joint.afterWhole := by
  intro cs hcs
  rw [readJoined_eq, joinedBy, h cs (hcs.mono fun _ ↦ List.mem_cons_of_mem _)]
  simp only [Option.bind_eq_bind, Option.bind_some]
  rw [readParts_eq, partsBy, eat_sign_of_follows hcs]
  simp only [Option.bind_some, Option.pure_def, Joint.join]

theorem intercalate_cons (sep text : String) (texts : List String) :
    sep.intercalate (text :: texts) = text ++ String.join (texts.map (sep ++ ·)) := by
  induction texts generalizing text with
  | nil => simp
  | cons next texts ih =>
      rw [String.intercalate_cons_cons, ih, List.map_cons, String.join_cons, String.append_assoc,
        String.append_assoc]

theorem follows_parts {joint : Joint} {cs : List Char} (texts : List String)
    (h : Follows joint.afterWhole cs) :
    Follows joint.afterPart ((String.join (texts.map (joint.sign ++ ·))).toList ++ cs) := by
  cases texts with
  | nil => exact h.mono fun _ ↦ List.mem_cons_of_mem _
  | cons text texts =>
      rw [List.map_cons, String.join_cons, String.toList_append, String.toList_append,
        List.append_assoc, List.append_assoc]
      exact follows_append _ List.mem_cons_self _

theorem reads_parts {joint : Joint} {text : Ty → String} {ts : List Ty}
    (h : ∀ t ∈ ts, Reads (readPart joint) (text t) t.hoisted joint.afterPart) {cs : List Char}
    (hcs : Follows joint.afterWhole cs) :
    readParts joint ((String.join ((ts.map text).map (joint.sign ++ ·))).toList ++ cs) =
      some (ts.map hoisted, cs) := by
  induction ts with
  | nil =>
      simp only [List.map_nil, String.join_nil, String.toList_empty, List.nil_append]
      rw [readParts_eq, partsBy, eat_sign_of_follows hcs]
  | cons t ts ih =>
      rw [List.map_cons, List.map_cons, String.join_cons, String.toList_append,
        String.toList_append, List.append_assoc, List.append_assoc,
        readParts_eq, partsBy, eat_append]
      simp only [h t List.mem_cons_self _ (follows_parts _ hcs), Option.bind_eq_bind,
        Option.bind_some, ih fun u hu ↦ h u (List.mem_cons_of_mem t hu), Option.pure_def,
        List.map_cons]

theorem reads_joined (joint : Joint) {text : Ty → String} {ts : List Ty} (hne : ts ≠ [])
    (h : ∀ t ∈ ts, Reads (readPart joint) (text t) t.hoisted joint.afterPart) :
    Reads (readJoined joint) (joint.sign.intercalate (ts.map text))
      (joint.join (ts.map hoisted)) joint.afterWhole := by
  intro cs hcs
  obtain ⟨t, ts, rfl⟩ := List.exists_cons_of_ne_nil hne
  rw [List.map_cons, intercalate_cons, String.toList_append, List.append_assoc,
    readJoined_eq, joinedBy, h t List.mem_cons_self _ (follows_parts _ hcs)]
  simp only [Option.bind_eq_bind, Option.bind_some,
    reads_parts (fun u hu ↦ h u (List.mem_cons_of_mem t hu)) hcs, Option.pure_def, List.map_cons]

/-! ## Elements and parameters -/

/-- The item with the marks in its type hoisted. -/
def hoistedItem (i : TupleItem) : TupleItem := { i with type := i.type.hoisted }

/-- What is known of an elementary type whose text can be read back, alone or as a part of
another. -/
structure Readable (t : Ty) : Prop where
  notItem : ∀ cs, Follows afterPrimary cs → startsItem (t.render.toList ++ cs) = false
  notFunction :
    ∀ cs, Follows afterPrimary cs → startsFunction (t.renderAlternative.toList ++ cs) = false
  operand : ∀ n, Reads readOperand (t.renderOperand ++ bracketText n)
    (markOuter^[t.marks] (arrays n t.bare)) Joint.intersection.afterPart
  part : t.isUnion = false →
    Reads (readPart .union) t.renderAlternative t.hoisted Joint.union.afterPart
  type : Reads readType t.render t.hoisted afterType

theorem follows_afterType {cs : List Char} (h : Follows afterType cs) : Follows afterPrimary cs :=
  h.mono fun _ hword ↦
    List.mem_cons_of_mem _ (List.mem_cons_of_mem _ (List.mem_cons_of_mem _ hword))

theorem startsItem_eq_false_iff {cs : List Char} : startsItem cs = false ↔
    eat ")" cs = none ∧ eat "]" cs = none ∧ eat "..." cs = none ∧ readLabel cs = none := by
  simp [startsItem, and_assoc]

/-- What follows an element or a parameter. -/
def afterItem : List String := [", ", "]", ")"]

theorem follows_mark {word : String} (hword : word ∈ afterItem) (b : Bool) (cs : List Char) :
    Follows afterType ((if b then "?" else "").toList ++ (word.toList ++ cs)) ∧
      eat "?" (word.toList ++ cs) = none := by
  simp only [afterItem, List.mem_cons, List.not_mem_nil, or_false] at hword
  rcases hword with rfl | rfl | rfl
  · cases b
    · exact ⟨follows_append "," (by decide) (' ' :: cs), rfl⟩
    · exact ⟨follows_append "?," (by decide) (' ' :: cs), rfl⟩
  · cases b
    · exact ⟨follows_append "]" (by decide) cs, rfl⟩
    · exact ⟨follows_append "?]" (by decide) cs, rfl⟩
  · cases b
    · exact ⟨follows_append ")" (by decide) cs, rfl⟩
    · exact ⟨follows_append "?)" (by decide) cs, rfl⟩

theorem eat_name {name word : String} (hname : isName name) {c : Char}
    (hc : word.toList.head? = some c) (hpart : isNamePart c = false) (cs : List Char) :
    eat word (name.toList ++ cs) = none := by
  obtain ⟨d, front, hlist, hd, -⟩ := isName_iff.mp hname
  rw [hlist]
  refine eat_cons hc ?_
  rintro rfl
  exact absurd (isNamePart_of_isNameStart hd) (Bool.eq_false_iff.mp hpart)

/-- An element or a parameter is read back. -/
theorem readItem_append {i : TupleItem} (hlabel : ∀ label ∈ i.label, isName label)
    (h : Readable i.type) {word : String} (hword : word ∈ afterItem) (cs : List Char) :
    readItem (i.render.toList ++ (word.toList ++ cs)) =
      some (hoistedItem i, word.toList ++ cs) := by
  obtain ⟨label, optional, rest, type⟩ := i
  obtain ⟨hfollow, hmark⟩ := follows_mark hword optional cs
  rw [readItem, itemBy]
  cases label with
  | none =>
      obtain ⟨-, -, hdots, hread⟩ :=
        startsItem_eq_false_iff.mp (h.notItem _ (follows_afterType hfollow))
      simp only [TupleItem.render, String.toList_append, List.append_assoc,
        eatMark_append rest hdots, hread, h.type _ hfollow, eatMark_append optional hmark,
        Option.bind_eq_bind, Option.bind_some, Option.pure_def, hoistedItem]
  | some label =>
      have hname := hlabel label rfl
      have hdots (more : List Char) : eat "..." (label.toList ++ more) = none :=
        eat_name hname (c := '.') rfl (by decide) more
      have htype : readType (type.render.toList ++ (word.toList ++ cs)) =
          some (type.hoisted, word.toList ++ cs) := h.type _ (follows_mark hword false cs).1
      simp only [TupleItem.render, String.toList_append, List.append_assoc,
        eatMark_append rest (hdots _), readLabel_append hname, htype, Option.bind_eq_bind,
        Option.bind_some, Option.pure_def, hoistedItem]

theorem eat_close_item {i : TupleItem} (hlabel : ∀ label ∈ i.label, isName label)
    (h : Readable i.type) {word close : String} (hword : word ∈ afterItem)
    (hclose : close ∈ [")", "]"]) (cs : List Char) :
    eat close (i.render.toList ++ (word.toList ++ cs)) = none := by
  obtain ⟨label, optional, rest, type⟩ := i
  obtain ⟨c, hc, hdot, hpart⟩ :
    ∃ c, close.toList.head? = some c ∧ '.' ≠ c ∧ isNamePart c = false := by
    rcases List.mem_cons.mp hclose with rfl | hclose
    · exact ⟨')', rfl, by decide, by decide⟩
    · obtain rfl := List.mem_singleton.mp hclose
      exact ⟨']', rfl, by decide, by decide⟩
  cases rest with
  | true =>
      cases label <;>
        simp only [TupleItem.render, if_true, String.toList_append, List.append_assoc] <;>
        exact eat_cons hc hdot
  | false =>
      cases label with
      | none =>
          obtain ⟨hfollow, -⟩ := follows_mark hword optional cs
          obtain ⟨hparen, hbracket, -, -⟩ :=
            startsItem_eq_false_iff.mp (h.notItem _ (follows_afterType hfollow))
          simp only [TupleItem.render, Bool.false_eq_true, if_false, String.empty_append,
            String.toList_append, List.append_assoc]
          rcases List.mem_cons.mp hclose with rfl | hclose
          · exact hparen
          · obtain rfl := List.mem_singleton.mp hclose
            exact hbracket
      | some label =>
          simp only [TupleItem.render, Bool.false_eq_true, if_false, String.empty_append,
            String.toList_append, List.append_assoc]
          exact eat_name (hlabel label rfl) hc hpart _

/-- The elements of a tuple or the parameters of a function are read back. -/
theorem readItems_append {items : List TupleItem} (close : String) (hclose : close ∈ [")", "]"])
    (hlabels : ∀ i ∈ items, ∀ label ∈ i.label, isName label)
    (h : ∀ i ∈ items, Readable i.type) (cs : List Char) :
    readItems close ((", ".intercalate (items.map TupleItem.render)).toList ++
      (close.toList ++ cs)) = some (items.map hoistedItem, cs) := by
  have hafter : close ∈ afterItem := by
    simp only [List.mem_cons, List.not_mem_nil, or_false] at hclose
    rcases hclose with rfl | rfl <;> decide
  have hcomma : eat ", " (close.toList ++ cs) = none := by
    simp only [List.mem_cons, List.not_mem_nil, or_false] at hclose
    rcases hclose with rfl | rfl <;> rfl
  induction items with
  | nil =>
      simp only [List.map_nil, String.intercalate_nil, String.toList_empty, List.nil_append]
      rw [readItems_eq, itemsBy, eat_append]
  | cons i items ih =>
      have hlabel := hlabels i List.mem_cons_self
      have hi := h i List.mem_cons_self
      cases items with
      | nil =>
          simp only [List.map_cons, List.map_nil, String.intercalate_singleton]
          rw [readItems_eq, itemsBy, eat_close_item hlabel hi hafter hclose cs]
          simp only [readItem_append hlabel hi hafter cs, Option.bind_eq_bind, Option.bind_some,
            hcomma, eat_append, Option.pure_def]
      | cons next items =>
          have hrest := ih (fun j hj ↦ hlabels j (List.mem_cons_of_mem i hj))
            (fun j hj ↦ h j (List.mem_cons_of_mem i hj))
          rw [List.map_cons, List.map_cons, String.intercalate_cons_cons, String.toList_append,
            String.toList_append, List.append_assoc, List.append_assoc,
            readItems_eq, itemsBy, eat_close_item hlabel hi (by decide) hclose]
          simp only [readItem_append hlabel hi (show ", " ∈ afterItem by decide),
            Option.bind_eq_bind, Option.bind_some, eat_append]
          rw [← List.map_cons, hrest]
          rfl

end PluginSurface.Ty
