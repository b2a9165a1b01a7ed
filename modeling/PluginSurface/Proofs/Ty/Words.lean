import Mathlib.Data.List.Infix
import PluginSurface.Proofs.Ty.Elementary
import PluginSurface.Source.Scan

/-!
# Reading the words of a type

Readers for what the text of a type is made of: fixed words, names before a colon, quoted texts,
and type parameters. A reader takes the characters ahead and gives what it has read and the
characters that follow.

Main statements: `reads_readQuoted` and `reads_readTypeParams`, quoted texts and lists of type
parameters are read back as they were.
-/

namespace PluginSurface

open Text

/-! ## What is read back -/

/-- Whether the characters are at their end or begin with one of the words. -/
def Follows (words : List String) (cs : List Char) : Prop :=
  cs = [] ∨ ∃ word ∈ words, ∃ rest, cs = word.toList ++ rest

theorem Follows.mono {words more : List String} {cs : List Char} (h : Follows words cs)
    (hmore : ∀ word ∈ words, word ∈ more) : Follows more cs :=
  h.imp_right fun ⟨word, hword, rest⟩ ↦ ⟨word, hmore word hword, rest⟩

theorem follows_append {words : List String} (word : String) (h : word ∈ words) (cs : List Char) :
    Follows words (word.toList ++ cs) :=
  Or.inr ⟨word, h, cs, rfl⟩

/-- Where one of the words follows the text, the reader takes exactly the text and gives `a`. -/
def Reads {α : Type} (read : List Char → Option (α × List Char)) (text : String) (a : α)
    (words : List String) : Prop :=
  ∀ cs, Follows words cs → read (text.toList ++ cs) = some (a, cs)

/-! ## Fixed words -/

/-- What follows the word, if the characters begin with it. -/
def eat (word : String) (cs : List Char) : Option (List Char) := cs.dropPrefix? word.toList

@[simp]
theorem eat_append (word : String) (cs : List Char) : eat word (word.toList ++ cs) = some cs :=
  List.dropPrefix?_append_of_beq cs (beq_self_eq_true _)

theorem eat_eq_none {word : String} {cs : List Char} {c : Char} (hc : word.toList.head? = some c)
    (h : cs.head? ≠ some c) : eat word cs = none := by
  refine Option.eq_none_iff_forall_ne_some.mpr fun rest hrest ↦ h ?_
  obtain ⟨front, rfl, hfront⟩ := List.dropPrefix?_eq_some_iff.mp hrest
  rw [eq_of_beq hfront, List.head?_append, hc, Option.some_or]

theorem eat_cons {word : String} {c d : Char} {cs : List Char} (hd : word.toList.head? = some d)
    (hne : c ≠ d) : eat word (c :: cs) = none :=
  eat_eq_none hd fun h ↦ hne (Option.some.inj h)

/-- Whether the characters begin with the word, and what follows it if so. -/
def eatMark (word : String) (cs : List Char) : Bool × List Char :=
  match eat word cs with
  | some rest => (true, rest)
  | none => (false, cs)

theorem eatMark_append {word : String} {cs : List Char} (b : Bool) (h : eat word cs = none) :
    eatMark word ((if b then word else "").toList ++ cs) = (b, cs) := by
  cases b with
  | false => simp [eatMark, h]
  | true => simp [eatMark]

/-! ## Names -/

theorem takeWhile_append_of_all {p : Char → Bool} {front cs : List Char}
    (hfront : ∀ c ∈ front, p c) (hcs : ∀ c ∈ cs.head?, p c = false) :
    (front ++ cs).takeWhile p = front ∧ (front ++ cs).dropWhile p = cs := by
  rw [List.takeWhile_append_of_pos hfront, List.dropWhile_append_of_pos hfront]
  cases cs with
  | nil => simp
  | cons c rest => simp [hcs c rfl]

/-- The name in front of a colon, whether a question mark stands between them, and what follows. -/
def readLabel : List Char → Option (String × Bool × List Char)
  | [] => none
  | c :: cs => do
    guard (isNameStart c)
    let (optional, rest) := eatMark "?" (cs.dropWhile isNamePart)
    return (String.ofList (c :: cs.takeWhile isNamePart), optional, ← eat ": " rest)

theorem readLabel_cons_eq_none {c : Char} (hc : isNameStart c = false) (cs : List Char) :
    readLabel (c :: cs) = none := by
  have hguard : (guard (isNameStart c = true) : Option Unit) = none :=
    if_neg (Bool.eq_false_iff.mp hc)
  rw [readLabel, hguard]
  rfl

theorem isName_iff {name : String} : isName name ↔
    ∃ c cs, name.toList = c :: cs ∧ isNameStart c ∧ ∀ d ∈ cs, isNamePart d := by
  unfold isName
  split
  · simp_all
  · simp_all [List.all_eq_true]

theorem readLabel_append {name : String} (hname : isName name) (optional : Bool) (cs : List Char) :
    readLabel (name.toList ++ ((if optional then "?" else "").toList ++ (": ".toList ++ cs))) =
      some (name, optional, cs) := by
  obtain ⟨c, front, hlist, hc, hfront⟩ := isName_iff.mp hname
  have hend : ∀ d ∈ ((if optional then "?" else "").toList ++ (": ".toList ++ cs)).head?,
      isNamePart d = false := by
    intro d hd
    cases optional <;> (rw [← Option.some.inj hd]; decide)
  obtain ⟨htake, hdrop⟩ := takeWhile_append_of_all hfront hend
  have hguard : (guard (isNameStart c = true) : Option Unit) = some () := if_pos hc
  rw [hlist, List.cons_append, readLabel, hguard, htake, hdrop, eatMark_append optional rfl,
    ← hlist]
  simp only [eat_append, String.ofList_toList, Option.pure_def, Option.bind_eq_bind,
    Option.bind_some]

/-- A word that no colon follows is no label. -/
theorem readLabel_eq_none {word cs : List Char} (hword : ∀ c ∈ word, isNamePart c)
    (hcs : ∀ c ∈ cs.head?, isNamePart c = false) (hcolon : eat ": " (eatMark "?" cs).2 = none) :
    readLabel (word ++ cs) = none := by
  cases word with
  | nil =>
      cases cs with
      | nil => rfl
      | cons c rest =>
          refine readLabel_cons_eq_none (Bool.eq_false_iff.mpr fun h ↦ ?_) rest
          exact absurd (isNamePart_of_isNameStart h) (Bool.eq_false_iff.mp (hcs c rfl))
  | cons c front =>
      obtain ⟨-, hdrop⟩ := takeWhile_append_of_all (p := isNamePart)
        (fun d hd ↦ hword d (List.mem_cons_of_mem c hd)) hcs
      rw [List.cons_append, readLabel, hdrop]
      cases (guard (isNameStart c = true) : Option Unit) with
      | none => rfl
      | some _ =>
          change (eat ": " (eatMark "?" cs).2).bind _ = none
          rw [hcolon, Option.bind_none]

/-! ## Quoted texts -/

def hexValue (c : Char) : Nat := if c.isDigit then c.toNat - 48 else c.toNat - 87

/-- The rest of a quoted text behind its opening quote; inside of a hexadecimal escape, `code` is
the number read so far. -/
def readQuoted : Option Nat → List Char → Option (List Char × List Char)
  | _, [] => none
  | some n, c :: cs =>
    if c = '\x7d' then (readQuoted none cs).map fun (value, rest) ↦ (Char.ofNat n :: value, rest)
    else readQuoted (some (16 * n + hexValue c)) cs
  | none, '"' :: cs => some ([], cs)
  | none, '\\' :: 'u' :: '\x7b' :: cs => readQuoted (some 0) cs
  | none, '\\' :: c :: cs =>
    (readQuoted none cs).map fun (value, rest) ↦ (Scan.unescape c ++ value, rest)
  | none, c :: cs => (readQuoted none cs).map fun (value, rest) ↦ (c :: value, rest)

theorem hexValue_digitChar {n : Nat} (h : n < 16) :
    hexValue n.digitChar = n ∧ n.digitChar ≠ '\x7d' := by
  revert n
  decide

theorem readQuoted_toDigits (n : Nat) (cs : List Char) :
    readQuoted (some 0) (Nat.toDigits 16 n ++ cs) = readQuoted (some n) cs := by
  induction n using Nat.strong_induction_on generalizing cs with
  | _ n ih =>
      by_cases h : n < 16
      · obtain ⟨hvalue, hend⟩ := hexValue_digitChar h
        simp [Nat.toDigits_of_lt_base h, readQuoted, hvalue, hend]
      · obtain ⟨hvalue, hend⟩ := hexValue_digitChar (Nat.mod_lt n (by decide : 16 > 0))
        rw [Nat.toDigits_of_base_le (by decide) (Nat.le_of_not_lt h), List.append_assoc,
          ih (n / 16) (Nat.div_lt_self (by omega) (by decide))]
        simp only [List.singleton_append, readQuoted, hend, if_false, hvalue, Nat.div_add_mod]

/-- One character is read back from its escape. -/
theorem readQuoted_escapeChar (c : Char) (cs : List Char) :
    readQuoted none (escapeChar c ++ cs) =
      (readQuoted none cs).map fun (value, rest) ↦ (c :: value, rest) := by
  unfold escapeChar
  split
  case isTrue h => rcases h with rfl | rfl <;> rfl
  split
  case isTrue h => subst h; rfl
  split
  case isTrue h => subst h; rfl
  split
  case isTrue h => subst h; rfl
  split
  case isTrue h => subst h; rfl
  split
  · simp [readQuoted, readQuoted_toDigits, Char.ofNat_toNat]
  · next h _ _ _ _ _ =>
      obtain ⟨hquote, hslash⟩ := not_or.mp h
      simp [readQuoted, hslash]

theorem readQuoted_flatMap (value cs : List Char) :
    readQuoted none (value.flatMap escapeChar ++ '"' :: cs) = some (value, cs) := by
  induction value with
  | nil => simp [readQuoted]
  | cons c value ih =>
      rw [List.flatMap_cons, List.append_assoc, readQuoted_escapeChar, ih]
      rfl

/-! ## Type parameters -/

/-- The characters of one type parameter that has been read up to `e`, and what follows. -/
def readParamText (e : Enclosure) : List Char → List Char × List Char
  | [] => ([], [])
  | c :: cs =>
    if e.endsAt c then ([], c :: cs)
    else
      let (text, rest) := readParamText (e.step c) cs
      (c :: text, rest)

theorem readParamText_append {e : Enclosure} {text cs : List Char} (h : isClosedFrom e text)
    (hcs : ∀ c ∈ cs.head?, Enclosure.outermost.endsAt c) :
    readParamText e (text ++ cs) = (text, cs) := by
  induction text generalizing e with
  | nil =>
      obtain rfl : e = .outermost := eq_of_beq h
      cases cs with
      | nil => rfl
      | cons c rest => simp [readParamText, hcs c rfl]
  | cons c text ih =>
      obtain ⟨hend, hrest⟩ := Bool.and_eq_true_iff.mp h
      rw [Bool.not_eq_true'] at hend
      simp [readParamText, hend, ih hrest]

theorem length_readParamText_le (e : Enclosure) (cs : List Char) :
    (readParamText e cs).2.length ≤ cs.length := by
  induction cs generalizing e with
  | nil => exact Nat.le_refl 0
  | cons c cs ih =>
      rw [readParamText]
      split
      · exact Nat.le_refl _
      · exact Nat.le_succ_of_le (ih (e.step c))

/-- Type parameters behind the opening angle. -/
def readParamTexts (cs : List Char) : Option (List String × List Char) :=
  let text := String.ofList (readParamText .outermost cs).1
  match _hrest : (readParamText .outermost cs).2 with
  | '>' :: rest => some ([text], rest)
  | ',' :: ' ' :: rest => (readParamTexts rest).map fun r ↦ (text :: r.1, r.2)
  | _ => none
termination_by cs.length
decreasing_by
  have hle := length_readParamText_le .outermost cs
  rw [_hrest, List.length_cons, List.length_cons] at hle
  omega

theorem readParamTexts_append {texts : List String} (hne : texts ≠ [])
    (h : ∀ text ∈ texts, isClosed text) (cs : List Char) :
    readParamTexts ((", ".intercalate texts).toList ++ '>' :: cs) = some (texts, cs) := by
  induction texts with
  | nil => exact absurd rfl hne
  | cons text texts ih =>
      have htext := h text List.mem_cons_self
      cases texts with
      | nil =>
          rw [String.intercalate_singleton, readParamTexts,
            readParamText_append htext fun c hc ↦ by rw [← Option.some.inj hc]; rfl]
          simp
      | cons next texts =>
          rw [String.intercalate_cons_cons, String.toList_append, String.toList_append,
            List.append_assoc, List.append_assoc, readParamTexts,
            readParamText_append htext fun c hc ↦ by rw [← Option.some.inj hc]; rfl]
          change (readParamTexts ((", ".intercalate (next :: texts)).toList ++ '>' :: cs)).map _ = _
          rw [ih (List.cons_ne_nil _ _) fun t ht ↦ h t (List.mem_cons_of_mem _ ht)]
          simp

def readTypeParams : List Char → Option (List String × List Char)
  | '<' :: cs => readParamTexts cs
  | cs => some ([], cs)

/-- A list of type parameters is read back, where no angle follows an empty one. -/
theorem reads_readTypeParams {texts : List String} (h : ∀ text ∈ texts, isClosed text) :
    Reads readTypeParams (angled texts) texts ["("] := by
  intro cs hcs
  cases texts with
  | nil =>
      rcases hcs with rfl | ⟨word, hword, rest, rfl⟩
      · rfl
      · obtain rfl := List.mem_singleton.mp hword
        rfl
  | cons text texts =>
      have hread := readParamTexts_append (List.cons_ne_nil text texts) h cs
      simpa [angled, readTypeParams] using hread

end PluginSurface
