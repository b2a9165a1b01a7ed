import PluginSurface.Proofs.Source.Pieces
import PluginSurface.Ty.Render

/-!
# Quoted text read as a string literal

The written form of a string is one string literal. The scanner of literals knows the short escapes
and takes any other character behind a backslash for itself, so of an escape by code it drops the
backslash only: the characters that are written by their code are the ones that do not come back.
-/

namespace PluginSurface

namespace Text

/-- The characters that have an escape of their own. -/
def shortEscapes : List Char := ['"', '\\', '\n', '\t', '\r', Char.ofNat 0]

/-- Whether `c` is written by its code. -/
def isCoded (c : Char) : Bool := isHidden c && !shortEscapes.contains c

/-- What a backslash stands before where `c` is written by its code. -/
def spelledCode (c : Char) : List Char := 'u' :: '\x7b' :: (Nat.toDigits 16 c.toNat ++ ['\x7d'])

theorem escapeChar_of_isCoded {c : Char} (h : isCoded c) :
    escapeChar c = '\\' :: spelledCode c := by
  simp only [isCoded, shortEscapes, Bool.and_eq_true, Bool.not_eq_true', List.contains_eq_mem,
    decide_eq_false_iff_not, List.mem_cons, List.not_mem_nil, or_false, not_or] at h
  obtain ⟨hhidden, hquote, hslash, hline, htab, hreturn, hzero⟩ := h
  rw [escapeChar, if_neg (not_or.mpr ⟨hquote, hslash⟩), if_neg hline, if_neg htab,
    if_neg hreturn, if_neg hzero, if_pos hhidden]
  rfl

theorem mem_toDigits {n : Nat} {c : Char} (h : c ∈ Nat.toDigits 16 n) :
    ∃ digit < 16, c = digit.digitChar := by
  induction n using Nat.strong_induction_on with
  | _ n ih =>
      by_cases hn : n < 16
      · rw [Nat.toDigits_of_lt_base hn, List.mem_singleton] at h
        exact ⟨n, hn, h⟩
      · rw [Nat.toDigits_of_base_le (by decide) (Nat.le_of_not_lt hn), List.mem_append] at h
        rcases h with h | h
        · exact ih (n / 16) (Nat.div_lt_self (by omega) (by decide)) h
        · exact ⟨n % 16, Nat.mod_lt n (by decide), List.mem_singleton.mp h⟩

/-- No digit ends a literal or begins an escape in it. -/
theorem ne_of_mem_toDigits {n : Nat} {c : Char} (h : c ∈ Nat.toDigits 16 n) :
    c ≠ '\\' ∧ c ≠ '\n' ∧ c ≠ '"' := by
  obtain ⟨digit, hdigit, rfl⟩ := mem_toDigits h
  clear h
  revert digit
  decide

/-- Different strings are written differently. -/
theorem quote_inj {v w : String} : quote v = quote w ↔ v = w := by
  refine ⟨fun h ↦ ?_, congrArg quote⟩
  simp only [quote, ← String.toList_inj, String.toList_ofList, List.cons_append,
    List.cons.injEq, true_and] at h
  have hread := readQuoted_flatMap v.toList []
  rw [h, readQuoted_flatMap, Option.some.injEq, Prod.mk.injEq] at hread
  exact (String.toList_inj.mp hread.1).symm

end Text

namespace Scan

open Text

/-- What is read of the written form of `c`. -/
def readBackChar (c : Char) : List Char := if isCoded c then spelledCode c else [c]

/-- What is read of the written form of `v`. -/
def readBack (v : String) : String := String.ofList (v.toList.flatMap readBackChar)

/-- The written form of one character, read in front of what follows it. -/
theorem stringTail_escapeChar (c : Char) (offset : Nat) (rest : List Char) :
    stringTail '"' offset (escapeChar c ++ rest) =
      (stringTail '"' (offset + byteCount (escapeChar c)) rest).map fun (value, here) =>
        (readBackChar c ++ value, here) := by
  by_cases hcoded : isCoded c
  · have hplain : ∀ d ∈ '\x7b' :: (Nat.toDigits 16 c.toNat ++ ['\x7d']),
        d ≠ '\\' ∧ d ≠ '\n' ∧ d ≠ '"' := by
      intro d hd
      rcases List.mem_cons.mp hd with rfl | hd
      · decide
      rcases List.mem_append.mp hd with hd | hd
      · exact ne_of_mem_toDigits hd
      · rw [List.mem_singleton.mp hd]
        decide
    rw [escapeChar_of_isCoded hcoded, readBackChar, if_pos hcoded, spelledCode, List.cons_append,
      List.cons_append, stringTail, Piece.stringTail_plain hplain]
    simp only [byteCount_cons, Nat.add_assoc, show '\\'.utf8Size = 1 from rfl]
    cases stringTail _ _ rest <;> rfl
  · rw [readBackChar, if_neg hcoded]
    unfold escapeChar
    split
    case isTrue h => rcases h with rfl | rfl <;> rfl
    split
    case isTrue h => subst h; rfl
    split
    case isTrue h => subst h; rfl
    split
    case isTrue h => subst h; rfl
    split
    case isTrue h => subst h; rfl
    next hquote hline htab hreturn hzero =>
      have hhidden : isHidden c = false := by
        simpa [isCoded, shortEscapes, not_or.mp hquote, hline, htab, hreturn, hzero] using hcoded
      rw [if_neg (by simp [hhidden])]
      obtain ⟨hquote, hslash⟩ := not_or.mp hquote
      exact Piece.stringTail_plain (List.forall_mem_singleton.mpr
        ⟨hslash, hline, hquote⟩) offset rest

theorem stringTail_flatMap (value : List Char) (offset : Nat) (rest : List Char) :
    stringTail '"' offset (value.flatMap escapeChar ++ '"' :: rest) =
      .ok (value.flatMap readBackChar,
        ⟨offset + byteCount (value.flatMap escapeChar) + 1, rest⟩) := by
  induction value generalizing offset with
  | nil => rfl
  | cons c value ih =>
      rw [List.flatMap_cons, List.append_assoc, stringTail_escapeChar, ih, List.flatMap_cons,
        byteCount_append, Nat.add_assoc offset]
      rfl

/-- A value comes back if and only if none of its characters is written by its code. -/
theorem readBack_eq_iff (v : String) :
    readBack v = v ↔ ∀ c ∈ v.toList, isCoded c = false := by
  have hlist (cs : List Char) :
      cs.flatMap readBackChar = cs ↔ ∀ c ∈ cs, isCoded c = false := by
    induction cs with
    | nil => simp
    | cons c cs ih =>
        rw [List.flatMap_cons, List.forall_mem_cons, ← ih, readBackChar]
        cases hcoded : isCoded c with
        | false => simp
        | true =>
            -- What is read begins with a letter, and no letter is written by its code.
            simp only [if_true, spelledCode, List.cons_append, List.cons.injEq, reduceCtorEq,
              false_and, iff_false, not_and]
            rintro rfl
            exact absurd hcoded (by decide +kernel)
  rw [readBack, ← hlist, ← String.toList_inj, String.toList_ofList]

example : readBack "a\u200b" = "au\x7b200b\x7d" := by decide +kernel

/-- The lexeme that a quoted text is. -/
theorem lexeme_quote (v : String) (size : Nat) (last : Option Token) (offset : Nat) :
    lexeme size last offset '"' (v.toList.flatMap escapeChar ++ ['"']) =
      .ok ⟨.string, readBack v, ⟨offset + byteCount (quote v).toList, []⟩⟩ := by
  have hname : isNameStart '"' = false := by decide
  have hbytes : offset + 1 + byteCount (v.toList.flatMap escapeChar) + 1 =
      offset + byteCount (quote v).toList := by
    simp only [quote, String.toList_ofList, List.cons_append, byteCount_cons, byteCount_append,
      byteCount_nil, show '"'.utf8Size = 1 from rfl]
    omega
  rw [← hbytes]
  simp [lexeme, hname, stringTail_flatMap, readBack]

theorem tokens_quote (v : String) (size : Nat) (round : Char) (rounds : List Char) :
    tokens size (round :: rounds) [] [] ⟨0, (quote v).toList⟩ =
      .ok ([⟨.string, readBack v, ⟨0, (quote v).utf8ByteSize⟩, false⟩], []) := by
  have hlist : (quote v).toList = '"' :: (v.toList.flatMap escapeChar ++ ['"']) := by
    rw [quote, String.toList_ofList, List.cons_append]
  have hgap := Piece.gap_of_not_blank size ⟨false, []⟩ 0 (v.toList.flatMap escapeChar ++ ['"'])
    (show isBlank '"' = false by decide) (by decide)
  rw [tokens]
  simp only [hlist, hgap, List.head?_nil, lexeme_quote]
  rw [tokens_of_ahead_eq_nil rfl, ← hlist, byteCount_toList, Nat.zero_add]
  rfl

end Scan

open Text

/-- The text of a literal type is read as one string literal. Its value is the one that was written,
except that a character written by its code comes back as the letters of its escape; and literal
types with different values have different texts. -/
theorem Lexed.ofSource_quote (v : String) :
    (∃ l, Lexed.ofSource (Ty.literal (.string v)).render = .ok l ∧ l.directives = [] ∧
      l.tokens ++ [l.finish] =
        [⟨.string, Scan.readBack v, ⟨0, (quote v).utf8ByteSize⟩, false⟩,
          Token.finish (quote v).utf8ByteSize]) ∧
    (Scan.readBack v = v ↔ ∀ c ∈ v.toList, isCoded c = false) ∧
    ∀ w, (Ty.literal (.string v)).render = (Ty.literal (.string w)).render ↔ v = w := by
  have hrender (w : String) : (Ty.literal (.string w)).render = quote w := by
    simp only [Ty.render, Literal.render]
  refine ⟨?_, Scan.readBack_eq_iff v, fun w ↦ by rw [hrender, hrender, quote_inj]⟩
  obtain ⟨c, rest, hlist⟩ : ∃ c rest, (quote v).toList = c :: rest :=
    ⟨_, _, String.toList_ofList⟩
  have htokens := Scan.tokens_quote v (quote v).utf8ByteSize c rest
  rw [← hlist] at htokens
  refine ⟨⟨[⟨.string, Scan.readBack v, ⟨0, (quote v).utf8ByteSize⟩, false⟩], [],
    (quote v).utf8ByteSize⟩, ?_, rfl, rfl⟩
  rw [hrender, Lexed.ofSource]
  simp only [htokens]
  rfl

end PluginSurface
