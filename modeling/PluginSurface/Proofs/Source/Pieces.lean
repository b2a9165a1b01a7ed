import Mathlib.Algebra.BigOperators.Group.List.Basic
import Mathlib.Data.List.Chain
import PluginSurface.Proofs.Source.Boundaries
import PluginSurface.Proofs.Ty.Reading

/-!
# Texts made of tokens

A printed text is a list of pieces, each of which is one token as it is written, maybe behind a
blank. Scanning such a text gives these tokens back, unless one piece runs into the next.

Main statement: `Lexed.ofSource_written`.
-/

namespace PluginSurface

open Text

/-- A token of a printed text, and whether a blank stands before it. -/
structure Piece where
  blank : Bool
  kind : TokenKind
  text : String
deriving DecidableEq, Repr

namespace Piece

abbrev word (blank : Bool) (text : String) : Piece := ⟨blank, .word, text⟩

abbrev mark (blank : Bool) (text : String) : Piece := ⟨blank, .mark, text⟩

/-- Double quotes, unless the value holds one. -/
def quoteMark (value : String) : Char := if value.toList.contains '"' then '\'' else '"'

def written (p : Piece) : List Char :=
  match p.kind with
  | .string => quoteMark p.text :: p.text.toList ++ [quoteMark p.text]
  | _ => p.text.toList

def chars (p : Piece) : List Char := (if p.blank then [' '] else []) ++ p.written

def start (p : Piece) (offset : Nat) : Nat := if p.blank then offset + 1 else offset

def stop (p : Piece) (offset : Nat) : Nat := p.start offset + byteCount p.written

/-- The token that is read from the piece where the text before it has `offset` bytes. -/
def token (p : Piece) (offset : Nat) : Token :=
  ⟨p.kind, p.text, ⟨p.start offset, p.stop offset⟩, false⟩

/-- The tokens that are read from the pieces behind a text of `offset` bytes. -/
def tokensFrom (offset : Nat) : List Piece → List Token
  | [] => []
  | p :: ps => p.token offset :: tokensFrom (p.stop offset) ps

def stopOf (offset : Nat) (ps : List Piece) : Nat := ps.foldl (fun n p ↦ p.stop n) offset

def textOf (ps : List Piece) : String := String.ofList (ps.flatMap chars)

/-- The parts with the separator between them. -/
def joined (separator : Piece) : List (List Piece) → List Piece
  | [] => []
  | ps :: more => ps ++ more.flatMap (separator :: ·)

/-- The pieces in parentheses. -/
def group (blank : Bool) (ps : List Piece) : List Piece :=
  mark blank "(" :: (ps ++ [mark false ")"])

@[simp] theorem tokensFrom_nil (offset : Nat) : tokensFrom offset [] = [] := rfl

@[simp] theorem tokensFrom_cons (offset : Nat) (p : Piece) (ps : List Piece) :
    tokensFrom offset (p :: ps) = p.token offset :: tokensFrom (p.stop offset) ps := rfl

@[simp] theorem tokensFrom_append (offset : Nat) (ps qs : List Piece) :
    tokensFrom offset (ps ++ qs) = tokensFrom offset ps ++ tokensFrom (stopOf offset ps) qs := by
  induction ps generalizing offset with
  | nil => rfl
  | cons p ps ih => simp [ih, stopOf]

theorem textOf_append (ps qs : List Piece) : textOf (ps ++ qs) = textOf ps ++ textOf qs := by
  simp [textOf]

/-! ## Spelling -/

/-- Marks that no character behind them can make longer. -/
def plainMarks : List String := ["(", ")", "[", "]", "<", ">", ",", ":", ";", "|", "&", "=>"]

/-- Marks that another mark behind them can make longer. -/
def openMarks : List String := ["=", "?", "."]

/-- Whether the piece is a name, a value in quotes that needs no backslash, or a mark. -/
def isSpelled (p : Piece) : Bool :=
  match p.kind with
  | .word => isName p.text
  | .string => p.text.toList.all fun c ↦ c != '\\' && c != '\n' && c != quoteMark p.text
  | .mark => plainMarks.contains p.text || openMarks.contains p.text
  | _ => false

/-- Whether the first piece ends where the second begins. -/
def isBeside (p q : Piece) : Bool :=
  match p.kind with
  | .word => q.blank || q.kind == .mark
  | .mark => q.blank || plainMarks.contains p.text || (p.text == "." && q.kind == .word)
  | _ => true

end Piece

/-! ## Characters -/

theorem mem_codePoints_of_inRanges {n : Nat} {ranges : List (Nat × Nat)}
    (h : inRanges n ranges = true) :
    n ∈ ranges.flatMap fun r ↦ List.range' r.1 (r.2 + 1 - r.1) := by
  induction ranges with
  | nil => cases h
  | cons r ranges ih =>
      obtain ⟨lo, hi⟩ := r
      rw [inRanges] at h
      rw [List.flatMap_cons, List.mem_append]
      split at h
      · cases h
      rcases Bool.or_eq_true_iff.mp h with h | h
      · refine .inl (List.mem_range'_1.mpr ?_)
        have hle := of_decide_eq_true h
        omega
      · exact .inr (ih h)

/-- What no blank satisfies is known from the finitely many blanks. -/
theorem eq_false_of_isBlank {p : Char → Bool}
    (hp : ∀ n ∈ blankRanges.flatMap fun r ↦ List.range' r.1 (r.2 + 1 - r.1),
      p (Char.ofNat n) = false) {c : Char} (h : isBlank c = true) : p c = false := by
  have hc := hp _ (mem_codePoints_of_inRanges h)
  rwa [Char.ofNat_toNat] at hc

theorem isBlank_of_isNameStart {c : Char} (h : isNameStart c = true) : isBlank c = false := by
  refine Bool.eq_false_iff.mpr fun hblank ↦ ?_
  rw [eq_false_of_isBlank (p := isNameStart) (by decide +kernel) hblank] at h
  cases h

namespace Piece

open Scan

/-- Whether the character begins a mark, whatever stands before and behind it, a point apart. -/
def startsMark (c : Char) : Bool :=
  !isNamePart c && !c.isDigit && !isBlank c && !(['#', '"', '\'', '`', '/'].contains c)

theorem head?_mark {text : String} (h : plainMarks.contains text || openMarks.contains text) :
    ∃ c rest, text.toList = c :: rest ∧ startsMark c := by
  have hall : ∀ text ∈ plainMarks ++ openMarks, text.toList.head?.any startsMark := by
    decide
  rw [Bool.or_eq_true, List.contains_iff_mem, List.contains_iff_mem, ← List.mem_append] at h
  have hhead := hall text h
  cases hlist : text.toList with
  | nil => simp [hlist] at hhead
  | cons c rest => exact ⟨c, rest, rfl, by simpa [hlist] using hhead⟩

/-- A piece begins with a character that is neither blank nor a slash. -/
theorem written_eq_cons {p : Piece} (h : p.isSpelled) :
    ∃ c rest, p.written = c :: rest ∧ isBlank c = false ∧ c ≠ '/' := by
  obtain ⟨blank, kind, text⟩ := p
  cases kind with
  | word =>
      obtain ⟨c, rest, hlist, hc, -⟩ := isName_iff.mp h
      refine ⟨c, rest, hlist, isBlank_of_isNameStart hc, ?_⟩
      rintro rfl
      revert hc
      decide
  | string =>
      refine ⟨quoteMark text, _, rfl, ?_⟩
      unfold quoteMark
      split <;> decide
  | mark =>
      obtain ⟨c, rest, hlist, hc⟩ := head?_mark h
      refine ⟨c, rest, hlist, ?_⟩
      simp only [startsMark, Bool.and_eq_true, Bool.not_eq_true'] at hc
      refine ⟨hc.1.2, ?_⟩
      rintro rfl
      exact absurd hc.2 (by decide)
  | privateName | number | template | regex | finish => cases h

/-! ## Scanning -/

theorem gap_of_not_blank (size : Nat) (g : Gap) (offset : Nat) {c : Char} (rest : List Char)
    (hblank : isBlank c = false) (hslash : c ≠ '/') :
    gap size .between g offset (c :: rest) = .ok (g, ⟨offset, c :: rest⟩) := by
  unfold gap
  split <;> simp_all

/-- The gap before a piece is a blank or nothing. -/
theorem gap_chars {p : Piece} (h : p.isSpelled) (size : Nat) (directives : List String)
    (offset : Nat) (rest : List Char) :
    gap size .between ⟨false, directives⟩ offset (p.chars ++ rest) =
      .ok (⟨false, directives⟩, ⟨p.start offset, p.written ++ rest⟩) := by
  obtain ⟨c, tail, hwritten, hblank, hslash⟩ := written_eq_cons h
  have hplain := fun offset ↦
    gap_of_not_blank size ⟨false, directives⟩ offset (tail ++ rest) hblank hslash
  cases hb : p.blank with
  | false => simpa [chars, start, hb, hwritten] using hplain offset
  | true =>
      simp only [chars, start, hb, hwritten, if_true, List.cons_append]
      rw [gap]
      · exact hplain (offset + 1)
      · simp
      · simp

/-- Characters that stand for themselves are read one after the other. -/
theorem stringTail_plain {quote : Char} {plain : List Char}
    (h : ∀ c ∈ plain, c ≠ '\\' ∧ c ≠ '\n' ∧ c ≠ quote) (offset : Nat)
    (rest : List Char) : stringTail quote offset (plain ++ rest) =
      (stringTail quote (offset + byteCount plain) rest).map fun (value, here) =>
        (plain ++ value, here) := by
  induction plain generalizing offset with
  | nil => cases h : stringTail quote offset rest <;> simp [h, Except.map]
  | cons c plain ih =>
      obtain ⟨⟨hslash, hline, hc⟩, hplain⟩ := List.forall_mem_cons.mp h
      rw [List.cons_append, stringTail, if_neg hc, if_neg hline, ih hplain, byteCount_cons,
        Nat.add_assoc]
      · cases stringTail quote (offset + (c.utf8Size + byteCount plain)) rest <;> rfl
      · simp [hslash]
      · simp [hslash]

theorem stringTail_append {quote : Char} {value : List Char}
    (h : ∀ c ∈ value, c ≠ '\\' ∧ c ≠ '\n' ∧ c ≠ quote) (hquote : quote ≠ '\\')
    (offset : Nat) (rest : List Char) :
    stringTail quote offset (value ++ quote :: rest) =
      .ok (value, ⟨offset + byteCount value + quote.utf8Size, rest⟩) := by
  rw [stringTail_plain h, stringTail, if_pos rfl]
  · simp [Except.map]
  · simp [hquote]
  · simp [hquote]

theorem lexeme_of_startsMark (size : Nat) (last : Option Token) (offset : Nat) {c : Char}
    {rest : List Char} (hc : startsMark c)
    (hdot : c = '.' → rest.head?.any Char.isDigit = false) :
    lexeme size last offset c rest =
      .ok (.plain .mark offset ((c :: rest).take (markLength (c :: rest)))
        ((c :: rest).drop (markLength (c :: rest)))) := by
  simp only [startsMark, Bool.and_eq_true, Bool.not_eq_true', List.contains_eq_mem,
    decide_eq_false_iff_not, List.mem_cons, List.not_mem_nil, or_false, not_or] at hc
  obtain ⟨⟨⟨hpart, hdigit⟩, -⟩, hhash, hdouble, hsingle, htick, hslash⟩ := hc
  have hname : isNameStart c = false :=
    Bool.eq_false_iff.mpr fun h ↦ Bool.eq_false_iff.mp hpart (isNamePart_of_isNameStart h)
  have hpoint : (c == '.' && rest.head?.any Char.isDigit) = false := by
    by_cases h : c = '.'
    · simp [hdot h]
    · simp [h]
  simp [lexeme, hname, hdigit, hhash, hdouble, hsingle, htick, hslash, hpoint]

theorem markLength_of_plain {text : String} (h : text ∈ plainMarks) (rest : List Char) :
    markLength (text.toList ++ rest) = text.length := by
  simp only [plainMarks, List.mem_cons, List.not_mem_nil, or_false] at h
  rcases h with rfl | rfl | rfl | rfl | rfl | rfl | rfl | rfl | rfl | rfl | rfl | rfl <;> rfl

theorem markLength_of_open {text : String} (h : text ∈ openMarks) {rest : List Char}
    (hrest : ∀ c ∈ rest.head?, c = ' ' ∨ text = "." ∧ isNameStart c) :
    markLength (text.toList ++ rest) = text.length := by
  have hspace (tail : List Char) : ∀ text ∈ openMarks, markLength (text.toList ++ ' ' :: tail) =
      text.length := by
    simp only [openMarks, List.mem_cons, List.not_mem_nil, or_false]
    rintro _ (rfl | rfl | rfl) <;> rfl
  cases rest with
  | nil =>
      clear hrest
      revert text
      decide
  | cons c tail =>
      rcases hrest c rfl with rfl | ⟨rfl, hc⟩
      · exact hspace tail text h
      · have hne : c ≠ '.' := by
          rintro rfl
          revert hc
          decide
        change markLength ('.' :: c :: tail) = 1
        unfold markLength
        split <;> simp_all

section

variable (size : Nat) (last : Option Token) (offset : Nat) {text : String} {c : Char}
  {rest more : List Char}

theorem lexeme_word (htext : isName text) (hmore : ∀ c ∈ more.head?, isNamePart c = false)
    (hrest : text.toList ++ more = c :: rest) :
    lexeme size last offset c rest =
      .ok ⟨.word, text, ⟨offset + byteCount text.toList, more⟩⟩ := by
  obtain ⟨d, front, hlist, hd, hfront⟩ := isName_iff.mp htext
  obtain ⟨htake, hdrop⟩ := takeWhile_append_of_all hfront hmore
  rw [hlist, List.cons_append, List.cons.injEq] at hrest
  obtain ⟨rfl, rfl⟩ := hrest
  rw [lexeme, if_pos hd, htake, hdrop, ← hlist, Lexeme.plain, String.ofList_toList]

theorem lexeme_string (htext : ∀ c ∈ text.toList, c ≠ '\\' ∧ c ≠ '\n' ∧
    c ≠ quoteMark text)
    (hrest : quoteMark text :: text.toList ++ quoteMark text :: more = c :: rest) :
    lexeme size last offset c rest =
      .ok ⟨.string, text,
        ⟨offset + byteCount (quoteMark text :: text.toList ++ [quoteMark text]), more⟩⟩ := by
  obtain ⟨rfl, rfl⟩ := List.cons.inj hrest
  have hquote : quoteMark text = '"' ∨ quoteMark text = '\'' := by
    unfold quoteMark
    split <;> simp
  have hname : isNameStart (quoteMark text) = false := by
    rcases hquote with h | h <;> (rw [h]; decide)
  have htail := stringTail_append htext (by rcases hquote with h | h <;> simp [h]) (offset + 1) more
  rcases hquote with h | h
  all_goals
    rw [h] at htail hname ⊢
    simp [lexeme, htail, hname, Nat.add_assoc]
    rfl

theorem lexeme_mark (htext : plainMarks.contains text || openMarks.contains text)
    (hmore : text ∈ openMarks → ∀ c ∈ more.head?, c = ' ' ∨ text = "." ∧ isNameStart c)
    (hrest : text.toList ++ more = c :: rest) :
    lexeme size last offset c rest =
      .ok ⟨.mark, text, ⟨offset + byteCount text.toList, more⟩⟩ := by
  have hlength : markLength (text.toList ++ more) = text.toList.length := by
    rcases Bool.or_eq_true_iff.mp htext with h | h
    · exact markLength_of_plain (List.contains_iff_mem.mp h) more
    · have h := List.contains_iff_mem.mp h
      exact markLength_of_open h (hmore h)
  obtain ⟨d, tail, hlist, hd⟩ := head?_mark htext
  have hpoint : d = '.' → (tail ++ more).head?.any Char.isDigit = false := by
    rintro rfl
    have hall : ∀ text ∈ plainMarks ++ openMarks, text.toList.head? = some '.' →
        text = "." := by
      decide
    rw [Bool.or_eq_true, List.contains_iff_mem, List.contains_iff_mem, ← List.mem_append] at htext
    obtain rfl := hall text htext (by rw [hlist]; rfl)
    obtain ⟨-, rfl⟩ := List.cons.inj hlist
    have hmore := hmore (by decide)
    cases more with
    | nil => rfl
    | cons e more =>
        rcases hmore e rfl with rfl | ⟨-, he⟩
        · rfl
        · refine Bool.eq_false_iff.mpr fun hdigit ↦ ?_
          rw [Ty.isNameStart_of_isDigit hdigit] at he
          cases he
  rw [hlist, List.cons_append, List.cons.injEq] at hrest
  obtain ⟨rfl, rfl⟩ := hrest
  rw [lexeme_of_startsMark size last offset hd hpoint, ← List.cons_append, ← hlist, hlength,
    List.take_left, List.drop_left, Lexeme.plain, String.ofList_toList]

end

section

variable {p : Piece} {ps : List Piece}

/-- With what the text goes on behind a piece that the next one is beside. -/
theorem head?_rest (hps : ∀ q ∈ ps, q.isSpelled) (hbeside : ∀ q ∈ ps.head?, p.isBeside q) :
    ∀ c ∈ (ps.flatMap chars).head?, c = ' ' ∨
      ∃ q : Piece, q.blank = false ∧ p.isBeside q ∧
        (q.kind = .mark ∧ startsMark c ∨ q.kind = .word ∧ isNameStart c ∨
          q.kind = .string) := by
  cases ps with
  | nil => simp
  | cons q qs =>
      have hq := hps q List.mem_cons_self
      obtain ⟨c, rest, hwritten, -⟩ := written_eq_cons hq
      intro d hd
      cases hblank : q.blank with
      | true =>
          simp [chars, hblank] at hd
          exact .inl hd.symm
      | false =>
          obtain rfl : c = d := by simpa [chars, hblank, hwritten] using hd
          refine .inr ⟨q, hblank, hbeside q rfl, ?_⟩
          obtain ⟨blank, kind, text⟩ := q
          cases kind with
          | mark =>
              obtain ⟨e, tail, hlist, he⟩ := head?_mark hq
              obtain ⟨rfl, -⟩ := List.cons.inj (hlist.symm.trans hwritten)
              exact .inl ⟨rfl, he⟩
          | word =>
              obtain ⟨e, tail, hlist, he, -⟩ := isName_iff.mp hq
              obtain ⟨rfl, -⟩ := List.cons.inj (hlist.symm.trans hwritten)
              exact .inr (.inl ⟨rfl, he⟩)
          | string => exact .inr (.inr rfl)
          | privateName | number | template | regex | finish => cases hq

/-- A piece is read as its token where the next piece is beside it. -/
theorem lexeme_written (hp : p.isSpelled) (hps : ∀ q ∈ ps, q.isSpelled)
    (hbeside : ∀ q ∈ ps.head?, p.isBeside q) (size : Nat) (last : Option Token) (offset : Nat)
    {c : Char} {rest : List Char} (hrest : p.written ++ ps.flatMap chars = c :: rest) :
    lexeme size last offset c rest =
      .ok ⟨p.kind, p.text, ⟨offset + byteCount p.written, ps.flatMap chars⟩⟩ := by
  have hhead := head?_rest hps hbeside
  obtain ⟨blank, kind, text⟩ := p
  cases kind with
  | word =>
      refine lexeme_word size last offset hp (fun d hd ↦ ?_) hrest
      rcases hhead d hd with rfl | ⟨q, hblank, hq, ⟨-, hd⟩ | ⟨hkind, -⟩ | hkind⟩
      · decide
      · simp only [startsMark, Bool.and_eq_true, Bool.not_eq_true'] at hd
        exact hd.1.1.1
      · simp [isBeside, hblank, hkind] at hq
      · simp [isBeside, hblank, hkind] at hq
  | string =>
      simp only [isSpelled, List.all_eq_true, Bool.and_eq_true, bne_iff_ne, ne_eq] at hp
      refine lexeme_string size last offset (fun c hc ↦ and_assoc.mp (hp c hc)) ?_
      rw [← hrest, written, List.append_assoc]
      rfl
  | mark =>
      refine lexeme_mark size last offset hp (fun htext d hd ↦ ?_) hrest
      have hplain : plainMarks.contains text = false := by
        have hall : ∀ text ∈ openMarks, plainMarks.contains text = false := by decide
        exact hall text htext
      rcases hhead d hd with rfl | ⟨q, hblank, hq, hkind⟩
      · exact .inl rfl
      · simp only [isBeside, hblank, hplain, Bool.false_or, Bool.and_eq_true, beq_iff_eq] at hq
        rw [hq.2] at hkind
        exact .inr ⟨hq.1, by simpa using hkind⟩
  | privateName | number | template | regex | finish => cases hp

/-! ## Whole texts -/

theorem chars_length_pos (hp : p.isSpelled) : 0 < p.chars.length := by
  obtain ⟨c, rest, hwritten, -⟩ := written_eq_cons hp
  rw [chars, hwritten, List.length_append, List.length_cons]
  omega

/-- Each round of the scan takes one piece. -/
theorem tokens_written (hps : ∀ p ∈ ps, p.isSpelled) (hbeside : ps.IsChain (isBeside · ·))
    (size : Nat) {rounds : List Char} (hrounds : ps.length ≤ rounds.length) (found : List Token)
    (directives : List String) (offset : Nat) :
    tokens size rounds found directives ⟨offset, ps.flatMap chars⟩ =
      .ok (found.reverse ++ tokensFrom offset ps, directives.reverse) := by
  induction ps generalizing rounds found offset with
  | nil => rw [List.flatMap_nil, tokens_of_ahead_eq_nil rfl, tokensFrom_nil, List.append_nil]
  | cons p ps ih =>
      obtain ⟨hp, hps⟩ := List.forall_mem_cons.mp hps
      have hnext : ∀ q ∈ ps.head?, p.isBeside q := fun q hq ↦ hbeside.rel_head? hq
      obtain ⟨r, rounds, rfl⟩ := List.exists_cons_of_length_pos (Nat.lt_of_lt_of_le
        (Nat.succ_pos _) hrounds)
      obtain ⟨c, rest, hwritten, -⟩ := written_eq_cons hp
      rw [List.flatMap_cons, tokens, gap_chars hp]
      simp only [hwritten, List.cons_append]
      rw [lexeme_written hp hps hnext size _ _ (by rw [hwritten, List.cons_append])]
      simp only
      rw [ih hps hbeside.tail (Nat.le_of_succ_le_succ hrounds)]
      simp [token, stop]

end

end Piece

/-- The text of spelled pieces that stand beside each other is read as their tokens. -/
theorem Lexed.ofSource_written {ps : List Piece} (hps : ∀ p ∈ ps, p.isSpelled)
    (hbeside : ps.IsChain (Piece.isBeside · ·)) :
    Lexed.ofSource (Piece.textOf ps) =
      .ok ⟨Piece.tokensFrom 0 ps, [], (Piece.textOf ps).utf8ByteSize⟩ := by
  have hlength : ps.length ≤ (ps.flatMap Piece.chars).length := by
    rw [List.length_flatMap, ← List.length_map (f := fun p ↦ p.chars.length)]
    refine List.length_le_sum_of_one_le _ fun n hn ↦ ?_
    obtain ⟨p, hp, rfl⟩ := List.mem_map.mp hn
    exact Piece.chars_length_pos (hps p hp)
  unfold Lexed.ofSource Piece.textOf
  simp only [String.toList_ofList]
  rw [Piece.tokens_written hps hbeside _ hlength]
  rfl

end PluginSurface
