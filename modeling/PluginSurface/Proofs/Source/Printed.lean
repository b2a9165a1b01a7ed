import PluginSurface.Proofs.Source.Pieces
import PluginSurface.Proofs.Syntax.Layout

/-!
# Words and marks in any layout

A text of words and marks, with any blanks before each of them, is read as the tokens that it is
made of, unless a word or an equals sign runs into what follows it. A line feed among the blanks is
seen in the token behind it.

Main statement: `Lexed.ofSource_printed`.
-/

namespace PluginSurface

open Text

/-- A word or a mark and the blanks before it. -/
structure Printed where
  blanks : List Char
  kind : TokenKind
  text : String
deriving DecidableEq, Repr

namespace Printed

open Scan

abbrev word (blanks text : String) : Printed := ⟨blanks.toList, .word, text⟩

abbrev mark (blanks text : String) : Printed := ⟨blanks.toList, .mark, text⟩

def chars (p : Printed) : List Char := p.blanks ++ p.text.toList

def stop (p : Printed) (offset : Nat) : Nat := offset + byteCount p.blanks + byteCount p.text.toList

/-- The token that is read where the text before the blanks has `offset` bytes. -/
def token (p : Printed) (offset : Nat) : Token :=
  ⟨p.kind, p.text, ⟨offset + byteCount p.blanks, p.stop offset⟩, p.blanks.contains '\n'⟩

/-- The tokens that are read behind a text of `offset` bytes. -/
def tokensFrom (offset : Nat) : List Printed → List Token
  | [] => []
  | p :: ps => p.token offset :: tokensFrom (p.stop offset) ps

def stopOf (offset : Nat) (ps : List Printed) : Nat := ps.foldl (fun n p ↦ p.stop n) offset

def textOf (ps : List Printed) : String := String.ofList (ps.flatMap chars)

@[simp] theorem tokensFrom_nil (offset : Nat) : tokensFrom offset [] = [] := rfl

@[simp] theorem tokensFrom_cons (offset : Nat) (p : Printed) (ps : List Printed) :
    tokensFrom offset (p :: ps) = p.token offset :: tokensFrom (p.stop offset) ps := rfl

@[simp] theorem tokensFrom_append (offset : Nat) (ps qs : List Printed) :
    tokensFrom offset (ps ++ qs) = tokensFrom offset ps ++ tokensFrom (stopOf offset ps) qs := by
  induction ps generalizing offset with
  | nil => rfl
  | cons p ps ih => simp [ih, stopOf]

@[simp] theorem length_tokensFrom (offset : Nat) (ps : List Printed) :
    (tokensFrom offset ps).length = ps.length := by
  induction ps generalizing offset with
  | nil => rfl
  | cons p ps ih => simp [ih]

/-- Whether the piece is a name, or a mark of one character that only an equals sign behind it can
make longer, behind blanks. -/
def isSpelled (p : Printed) : Bool :=
  p.blanks.all isBlank &&
    match p.kind with
    | .word => isName p.text
    | .mark =>
      match p.text.toList with
      | [c] => Piece.startsMark c && c != '.' && c != '?'
      | _ => false
    | _ => false

/-- Whether the first piece ends where the second begins. -/
def isBeside (p q : Printed) : Bool :=
  !q.blanks.isEmpty ||
    match p.kind with
    | .word => q.kind == .mark
    | _ => p.text != "="

/-- The pieces are read as their tokens, also where others follow. -/
structure Whole (ps : List Printed) : Prop where
  spelled : ∀ p ∈ ps, p.isSpelled
  beside : ps.IsChain (isBeside · ·)
  ends : ∀ p ∈ ps.getLast?, p.kind = .mark ∧ p.text ≠ "="

section

variable {ps qs : List Printed}

theorem whole_nil : Whole [] := ⟨nofun, .nil, nofun⟩

theorem isSpelled_word {name : String} (blanks : String) (hblanks : blanks.toList.all isBlank)
    (hname : isName name) : (word blanks name).isSpelled :=
  Bool.and_eq_true_iff.mpr ⟨hblanks, hname⟩

theorem Whole.cons {p q : Printed} (h : Whole (q :: qs)) (hp : p.isSpelled)
    (hbeside : p.isBeside q) : Whole (p :: q :: qs) where
  spelled := List.forall_mem_cons.mpr ⟨hp, h.spelled⟩
  beside := List.isChain_cons_cons.mpr ⟨hbeside, h.beside⟩
  ends r hr := h.ends r (by rwa [List.getLast?_cons_cons] at hr)

theorem Whole.append (hps : Whole ps) (hqs : Whole qs) : Whole (ps ++ qs) where
  spelled p hp := (List.mem_append.mp hp).elim (hps.spelled p) (hqs.spelled p)
  beside := by
    refine List.isChain_append.mpr ⟨hps.beside, hqs.beside, fun p hp q _ ↦ ?_⟩
    obtain ⟨hkind, htext⟩ := hps.ends p hp
    simp [isBeside, hkind, htext]
  ends p hp := by
    rw [List.getLast?_append] at hp
    cases hlast : qs.getLast? with
    | none => exact hps.ends p (by simpa [hlast] using hp)
    | some q => exact hqs.ends p (by simpa [hlast] using hp)

theorem whole_flatMap {α : Type} {f : α → List Printed} {as : List α}
    (h : ∀ a ∈ as, Whole (f a)) : Whole (as.flatMap f) := by
  induction as with
  | nil => exact whole_nil
  | cons a as ih =>
      obtain ⟨ha, has⟩ := List.forall_mem_cons.mp h
      exact ha.append (ih has)

theorem textOf_append (ps qs : List Printed) : textOf (ps ++ qs) = textOf ps ++ textOf qs := by
  simp [textOf]

theorem textOf_flatMap {α : Type} (f : α → List Printed) (as : List α) :
    textOf (as.flatMap f) = String.join (as.map fun a ↦ textOf (f a)) := by
  induction as with
  | nil => rfl
  | cons a as ih => rw [List.flatMap_cons, textOf_append, ih, List.map_cons, String.join_cons]

end

/-! ## Scanning -/

section

variable {p : Printed} {ps : List Printed}

/-- What is spelled begins, behind its blanks, with a character that is neither
blank nor a slash. -/
theorem text_eq_cons (h : p.isSpelled) :
    ∃ c rest, p.text.toList = c :: rest ∧ isBlank c = false ∧ c ≠ '/' ∧
      (p.kind = .mark → isNamePart c = false) := by
  obtain ⟨blanks, kind, text⟩ := p
  have h := (Bool.and_eq_true_iff.mp h).2
  cases kind with
  | word =>
      obtain ⟨c, rest, hlist, hc, -⟩ := isName_iff.mp h
      refine ⟨c, rest, hlist, isBlank_of_isNameStart hc, ?_, nofun⟩
      rintro rfl
      revert hc
      decide
  | mark =>
      dsimp only at h
      split at h
      next c hlist =>
        simp only [Piece.startsMark, Bool.and_eq_true, Bool.not_eq_true'] at h
        refine ⟨c, [], hlist, h.1.1.1.2, ?_, fun _ ↦ h.1.1.1.1.1⟩
        rintro rfl
        exact absurd h.1.1.2 (by decide)
      · cases h
  | privateName | string | number | template | regex | finish => cases h

theorem passes_gap {blanks : List Char} (hblanks : ∀ c ∈ blanks, isBlank c) (g : Gap) :
    Passes .between g blanks .between { g with newline := g.newline || blanks.contains '\n' } := by
  induction blanks generalizing g with
  | nil =>
      rw [List.contains_nil, Bool.or_false]
      exact passes_nil_between
  | cons c blanks ih =>
      obtain ⟨hblank, hblanks⟩ := List.forall_mem_cons.mp hblanks
      have hnewline : (c :: blanks).contains '\n' = (c == '\n' || blanks.contains '\n') := by
        rw [List.contains_cons, Bool.beq_comm]
      rw [hnewline, ← Bool.or_assoc]
      exact passes_blank hblank (ih hblanks _)

theorem gap_chars (h : p.isSpelled) (size offset : Nat) (directives : List String)
    (rest : List Char) :
    gap size .between ⟨false, directives⟩ offset (p.chars ++ rest) =
      .ok (⟨p.blanks.contains '\n', directives⟩,
        ⟨offset + byteCount p.blanks, p.text.toList ++ rest⟩) := by
  have hgap : ∀ c ∈ p.blanks, isBlank c := List.all_eq_true.mp (Bool.and_eq_true_iff.mp h).1
  obtain ⟨c, tail, hlist, hblank, hslash, -⟩ := text_eq_cons h
  rw [chars, List.append_assoc, passes_gap hgap _ size .between offset _ rfl, hlist]
  exact Piece.gap_of_not_blank size _ _ _ hblank hslash

/-- With what the text goes on behind a piece that the next one is beside. -/
theorem head?_rest (hps : ∀ q ∈ ps, q.isSpelled) (hbeside : ∀ q ∈ ps.head?, p.isBeside q) :
    ∀ c ∈ (ps.flatMap chars).head?, isBlank c ∨
      (p.kind = .word → isNamePart c = false) ∧ (p.kind ≠ .word → p.text ≠ "=") := by
  cases ps with
  | nil => nofun
  | cons q qs =>
      have hq := hps q List.mem_cons_self
      have hnext := hbeside q rfl
      obtain ⟨c, rest, hlist, -, -, hmark⟩ := text_eq_cons hq
      intro d hd
      rw [List.flatMap_cons, chars, hlist] at hd
      cases hgap : q.blanks with
      | cons e blanks =>
          obtain rfl : e = d := by simpa [hgap] using hd
          have hblanks := (Bool.and_eq_true_iff.mp hq).1
          rw [hgap] at hblanks
          exact .inl (List.all_eq_true.mp hblanks e List.mem_cons_self)
      | nil =>
          obtain rfl : c = d := by simpa [hgap] using hd
          simp only [isBeside, hgap, List.isEmpty_nil, Bool.not_true, Bool.false_or] at hnext
          refine .inr ⟨fun hkind ↦ hmark ?_, fun hkind ↦ ?_⟩
          · simpa [hkind] using hnext
          · split at hnext
            next heq => exact absurd heq hkind
            · simpa using hnext

theorem lexeme_printed (hp : p.isSpelled) {more : List Char}
    (hmore : ∀ c ∈ more.head?, isBlank c ∨
      (p.kind = .word → isNamePart c = false) ∧ (p.kind ≠ .word → p.text ≠ "="))
    (size : Nat) (last : Option Token) (offset : Nat) {c : Char} {rest : List Char}
    (hrest : p.text.toList ++ more = c :: rest) :
    lexeme size last offset c rest =
      .ok ⟨p.kind, p.text, ⟨offset + byteCount p.text.toList, more⟩⟩ := by
  obtain ⟨blanks, kind, text⟩ := p
  have hp := (Bool.and_eq_true_iff.mp hp).2
  cases kind with
  | word =>
      refine Piece.lexeme_word size last offset hp (fun d hd ↦ ?_) hrest
      rcases hmore d hd with hd | hd
      · exact isNamePart_of_isBlank d hd
      · exact hd.1 rfl
  | mark =>
      dsimp only at hp hrest hmore
      split at hp
      next d hlist =>
        rw [hlist, List.singleton_append] at hrest
        obtain ⟨rfl, rfl⟩ := List.cons.inj hrest
        simp only [Bool.and_eq_true, bne_iff_ne, ne_eq] at hp
        obtain ⟨⟨hd, hpoint⟩, hquestion⟩ := hp
        have hlength : markLength (d :: more) = 1 := by
          unfold markLength
          split
          · exact absurd (List.cons.inj ‹_›).1 hpoint
          next heq =>
            obtain ⟨rfl, rfl⟩ := List.cons.inj heq
            have htext : text = "=" := String.toList_inj.mp hlist
            rcases hmore '>' rfl with hblank | h
            · exact absurd hblank (by decide)
            · exact absurd htext (h.2 nofun)
          all_goals first | rfl | exact absurd (List.cons.inj ‹_›).1 hquestion
        rw [Piece.lexeme_of_startsMark size last offset hd (absurd · hpoint), hlength, hlist,
          Lexeme.plain]
        simp only [List.take_succ_cons, List.take_zero, List.drop_succ_cons, List.drop_zero]
        rw [← hlist, String.ofList_toList]
      · cases hp
  | privateName | string | number | template | regex | finish => cases hp

theorem run_printed (hps : ∀ p ∈ ps, p.isSpelled) (hbeside : ps.IsChain (isBeside · ·))
    (size : Nat) (last : Option Token) (offset : Nat) :
    Run size last [] ⟨offset, ps.flatMap chars⟩ (tokensFrom offset ps) [] := by
  induction ps generalizing last offset with
  | nil => exact .done (g := ⟨false, []⟩) (by rw [List.flatMap_nil, gap])
  | cons p ps ih =>
      obtain ⟨hp, hps⟩ := List.forall_mem_cons.mp hps
      have hgap := gap_chars hp size offset [] (ps.flatMap chars)
      obtain ⟨c, rest, hlist, -⟩ := text_eq_cons hp
      have hlexeme := lexeme_printed hp (head?_rest hps fun q hq ↦ hbeside.rel_head? hq) size last
        (offset + byteCount p.blanks) (by rw [hlist, List.cons_append])
      rw [hlist, List.cons_append] at hgap
      refine .token (g := ⟨p.blanks.contains '\n', []⟩) hgap hlexeme ?_
      exact ih hps hbeside.tail (some (p.token offset)) (p.stop offset)

end

end Printed

/-- The text of whole pieces is read as their tokens. -/
theorem Lexed.ofSource_printed {ps : List Printed} (h : Printed.Whole ps) :
    Lexed.ofSource (Printed.textOf ps) =
      .ok ⟨Printed.tokensFrom 0 ps, [], byteCount (ps.flatMap Printed.chars)⟩ :=
  ofSource_eq_ok.mpr ⟨rfl, Printed.run_printed h.spelled h.beside _ none 0⟩

end PluginSurface
