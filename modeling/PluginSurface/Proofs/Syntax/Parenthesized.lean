import PluginSurface.Proofs.Source.Pieces
import PluginSurface.Syntax.Cursor
import PluginSurface.Syntax.Type

/-!
# Types in full parentheses

A plain type is printed with each type directly inside it in parentheses. What is printed falls
apart into its tokens again, and a bracket that is opened in it is closed in it.

Main statement: `TypeExpr.Plain.closed`.
-/

namespace PluginSurface

open Text Piece

/-! ## Plain types -/

/-- An element of a tuple without a label or a mark. -/
def TupleElement.plain (t : TypeExpr) : TupleElement := ⟨none, false, false, t⟩

/-- A parameter with its type and nothing else. -/
def Param.required (name : String) (t : TypeExpr) : Param := ⟨name, [], false, false, some t⟩

namespace TypeExpr

/-- The words that begin a type of their own. -/
def typeWords : List String :=
  Keyword.all.map Keyword.word ++
    ["true", "false", "this", "typeof", "import", "keyof", "unique", "readonly", "infer", "new",
      "abstract"]

/-- The segments of a name that stands for a type. -/
structure IsTypeName (name : List String) : Prop where
  nonempty : name ≠ []
  segments : ∀ segment ∈ name, isName segment
  first : ∀ segment ∈ name.head?, segment ∉ typeWords

/-- Plain types of height `n` at most: words, literals, names and what is made from them by type
arguments, unions, intersections, arrays, tuples, `keyof`, indexed access, conditions and
functions. -/
inductive Plain : Nat → TypeExpr → Prop
  | keyword {n : Nat} (word : Keyword) : Plain n (.keyword word)
  | string {n : Nat} {value : String} (spelled : isSpelled ⟨false, .string, value⟩) :
      Plain n (.literal (.string value))
  | name {n : Nat} {name : List String} (isName : IsTypeName name) : Plain n (.reference name [])
  | reference {n : Nat} {name : List String} {ts : List TypeExpr} (isName : IsTypeName name)
      (args : ∀ t ∈ ts, Plain n t) : Plain (n + 1) (.reference name ts)
  | union {n : Nat} {ts : List TypeExpr} (several : 2 ≤ ts.length)
      (members : ∀ t ∈ ts, Plain n t) : Plain (n + 1) (.union ts)
  | intersection {n : Nat} {ts : List TypeExpr} (several : 2 ≤ ts.length)
      (members : ∀ t ∈ ts, Plain n t) : Plain (n + 1) (.intersection ts)
  | array {n : Nat} {t : TypeExpr} (element : Plain n t) : Plain (n + 1) (.array t)
  | tuple {n : Nat} {ts : List TypeExpr} (elements : ∀ t ∈ ts, Plain n t) :
      Plain (n + 1) (.tuple (ts.map .plain))
  | keyof {n : Nat} {t : TypeExpr} (operand : Plain n t) : Plain (n + 1) (.operator .keyof t)
  | indexed {n : Nat} {t u : TypeExpr} (object : Plain n t) (index : Plain n u) :
      Plain (n + 1) (.indexed t u)
  | conditional {n : Nat} {t u v w : TypeExpr} (check : Plain n t) (bound : Plain n u)
      (yes : Plain n v) (no : Plain n w) : Plain (n + 1) (.conditional t u v w)
  | function {n : Nat} {ps : List (String × TypeExpr)} {t : TypeExpr}
      (names : ∀ p ∈ ps, isName p.1) (params : ∀ p ∈ ps, Plain n p.2) (result : Plain n t) :
      Plain (n + 1) (.function false false ⟨[], ps.map fun p ↦ .required p.1 p.2, some t⟩)

end TypeExpr

/-! ## The printer -/

/-- A dotted name. -/
def Piece.qualified (name : List String) : List Piece :=
  joined (mark false ".") (name.map fun segment ↦ [word false segment])

mutual

/-- The pieces of the type, with each type directly inside it in parentheses. Other types than
plain ones have none. -/
def TypeExpr.pieces : TypeExpr → List Piece
  | .keyword keyword => [word false keyword.word]
  | .literal (.string value) => [⟨false, .string, value⟩]
  | .reference name args =>
    match args with
    | [] => qualified name
    | _ =>
      qualified name ++ mark false "<" :: joined (mark false ",") (groupTypes false args) ++
        [mark false ">"]
  | .union members => joined (mark true "|") (groupTypes false members)
  | .intersection members => joined (mark true "&") (groupTypes false members)
  | .array element => group false element.pieces ++ [mark false "[", mark false "]"]
  | .tuple elements =>
    mark false "[" :: joined (mark false ",") (groupElements false elements) ++ [mark false "]"]
  | .function _ _ ⟨_, params, some result⟩ =>
    mark false "(" :: joined (mark false ",") (groupParams false params) ++
      mark false ")" :: mark true "=>" :: group true result.pieces
  | .operator op operand => word false op.word :: group true operand.pieces
  | .indexed object index =>
    group false object.pieces ++ mark false "[" :: group false index.pieces ++ [mark false "]"]
  | .conditional check bound yes no =>
    group false check.pieces ++ word true "extends" :: group true bound.pieces ++
      mark true "?" :: group true yes.pieces ++ mark true ":" :: group true no.pieces
  | _ => []

/-- Types of a list, of which the first one stands behind a blank if `blank` is set. -/
def groupTypes (blank : Bool) : List TypeExpr → List (List Piece)
  | [] => []
  | t :: ts => group blank t.pieces :: groupTypes true ts

def groupElements (blank : Bool) : List TupleElement → List (List Piece)
  | ⟨_, _, _, t⟩ :: elements => group blank t.pieces :: groupElements true elements
  | [] => []

def groupParams (blank : Bool) : List Param → List (List Piece)
  | ⟨name, _, _, _, some t⟩ :: params =>
    (word blank name :: mark false ":" :: group true t.pieces) :: groupParams true params
  | _ => []

end

/-- The type with each type directly inside it in parentheses. -/
def TypeExpr.parenthesized (t : TypeExpr) : String := textOf t.pieces

example :
    (TypeExpr.conditional (.array (.keyword .any)) (.reference ["a", "b"] [.keyword .void])
      (.function false false ⟨[], [.required "x" (.keyword .any)], some (.tuple [])⟩)
      (.union [.literal (.string "y"), .operator .keyof (.keyword .object)])).parenthesized =
    "((any)[]) extends (a.b<(void)>) ? ((x: (any)) => ([])) : ((\"y\") | (keyof (object)))" := by
  decide +kernel

/-! ## Closed texts -/

namespace Parser

variable {t : Token} {rest : List Token}

theorem closeGroup_of_opener (h : t.isOpener) (depth : Nat) :
    closeGroup depth (t :: rest) =
      (closeGroup (depth + 1) rest).map fun (inside, close, more) ↦
      (t :: inside, close, more) := by
  cases depth <;> simp [closeGroup, h]

theorem closeGroup_of_other (hopener : t.isOpener = false) (hcloser : t.isCloser = false)
    (depth : Nat) :
    closeGroup depth (t :: rest) =
      (closeGroup depth rest).map fun (inside, close, more) ↦ (t :: inside, close, more) := by
  cases depth <;> simp [closeGroup, hopener, hcloser]

theorem closeGroup_succ_of_closer (hopener : t.isOpener = false) (hcloser : t.isCloser)
    (depth : Nat) :
    closeGroup (depth + 1) (t :: rest) =
      (closeGroup depth rest).map fun (inside, close, more) ↦ (t :: inside, close, more) := by
  simp [closeGroup, hopener, hcloser]

theorem closeGroup_zero_of_closer (hopener : t.isOpener = false) (hcloser : t.isCloser) :
    closeGroup 0 (t :: rest) = some ([], t, rest) := by
  simp [closeGroup, hopener, hcloser]

end Parser

namespace Piece

/-- Whether a mark may stand right behind the piece. -/
def isEnd (p : Piece) : Bool := p.kind != .mark || plainMarks.contains p.text

/-- The brackets in the tokens of the pieces are closed: what closes a group around them stands
behind them. -/
def Balanced (ps : List Piece) : Prop :=
  ∀ depth offset rest, Parser.closeGroup depth (tokensFrom offset ps ++ rest) =
    (Parser.closeGroup depth rest).map fun (inside, close, more) ↦
      (tokensFrom offset ps ++ inside, close, more)

/-- The text of the pieces falls apart into their tokens, also where a mark follows it, and the
brackets in it are closed. -/
structure Closed (ps : List Piece) : Prop where
  spelled : ∀ p ∈ ps, p.isSpelled
  beside : ps.IsChain (isBeside · ·)
  ends : ∀ p ∈ ps.getLast?, p.isEnd
  balanced : Balanced ps

theorem isBeside_of_isEnd {p q : Piece} (hp : p.isEnd) (hq : q.blank ∨ q.kind = .mark) :
    p.isBeside q := by
  unfold isBeside
  unfold isEnd at hp
  split <;> simp_all

section

variable {ps qs : List Piece} {pss : List (List Piece)}

theorem balanced_nil : Balanced [] := by
  intro depth offset rest
  simp

theorem Balanced.append (hps : Balanced ps) (hqs : Balanced qs) : Balanced (ps ++ qs) := by
  intro depth offset rest
  rw [tokensFrom_append, List.append_assoc, hps, hqs, Option.map_map]
  congr 1
  funext ⟨inside, close, more⟩
  simp

theorem Balanced.cons {p : Piece} (hopener : ∀ offset, (p.token offset).isOpener = false)
    (hcloser : ∀ offset, (p.token offset).isCloser = false) (hps : Balanced ps) :
    Balanced (p :: ps) := by
  intro depth offset rest
  rw [tokensFrom_cons, List.cons_append, Parser.closeGroup_of_other (hopener _) (hcloser _), hps,
    Option.map_map]
  rfl

/-- A pair of brackets with what they close between them. -/
theorem Balanced.enclosed {p q : Piece} (hopener : ∀ offset, (p.token offset).isOpener)
    (hnot : ∀ offset, (q.token offset).isOpener = false)
    (hcloser : ∀ offset, (q.token offset).isCloser) (hps : Balanced ps) :
    Balanced (p :: (ps ++ [q])) := by
  intro depth offset rest
  rw [tokensFrom_cons, List.cons_append, Parser.closeGroup_of_opener (hopener offset),
    tokensFrom_append, List.append_assoc, hps, tokensFrom_cons, tokensFrom_nil, List.cons_append,
    List.nil_append, Parser.closeGroup_succ_of_closer (hnot _) (hcloser _)]
  simp only [Option.map_map]
  congr 1
  funext ⟨inside, close, more⟩
  simp

theorem closed_nil : Closed [] := ⟨by simp, .nil, by simp, balanced_nil⟩

theorem Closed.append (hps : Closed ps) (hqs : Closed qs)
    (hhead : ∀ q ∈ qs.head?, q.blank ∨ q.kind = .mark) : Closed (ps ++ qs) where
  spelled p hp := (List.mem_append.mp hp).elim (hps.spelled p) (hqs.spelled p)
  beside := List.isChain_append.mpr ⟨hps.beside, hqs.beside, fun p hp q hq ↦
    isBeside_of_isEnd (hps.ends p hp) (hhead q hq)⟩
  ends p hp := by
    rw [List.getLast?_append] at hp
    cases hlast : qs.getLast? with
    | none => exact hps.ends p (by simpa [hlast] using hp)
    | some q => exact hqs.ends p (by simpa [hlast] using hp)
  balanced := hps.balanced.append hqs.balanced

/-- A piece that is no bracket, with pieces behind it. -/
theorem Closed.cons {p : Piece} (hspelled : p.isSpelled)
    (hopener : ∀ offset, (p.token offset).isOpener = false)
    (hcloser : ∀ offset, (p.token offset).isCloser = false) (hps : Closed ps)
    (hnext : ∀ q ∈ ps.head?, p.isBeside q) (hend : ps = [] → p.isEnd) : Closed (p :: ps) where
  spelled := List.forall_mem_cons.mpr ⟨hspelled, hps.spelled⟩
  beside := hps.beside.cons hnext
  ends q hq := by
    cases ps with
    | nil =>
        obtain rfl : p = q := by simpa using hq
        exact hend rfl
    | cons r ps => exact hps.ends q (by simpa using hq)
  balanced := hps.balanced.cons hopener hcloser

theorem Closed.word_cons {blank : Bool} {text : String} (htext : isName text) (hps : Closed ps)
    (hhead : ∀ q ∈ ps.head?, q.blank ∨ q.kind = .mark) : Closed (word blank text :: ps) :=
  hps.cons htext (fun _ ↦ rfl) (fun _ ↦ rfl)
    (fun q hq ↦ isBeside_of_isEnd (p := word blank text) rfl (hhead q hq)) fun _ ↦ rfl

section

variable {text left right : String} {blank : Bool}

theorem isSpelled_mark (hplain : plainMarks.contains text) : (mark blank text).isSpelled := by
  simp only [isSpelled, hplain, Bool.true_or]

theorem isEnd_mark (hplain : plainMarks.contains text) : (mark blank text).isEnd := by
  simp only [isEnd, hplain, Bool.or_true]

theorem isBeside_mark (hplain : plainMarks.contains text) (q : Piece) :
    (mark blank text).isBeside q := by
  simp only [isBeside, hplain, Bool.true_or, Bool.or_true]

theorem Closed.mark_cons (hplain : plainMarks.contains text)
    (hopener : ∀ offset, ((mark blank text).token offset).isOpener = false)
    (hcloser : ∀ offset, ((mark blank text).token offset).isCloser = false) (hps : Closed ps) :
    Closed (mark blank text :: ps) :=
  hps.cons (isSpelled_mark hplain) hopener hcloser (fun q _ ↦ isBeside_mark hplain q)
    fun _ ↦ isEnd_mark hplain

theorem Closed.enclosed (hleft : plainMarks.contains left) (hright : plainMarks.contains right)
    (hopener : ∀ offset, ((mark blank left).token offset).isOpener)
    (hnot : ∀ offset, ((mark false right).token offset).isOpener = false)
    (hcloser : ∀ offset, ((mark false right).token offset).isCloser) (hps : Closed ps) :
    Closed (mark blank left :: (ps ++ [mark false right])) where
  spelled := by
    refine List.forall_mem_cons.mpr ⟨isSpelled_mark hleft, fun p hp ↦ ?_⟩
    rcases List.mem_append.mp hp with hp | hp
    · exact hps.spelled p hp
    · rw [List.mem_singleton.mp hp]
      exact isSpelled_mark hright
  beside := by
    refine .cons (List.isChain_append.mpr ⟨hps.beside, .singleton _, fun p hp q hq ↦ ?_⟩)
      fun q _ ↦ isBeside_mark hleft q
    obtain rfl : mark false right = q := by simpa using hq
    exact isBeside_of_isEnd (hps.ends p hp) (.inr rfl)
  ends p hp := by
    obtain rfl : mark false right = p := by simpa [List.getLast?_cons] using hp
    exact isEnd_mark hright
  balanced := hps.balanced.enclosed hopener hnot hcloser

theorem Closed.group (blank : Bool) (hps : Closed ps) : Closed (group blank ps) :=
  hps.enclosed rfl rfl (fun _ ↦ rfl) (fun _ ↦ rfl) fun _ ↦ rfl

/-- The parts of a list, with a separator that is no bracket. -/
theorem Closed.joined {separator : Piece} (hkind : separator.kind = .mark)
    (hspelled : separator.isSpelled)
    (hopener : ∀ offset, (separator.token offset).isOpener = false)
    (hcloser : ∀ offset, (separator.token offset).isCloser = false)
    (hpss : ∀ ps ∈ pss, Closed ps ∧ ∃ p qs, ps = p :: qs ∧ separator.isBeside p) :
    Closed (joined separator pss) := by
  have hmore (pss : List (List Piece))
      (hpss : ∀ ps ∈ pss, Closed ps ∧ ∃ p qs, ps = p :: qs ∧ separator.isBeside p) :
      Closed (pss.flatMap (separator :: ·)) := by
    induction pss with
    | nil => exact closed_nil
    | cons ps pss ih =>
        obtain ⟨⟨hps, p, qs, rfl, hbeside⟩, hrest⟩ := List.forall_mem_cons.mp hpss
        rw [List.flatMap_cons]
        refine Closed.append (hps.cons hspelled hopener hcloser ?_ nofun) (ih hrest) ?_
        · rintro q ⟨⟩
          exact hbeside
        · cases pss with
          | nil => simp
          | cons => simp [hkind]
  cases pss with
  | nil => exact closed_nil
  | cons ps pss =>
      obtain ⟨⟨hps, -⟩, hpss⟩ := List.forall_mem_cons.mp hpss
      refine hps.append (hmore pss hpss) ?_
      cases pss with
      | nil => simp
      | cons => simp [hkind]

end

end

end Piece

/-! ## Printed types -/

namespace TypeExpr

theorem groupTypes_mem {blank : Bool} {ts : List TypeExpr} {ps : List Piece}
    (h : ps ∈ groupTypes blank ts) : ∃ t ∈ ts, ∃ blank, ps = group blank t.pieces := by
  induction ts generalizing blank with
  | nil => simp [groupTypes] at h
  | cons t ts ih =>
      rw [groupTypes] at h
      rcases List.mem_cons.mp h with rfl | h
      · exact ⟨t, List.mem_cons_self, blank, rfl⟩
      · obtain ⟨u, hu, hps⟩ := ih h
        exact ⟨u, List.mem_cons_of_mem t hu, hps⟩

theorem groupElements_plain (blank : Bool) (ts : List TypeExpr) :
    groupElements blank (ts.map .plain) = groupTypes blank ts := by
  induction ts generalizing blank with
  | nil => rfl
  | cons t ts ih => rw [List.map_cons, TupleElement.plain, groupElements, ih, groupTypes]

theorem groupParams_mem {blank : Bool} {params : List (String × TypeExpr)} {ps : List Piece}
    (h : ps ∈ groupParams blank (params.map fun p ↦ .required p.1 p.2)) :
    ∃ p ∈ params, ∃ blank, ps = word blank p.1 :: mark false ":" ::
      group true p.2.pieces := by
  induction params generalizing blank with
  | nil => simp [groupParams] at h
  | cons p params ih =>
      rw [List.map_cons, Param.required, groupParams] at h
      rcases List.mem_cons.mp h with rfl | h
      · exact ⟨p, List.mem_cons_self, blank, rfl⟩
      · obtain ⟨q, hq, hps⟩ := ih h
        exact ⟨q, List.mem_cons_of_mem p hq, hps⟩

theorem closed_qualified {name : List String} (h : ∀ segment ∈ name, isName segment) :
    Closed (qualified name) := by
  refine Closed.joined rfl rfl (fun _ ↦ rfl) (fun _ ↦ rfl) fun ps hps ↦ ?_
  obtain ⟨segment, hsegment, rfl⟩ := List.mem_map.mp hps
  exact ⟨.word_cons (h segment hsegment) closed_nil (by simp), _, _, rfl, rfl⟩

theorem closed_joined {ts : List TypeExpr} (h : ∀ t ∈ ts, Closed t.pieces) {blank : Bool}
    {sign : String} (hsign : sign ∈ ["|", "&", ","]) :
    Closed (joined (mark blank sign) (groupTypes false ts)) := by
  have hsigns : ∀ sign ∈ ["|", "&", ","], plainMarks.contains sign ∧
      ∀ blank, ∀ offset, ((mark blank sign).token offset).isOpener = false ∧
        ((mark blank sign).token offset).isCloser = false := by
    simp only [List.forall_mem_cons]
    exact ⟨⟨rfl, fun _ _ ↦ ⟨rfl, rfl⟩⟩, ⟨rfl, fun _ _ ↦ ⟨rfl, rfl⟩⟩,
      ⟨rfl, fun _ _ ↦ ⟨rfl, rfl⟩⟩, nofun⟩
  obtain ⟨hplain, hbracket⟩ := hsigns sign hsign
  refine Closed.joined rfl (isSpelled_mark hplain) (fun _ ↦ (hbracket _ _).1)
    (fun _ ↦ (hbracket _ _).2) fun ps hps ↦ ?_
  obtain ⟨t, ht, blank, rfl⟩ := groupTypes_mem hps
  exact ⟨(h t ht).group blank, _, _, rfl, isBeside_mark hplain _⟩

theorem closed_groupParams {params : List (String × TypeExpr)}
    (names : ∀ p ∈ params, isName p.1) (h : ∀ p ∈ params, Closed p.2.pieces) :
    Closed (joined (mark false ",")
      (groupParams false (params.map fun p ↦ .required p.1 p.2))) := by
  refine Closed.joined rfl rfl (fun _ ↦ rfl) (fun _ ↦ rfl) fun ps hps ↦ ?_
  obtain ⟨p, hp, blank, rfl⟩ := groupParams_mem hps
  have htype : Closed (mark false ":" :: group true p.2.pieces) :=
    ((h p hp).group true).mark_cons rfl (fun _ ↦ rfl) fun _ ↦ rfl
  exact ⟨htype.word_cons (names p hp) (by simp), _, _, rfl, isBeside_mark rfl _⟩

/-- The text of a plain type falls apart into its tokens, and the brackets in it are closed. -/
theorem Plain.closed {n : Nat} {t : TypeExpr} (h : t.Plain n) : Closed t.pieces := by
  induction h with
  | keyword keyword =>
      refine Closed.word_cons ?_ closed_nil (by simp)
      cases keyword <;> decide +kernel
  | string spelled =>
      exact closed_nil.cons spelled (fun _ ↦ rfl) (fun _ ↦ rfl) (by simp) fun _ ↦ rfl
  | name isName => exact closed_qualified isName.segments
  | @reference n name ts isName _ ih =>
      cases ts with
      | nil => exact closed_qualified isName.segments
      | cons t ts =>
          have hargs : Closed (mark false "<" ::
              (joined (mark false ",") (groupTypes false (t :: ts)) ++ [mark false ">"])) :=
            .mark_cons rfl (fun _ ↦ rfl) (fun _ ↦ rfl) ((closed_joined ih (by simp)).append
              (closed_nil.mark_cons rfl (fun _ ↦ rfl) fun _ ↦ rfl) (by simp))
          simpa [pieces] using (closed_qualified isName.segments).append hargs (by simp)
  | union several _ ih => exact closed_joined ih (by simp)
  | intersection several _ ih => exact closed_joined ih (by simp)
  | array _ ih =>
      exact (ih.group false).append (closed_nil.enclosed rfl rfl (fun _ ↦ rfl) (fun _ ↦ rfl)
        fun _ ↦ rfl) (by simp)
  | @tuple n ts _ ih =>
      rw [pieces, groupElements_plain]
      exact (closed_joined ih (by simp)).enclosed rfl rfl (fun _ ↦ rfl)
        (fun _ ↦ rfl) fun _ ↦ rfl
  | keyof _ ih => exact (ih.group true).word_cons (by decide +kernel) (by simp [group])
  | indexed _ _ ih ih' =>
      rw [pieces, List.append_assoc]
      exact (ih.group false).append
        ((ih'.group false).enclosed rfl rfl (fun _ ↦ rfl) (fun _ ↦ rfl) fun _ ↦ rfl) (by simp)
  | @conditional _ _ bound yes no _ _ _ _ ihcheck ihbound ihyes ihno =>
      have hbound : Closed (word true "extends" :: group true bound.pieces) :=
        (ihbound.group true).word_cons (by decide +kernel) (by simp [group])
      have hyes : Closed (mark true "?" :: group true yes.pieces) :=
        (ihyes.group true).cons rfl (fun _ ↦ rfl) (fun _ ↦ rfl)
          (by simp [group, isBeside]) nofun
      have hno : Closed (mark true ":" :: group true no.pieces) :=
        (ihno.group true).mark_cons rfl (fun _ ↦ rfl) fun _ ↦ rfl
      rw [pieces]
      exact (((ihcheck.group false).append hbound (by simp)).append hyes (by simp)).append hno
        (by simp)
  | @function _ params result names _ _ ihparams ihresult =>
      have hlist := closed_groupParams names ihparams
      have hresult : Closed (mark true "=>" :: group true result.pieces) :=
        (ihresult.group true).mark_cons rfl (fun _ ↦ rfl) fun _ ↦ rfl
      simpa [pieces, group] using (hlist.group false).append hresult (by simp)

/-- What is printed of a plain type does not begin with a blank. -/
theorem Plain.pieces_eq_cons {n : Nat} {t : TypeExpr} (h : t.Plain n) :
    ∃ p ps, t.pieces = p :: ps ∧ p.blank = false := by
  have hqualified {name : List String} (hname : IsTypeName name) (more : List Piece) :
      ∃ p ps, qualified name ++ more = p :: ps ∧ p.blank = false := by
    cases name with
    | nil => exact absurd rfl hname.nonempty
    | cons segment names => exact ⟨_, _, rfl, rfl⟩
  cases h with
  | keyword | string | array | tuple | keyof | indexed | conditional | function =>
      exact ⟨_, _, rfl, rfl⟩
  | name hname => simpa [pieces] using hqualified hname []
  | @reference _ name ts hname =>
      cases ts with
      | nil => simpa [pieces] using hqualified hname []
      | cons => simpa [pieces] using hqualified hname _
  | @union _ ts hseveral | @intersection _ ts hseveral =>
      match ts, hseveral with
      | _ :: _ :: _, _ => exact ⟨_, _, rfl, rfl⟩

end TypeExpr

/-! ## Texts behind a blank -/

namespace Piece

/-- The pieces behind a blank. -/
def spaced : List Piece → List Piece
  | [] => []
  | p :: ps => { p with blank := true } :: ps

section

variable {p : Piece} {ps : List Piece} (hp : p.blank = false)

include hp

theorem tokensFrom_spaced (offset : Nat) :
    tokensFrom offset (spaced (p :: ps)) = tokensFrom (offset + 1) (p :: ps) := by
  simp [spaced, token, stop, start, written, hp]

theorem flatMap_chars_spaced :
    (spaced (p :: ps)).flatMap chars = ' ' :: (p :: ps).flatMap chars := by
  simp [spaced, chars, written, hp]

theorem Closed.spaced (h : Closed (p :: ps)) : Closed (spaced (p :: ps)) where
  spelled := List.forall_mem_cons.mpr (List.forall_mem_cons.mp h.spelled)
  beside := by
    have hbeside := h.beside
    cases ps with
    | nil => exact .singleton _
    | cons q qs => exact .cons_cons (List.isChain_cons_cons.mp hbeside).1 hbeside.tail
  ends q hq := by
    cases ps with
    | nil =>
        obtain rfl : { p with blank := true } = q := by simpa [Piece.spaced] using hq
        exact h.ends p rfl
    | cons r ps => exact h.ends q (by simpa [Piece.spaced] using hq)
  balanced depth offset rest := by
    rw [tokensFrom_spaced hp]
    exact h.balanced depth (offset + 1) rest

end

end Piece

end PluginSurface
