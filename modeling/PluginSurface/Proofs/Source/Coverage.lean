import PluginSurface.Proofs.Syntax.Layout

/-!
# The text is its tokens and the gaps between them

No character is lost by the scan: in front of each token, and behind the last one, there are blanks
and comments only, and a token is the text that it stands for. The relation `Scan.Laid` says so
along the text; the scan of a gap and that of a lexeme each keep to one step of it.

Main statement: `Lexed.laid_of_ofSource`.
-/

namespace PluginSurface

/-- The span is that of the given part of the text. -/
def Span.Covers (s : Span) (text part : List Char) : Prop :=
  ∃ front back, text = front ++ part ++ back ∧
    s = ⟨byteCount front, byteCount (front ++ part)⟩

namespace Scan

open Text

/-! ## Gaps -/

/-- What gaps are made of: blanks, line comments with the text behind their two slashes, and block
comments with the text between their marks. -/
inductive Filler where
  | blank (c : Char)
  | lineComment (body : List Char)
  | blockComment (body : List Char)
deriving DecidableEq, Repr

namespace Filler

@[simp] def chars : Filler → List Char
  | blank c => [c]
  | lineComment body => '/' :: '/' :: body
  | blockComment body => '/' :: '*' :: (body ++ ['*', '/'])

/-- A line comment with a third slash is a directive: the text behind it, without the blanks around
that. -/
def lineDirective? : List Char → Option String
  | '/' :: body => some (String.ofList (trimBlank body))
  | _ => none

@[simp] def directive? : Filler → Option String
  | lineComment body => lineDirective? body
  | _ => none

end Filler

def fillerChars (fs : List Filler) : List Char := fs.flatMap Filler.chars

def fillerDirectives (fs : List Filler) : List String := fs.filterMap Filler.directive?

@[simp] theorem fillerChars_nil : fillerChars [] = [] := rfl

@[simp] theorem fillerChars_cons (f : Filler) (fs : List Filler) :
    fillerChars (f :: fs) = f.chars ++ fillerChars fs := rfl

@[simp] theorem fillerDirectives_nil : fillerDirectives [] = [] := rfl

@[simp] theorem fillerDirectives_cons (f : Filler) (fs : List Filler) :
    fillerDirectives (f :: fs) = f.directive?.toList ++ fillerDirectives fs := by
  rw [fillerDirectives, List.filterMap_cons]
  cases f.directive? <;> rfl

/-- The blanks and comments are all that is in front of the characters `after`: a line comment goes
on to the end of its line, a block comment up to the first mark that closes it, and none follows. -/
inductive Fills (after : List Char) : List Filler → Prop
  | nil (h : endsGap after) : Fills after []
  | blank {c : Char} {fs : List Filler} (hc : isBlank c) (h : Fills after fs) :
      Fills after (.blank c :: fs)
  | lineComment {body : List Char} {fs : List Filler} (hbody : '\n' ∉ body)
      (hend : ∀ c ∈ (fillerChars fs ++ after).head?, c = '\n') (h : Fills after fs) :
      Fills after (.lineComment body :: fs)
  | blockComment {body : List Char} {fs : List Filler} (hbody : ¬ ['*', '/'] <:+: body)
      (h : Fills after fs) : Fills after (.blockComment body :: fs)

/-- The gap with the blanks and comments in it as well. -/
def Gap.fill (g : Gap) (fs : List Filler) : Gap :=
  ⟨g.newline || (fillerChars fs).contains '\n', (fillerDirectives fs).reverse ++
    g.reversedDirectives⟩

theorem Gap.fill_nil (g : Gap) : g.fill [] = g := by simp [fill]

theorem Gap.fill_cons (g : Gap) (f : Filler) (fs : List Filler) :
    g.fill (f :: fs) = (g.fill [f]).fill fs := by
  simp [fill, Bool.or_assoc]

theorem Gap.fill_blank (g : Gap) (c : Char) :
    g.fill [.blank c] = { g with newline := g.newline || c == '\n' } := by
  simp [fill, Bool.beq_eq_decide_eq, eq_comm]

theorem Gap.fill_lineComment (g : Gap) {body : List Char} (hbody : '\n' ∉ body) :
    g.fill [.lineComment body] = g.addLineComment body.reverse := by
  rw [fill, addLineComment, List.reverse_reverse]
  unfold fillerDirectives Filler.directive?
  split
  · simp_all [Filler.lineDirective?]
  next hslash => simp [hbody, Filler.lineDirective?]

theorem Gap.fill_blockComment (g : Gap) (body : List Char) :
    g.fill [.blockComment body] = { g with newline := g.newline || body.contains '\n' } := by
  simp [fill]

/-- What a scanner takes before it is between comments, in front of the characters `after`, and the
gap that it has then. -/
inductive Leaves (after : List Char) : GapMode → Gap → List Char → Gap → Prop
  | between {g : Gap} : Leaves after .between g [] g
  | lineComment {g : Gap} {reversedBody more : List Char} (hmore : '\n' ∉ more)
      (hend : ∀ c ∈ after.head?, c = '\n') :
      Leaves after (.lineComment reversedBody) g more
        (g.addLineComment (more.reverse ++ reversedBody))
  | blockComment {g : Gap} {start : Nat} {body : List Char} (hbody : ¬ ['*', '/'] <:+: body) :
      Leaves after (.blockComment start) g (body ++ ['*', '/'])
        { g with newline := g.newline || body.contains '\n' }

/-- A block comment that goes on behind a character is not closed by it. -/
theorem not_closed_cons {c : Char} {body after : List Char} (hbody : ¬ ['*', '/'] <:+: body)
    (hend : ∀ rest, c = '*' → body ++ '*' :: '/' :: after = '/' :: rest → False) :
    ¬ ['*', '/'] <:+: c :: body := by
  intro h
  rcases List.infix_cons_iff.mp h with hprefix | hinfix
  · obtain ⟨rest, heq⟩ := hprefix
    obtain ⟨rfl, rfl⟩ := List.cons.inj heq
    exact hend _ rfl rfl
  · exact hbody hinfix

theorem gap_leaves {size : Nat} {mode : GapMode} {g g' : Gap} {offset : Nat} {ahead : List Char}
    {here : Here} (h : gap size mode g offset ahead = .ok (g', here)) :
    ∃ more fs g₁, ahead = more ++ (fillerChars fs ++ here.ahead) ∧
      Leaves (fillerChars fs ++ here.ahead) mode g more g₁ ∧ Fills here.ahead fs ∧
      g' = g₁.fill fs := by
  fun_induction gap size mode g offset ahead with
  | case1 =>
      cases h
      exact ⟨[], [], _, rfl, .between, .nil rfl, (Gap.fill_nil _).symm⟩
  | case2 g offset rest ih =>
      obtain ⟨more, fs, g₁, rfl, hleaves, hfills, rfl⟩ := ih h
      cases hleaves with
      | lineComment hmore hend =>
          refine ⟨[], .lineComment more :: fs, g, by simp, .between,
            .lineComment hmore hend hfills, ?_⟩
          rw [Gap.fill_cons, Gap.fill_lineComment _ hmore, List.append_nil]
  | case3 g offset rest ih =>
      obtain ⟨more, fs, g₁, rfl, hleaves, hfills, rfl⟩ := ih h
      cases hleaves with
      | @blockComment _ _ body hbody =>
          refine ⟨[], .blockComment body :: fs, g, by simp, .between,
            .blockComment hbody hfills, ?_⟩
          rw [Gap.fill_cons, Gap.fill_blockComment]
  | case4 g offset c rest _ _ hblank ih =>
      obtain ⟨more, fs, g₁, rfl, hleaves, hfills, rfl⟩ := ih h
      cases hleaves
      refine ⟨[], .blank c :: fs, g, rfl, .between, .blank hblank hfills, ?_⟩
      rw [Gap.fill_cons, Gap.fill_blank]
  | case5 g offset c rest hline hblock hblank =>
      cases h
      exact ⟨[], [], _, rfl, .between, .nil (endsGap_of_stops hline hblock hblank),
        (Gap.fill_nil _).symm⟩
  | case6 body g =>
      cases h
      exact ⟨[], [], _, rfl, .lineComment List.not_mem_nil (by simp [fillerChars]), .nil rfl,
        (Gap.fill_nil _).symm⟩
  | case7 body g offset rest ih =>
      obtain ⟨more, fs, g₁, rfl, hleaves, hfills, rfl⟩ := ih h
      cases hleaves
      refine ⟨[], .blank '\n' :: fs, g.addLineComment body, rfl, .lineComment List.not_mem_nil ?_,
        .blank (by decide) hfills, ?_⟩
      · rintro c ⟨⟩
        rfl
      · rw [Gap.fill_cons, Gap.fill_blank]
        simp
  | case8 body g offset c rest hc ih =>
      obtain ⟨more, fs, g₁, rfl, hleaves, hfills, rfl⟩ := ih h
      cases hleaves with
      | lineComment hmore hend =>
          have hnot : '\n' ∉ c :: more := List.not_mem_cons_of_ne_of_not_mem (Ne.symm hc) hmore
          refine ⟨c :: more, fs, _, rfl, .lineComment hnot hend, hfills, ?_⟩
          rw [List.reverse_cons, List.append_assoc, List.singleton_append]
  | case9 => cases h
  | case10 opened g offset rest ih =>
      obtain ⟨more, fs, g₁, rfl, hleaves, hfills, rfl⟩ := ih h
      cases hleaves
      have hnil : ¬ ['*', '/'] <:+: [] := by simp
      refine ⟨['*', '/'], fs, _, rfl, .blockComment hnil, hfills, ?_⟩
      simp
  | case11 opened g offset c rest hend ih =>
      obtain ⟨more, fs, g₁, rfl, hleaves, hfills, rfl⟩ := ih h
      cases hleaves with
      | @blockComment _ _ body hbody =>
          rw [List.append_assoc] at hend
          refine ⟨c :: body ++ ['*', '/'], fs, _, rfl, .blockComment (not_closed_cons hbody hend),
            hfills, ?_⟩
          simp [Bool.or_assoc, Bool.beq_eq_decide_eq, eq_comm]

/-- In front of a token and behind the last one there are blanks and comments only. -/
theorem gap_fills {size : Nat} {g g' : Gap} {offset : Nat} {ahead : List Char} {here : Here}
    (h : gap size .between g offset ahead = .ok (g', here)) :
    ∃ fs, ahead = fillerChars fs ++ here.ahead ∧ Fills here.ahead fs ∧ g' = g.fill fs := by
  obtain ⟨more, fs, g₁, rfl, hleaves, hfills, rfl⟩ := gap_leaves h
  cases hleaves
  exact ⟨fs, rfl, hfills, rfl⟩

/-! ## Lexemes -/

/-- The characters that stand for a token: a string literal is between two quotes of the same kind,
all other tokens are written as their text. -/
inductive Writes : TokenKind → String → List Char → Prop
  | string {text : String} {quote : Char} {inner : List Char}
      (hquote : quote = '"' ∨ quote = '\'') : Writes .string text (quote :: (inner ++ [quote]))
  | plain {kind : TokenKind} {body : List Char} (hstring : kind ≠ .string)
      (hfinish : kind ≠ .finish) : Writes kind (String.ofList body) body

theorem stringTail_closes {quote : Char} {offset : Nat} {ahead value : List Char} {here : Here}
    (h : stringTail quote offset ahead = .ok (value, here)) :
    ∃ inner, ahead = inner ++ [quote] ++ here.ahead := by
  fun_induction stringTail quote offset ahead generalizing value with
  | case1 => cases h
  | case2 => cases h
  | case3 offset c rest ih =>
      obtain ⟨⟨inside, _⟩, hresult, heq⟩ := except_map_eq_ok.mp h
      cases heq
      obtain ⟨inner, rfl⟩ := ih hresult
      exact ⟨'\\' :: c :: inner, rfl⟩
  | case4 offset rest =>
      cases h
      exact ⟨[], rfl⟩
  | case5 => cases h
  | case6 offset c rest _ _ _ _ ih =>
      obtain ⟨⟨inside, _⟩, hresult, heq⟩ := except_map_eq_ok.mp h
      cases heq
      obtain ⟨inner, rfl⟩ := ih hresult
      exact ⟨c :: inner, rfl⟩

theorem lexeme_writes {size : Nat} {last : Option Token} {offset : Nat} {c : Char}
    {rest : List Char} {l : Lexeme} (h : lexeme size last offset c rest = .ok l) :
    ∃ taken, rest = taken ++ l.here.ahead ∧ Writes l.kind l.text (c :: taken) := by
  unfold lexeme at h
  split at h
  · cases h
    exact ⟨_, List.takeWhile_append_dropWhile.symm, .plain nofun nofun⟩
  split at h
  · cases h
    exact ⟨_, List.takeWhile_append_dropWhile.symm, .plain nofun nofun⟩
  split at h
  next hnumber =>
    rw [numberTail_cons, if_pos (goesOn_of_startsNumber hnumber)] at h
    cases h
    exact ⟨_, (numberTail_append _ _ rest).symm, .plain nofun nofun⟩
  split at h
  next hquote =>
    split at h
    next value here hvalue =>
      cases h
      obtain ⟨inner, hrest⟩ := stringTail_closes hvalue
      rw [Bool.or_eq_true, beq_iff_eq, beq_iff_eq] at hquote
      exact ⟨inner ++ [c], hrest, .string hquote⟩
    next => cases h
  split at h
  next =>
    obtain ⟨⟨taken, here⟩, hresult, rfl⟩ := except_map_eq_ok.mp h
    have hsound : AllSound [.template offset] :=
      allSound_cons.mpr ⟨trivial, List.forall_mem_nil _⟩
    exact ⟨taken, (templateTail_factor hsound hresult).1, .plain nofun nofun⟩
  split at h
  next =>
    split at h
    next taken here htaken =>
      cases h
      refine ⟨taken ++ here.ahead.takeWhile isNamePart, ?_, .plain nofun nofun⟩
      change rest = _ ++ here.ahead.dropWhile isNamePart
      rw [List.append_assoc, List.takeWhile_append_dropWhile]
      exact regexTail_append htaken
    next => cases h
  next =>
    cases h
    obtain ⟨n, hn⟩ : ∃ n, markLength (c :: rest) = n + 1 :=
      Nat.exists_eq_succ_of_ne_zero (markLength_ne_zero _)
    rw [hn]
    exact ⟨rest.take n, (List.take_append_drop n rest).symm, .plain nofun nofun⟩

/-! ## The whole text -/

/-- From `offset` on, the characters are the given tokens in turn, with blanks and comments in front
of each one and behind the last one, in which there are the given directives. -/
inductive Laid : Nat → List Char → List Token → List String → Prop
  | done {offset : Nat} {fs : List Filler} (hgap : Fills [] fs) :
      Laid offset (fillerChars fs) [] (fillerDirectives fs)
  | token {offset : Nat} {fs : List Filler} {body rest : List Char} {t : Token} {ts : List Token}
      {directives : List String} (hgap : Fills (body ++ rest) fs) (hbody : body ≠ [])
      (hwrites : Writes t.kind t.text body)
      (hspan : t.span = ⟨offset + byteCount (fillerChars fs),
        offset + byteCount (fillerChars fs ++ body)⟩)
      (hnewline : t.newlineBefore = true ↔ '\n' ∈ fillerChars fs)
      (hrest : Laid t.span.stop rest ts directives) :
      Laid offset (fillerChars fs ++ (body ++ rest)) (t :: ts) (fillerDirectives fs ++ directives)

theorem Run.laid {size : Nat} {last : Option Token} {found : List String} {here : Here}
    {ts : List Token} {all : List String} (h : Run size last found here ts all) :
    ∃ directives, all = found.reverse ++ directives ∧
      Laid here.offset here.ahead ts directives := by
  induction h with
  | @done last found here g offset hgap =>
      obtain ⟨fs, hahead, hfills, rfl⟩ := gap_fills hgap
      rw [hahead, List.append_nil]
      refine ⟨fillerDirectives fs, ?_, .done hfills⟩
      simp [Gap.fill]
  | @token last found here g start c rest l ts all hgap hlexeme hrest ih =>
      obtain ⟨directives, rfl, hlaid⟩ := ih
      obtain ⟨fs, hahead, hfills, rfl⟩ := gap_fills hgap
      obtain ⟨gapTaken, htaken, hstart, -⟩ := gap_token hgap
      obtain ⟨taken, rfl, hwrites⟩ := lexeme_writes hlexeme
      obtain ⟨taken', htaken', hstop, -⟩ := lexeme_token hlexeme
      obtain rfl := List.append_cancel_right (hahead.symm.trans htaken)
      obtain rfl := List.append_cancel_right htaken'
      rw [hahead, ← List.cons_append]
      refine ⟨fillerDirectives fs ++ directives, ?_,
        .token hfills (List.cons_ne_nil _ _) hwrites ?_ ?_ hlaid⟩
      · simp [Gap.fill]
      · rw [hstop, hstart, byteCount_append, Nat.add_assoc]
      · simp [Gap.fill]

section

variable {offset : Nat} {cs : List Char} {t : Token} {ts : List Token} {directives : List String}

/-- Tokens stand behind the place where the text begins, one behind the other. -/
theorem Laid.pairwise (h : Laid offset cs ts directives) :
    (∀ t ∈ ts, offset ≤ t.span.start ∧ t.span.start < t.span.stop) ∧
      ts.Pairwise fun t u ↦ t.span.stop ≤ u.span.start := by
  induction h with
  | done => exact ⟨List.forall_mem_nil _, .nil⟩
  | @token offset fs body rest t ts directives hgap hbody hwrites hspan hnewline hrest ih =>
      have hpos : 0 < byteCount body := by
        obtain ⟨c, body, rfl⟩ := List.exists_cons_of_ne_nil hbody
        rw [byteCount_cons]
        exact Nat.add_pos_left c.utf8Size_pos _
      rw [byteCount_append] at hspan
      have hstart := congrArg Span.start hspan
      have hstop := congrArg Span.stop hspan
      dsimp only at hstart hstop
      refine ⟨List.forall_mem_cons.mpr ⟨by omega, fun u hu ↦ ?_⟩,
        .cons (fun u hu ↦ (ih.1 u hu).1) ih.2⟩
      have hu := ih.1 u hu
      omega

theorem Laid.byteCount_le (h : Laid offset cs ts directives) :
    ∀ t ∈ ts, t.span.stop ≤ offset + byteCount cs := by
  induction h with
  | done => exact List.forall_mem_nil _
  | @token offset fs body rest t ts directives _ _ _ hspan _ _ ih =>
      have hstop := congrArg Span.stop hspan
      rw [byteCount_append] at hstop
      dsimp only at hstop
      simp only [byteCount_append]
      refine List.forall_mem_cons.mpr ⟨by omega, fun u hu ↦ ?_⟩
      have hu := ih u hu
      omega

/-- Each token stands for the part of the text that its span is that of. -/
theorem Laid.covers (h : Laid offset cs ts directives) {text front : List Char}
    (htext : text = front ++ cs) (hoffset : offset = byteCount front) :
    ∀ t ∈ ts, ∃ body, t.span.Covers text body ∧ Writes t.kind t.text body := by
  induction h generalizing front with
  | done => exact List.forall_mem_nil _
  | @token offset fs body rest t ts directives hgap hbody hwrites hspan hnewline hrest ih =>
      refine List.forall_mem_cons.mpr
        ⟨⟨body, ⟨front ++ fillerChars fs, rest, ?_, ?_⟩, hwrites⟩, ?_⟩
      · simp [htext]
      · rw [hspan, hoffset]
        simp
      · have htext : text = front ++ (fillerChars fs ++ body) ++ rest := by simp [htext]
        refine ih htext ?_
        rw [hspan, hoffset, byteCount_append front]

end

end Scan

namespace Lexed

open Scan

theorem laid_of_ofSource {source : String} {l : Lexed} (h : Lexed.ofSource source = .ok l) :
    Laid 0 source.toList l.tokens l.directives := by
  rw [← String.ofList_toList (s := source)] at h
  obtain ⟨directives, hall, hlaid⟩ := (ofSource_eq_ok.mp h).2.laid
  rwa [hall]

theorem size_of_ofSource {source : String} {l : Lexed} (h : Lexed.ofSource source = .ok l) :
    l.size = source.utf8ByteSize := by
  rw [← String.ofList_toList (s := source)] at h
  rw [(ofSource_eq_ok.mp h).1, byteCount_toList]

/-- Each token, and the final one, stands behind the one before it. -/
theorem pairwise_of_ofSource {source : String} {l : Lexed} (h : Lexed.ofSource source = .ok l) :
    (l.tokens ++ [l.finish]).Pairwise fun t u ↦ t.span.stop ≤ u.span.start := by
  have hlaid := laid_of_ofSource h
  refine List.pairwise_append.mpr ⟨hlaid.pairwise.2, List.pairwise_singleton _ _,
    fun t ht u hu ↦ ?_⟩
  have hstop := hlaid.byteCount_le t ht
  rw [Nat.zero_add, byteCount_toList, ← size_of_ofSource h] at hstop
  rwa [List.mem_singleton.mp hu]

/-- No text is lost by the scan. The text is its tokens in turn, with blanks and comments in
front of each one and behind the last one: a token is marked if there is a line feed in the gap
before it, and the directives are those of the gaps. So each token stands for a part of the text
that is not empty, each of them and the final one is behind the one before it, and the final one
is at the end. -/
theorem ofSource_lossless {source : String} {l : Lexed} (h : Lexed.ofSource source = .ok l) :
    Laid 0 source.toList l.tokens l.directives ∧
      (∀ t ∈ l.tokens, t.span.start < t.span.stop ∧
        ∃ body, t.span.Covers source.toList body ∧ Writes t.kind t.text body) ∧
      (l.tokens ++ [l.finish]).Pairwise (fun t u ↦ t.span.stop ≤ u.span.start) ∧
      l.finish.span = ⟨source.utf8ByteSize, source.utf8ByteSize⟩ := by
  have hlaid := laid_of_ofSource h
  refine ⟨hlaid, fun t ht ↦ ⟨(hlaid.pairwise.1 t ht).2, ?_⟩, pairwise_of_ofSource h, ?_⟩
  · exact hlaid.covers (List.nil_append _).symm rfl t ht
  · rw [← size_of_ofSource h]
    rfl

/-- A directive, a block comment over two lines and a string literal. -/
theorem ofSource_lossless_comments :
    let source := "///  <x/>\nlet /* a\n*/ s='é'// b"
    let l : Lexed :=
      ⟨[⟨.word, "let", ⟨10, 13⟩, true⟩, ⟨.word, "s", ⟨22, 23⟩, true⟩,
          ⟨.mark, "=", ⟨23, 24⟩, false⟩, ⟨.string, "é", ⟨24, 28⟩, false⟩],
        ["<x/>"], 32⟩
    Lexed.ofSource source = .ok l ∧ Laid 0 source.toList l.tokens l.directives ∧
      l.finish.span = ⟨32, 32⟩ := by
  intro source l
  have hl : Lexed.ofSource source = .ok l := by decide +kernel
  exact ⟨hl, (ofSource_lossless hl).1, (ofSource_lossless hl).2.2.2⟩

end Lexed

end PluginSurface
