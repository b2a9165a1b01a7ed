import PluginSurface.Proofs.Source.Coverage
import PluginSurface.Proofs.Syntax.Nesting
import PluginSurface.Proofs.Syntax.StatementProgress

/-!
# The tokens of a statement

A text is its statements in turn, each with tokens of its own, and marks `;` between them. The
tokens of a body stand between two braces that are among those of its statement, and are shared out
among the statements inside in the same way. So the span of a statement is from its first token to
its last one, those of its children are inside it, and no two of them overlap.

Main statement: `SourceFile.tokens_ofSource`.
-/

namespace PluginSurface

open PluginSurface.Parser

/-! ## Tokens of statements -/

mutual

/-- The tokens are those of the statements in turn, and marks `;` between them. The span of a
statement is from its first token to its last one, and `P` holds of the tokens in each body. -/
inductive StatementTokens (P : List Token → Prop) : List Token → List Statement → Prop
  | nil : StatementTokens P [] []
  | mark {t : Token} {ts : List Token} {body : List Statement} (ht : t.isMark ";")
      (h : StatementTokens P ts body) : StatementTokens P (t :: ts) body
  | statement {own ts : List Token} {first last : Token} {s : Statement} {body : List Statement}
      (hfirst : own.head? = some first) (hlast : own.getLast? = some last)
      (hspan : s.span = ⟨first.span.start, last.span.stop⟩)
      (hbodies : BodyTokens P own s.decl.written)
      (h : StatementTokens P ts body) : StatementTokens P (own ++ ts) (s :: body)

/-- Among the tokens there are the bodies, one behind the other, each between two braces. -/
inductive BodyTokens (P : List Token → Prop) : List Token → List (List Statement) → Prop
  | nil : BodyTokens P [] []
  | token {t : Token} {ts : List Token} {bodies : List (List Statement)}
      (h : BodyTokens P ts bodies) : BodyTokens P (t :: ts) bodies
  | body {o c : Token} {inner ts : List Token} {body : List Statement}
      {bodies : List (List Statement)} (ho : o.isMark "\x7b") (hc : c.isMark "\x7d")
      (hinner : P inner) (hbody : StatementTokens P inner body) (h : BodyTokens P ts bodies) :
      BodyTokens P (o :: (inner ++ c :: ts)) (body :: bodies)

end

theorem StatementTokens.append {P : List Token → Prop} {ts us : List Token}
    {xs ys : List Statement} (h : StatementTokens P ts xs) (h' : StatementTokens P us ys) :
    StatementTokens P (ts ++ us) (xs ++ ys) := by
  match ts, xs, h with
  | _, _, .nil => exact h'
  | _, _, .mark ht h => exact .mark ht (h.append h')
  | _, _, .statement hfirst hlast hspan hbodies h =>
    rw [List.append_assoc]
    exact .statement hfirst hlast hspan hbodies (h.append h')

theorem BodyTokens.append {P : List Token → Prop} {ts us : List Token}
    {xs ys : List (List Statement)} (h : BodyTokens P ts xs) (h' : BodyTokens P us ys) :
    BodyTokens P (ts ++ us) (xs ++ ys) := by
  match ts, xs, h with
  | _, _, .nil => exact h'
  | _, _, .token h => exact .token (h.append h')
  | _, _, .body ho hc hinner hbody h =>
    rw [List.cons_append, List.append_assoc, List.cons_append]
    exact .body ho hc hinner hbody (h.append h')

section

variable {P : List Token → Prop}

theorem bodyTokens_nil (ts : List Token) : BodyTokens P ts [] := by
  induction ts with
  | nil => exact .nil
  | cons t ts ih => exact .token ih

/-! ## Tokens that are read -/

/-- Since the first cursor, tokens were taken, among which there are the bodies. -/
def Cursor.HasRead (P : List Token → Prop) (s : Cursor) (bodies : List (List Statement))
    (t : Cursor) : Prop :=
  t.finish = s.finish ∧ ∃ taken, s.rest = taken ++ t.rest ∧
    t.previous = taken.getLast?.or s.previous ∧ BodyTokens P taken bodies

theorem Cursor.HasRead.append {s t u : Cursor} {xs : List (List Statement)} {taken : List Token}
    {ys : List (List Statement)} (h : s.HasRead P xs t) (hfinish : u.finish = t.finish)
    (htaken : BodyTokens P taken ys) (hrest : t.rest = taken ++ u.rest)
    (hprevious : u.previous = taken.getLast?.or t.previous) : s.HasRead P (xs ++ ys) u := by
  obtain ⟨hfinish', before, hrest', hprevious', hbefore⟩ := h
  refine ⟨hfinish.trans hfinish', before ++ taken, ?_, ?_, hbefore.append htaken⟩
  · rw [hrest', hrest, List.append_assoc]
  · rw [hprevious, hprevious', List.getLast?_append, Option.or_assoc]

instance steady_hasRead (s : Cursor) : Steady (s.HasRead P) := by
  refine ⟨fun {bodies t u} honward h ↦ ?_⟩
  obtain ⟨taken, hrest, hprevious⟩ := honward.passes.tokens
  rw [← List.append_nil bodies]
  exact h.append honward.finish_eq (bodyTokens_nil taken) hrest hprevious

/-- The parser takes the tokens of a body in braces, wherever it runs in the text `all`. -/
def ReadsBody (P : List Token → Prop) (all : List Token) (block : Parser (List Statement)) :
    Prop :=
  ∀ s body t, s.rest <:+ all → s.finish.kind = .finish → block s = .ok (body, t) →
    t.finish = s.finish ∧ ∃ o inner c, o.isMark "\x7b" ∧ c.isMark "\x7d" ∧
      s.rest = o :: (inner ++ c :: t.rest) ∧ t.previous = some c ∧ P inner ∧
      StatementTokens P inner body

theorem ReadsBody.gathers {all : List Token} {block : Parser (List Statement)} {s : Cursor}
    (h : ReadsBody P all block) (hs : s.rest <:+ all) (hfinish : s.finish.kind = .finish) :
    Gathers (s.HasRead P) block fun body ↦ [body] := by
  intro bodies t body u hread hu
  obtain ⟨hfinish', before, hrest, -⟩ := id hread
  have hsuffix : t.rest <:+ all := (hrest ▸ List.suffix_append before t.rest).trans hs
  obtain ⟨hfinish'', o, inner, c, ho, hc, hrest', hprevious, hinner, hbody⟩ :=
    h t body u hsuffix (hfinish' ▸ hfinish) hu
  refine hread.append hfinish'' (.body ho hc hinner hbody .nil) ?_ ?_
  · rw [hrest', List.cons_append, List.append_assoc, List.singleton_append]
  · rw [hprevious, ← List.cons_append, List.getLast?_append]
    rfl

end

/-- Each token ends behind its beginning, and in front of those that follow. -/
structure Ordered (ts : List Token) : Prop where
  nonempty : ∀ t ∈ ts, t.span.start < t.span.stop
  pairwise : ts.Pairwise fun t u ↦ t.span.stop ≤ u.span.start

theorem Ordered.sublist {ts us : List Token} (h : Ordered us) (hsub : ts.Sublist us) : Ordered ts :=
  ⟨fun t ht ↦ h.nonempty t (hsub.subset ht), h.pairwise.sublist hsub⟩

/-- Ordered tokens are between the first one and the last one. -/
theorem Ordered.between {ts : List Token} {first last : Token} (h : Ordered ts)
    (hfirst : ts.head? = some first) (hlast : ts.getLast? = some last) :
    ∀ t ∈ ts, first.span.start ≤ t.span.start ∧ t.span.stop ≤ last.span.stop := by
  obtain ⟨more, hmore⟩ := List.head?_eq_some_iff.mp hfirst
  obtain ⟨before, hbefore⟩ := List.getLast?_eq_some_iff.mp hlast
  refine fun t ht ↦ ⟨?_, ?_⟩
  · rw [hmore] at h ht
    rcases List.mem_cons.mp ht with rfl | ht
    · exact Nat.le_refl _
    · have hbehind := (List.pairwise_cons.mp h.pairwise).1 t ht
      have hnonempty := h.nonempty first List.mem_cons_self
      omega
  · rw [hbefore] at h ht
    have hnonempty := h.nonempty last (List.mem_append_right _ (List.mem_singleton_self last))
    rcases List.mem_append.mp ht with ht | ht
    · have hbehind :=
        (List.pairwise_append.mp h.pairwise).2.2 t ht last (List.mem_singleton_self last)
      omega
    · rw [List.mem_singleton.mp ht]

theorem Ordered.head_lt_last {ts : List Token} {first last : Token} (h : Ordered ts)
    (hfirst : ts.head? = some first) (hlast : ts.getLast? = some last) :
    first.span.start < last.span.stop :=
  have hmem := List.mem_of_getLast? hlast
  Nat.lt_of_le_of_lt (h.between hfirst hlast last hmem).1 (h.nonempty last hmem)

/-! ## Statements that are read -/

namespace StatementGrammar

open TypeGrammar

variable {P : List Token → Prop} {all : List Token} {s u : Cursor}

section

variable {types : TypeGrammar} (htype : ∀ conditional, OnlyReads (types.type conditional))
variable {block : Parser (List Statement)} (hblock : ReadsBody P all block)
variable (htakes : ∀ s, AtStatement s → TakesFrom (fun _ ↦ True) s (statement types block))

include htype hblock htakes

theorem tokens_statement (hall : Ordered all) (hs : s.rest <:+ all) (hat : AtStatement s)
    {a : Statement} (h : statement types block s = .ok (a, u)) :
    u.finish = s.finish ∧ ∃ own first last, s.rest = own ++ u.rest ∧
    own.head? = some first ∧
      own.getLast? = some last ∧ u.previous = some last ∧
      a.span = ⟨first.span.start, last.span.stop⟩ ∧ BodyTokens P own a.decl.written := by
  have hlt := htakes s hat a u h trivial
  obtain ⟨m, hdecl, rfl⟩ := statement_eq_ok h
  have hbegun : Cursor.HasRead P s [] { s with nextId := s.nextId + 1 } :=
    ⟨rfl, [], rfl, rfl, .nil⟩
  obtain ⟨hfinish, own, hrest, hprevious, hbodies⟩ :=
    gathers_modifiedDeclaration htype (hblock.gathers hs hat.finish) [] _ m u hbegun hdecl
  have hne : own ≠ [] := by
    rintro rfl
    rw [hrest] at hlt
    exact Nat.lt_irrefl _ hlt
  have hfirst := List.head?_eq_some_head hne
  have hlast := List.getLast?_eq_some_getLast hne
  have hsublist : own.Sublist all :=
    (List.sublist_append_left own u.rest).trans (hrest ▸ hs.sublist)
  have hordered := (hall.sublist hsublist).head_lt_last hfirst hlast
  have hnext : s.next = own.head hne := by
    have hhead := congrArg List.head? (Cursor.rest_eq_cons hat.rest).1
    rw [hrest, List.head?_append_of_ne_nil _ hne, hfirst] at hhead
    exact (Option.some.inj hhead).symm
  rw [hlast, Option.some_or] at hprevious
  refine ⟨hfinish, own, _, _, hrest, hfirst, hlast, hprevious, ?_, hbodies⟩
  rw [hnext, Cursor.passed, hprevious, Span.mk.injEq]
  exact ⟨rfl, Nat.max_eq_left (Nat.le_of_lt hordered)⟩

omit htype hblock htakes

/-- Behind statements that were read since the first cursor. -/
def Listed (P : List Token → Prop) (s : Cursor) (body : List Statement) (t : Cursor) : Prop :=
  t.finish = s.finish ∧ ∃ taken, s.rest = taken ++ t.rest ∧ StatementTokens P taken body

/-- Behind all statements and the brace that follows them, or at the end of the text. -/
def Closed (P : List Token → Prop) (s : Cursor) (inBraces : Bool) (body : List Statement)
    (t : Cursor) : Prop :=
  t.finish = s.finish ∧ ∃ inner, StatementTokens P inner body ∧
    if inBraces then ∃ c, c.isMark "\x7d" ∧ s.rest = inner ++ c :: t.rest ∧
      t.previous = some c
    else s.rest = inner

include htype hblock htakes

theorem tokens_statements (hall : Ordered all) (hs : s.rest <:+ all)
    (hfinish : s.finish.kind = .finish)
    {inBraces : Bool} {body : List Statement}
    (h : statements types block inBraces s = .ok (body, u)) : Closed P s inBraces body u := by
  refine rounds_induction (I := fun found ↦ Listed P s found.reverse) (Q :=
    Closed P s inBraces) ?_ ⟨rfl, [], rfl, .nil⟩ h
  rintro found t r u ⟨hfinish', before, hrest, hbefore⟩ hr
  have ht : t.finish.kind = .finish := hfinish' ▸ hfinish
  have hsuffix : t.rest <:+ all := (hrest ▸ List.suffix_append before t.rest).trans hs
  have hadvance {text : String} (hmark : t.next.isMark text = true) :=
    Cursor.rest_eq_cons (rest_ne_nil_of_isMark ht hmark)
  rcases statementsStep_eq_ok hr with ⟨rfl, rfl, hnil, rfl⟩ | ⟨rfl, rfl, hclose, rfl⟩ |
    ⟨rfl, hmark, rfl⟩ | ⟨a, rfl, hne, hclose, ha⟩
  · refine ⟨hfinish', before, hbefore, ?_⟩
    rw [hrest, hnil, List.append_nil]
    rfl
  · obtain ⟨htrest, hprevious⟩ := hadvance hclose
    refine ⟨t.finish_advance.trans hfinish', before, hbefore, t.next, hclose, ?_, hprevious⟩
    rw [hrest, ← htrest]
  · obtain ⟨htrest, -⟩ := hadvance hmark
    refine ⟨t.finish_advance.trans hfinish', before ++ [t.next], ?_, ?_⟩
    · rw [hrest, List.append_assoc, List.singleton_append, ← htrest]
    · rw [← List.append_nil found.reverse]
      exact hbefore.append (.mark hmark .nil)
  · obtain ⟨hfinish'', own, first, last, htrest, hfirst, hlast, -, hspan, hbodies⟩ :=
      tokens_statement htype hblock htakes hall hsuffix ⟨ht, hne, hclose⟩ ha
    refine ⟨hfinish''.trans hfinish', before ++ own, ?_, ?_⟩
    · rw [hrest, htrest, List.append_assoc]
    · rw [List.reverse_cons, ← List.append_nil own]
      exact hbefore.append (.statement hfirst hlast hspan hbodies .nil)

end

/-- `P` holds of the tokens between the braces of each block that is read in the text. -/
def HoldsInBlocks (P : List Token → Prop) (all : List Token) : Prop :=
  ∀ n s body t o inner c, s.rest <:+ all → s.finish.kind = .finish →
    block n s = .ok (body, t) → s.rest = o :: (inner ++ c :: t.rest) → P inner

/-- A statement takes a token wherever one can begin. -/
theorem takesFrom_statement (n : Nat) (s : Cursor) (hs : AtStatement s) :
    TakesFrom (fun _ ↦ True) s (statement (within n) (block n)) := by
  have htypes := (settles_within (d := maxNesting) (n := n) (Nat.le_add_right _ _)).1
  obtain ⟨hblock, hbody⟩ := settles_block (d := maxNesting) (n := n) (Nat.le_add_right _ _)
  exact (statement_past htypes hblock hbody).takes s hs

theorem readsBody_block (hall : Ordered all) (hP : HoldsInBlocks P all) (n : Nat) :
    ReadsBody P all (block n) := by
  induction n with
  | zero =>
      intro s body t _ _ h
      obtain ⟨_, _, _, h⟩ := bind_eq_ok.mp h
      cases h
  | succ n ih =>
      intro s body t hs hfinish hblock
      obtain ⟨_, s', hopen, h⟩ := bind_eq_ok.mp hblock
      unfold expectMark at hopen
      split at hopen
      next hmark =>
        cases hopen
        obtain ⟨-, t', ht', rfl⟩ := nested_eq_ok h
        have hrest := (Cursor.rest_eq_cons (rest_ne_nil_of_isMark hfinish hmark)).1
        have hsuffix : s.advance.rest <:+ all := (hrest ▸ List.suffix_cons _ _).trans hs
        obtain ⟨hfinish', inner, hinner, c, hc, hadvance, hprevious⟩ :=
          tokens_statements (s := { s.advance with depth := s.advance.depth + 1 })
            (onlyReads_within n).1 ih (takesFrom_statement n) hall hsuffix
            (s.finish_advance ▸ hfinish) ht'
        have hrest : s.rest = s.next :: (inner ++ c :: t'.rest) := hadvance ▸ hrest
        exact ⟨hfinish'.trans s.finish_advance, s.next, inner, c, hmark, hc, hrest, hprevious,
          hP _ s body _ _ _ _ hs hfinish hblock hrest, hinner⟩
      next => cases hopen

end StatementGrammar

/-! ## Spans -/

namespace Statement

/-- The first statement ends before the second one begins. -/
def Precedes (s t : Statement) : Prop := s.span.stop ≤ t.span.start

/-- The statement begins and ends between two places. -/
structure Between (start stop : Nat) (s : Statement) : Prop where
  start_le : start ≤ s.span.start
  start_lt_stop : s.span.start < s.span.stop
  stop_le : s.span.stop ≤ stop

theorem Between.widen {start stop start' stop' : Nat} {s : Statement} (h : s.Between start stop)
    (hstart : start' ≤ start) (hstop : stop ≤ stop') : s.Between start' stop' :=
  ⟨Nat.le_trans hstart h.start_le, h.start_lt_stop, Nat.le_trans h.stop_le hstop⟩

/-- The tokens are those of the statement. -/
structure HasTokens (P : List Token → Prop) (own : List Token) (s : Statement) : Prop where
  span : ∃ first last, own.head? = some first ∧ own.getLast? = some last ∧
    s.span = ⟨first.span.start, last.span.stop⟩
  bodies : BodyTokens P own s.decl.written

end Statement

open Statement

theorem Ordered.of_append {ts us : List Token} (h : Ordered (ts ++ us)) :
    Ordered ts ∧ Ordered us ∧ ∀ t ∈ ts, ∀ u ∈ us, t.span.stop ≤ u.span.start :=
  ⟨h.sublist (List.sublist_append_left ts us), h.sublist (List.sublist_append_right ts us),
    (List.pairwise_append.mp h.pairwise).2.2⟩

section

variable {P : List Token → Prop}

/-- Statements are as far apart as their tokens. -/
theorem StatementTokens.between {ts : List Token} {body : List Statement}
    (h : StatementTokens P ts body) (hordered : Ordered ts) (start stop : Nat)
    (hts : ∀ t ∈ ts, start ≤ t.span.start ∧ t.span.stop ≤ stop) :
    (∀ s ∈ body, s.Between start stop) ∧ body.Pairwise Precedes := by
  match ts, body, h with
  | _, _, .nil => exact ⟨List.forall_mem_nil _, .nil⟩
  | _, _, .mark _ h =>
    exact h.between (hordered.sublist (List.sublist_cons_self _ _)) start stop fun t ht ↦
      hts t (List.mem_cons_of_mem _ ht)
  | _, _, @StatementTokens.statement _ own ts first last s body hfirst hlast hspan _ h =>
    obtain ⟨hown, hordered, hapart⟩ := hordered.of_append
    have hfirst' := hts _ (List.mem_append_left _ (List.mem_of_head? hfirst))
    have hlast' := hts _ (List.mem_append_left _ (List.mem_of_getLast? hlast))
    have hlt := hown.head_lt_last hfirst hlast
    obtain ⟨hbehind, hpairwise⟩ := h.between hordered last.span.stop stop
      fun t ht ↦ ⟨hapart _ (List.mem_of_getLast? hlast) t ht,
        (hts t (List.mem_append_right own ht)).2⟩
    refine ⟨List.forall_mem_cons.mpr
      ⟨?_, fun s hs ↦ (hbehind s hs).widen ?_ (Nat.le_refl _)⟩,
      .cons (fun s hs ↦ ?_) hpairwise⟩
    · constructor <;> rw [hspan]
      · exact hfirst'.1
      · exact hlt
      · exact hlast'.2
    · exact Nat.le_of_lt (Nat.lt_of_le_of_lt hfirst'.1 hlt)
    · rw [Precedes, hspan]
      exact (hbehind s hs).start_le

/-- The statements in the bodies of a statement are as far apart as the tokens of the bodies. -/
theorem BodyTokens.between {ts : List Token} {bodies : List (List Statement)}
    (h : BodyTokens P ts bodies) (hordered : Ordered ts) (start stop : Nat)
    (hts : ∀ t ∈ ts, start ≤ t.span.start ∧ t.span.stop ≤ stop) :
    (∀ s ∈ bodies.flatten, s.Between start stop) ∧ bodies.flatten.Pairwise Precedes := by
  match ts, bodies, h with
  | _, _, .nil => exact ⟨List.forall_mem_nil _, .nil⟩
  | _, _, .token h =>
    exact h.between (hordered.sublist (List.sublist_cons_self _ _)) start stop fun t ht ↦
      hts t (List.mem_cons_of_mem _ ht)
  | _, _, @BodyTokens.body _ o c inner ts first bodies _ _ _ hbody h =>
    obtain ⟨hinner, hordered, hapart⟩ :=
      (hordered.sublist (List.sublist_cons_self _ _)).of_append
    have hbehind : ∀ t ∈ ts, c.span.stop ≤ t.span.start :=
      (List.pairwise_cons.mp hordered.pairwise).1
    have hc := hordered.nonempty c List.mem_cons_self
    have hts' := List.forall_mem_append.mp (List.forall_mem_cons.mp hts).2
    obtain ⟨hbefore, hpairwise⟩ := hbody.between hinner start c.span.start
      fun t ht ↦ ⟨(hts'.1 t ht).1, hapart t ht c List.mem_cons_self⟩
    obtain ⟨hafter, hpairwise'⟩ := h.between (hordered.sublist (List.sublist_cons_self _ _))
      c.span.stop stop
      fun t ht ↦ ⟨hbehind t ht, (hts'.2 t (List.mem_cons_of_mem _ ht)).2⟩
    have hplace := hts'.2 c List.mem_cons_self
    rw [List.flatten_cons, List.forall_mem_append, List.pairwise_append]
    refine ⟨⟨fun s hs ↦ ?_, fun s hs ↦ ?_⟩, hpairwise, hpairwise', fun s hs t ht ↦ ?_⟩
    · exact (hbefore s hs).widen (Nat.le_refl _) (by omega)
    · exact (hafter s hs).widen (by omega) (Nat.le_refl _)
    · have hs := (hbefore s hs).stop_le
      have ht := (hafter t ht).start_le
      exact Nat.le_trans hs (by omega)

theorem StatementTokens.hasTokens {ts : List Token} {body : List Statement}
    (h : StatementTokens P ts body) :
    ∀ s ∈ body, ∃ own, own.Sublist ts ∧ s.HasTokens P own := by
  match ts, body, h with
  | _, _, .nil => exact List.forall_mem_nil _
  | _, _, .mark _ h =>
    intro s hs
    obtain ⟨own, hown, htokens⟩ := h.hasTokens s hs
    exact ⟨own, hown.cons _, htokens⟩
  | _, _, @StatementTokens.statement _ own ts first last s body hfirst hlast hspan hbodies h =>
    refine List.forall_mem_cons.mpr
      ⟨⟨own, List.sublist_append_left _ _, ⟨_, _, hfirst, hlast, hspan⟩,
      hbodies⟩, fun s hs ↦ ?_⟩
    obtain ⟨own', hown, htokens⟩ := h.hasTokens s hs
    exact ⟨own', hown.trans (List.sublist_append_right _ _), htokens⟩

/-- Each body has tokens of its own, for which `P` holds. -/
theorem BodyTokens.statementTokens {ts : List Token} {bodies : List (List Statement)}
    (h : BodyTokens P ts bodies) :
    ∀ body ∈ bodies, ∃ inner, inner.Sublist ts ∧ P inner ∧
    StatementTokens P inner body := by
  match ts, bodies, h with
  | _, _, .nil => exact List.forall_mem_nil _
  | _, _, .token h =>
    intro body hbody
    obtain ⟨inner, hsub, hinner⟩ := h.statementTokens body hbody
    exact ⟨inner, hsub.cons _, hinner⟩
  | _, _, @BodyTokens.body _ o c inner ts first bodies _ _ hP hbody h =>
    refine List.forall_mem_cons.mpr ⟨⟨inner, ?_, hP, hbody⟩, fun body hmem ↦ ?_⟩
    · exact (List.sublist_append_left _ _).cons _
    · obtain ⟨inner', hsub, hinner'⟩ := h.statementTokens body hmem
      exact ⟨inner', ((hsub.cons _).trans (List.sublist_append_right _ _)).cons _, hinner'⟩

/-- The statements inside a statement have tokens among those of that one. -/
theorem Statement.HasTokens.subtree {own : List Token} {s : Statement} (h : s.HasTokens P own) :
    ∀ t ∈ s.subtree, ∃ inner, inner.Sublist own ∧ t.HasTokens P inner := by
  induction s using children_induction generalizing own with
  | h s ih =>
      intro t ht
      rw [subtree_eq] at ht
      rcases List.mem_cons.mp ht with rfl | ht
      · exact ⟨own, .refl own, h⟩
      · obtain ⟨c, hc, ht⟩ := List.mem_flatMap.mp ht
        have hchild := hc
        rw [children_eq] at hc
        obtain ⟨body, hbody, hc⟩ := List.mem_flatten.mp hc
        obtain ⟨inner, hsub, -, hinner⟩ := h.bodies.statementTokens body hbody
        obtain ⟨own', hsub', htokens⟩ := hinner.hasTokens c hc
        obtain ⟨own'', hsub'', hown''⟩ := ih c hchild htokens t ht
        exact ⟨own'', hsub''.trans (hsub'.trans hsub), hown''⟩

/-- The statements inside a statement begin and end inside it. -/
theorem Statement.HasTokens.inside {own : List Token} {s : Statement} (h : s.HasTokens P own)
    (hown : Ordered own) :
    ∀ t ∈ s.subtree, s.span.start ≤ t.span.start ∧ t.span.stop ≤ s.span.stop := by
  intro t ht
  obtain ⟨inner, hinner, htokens⟩ := h.subtree t ht
  obtain ⟨first, last, hfirst, hlast, hspan⟩ := h.span
  obtain ⟨first', last', hfirst', hlast', hspan'⟩ := htokens.span
  have hbetween := hown.between hfirst hlast
  rw [hspan, hspan']
  exact ⟨(hbetween first' (hinner.subset (List.mem_of_head? hfirst'))).1,
    (hbetween last' (hinner.subset (List.mem_of_getLast? hlast'))).2⟩

/-- A text that does not begin with a mark `;` begins with a statement. -/
theorem StatementTokens.head {t : Token} {ts : List Token} {body : List Statement}
    (h : StatementTokens P (t :: ts) body) (ht : t.isMark ";" = false) :
    ∃ s rest, body = s :: rest ∧ s.span.start = t.span.start := by
  generalize hall : t :: ts = all at h
  match all, body, h with
  | _, _, .nil => cases hall
  | _, _, .mark hmark _ =>
    cases hall
    rw [ht] at hmark
    cases hmark
  | _, _, @StatementTokens.statement _ own more first last s rest hfirst hlast hspan hbodies _ =>
    obtain ⟨own', rfl⟩ := List.head?_eq_some_iff.mp hfirst
    cases hall
    exact ⟨s, rest, rfl, by rw [hspan]⟩

/-- The children of a statement are inside it, one behind the other. -/
theorem Statement.HasTokens.between {own : List Token} {s : Statement} (h : s.HasTokens P own)
    (hown : Ordered own) : s.span.start < s.span.stop ∧ s.children.Pairwise Precedes ∧
      ∀ c ∈ s.children, c.Between s.span.start s.span.stop := by
  obtain ⟨first, last, hfirst, hlast, hspan⟩ := h.span
  have hbetween := h.bodies.between hown _ _ (hown.between hfirst hlast)
  rw [children_eq, hspan]
  exact ⟨hown.head_lt_last hfirst hlast, hbetween.2, hbetween.1⟩

end

namespace SourceFile

open StatementGrammar TypeGrammar

theorem ordered_ofSource {source : String} {l : Lexed} (h : Lexed.ofSource source = .ok l) :
    Ordered l.tokens :=
  ⟨fun t ht ↦ ((Lexed.laid_of_ofSource h).pairwise.1 t ht).2,
    (Lexed.laid_of_ofSource h).pairwise.2⟩

/-- The tokens of a text are those of its statements. -/
theorem tokens_ofSource {source : String} {f : SourceFile} (h : ofSource source = .ok f) :
    ∃ l, Lexed.ofSource source = .ok l ∧
      ∀ P, HoldsInBlocks P l.tokens → StatementTokens P l.tokens f.statements := by
  obtain ⟨l, hl, -, u, hstatements⟩ := ofSource_eq_ok.mp h
  refine ⟨l, hl, fun P hP ↦ ?_⟩
  have hordered := ordered_ofSource hl
  obtain ⟨-, inner, hinner, hrest⟩ := tokens_statements (onlyReads_within maxNesting).1
    (readsBody_block hordered hP maxNesting) (takesFrom_statement maxNesting) hordered
    (List.suffix_refl _) rfl hstatements
  exact (show l.tokens = inner from hrest) ▸ hinner

/-- The statements of a text, each before those inside it, have the numbers from 0 on. The tokens of
the text are those of its statements: each statement is from its first token to its last one, those
beside each other follow one another, and so do those inside a statement, between its beginning and
its end. -/
theorem spans_ofSource {source : String} {f : SourceFile} (h : ofSource source = .ok f) :
    f.allStatements.map Statement.id = List.range f.allStatements.length ∧
      (∃ l, Lexed.ofSource source = .ok l ∧ StatementTokens (fun _ ↦ True) l.tokens
        f.statements) ∧
      f.statements.Pairwise Precedes ∧
      ∀ s ∈ f.allStatements, s.span.start < s.span.stop ∧ s.children.Pairwise Precedes ∧
        ∀ c ∈ s.children, s.span.start ≤ c.span.start ∧ c.span.stop ≤ s.span.stop := by
  obtain ⟨l, hl, htokens⟩ := tokens_ofSource h
  have htokens := htokens (fun _ ↦ True) fun _ _ _ _ _ _ _ _ _ _ _ ↦ trivial
  have hordered := ordered_ofSource hl
  have hwithin :
      ∀ t ∈ l.tokens, 0 ≤ t.span.start ∧ t.span.stop ≤ 0 + byteCount source.toList :=
    fun t ht ↦ ⟨Nat.zero_le _, (Lexed.laid_of_ofSource hl).byteCount_le t ht⟩
  refine ⟨ids_eq_range h, ⟨l, hl, htokens⟩, (htokens.between hordered _ _ hwithin).2,
    fun s hs ↦ ?_⟩
  obtain ⟨r, hr, hs⟩ := mem_allStatements.mp hs
  obtain ⟨own, hown, htokens⟩ := htokens.hasTokens r hr
  obtain ⟨inner, hinner, htokens⟩ := htokens.subtree s hs
  obtain ⟨hlt, hpairwise, hinside⟩ := htokens.between (hordered.sublist (hinner.trans hown))
  exact ⟨hlt, hpairwise, fun c hc ↦ ⟨(hinside c hc).start_le, (hinside c hc).stop_le⟩⟩

/-- A class with a statement in the body of a method, and a block behind it. -/
theorem spans_ofSource_method :
    ∃ f, ofSource "class A \x7b m() \x7b var x \x7d \x7d \x7b ; \x7d" = .ok f ∧
      f.allStatements.map (fun s ↦ (s.id, s.span)) =
        [(0, ⟨0, 25⟩), (1, ⟨16, 21⟩), (2, ⟨26, 31⟩)] ∧
      f.statements.Pairwise Precedes ∧ ∀ s ∈ f.allStatements, ∀ c ∈ s.children,
        s.span.start ≤ c.span.start ∧ c.span.stop ≤ s.span.stop := by
  have hread : (ofSource "class A \x7b m() \x7b var x \x7d \x7d \x7b ; \x7d").toOption.map
      (fun f ↦ f.allStatements.map fun s ↦ (s.id, s.span)) =
        some [(0, ⟨0, 25⟩), (1, ⟨16, 21⟩), (2, ⟨26, 31⟩)] := by decide +kernel
  obtain ⟨f, hf, hlist⟩ := Option.map_eq_some_iff.mp hread
  have hf := toOption_eq_some.mp hf
  obtain ⟨-, -, hstatements, hinside⟩ := spans_ofSource hf
  exact ⟨f, hf, hlist, hstatements, fun s hs ↦ (hinside s hs).2.2⟩

end SourceFile

end PluginSurface
