import PluginSurface.Proofs.Syntax.Reading
import PluginSurface.Syntax.Statement

/-!
# Parsers do not look at places

Where tokens stand is kept for messages and for the tree, and no parser looks at it; nor does one
look at the numbers that were given away. Two parsers are parallel if the second one, on the same
tokens in other places, answers as the first one does, with the places and numbers in its answer
changed alike. Each combinator keeps this, and `grind` puts it together along the text of a parser.
-/

namespace PluginSurface

/-! ## Without places -/

/-- The token without its place. -/
def Token.bare (t : Token) : Token := { t with span := ⟨0, 0⟩ }

/-- The name without its place. -/
def Name.bare (n : Name) : Name := { n with span := ⟨0, 0⟩ }

def InterfaceDecl.bare (i : InterfaceDecl) : InterfaceDecl := { i with name := i.name.bare }

def AliasDecl.bare (a : AliasDecl) : AliasDecl := { a with name := a.name.bare }

/-! ## In other places -/

/-- A change of places and numbers. `before` is the token behind which the tokens stand in their new
places, if there is one. -/
structure Relocation where
  offset : Nat → Nat
  offset_le : ∀ {m n}, m ≤ n → offset m ≤ offset n
  number : Nat → Nat
  number_succ : ∀ n, number (n + 1) = number n + 1
  before : Option Token
  stop_before : before.elim 0 (fun t ↦ t.span.stop) = offset 0

namespace Relocation

/-- The change that takes all places away and leaves the numbers. -/
def bare : Relocation where
  offset _ := 0
  offset_le _ := Nat.le_refl 0
  number n := n
  number_succ _ := rfl
  before := none
  stop_before := rfl

variable (r : Relocation)

theorem offset_max (m n : Nat) : r.offset (max m n) = max (r.offset m) (r.offset n) := by
  rcases Nat.le_total m n with h | h
  · rw [Nat.max_eq_right h, Nat.max_eq_right (r.offset_le h)]
  · rw [Nat.max_eq_left h, Nat.max_eq_left (r.offset_le h)]

def span (s : Span) : Span := ⟨r.offset s.start, r.offset s.stop⟩

def token (t : Token) : Token := { t with span := r.span t.span }

def error (e : SyntaxError) : SyntaxError := { e with span := r.span e.span }

def name (n : Name) : Name := { n with span := r.span n.span }

def interfaceDecl (i : InterfaceDecl) : InterfaceDecl := { i with name := r.name i.name }

def aliasDecl (a : AliasDecl) : AliasDecl := { a with name := r.name a.name }

/-- The cursor on the tokens in their new places. -/
def cursor (s : Cursor) : Cursor :=
  { s with
    previous := (s.previous.map r.token).or r.before
    rest := s.rest.map r.token
    finish := r.token s.finish
    nextId := r.number s.nextId }

section

variable (t : Token)

@[simp, grind =] theorem kind_token : (r.token t).kind = t.kind := rfl

@[simp, grind =] theorem text_token : (r.token t).text = t.text := rfl

@[simp, grind =] theorem newlineBefore_token : (r.token t).newlineBefore = t.newlineBefore := rfl

@[simp, grind =] theorem span_token : (r.token t).span = r.span t.span := rfl

@[simp, grind =] theorem isMark_token (text : String) :
    (r.token t).isMark text = t.isMark text := rfl

@[simp, grind =] theorem isWord_token (text : String) :
    (r.token t).isWord text = t.isWord text := rfl

@[simp, grind =] theorem isMarkIn_token (texts : List String) :
    (r.token t).isMarkIn texts = t.isMarkIn texts := rfl

@[simp] theorem isOpener_token : (r.token t).isOpener = t.isOpener := rfl

@[simp] theorem isCloser_token : (r.token t).isCloser = t.isCloser := rfl

end

variable (s : Cursor)

@[simp, grind =] theorem rest_cursor : (r.cursor s).rest = s.rest.map r.token := rfl

@[simp, grind =] theorem finish_cursor : (r.cursor s).finish = r.token s.finish := rfl

@[simp, grind =] theorem nextId_cursor : (r.cursor s).nextId = r.number s.nextId := rfl

@[simp, grind =] theorem depth_cursor : (r.cursor s).depth = s.depth := rfl

@[simp, grind =] theorem inBound_cursor : (r.cursor s).inBound = s.inBound := rfl

@[simp, grind =] theorem token_cursor (n : Nat) : (r.cursor s).token n = r.token (s.token n) := by
  simp only [Cursor.token, rest_cursor, finish_cursor, List.getD_eq_getElem?_getD,
    List.getElem?_map]
  cases s.rest[n]? <;> rfl

@[simp, grind =] theorem next_cursor : (r.cursor s).next = r.token s.next := r.token_cursor s 0

@[simp, grind =] theorem atEnd_cursor : (r.cursor s).atEnd = s.atEnd := by simp [Cursor.atEnd]

@[simp, grind =] theorem passed_cursor : (r.cursor s).passed = r.offset s.passed := by
  obtain ⟨previous, rest, finish, nextId, depth, inBound⟩ := s
  cases previous with
  | none =>
      refine Eq.trans ?_ r.stop_before
      simp only [Cursor.passed, cursor, Option.map_none, Option.none_or]
      cases r.before <;> rfl
  | some t => rfl

theorem advance_cursor : (r.cursor s).advance = r.cursor s.advance := by
  obtain ⟨previous, rest, finish, nextId, depth, inBound⟩ := s
  cases rest <;> rfl

end Relocation

/-- What one round ends with, with its state and its result changed. -/
def Round.map {α α' β β' : Type} (f : β → β') (g : α → α') :
    Round β α → Round β' α'
  | .again state => .again (f state)
  | .done result => .done (g result)

namespace Parser

variable {r : Relocation} {α α' β β' γ : Type}

/-- What a parser answers in the new places, those in the answer being changed by `f`. -/
def relocated (r : Relocation) (f : α → β) :
    Except SyntaxError (α × Cursor) → Except SyntaxError (β × Cursor)
  | .ok (a, t) => .ok (f a, r.cursor t)
  | .error e => .error (r.error e)

/-- On tokens in new places, the second parser answers as the first one does, up to the places that
`f` changes in the answer. -/
def Parallel (r : Relocation) (f : α → β) (p : Parser α) (q : Parser β) : Prop :=
  ∀ s, q (r.cursor s) = relocated r f (p s)

/-- The parser answers the same, and nothing with a place, wherever the tokens stand. -/
abbrev Placeless (r : Relocation) (p : Parser α) : Prop := Parallel r id p p

/-! ## Combinators -/

@[grind ←]
theorem parallel_pure {f : α → β} {a : α} {b : β} (h : b = f a) :
    Parallel r f (pure a) (pure b) := by
  intro s
  rw [h]
  rfl

theorem parallel_bind {f : α → α'} {g : β → β'} {p : Parser α} {p' : Parser α'}
    {q : α → Parser β} {q' : α' → Parser β'} (hp : Parallel r f p p')
    (hq : ∀ a, Parallel r g (q a) (q' (f a))) : Parallel r g (p >>= q) (p' >>= q') := by
  intro s
  change (p' (r.cursor s) >>= fun r ↦ q' r.1 r.2) = relocated r g (p s >>= fun r ↦ q r.1 r.2)
  rw [hp s]
  cases p s with
  | error e => rfl
  | ok r => exact hq r.1 r.2

section

variable {g : β → β'}

@[grind ←]
theorem parallel_bind_id {p p' : Parser α} {q : α → Parser β} {q' : α → Parser β'}
    (hp : Parallel r id p p') (hq : ∀ a, Parallel r g (q a) (q' a)) :
    Parallel r g (p >>= q) (p' >>= q') := parallel_bind hp hq

@[grind ←]
theorem parallel_bind_token {p p' : Parser Token} {q : Token → Parser β}
    {q' : Token → Parser β'}
    (hp : Parallel r r.token p p') (hq : ∀ t, Parallel r g (q t) (q' (r.token t))) :
    Parallel r g (p >>= q) (p' >>= q') := parallel_bind hp hq

@[grind ←]
theorem parallel_bind_tokens {p p' : Parser (List Token)} {q : List Token → Parser β}
    {q' : List Token → Parser β'} (hp : Parallel r (List.map r.token) p p')
    (hq : ∀ ts, Parallel r g (q ts) (q' (ts.map r.token))) :
    Parallel r g (p >>= q) (p' >>= q') := parallel_bind hp hq

@[grind ←]
theorem parallel_bind_cursor {p p' : Parser Cursor} {q : Cursor → Parser β}
    {q' : Cursor → Parser β'} (hp : Parallel r r.cursor p p')
    (hq : ∀ s, Parallel r g (q s) (q' (r.cursor s))) :
    Parallel r g (p >>= q) (p' >>= q') := parallel_bind hp hq

end

theorem parallel_ite {f : α → β} {c : Prop} [Decidable c] {p p' : Parser α} {q q' : Parser β}
    (hp : Parallel r f p q) (hp' : Parallel r f p' q') :
    Parallel r f (if c then p else p') (if c then q else q') := by
  split
  · exact hp
  · exact hp'

theorem parallel_discard {f : α → α'} {p : Parser α} {p' : Parser α'}
    (hp : Parallel r f p p') : Parallel r id (discard p) (discard p') := by
  change Parallel r id (p >>= fun _ ↦ pure ()) (p' >>= fun _ ↦ pure ())
  exact parallel_bind hp fun _ ↦ parallel_pure rfl

@[grind ←]
theorem parallel_get : Parallel r r.cursor get get := fun _ ↦ rfl

theorem parallel_modify {f f' : Cursor → Cursor} (h : ∀ s, f' (r.cursor s) = r.cursor (f s)) :
    Parallel r id (modify f : Parser Unit) (modify f') :=
  fun s ↦ congrArg (fun t ↦ Except.ok ((), t)) (h s)

@[grind ←]
theorem parallel_fail (f : α → β) (fault : Fault) : Parallel r f (fail fault) (fail fault) := by
  intro s
  simp only [fail, r.next_cursor]
  rfl

@[grind ←]
theorem parallel_unexpected (f : α → β) (what : Wanted) :
    Parallel r f (unexpected what) (unexpected what) := by
  intro s
  simp only [unexpected, r.next_cursor, r.kind_token, r.text_token]
  rfl

@[grind ←]
theorem parallel_look (n : Nat) : Parallel r r.token (look n) (look n) :=
  fun s ↦ congrArg (fun t ↦ Except.ok (t, r.cursor s)) (r.token_cursor s n)

@[grind ←]
theorem parallel_bump : Parallel r r.token bump bump := by
  intro s
  simp only [bump, r.next_cursor, r.advance_cursor]
  rfl

@[grind ←]
theorem parallel_atMark (text : String) : Parallel r id (atMark text) (atMark text) := by
  unfold atMark
  grind

@[grind ←]
theorem parallel_atWord (text : String) : Parallel r id (atWord text) (atWord text) := by
  unfold atWord
  grind

@[grind ←]
theorem parallel_eatMark (text : String) : Parallel r id (eatMark text) (eatMark text) := by
  intro s
  simp only [eatMark, r.next_cursor, r.advance_cursor, r.isMark_token]
  split <;> rfl

@[grind ←]
theorem parallel_eatWord (text : String) : Parallel r id (eatWord text) (eatWord text) := by
  intro s
  simp only [eatWord, r.next_cursor, r.advance_cursor, r.isWord_token]
  split <;> rfl

@[grind ←]
theorem parallel_expectMark (text : String) :
    Parallel r id (expectMark text) (expectMark text) := by
  intro s
  simp only [expectMark, r.next_cursor, r.advance_cursor, r.isMark_token,
    parallel_unexpected id _ s]
  split <;> rfl

@[grind ←]
theorem parallel_expectWord (text : String) :
    Parallel r id (expectWord text) (expectWord text) := by
  intro s
  simp only [expectWord, r.next_cursor, r.advance_cursor, r.isWord_token,
    parallel_unexpected id _ s]
  split <;> rfl

@[grind ←]
theorem parallel_expectKind (kind : TokenKind) (what : Wanted) :
    Parallel r r.token (expectKind kind what) (expectKind kind what) := by
  intro s
  simp only [expectKind, r.next_cursor, r.advance_cursor, r.kind_token,
    parallel_unexpected r.token _ s]
  split <;> rfl

@[grind ←]
theorem parallel_expectWordText : Parallel r id expectWordText expectWordText := by
  unfold expectWordText
  grind

@[grind ←]
theorem parallel_expectString : Parallel r id expectString expectString := by
  unfold expectString
  grind

@[grind ←]
theorem parallel_afterMark (text : String) {p p' : Parser α} (hp : Parallel r id p p') :
    Parallel r id (afterMark text p) (afterMark text p') := by
  unfold afterMark
  grind

@[grind ←]
theorem parallel_afterWord (text : String) {p p' : Parser α} (hp : Parallel r id p p') :
    Parallel r id (afterWord text p) (afterWord text p') := by
  unfold afterWord
  grind

@[grind ←]
theorem parallel_attempt {p p' : Parser (Option α)} (hp : Parallel r id p p') :
    Parallel r id (attempt p) (attempt p') := by
  intro s
  simp only [attempt, hp s]
  cases p s with
  | error e => rfl
  | ok r =>
      obtain ⟨found, t⟩ := r
      cases found <;> rfl

/-! ## Levels -/

@[grind ←]
theorem parallel_nested {f : α → α'} {p : Parser α} {p' : Parser α'}
    (hp : Parallel r f p p') : Parallel r f (nested p) (nested p') := by
  intro s
  change (if s.depth < maxNesting then
      (p' (r.cursor { s with depth := s.depth + 1 })).map fun r ↦
        (r.1, { r.2 with depth := r.2.depth - 1 })
    else fail .tooDeep (r.cursor s)) = _
  rw [hp, nested]
  split
  · cases p { s with depth := s.depth + 1 } <;> rfl
  · exact parallel_fail f _ s

@[grind ←]
theorem parallel_withBound {f : α → α'} (inBound : Bool) {p : Parser α} {p' : Parser α'}
    (hp : Parallel r f p p') : Parallel r f (withBound inBound p) (withBound inBound p') := by
  intro s
  change (p' (r.cursor { s with inBound := inBound })).map (fun r ↦
    (r.1, { r.2 with inBound := s.inBound })) = _
  rw [hp, withBound]
  cases p { s with inBound := inBound } <;> rfl

/-! ## Runs of tokens -/

theorem getLast?_relocated (ts : List Token) (t : Option Token) :
    (ts.map r.token).getLast?.or ((t.map r.token).or r.before) =
      ((ts.getLast?.or t).map r.token).or r.before := by
  rw [List.getLast?_map]
  cases ts.getLast? <;> rfl

theorem spanTokens_relocated {p : Token → Token → Bool}
    (hp : ∀ t next, p (r.token t) (r.token next) = p t next) (finish : Token) (ts : List Token) :
    spanTokens p (r.token finish) (ts.map r.token) =
      ((spanTokens p finish ts).1.map r.token, (spanTokens p finish ts).2.map r.token) := by
  induction ts with
  | nil => rfl
  | cons t rest ih =>
      have hnext : (rest.map r.token).headD (r.token finish) = r.token (rest.headD finish) := by
        cases rest <;> rfl
      rw [List.map_cons, spanTokens, spanTokens, hnext, hp, ih]
      split <;> rfl

theorem parallel_takeTokens {p : Token → Token → Bool}
    (hp : ∀ t next, p (r.token t) (r.token next) = p t next) :
    Parallel r (List.map r.token) (takeTokens p) (takeTokens p) := by
  intro s
  simp only [takeTokens, r.rest_cursor, r.finish_cursor, spanTokens_relocated hp]
  have hprevious : (r.cursor s).previous = (s.previous.map r.token).or r.before := rfl
  rw [hprevious, getLast?_relocated]
  rfl

theorem closeGroup_relocated (depth : Nat) (ts : List Token) :
    closeGroup depth (ts.map r.token) = (closeGroup depth ts).map fun (inside, close, rest) ↦
      (inside.map r.token, r.token close, rest.map r.token) := by
  fun_induction closeGroup depth ts with
  | case1 => rfl
  | case2 depth t rest hopen ih =>
      simp only [List.map_cons, closeGroup, r.isOpener_token, hopen, if_true, ih]
      cases closeGroup (depth + 1) rest <;> rfl
  | case3 t rest hopen hclose =>
      simp [closeGroup, hopen, hclose]
  | case4 t rest hopen hclose less ih =>
      simp only [List.map_cons, closeGroup, r.isOpener_token, r.isCloser_token, hopen, hclose, ih]
      cases closeGroup less rest <;> rfl
  | case5 depth t rest hopen hclose ih =>
      simp only [List.map_cons, closeGroup, r.isOpener_token, r.isCloser_token, hopen, hclose, ih]
      cases closeGroup depth rest <;> rfl

@[grind ←]
theorem parallel_takeGroup : Parallel r (List.map r.token) takeGroup takeGroup := by
  intro s
  have hgroup := closeGroup_relocated (r := r) 0 s.rest.tail
  rw [List.map_tail] at hgroup
  simp only [takeGroup, r.rest_cursor, hgroup]
  cases closeGroup 0 s.rest.tail with
  | none => exact parallel_fail (List.map r.token) _ s
  | some group => rfl

@[grind ←]
theorem parallel_skipGroup : Parallel r id skipGroup skipGroup :=
  parallel_discard parallel_takeGroup

theorem breaksExpression_relocated (last : Option Token) (t : Token) :
    breaksExpression (last.map r.token) (r.token t) = breaksExpression last t := by
  cases last <;> rfl

/-- The end of an expression in the new places, or the opener of a group that is not closed. -/
def relocatedEnd (r : Relocation) :
    Except Token (Option Token × List Token) → Except Token (Option Token × List Token)
  | .ok (last, rest) => .ok (last.map r.token, rest.map r.token)
  | .error opener => .error (r.token opener)

theorem expressionEnd_relocated (stops : List String) (lines : Bool) (group : Option (Token × Nat))
    (last : Option Token) (ts : List Token) :
    expressionEnd stops lines (group.map fun g ↦ (r.token g.1, g.2)) (last.map r.token)
        (ts.map r.token) = relocatedEnd r (expressionEnd stops lines group last ts) := by
  fun_induction expressionEnd stops lines group last ts with
  | case1 | case2 => rfl
  | case3 last t rest hend =>
      rw [List.map_cons, Option.map_none, expressionEnd, r.isMarkIn_token, r.isCloser_token,
        breaksExpression_relocated, if_pos hend]
      rfl
  | case4 last t rest hend ih =>
      rw [List.map_cons, Option.map_none, expressionEnd, r.isMarkIn_token, r.isCloser_token,
        breaksExpression_relocated, if_neg hend, ← ih, r.isOpener_token]
      split <;> rfl
  | case5 opener depth last t rest group ih =>
      simp only [List.map_cons, Option.map_some, expressionEnd, r.isOpener_token, r.isCloser_token]
      refine Eq.trans (congrArg (expressionEnd stops lines · _ _) ?_) ih
      unfold group
      by_cases hopen : t.isOpener = true
      · simp [hopen]
      · by_cases hclose : t.isCloser = true
        · cases depth <;> simp [hopen, hclose]
        · simp [hopen, hclose]

@[grind ←]
theorem parallel_passExpression (stops : List String) (lines : Bool) :
    Parallel r id (passExpression stops lines) (passExpression stops lines) := by
  intro s
  have hend := expressionEnd_relocated (r := r) stops lines none none s.rest
  rw [Option.map_none, Option.map_none] at hend
  simp only [passExpression, r.rest_cursor, hend]
  cases expressionEnd stops lines none none s.rest with
  | error opener => rfl
  | ok r =>
      obtain ⟨last, rest⟩ := r
      cases last <;> rfl

@[grind ←]
theorem parallel_skipExpression (stops : List String) (lines : Bool) :
    Parallel r id (skipExpression stops lines) (skipExpression stops lines) :=
  parallel_discard (parallel_passExpression stops lines)

/-! ## Repetition -/

theorem parallel_rounds {f : β → β'} {g : α → α'} {step : β → Parser (Round β α)}
    {step' : β' → Parser (Round β' α')}
    (hstep : ∀ state, Parallel r (Round.map f g) (step state) (step' (f state))) (state : β) :
    Parallel r g (rounds step state) (rounds step' (f state)) := by
  have hwithin (fuel : List Token) : ∀ state, Parallel r g (roundsWithin step fuel state)
      (roundsWithin step' (fuel.map r.token) (f state)) := by
    induction fuel with
    | nil => exact fun _ ↦ parallel_fail g _
    | cons _ more ih =>
        intro state
        refine parallel_bind (hstep state) fun r ↦ ?_
        cases r with
        | again state => exact ih state
        | done a => exact parallel_pure rfl
  exact fun s ↦ hwithin (s.finish :: s.rest) state s

theorem Round.map_id : Round.map (id : β → β) (id : α → α) = id := by
  funext r
  cases r <;> rfl

@[grind ←]
theorem parallel_rounds_id {step step' : β → Parser (Round β α)}
    (hstep : ∀ state, Parallel r id (step state) (step' state)) (state : β) :
    Parallel r id (rounds step state) (rounds step' state) :=
  parallel_rounds (f := id) (fun state ↦ by
    rw [Round.map_id]
    exact hstep state) state

@[grind ←]
theorem parallel_listUntil (close : String) {item item' : Nat → Parser α}
    (hitem : ∀ n, Parallel r id (item n) (item' n)) :
    Parallel r id (listUntil close item) (listUntil close item') := by
  unfold listUntil
  refine parallel_rounds_id (fun found ↦ ?_) []
  unfold listStep
  grind

/-- Items found so far, last one first, and all items when they are done. -/
abbrev Round.mapAll (f : α → β) : Round (List α) (List α) → Round (List β) (List β) :=
  Round.map (List.map f) (List.map f)

theorem parallel_found {f : α → β} {item : Parser α} {item' : Parser β}
    (hitem : Parallel r f item item') (found : List α) :
    Parallel r (Round.mapAll f) (item >>= fun a ↦ pure (.again (a :: found)))
      (item' >>= fun b ↦ pure (.again (b :: found.map f))) :=
  parallel_bind hitem fun _ ↦ parallel_pure rfl

theorem parallel_all {f : α → β} (found : List α) :
    Parallel r (Round.mapAll f) (pure (.done found.reverse)) (pure (.done (found.map f).reverse)) :=
  parallel_pure (by rw [Round.mapAll, Round.map, List.map_reverse])

theorem parallel_braced {f : α → β} (separators : List String) {item : Parser α}
    {item' : Parser β} (hitem : Parallel r f item item') :
    Parallel r (List.map f) (braced separators item) (braced separators item') := by
  unfold braced
  refine parallel_bind_id (parallel_expectMark _) fun _ ↦
    parallel_rounds (f := List.map f) (fun found ↦ ?_) []
  have hfound := parallel_found hitem found
  have hall := parallel_all (r := r) (f := f) found
  have hagain : Parallel r (Round.mapAll f) (pure (.again found)) (pure (.again (found.map f))) :=
    parallel_pure rfl
  unfold bracedStep
  grind

theorem parallel_separated {f : α → β} (separator : String) {item : Parser α}
    {item' : Parser β} (hitem : Parallel r f item item') :
    Parallel r (List.map f) (separated separator item) (separated separator item') := by
  unfold separated
  refine parallel_bind hitem fun first ↦
    parallel_rounds (f := List.map f) (fun found ↦ ?_) [first]
  have hfound := parallel_found hitem found
  have hall := parallel_all (r := r) (f := f) found
  unfold separatedStep
  grind

@[grind ←]
theorem parallel_braced_id (separators : List String) {item item' : Parser α}
    (hitem : Parallel r id item item') :
    Parallel r id (braced separators item) (braced separators item') := by
  simpa using parallel_braced separators hitem

@[grind ←]
theorem parallel_separated_id (separator : String) {item item' : Parser α}
    (hitem : Parallel r id item item') :
    Parallel r id (separated separator item) (separated separator item') := by
  simpa using parallel_separated separator hitem

end Parser

end PluginSurface
