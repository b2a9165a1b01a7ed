import Mathlib.Data.List.Basic
import PluginSurface.Path

/-!
# The stretches of a path

What joining, normalizing and going up do to an absolute path is said by what they do to its
stretches. A walk along stretches is followed by its depth, so that one can tell whether it leaves
the directory in which it begins.
-/

namespace PluginSurface

theorem endsWith_iff {text ending : String} :
    text.endsWith ending = true ↔ ending.toList <:+ text.toList := by
  have h : text.toSlice.endsWith ending = true ↔ ending.toList <:+ text.toSlice.copy.toList :=
    String.Slice.endsWith_string_iff
  rwa [String.copy_toSlice] at h

namespace Path

/-! ## Stretches -/

theorem stretches_ne_nil (cs : List Char) : stretches cs ≠ [] := by
  cases cs with
  | nil => exact List.cons_ne_nil _ _
  | cons c rest =>
      rw [stretches]
      split
      · exact List.cons_ne_nil _ _
      · split <;> exact List.cons_ne_nil _ _

theorem stretches_append_slash (as bs : List Char) :
    stretches (as ++ '/' :: bs) = stretches as ++ stretches bs := by
  induction as with
  | nil => simp [stretches]
  | cons a rest ih =>
      rw [List.cons_append, stretches, stretches, ih]
      split
      · rfl
      · cases hrest : stretches rest with
        | nil => exact absurd hrest (stretches_ne_nil rest)
        | cons s more => rfl

theorem stretches_of_not_mem {cs : List Char} (h : '/' ∉ cs) : stretches cs = [cs] := by
  induction cs with
  | nil => rfl
  | cons c rest ih =>
      rw [List.mem_cons, not_or] at h
      rw [stretches, if_neg (Ne.symm h.1), ih h.2]

/-- The stretches with a slash before each are the text with a slash before it. -/
theorem flatMap_stretches (cs : List Char) : (stretches cs).flatMap ('/' :: ·) = '/' :: cs := by
  induction cs with
  | nil => rfl
  | cons c rest ih =>
      rw [stretches]
      split
      next hc => rw [List.flatMap_cons, ih, hc]; rfl
      · cases hrest : stretches rest with
        | nil => exact absurd hrest (stretches_ne_nil rest)
        | cons s more =>
            rw [hrest, List.flatMap_cons, List.cons_append] at ih
            simpa using (List.cons.inj ih).2

theorem not_mem_of_mem_stretches {cs s : List Char} (h : s ∈ stretches cs) : '/' ∉ s := by
  induction cs generalizing s with
  | nil => simp_all [stretches]
  | cons c rest ih =>
      rw [stretches] at h
      split at h
      · rcases List.mem_cons.mp h with rfl | h
        · exact List.not_mem_nil
        · exact ih h
      next hc =>
        cases hrest : stretches rest with
        | nil => exact absurd hrest (stretches_ne_nil rest)
        | cons t more =>
            rw [hrest] at h ih
            rcases List.mem_cons.mp h with rfl | h
            · exact fun hslash ↦ (List.mem_cons.mp hslash).elim (fun heq ↦ hc heq.symm)
                (ih List.mem_cons_self)
            · exact ih (List.mem_cons_of_mem _ h)

/-! ## Absolute paths -/

theorem isAbsolute_iff {text : String} : (⟨text⟩ : Path).isAbsolute = true ↔
    ∃ s rest, stretches text.toList = [] :: s :: rest := by
  rw [isAbsolute, String.startsWith_string_iff]
  change ['/'] <+: text.toList ↔ _
  cases text.toList with
  | nil => simp [stretches]
  | cons c cs =>
      rw [stretches, List.cons_prefix_cons]
      by_cases hc : c = '/'
      · obtain ⟨s, rest, hrest⟩ := List.exists_cons_of_ne_nil (stretches_ne_nil cs)
        simp [hc, hrest]
      · rw [if_neg hc]
        cases hrest : stretches cs with
        | nil => exact absurd hrest (stretches_ne_nil cs)
        | cons s rest => simp [Ne.symm hc]

/-- The absolute path with these stretches. -/
def rooted (parts : List (List Char)) : Path := ⟨String.ofList (parts.flatMap ('/' :: ·))⟩

/-- The stretches with more behind them. A slash at the end is not doubled. -/
def extend (parts more : List (List Char)) : List (List Char) :=
  if parts.getLast? = some [] then parts.dropLast ++ more else parts ++ more

theorem extend_ne_nil (parts : List (List Char)) {more : List (List Char)} (hmore : more ≠ []) :
    extend parts more ≠ [] := by
  unfold extend
  split <;> exact List.append_ne_nil_of_right_ne_nil _ hmore

theorem extend_subset (parts more : List (List Char)) : extend parts more ⊆ parts ++ more := by
  unfold extend
  split
  · exact ((List.dropLast_sublist parts).append_right more).subset
  · exact List.Subset.refl _

theorem not_mem_of_mem_extend {parts : List (List Char)} (hparts : ∀ s ∈ parts, '/' ∉ s)
    {cs s : List Char} (hs : s ∈ extend parts (stretches cs)) : '/' ∉ s :=
  (List.mem_append.mp (extend_subset _ _ hs)).elim (hparts s) not_mem_of_mem_stretches

section

variable {parts : List (List Char)} (hne : parts ≠ []) (hparts : ∀ s ∈ parts, '/' ∉ s)

@[simp] theorem toList_rooted : (rooted parts).text.toList = parts.flatMap ('/' :: ·) := by
  rw [rooted, String.toList_ofList]

include hparts in
theorem stretches_append_flatMap (cs : List Char) :
    stretches (cs ++ parts.flatMap ('/' :: ·)) = stretches cs ++ parts := by
  induction parts generalizing cs with
  | nil => simp
  | cons s rest ih =>
      rw [List.flatMap_cons, List.cons_append, stretches_append_slash,
        ih fun t ht ↦ hparts t (List.mem_cons_of_mem _ ht),
        stretches_of_not_mem (hparts s List.mem_cons_self)]
      rfl

include hparts in
theorem stretches_rooted : stretches (rooted parts).text.toList = [] :: parts := by
  rw [toList_rooted]
  exact stretches_append_flatMap hparts []

include hne

theorem isAbsolute_rooted : (rooted parts).isAbsolute = true := by
  obtain ⟨s, rest, rfl⟩ := List.exists_cons_of_ne_nil hne
  rw [isAbsolute, String.startsWith_string_iff, toList_rooted]
  exact List.prefix_append ['/'] _

include hparts

theorem components_rooted : (rooted parts).components = .root :: parts.filterMap component? := by
  unfold components
  rw [stretches_rooted hparts, isAbsolute_rooted hne]
  rfl

theorem endsWith_slash_rooted :
    (rooted parts).text.endsWith "/" = true ↔ parts.getLast? = some [] := by
  obtain ⟨front, last, rfl⟩ := (List.eq_nil_or_concat' parts).resolve_left hne
  have hlast : '/' ∉ last := hparts last (by simp)
  have hflat :
      (front ++ [last]).flatMap ('/' :: ·) = front.flatMap ('/' :: ·) ++ '/' :: last := by
    simp
  rw [endsWith_iff, toList_rooted, hflat, List.getLast?_concat, Option.some_inj]
  change ['/'] <:+ _ ↔ _
  rw [List.singleton_suffix_iff_getLast?_eq_some, List.getLast?_append, List.getLast?_cons]
  constructor
  · intro h
    by_contra hempty
    rw [List.getLast?_eq_some_getLast hempty] at h
    exact hlast (Option.some.inj h ▸ List.getLast_mem hempty)
  · rintro rfl
    rfl

theorem join_rooted {q : Path} (hq : q.isAbsolute = false) :
    (rooted parts).join q = rooted (extend parts (stretches q.text.toList)) := by
  have htext : (rooted parts).text.isEmpty = false := by
    obtain ⟨s, rest, rfl⟩ := List.exists_cons_of_ne_nil hne
    rw [Bool.eq_false_iff, ne_eq, String.isEmpty_iff, ← String.toList_inj, toList_rooted]
    exact List.cons_ne_nil _ _
  have heq {text : String} {ps : List (List Char)} (h : text.toList = ps.flatMap ('/' :: ·)) :
      (⟨text⟩ : Path) = rooted ps := by
    rw [rooted, ← h, String.ofList_toList]
  unfold join extend
  rw [if_neg (by simp [hq]), htext, Bool.false_or]
  simp only [endsWith_slash_rooted hne hparts]
  split
  next hlast =>
    obtain ⟨front, rfl⟩ : ∃ front, parts = front ++ [[]] :=
      ⟨parts.dropLast, (List.dropLast_append_getLast? [] hlast).symm⟩
    exact heq (by simp [flatMap_stretches])
  next => exact heq (by simp [flatMap_stretches])

end

/-! ## Inside a directory -/

/-- How many names below its beginning a walk is behind a stretch, if it does not leave there. -/
def depthBehind (depth : Nat) (stretch : List Char) : Option Nat :=
  match component? stretch with
  | none => some depth
  | some .parent => if depth = 0 then none else some (depth - 1)
  | some _ => some (depth + 1)

/-- How deep a walk ends that begins at a depth and never leaves its beginning. -/
def depth? (depth : Nat) (parts : List (List Char)) : Option Nat := parts.foldlM depthBehind depth

theorem depth?_append (depth : Nat) (parts more : List (List Char)) :
    depth? depth (parts ++ more) = (depth? depth parts).bind (depth? · more) :=
  List.foldlM_append

theorem depthBehind_add {depth behind : Nat} {s : List Char} (h : depthBehind depth s = some behind)
    (n : Nat) : depthBehind (depth + n) s = some (behind + n) := by
  unfold depthBehind at h ⊢
  cases hc : component? s with
  | none => simp_all
  | some c => cases c <;> simp_all <;> omega

theorem depth?_add {depth behind : Nat} {parts : List (List Char)}
    (h : depth? depth parts = some behind) (n : Nat) :
    depth? (depth + n) parts = some (behind + n) := by
  induction parts generalizing depth with
  | nil =>
      cases h
      rfl
  | cons s rest ih =>
      obtain ⟨next, hnext, hrest⟩ := Option.bind_eq_some_iff.mp h
      exact Option.bind_eq_some_iff.mpr ⟨next + n, depthBehind_add hnext n, ih hrest⟩

theorem depth?_extend (depth : Nat) (parts more : List (List Char)) :
    depth? depth (extend parts more) = depth? depth (parts ++ more) := by
  unfold extend
  split
  next hlast =>
    conv_rhs => rw [← List.dropLast_append_getLast? [] hlast]
    rw [depth?_append, depth?_append, depth?_append]
    cases depth? depth parts.dropLast <;> rfl
  next => rfl

/-! ## Names -/

/-- The text is a single stretch, and stands for itself. -/
def IsName (text : String) : Prop :=
  '/' ∉ text.toList ∧ component? text.toList = some (.name text)

instance : DecidablePred IsName := fun _ ↦ inferInstanceAs (Decidable (_ ∧ _))

namespace IsName

variable {text : String} (h : IsName text)

include h

theorem ne_nil : text.toList ≠ [] := fun hnil ↦ by
  have hcomponent := h.2
  rw [hnil] at hcomponent
  cases hcomponent

theorem stretches : Path.stretches text.toList = [text.toList] := stretches_of_not_mem h.1

theorem not_isAbsolute : (⟨text⟩ : Path).isAbsolute = false := by
  rw [Bool.eq_false_iff, isAbsolute, ne_eq, String.startsWith_string_iff]
  exact fun hfront ↦ h.1 (hfront.subset List.mem_cons_self)

theorem depthBehind (depth : Nat) : Path.depthBehind depth text.toList = some (depth + 1) := by
  rw [Path.depthBehind, h.2]

theorem isSome_depth? : (depth? 0 (Path.stretches text.toList)).isSome := by
  rw [h.stretches, depth?, List.foldlM_cons, h.depthBehind]
  rfl

end IsName

theorem component?_cases (s : List Char) :
    component? s = none ∨ component? s = some .parent ∨
    component? s = some (.name (.ofList s)) := by
  unfold component?
  split <;> simp

theorem component?_eq_none_iff {s : List Char} : component? s = none ↔ s = [] ∨ s = ['.'] := by
  unfold component?
  split <;> simp_all

theorem component?_eq_parent_iff {s : List Char} :
    component? s = some .parent ↔ s = ['.', '.'] := by
  unfold component?
  split <;> simp_all

theorem isName_of_component? {s : List Char} {text : String} (hs : '/' ∉ s)
    (h : component? s = some (.name text)) : IsName text := by
  have heq : text = .ofList s := by
    rcases component?_cases s with hc | hc | hc <;> rw [hc] at h <;> cases h
    rfl
  refine ⟨?_, ?_⟩ <;> rw [heq, String.toList_ofList]
  · exact hs
  · rw [h, heq]

theorem depth?_mono {depth more : Nat} {parts : List (List Char)} (h : (depth? depth parts).isSome)
    (hle : depth ≤ more) : (depth? more parts).isSome := by
  obtain ⟨behind, hbehind⟩ := Option.isSome_iff_exists.mp h
  obtain ⟨n, rfl⟩ := Nat.exists_eq_add_of_le hle
  rw [depth?_add hbehind]
  rfl

theorem isSome_depth?_left {depth : Nat} {parts more : List (List Char)}
    (h : (depth? depth (parts ++ more)).isSome) : (depth? depth parts).isSome := by
  rw [depth?_append] at h
  exact Option.isSome_of_isSome_bind h

theorem isSome_depth?_cons {depth : Nat} {s : List Char} {parts : List (List Char)} :
    (depth? depth (s :: parts)).isSome ↔
      ∃ next, depthBehind depth s = some next ∧ (depth? next parts).isSome := by
  rw [depth?, List.foldlM_cons]
  change ((depthBehind depth s).bind (depth? · parts)).isSome ↔ _
  cases depthBehind depth s <;> simp

theorem depthBehind_le {depth next : Nat} {s : List Char} (h : depthBehind depth s = some next) :
    next ≤ depth + 1 ∧ depth ≤ next + 1 := by
  unfold depthBehind at h
  rcases component?_cases s with hc | hc | hc <;> rw [hc] at h <;> dsimp only at h
  · cases h
    omega
  · split at h <;> cases h
    omega
  · cases h
    omega

theorem exists_depthBehind_succ (depth : Nat) (s : List Char) :
    ∃ next, depthBehind (depth + 1) s = some next := by
  unfold depthBehind
  rcases component?_cases s with hc | hc | hc <;> rw [hc] <;> exact ⟨_, rfl⟩

theorem depthBehind_of_mem {s : List Char} {c : Char} (hc : c ∈ s) (hdot : c ≠ '.')
    (depth : Nat) : depthBehind depth s = some (depth + 1) := by
  unfold depthBehind
  rcases component?_cases s with h | h | h
  · rcases component?_eq_none_iff.mp h with rfl | rfl <;> simp_all
  · rw [component?_eq_parent_iff.mp h] at hc
    simp_all
  · rw [h]

/-! ## Normal paths -/

/-- One step of leaving out dots. -/
def keep (kept : List Component) (c : Component) : List Component :=
  match c with
  | .current => kept
  | .parent =>
    match kept.getLast? with
    | none | some .root => kept ++ [.parent]
    | some _ => kept.dropLast
  | c => kept ++ [c]

theorem normalComponents_eq (cs : List Component) : normalComponents cs = cs.foldl keep [] := rfl

/-- The names that a walk is behind after a stretch. -/
def settle (names : List String) (stretch : List Char) : List String :=
  match component? stretch with
  | some .parent => names.dropLast
  | some (.name text) => names ++ [text]
  | _ => names

theorem isName_foldl_settle {parts : List (List Char)} (hparts : ∀ s ∈ parts, '/' ∉ s)
    {names : List String} (hnames : ∀ n ∈ names, IsName n) :
    ∀ n ∈ parts.foldl settle names, IsName n := by
  induction parts generalizing names with
  | nil => exact hnames
  | cons s rest ih =>
      refine ih (fun t ht ↦ hparts t (List.mem_cons_of_mem _ ht)) fun n hn ↦ ?_
      unfold settle at hn
      split at hn
      · exact hnames n (List.dropLast_subset _ hn)
      next text htext =>
        rcases List.mem_append.mp hn with hn | hn
        · exact hnames n hn
        · rw [List.mem_singleton.mp hn]
          exact isName_of_component? (hparts s List.mem_cons_self) htext
      · exact hnames n hn

theorem foldl_keep_names (front : List Component) (names : List String) :
    (names.map Component.name).foldl keep front = front ++ names.map .name := by
  induction names generalizing front with
  | nil => simp
  | cons n rest ih =>
      rw [List.map_cons, List.foldl_cons, ih]
      simp [keep]

theorem depth?_names {names : List String} (h : ∀ n ∈ names, IsName n) {depth : Nat} :
    depth? depth (names.map String.toList) = some (depth + names.length) := by
  induction names generalizing depth with
  | nil => rfl
  | cons n rest ih =>
      rw [List.map_cons, depth?, List.foldlM_cons, (h n List.mem_cons_self).depthBehind]
      change depth? (depth + 1) _ = _
      rw [ih fun m hm ↦ h m (List.mem_cons_of_mem _ hm), List.length_cons, Nat.add_right_comm,
        Nat.add_assoc]

/-- A walk that does not leave its beginning takes nothing out of what stands before. -/
theorem foldl_keep (front : List Component) {names : List String} {parts : List (List Char)}
    (h : (depth? names.length parts).isSome) :
    (parts.filterMap component?).foldl keep (front ++ names.map .name) =
      front ++ (parts.foldl settle names).map .name := by
  induction parts generalizing names with
  | nil => rfl
  | cons s rest ih =>
      obtain ⟨deep, hdeep⟩ := Option.isSome_iff_exists.mp h
      obtain ⟨next, hnext, hrest⟩ := Option.bind_eq_some_iff.mp hdeep
      rw [List.foldl_cons, List.filterMap_cons]
      have hlength : (settle names s).length = next := by
        unfold depthBehind at hnext
        unfold settle
        rcases component?_cases s with hc | hc | hc <;> rw [hc] at hnext ⊢
        · exact Option.some.inj hnext
        · simp_all
        · simpa using hnext
      have hsome : (depth? (settle names s).length rest).isSome := by
        rw [hlength]
        exact Option.isSome_iff_exists.mpr ⟨deep, hrest⟩
      rw [← ih hsome]
      unfold settle
      rcases component?_cases s with hc | hc | hc
      · rw [hc]
      · have hne : names ≠ [] := by
          rintro rfl
          unfold depthBehind at hnext
          rw [hc] at hnext
          cases hnext
        obtain ⟨before, last, rfl⟩ := (List.eq_nil_or_concat' names).resolve_left hne
        rw [hc, List.foldl_cons]
        simp [keep]
      · rw [hc, List.foldl_cons]
        simp [keep]

/-- What stands between slashes in a path: two dots, or a name. -/
def Component.IsPart (c : Component) : Prop := c = .parent ∨ ∃ n, c = .name n ∧ IsName n

namespace Component.IsPart

variable {c : Component} (h : c.IsPart)

include h

theorem component?_text : component? c.text.toList = some c := by
  rcases h with rfl | ⟨n, rfl, hn⟩
  · rfl
  · exact hn.2

theorem slash_not_mem : '/' ∉ c.text.toList := by
  rcases h with rfl | ⟨n, rfl, hn⟩
  · decide
  · exact hn.1

theorem text_ne_nil : c.text.toList ≠ [] := by
  intro hnil
  have hpart := h.component?_text
  rw [hnil] at hpart
  cases hpart

theorem stretches_text : stretches c.text.toList = [c.text.toList] :=
  stretches_of_not_mem h.slash_not_mem

theorem not_isAbsolute : (⟨c.text⟩ : Path).isAbsolute = false := by
  refine Bool.eq_false_iff.mpr fun habsolute ↦ ?_
  obtain ⟨s, more, hmore⟩ := isAbsolute_iff.mp habsolute
  rw [h.stretches_text] at hmore
  simp at hmore

end Component.IsPart

theorem foldl_join_parts {parts : List (List Char)} (hne : parts ≠ [])
    (hparts : ∀ s ∈ parts, '/' ∉ s) (hlast : parts.getLast? ≠ some []) {cs : List Component}
    (hcs : ∀ c ∈ cs, c.IsPart) :
    cs.foldl (fun p c ↦ p.join ⟨c.text⟩) (rooted parts) =
      rooted (parts ++ cs.map (·.text.toList)) := by
  induction cs generalizing parts with
  | nil => simp
  | cons c rest ih =>
      have hc := hcs c List.mem_cons_self
      have hjoin : (rooted parts).join ⟨c.text⟩ = rooted (parts ++ [c.text.toList]) := by
        rw [join_rooted hne hparts hc.not_isAbsolute, hc.stretches_text, extend, if_neg hlast]
      rw [List.foldl_cons, hjoin,
        ih (by simp) ?_ ?_ fun d hd ↦ hcs d (List.mem_cons_of_mem _ hd)]
      · simp
      · simpa [or_imp, forall_and, hc.slash_not_mem] using hparts
      · simpa using hc.text_ne_nil

theorem ofComponents_parts {cs : List Component} (hne : cs ≠ []) (hcs : ∀ c ∈ cs, c.IsPart) :
    ofComponents (.root :: cs) = rooted (cs.map (·.text.toList)) := by
  have hstart : (⟨""⟩ : Path).join ⟨Component.root.text⟩ = rooted [[]] :=
    if_pos (isAbsolute_rooted (List.cons_ne_nil [] []))
  obtain ⟨c, rest, rfl⟩ := List.exists_cons_of_ne_nil hne
  have hc := hcs c List.mem_cons_self
  have hfirst : (rooted [[]]).join ⟨c.text⟩ = rooted [c.text.toList] := by
    rw [join_rooted (by simp) (by simp) hc.not_isAbsolute, hc.stretches_text]
    rfl
  rw [ofComponents, List.foldl_cons, hstart, List.foldl_cons, hfirst,
    foldl_join_parts (by simp) (by simpa using hc.slash_not_mem) (by simpa using hc.text_ne_nil)
      fun d hd ↦ hcs d (List.mem_cons_of_mem _ hd)]
  rfl

theorem ofComponents_names {names : List String} (hne : names ≠ [])
    (hnames : ∀ n ∈ names, IsName n) :
    ofComponents (.root :: names.map .name) = rooted (names.map String.toList) := by
  rw [ofComponents_parts (by simpa using hne), List.map_map]
  · rfl
  · intro c hc
    obtain ⟨n, hn, rfl⟩ := List.mem_map.mp hc
    exact .inr ⟨n, rfl, hnames n hn⟩

/-! ## Going up -/

theorem slash_intercalate {parts : List (List Char)} (hne : parts ≠ []) :
    '/' :: ['/'].intercalate parts = parts.flatMap ('/' :: ·) := by
  induction parts with
  | nil => exact absurd rfl hne
  | cons s rest ih =>
      cases rest with
      | nil => simp
      | cons t more =>
          rw [List.flatMap_cons, ← ih (List.cons_ne_nil _ _)]
          simp [List.intercalate]

/-- Whether a stretch leads nowhere. -/
def isBlank (s : List Char) : Bool := (component? s).isNone

/-- The absolute path with these stretches, which is the root if there are none. -/
def fromRoot (parts : List (List Char)) : Path := if parts = [] then rooted [[]] else rooted parts

/-- Above an absolute path stands what its stretches in front lead to, without blank ones at the
end. -/
theorem above_cons (s : List Char) (outer : List (List Char)) :
    above true (s :: outer) = if isBlank s then above true outer
      else fromRoot (outer.dropWhile isBlank).reverse :: above true outer := by
  have hblank :
      (fun s : List Char ↦ (decide (s = []) || decide (s = ['.']) && true)) = isBlank := by
    funext s
    rw [Bool.eq_iff_iff]
    simp [isBlank, component?_eq_none_iff]
  have htext (parts : List (List Char)) :
      (⟨"/" ++ String.ofList (['/'].intercalate parts)⟩ : Path) = fromRoot parts := by
    unfold fromRoot
    split
    next hnil =>
      rw [hnil]
      rfl
    next hne =>
      rw [rooted, ← slash_intercalate hne, ← String.ofList_toList (s := "/"),
        ← String.ofList_append]
      rfl
  rw [above]
  simp only [hblank, if_true, htext]
  by_cases hs : isBlank s
  · have h : s = [] ∨ s = ['.'] := by simpa [isBlank, component?_eq_none_iff] using hs
    simp [hs, h]
  · have h : ¬(s = [] ∨ s = ['.']) := by simpa [isBlank, component?_eq_none_iff] using hs
    simp_all

/-- The stretches that are left behind each that is not blank, on the way up. -/
def left : List (List Char) → List (List (List Char))
  | [] => []
  | s :: outer =>
    if isBlank s then left outer else (outer.dropWhile isBlank).reverse :: left outer

theorem above_append (ss : List (List Char)) {base : List (List Char)} (hne : base ≠ [])
    (hbase : ∀ s ∈ base.head?, isBlank s = false) :
    above true (ss ++ base) =
      (left ss).map (fun ws ↦ rooted (base.reverse ++ ws)) ++ above true base := by
  have hdrop (ss : List (List Char)) :
      (ss ++ base).dropWhile isBlank = ss.dropWhile isBlank ++ base := by
    obtain ⟨b, rest, rfl⟩ := List.exists_cons_of_ne_nil hne
    rw [List.dropWhile_append]
    split
    next hempty =>
      rw [List.isEmpty_iff.mp hempty, List.dropWhile_cons, hbase b rfl]
      rfl
    next => rfl
  induction ss with
  | nil => rfl
  | cons s rest ih =>
      have hfrom : fromRoot (rest.dropWhile isBlank ++ base).reverse =
          rooted (base.reverse ++ (rest.dropWhile isBlank).reverse) := by
        rw [List.reverse_append, fromRoot, if_neg (by simp [hne])]
      rw [List.cons_append, above_cons, hdrop, hfrom, left, ih]
      split <;> simp

theorem left_prefix {ss ws : List (List Char)} (h : ws ∈ left ss) : ws <+: ss.reverse := by
  induction ss with
  | nil => cases h
  | cons s rest ih =>
      have hrest : rest.reverse <+: (s :: rest).reverse := by simp
      rw [left] at h
      split at h
      · exact (ih h).trans hrest
      · rcases List.mem_cons.mp h with rfl | h
        · exact (List.reverse_prefix.mpr (List.dropWhile_suffix _)).trans hrest
        · exact (ih h).trans hrest

theorem left_ne_nil {ss : List (List Char)} (h : ∃ s ∈ ss, isBlank s = false) :
    left ss ≠ [] := by
  obtain ⟨s, hs, hblank⟩ := h
  induction ss with
  | nil => cases hs
  | cons t rest ih =>
      rw [left]
      split
      next ht =>
        rcases List.mem_cons.mp hs with rfl | hs
        · rw [hblank] at ht
          cases ht
        · exact ih hs
      next => exact List.cons_ne_nil _ _

end Path

end PluginSurface
