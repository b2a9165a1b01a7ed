import Mathlib.Data.List.Forall2
import PluginSurface.Program.Resolve
import PluginSurface.Proofs.FileTree.Folders

/-!
# Looking for files in two copies of a directory

Two directories that hold the same tree have the same files below them. Paths that lead along one
route into both are twins; looking for the files that a path stands for leads from twins to twins.
-/

namespace PluginSurface

/-! ## Searches -/

section

variable {R S : Path → Path → Prop} {ps ps' : List Path} (h : List.Forall₂ R ps ps')

include h

theorem rel_find? {f : Path → Bool} (hf : ∀ p p', R p p' → f p' = f p)
    (hfound : ∀ p p', R p p' → f p = true → S p p') :
    Option.Rel S (ps.find? f) (ps'.find? f) := by
  induction h with
  | nil => exact .none
  | @cons p p' ps ps' hp _ ih =>
      rw [List.find?_cons, List.find?_cons, hf p p' hp]
      split
      next hfp => exact .some (hfound p p' hp hfp)
      next => exact ih

theorem rel_findSome? {f : Path → Option Path}
    (hf : ∀ p p', R p p' → Option.Rel S (f p) (f p')) :
    Option.Rel S (ps.findSome? f) (ps'.findSome? f) := by
  induction h with
  | nil => exact .none
  | @cons p p' ps ps' hp _ ih =>
      have hfound := hf p p' hp
      rw [List.findSome?_cons, List.findSome?_cons]
      generalize f p = found at hfound ⊢
      generalize f p' = found' at hfound ⊢
      cases hfound with
      | none => exact ih
      | some h => exact .some h

omit h in
theorem rel_orElse {o o' a a' : Option Path} (h : Option.Rel S o o') (ha : Option.Rel S a a') :
    Option.Rel S (o <|> a) (o' <|> a') := by
  cases h with
  | none => exact ha
  | some h => exact .some h

omit h in
theorem rel_bind {α : Type} (o : Option α) {f g : α → Option Path}
    (h : ∀ a, o = some a → Option.Rel S (f a) (g a)) : Option.Rel S (o >>= f) (o >>= g) := by
  cases o with
  | none => exact .none
  | some a => exact h a rfl

end

/-- Two directories hold the same tree. -/
structure FileTree.Copies (root : FileTree) (F F' : Folder) (tree : FileTree) : Prop where
  first : root.node? F.top = some tree
  second : root.node? F'.top = some tree
  isDirectory : tree.isDirectoryNode = true

/-- Two paths lead along one route into two directories. -/
def Folder.Twin (F F' : Folder) (p p' : Path) : Prop := ∃ r, p = F.path r ∧ p' = F'.path r

namespace Folder.Twin

variable {F F' : Folder} {p p' q q' : Path}

theorem path (r : Route) : Twin F F' (F.path r) (F'.path r) := ⟨r, rfl, rfl⟩

theorem same (hp : Twin F F' p p') (hq : Twin F F' q q') : p'.same q' = p.same q := by
  obtain ⟨r, rfl, rfl⟩ := hp
  obtain ⟨s, rfl, rfl⟩ := hq
  have hsame (F : Folder) : (F.path r).same (F.path s) = true ↔
      r.stretches.filterMap Path.component? = s.stretches.filterMap Path.component? := by
    rw [Path.same, beq_iff_eq, components_path, components_path, List.append_cancel_left_eq]
  rw [Bool.eq_iff_iff, hsame, hsame]

theorem join (hp : Twin F F' p p') {text : String} (htext : (⟨text⟩ : Path).isAbsolute = false)
    (hinside : (Path.depth? 0 (Path.stretches text.toList)).isSome) :
    Twin F F' (p.join ⟨text⟩) (p'.join ⟨text⟩) := by
  obtain ⟨r, rfl, rfl⟩ := hp
  have h := r.inside_append hinside
  exact ⟨r.join text h, F.path_join r htext h, F'.path_join r htext h⟩

theorem join_name (hp : Twin F F' p p') {name : String} (hname : Path.IsName name) :
    Twin F F' (p.join ⟨name⟩) (p'.join ⟨name⟩) :=
  hp.join hname.not_isAbsolute hname.isSome_depth?

end Folder.Twin

/-! ## Files with an ending -/

namespace Resolve

theorem suffix_append_slash {ending front last : List Char} (hending : '/' ∉ ending) :
    ending <:+ front ++ '/' :: last ↔ ending <:+ last := by
  constructor
  · intro h
    rcases List.suffix_or_suffix_of_suffix h (List.suffix_append front ('/' :: last)) with h | h
    · rcases List.suffix_cons_iff.mp h with rfl | h
      · exact absurd List.mem_cons_self hending
      · exact h
    · exact absurd (h.subset List.mem_cons_self) hending
  · exact fun h ↦ h.trans ((List.suffix_cons _ _).trans (List.suffix_append _ _))

variable {front last : String}

theorem endsWith_append_slash {ending : String} (hending : '/' ∉ ending.toList) :
    (front ++ "/" ++ last).endsWith ending = last.endsWith ending := by
  rw [Bool.eq_iff_iff, endsWith_iff, endsWith_iff, String.append_assoc, String.toList_append,
    String.toList_append]
  exact suffix_append_slash hending

theorem dropEnding?_eq {text ending : String} {stem : List Char}
    (h : stem ++ ending.toList = text.toList) : dropEnding? text ending = some (.ofList stem) := by
  have hlength : text.length - ending.length = stem.length := by
    rw [← String.length_toList, ← h, List.length_append, String.length_toList,
      Nat.add_sub_cancel]
  rw [dropEnding?, if_pos (endsWith_iff.mpr ⟨stem, h⟩), hlength, ← h, List.take_left]

theorem dropEnding?_append_slash {ending : String} (hending : '/' ∉ ending.toList) :
    dropEnding? (front ++ "/" ++ last) ending =
      (dropEnding? last ending).map (front ++ "/" ++ ·) := by
  by_cases hends : last.endsWith ending = true
  · obtain ⟨stem, hstem⟩ := endsWith_iff.mp hends
    have hwhole : (front ++ "/").toList ++ stem ++ ending.toList =
        (front ++ "/" ++ last).toList := by
      rw [List.append_assoc, hstem, ← String.toList_append]
    rw [dropEnding?_eq hstem, dropEnding?_eq hwhole, Option.map_some, String.ofList_append,
      String.ofList_toList]
  · rw [dropEnding?, dropEnding?, endsWith_append_slash hending, if_neg hends, if_neg hends]
    rfl

/-- The files that a compiled file comes from, by its ending. -/
def sourcesOf? (text : String) (x : String × List String) : Option (List Path) :=
  (dropEnding? text x.1).map fun stem ↦ x.2.map fun e ↦ ⟨stem ++ e⟩

theorem fileCandidates_eq (base : Path) : fileCandidates base =
    (if endings.any (fun e ↦ base.text.endsWith e) then [base] else []) ++
      (compiledEndings.findSome? (sourcesOf? base.text)).getD [] ++ endings.map base.append := rfl

theorem sourcesOf?_append_slash {x : String × List String} (hx : '/' ∉ x.1.toList) :
    sourcesOf? (front ++ "/" ++ last) x =
      (sourcesOf? last x).map (List.map fun q ↦ ⟨front ++ "/" ++ q.text⟩) := by
  rw [sourcesOf?, sourcesOf?, dropEnding?_append_slash hx]
  cases dropEnding? last x.1 with
  | none => rfl
  | some stem => simp [Function.comp_def, String.append_assoc]

theorem findSome?_sourcesOf?_append_slash {l : List (String × List String)}
    (hl : ∀ x ∈ l, '/' ∉ x.1.toList) :
    l.findSome? (sourcesOf? (front ++ "/" ++ last)) =
      (l.findSome? (sourcesOf? last)).map (List.map fun q ↦ ⟨front ++ "/" ++ q.text⟩) := by
  induction l with
  | nil => rfl
  | cons x rest ih =>
      rw [List.findSome?_cons, List.findSome?_cons,
        sourcesOf?_append_slash (hl x List.mem_cons_self)]
      cases sourcesOf? last x with
      | none => exact ih fun y hy ↦ hl y (List.mem_cons_of_mem _ hy)
      | some found => rfl

/-- The candidates differ from the path in the last stretch. -/
theorem fileCandidates_append_slash :
    fileCandidates ⟨front ++ "/" ++ last⟩ =
      (fileCandidates ⟨last⟩).map fun q ↦ ⟨front ++ "/" ++ q.text⟩ := by
  have hendings : ∀ e ∈ endings, '/' ∉ e.toList := by decide
  have hcompiled : ∀ x ∈ compiledEndings, '/' ∉ x.1.toList := by decide
  have hany : endings.any (fun e ↦ (front ++ "/" ++ last).endsWith e) =
      endings.any (fun e ↦ last.endsWith e) := by
    rw [Bool.eq_iff_iff, List.any_eq_true, List.any_eq_true]
    exact exists_congr fun e ↦ and_congr_right fun he ↦ by
      rw [endsWith_append_slash (hendings e he)]
  rw [fileCandidates_eq, fileCandidates_eq, hany, findSome?_sourcesOf?_append_slash hcompiled,
    List.map_append, List.map_append]
  congr 1
  · congr 1
    · split <;> rfl
    · cases compiledEndings.findSome? (sourcesOf? last) <;> rfl
  · simp [Path.append, Function.comp_def, String.append_assoc]

theorem rooted_concat (front : List (List Char)) (last : String) :
    Path.rooted (front ++ [last.toList]) = ⟨(Path.rooted front).text ++ "/" ++ last⟩ := by
  refine congrArg Path.mk ?_
  rw [← String.toList_inj]
  simp [Path.rooted]

theorem fileCandidates_rooted (front : List (List Char)) (last : String) :
    fileCandidates (Path.rooted (front ++ [last.toList])) =
      (fileCandidates ⟨last⟩).map fun q ↦ Path.rooted (front ++ [q.text.toList]) := by
  simp only [rooted_concat]
  exact fileCandidates_append_slash

/-- The endings of the candidates. -/
def foundEndings : List String := [".ts", ".tsx", ".d.ts", ".d.mts", ".d.cts"]

theorem isName_append {stem ending : String} (hstem : '/' ∉ stem.toList)
    (hending : ending ∈ foundEndings) : Path.IsName (stem ++ ending) := by
  have hendings : ∀ e ∈ foundEndings,
      '/' ∉ e.toList ∧ (e.toList.getLast? = some 's' ∨ e.toList.getLast? = some 'x') := by
    simp [foundEndings]
  obtain ⟨hslash, hlast⟩ := hendings ending hending
  obtain ⟨c, hc, hdot⟩ : ∃ c, ending.toList.getLast? = some c ∧ c ≠ '.' := by
    rcases hlast with h | h <;> exact ⟨_, h, by decide⟩
  refine ⟨by simp [hstem, hslash], ?_⟩
  have hget : (stem ++ ending).toList.getLast? = some c := by
    rw [String.toList_append, List.getLast?_append, hc]
    rfl
  rcases Path.component?_cases (stem ++ ending).toList with h | h | h
  · rcases Path.component?_eq_none_iff.mp h with h | h <;> rw [h] at hget <;> cases hget
    exact absurd rfl hdot
  · have hdots := Path.component?_eq_parent_iff.mp h
    rw [hdots] at hget
    cases hget
    exact absurd rfl hdot
  · rw [h, String.ofList_toList]

theorem slash_not_mem_of_dropEnding? {text ending stem : String} (htext : '/' ∉ text.toList)
    (h : dropEnding? text ending = some stem) : '/' ∉ stem.toList := by
  unfold dropEnding? at h
  split at h
  · cases h
    rw [String.toList_ofList]
    exact fun hslash ↦ htext (List.mem_of_mem_take hslash)
  · cases h

/-- A candidate is part of the text that it is for with one of the endings. -/
theorem exists_of_mem_fileCandidates {last : String} {q : Path}
    (hq : q ∈ fileCandidates ⟨last⟩) :
    ∃ stem, ∃ ending ∈ foundEndings, q.text = stem ++ ending ∧
      ('/' ∉ last.toList → '/' ∉ stem.toList) := by
  have hendings : ∀ e ∈ endings, e ∈ foundEndings := by decide
  have hcompiled : ∀ x ∈ compiledEndings, ∀ e ∈ x.2, e ∈ foundEndings := by decide
  rw [fileCandidates_eq] at hq
  rcases List.mem_append.mp hq with hq | hq
  · rcases List.mem_append.mp hq with hq | hq
    · split at hq
      next hany =>
        obtain ⟨e, he, hends⟩ := List.any_eq_true.mp hany
        obtain ⟨stem, hstem⟩ := endsWith_iff.mp hends
        refine ⟨.ofList stem, e, hendings e he, ?_, fun hslash hmem ↦ hslash ?_⟩
        · rw [List.mem_singleton.mp hq, ← String.toList_inj, ← hstem, String.toList_append,
            String.toList_ofList]
        · rw [String.toList_ofList] at hmem
          exact hstem ▸ List.mem_append_left _ hmem
      next => cases hq
    · cases hfound : compiledEndings.findSome? (sourcesOf? last) with
      | none =>
          rw [hfound] at hq
          cases hq
      | some found =>
          rw [hfound] at hq
          obtain ⟨x, hx, hsome⟩ := List.exists_of_findSome?_eq_some hfound
          obtain ⟨stem, hstem, rfl⟩ := Option.map_eq_some_iff.mp hsome
          obtain ⟨e, he, rfl⟩ := List.mem_map.mp hq
          exact ⟨stem, e, hcompiled _ hx e he, rfl, (slash_not_mem_of_dropEnding? · hstem)⟩
  · obtain ⟨e, he, rfl⟩ := List.mem_map.mp hq
    exact ⟨last, e, hendings e he, rfl, id⟩

/-- A candidate for a single stretch is a name. -/
theorem isName_of_mem_fileCandidates (hlast : '/' ∉ last.toList) {q : Path}
    (hq : q ∈ fileCandidates ⟨last⟩) : Path.IsName q.text := by
  obtain ⟨stem, ending, hending, htext, hslash⟩ := exists_of_mem_fileCandidates hq
  exact htext ▸ isName_append (hslash hlast) hending

/-! ## Packages without a manifest -/

theorem exported?_eq_none {readJson : String → Option Json} {tree : FileTree}
    {options : CompilerOptions} {dir : Path}
    (hmanifest : manifest? readJson tree dir = none) (subpath : String) :
    exported? readJson tree options dir subpath = none := by
  unfold exported?
  rw [hmanifest]
  cases options.module.usesExportMaps <;> rfl

end Resolve

/-! ## Files below two copies -/

namespace Folder

variable {F F' : Folder}

theorem twin_fileCandidates {r : Route} (hne : r.stretches ≠ []) :
    List.Forall₂ (Twin F F') (Resolve.fileCandidates (F.path r))
      (Resolve.fileCandidates (F'.path r)) := by
  obtain ⟨front, last, hlast⟩ := (List.eq_nil_or_concat' r.stretches).resolve_left hne
  let outer : Route := r.ofPrefix (hlast ▸ List.prefix_append front [last])
  have hslash : '/' ∉ (String.ofList last).toList := by
    rw [String.toList_ofList]
    exact r.single last (by simp [hlast])
  have hpath (F : Folder) :
      F.path r = .rooted (F.parts ++ front ++ [(String.ofList last).toList]) := by
    rw [path, hlast, String.toList_ofList, List.append_assoc]
  have hconcat (F : Folder) {name : String} (hname : Path.IsName name) :
      .rooted (F.parts ++ front ++ [name.toList]) = F.path (outer.concat name hname) :=
    congrArg Path.rooted (List.append_assoc _ _ _)
  rw [hpath F, hpath F', Resolve.fileCandidates_rooted, Resolve.fileCandidates_rooted,
    List.forall₂_map_left_iff, List.forall₂_map_right_iff, List.forall₂_same]
  intro q hq
  have hname := Resolve.isName_of_mem_fileCandidates hslash hq
  exact ⟨outer.concat q.text hname, hconcat F hname, hconcat F' hname⟩

end Folder

namespace FileTree.Copies

open Folder Resolve

variable {root tree : FileTree} {F F' : Folder} {p p' : Path} (h : root.Copies F F' tree)

include h

theorem node? (hp : Twin F F' p p') : root.node? p' = root.node? p := by
  obtain ⟨r, rfl, rfl⟩ := hp
  rw [node?_path h.first, node?_path h.second]

theorem isFile (hp : Twin F F' p p') : root.isFile p' = root.isFile p := by
  rw [FileTree.isFile, FileTree.isFile, h.node? hp]

theorem isDirectory_twin (hp : Twin F F' p p') : root.isDirectory p' = root.isDirectory p := by
  rw [FileTree.isDirectory, FileTree.isDirectory, h.node? hp]

theorem read? (hp : Twin F F' p p') : root.read? p' = root.read? p := by
  rw [FileTree.read?, FileTree.read?, h.node? hp]

theorem twin_file? {r : Route} (hne : r.stretches ≠ []) :
    Option.Rel (Twin F F') (file? root (F.path r)) (file? root (F'.path r)) :=
  rel_find? (twin_fileCandidates hne) (fun _ _ ↦ h.isFile) fun _ _ hp _ ↦ hp

theorem twin_index? (hp : Twin F F' p p') :
    Option.Rel (Twin F F') (index? root p) (index? root p') := by
  have hnames : ∀ e ∈ endings, Path.IsName ("index" ++ e) := by decide
  refine rel_find? ?_ (fun _ _ ↦ h.isFile) fun _ _ hp _ ↦ hp
  rw [List.forall₂_map_left_iff, List.forall₂_map_right_iff, List.forall₂_same]
  exact fun e he ↦ hp.join_name (hnames e he)

theorem manifest? (readJson : String → Option Json) (hp : Twin F F' p p') :
    manifest? readJson root p' = manifest? readJson root p := by
  rw [Resolve.manifest?, Resolve.manifest?, h.read? (hp.join_name (by decide))]

end FileTree.Copies

end PluginSurface
