import PluginSurface.Proofs.FileTree.Ways
import PluginSurface.Proofs.Program.SelfContained

/-!
# Looking for files from directories that are alike

A tidy name has no dots between its slashes. What tidy names and directives stand for depends on
what a directory is, not on how its path is written, and the path of it is tame again.
-/

namespace PluginSurface

namespace Path

/-! ## The end of a path -/

/-- Two ways to write a tame path that end in the same stretch. -/
structure Akin (p q : Path) : Prop extends Alike p q where
  end_eq : (stretches p.text.toList).getLast? = (stretches q.text.toList).getLast?

theorem getLast?_stretches_join {p : Path} (hp : p.isAbsolute = true) {text : String}
    (htext : (⟨text⟩ : Path).isAbsolute = false) :
    (stretches (p.join ⟨text⟩).text.toList).getLast? = (stretches text.toList).getLast? := by
  obtain ⟨parts, hne, hparts, rfl⟩ := exists_rooted hp
  obtain ⟨front, last, hlast⟩ :=
    (List.eq_nil_or_concat' (stretches text.toList)).resolve_left (stretches_ne_nil _)
  rw [join_rooted hne hparts htext, stretches_rooted fun _ ↦ not_mem_of_mem_extend hparts]
  unfold extend
  split <;> simp [hlast, List.getLast?_cons]

theorem Alike.akin_join {p q : Path} (h : Alike p q) {text : String}
    (htext : TameParts (partsOf text)) : Akin (p.join ⟨text⟩) (q.join ⟨text⟩) where
  toAlike := h.join htext
  end_eq := by
    cases habsolute : (⟨text⟩ : Path).isAbsolute with
    | true => rw [Path.join, Path.join, if_pos habsolute, if_pos habsolute]
    | false =>
        rw [getLast?_stretches_join h.first habsolute, getLast?_stretches_join h.second habsolute]

theorem normalize_join_eq {p q : Path} (h : Alike p q) (text : String) :
    (p.join ⟨text⟩).normalize = (q.join ⟨text⟩).normalize := by
  cases habsolute : (⟨text⟩ : Path).isAbsolute with
  | true => rw [Path.join, Path.join, if_pos habsolute, if_pos habsolute]
  | false =>
      rw [normalize, normalize, components_join h.first habsolute,
        components_join h.second habsolute, h.same]

theorem akin_normalize_join {p : Path} (hp : p.isAbsolute = true) (text : String) :
    Akin (p.join ⟨text⟩).normalize (p.join ⟨text⟩).normalize :=
  ⟨alike_normalize (isAbsolute_join hp _), rfl⟩

/-! ## Tidy names -/

/-- No stretch of the name is a dot or two dots. -/
def Tidy (name : String) : Prop := ∀ s ∈ stretches name.toList, s ≠ ['.'] ∧ s ≠ ['.', '.']

theorem tameParts_of_tidy {ss : List (List Char)} (h : ∀ s ∈ ss, s ≠ ['.', '.']) :
    TameParts (ss.filterMap component?) := by
  induction ss with
  | nil => exact .nil
  | cons s rest ih =>
      have hrest := ih fun t ht ↦ h t (List.mem_cons_of_mem _ ht)
      rcases component?_cases s with hc | hc | hc
      · rwa [List.filterMap_cons, hc]
      · exact absurd (component?_eq_parent_iff.mp hc) (h s List.mem_cons_self)
      · rw [List.filterMap_cons, hc]
        exact .name _ hrest

end Path

/-- The name of a package in a directive is tidy. -/
def Reference.IsTidy : Reference → Prop
  | path _ => True
  | types name => Path.Tidy name

/-! ## Files -/

namespace FileTree

open PluginSurface.Path Resolve

/-- Two ways to write a tame path to a file. -/
structure AlikeFiles (tree : FileTree) (p q : Path) : Prop extends Alike p q where
  first_isFile : tree.isFile p = true
  second_isFile : tree.isFile q = true

variable {readJson : String → Option Json} {tree : FileTree} {options : CompilerOptions}
  {p q : Path}

theorem exists_of_isFile (h : tree.isFile p = true) :
    ∃ t text, tree.follow? p = some t ∧ t.node = .file text := by
  unfold isFile node? at h
  split at h
  next text hnode =>
    obtain ⟨t, ht, hnode⟩ := Option.map_eq_some_iff.mp hnode
    exact ⟨t, text, ht, hnode⟩
  next => cases h

namespace AlikeFiles

theorem node?_eq (h : tree.AlikeFiles p q) : tree.node? p = tree.node? q := by
  obtain ⟨t, -, ht, -⟩ := exists_of_isFile h.first_isFile
  obtain ⟨t', -, ht', -⟩ := exists_of_isFile h.second_isFile
  have hsame := foldlM_components ht
  rw [h.same, foldlM_components ht'] at hsame
  rw [node?, node?, ht, ht', hsame]

theorem read?_eq (h : tree.AlikeFiles p q) : tree.read? p = tree.read? q := by
  rw [read?, read?, h.node?_eq]

/-- The root is no file, or there is nothing that a path leads to. -/
theorem directory (h : tree.AlikeFiles p q) : Alike p.directory q.directory := by
  refine h.toAlike.directory fun hroot ↦ ?_
  obtain ⟨t, text, ht, hnode⟩ := exists_of_isFile h.first_isFile
  have hfollow := foldlM_components ht
  rw [hroot] at hfollow
  obtain ⟨t', hfirst, hlast⟩ := Option.bind_eq_some_iff.mp hfollow
  have hdirectory := Trail.isDirectoryNode_of_follow hfirst
  cases hlast
  rw [follow_root hfirst] at hnode
  rw [hnode] at hdirectory
  cases hdirectory

end AlikeFiles

theorem leadsOn_concat (front : List (List Char)) {name : String} (hname : IsName name) :
    Trail.LeadsOn (front ++ [name.toList]) := by
  intro back hback hne
  rcases List.suffix_concat_iff.mp hback with rfl | ⟨behind, rfl, -⟩
  · exact absurd rfl hne
  · simp [hname.2]

theorem endsInName_rooted {front : List (List Char)} (hfront : ∀ s ∈ front, '/' ∉ s)
    {name : String} (hname : IsName name) : EndsInName (rooted (front ++ [name.toList])) := by
  have hsingle : ∀ s ∈ front ++ [name.toList], '/' ∉ s := by
    simpa [or_imp, forall_and] using ⟨hfront, hname.1⟩
  rw [EndsInName, stretches_rooted hsingle]
  exact leadsOn_concat front hname

theorem endsInName_join (hp : p.isAbsolute = true) {name : String} (hname : IsName name) :
    EndsInName (p.join ⟨name⟩) := by
  obtain ⟨parts, hne, hparts, rfl⟩ := exists_rooted hp
  rw [join_rooted hne hparts hname.not_isAbsolute, hname.stretches]
  unfold extend
  split
  · exact endsInName_rooted (fun s hs ↦ hparts s (List.dropLast_subset _ hs)) hname
  · exact endsInName_rooted hparts hname

theorem isFile_eq (h : Alike p q) (hp : EndsInName p) (hq : EndsInName q) :
    tree.isFile p = tree.isFile q := by
  rw [isFile, isFile, FileTree.node?_eq h hp hq]

theorem alike_find? {ps qs : List Path}
    (h : List.Forall₂ (fun p q ↦ Alike p q ∧ EndsInName p ∧ EndsInName q) ps qs) :
    Option.Rel tree.AlikeFiles (ps.find? tree.isFile) (qs.find? tree.isFile) := by
  refine rel_find? h (fun p q hpq ↦ (isFile_eq hpq.1 hpq.2.1 hpq.2.2).symm)
    fun p q hpq hfile ↦ ?_
  exact ⟨hpq.1, hfile, isFile_eq hpq.1 hpq.2.1 hpq.2.2 ▸ hfile⟩

theorem alike_fileCandidates (h : Akin p q) :
    List.Forall₂ (fun p q ↦ Alike p q ∧ EndsInName p ∧ EndsInName q) (fileCandidates p)
      (fileCandidates q) := by
  obtain ⟨parts, hne, hparts, rfl⟩ := exists_rooted h.first
  obtain ⟨parts', hne', hparts', rfl⟩ := exists_rooted h.second
  obtain ⟨front, last, rfl⟩ := (List.eq_nil_or_concat' parts).resolve_left hne
  obtain ⟨front', last', rfl⟩ := (List.eq_nil_or_concat' parts').resolve_left hne'
  obtain rfl : last = last' := by
    have hend := h.end_eq
    rw [stretches_rooted hparts, stretches_rooted hparts'] at hend
    simpa [List.getLast?_cons] using hend
  have hlast : '/' ∉ (String.ofList last).toList := by
    rw [String.toList_ofList]
    exact hparts last (by simp)
  have hfront : ∀ s ∈ front, '/' ∉ s := fun s hs ↦ hparts s (List.mem_append_left _ hs)
  have hfront' : ∀ s ∈ front', '/' ∉ s := fun s hs ↦ hparts' s (List.mem_append_left _ hs)
  have hsame := h.same
  have htame := h.tame
  rw [components_rooted hne hparts, List.filterMap_append] at hsame htame
  rw [components_rooted hne' hparts', List.filterMap_append, List.cons.injEq,
    List.append_cancel_right_eq] at hsame
  have houter : IsTame (.root :: front.filterMap component?) :=
    htame.of_prefix ((List.prefix_cons_inj _).mpr (List.prefix_append _ _))
  have htext (front : List (List Char)) : rooted (front ++ [last]) =
      rooted (front ++ [(String.ofList last).toList]) := by rw [String.toList_ofList]
  rw [htext, htext, fileCandidates_rooted, fileCandidates_rooted, List.forall₂_map_left_iff,
    List.forall₂_map_right_iff, List.forall₂_same]
  intro c hc
  have hname := isName_of_mem_fileCandidates hlast hc
  have hcomponents {front : List (List Char)} (hfront : ∀ s ∈ front, '/' ∉ s) :
      (rooted (front ++ [c.text.toList])).components =
        .root :: front.filterMap component? ++ [.name c.text] := by
    rw [components_rooted (by simp) (by simpa [or_imp, forall_and] using ⟨hfront, hname.1⟩)]
    simp [hname.2]
  refine ⟨⟨isAbsolute_rooted (by simp), isAbsolute_rooted (by simp), ?_, ?_⟩,
    endsInName_rooted hfront hname, endsInName_rooted hfront' hname⟩
  · rw [hcomponents hfront, hcomponents hfront', hsame.2]
  · rw [hcomponents hfront]
    exact houter.append (.names [c.text])

theorem alike_file? (h : Akin p q) : Option.Rel tree.AlikeFiles (file? tree p) (file? tree q) :=
  alike_find? (alike_fileCandidates h)

theorem alike_index? (h : Alike p q) :
    Option.Rel tree.AlikeFiles (index? tree p) (index? tree q) := by
  have hnames : ∀ e ∈ endings, IsName ("index" ++ e) := by decide
  refine alike_find? ?_
  rw [List.forall₂_map_left_iff, List.forall₂_map_right_iff, List.forall₂_same]
  exact fun e he ↦ ⟨h.join_name (hnames e he), endsInName_join h.first (hnames e he),
    endsInName_join h.second (hnames e he)⟩

/-! ## Packages -/

theorem manifest?_eq (h : Alike p q) : manifest? readJson tree p = manifest? readJson tree q := by
  have hname : IsName "package.json" := by decide
  rw [manifest?, manifest?, read?, read?, FileTree.node?_eq (h.join_name hname)
    (endsInName_join h.first hname) (endsInName_join h.second hname)]

theorem alike_normalized? (h : Alike p q) (text : String) :
    Option.Rel tree.AlikeFiles (file? tree (p.join ⟨text⟩).normalize)
      (file? tree (q.join ⟨text⟩).normalize) := by
  rw [← normalize_join_eq h text]
  exact alike_file? (akin_normalize_join h.first text)

theorem alike_exported? (h : Alike p q) (subpath : String) :
    Option.Rel tree.AlikeFiles (exported? readJson tree options p subpath)
      (exported? readJson tree options q subpath) := by
  unfold exported?
  rw [← manifest?_eq h]
  exact rel_bind _ fun _ _ ↦ rel_bind _ fun _ _ ↦ rel_bind _ fun _ _ ↦
    rel_bind _ fun target _ ↦
    alike_normalized? h target

theorem alike_typings? (h : Alike p q) (manifest : Json) :
    Option.Rel tree.AlikeFiles (typings? tree p manifest) (typings? tree q manifest) := by
  refine rel_bind _ fun typings _ ↦ rel_orElse (alike_normalized? h typings) ?_
  rw [← normalize_join_eq h typings]
  exact alike_index? (akin_normalize_join h.first typings).toAlike

theorem alike_directory? (h : Alike p q) :
    Option.Rel tree.AlikeFiles (directory? readJson tree options p)
      (directory? readJson tree options q) := by
  unfold directory?
  rw [← isDirectory_eq h, ← manifest?_eq h]
  exact rel_bind _ fun _ _ ↦ rel_orElse (rel_bind _ fun manifest _ ↦
    rel_orElse (alike_exported? h ".") (alike_typings? h manifest)) (alike_index? h)

theorem alike_inPackage? (h : Alike p q) {subpath : Option String}
    (hsub : ∀ sub ∈ subpath, TameParts (partsOf sub)) :
    Option.Rel tree.AlikeFiles (inPackage? readJson tree options p subpath)
      (inPackage? readJson tree options q subpath) := by
  unfold inPackage?
  rw [← isDirectory_eq h]
  refine rel_bind _ fun _ _ ↦ ?_
  cases subpath with
  | none => exact alike_directory? h
  | some sub =>
      have htarget := h.akin_join (hsub sub rfl)
      exact rel_orElse (alike_exported? h _)
        (rel_orElse (alike_file? htarget) (alike_directory? htarget.toAlike))

theorem alike_published (h : Alike p q) {name : String} (hname : Tidy name) :
    Alike (((p.join ⟨"node_modules"⟩).join ⟨"@types"⟩).join ⟨typesName name⟩)
      (((q.join ⟨"node_modules"⟩).join ⟨"@types"⟩).join ⟨typesName name⟩) := by
  have hmodules := h.join_name isName_modules
  have hpublished := hmodules.join_name isName_published
  have htame (ss : List (List Char)) (hss : stretches (typesName name).toList = ss)
      (hdots : ∀ s ∈ ss, s ≠ ['.', '.']) : TameParts (partsOf (typesName name)) := by
    rw [partsOf, hss]
    exact tameParts_of_tidy hdots
  rcases typesName_cases name with hsame | ⟨rest, hrest, -, htypes⟩ |
    ⟨scope, package, more, hstretches, htypes⟩
  · refine hpublished.join (htame _ rfl fun s hs ↦ ?_)
    rw [hsame] at hs
    exact (hname s hs).2
  · by_cases hdots : rest = ['.', '.']
    · -- The one name that leads back from the published declarations.
      rw [htypes, hdots]
      have hcomponents {p : Path} (hp : p.isAbsolute = true) :
          (((p.join ⟨"node_modules"⟩).join ⟨"@types"⟩).join ⟨".."⟩).components =
            p.components ++ [.name "node_modules", .name "@types", .parent] := by
        have hmodules := isAbsolute_join hp ⟨"node_modules"⟩
        rw [components_join (isAbsolute_join hmodules _) (by decide +kernel),
          components_join hmodules isName_published.not_isAbsolute,
          components_join hp isName_modules.not_isAbsolute, partsOf_name isName_modules,
          partsOf_name isName_published, List.append_assoc, List.append_assoc]
        rfl
      refine ⟨isAbsolute_join hpublished.first _, isAbsolute_join hpublished.second _, ?_, ?_⟩
      · exact (hcomponents h.first).trans (h.same ▸ (hcomponents h.second).symm)
      · exact (hcomponents h.first).symm ▸ h.tame.append (.detour .nil)
    · refine hpublished.join (htame [rest] ?_ (by simpa using hdots))
      rw [htypes, String.toList_ofList, stretches_of_not_mem hrest]
  · refine hpublished.join (htame _ htypes fun s hs ↦ ?_)
    rcases List.mem_cons.mp hs with rfl | hs
    · intro hdots
      have hmem : '_' ∈ ['.', '.'] := hdots ▸ by simp
      exact absurd hmem (by decide)
    · exact (hname s (hstretches ▸ by simp [hs])).2

theorem alike_packageAt? {name : String} (hname : Tidy name) (h : Alike p q) :
    Option.Rel tree.AlikeFiles (packageAt? readJson tree options name p)
      (packageAt? readJson tree options name q) := by
  obtain ⟨front, back, hstretches, hfront, hback⟩ := stretches_splitPackage name
  have hpackage : Tidy (splitPackage name).1 := fun s hs ↦
    hname s (hstretches ▸ List.mem_append_left _ (hfront ▸ hs))
  have hsub : ∀ sub ∈ (splitPackage name).2, TameParts (partsOf sub) := by
    intro sub hsub
    rw [partsOf, hback sub hsub]
    exact tameParts_of_tidy fun s hs ↦ (hname s (hstretches ▸ List.mem_append_right _ hs)).2
  have hmodules := h.join_name isName_modules
  rw [packageAt?_eq, packageAt?_eq, ← isDirectory_eq hmodules]
  split
  · refine rel_orElse (alike_inPackage? (hmodules.join ?_) hsub)
      (alike_inPackage? (alike_published h hpackage) hsub)
    exact tameParts_of_tidy fun s hs ↦ (hpackage s hs).2
  · exact .none

theorem alike_package? {name : String} (hname : Tidy name) (h : Alike p q) :
    Option.Rel tree.AlikeFiles (package? readJson tree options name p)
      (package? readJson tree options name q) :=
  rel_findSome? h.ancestors fun _ _ ↦ alike_packageAt? hname

/-! ## Specifiers and directives -/

theorem alike_module? {specifier : String} (hs : isRelative specifier = false → Tidy specifier)
    (h : Alike p q) :
    Option.Rel tree.AlikeFiles (module? readJson tree options specifier p)
      (module? readJson tree options specifier q) := by
  unfold module?
  split
  next hrelative =>
    have hnormal := akin_normalize_join h.first specifier
    rw [← normalize_join_eq h specifier]
    exact rel_orElse (alike_file? hnormal) (alike_directory? hnormal.toAlike)
  next hrelative => exact alike_package? (hs (Bool.eq_false_iff.mpr hrelative)) h

theorem alike_types? {name : String} (hname : Tidy name) (h : Alike p q) :
    Option.Rel tree.AlikeFiles (types? readJson tree options name p)
      (types? readJson tree options name q) :=
  rel_orElse (rel_findSome? h.ancestors fun _ _ hdir ↦
    alike_directory? (alike_published hdir hname)) (alike_package? hname h)

theorem alike_reference? {reference : Reference} (hr : reference.IsTidy) (h : Alike p q) :
    Option.Rel tree.AlikeFiles (Program.reference? readJson tree options p reference)
      (Program.reference? readJson tree options q reference) := by
  cases reference with
  | path value =>
      unfold Program.reference?
      dsimp only
      rw [← normalize_join_eq h value]
      split
      next hfile =>
        exact .some ⟨(akin_normalize_join h.first value).toAlike, hfile, hfile⟩
      next => exact .none
  | types name => exact alike_types? hr h

end FileTree

end PluginSurface
