import PluginSurface.Proofs.Binding.Mirror
import PluginSurface.Proofs.Program.DepthFirst
import PluginSurface.Proofs.Program.Loading
import PluginSurface.Proofs.Program.SelfContained

/-!
# Loading two copies of a folder

If what is loaded from a folder mentions nothing outside of it, the same is loaded from a copy of
the folder: the same files in the same order, with the same texts, and specifiers stand for the same
files. Main statements: `Program.twin_load` and `Program.mirrors_of_copies`.
-/

namespace PluginSurface

namespace Folder

variable {F F' : Folder}

theorem stretches_eq_of_path_eq {r r' : Route} (h : F.path r = F.path r') :
    r.stretches = r'.stretches := by
  have hstretches := congrArg (fun p ↦ Path.stretches p.text.toList) h
  simp only [path, Path.stretches_rooted (F.single_append _)] at hstretches
  exact List.append_cancel_left (List.cons.inj hstretches).2

/-- A file is in a directory of the folder, along the same route in each copy. -/
theorem exists_directory {r : Route} (h : ∃ s ∈ r.stretches, Path.isBlank s = false) :
    ∃ d : Route, ∀ F : Folder, (F.path r).directory = F.path d := by
  obtain ⟨d, rest, hd⟩ := List.exists_cons_of_ne_nil (r.above_ne_nil h)
  refine ⟨d, fun F ↦ ?_⟩
  rw [Path.directory, Path.parent?, F.parents_path, hd]
  rfl

/-- How a file is named at the end of a route does not depend on the folder. -/
theorem endsWith_path {r : Route} (hne : r.stretches ≠ []) {ending : String}
    (hending : '/' ∉ ending.toList) :
    (F'.path r).text.endsWith ending = (F.path r).text.endsWith ending := by
  obtain ⟨front, last, hlast⟩ := (List.eq_nil_or_concat' r.stretches).resolve_left hne
  have hpath (F : Folder) :
      (F.path r).text.endsWith ending = (String.ofList last).endsWith ending := by
    have hrooted := Resolve.rooted_concat (F.parts ++ front) (.ofList last)
    rw [String.toList_ofList, List.append_assoc, ← hlast] at hrooted
    rw [path, hrooted]
    exact Resolve.endsWith_append_slash hending
  rw [hpath, hpath]

end Folder

/-! ## Units -/

namespace SourceUnit

/-- What the unit mentions is looked for in each of the two folders alone, or there is nothing that
it stands for. -/
def IsEnclosed (F F' : Folder) (readJson : String → Option Json) (root : FileTree)
    (options : CompilerOptions) (u : SourceUnit) : Prop :=
  ∃ d : Route, u.path.directory = F.path d ∧
    (∀ s ∈ u.tree.specifiers,
      F.Encloses readJson root options d s ∧ F'.Encloses readJson root options d s) ∧
    ∀ x ∈ u.tree.references,
      F.EnclosesReference readJson root options d x ∧
        F'.EnclosesReference readJson root options d x

/-- The second unit is the first one in a copy of its folder. -/
structure IsTwin (F F' : Folder) (u u' : SourceUnit) : Prop where
  path : F.Twin F' u.path u'.path
  isDeclaration : u'.isDeclaration = u.isDeclaration
  text : u'.text = u.text
  tree : u'.tree = u.tree
  resolved : List.Forall₂ (fun e e' ↦ e'.1 = e.1 ∧ F.Twin F' e.2 e'.2) u.resolved u'.resolved

end SourceUnit

namespace FileTree.Copies

open Folder

variable {readJson : String → Option Json} {root tree : FileTree} {F F' : Folder}
  {options : CompilerOptions}
  (h : root.Copies F F' tree) (hm : F.EnclosesManifests readJson root options)
  (hm' : F'.EnclosesManifests readJson root options)

include h hm hm'

theorem twin_addResolved {d : Route} {s : String} (hin : F.Encloses readJson root options d s)
    (hin' : F'.Encloses readJson root options d s) {found found' : List (String × Path)}
    (hfound : List.Forall₂ (fun e e' ↦ e'.1 = e.1 ∧ F.Twin F' e.2 e'.2) found found') :
    List.Forall₂ (fun e e' ↦ e'.1 = e.1 ∧ F.Twin F' e.2 e'.2)
      (Program.addResolved readJson root options (F.path d) found s)
      (Program.addResolved readJson root options (F'.path d) found' s) := by
  have hany : found'.any (·.1 == s) = found.any (·.1 == s) := by
    clear hin hin'
    induction hfound with
    | nil => rfl
    | cons he _ ih => rw [List.any_cons, List.any_cons, he.1, ih]
  have htwin := h.twin_module? hm hm' hin hin'
  unfold Program.addResolved
  rw [hany]
  split
  · exact hfound
  · generalize Resolve.module? readJson root options s (F.path d) = o at htwin ⊢
    generalize Resolve.module? readJson root options s (F'.path d) = o' at htwin ⊢
    cases htwin with
    | none => simpa using hfound
    | some hpath => exact List.rel_append hfound (.cons ⟨rfl, hpath⟩ .nil)

theorem twin_foldl_addResolved {d : Route} {specifiers : List String}
    (hs : ∀ s ∈ specifiers, F.Encloses readJson root options d s ∧
      F'.Encloses readJson root options d s)
    {found found' : List (String × Path)}
    (hfound : List.Forall₂ (fun e e' ↦ e'.1 = e.1 ∧ F.Twin F' e.2 e'.2) found found') :
    List.Forall₂ (fun e e' ↦ e'.1 = e.1 ∧ F.Twin F' e.2 e'.2)
      (specifiers.foldl (Program.addResolved readJson root options (F.path d)) found)
      (specifiers.foldl (Program.addResolved readJson root options (F'.path d)) found') := by
  induction specifiers generalizing found found' with
  | nil => exact hfound
  | cons s rest ih =>
      obtain ⟨hin, hin'⟩ := hs s List.mem_cons_self
      exact ih (fun t ht ↦ hs t (List.mem_cons_of_mem _ ht))
        (h.twin_addResolved hm hm' hin hin' hfound)

theorem twin_resolveAll {d : Route} {specifiers : List String}
    (hs : ∀ s ∈ specifiers, F.Encloses readJson root options d s ∧
      F'.Encloses readJson root options d s) :
    List.Forall₂ (fun e e' ↦ e'.1 = e.1 ∧ F.Twin F' e.2 e'.2)
      (Program.resolveAll readJson root options (F.path d) specifiers)
      (Program.resolveAll readJson root options (F'.path d) specifiers) := by
  rw [Program.resolveAll_eq_foldl, Program.resolveAll_eq_foldl]
  exact h.twin_foldl_addResolved hm hm' hs .nil

theorem twin_references {d : Route} {references : List Reference}
    (hs : ∀ x ∈ references,
      F.EnclosesReference readJson root options d x ∧
      F'.EnclosesReference readJson root options d x) :
    List.Forall₂ (F.Twin F')
      (references.filterMap (Program.reference? readJson root options (F.path d)))
      (references.filterMap (Program.reference? readJson root options (F'.path d))) := by
  induction references with
  | nil => exact .nil
  | cons x rest ih =>
      obtain ⟨hin, hin'⟩ := hs x List.mem_cons_self
      have htwin := h.twin_reference? hm hm' hin hin'
      have hrest := ih fun y hy ↦ hs y (List.mem_cons_of_mem _ hy)
      rw [List.filterMap_cons, List.filterMap_cons]
      generalize Program.reference? readJson root options (F.path d) x = o at htwin ⊢
      generalize Program.reference? readJson root options (F'.path d) x = o' at htwin ⊢
      cases htwin with
      | none => exact hrest
      | some hpath => exact .cons hpath hrest

theorem twin_readUnit {p p' : Path} (hp : F.Twin F' p p') {u : SourceUnit}
    (hread : Program.readUnit readJson root options p = .ok u)
    (hu : u.IsEnclosed F F' readJson root options) :
    ∃ u', Program.readUnit readJson root options p' = .ok u' ∧ u.IsTwin F F' u' ∧
      List.Forall₂ (F.Twin F') (Program.dependencies readJson root options u)
        (Program.dependencies readJson root options u') := by
  obtain ⟨hpath, htext, htree, hresolved⟩ := Program.readUnit_eq_ok hread
  obtain ⟨r, rfl, rfl⟩ := hp
  obtain ⟨d, hd, hspecifiers, hreferences⟩ := hu
  have hfile : root.isFile (F.path r) = true := by
    unfold FileTree.read? at htext
    unfold FileTree.isFile
    split at htext
    next => rfl
    next => cases htext
  have hblank := exists_not_blank h.first h.isDirectory hfile
  have hne : r.stretches ≠ [] := fun hnil ↦ by simp [hnil] at hblank
  obtain ⟨d', hd'⟩ := exists_directory hblank
  obtain rfl : d = d' :=
    Route.ext (stretches_eq_of_path_eq (hd.symm.trans (hpath ▸ hd' F)))
  have hall := h.twin_resolveAll hm hm' hspecifiers
  refine ⟨⟨F'.path r, u.text, u.tree, Program.resolveAll readJson root options
    (F'.path d) u.tree.specifiers⟩, ?_, ⟨hpath ▸ .path r, ?_, rfl, rfl, ?_⟩, ?_⟩
  · unfold Program.readUnit
    rw [h.read? (.path r), htext, hd' F']
    change (SourceFile.ofSource u.text).mapError _ >>= _ = _
    rw [htree]
    rfl
  · have hendings : ∀ e ∈ [".d.ts", ".d.mts", ".d.cts"], '/' ∉ e.toList := by decide
    unfold SourceUnit.isDeclaration
    rw [hpath, Bool.eq_iff_iff, List.any_eq_true, List.any_eq_true]
    exact exists_congr fun e ↦ and_congr_right fun he ↦ by
      rw [endsWith_path hne (hendings e he)]
  · rw [hresolved, hd']
    exact hall
  · unfold Program.dependencies
    dsimp only
    rw [hresolved, hpath, hd', hd']
    refine List.rel_append (h.twin_references hm hm' hreferences) ?_
    exact List.forall₂_map_left_iff.mpr (List.forall₂_map_right_iff.mpr
      (hall.imp fun _ _ he ↦ he.2))

end FileTree.Copies

/-! ## Loading -/

namespace Program

/-- The same was met and loaded in both copies. -/
structure Loading.IsTwin (F F' : Folder) (l l' : Loading) : Prop where
  seen : List.Forall₂ (F.Twin F') l.seen l'.seen
  units : List.Forall₂ (SourceUnit.IsTwin F F') l.units.toList l'.units.toList

variable {readJson : String → Option Json} {root : FileTree} {options : CompilerOptions}
  {F F' : Folder}

theorem Loading.IsTwin.met {l l' : Loading} (h : l.IsTwin F F' l') {p p' : Path}
    (hp : F.Twin F' p p') : l'.seen.any (·.same p') = l.seen.any (·.same p) := by
  have hany {ps ps' : List Path} (hps : List.Forall₂ (F.Twin F') ps ps') :
      ps'.any (·.same p') = ps.any (·.same p) := by
    induction hps with
    | nil => rfl
    | cons hq _ ih => rw [List.any_cons, List.any_cons, hq.same hp, ih]
  exact hany h.seen

variable {l m : Loading}

theorem grows_of_foldlM {visit : Loading → Path → Except LoadError Loading}
    (hvisit : ∀ l path m, visit l path = .ok m → l.Grows m) {paths : List Path}
    (h : paths.foldlM visit l = .ok m) : l.Grows m :=
  keeps_of_foldlM (fun m path m' _ hm hok ↦ hm.trans (hvisit m path m' hok))
    (.refl _) h

theorem grows_of_visit (rounds : Nat) {path : Path}
    (h : visit readJson root options rounds l path = .ok m) : l.Grows m := by
  induction rounds generalizing l path m with
  | zero =>
      unfold visit at h
      split at h
      · cases h
        exact .refl _
      · cases h
  | succ more ih =>
      unfold visit at h
      split at h
      · cases h
        exact .refl _
      obtain ⟨u, -, h⟩ := except_bind_eq_ok.mp h
      obtain ⟨next, hnext, h⟩ := except_bind_eq_ok.mp h
      cases h
      exact fun v hv ↦
        Array.mem_push_of_mem u (grows_of_foldlM (fun _ _ _ ↦ ih) hnext v hv)

/-- Files that are visited one after the other. Whatever is loaded at the end was enclosed
when it was read. -/
theorem twin_foldlM {P : SourceUnit → Prop}
    {visit : Loading → Path → Except LoadError Loading}
    (hgrows : ∀ l path m, visit l path = .ok m → l.Grows m)
    (hvisit : ∀ l l' p p' m, l.IsTwin F F' l' → F.Twin F' p p' → visit l p = .ok m →
      m.All P → ∃ m', visit l' p' = .ok m' ∧ m.IsTwin F F' m')
    {paths paths' : List Path} (hpaths : List.Forall₂ (F.Twin F') paths paths') {l' : Loading}
    (hl : l.IsTwin F F' l') (h : paths.foldlM visit l = .ok m) (hm : m.All P) :
    ∃ m', paths'.foldlM visit l' = .ok m' ∧ m.IsTwin F F' m' := by
  induction hpaths generalizing l l' with
  | nil =>
      cases h
      exact ⟨l', rfl, hl⟩
  | @cons p p' rest rest' hp _ ih =>
      rw [List.foldlM_cons, except_bind_eq_ok] at h
      obtain ⟨next, hnext, h⟩ := h
      have hall : next.All P := fun u hu ↦ hm u (grows_of_foldlM hgrows h u hu)
      obtain ⟨next', hnext', htwin⟩ := hvisit l l' p p' next hl hp hnext hall
      obtain ⟨m', hm', hend⟩ := ih htwin h
      exact ⟨m', by rw [List.foldlM_cons, except_bind_eq_ok]; exact ⟨next', hnext', hm'⟩,
        hend⟩

section

variable {tree : FileTree} (h : root.Copies F F' tree)
  (hm : F.EnclosesManifests readJson root options)
  (hm' : F'.EnclosesManifests readJson root options)

include h hm hm'

theorem twin_visit (rounds : Nat) {l' : Loading} {p p' : Path} (hl : l.IsTwin F F' l')
    (hp : F.Twin F' p p') (hvisit : visit readJson root options rounds l p = .ok m)
    (hall : m.All (SourceUnit.IsEnclosed F F' readJson root options)) :
    ∃ m', visit readJson root options rounds l' p' = .ok m' ∧ m.IsTwin F F' m' := by
  induction rounds generalizing l l' m p p' with
  | zero =>
      unfold visit at hvisit ⊢
      rw [hl.met hp]
      split at hvisit
      next hmet =>
        cases hvisit
        exact ⟨l', by rw [if_pos hmet]; rfl, hl⟩
      next => cases hvisit
  | succ more ih =>
      unfold visit at hvisit ⊢
      rw [hl.met hp]
      split at hvisit
      next hmet =>
        cases hvisit
        exact ⟨l', by rw [if_pos hmet]; rfl, hl⟩
      next hnew =>
        obtain ⟨u, hread, hvisit⟩ := except_bind_eq_ok.mp hvisit
        obtain ⟨next, hnext, hvisit⟩ := except_bind_eq_ok.mp hvisit
        cases hvisit
        have hu := hall u Array.mem_push_self
        obtain ⟨u', hread', htwin, hdependencies⟩ := h.twin_readUnit hm hm' hp hread hu
        have hopen : Loading.IsTwin F F' { l with seen := p :: l.seen }
            { l' with seen := p' :: l'.seen } := ⟨.cons hp hl.seen, hl.units⟩
        obtain ⟨next', hnext', hend⟩ := twin_foldlM (fun _ _ _ ↦ grows_of_visit more)
          (fun _ _ _ _ _ ↦ ih) hdependencies hopen hnext
          fun v hv ↦ hall v (Array.mem_push_of_mem u hv)
        refine ⟨{ next' with units := next'.units.push u' }, ?_, hend.seen, ?_⟩
        · rw [if_neg hnew]
          exact except_bind_eq_ok.mpr ⟨u', hread', except_bind_eq_ok.mpr
            ⟨next', hnext', rfl⟩⟩
        · simpa using List.rel_append hend.units (.cons htwin .nil)

theorem twin_load {r : Route} {p : Program} (hload : load readJson root options (F.path r) = .ok p)
    (hp : ∀ u ∈ p.units, u.IsEnclosed F F' readJson root options) :
    ∃ p', load readJson root options (F'.path r) = .ok p' ∧ p'.options = p.options ∧
      List.Forall₂ (SourceUnit.IsTwin F F') p.units.toList p'.units.toList := by
  obtain ⟨s, hs⟩ := FileTree.exists_canonical tree r
  unfold load at hload ⊢
  rw [hs root F h.first] at hload
  rw [h.isFile (.path r), hs root F' h.second]
  split at hload
  next hfile =>
    obtain ⟨l, hvisit, hload⟩ := except_bind_eq_ok.mp hload
    cases hload
    have hstart : Loading.IsTwin F F' ⟨[], #[]⟩ ⟨[], #[]⟩ := ⟨.nil, .nil⟩
    obtain ⟨l', hvisit', htwin⟩ := twin_visit h hm hm' _ hstart (.path s) hvisit hp
    refine ⟨⟨options, l'.units⟩, ?_, rfl, htwin.units⟩
    rw [if_pos hfile]
    exact except_bind_eq_ok.mpr ⟨l', hvisit', rfl⟩
  next => cases hload

end

/-! ## Programs -/

theorem rel_getElem? {α β : Type} {R : α → β → Prop} {xs : List α} {ys : List β}
    (h : List.Forall₂ R xs ys) (i : Nat) : Option.Rel R xs[i]? ys[i]? := by
  induction h generalizing i with
  | nil => exact .none
  | cons hxy _ ih =>
      cases i with
      | zero => exact .some hxy
      | succ i => exact ih i

theorem forall₂_zipIdx {α β : Type} {R : α → β → Prop} {xs : List α} {ys : List β}
    (h : List.Forall₂ R xs ys) (start : Nat) :
    List.Forall₂ (fun x y ↦ y.2 = x.2 ∧ R x.1 y.1) (xs.zipIdx start) (ys.zipIdx start) := by
  induction h generalizing start with
  | nil => exact .nil
  | cons hxy _ ih => exact .cons ⟨rfl, hxy⟩ (ih (start + 1))

section

variable {p p' : Program}
  (h : List.Forall₂ (SourceUnit.IsTwin F F') p.units.toList p'.units.toList)

include h

theorem twin_unitAt? {path path' : Path} (hpath : F.Twin F' path path') :
    p'.unitAt? path' = p.unitAt? path := by
  have hfind {us us' : List SourceUnit} (hus : List.Forall₂ (SourceUnit.IsTwin F F') us us') :
      us'.findIdx? (·.path.same path') = us.findIdx? (·.path.same path) := by
    induction hus with
    | nil => rfl
    | cons hu _ ih => rw [List.findIdx?_cons, List.findIdx?_cons, hu.path.same hpath, ih]
  have hlist (p : Program) (path : Path) :
      p.unitAt? path = p.units.toList.findIdx? (·.path.same path) :=
    List.findIdx?_toArray _ p.units.toList
  rw [hlist, hlist, hfind h]

theorem twin_resolvedModule (file : Nat) (specifier : String) :
    p'.resolvedModule file specifier = p.resolvedModule file specifier := by
  have hresolved {es es' : List (String × Path)}
      (hes : List.Forall₂ (fun e e' ↦ e'.1 = e.1 ∧ F.Twin F' e.2 e'.2) es es') :
      ((es'.find? (·.1 == specifier)).bind fun e ↦ p'.unitAt? e.2) =
        (es.find? (·.1 == specifier)).bind fun e ↦ p.unitAt? e.2 := by
    induction hes with
    | nil => rfl
    | @cons e e' es es' he _ ih =>
        rw [List.find?_cons, List.find?_cons, he.1]
        split
        · exact twin_unitAt? h he.2
        · exact ih
  have hunit := rel_getElem? h file
  rw [Array.getElem?_toList, Array.getElem?_toList] at hunit
  change (p'.units[file]?.bind fun u ↦ (u.resolved.find? (·.1 == specifier)).bind fun e ↦
      p'.unitAt? e.2) = p.units[file]?.bind fun u ↦
    (u.resolved.find? (·.1 == specifier)).bind fun e ↦ p.unitAt? e.2
  generalize p.units[file]? = o at hunit ⊢
  generalize p'.units[file]? = o' at hunit ⊢
  cases hunit with
  | none => rfl
  | some hu => exact hresolved hu.resolved

/-- Programs that were loaded from two copies mirror each other, but for the places
of their files. -/
theorem mirrors_of_copies (hoptions : p'.options = p.options) :
    p.Mirrors (fun _ ↦ TypeEdit.none) False p' where
  options := hoptions
  units := (forall₂_zipIdx h 0).imp fun x x' hx ↦
    ⟨hx.1, by rw [hx.2.tree, SourceFile.edit, editAll_none], hx.2.isDeclaration, False.elim⟩
  resolvedModule := twin_resolvedModule h

end

end Program

end PluginSurface
