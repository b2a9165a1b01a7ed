import Mathlib.Logic.Relation
import PluginSurface.Proofs.Program.Loading

/-!
# Loading goes depth first

While files are loaded, some units are open: they are read, and the files that they lead to
are being loaded. The open units lead to one another, so whatever leads back to one of them is
part of a cycle. From this invariant of a visit follow, by induction on the rounds, that the
units of a program are closed under what they depend on, and that each comes after what it
depends on outside of cycles.
-/

namespace PluginSurface

theorem Path.same_iff {p q : Path} : p.same q = true ↔ p.components = q.components := beq_iff_eq

variable (readJson : String → Option Json) (tree : FileTree) (options : CompilerOptions)

/-- A reference directive or a specifier of the unit stands for the file at the path. -/
def SourceUnit.Targets (u : SourceUnit) (path : Path) : Prop :=
  (∃ r ∈ u.tree.references,
    Program.reference? readJson tree options u.path.directory r = some path) ∨
  ∃ s ∈ u.tree.specifiers,
    Resolve.module? readJson tree options s u.path.directory = some path

def SourceUnit.DependsOn (u v : SourceUnit) : Prop :=
  ∃ path, u.Targets readJson tree options path ∧ path.same v.path = true

/-- One unit depends on the other, through units of the list only. -/
def SourceUnit.Reaches (units : List SourceUnit) : SourceUnit → SourceUnit → Prop :=
  Relation.ReflTransGen fun u v ↦ u ∈ units ∧ v ∈ units ∧
    u.DependsOn readJson tree options v

namespace Program

variable {readJson tree options}

/-! ## Reading a unit -/

/-- What is found with one more specifier: only its first file counts. -/
def addResolved (readJson : String → Option Json) (tree : FileTree) (options : CompilerOptions)
    (dir : Path) (found : List (String × Path)) (s : String) : List (String × Path) :=
  if found.any (·.1 == s) then found
  else found ++ ((Resolve.module? readJson tree options s dir).map (s, ·)).toList

theorem resolveAll_eq_foldl (dir : Path) (specifiers : List String) :
    resolveAll readJson tree options dir specifiers =
      specifiers.foldl (addResolved readJson tree options dir) [] := by
  refine congrArg (List.foldl · [] specifiers) (funext₂ fun found s ↦ ?_)
  rw [addResolved]
  cases Resolve.module? readJson tree options s dir <;> simp

section

variable {dir : Path} {s t : String} {path : Path} {found : List (String × Path)}

/-- What is found already for a specifier is what it stands for. -/
theorem mem_addResolved
    (hfound : ∀ x ∈ found, Resolve.module? readJson tree options x.1 dir = some x.2) :
    (s, path) ∈ addResolved readJson tree options dir found t ↔
      (s, path) ∈ found ∨ s = t ∧ Resolve.module? readJson tree options s dir =
        some path := by
  unfold addResolved
  by_cases hany : found.any (·.1 == t) = true
  · rw [if_pos hany]
    refine ⟨.inl, fun h ↦ h.elim id ?_⟩
    rintro ⟨rfl, hpath⟩
    obtain ⟨⟨t, other⟩, hmem, ht⟩ := List.any_eq_true.mp hany
    obtain rfl : t = s := beq_iff_eq.mp ht
    have hother := hfound _ hmem
    rw [hpath] at hother
    exact Option.some.inj hother ▸ hmem
  · rw [if_neg hany, List.mem_append, Option.mem_toList, Option.map_eq_some_iff]
    refine or_congr_right ⟨?_, ?_⟩
    · rintro ⟨target, htarget, heq⟩
      cases heq
      exact ⟨rfl, htarget⟩
    · rintro ⟨rfl, hpath⟩
      exact ⟨path, hpath, rfl⟩

theorem module?_of_mem_addResolved
    (hfound : ∀ x ∈ found, Resolve.module? readJson tree options x.1 dir = some x.2) :
    ∀ x ∈ addResolved readJson tree options dir found t,
      Resolve.module? readJson tree options x.1 dir = some x.2 := by
  rintro ⟨s, path⟩ hx
  exact ((mem_addResolved hfound).mp hx).elim (hfound (s, path)) And.right

theorem mem_foldl_addResolved {specifiers : List String}
    (hfound : ∀ x ∈ found, Resolve.module? readJson tree options x.1 dir = some x.2) :
    (s, path) ∈ specifiers.foldl (addResolved readJson tree options dir) found ↔
      (s, path) ∈ found ∨
        s ∈ specifiers ∧ Resolve.module? readJson tree options s dir = some path := by
  induction specifiers generalizing found with
  | nil => simp
  | cons t rest ih =>
      rw [List.foldl_cons, ih (module?_of_mem_addResolved hfound), mem_addResolved hfound,
        List.mem_cons, or_assoc, ← or_and_right]

theorem mem_resolveAll {specifiers : List String} :
    (s, path) ∈ resolveAll readJson tree options dir specifiers ↔
      s ∈ specifiers ∧ Resolve.module? readJson tree options s dir = some path := by
  rw [resolveAll_eq_foldl, mem_foldl_addResolved fun _ hx ↦ absurd hx List.not_mem_nil,
    or_iff_right List.not_mem_nil]

end

/-- What is known of a unit that was read. -/
theorem readUnit_eq_ok {path : Path} {u : SourceUnit}
    (h : readUnit readJson tree options path = .ok u) :
    u.path = path ∧ tree.read? path = some u.text ∧ SourceFile.ofSource u.text = .ok u.tree ∧
      u.resolved = resolveAll readJson tree options path.directory u.tree.specifiers := by
  unfold readUnit at h
  split at h
  next text hread =>
    obtain ⟨file, hfile, h⟩ := except_bind_eq_ok.mp h
    cases h
    exact ⟨rfl, hread, mapError_eq_ok.mp hfile, rfl⟩
  next => cases h

theorem mem_dependencies {path target : Path} {u : SourceUnit}
    (h : readUnit readJson tree options path = .ok u) :
    target ∈ dependencies readJson tree options u ↔ u.Targets readJson tree options target := by
  obtain ⟨hpath, -, -, hresolved⟩ := readUnit_eq_ok h
  rw [dependencies, List.mem_append, List.mem_filterMap, hresolved, ← hpath, List.mem_map]
  refine or_congr_right ⟨?_, ?_⟩
  · rintro ⟨⟨s, other⟩, hmem, rfl⟩
    exact ⟨s, mem_resolveAll.mp hmem⟩
  · rintro ⟨s, hs⟩
    exact ⟨(s, target), mem_resolveAll.mpr hs, rfl⟩

/-! ## The invariant -/

namespace Loading

/-- The units that are open, from the inside out, and those that are loaded. -/
def known (l : Loading) (opened : List SourceUnit) : List SourceUnit := opened ++ l.units.toList

/-- The path was met before. -/
def Met (l : Loading) (path : Path) : Prop := l.seen.any (·.same path) = true

variable (readJson tree options) in
/-- What a visit keeps. Each open unit leads to the innermost one, and the outermost one to all;
what a loaded unit depends on was loaded before it or leads back to it. -/
structure Sound (outermost : SourceUnit) (opened : List SourceUnit) (l : Loading) : Prop where
  met_iff : ∀ path, l.Met path ↔ ∃ u ∈ l.known opened, u.path.same path = true
  read : ∀ u ∈ l.known opened, readUnit readJson tree options u.path = .ok u
  distinct : (l.known opened).Pairwise fun u v ↦ u.path.same v.path = false
  leads :
    ∀ u ∈ opened, ∀ v ∈ opened.head?, u.Reaches readJson tree options (l.known opened) v
  reached : ∀ u ∈ l.known opened, outermost.Reaches readJson tree options (l.known opened) u
  ordered : ∀ (i : Nat) (u : SourceUnit), l.units[i]? = some u → ∀ v ∈ l.known opened,
    u.DependsOn readJson tree options v →
    (∃ j ≤ i, l.units[j]? = some v) ∨ v.Reaches readJson tree options (l.known opened) u
  closed : ∀ u ∈ l.units, ∀ path, u.Targets readJson tree options path → l.Met path

/-- Nothing that is known is forgotten. -/
def Grows (l l' : Loading) : Prop := ∀ u ∈ l.units, u ∈ l'.units

theorem Grows.refl (l : Loading) : l.Grows l := fun _ ↦ id

theorem Grows.trans {l m n : Loading} (h : l.Grows m) (h' : m.Grows n) : l.Grows n :=
  fun u hu ↦ h' u (h u hu)

end Loading

end Program

namespace SourceUnit

variable {readJson tree options}

theorem Reaches.mono {units more : List SourceUnit} (hsub : units ⊆ more) {u v : SourceUnit}
    (h : u.Reaches readJson tree options units v) : u.Reaches readJson tree options more v := by
  refine Relation.ReflTransGen.mono ?_ u v h
  exact fun _ _ hstep ↦ ⟨hsub hstep.1, hsub hstep.2.1, hstep.2.2⟩

end SourceUnit

namespace Program.Loading

variable {readJson tree options} {outermost : SourceUnit} {opened : List SourceUnit}
    {l l' : Loading}

theorem Grows.known (h : l.Grows l') : l.known opened ⊆ l'.known opened := by
  intro u hu
  rcases List.mem_append.mp hu with hu | hu
  · exact List.mem_append_left _ hu
  · exact List.mem_append_right _ (Array.mem_def.mp (h u (Array.mem_def.mpr hu)))

theorem Sound.met_mono (h : l.Sound readJson tree options outermost opened)
    (h' : l'.Sound readJson tree options outermost opened) (hgrows : l.Grows l') {path : Path}
    (hpath : l.Met path) : l'.Met path := by
  obtain ⟨u, hu, hsame⟩ := (h.met_iff path).mp hpath
  exact (h'.met_iff path).mpr ⟨u, hgrows.known hu, hsame⟩

/-- Opening the unit of a path that was not met, which the innermost open unit leads to. -/
theorem Sound.opening (h : l.Sound readJson tree options outermost opened) {path : Path}
    (hnew : ¬l.Met path) {inner u : SourceUnit} (hinner : opened.head? = some inner)
    (htarget : inner.Targets readJson tree options path)
    (hread : readUnit readJson tree options path = .ok u) :
    Sound readJson tree options outermost (u :: opened) { l with seen := path :: l.seen } := by
  obtain ⟨hpath, -, -, -⟩ := readUnit_eq_ok hread
  have hsub : l.known opened ⊆ u :: l.known opened := List.subset_cons_self _ _
  have hmem : inner ∈ l.known opened := List.mem_append_left _ (List.mem_of_head? hinner)
  have hstep : inner.Reaches readJson tree options (u :: l.known opened) u :=
    .single ⟨hsub hmem, List.mem_cons_self, path, htarget, by rw [hpath, Path.same_iff]⟩
  constructor
  · intro other
    change (path.same other || l.seen.any (·.same other)) = true ↔
      ∃ v ∈ u :: l.known opened, v.path.same other = true
    rw [Bool.or_eq_true, List.exists_mem_cons_iff, hpath]
    exact or_congr_right (h.met_iff other)
  · intro v hv
    rcases List.mem_cons.mp hv with rfl | hv
    · rw [hpath, hread]
    · exact h.read v hv
  · refine List.pairwise_cons.mpr ⟨fun v hv ↦ ?_, h.distinct⟩
    rw [hpath]
    refine Bool.eq_false_iff.mpr fun hsame ↦ hnew ((h.met_iff path).mpr ⟨v, hv, ?_⟩)
    exact Path.same_iff.mpr (Path.same_iff.mp hsame).symm
  · rintro v hv w hw
    obtain rfl := Option.some.inj hw
    rcases List.mem_cons.mp hv with rfl | hv
    · exact .refl
    · exact ((h.leads v hv inner hinner).mono hsub).trans hstep
  · intro v hv
    rcases List.mem_cons.mp hv with rfl | hv
    · exact ((h.reached inner hmem).mono hsub).trans hstep
    · exact (h.reached v hv).mono hsub
  · intro i v hv w hw hdepends
    rcases List.mem_cons.mp hw with rfl | hw
    · -- What a loaded unit depends on was met before.
      obtain ⟨target, htarget, hsame⟩ := hdepends
      obtain ⟨x, hx, hxsame⟩ :=
        (h.met_iff target).mp (h.closed v (Array.mem_of_getElem? hv) target htarget)
      refine absurd ((h.met_iff path).mpr ⟨x, hx, ?_⟩) hnew
      rw [Path.same_iff] at hsame hxsame ⊢
      rw [hxsame, hsame, hpath]
    · exact (h.ordered i v hv w hw hdepends).imp_right (·.mono hsub)
  · intro v hv other hother
    exact Bool.or_eq_true_iff.mpr (.inr (h.closed v hv other hother))

/-- Closing the innermost open unit when all that it depends on was met. -/
theorem Sound.closing {u : SourceUnit} (h : l.Sound readJson tree options outermost opened)
    (hinner : l'.Sound readJson tree options outermost (u :: opened)) (hgrows : l.Grows l')
    (hall : ∀ path, u.Targets readJson tree options path → l'.Met path) :
    Sound readJson tree options outermost opened { l' with units := l'.units.push u } := by
  have hperm : (u :: l'.known opened).Perm
      (known { l' with units := l'.units.push u } opened) := by
    rw [known, known, Array.toList_push, ← List.append_assoc]
    exact (List.perm_append_singleton u _).symm
  have hmem {v : SourceUnit} :
      v ∈ known { l' with units := l'.units.push u } opened ↔ v ∈ u :: l'.known opened :=
    hperm.symm.mem_iff
  have hsub : u :: l'.known opened ⊆ known { l' with units := l'.units.push u } opened :=
    hperm.subset
  constructor
  · intro path
    exact (hinner.met_iff path).trans (exists_congr fun v ↦ and_congr_left fun _ ↦ hmem.symm)
  · exact fun v hv ↦ hinner.read v (hmem.mp hv)
  · refine (hperm.pairwise_iff fun {v w} hvw ↦ ?_).mp hinner.distinct
    refine Bool.eq_false_iff.mpr fun hwv ↦ Bool.eq_false_iff.mp hvw ?_
    exact Path.same_iff.mpr (Path.same_iff.mp hwv).symm
  · intro v hv w hw
    refine (h.leads v hv w hw).mono fun x hx ↦ hsub (List.mem_cons_of_mem _ (hgrows.known hx))
  · exact fun v hv ↦ (hinner.reached v (hmem.mp hv)).mono hsub
  · intro i v hv w hw hdepends
    rw [Array.getElem?_push] at hv
    split at hv
    next hi =>
      obtain rfl := Option.some.inj hv
      rcases List.mem_append.mp hw with hw | hw
      · exact .inr ((hinner.leads w (List.mem_cons_of_mem _ hw) u rfl).mono hsub)
      · obtain ⟨j, hj⟩ := List.getElem?_of_mem hw
        rw [Array.getElem?_toList] at hj
        obtain ⟨hlt, -⟩ := Array.getElem?_eq_some_iff.mp hj
        rw [Array.size_push] at hlt
        exact .inl ⟨j, by omega, hj⟩
    next =>
      have hlt := (Array.getElem?_eq_some_iff.mp hv).1
      rcases hinner.ordered i v hv w (hmem.mp hw) hdepends with ⟨j, hj, hjw⟩ | hreaches
      · have hjlt := (Array.getElem?_eq_some_iff.mp hjw).1
        refine .inl ⟨j, hj, ?_⟩
        rw [Array.getElem?_push, if_neg (by omega)]
        exact hjw
      · exact .inr (hreaches.mono hsub)
  · intro v hv path hpath
    rcases Array.mem_push.mp hv with hv | rfl
    · exact hinner.closed v hv path hpath
    · exact hall path hpath

/-! ## Visits -/

/-- Files that the innermost open unit leads to, visited one after the other. -/
theorem Sound.foldlM {visit : Loading → Path → Except LoadError Loading} {inner : SourceUnit}
    (hvisit : ∀ l path l', l.Sound readJson tree options outermost opened →
      inner.Targets readJson tree options path →
      visit l path = .ok l' → l'.Sound readJson tree options outermost opened ∧
      l.Grows l' ∧ l'.Met path)
    {paths : List Path} (hpaths : ∀ path ∈ paths, inner.Targets readJson tree options path)
    (h : l.Sound readJson tree options outermost opened) (hfold : paths.foldlM visit l = .ok l') :
    l'.Sound readJson tree options outermost opened ∧ l.Grows l' ∧ ∀ path ∈ paths,
    l'.Met path := by
  induction paths generalizing l with
  | nil =>
      cases hfold
      exact ⟨h, .refl _, by simp⟩
  | cons path rest ih =>
      rw [List.foldlM_cons, except_bind_eq_ok] at hfold
      obtain ⟨next, hnext, hfold⟩ := hfold
      obtain ⟨hsound, hgrows, hmet⟩ :=
        hvisit l path next h (hpaths path List.mem_cons_self) hnext
      obtain ⟨hsound', hgrows', hmets⟩ :=
        ih (fun other hother ↦ hpaths other (List.mem_cons_of_mem _ hother)) hsound hfold
      refine ⟨hsound', hgrows.trans hgrows', fun other hother ↦ ?_⟩
      rcases List.mem_cons.mp hother with rfl | hother
      · exact hsound.met_mono hsound' hgrows' hmet
      · exact hmets other hother

/-- A unit is opened, what it depends on is visited, and it is closed again. -/
theorem Sound.visit_unit {rounds : Nat} {u : SourceUnit}
    (hvisit : ∀ l path l', l.Sound readJson tree options outermost (u :: opened) →
      u.Targets readJson tree options path →
      visit readJson tree options rounds l path = .ok l' →
        l'.Sound readJson tree options outermost (u :: opened) ∧ l.Grows l' ∧ l'.Met path)
    (hread : readUnit readJson tree options u.path = .ok u)
    (h : l.Sound readJson tree options outermost (u :: opened))
    (hfold : (dependencies readJson tree options u).foldlM
      (visit readJson tree options rounds) l = .ok l') :
    l'.Sound readJson tree options outermost (u :: opened) ∧ l.Grows l' ∧
      ∀ path, u.Targets readJson tree options path → l'.Met path := by
  obtain ⟨hsound, hgrows, hmets⟩ :=
    h.foldlM hvisit (fun path hpath ↦ (mem_dependencies hread).mp hpath) hfold
  exact ⟨hsound, hgrows, fun path hpath ↦ hmets path ((mem_dependencies hread).mpr hpath)⟩

theorem sound_of_visit (rounds : Nat) {path : Path} {inner : SourceUnit}
    (h : l.Sound readJson tree options outermost opened) (hinner : opened.head? = some inner)
    (htarget : inner.Targets readJson tree options path)
    (hvisit : visit readJson tree options rounds l path = .ok l') :
    l'.Sound readJson tree options outermost opened ∧ l.Grows l' ∧ l'.Met path := by
  induction rounds generalizing opened l path l' inner with
  | zero =>
      unfold visit at hvisit
      split at hvisit
      next hmet =>
        cases hvisit
        exact ⟨h, .refl _, hmet⟩
      next => cases hvisit
  | succ more ih =>
      unfold visit at hvisit
      split at hvisit
      next hmet =>
        cases hvisit
        exact ⟨h, .refl _, hmet⟩
      next hnew =>
        obtain ⟨u, hread, hvisit⟩ := except_bind_eq_ok.mp hvisit
        obtain ⟨next, hfold, hvisit⟩ := except_bind_eq_ok.mp hvisit
        cases hvisit
        have hpath := (readUnit_eq_ok hread).1
        have hopen := h.opening hnew hinner htarget hread
        obtain ⟨hnext, hgrows, hall⟩ := hopen.visit_unit
          (fun _ _ _ hl htarget ↦ ih hl rfl htarget) (hpath.symm ▸ hread) hfold
        have hclosed := h.closing hnext hgrows hall
        refine ⟨hclosed, fun v hv ↦ Array.mem_push_of_mem u (hgrows v hv), ?_⟩
        refine (hclosed.met_iff path).mpr ⟨u, ?_, by rw [hpath, Path.same_iff]⟩
        exact List.mem_append_right _ (by simp)

end Program.Loading

namespace Program

variable {readJson tree options} {p : Program}

variable (readJson tree options) in
/-- The units of a program are what its last unit depends on, and nothing else; each is known by its
place, and it comes after what it depends on, except in cycles. -/
structure IsClosure (p : Program) (entry : Path) : Prop where
  place : ∀ (i : Nat) (u : SourceUnit), p.units[i]? = some u → p.unitAt? u.path = some i
  last : ∃ u, p.units.back? = some u ∧ u.path = entry ∧
    ∀ v ∈ p.units, u.Reaches readJson tree options p.units.toList v
  read :
    ∀ u ∈ p.units, tree.read? u.path = some u.text ∧ SourceFile.ofSource u.text = .ok u.tree
  closed : ∀ u ∈ p.units, ∀ path, u.Targets readJson tree options path →
    (p.unitAt? path).isSome
  ordered : ∀ (i j : Nat) (u v : SourceUnit), p.units[i]? = some u → p.units[j]? = some v →
    u.DependsOn readJson tree options v →
    ¬v.Reaches readJson tree options p.units.toList u → j < i

namespace Loading

variable {outermost : SourceUnit} {l : Loading}

theorem sound_empty (outermost : SourceUnit) :
    Sound readJson tree options outermost [] ⟨[], #[]⟩ := by
  constructor <;> simp [Met, known]

/-- The first unit is opened by itself. -/
theorem sound_first {path : Path} {u : SourceUnit}
    (hread : readUnit readJson tree options path = .ok u) :
    Sound readJson tree options u [u] ⟨[path], #[]⟩ := by
  obtain ⟨rfl, -, -, -⟩ := readUnit_eq_ok hread
  have hself : u.Reaches readJson tree options [u] u := .refl
  constructor <;> simp_all [Met, known]

theorem Sound.unitAt? (h : l.Sound readJson tree options outermost []) {i : Nat} {u : SourceUnit}
    (hu : l.units[i]? = some u) {path : Path} (hsame : u.path.same path = true) :
    Program.unitAt? ⟨options, l.units⟩ path = some i := by
  obtain ⟨hi, hget⟩ := Array.getElem?_eq_some_iff.mp hu
  refine Array.findIdx?_eq_some_iff_getElem.mpr ⟨hi, ?_, fun j hj ↦ ?_⟩
  · rw [hget]
    exact hsame
  · have hlt : j < l.units.toList.length := by simpa using Nat.lt_trans hj hi
    have hapart := List.pairwise_iff_getElem.mp h.distinct j i hlt (by simpa [known] using hi) hj
    refine fun hother ↦ Bool.eq_false_iff.mp hapart ?_
    simp only [known, List.nil_append, Array.getElem_toList, hget]
    rw [Path.same_iff] at hother hsame ⊢
    exact hother.trans hsame.symm

end Loading

theorem isClosure_of_load {entry : Path} (h : load readJson tree options entry = .ok p) :
    p.IsClosure readJson tree options (tree.canonical entry) := by
  unfold load at h
  split at h
  next =>
    obtain ⟨l, hvisit, h⟩ := except_bind_eq_ok.mp h
    cases h
    obtain ⟨rounds, hrounds⟩ : ∃ rounds, chainLimit tree = rounds + 1 :=
      Nat.exists_eq_succ_of_ne_zero (by simp [chainLimit])
    rw [hrounds] at hvisit
    unfold visit at hvisit
    obtain ⟨u, hread, hvisit⟩ := except_bind_eq_ok.mp hvisit
    obtain ⟨next, hfold, hvisit⟩ := except_bind_eq_ok.mp hvisit
    cases hvisit
    have hpath := (readUnit_eq_ok hread).1
    obtain ⟨hnext, -, hall⟩ := (Loading.sound_first hread).visit_unit
      (fun _ _ _ hl htarget ↦ Loading.sound_of_visit rounds hl rfl htarget)
        (hpath.symm ▸ hread) hfold
    have hsound := (Loading.sound_empty u).closing hnext (fun _ hv ↦ absurd hv (by simp)) hall
    have hknown : Loading.known { next with units := next.units.push u } [] =
      (next.units.push u).toList := rfl
    constructor
    · intro i v hv
      exact hsound.unitAt? hv (Path.same_iff.mpr rfl)
    · refine ⟨u, Array.back?_push, hpath, fun v hv ↦ ?_⟩
      exact hsound.reached v (hknown ▸ Array.mem_def.mp hv)
    · intro v hv
      have hread := readUnit_eq_ok (hsound.read v (hknown ▸ Array.mem_def.mp hv))
      exact ⟨hread.2.1, hread.2.2.1⟩
    · intro v hv path htarget
      obtain ⟨w, hw, hsame⟩ := (hsound.met_iff path).mp (hsound.closed v hv path htarget)
      obtain ⟨i, hi⟩ := List.getElem?_of_mem (hknown ▸ hw)
      rw [Array.getElem?_toList] at hi
      rw [hsound.unitAt? hi hsame]
      rfl
    · intro i j v w hv hw hdepends hreaches
      have hmem : w ∈ (next.units.push u).toList := Array.mem_def.mp (Array.mem_of_getElem? hw)
      rcases hsound.ordered i v hv w (hknown ▸ hmem) hdepends with ⟨k, hk, hkw⟩ | hback
      · -- The place of a unit is the only one, and a unit reaches itself.
        have hj := hsound.unitAt? hw (Path.same_iff.mpr rfl)
        rw [hsound.unitAt? hkw (Path.same_iff.mpr rfl)] at hj
        obtain rfl := Option.some.inj hj
        refine Nat.lt_of_le_of_ne hk fun heq ↦ hreaches ?_
        subst heq
        rw [hkw] at hv
        obtain rfl := Option.some.inj hv
        exact .refl
      · exact absurd hback hreaches
  next => cases h

end Program

end PluginSurface
