import PluginSurface.Proofs.Path.Stretches

/-!
# Paths below a directory

A route is a list of stretches that leads from a directory to something below it, and never out of
the directory on its way. Joining, normalizing and going up do to a path below a directory what they
do to its route, wherever the directory is.
-/

namespace PluginSurface

/-- A way from a directory to something in it. -/
@[ext]
structure Route where
  stretches : List (List Char)
  single : ∀ s ∈ stretches, '/' ∉ s
  inside : (Path.depth? 0 stretches).isSome

/-- A directory that is not the root, by the names that lead to it. -/
structure Folder where
  names : List String
  nonempty : names ≠ []
  isName : ∀ n ∈ names, Path.IsName n

namespace Folder

variable (F : Folder)

def parts : List (List Char) := F.names.map String.toList

/-- The path that leads from the root over a directory to something in it. -/
def path (r : Route) : Path := .rooted (F.parts ++ r.stretches)

/-- The path of the directory itself. -/
def top : Path := .rooted F.parts

theorem parts_ne_nil : F.parts ≠ [] := by simpa [parts] using F.nonempty

theorem single_parts : ∀ s ∈ F.parts, '/' ∉ s := by
  rintro s hs
  obtain ⟨n, hn, rfl⟩ := List.mem_map.mp hs
  exact (F.isName n hn).1

theorem getLast?_parts : F.parts.getLast? ≠ some [] := by
  intro hlast
  obtain ⟨n, hn, heq⟩ := List.mem_map.mp (List.mem_of_getLast? hlast)
  exact (F.isName n hn).ne_nil heq

theorem single_append (r : Route) : ∀ s ∈ F.parts ++ r.stretches, '/' ∉ s := fun s hs ↦
  (List.mem_append.mp hs).elim (F.single_parts s) (r.single s)

theorem append_ne_nil (r : Route) : F.parts ++ r.stretches ≠ [] :=
  List.append_ne_nil_of_left_ne_nil F.parts_ne_nil _

theorem components_parts : F.parts.filterMap Path.component? = F.names.map .name := by
  rw [parts, List.filterMap_map, ← List.filterMap_eq_map]
  exact List.filterMap_congr fun n hn ↦ (F.isName n hn).2

theorem components_path (r : Route) : (F.path r).components =
    .root :: F.names.map .name ++ r.stretches.filterMap Path.component? := by
  rw [path, Path.components_rooted (F.append_ne_nil r) (F.single_append r), List.filterMap_append,
    components_parts]
  rfl

end Folder

namespace Route

/-- The route that stays where it is. -/
def here : Route := ⟨[], by simp, rfl⟩

variable (r : Route)

/-- What stays inside where it begins does so behind the route. -/
theorem inside_append {ws : List (List Char)} (h : (Path.depth? 0 ws).isSome) :
    (Path.depth? 0 (r.stretches ++ ws)).isSome := by
  obtain ⟨deep, hdeep⟩ := Option.isSome_iff_exists.mp r.inside
  obtain ⟨more, hmore⟩ := Option.isSome_iff_exists.mp h
  rw [Path.depth?_append, hdeep, Option.bind_some, ← Nat.zero_add deep, Path.depth?_add hmore]
  rfl

/-- The route goes on along a path from where it ends. -/
def join (text : String)
    (h : (Path.depth? 0 (r.stretches ++ Path.stretches text.toList)).isSome) : Route where
  stretches := Path.extend r.stretches (Path.stretches text.toList)
  single _ := Path.not_mem_of_mem_extend r.single
  inside := by rwa [Path.depth?_extend]

theorem depth?_join {text : String}
    (h : (Path.depth? 0 (r.stretches ++ Path.stretches text.toList)).isSome)
    (more : List (List Char)) :
    Path.depth? 0 ((r.join text h).stretches ++ more) =
      Path.depth? 0 (r.stretches ++ Path.stretches text.toList ++ more) := by
  rw [join, Path.depth?_append, Path.depth?_extend, ← Path.depth?_append]

theorem join_ne_nil {text : String}
    (h : (Path.depth? 0 (r.stretches ++ Path.stretches text.toList)).isSome) :
    (r.join text h).stretches ≠ [] :=
  Path.extend_ne_nil _ (Path.stretches_ne_nil _)

/-- The route goes on to a name. -/
def concat (name : String) (h : Path.IsName name) : Route where
  stretches := r.stretches ++ [name.toList]
  single s hs := (List.mem_append.mp hs).elim (r.single s) fun hs ↦
    List.mem_singleton.mp hs ▸ h.1
  inside := r.inside_append (h.stretches ▸ h.isSome_depth?)

/-- The route by names, without dots. -/
def ofNames (names : List String) (h : ∀ n ∈ names, Path.IsName n) : Route where
  stretches := names.map String.toList
  single s hs := by
    obtain ⟨n, hn, rfl⟩ := List.mem_map.mp hs
    exact (h n hn).1
  inside := by rw [Path.depth?_names h]; rfl

/-- The names that the route leads along once its dots are gone. -/
def names : List String := r.stretches.foldl Path.settle []

theorem isName_names : ∀ n ∈ r.names, Path.IsName n :=
  Path.isName_foldl_settle r.single fun _ hn ↦ absurd hn List.not_mem_nil

def settled : Route := ofNames r.names r.isName_names

end Route

namespace Folder

variable (F : Folder)

@[simp] theorem path_here : F.path .here = F.top := by simp [path, top, Route.here]

theorem path_join (r : Route) {text : String} (htext : (⟨text⟩ : Path).isAbsolute = false)
    (h : (Path.depth? 0 (r.stretches ++ Path.stretches text.toList)).isSome) :
    (F.path r).join ⟨text⟩ = F.path (r.join text h) := by
  rw [path, Path.join_rooted (F.append_ne_nil r) (F.single_append r) htext]
  refine congrArg Path.rooted ?_
  change Path.extend (F.parts ++ r.stretches) _ = F.parts ++ Path.extend r.stretches _
  unfold Path.extend
  rcases List.eq_nil_or_concat' r.stretches with hnil | ⟨front, last, hlast⟩
  · rw [hnil, List.append_nil, if_neg F.getLast?_parts]
    rfl
  · rw [hlast, ← List.append_assoc]
    simp only [List.getLast?_concat, List.dropLast_concat]
    split <;> simp

theorem normalize_path (r : Route) : (F.path r).normalize = F.path r.settled := by
  have hne : F.names ++ r.names ≠ [] := List.append_ne_nil_of_left_ne_nil F.nonempty _
  have hnames : ∀ n ∈ F.names ++ r.names, Path.IsName n := fun n hn ↦
    (List.mem_append.mp hn).elim (F.isName n) (r.isName_names n)
  have hkept : Path.normalComponents (F.path r).components =
      .root :: (F.names ++ r.names).map .name := by
    have hroot : Path.keep [] .root = [.root] := rfl
    have hfold := Path.foldl_keep ([.root] ++ F.names.map .name)
      (show (Path.depth? ([] : List String).length r.stretches).isSome from r.inside)
    rw [List.map_nil, List.append_nil] at hfold
    rw [F.components_path, Path.normalComponents_eq, List.foldl_append, List.foldl_cons, hroot,
      Path.foldl_keep_names, hfold, List.map_append]
    rfl
  rw [Path.normalize, hkept, Path.ofComponents_names hne hnames, List.map_append]
  rfl

end Folder

/-! ## Going up -/

namespace Route

variable (r : Route)

/-- A route that ends on the way of this one. -/
def ofPrefix {ws : List (List Char)} (h : ws <+: r.stretches) : Route where
  stretches := ws
  single s hs := r.single s (h.subset hs)
  inside := by
    obtain ⟨more, hmore⟩ := h
    exact Path.isSome_depth?_left (hmore ▸ r.inside)

/-- The routes to the directories that a path goes through on its way up. -/
def above : List Route :=
  (Path.left r.stretches.reverse).attach.map fun ws ↦
    r.ofPrefix (List.reverse_reverse r.stretches ▸ Path.left_prefix ws.2)

theorem above_ne_nil (h : ∃ s ∈ r.stretches, Path.isBlank s = false) : r.above ≠ [] := by
  have hne : Path.left r.stretches.reverse ≠ [] := Path.left_ne_nil (by simpa using h)
  simpa [above] using hne

end Route

namespace Folder

variable (F : Folder)

theorem parents_path (r : Route) :
    (F.path r).parents = r.above.map F.path ++ F.top.parents := by
  have hbase : ∀ s ∈ F.parts.reverse.head?, Path.isBlank s = false := by
    intro s hs
    rw [List.head?_reverse] at hs
    obtain ⟨n, hn, rfl⟩ := List.mem_map.mp (List.mem_of_getLast? hs)
    rw [Path.isBlank, (F.isName n hn).2]
    rfl
  have hparents (r : Route) :
      (F.path r).parents = Path.above true (r.stretches.reverse ++ F.parts.reverse) := by
    unfold Path.parents
    rw [path, Path.isAbsolute_rooted (F.append_ne_nil r),
      Path.stretches_rooted (F.single_append r), ← List.reverse_append]
    rfl
  have htop : F.top.parents = Path.above true F.parts.reverse := by
    rw [← path_here, hparents]
    rfl
  rw [hparents, htop, Path.above_append _ (by simpa using F.parts_ne_nil) hbase, Route.above,
    List.map_map, List.reverse_reverse]
  conv_lhs => rw [← List.attach_map_subtype_val (Path.left r.stretches.reverse), List.map_map]
  rfl

end Folder

end PluginSurface
