import Mathlib.Data.List.Forall2
import Mathlib.Data.List.Nodup
import PluginSurface.Comparison

/-!
# The rows of a comparison

A comparison looks each plugin of the reference surface up in the candidate surface and writes one
row for it. So what it says about a plugin depends on nothing but the first plugin of that name in
the candidate surface. Main statement: `Surface.rows_compare`.
-/

namespace PluginSurface

namespace Shape

def isStructured : Option Shape → Bool
  | some (structured _) => true
  | _ => false

/-- Equal shapes are present together. -/
theorem eq_none_iff_of_equal {mode : ShapeEquality} {a b : Option Shape}
    (h : equal mode a b = true) : a = none ↔ b = none := by
  match a, b with
  | none, none => simp
  | some _, some _ => simp
  | none, some _ => simp [equal] at h
  | some shape, none => cases shape <;> simp [equal] at h

/-- By identity, the same shapes are equal as by structure, except structured ones. -/
theorem equal_identity (a b : Option Shape) :
    equal .identity a b =
      (equal .structural a b && !(isStructured a && isStructured b)) := by
  match a, b with
  | none, none => rfl
  | some (.scalar _), some (.scalar _) => simp [equal, isStructured]
  | some (.structured _), some (.structured _) => simp [equal, isStructured]
  | some (.scalar _), some (.structured _) | some (.structured _), some (.scalar _) => rfl
  | none, some shape | some shape, none => cases shape <;> rfl

end Shape

namespace Surface

variable {s s' : Surface}

/-! ## Looking plugins up -/

theorem find?_eq_none_iff {name : String} :
    s.find? name = none ↔ ∀ q ∈ s.plugins, q.name ≠ name := by
  simp [find?, List.find?_eq_none]

/-- The surface with plugins behind its own. -/
def append (s : Surface) (added : List Plugin) : Surface :=
  { s with plugins := s.plugins ++ added }

theorem find?_append (s : Surface) (added : List Plugin) (name : String) :
    (s.append added).find? name = (s.find? name <|> added.find? (·.name == name)) := by
  rw [find?, append, List.find?_append, Option.orElse_eq_orElse, Option.orElse_eq_or]
  rfl

theorem mem_of_find? {name : String} {q : Plugin} (h : s.find? name = some q) :
    q ∈ s.plugins ∧ q.name = name := by
  unfold find? at h
  exact ⟨List.mem_of_find?_eq_some h, by simpa using List.find?_some h⟩

/-- Where names are distinct, a plugin is found under its name. -/
theorem find?_eq_some_iff (hs : (s.plugins.map Plugin.name).Nodup) {name : String} {q : Plugin} :
    s.find? name = some q ↔ q ∈ s.plugins ∧ q.name = name := by
  refine ⟨mem_of_find?, ?_⟩
  rintro ⟨hq, rfl⟩
  cases hfound : s.find? q.name with
  | none => exact absurd rfl (find?_eq_none_iff.mp hfound q hq)
  | some other =>
      obtain ⟨hother, hname⟩ := mem_of_find? hfound
      exact congrArg some (List.inj_on_of_nodup_map hs hother hq hname)

theorem find?_of_perm (hs : (s.plugins.map Plugin.name).Nodup) (h : s'.plugins.Perm s.plugins)
    (name : String) : s'.find? name = s.find? name := by
  have hs' : (s'.plugins.map Plugin.name).Nodup := ((h.map _).nodup_iff).mpr hs
  refine Option.ext fun q ↦ ?_
  rw [find?_eq_some_iff hs', find?_eq_some_iff hs, h.mem_iff]

/-! ## Verdicts -/

variable {mode : ShapeEquality} {p : Plugin}

theorem verdict_eq_missing_iff :
    s.verdict mode p = .missing ↔ ∀ q ∈ s.plugins, q.name ≠ p.name := by
  rw [← find?_eq_none_iff, verdict]
  cases hfound : s.find? p.name with
  | none => simp
  | some q =>
      dsimp only
      split <;> simp

theorem verdict_eq_implemented_iff :
    s.verdict mode p = .implemented ↔
      ∃ q, s.find? p.name = some q ∧ Shape.equal mode p.shape q.shape = true := by
  rw [verdict]
  cases s.find? p.name with
  | none => simp
  | some q =>
      dsimp only
      split <;> simp_all

/-- Plugins behind the others count only where there is none of that name before. -/
theorem verdict_append (s : Surface) (added : List Plugin) (mode : ShapeEquality) (p : Plugin) :
    (s.append added).verdict mode p =
      if s.verdict mode p = .missing then verdict { s with plugins := added } mode p
      else s.verdict mode p := by
  cases hfound : s.find? p.name with
  | none =>
      have hmissing : s.verdict mode p = .missing := by simp only [verdict, hfound]
      rw [if_pos hmissing, verdict, find?_append, hfound]
      rfl
  | some q =>
      have hpresent : s.verdict mode p ≠ .missing := by
        rw [Ne, verdict_eq_missing_iff, ← find?_eq_none_iff, hfound]
        exact Option.some_ne_none q
      rw [if_neg hpresent, verdict, find?_append, hfound, verdict, hfound]
      rfl

theorem verdict_identity (s : Surface) (p : Plugin) :
    s.verdict .identity p =
      if s.verdict .structural p = .implemented ∧ Shape.isStructured p.shape = true ∧
          Shape.isStructured ((s.find? p.name).bind Plugin.shape) = true then .partly
      else s.verdict .structural p := by
  cases hfound : s.find? p.name with
  | none => simp only [verdict, hfound, reduceCtorEq, false_and, if_false]
  | some q =>
      simp only [verdict, hfound, Shape.equal_identity, Option.bind_some]
      cases Shape.equal .structural p.shape q.shape <;> cases Shape.isStructured p.shape <;>
        cases Shape.isStructured q.shape <;> simp

end Surface

/-! ## Summaries -/

namespace Summary

theorem foldl_add (rows : List Row) (s : Summary) :
    rows.foldl add s = ⟨s.implemented + rows.countP (·.verdict = .implemented),
      s.partly + rows.countP (·.verdict = .partly),
      s.missing + rows.countP (·.verdict = .missing)⟩ := by
  induction rows generalizing s with
  | nil => rfl
  | cons r rest ih =>
      rw [List.foldl_cons, ih]
      cases hr : r.verdict <;> simp [add, hr] <;> omega

/-- A summary counts the rows of each verdict. -/
theorem ofRows_eq (rows : List Row) :
    ofRows rows = ⟨rows.countP (·.verdict = .implemented), rows.countP (·.verdict = .partly),
      rows.countP (·.verdict = .missing)⟩ := by
  simp [ofRows, foldl_add]

theorem total_ofRows (rows : List Row) : (ofRows rows).total = rows.length := by
  rw [ofRows_eq, total]
  induction rows with
  | nil => rfl
  | cons r rest ih =>
      cases hr : r.verdict <;> simp [hr] <;> dsimp only at ih <;> omega

end Summary

/-! ## Rows -/

/-- What becomes of a row when plugins are appended to the candidate surface: it changes exactly if
it says that the plugin is missing and one of that name is appended. -/
structure Row.Appended (added : List Plugin) (r r' : Row) : Prop where
  plugin : r'.plugin = r.plugin
  found : r.verdict ≠ .missing → r' = r
  missing : r.verdict = .missing → (r' ≠ r ↔ ∃ q ∈ added, q.name = r.plugin)

/-- What becomes of the row of a plugin when shapes are compared by identity: it changes exactly if
it says that the plugin is implemented and both shapes are structured. -/
def Row.byIdentity (candidate : Surface) (p : Plugin) (r : Row) : Row :=
  if r.verdict = .implemented ∧ Shape.isStructured p.shape = true ∧
      Shape.isStructured ((candidate.find? p.name).bind Plugin.shape) = true then
    { r with verdict := .partly }
  else r

namespace Surface

variable {reference candidate : Surface} {mode : ShapeEquality}

theorem compare_congr {other : Surface} {mode' : ShapeEquality}
    (h : ∀ p ∈ reference.plugins, other.verdict mode' p = candidate.verdict mode p) :
    compare reference other mode' = compare reference candidate mode :=
  List.map_congr_left fun p hp ↦ congrArg (Row.mk p.name) (h p hp)

theorem forall₂_compare {R : Plugin → Row → Prop}
    (h : ∀ p ∈ reference.plugins, R p ⟨p.name, candidate.verdict mode p⟩) :
    List.Forall₂ R reference.plugins (compare reference candidate mode) := by
  rw [compare, List.forall₂_map_right_iff, List.forall₂_same]
  exact h

theorem appended_compare (reference candidate : Surface) (mode : ShapeEquality)
    (added : List Plugin) :
    List.Forall₂ (Row.Appended added) (compare reference candidate mode)
      (compare reference (candidate.append added) mode) := by
  rw [compare, compare, List.forall₂_map_left_iff, List.forall₂_map_right_iff,
    List.forall₂_same]
  intro p _
  have happend := verdict_append candidate added mode p
  refine ⟨rfl, fun hfound ↦ ?_, fun hmissing ↦ ?_⟩
  · rw [happend, if_neg hfound]
  · dsimp only at hmissing ⊢
    rw [if_pos hmissing] at happend
    rw [Ne, Row.mk.injEq, happend, hmissing, verdict_eq_missing_iff]
    simp

theorem compare_identity (reference candidate : Surface) :
    compare reference candidate .identity =
      List.zipWith (Row.byIdentity candidate) reference.plugins
        (compare reference candidate .structural) := by
  rw [compare, compare, List.zipWith_map_right, List.zipWith_self]
  refine List.map_congr_left fun p _ ↦ ?_
  rw [verdict_identity, Row.byIdentity]
  split <;> rfl

/-- A comparison has one row for each plugin of the reference surface, with its name and in its
place. The row says missing if and only if no candidate has the name, and implemented only if the
shapes that are compared are both there or both absent. Plugins that are appended to the candidates
change the rows that miss them and no others; the order of candidates with distinct names does not
matter; and by identity, rows of structured shapes that are implemented become partly implemented
and no others change. A summary counts the rows of each verdict, and each row once. -/
theorem rows_compare (reference candidate : Surface) (mode : ShapeEquality) :
    (compare reference candidate mode).map Row.plugin = reference.plugins.map Plugin.name ∧
    (∀ r ∈ compare reference candidate mode,
      r.verdict = .missing ↔ ∀ q ∈ candidate.plugins, q.name ≠ r.plugin) ∧
    List.Forall₂ (fun p r ↦ r.verdict = .implemented →
        ∃ q, candidate.find? p.name = some q ∧ (p.shape = none ↔ q.shape = none))
      reference.plugins (compare reference candidate mode) ∧
    (∀ added, List.Forall₂ (Row.Appended added) (compare reference candidate mode)
      (compare reference (candidate.append added) mode)) ∧
    (∀ other : Surface, (candidate.plugins.map Plugin.name).Nodup →
      other.plugins.Perm candidate.plugins →
      compare reference other mode = compare reference candidate mode) ∧
    compare reference candidate .identity =
      List.zipWith (Row.byIdentity candidate) reference.plugins
        (compare reference candidate .structural) ∧
    ∀ rows : List Row, (Summary.ofRows rows).total = rows.length ∧
      Summary.ofRows rows = ⟨rows.countP (·.verdict = .implemented),
        rows.countP (·.verdict = .partly), rows.countP (·.verdict = .missing)⟩ := by
  refine ⟨?_, ?_, ?_, appended_compare reference candidate mode, ?_,
    compare_identity reference candidate,
    fun rows ↦ ⟨Summary.total_ofRows rows, Summary.ofRows_eq rows⟩⟩
  · rw [compare, List.map_map]
    rfl
  · intro r hr
    obtain ⟨p, -, rfl⟩ := List.mem_map.mp hr
    exact verdict_eq_missing_iff
  · refine forall₂_compare fun p _ himplemented ↦ ?_
    obtain ⟨q, hq, hequal⟩ := verdict_eq_implemented_iff.mp himplemented
    exact ⟨q, hq, Shape.eq_none_iff_of_equal hequal⟩
  · intro other hdistinct hperm
    refine compare_congr fun p _ ↦ ?_
    rw [verdict, verdict, find?_of_perm hdistinct hperm]

def namedPlugin (name : String) (shape : Option Shape) : Plugin :=
  ⟨⟨name, .classDecl, 0, 0, ⟨⟨"/index.d.ts"⟩, 1⟩⟩, shape⟩

/-- A surface with a repeated name. -/
def wantedSurface : Surface := ⟨⟨"/wanted.d.ts"⟩, "",
  [namedPlugin "BannerPlugin" (some (.structured [⟨"raw", "boolean"⟩, ⟨"test", "RegExp"⟩])),
    namedPlugin "DefinePlugin" none, namedPlugin "BannerPlugin" (some (.scalar "string")),
    namedPlugin "ProvidePlugin" none]⟩

def offeredPlugins : List Plugin :=
  [namedPlugin "BannerPlugin" (some (.structured [⟨"test", "RegExp"⟩, ⟨"raw", "boolean"⟩])),
    namedPlugin "DefinePlugin" none]

theorem rows_compare_repeated :
    let offered : Surface := ⟨⟨"/offered.d.ts"⟩, "", offeredPlugins⟩
    let reversed : Surface := ⟨⟨"/offered.d.ts"⟩, "", offeredPlugins.reverse⟩
    let rows := compare wantedSurface offered .structural
    rows = [⟨"BannerPlugin", .implemented⟩, ⟨"DefinePlugin", .implemented⟩,
        ⟨"BannerPlugin", .partly⟩, ⟨"ProvidePlugin", .missing⟩] ∧
      (∀ q ∈ offered.plugins, q.name ≠ "ProvidePlugin") ∧
      (offered.plugins.map Plugin.name).Nodup ∧ reversed.plugins.Perm offered.plugins ∧
      compare wantedSurface reversed .structural = rows ∧
      compare wantedSurface offered .identity = [⟨"BannerPlugin", .partly⟩,
        ⟨"DefinePlugin", .implemented⟩, ⟨"BannerPlugin", .partly⟩,
        ⟨"ProvidePlugin", .missing⟩] := by
  intro offered reversed rows
  obtain ⟨-, hmissing, -, -, hreordered, hidentity, -⟩ :=
    rows_compare wantedSurface offered .structural
  have hdistinct : (offered.plugins.map Plugin.name).Nodup := by decide
  have hperm : reversed.plugins.Perm offered.plugins := List.reverse_perm _
  have hrow : (⟨"ProvidePlugin", .missing⟩ : Row) ∈ rows := by decide
  refine ⟨by decide, (hmissing _ hrow).mp rfl, hdistinct, hperm,
    hreordered _ hdistinct hperm, ?_⟩
  rw [hidentity]
  decide

end Surface

end PluginSurface
