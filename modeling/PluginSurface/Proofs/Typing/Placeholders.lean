import Mathlib.Data.List.SplitBy
import PluginSurface.Proofs.Typing.Alike
import PluginSurface.Text.Identifier

/-!
# Placeholders of templates

A placeholder begins with `$\x7b` and ends with the next closing brace. Resolving a template changes
the placeholders one by one and keeps everything between them.
-/

namespace PluginSurface

namespace Template

/-- The text of a template with its placeholders changed. The second argument is the text of the
placeholder that is being read, in reverse. -/
def mapPlaceholders (f : List Char → List Char) : Option (List Char) → List Char → List Char
  | none, [] => []
  | none, '$' :: '\x7b' :: rest => '$' :: '\x7b' :: mapPlaceholders f (some []) rest
  | none, c :: rest => c :: mapPlaceholders f none rest
  | some inner, [] => inner.reverse
  | some inner, c :: rest =>
    if c = '\x7d' then f inner.reverse ++ c :: mapPlaceholders f none rest
    else mapPlaceholders f (some (c :: inner)) rest

/-- The texts in the placeholders. -/
def placeholders : Option (List Char) → List Char → List (List Char)
  | none, '$' :: '\x7b' :: rest => placeholders (some []) rest
  | none, _ :: rest => placeholders none rest
  | some inner, c :: rest =>
    if c = '\x7d' then inner.reverse :: placeholders none rest
    else placeholders (some (c :: inner)) rest
  | _, [] => []

theorem templateText_eq (env : TypeEnv) (inner : Option (List Char)) (text : List Char) :
    env.templateText inner text = mapPlaceholders env.placeholder inner text := by
  fun_induction mapPlaceholders env.placeholder inner text with
  | case1 | case4 => rw [TypeEnv.templateText]
  | case2 rest ih => rw [TypeEnv.templateText, ih]
  | case3 c rest hplain ih =>
      rw [TypeEnv.templateText, ih]
      exact hplain
  | case5 inner rest ih => rw [TypeEnv.templateText, if_pos rfl, ih]
  | case6 inner c rest hc ih => rw [TypeEnv.templateText, if_neg hc, ih]

section

variable {f g h : List Char → List Char}

theorem mapPlaceholders_open {xs : List Char} (hxs : '\x7d' ∉ xs) (inner rest : List Char) :
    mapPlaceholders f (some inner) (xs ++ rest) =
      mapPlaceholders f (some (xs.reverse ++ inner)) rest := by
  induction xs generalizing inner with
  | nil => rfl
  | cons x xs ih =>
      rw [List.mem_cons, not_or] at hxs
      rw [List.cons_append, mapPlaceholders, if_neg (Ne.symm hxs.1), ih hxs.2]
      simp

/-- Outside of placeholders, the first character stays. -/
theorem head?_mapPlaceholders (text : List Char) :
    (mapPlaceholders f none text).head? = text.head? := by
  match text with
  | [] => rfl
  | c :: rest =>
    rw [mapPlaceholders.eq_def]
    split <;> simp_all

theorem mapPlaceholders_cons {c : Char} {rest : List Char}
    (hplain : ∀ more, c = '$' → rest = '\x7b' :: more → False) :
    mapPlaceholders f none (c :: rest) = c :: mapPlaceholders f none rest := by
  rw [mapPlaceholders]
  exact hplain

/-- Changing placeholders in two steps, the first of which closes none of them. -/
theorem mapPlaceholders_comp {text : List Char} {inner : Option (List Char)}
    (hinner : ∀ xs ∈ inner, '\x7d' ∉ xs)
    (hcomp : ∀ xs ∈ placeholders inner text, f xs = h (g xs) ∧ '\x7d' ∉ g xs) :
    mapPlaceholders h (inner.map fun _ ↦ []) (mapPlaceholders g inner text) =
      mapPlaceholders f inner text := by
  fun_induction mapPlaceholders g inner text with
  | case1 => rfl
  | case2 rest ih =>
      rw [placeholders] at hcomp
      rw [Option.map_none, mapPlaceholders, mapPlaceholders]
      exact congrArg _ (congrArg _ (ih (by simp) hcomp))
  | case3 c rest hplain ih =>
      rw [placeholders] at hcomp
      · rw [Option.map_none, mapPlaceholders_cons hplain, mapPlaceholders_cons]
        · exact congrArg _ (ih (by simp) hcomp)
        · intro more hc hmore
          have hhead := head?_mapPlaceholders (f := g) rest
          rw [hmore] at hhead
          obtain ⟨more, rfl⟩ := List.head?_eq_some_iff.mp hhead.symm
          exact hplain more hc rfl
      · exact hplain
  | case4 inner =>
      have hopen := @mapPlaceholders_open h inner.reverse (by simpa using hinner inner rfl) [] []
      rw [List.append_nil] at hopen
      rw [Option.map_some, hopen, mapPlaceholders, mapPlaceholders]
      simp
  | case5 inner rest ih =>
      rw [placeholders, if_pos rfl, List.forall_mem_cons] at hcomp
      obtain ⟨⟨hf, hclosed⟩, hrest⟩ := hcomp
      rw [Option.map_some, mapPlaceholders_open hclosed, mapPlaceholders, if_pos rfl,
        mapPlaceholders, if_pos rfl, hf]
      simpa using ih (by simp) hrest
  | case6 inner c rest hc ih =>
      rw [placeholders, if_neg hc] at hcomp
      rw [Option.map_some, mapPlaceholders, if_neg hc]
      refine ih ?_ hcomp
      simpa [Ne.symm hc] using hinner inner rfl

end

theorem not_mem_placeholders {text : List Char} {inner : Option (List Char)}
    (hinner : ∀ xs ∈ inner, '\x7d' ∉ xs) :
    ∀ xs ∈ placeholders inner text, '\x7d' ∉ xs := by
  fun_induction placeholders inner text with
  | case1 rest ih => exact ih (by simp)
  | case2 c rest hplain ih => exact ih (by simp)
  | case3 inner rest ih =>
      exact List.forall_mem_cons.mpr ⟨by simpa using hinner inner rfl, ih (by simp)⟩
  | case4 inner c rest hc ih => exact ih (by simpa [Ne.symm hc] using hinner inner rfl)
  | case5 => simp

/-! ## Putting in a word for a name -/

/-- The names in a text, and what stands between them. -/
def pieces (text : List Char) : List (List Char) :=
  text.splitBy fun a b ↦ Text.isNamePart a == Text.isNamePart b

/-- A placeholder in which a word is put in for a name: all of it if it is the name and nothing
else, and otherwise each place in which the name stands by itself. -/
def substPlaceholder (name word inner : List Char) : List Char :=
  if Text.trimBlank inner = name then word
  else ((pieces inner).map fun piece ↦ if piece = name then word else piece).flatten

/-- A template with a word put in for a name in its placeholders. -/
def subst (name word raw : String) : String :=
  String.ofList (mapPlaceholders (substPlaceholder name.toList word.toList) none raw.toList)

/-- Each placeholder of the template is the name or does not have the name in it. -/
def Reached (name raw : String) : Prop :=
  ∀ inner ∈ placeholders none raw.toList,
    Text.trimBlank inner = name.toList ∨ name.toList ∉ pieces inner

theorem substPlaceholder_of_not_mem {name inner : List Char} (htrim : Text.trimBlank inner ≠ name)
    (hname : name ∉ pieces inner) (word : List Char) :
    substPlaceholder name word inner = inner := by
  rw [substPlaceholder, if_neg htrim]
  have hmap : (pieces inner).map (fun piece ↦ if piece = name then word else piece) =
      pieces inner := by
    conv_rhs => rw [← List.map_id (pieces inner)]
    exact List.map_congr_left fun piece hpiece ↦ if_neg fun heq : piece = name ↦
      hname (heq ▸ hpiece)
  rw [hmap]
  exact List.flatten_splitBy _ _

end Template

namespace TypeEnv

/-- The second environment leaves out a name that the first one binds to a type. What else is bound
stands for itself. -/
structure Instantiates (name : String) (t : Ty) (env env' : TypeEnv) : Prop where
  file : env'.file = env.file
  scope : env'.scope = env.scope
  bound? : ∀ other, env.bound? other = if other = name then some t else env'.bound? other
  params : ∀ other u, env'.bound? other = some u → u = .param other

theorem bound?_bindNames (env : TypeEnv) (names : List String) (name : String) :
    (env.bindNames names).bound? name =
      if name ∈ names then some (.param name) else env.bound? name := by
  unfold bindNames
  induction names generalizing env with
  | nil => simp
  | cons first rest ih =>
      rw [List.foldl_cons, ih]
      by_cases hrest : name ∈ rest
      · simp [hrest]
      · by_cases hfirst : name = first
        · subst hfirst
          simp [hrest, TypeEnv.bound?, bind]
        · simp [hrest, hfirst, TypeEnv.bound?, bind, List.lookup_cons, beq_false_of_ne hfirst]

namespace Instantiates

variable {name : String} {t : Ty} {env env' : TypeEnv} (h : Instantiates name t env env')

include h

theorem bindNames {names : List String} (hnames : name ∉ names) :
    Instantiates name t (env.bindNames names) (env'.bindNames names) where
  file := by rw [Typing.file_bindNames, Typing.file_bindNames, h.file]
  scope := by rw [Typing.scope_bindNames, Typing.scope_bindNames, h.scope]
  bound? other := by
    rw [bound?_bindNames, bound?_bindNames, h.bound?]
    by_cases hother : other = name
    · simp [hother, hnames]
    · simp [hother]
  params other u hu := by
    rw [bound?_bindNames] at hu
    split at hu
    · exact (Option.some.inj hu).symm
    · exact h.params other u hu

theorem placeholder_of_ne {inner : List Char} (hinner : Text.trimBlank inner ≠ name.toList) :
    env.placeholder inner = env'.placeholder inner := by
  have hne : String.ofList (Text.trimBlank inner) ≠ name := by
    rintro rfl
    exact hinner (by simp)
  unfold placeholder
  rw [h.bound?, if_neg hne]

omit h in
theorem placeholder_eq_self (hparams : ∀ other u, env'.bound? other = some u → u = .param other)
    {inner : List Char} (hinner : Text.trimBlank inner = inner) :
    env'.placeholder inner = inner := by
  unfold placeholder
  rw [hinner]
  split
  next u hu => simp [hparams _ u hu, Ty.render]
  next => rfl

/-- Where a name is bound to what a word stands for, templates resolve as with the word put in. -/
theorem template_subst {word : String} (hword : t.render = word)
    (htrim : Text.trimBlank word.toList = word.toList) (hclosed : '\x7d' ∉ word.toList)
    {raw : String} (hraw : Template.Reached name raw) :
    env.template raw = env'.template (Template.subst name word raw) := by
  unfold template Template.subst
  rw [Template.templateText_eq, Template.templateText_eq, String.toList_ofList]
  have houtside : ∀ xs ∈ (none : Option (List Char)), '\x7d' ∉ xs := fun _ h ↦ nomatch h
  refine congrArg String.ofList (Template.mapPlaceholders_comp houtside ?_).symm
  intro inner hinner
  have hopen := Template.not_mem_placeholders houtside inner hinner
  by_cases hname : Text.trimBlank inner = name.toList
  · rw [Template.substPlaceholder, if_pos hname, placeholder_eq_self h.params htrim]
    refine ⟨?_, hclosed⟩
    unfold placeholder
    rw [hname, String.ofList_toList, h.bound?, if_pos rfl, ← hword]
  · rw [Template.substPlaceholder_of_not_mem hname ((hraw inner hinner).resolve_left hname)]
    exact ⟨h.placeholder_of_ne hname, hopen⟩

end Instantiates

end TypeEnv

end PluginSurface
