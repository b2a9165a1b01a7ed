import Mathlib.Data.List.Nodup
import Mathlib.Data.List.Pairwise
import PluginSurface.Proofs.Syntax.Numbering

/-!
# Statements inside others

Where all statements of a text have numbers of their own, each one has a single place: the
outermost ones stand inside nothing, and a statement is a child of one other at most.
-/

namespace PluginSurface

namespace Statement

theorem sizeOf_body_lt {body : Option (List Statement)} {s : Statement} (h : s ∈ body.getD []) :
    sizeOf s < sizeOf body := by
  cases body with
  | none => simp at h
  | some body =>
      have hlt := List.sizeOf_lt_of_mem (show s ∈ body from h)
      simp only [Option.some.sizeOf_spec]
      omega

theorem sizeOf_member_lt {m : ClassMember} {s : Statement} (h : s ∈ m.body) :
    sizeOf s < sizeOf m := by
  obtain ⟨modifiers, kind, span⟩ := m
  have hkind : sizeOf s < sizeOf kind := by
    cases kind with
    | constructor params body | method name optional signature body | getter name type body
    | setter name param body =>
        have hlt := sizeOf_body_lt h
        simp
        omega
    | staticBlock body =>
        have hlt := List.sizeOf_lt_of_mem (show s ∈ body from h)
        simp
        omega
    | property | index => simp [ClassMember.body] at h
  simp
  omega

theorem sizeOf_child_lt {c s : Statement} (h : c ∈ s.children) : sizeOf c < sizeOf s := by
  obtain ⟨id, modifiers, decl, span⟩ := s
  have hdecl : sizeOf c < sizeOf decl := by
    cases decl with
    | classDecl d =>
        obtain ⟨m, hm, hc⟩ := List.mem_flatMap.mp h
        have hmember := sizeOf_member_lt hc
        have hmembers := List.sizeOf_lt_of_mem hm
        obtain ⟨_, _, _, _, members⟩ := d
        simp
        dsimp only at hmembers
        omega
    | function name signature body | moduleDecl name body =>
        have hlt := sizeOf_body_lt h
        simp
        omega
    | block body =>
        have hlt := List.sizeOf_lt_of_mem (show c ∈ body from h)
        simp
        omega
    | _ => simp [children] at h
  simp
  omega

/-- What holds of a statement whenever it holds of its children holds of all statements. -/
theorem children_induction {P : Statement → Prop} (h : ∀ s, (∀ c ∈ s.children, P c) → P s)
    (s : Statement) : P s :=
  h s fun c _hc ↦ children_induction h c
termination_by sizeOf s
decreasing_by exact sizeOf_child_lt _hc

/-- One statement stands inside another: it is a child of it or stands inside one. -/
inductive Inside (t : Statement) : Statement → Prop
  | child {s : Statement} (h : t ∈ s.children) : Inside t s
  | deeper {s c : Statement} (hc : c ∈ s.children) (h : Inside t c) : Inside t s

theorem Inside.trans {t s r : Statement} (hts : t.Inside s) (hsr : s.Inside r) : t.Inside r := by
  induction hsr with
  | child h => exact .deeper h hts
  | deeper hc _ ih => exact .deeper hc ih

theorem self_mem_subtree (s : Statement) : s ∈ s.subtree := by
  rw [subtree_eq]
  exact List.mem_cons_self

theorem mem_subtree_iff {t s : Statement} : t ∈ s.subtree ↔ t = s ∨ t.Inside s := by
  induction s using children_induction with
  | h s ih =>
      rw [subtree_eq, List.mem_cons, List.mem_flatMap]
      refine or_congr_right ⟨?_, ?_⟩
      · rintro ⟨c, hc, ht⟩
        rcases (ih c hc).mp ht with rfl | ht
        · exact .child hc
        · exact .deeper hc ht
      · intro h
        cases h with
        | child h => exact ⟨t, h, self_mem_subtree t⟩
        | deeper hc h => exact ⟨_, hc, (ih _ hc).mpr (.inr h)⟩

theorem Inside.exists_child {t s : Statement} (h : t.Inside s) :
    ∃ c ∈ s.children, t ∈ c.subtree := by
  cases h with
  | child h => exact ⟨t, h, self_mem_subtree t⟩
  | deeper hc h => exact ⟨_, hc, mem_subtree_iff.mpr (.inr h)⟩

theorem mem_subtree_trans {t s r : Statement} (hts : t ∈ s.subtree) (hsr : s ∈ r.subtree) :
    t ∈ r.subtree := by
  rcases mem_subtree_iff.mp hts with rfl | hts
  · exact hsr
  rcases mem_subtree_iff.mp hsr with rfl | hsr
  · exact mem_subtree_iff.mpr (.inr hts)
  · exact mem_subtree_iff.mpr (.inr (hts.trans hsr))

/-! ## Places -/

section

variable {body : List Statement} (hbody : (bodyNumbers body).Nodup)

include hbody

theorem nodup_numbers_of_mem {s : Statement} (hs : s ∈ body) : s.numbers.Nodup :=
  (List.nodup_flatMap.mp hbody).1 s hs

/-- The trees of two statements of a body have nothing in common. -/
theorem eq_of_mem_subtree {r r' t : Statement} (hr : r ∈ body) (hr' : r' ∈ body)
    (ht : t ∈ r.subtree) (ht' : t ∈ r'.subtree) : r = r' := by
  by_contra hne
  have hsymm : Std.Symm (Function.onFun List.Disjoint numbers) :=
    ⟨fun _ _ h _ ha hb ↦ h hb ha⟩
  have hdisjoint := (List.nodup_flatMap.mp hbody).2.forall hr hr' hne
  exact hdisjoint (List.mem_map_of_mem ht) (List.mem_map_of_mem ht')

end

theorem nodup_children {s : Statement} (hs : s.numbers.Nodup) :
    (bodyNumbers s.children).Nodup := by
  rw [numbers_eq] at hs
  exact hs.of_cons

theorem not_inside_self {s : Statement} (hs : s.numbers.Nodup) : ¬s.Inside s := by
  intro h
  obtain ⟨c, hc, hmem⟩ := h.exists_child
  rw [numbers_eq, List.nodup_cons] at hs
  exact hs.1 (List.mem_flatMap.mpr ⟨c, hc, List.mem_map_of_mem hmem⟩)

theorem parent_unique_of_mem_subtree {r a b c : Statement} (hr : r.numbers.Nodup)
    (ha : a ∈ r.subtree) (hb : b ∈ r.subtree) (hca : c ∈ a.children)
    (hcb : c ∈ b.children) : a = b := by
  induction r using children_induction with
  | h r ih =>
      have hchildren := nodup_children hr
      -- A child of `r` is no child of a statement further in, for it would stand inside itself.
      have houter {d : Statement} (hd : d.Inside r) (hcr : c ∈ r.children)
          (hcd : c ∈ d.children) : False := by
        obtain ⟨e, he, hde⟩ := hd.exists_child
        have hce : c ∈ e.subtree :=
          mem_subtree_trans (mem_subtree_iff.mpr (.inr (.child hcd))) hde
        obtain rfl := eq_of_mem_subtree hchildren hcr he (self_mem_subtree c) hce
        refine not_inside_self (nodup_numbers_of_mem hchildren hcr) ?_
        rcases mem_subtree_iff.mp hde with rfl | hde
        · exact .child hcd
        · exact (Inside.child hcd).trans hde
      rcases mem_subtree_iff.mp ha with rfl | ha'
      · rcases mem_subtree_iff.mp hb with rfl | hb'
        · rfl
        · exact (houter hb' hca hcb).elim
      rcases mem_subtree_iff.mp hb with rfl | hb'
      · exact (houter ha' hcb hca).elim
      obtain ⟨d, hd, had⟩ := ha'.exists_child
      obtain ⟨e, he, hbe⟩ := hb'.exists_child
      have hcd := mem_subtree_trans (mem_subtree_iff.mpr (.inr (.child hca))) had
      have hce := mem_subtree_trans (mem_subtree_iff.mpr (.inr (.child hcb))) hbe
      obtain rfl := eq_of_mem_subtree hchildren hd he hcd hce
      exact ih d hd (nodup_numbers_of_mem hchildren hd) had hbe

end Statement

/-! ## Places in a source text -/

namespace SourceFile

open Statement

theorem mem_allStatements {f : SourceFile} {s : Statement} :
    s ∈ f.allStatements ↔ ∃ r ∈ f.statements, s ∈ r.subtree := List.mem_flatMap

theorem mem_allStatements_of_mem_subtree {f : SourceFile} {s t : Statement}
    (hs : s ∈ f.allStatements) (ht : t ∈ s.subtree) : t ∈ f.allStatements := by
  obtain ⟨r, hr, hs⟩ := mem_allStatements.mp hs
  exact mem_allStatements.mpr ⟨r, hr, mem_subtree_trans ht hs⟩

theorem mem_allStatements_of_mem_children {f : SourceFile} {s c : Statement}
    (hs : s ∈ f.allStatements) (hc : c ∈ s.children) : c ∈ f.allStatements :=
  mem_allStatements_of_mem_subtree hs (mem_subtree_iff.mpr (.inr (.child hc)))

theorem mem_allStatements_of_mem_statements {f : SourceFile} {s : Statement}
    (hs : s ∈ f.statements) : s ∈ f.allStatements :=
  mem_allStatements.mpr ⟨s, hs, self_mem_subtree s⟩

section

variable {f : SourceFile} (hf : (f.allStatements.map Statement.id).Nodup)

include hf

theorem nodup_statements : (bodyNumbers f.statements).Nodup := by
  rwa [allStatements, List.map_flatMap] at hf

theorem eq_of_id_eq {s t : Statement} (hs : s ∈ f.allStatements) (ht : t ∈ f.allStatements)
    (hid : s.id = t.id) : s = t :=
  List.inj_on_of_nodup_map hf hs ht hid

theorem statement?_eq_some {s : Statement} (hs : s ∈ f.allStatements) :
    f.statement? s.id = some s := by
  have hsome : (f.statement? s.id).isSome := List.find?_isSome.mpr ⟨s, hs, by simp⟩
  obtain ⟨t, ht⟩ := Option.isSome_iff_exists.mp hsome
  rw [ht]
  unfold statement? at ht
  have hid := beq_iff_eq.mp (List.find?_some (p := fun t : Statement ↦ t.id == s.id) ht)
  rw [eq_of_id_eq hf (List.mem_of_find?_eq_some ht) hs hid]

theorem not_inside_of_mem_statements {r a : Statement} (hr : r ∈ f.statements)
    (ha : a ∈ f.allStatements) : ¬r.Inside a := by
  intro h
  obtain ⟨r', hr', har'⟩ := mem_allStatements.mp ha
  have hbody := nodup_statements hf
  have hrr' := mem_subtree_trans (mem_subtree_iff.mpr (.inr h)) har'
  obtain rfl := eq_of_mem_subtree hbody hr hr' (self_mem_subtree r) hrr'
  refine not_inside_self (nodup_numbers_of_mem hbody hr) ?_
  rcases mem_subtree_iff.mp har' with rfl | har'
  · exact h
  · exact h.trans har'

theorem not_mem_statements_of_mem_children {s c : Statement} (hs : s ∈ f.allStatements)
    (hc : c ∈ s.children) : c ∉ f.statements :=
  fun h ↦ not_inside_of_mem_statements hf h hs (.child hc)

theorem parent_unique {a b c : Statement} (ha : a ∈ f.allStatements) (hb : b ∈ f.allStatements)
    (hca : c ∈ a.children) (hcb : c ∈ b.children) : a = b := by
  obtain ⟨r, hr, har⟩ := mem_allStatements.mp ha
  obtain ⟨r', hr', hbr'⟩ := mem_allStatements.mp hb
  have hbody := nodup_statements hf
  have hcr := mem_subtree_trans (mem_subtree_iff.mpr (.inr (.child hca))) har
  have hcr' := mem_subtree_trans (mem_subtree_iff.mpr (.inr (.child hcb))) hbr'
  obtain rfl := eq_of_mem_subtree hbody hr hr' hcr hcr'
  exact parent_unique_of_mem_subtree (nodup_numbers_of_mem hbody hr) har hbr' hca hcb

/-- A child of a statement stands inside this one and what it stands inside, and inside nothing
else. -/
theorem child_inside_iff {s c a : Statement} (hs : s ∈ f.allStatements) (hc : c ∈ s.children)
    (ha : a ∈ f.allStatements) : c.Inside a ↔ a = s ∨ s.Inside a := by
  constructor
  · intro h
    induction h with
    | child h => exact .inl (parent_unique hf ha hs h hc)
    | deeper hd _ ih =>
        rcases ih (mem_allStatements_of_mem_children ha hd) with rfl | h
        · exact .inr (.child hd)
        · exact .inr (.deeper hd h)
  · rintro (rfl | h)
    · exact .child hc
    · exact (Inside.child hc).trans h

end

end SourceFile

end PluginSurface
