import PluginSurface.Ty.Basic

/-!
# Equality of resolved types

Types are compared piece by piece. Main statement: `Ty.beq_iff`, the comparison decides equality.
-/

namespace PluginSurface

mutual

def Ty.beq : Ty → Ty → Bool
  | .primitive p, .primitive q => p == q
  | .literal a, .literal b => a == b
  | .union as, .union bs => Ty.beqAll as bs
  | .intersection as, .intersection bs => Ty.beqAll as bs
  | .array a r, .array b r' => a.beq b && r == r'
  | .tuple as r, .tuple bs r' => TupleItem.beqAll as bs && r == r'
  | .function f, .function g => f.beq g
  | .object o, .object p => o.beq p
  | .reference s n as, .reference s' n' bs => s == s' && n == n' && Ty.beqAll as bs
  | .aliased n as t, .aliased n' bs u => n == n' && Ty.beqAll as bs && t.beq u
  | .param n, .param n' => n == n'
  | .named n as, .named n' bs => n == n' && Ty.beqAll as bs
  | .verbatim s, .verbatim s' => s == s'
  | _, _ => false

def Ty.beqAll : List Ty → List Ty → Bool
  | [], [] => true
  | a :: as, b :: bs => a.beq b && Ty.beqAll as bs
  | _, _ => false

def TupleItem.beq : TupleItem → TupleItem → Bool
  | ⟨l, o, r, t⟩, ⟨l', o', r', t'⟩ => l == l' && o == o' && r == r' && t.beq t'

def TupleItem.beqAll : List TupleItem → List TupleItem → Bool
  | [], [] => true
  | a :: as, b :: bs => a.beq b && TupleItem.beqAll as bs
  | _, _ => false

def ParamTy.beq : ParamTy → ParamTy → Bool
  | ⟨n, o, r, t⟩, ⟨n', o', r', t'⟩ => n == n' && o == o' && r == r' && t.beq t'

def ParamTy.beqAll : List ParamTy → List ParamTy → Bool
  | [], [] => true
  | a :: as, b :: bs => a.beq b && ParamTy.beqAll as bs
  | _, _ => false

def FunctionTy.beq : FunctionTy → FunctionTy → Bool
  | ⟨c, a, ts, ps, r⟩, ⟨c', a', ts', ps', r'⟩ =>
    c == c' && a == a' && ts == ts' && ParamTy.beqAll ps ps' && r.beq r'

def FunctionTy.beqAll : List FunctionTy → List FunctionTy → Bool
  | [], [] => true
  | a :: as, b :: bs => a.beq b && FunctionTy.beqAll as bs
  | _, _ => false

def IndexTy.beq : IndexTy → IndexTy → Bool
  | ⟨n, k, v, r⟩, ⟨n', k', v', r'⟩ => n == n' && k.beq k' && v.beq v' && r == r'

def IndexTy.beqAll : List IndexTy → List IndexTy → Bool
  | [], [] => true
  | a :: as, b :: bs => a.beq b && IndexTy.beqAll as bs
  | _, _ => false

def Property.beq : Property → Property → Bool
  | ⟨n, o, r, m, t⟩, ⟨n', o', r', m', t'⟩ =>
    n == n' && o == o' && r == r' && m == m' && t.beq t'

def Property.beqAll : List Property → List Property → Bool
  | [], [] => true
  | a :: as, b :: bs => a.beq b && Property.beqAll as bs
  | _, _ => false

def ObjectTy.beq : ObjectTy → ObjectTy → Bool
  | ⟨ps, cs, ks, is⟩, ⟨ps', cs', ks', is'⟩ =>
    Property.beqAll ps ps' && FunctionTy.beqAll cs cs' && FunctionTy.beqAll ks ks' &&
      IndexTy.beqAll is is'

end

mutual

theorem Ty.beq_self : (a : Ty) → a.beq a = true
  | .primitive _ | .literal _ | .param _ | .verbatim _ => by simp [Ty.beq]
  | .union as | .intersection as => by simp [Ty.beq, Ty.beqAll_self as]
  | .array a _ => by simp [Ty.beq, a.beq_self]
  | .tuple as _ => by simp [Ty.beq, TupleItem.beqAll_self as]
  | .function f => by simp [Ty.beq, f.beq_self]
  | .object o => by simp [Ty.beq, o.beq_self]
  | .reference _ _ as | .named _ as => by simp [Ty.beq, Ty.beqAll_self as]
  | .aliased _ as t => by simp [Ty.beq, Ty.beqAll_self as, t.beq_self]

theorem Ty.beqAll_self : (as : List Ty) → Ty.beqAll as as = true
  | [] => by simp [Ty.beqAll]
  | a :: as => by simp [Ty.beqAll, a.beq_self, Ty.beqAll_self as]

theorem TupleItem.beq_self : (a : TupleItem) → a.beq a = true
  | ⟨_, _, _, t⟩ => by simp [TupleItem.beq, t.beq_self]

theorem TupleItem.beqAll_self : (as : List TupleItem) → TupleItem.beqAll as as = true
  | [] => by simp [TupleItem.beqAll]
  | a :: as => by simp [TupleItem.beqAll, a.beq_self, TupleItem.beqAll_self as]

theorem ParamTy.beq_self : (a : ParamTy) → a.beq a = true
  | ⟨_, _, _, t⟩ => by simp [ParamTy.beq, t.beq_self]

theorem ParamTy.beqAll_self : (as : List ParamTy) → ParamTy.beqAll as as = true
  | [] => by simp [ParamTy.beqAll]
  | a :: as => by simp [ParamTy.beqAll, a.beq_self, ParamTy.beqAll_self as]

theorem FunctionTy.beq_self : (a : FunctionTy) → a.beq a = true
  | ⟨_, _, _, ps, r⟩ => by simp [FunctionTy.beq, ParamTy.beqAll_self ps, r.beq_self]

theorem FunctionTy.beqAll_self : (as : List FunctionTy) → FunctionTy.beqAll as as = true
  | [] => by simp [FunctionTy.beqAll]
  | a :: as => by simp [FunctionTy.beqAll, a.beq_self, FunctionTy.beqAll_self as]

theorem IndexTy.beq_self : (a : IndexTy) → a.beq a = true
  | ⟨_, k, v, _⟩ => by simp [IndexTy.beq, k.beq_self, v.beq_self]

theorem IndexTy.beqAll_self : (as : List IndexTy) → IndexTy.beqAll as as = true
  | [] => by simp [IndexTy.beqAll]
  | a :: as => by simp [IndexTy.beqAll, a.beq_self, IndexTy.beqAll_self as]

theorem Property.beq_self : (a : Property) → a.beq a = true
  | ⟨_, _, _, _, t⟩ => by simp [Property.beq, t.beq_self]

theorem Property.beqAll_self : (as : List Property) → Property.beqAll as as = true
  | [] => by simp [Property.beqAll]
  | a :: as => by simp [Property.beqAll, a.beq_self, Property.beqAll_self as]

theorem ObjectTy.beq_self : (a : ObjectTy) → a.beq a = true
  | ⟨ps, cs, ks, is⟩ => by
    simp [ObjectTy.beq, Property.beqAll_self ps, FunctionTy.beqAll_self cs,
      FunctionTy.beqAll_self ks, IndexTy.beqAll_self is]

end

mutual

theorem Ty.eq_of_beq : (a b : Ty) → a.beq b = true → a = b
  | .primitive _, b, h | .literal _, b, h | .param _, b, h | .verbatim _, b, h => by
    cases b <;> simp_all [Ty.beq]
  | .union as, b, h | .intersection as, b, h => by
    cases b <;> simp_all [Ty.beq]
    exact Ty.eq_of_beqAll _ _ h
  | .array a _, b, h => by
    cases b <;> simp_all [Ty.beq]
    exact a.eq_of_beq _ h.1
  | .tuple as _, b, h => by
    cases b <;> simp_all [Ty.beq]
    exact TupleItem.eq_of_beqAll _ _ h.1
  | .function f, b, h => by
    cases b <;> simp_all [Ty.beq]
    exact f.eq_of_beq _ h
  | .object o, b, h => by
    cases b <;> simp_all [Ty.beq]
    exact o.eq_of_beq _ h
  | .reference _ _ as, b, h | .named _ as, b, h => by
    cases b <;> simp_all [Ty.beq]
    exact Ty.eq_of_beqAll _ _ h.2
  | .aliased _ as t, b, h => by
    cases b <;> simp_all [Ty.beq]
    exact ⟨Ty.eq_of_beqAll _ _ h.1.2, t.eq_of_beq _ h.2⟩

theorem Ty.eq_of_beqAll : (as bs : List Ty) → Ty.beqAll as bs = true → as = bs
  | [], bs, h => by cases bs <;> simp_all [Ty.beqAll]
  | a :: as, bs, h => by
    cases bs <;> simp_all [Ty.beqAll]
    exact ⟨a.eq_of_beq _ h.1, Ty.eq_of_beqAll _ _ h.2⟩

theorem TupleItem.eq_of_beq : (a b : TupleItem) → a.beq b = true → a = b
  | ⟨_, _, _, t⟩, ⟨_, _, _, u⟩, h => by
    simp_all [TupleItem.beq]
    exact t.eq_of_beq u h.2

theorem TupleItem.eq_of_beqAll :
    (as bs : List TupleItem) → TupleItem.beqAll as bs = true → as = bs
  | [], bs, h => by cases bs <;> simp_all [TupleItem.beqAll]
  | a :: as, bs, h => by
    cases bs <;> simp_all [TupleItem.beqAll]
    exact ⟨a.eq_of_beq _ h.1, TupleItem.eq_of_beqAll _ _ h.2⟩

theorem ParamTy.eq_of_beq : (a b : ParamTy) → a.beq b = true → a = b
  | ⟨_, _, _, t⟩, ⟨_, _, _, u⟩, h => by
    simp_all [ParamTy.beq]
    exact t.eq_of_beq u h.2

theorem ParamTy.eq_of_beqAll : (as bs : List ParamTy) → ParamTy.beqAll as bs = true → as = bs
  | [], bs, h => by cases bs <;> simp_all [ParamTy.beqAll]
  | a :: as, bs, h => by
    cases bs <;> simp_all [ParamTy.beqAll]
    exact ⟨a.eq_of_beq _ h.1, ParamTy.eq_of_beqAll _ _ h.2⟩

theorem FunctionTy.eq_of_beq : (a b : FunctionTy) → a.beq b = true → a = b
  | ⟨_, _, _, ps, r⟩, ⟨_, _, _, ps', r'⟩, h => by
    simp_all [FunctionTy.beq]
    exact ⟨ParamTy.eq_of_beqAll _ _ h.1.2, r.eq_of_beq _ h.2⟩

theorem FunctionTy.eq_of_beqAll :
    (as bs : List FunctionTy) → FunctionTy.beqAll as bs = true → as = bs
  | [], bs, h => by cases bs <;> simp_all [FunctionTy.beqAll]
  | a :: as, bs, h => by
    cases bs <;> simp_all [FunctionTy.beqAll]
    exact ⟨a.eq_of_beq _ h.1, FunctionTy.eq_of_beqAll _ _ h.2⟩

theorem IndexTy.eq_of_beq : (a b : IndexTy) → a.beq b = true → a = b
  | ⟨_, k, v, _⟩, ⟨_, k', v', _⟩, h => by
    simp_all [IndexTy.beq]
    exact ⟨k.eq_of_beq _ h.1.1.2, v.eq_of_beq _ h.1.2⟩

theorem IndexTy.eq_of_beqAll : (as bs : List IndexTy) → IndexTy.beqAll as bs = true → as = bs
  | [], bs, h => by cases bs <;> simp_all [IndexTy.beqAll]
  | a :: as, bs, h => by
    cases bs <;> simp_all [IndexTy.beqAll]
    exact ⟨a.eq_of_beq _ h.1, IndexTy.eq_of_beqAll _ _ h.2⟩

theorem Property.eq_of_beq : (a b : Property) → a.beq b = true → a = b
  | ⟨_, _, _, _, t⟩, ⟨_, _, _, _, u⟩, h => by
    simp_all [Property.beq]
    exact t.eq_of_beq u h.2

theorem Property.eq_of_beqAll : (as bs : List Property) → Property.beqAll as bs = true → as = bs
  | [], bs, h => by cases bs <;> simp_all [Property.beqAll]
  | a :: as, bs, h => by
    cases bs <;> simp_all [Property.beqAll]
    exact ⟨a.eq_of_beq _ h.1, Property.eq_of_beqAll _ _ h.2⟩

theorem ObjectTy.eq_of_beq : (a b : ObjectTy) → a.beq b = true → a = b
  | ⟨_, _, _, _⟩, ⟨_, _, _, _⟩, h => by
    simp_all [ObjectTy.beq]
    exact ⟨Property.eq_of_beqAll _ _ h.1.1.1, FunctionTy.eq_of_beqAll _ _ h.1.1.2,
      FunctionTy.eq_of_beqAll _ _ h.1.2, IndexTy.eq_of_beqAll _ _ h.2⟩

end

theorem Ty.beq_iff {a b : Ty} : a.beq b = true ↔ a = b :=
  ⟨a.eq_of_beq b, fun h ↦ h ▸ a.beq_self⟩

instance : DecidableEq Ty := fun _ _ ↦ decidable_of_iff _ Ty.beq_iff

end PluginSurface
