import PluginSurface.Proofs.Typing.MemberOrder
import PluginSurface.Proofs.Typing.Placeholders

/-!
# Instantiating aliases by substitution

An argument reaches the body of a generic alias through the environment, where its parameter is
bound to it. This gives the same type as putting the argument in for the parameter in the body as it
is written, wherever the environment is looked at. The type parameters of a signature in the body
and the arguments of an `import("…")` type that is not found are kept as text, so a body is asked
to have the parameter nowhere in them.
-/

namespace PluginSurface

section

variable (name : String) (word : Keyword)

/-! ## Substitution -/

mutual

/-- The type with a keyword put in for each reference to a name. -/
def TypeExpr.subst : TypeExpr → TypeExpr
  | .reference path args =>
      if path = [name] then .keyword word else .reference path (substTypes args)
  | .union members => .union (substTypes members)
  | .intersection members => .intersection (substTypes members)
  | .array element => .array element.subst
  | .tuple elements => .tuple (substElements elements)
  | .function isConstructor isAbstract signature =>
    .function isConstructor isAbstract signature.subst
  | .members members => .members (substMembers members)
  | .query path args => .query path (substTypes args)
  | .operator op operand => .operator op operand.subst
  | .indexed object index => .indexed object.subst index.subst
  | .conditional check bound yes no => .conditional check.subst bound.subst yes.subst no.subst
  | .infer other bound => .infer other (substType? bound)
  | .mapped readonly key bound rename optional value =>
    .mapped readonly key bound.subst (substType? rename) optional (substType? value)
  | .template raw => .template (Template.subst name word.word raw)
  | .imported isTypeof specifier path args => .imported isTypeof specifier path (substTypes args)
  | .predicate asserts param type => .predicate asserts param (substType? type)
  | .keyword other => .keyword other
  | .this => .this
  | .literal value => .literal value

def substType? : Option TypeExpr → Option TypeExpr
  | none => none
  | some type => some type.subst

def substTypes : List TypeExpr → List TypeExpr
  | [] => []
  | type :: rest => type.subst :: substTypes rest

def substElements : List TupleElement → List TupleElement
  | [] => []
  | ⟨label, optional, isRest, type⟩ :: rest =>
    ⟨label, optional, isRest, type.subst⟩ :: substElements rest

def substTypeParams : List TypeParam → List TypeParam
  | [] => []
  | ⟨param, bound, default⟩ :: rest =>
    ⟨param, substType? bound, substType? default⟩ :: substTypeParams rest

def Param.subst : Param → Param
  | ⟨param, modifiers, optional, isRest, type⟩ =>
    ⟨param, modifiers, optional, isRest, substType? type⟩

def substParams : List Param → List Param
  | [] => []
  | param :: rest => param.subst :: substParams rest

def substParam? : Option Param → Option Param
  | none => none
  | some param => some param.subst

def Signature.subst : Signature → Signature
  | ⟨typeParams, params, result⟩ =>
    ⟨substTypeParams typeParams, substParams params, substType? result⟩

def TypeMember.subst : TypeMember → TypeMember
  | .property key optional readonly type => .property key optional readonly (substType? type)
  | .method key optional signature => .method key optional signature.subst
  | .call signature => .call signature.subst
  | .construct signature => .construct signature.subst
  | .index ⟨readonly, keyName, key, value⟩ =>
    .index ⟨readonly, keyName, key.subst, substType? value⟩
  | .getter key type => .getter key (substType? type)
  | .setter key param => .setter key (substParam? param)

def substMembers : List TypeMember → List TypeMember
  | [] => []
  | member :: rest => member.subst :: substMembers rest

end

end

section

variable (name : String)

mutual

/-- What the name is bound to reaches each reference to it: it is not bound again, and nothing that
is kept as it is written has it. -/
def TypeExpr.Reached : TypeExpr → Prop
  | .reference path args => (path = [name] → args = []) ∧ ReachedAll args
  | .union members | .intersection members => ReachedAll members
  | .array element => element.Reached
  | .tuple elements => ReachedElements elements
  | .function _ _ signature => signature.Reached
  | .members members => ReachedMembers members
  | .query _ args => ReachedAll args
  | .operator _ operand => operand.Reached
  | .indexed object index => object.Reached ∧ index.Reached
  | .conditional check bound yes no =>
    name ∉ bound.inferNames ∧ check.Reached ∧ bound.Reached ∧ yes.Reached ∧ no.Reached
  | .infer _ bound => Reached? bound
  | .mapped _ key bound rename _ value =>
    name ≠ key ∧ bound.Reached ∧ Reached? rename ∧ Reached? value
  | .template raw => Template.Reached name raw
  | .imported _ _ _ args => (∀ word, substTypes name word args = args) ∧ ReachedAll args
  | .predicate _ _ type => Reached? type
  | .keyword _ | .this | .literal _ => True

def Reached? : Option TypeExpr → Prop
  | none => True
  | some type => type.Reached

def ReachedAll : List TypeExpr → Prop
  | [] => True
  | type :: rest => type.Reached ∧ ReachedAll rest

def ReachedElements : List TupleElement → Prop
  | [] => True
  | ⟨_, _, _, type⟩ :: rest => type.Reached ∧ ReachedElements rest

def ReachedParams : List Param → Prop
  | [] => True
  | ⟨_, _, _, _, type⟩ :: rest => Reached? type ∧ ReachedParams rest

def Signature.Reached : Signature → Prop
  | ⟨typeParams, params, result⟩ =>
    (name ∉ typeParams.map (·.name) ∧ ∀ word, substTypeParams name word typeParams =
      typeParams) ∧ ReachedParams params ∧ Reached? result

def TypeMember.Reached : TypeMember → Prop
  | .property _ _ _ type | .getter _ type => Reached? type
  | .method _ _ signature | .call signature | .construct signature => signature.Reached
  | .index ⟨_, _, key, value⟩ => key.Reached ∧ Reached? value
  | .setter _ (some ⟨_, _, _, _, type⟩) => Reached? type
  | .setter _ none => True

def ReachedMembers : List TypeMember → Prop
  | [] => True
  | member :: rest => member.Reached ∧ ReachedMembers rest

end

end

/-! ## The names that a bound introduces -/

section

variable {name : String} (word : Keyword)

mutual

theorem inferNames_subst : (type : TypeExpr) → type.Reached name →
    (type.subst name word).inferNames = type.inferNames
  | .reference path args, h => by
      rw [TypeExpr.Reached] at h
      rw [TypeExpr.subst]
      split
      next hpath => rw [h.1 hpath, TypeExpr.inferNames, TypeExpr.inferNames, inferNamesOfTypes]
      next => rw [TypeExpr.inferNames, TypeExpr.inferNames, inferNames_substTypes args h.2]
  | .union members, h | .intersection members, h | .query _ members, h => by
      rw [TypeExpr.Reached] at h
      rw [TypeExpr.subst, TypeExpr.inferNames, TypeExpr.inferNames, inferNames_substTypes members h]
  | .array element, h | .operator _ element, h => by
      rw [TypeExpr.Reached] at h
      rw [TypeExpr.subst, TypeExpr.inferNames, TypeExpr.inferNames, inferNames_subst element h]
  | .tuple elements, h => by
      rw [TypeExpr.Reached] at h
      rw [TypeExpr.subst, TypeExpr.inferNames, TypeExpr.inferNames,
        inferNames_substElements elements h]
  | .function _ _ signature, h => by
      rw [TypeExpr.Reached] at h
      rw [TypeExpr.subst, TypeExpr.inferNames, TypeExpr.inferNames,
        inferNames_substSignature signature h]
  | .members members, h => by
      rw [TypeExpr.Reached] at h
      rw [TypeExpr.subst, TypeExpr.inferNames, TypeExpr.inferNames,
        inferNames_substMembers members h]
  | .indexed object index, h => by
      rw [TypeExpr.Reached] at h
      rw [TypeExpr.subst, TypeExpr.inferNames, TypeExpr.inferNames, inferNames_subst object h.1,
        inferNames_subst index h.2]
  | .infer _ bound, h => by
      rw [TypeExpr.Reached] at h
      rw [TypeExpr.subst, TypeExpr.inferNames, TypeExpr.inferNames, inferNames_substType? bound h]
  | .conditional .., _ | .mapped .., _ | .template _, _ | .imported .., _ | .predicate .., _
  | .keyword _, _ | .this, _ | .literal _, _ => by
      simp only [TypeExpr.subst, TypeExpr.inferNames]

theorem inferNames_substType? : (type : Option TypeExpr) → Reached? name type →
    inferNamesOfType? (substType? name word type) = inferNamesOfType? type
  | none, _ => by rw [substType?]
  | some type, h => by
      rw [Reached?] at h
      rw [substType?, inferNamesOfType?, inferNamesOfType?, inferNames_subst type h]

theorem inferNames_substTypes : (types : List TypeExpr) → ReachedAll name types →
    inferNamesOfTypes (substTypes name word types) = inferNamesOfTypes types
  | [], _ => by rw [substTypes]
  | type :: rest, h => by
      rw [ReachedAll] at h
      rw [substTypes, inferNamesOfTypes, inferNamesOfTypes, inferNames_subst type h.1,
        inferNames_substTypes rest h.2]

theorem inferNames_substElements :
    (elements : List TupleElement) → ReachedElements name elements →
    inferNamesOfElements (substElements name word elements) = inferNamesOfElements elements
  | [], _ => by rw [substElements]
  | ⟨_, _, _, type⟩ :: rest, h => by
      rw [ReachedElements] at h
      rw [substElements, inferNamesOfElements, inferNamesOfElements, inferNames_subst type h.1,
        inferNames_substElements rest h.2]

theorem inferNames_substParams : (params : List Param) → ReachedParams name params →
    inferNamesOfParams (substParams name word params) = inferNamesOfParams params
  | [], _ => by rw [substParams]
  | ⟨_, _, _, _, type⟩ :: rest, h => by
      rw [ReachedParams] at h
      rw [substParams, Param.subst, inferNamesOfParams, inferNamesOfParams,
        inferNames_substType? type h.1, inferNames_substParams rest h.2]

theorem inferNames_substSignature : (signature : Signature) → signature.Reached name →
    (signature.subst name word).inferNames = signature.inferNames
  | ⟨_, params, result⟩, h => by
      rw [Signature.Reached] at h
      rw [Signature.subst, Signature.inferNames, Signature.inferNames,
        inferNames_substParams params h.2.1, inferNames_substType? result h.2.2]

theorem inferNames_substMember : (member : TypeMember) → member.Reached name →
    (member.subst name word).inferNames = member.inferNames
  | .property _ _ _ type, h | .getter _ type, h => by
      rw [TypeMember.Reached] at h
      rw [TypeMember.subst, TypeMember.inferNames, TypeMember.inferNames,
        inferNames_substType? type h]
  | .method _ _ signature, h | .call signature, h | .construct signature, h => by
      rw [TypeMember.Reached] at h
      rw [TypeMember.subst, TypeMember.inferNames, TypeMember.inferNames,
        inferNames_substSignature signature h]
  | .index ⟨_, _, _, _⟩, _ | .setter .., _ => by
      rw [TypeMember.subst, TypeMember.inferNames, TypeMember.inferNames]

theorem inferNames_substMembers : (members : List TypeMember) → ReachedMembers name members →
    inferNamesOfMembers (substMembers name word members) = inferNamesOfMembers members
  | [], _ => by rw [substMembers]
  | member :: rest, h => by
      rw [ReachedMembers] at h
      rw [substMembers, inferNamesOfMembers, inferNamesOfMembers, inferNames_substMember member h.1,
        inferNames_substMembers rest h.2]

end

end

/-! ## Resolving -/

namespace Typing

theorem render_keyword (word : Keyword) : (keyword word).render = word.word := by
  cases word <;> simp [keyword, Ty.render, Keyword.word, Primitive.word]

theorem trimBlank_word (word : Keyword) :
    Text.trimBlank word.word.toList = word.word.toList ∧ '\x7d' ∉ word.word.toList := by
  cases word <;> decide

theorem namedType_congr {c : Checker} {ask : TypeRules} {trail : TypeTrail} {env env' : TypeEnv}
    (hscope : env'.scope = env.scope) (path : List String) (args : List Ty) :
    namedType c ask trail path args env = namedType c ask trail path args env' := by
  unfold namedType
  rw [hscope]

theorem boundType?_instantiates {name : String} {t : Ty} {env env' : TypeEnv}
    (h : env.Instantiates name t env') (path : List String) :
    boundType? path env = if path = [name] then some t else boundType? path env' := by
  match path with
  | [] | _ :: _ :: _ => simp [boundType?]
  | [single] => simpa [boundType?] using h.bound? single

variable (c : Checker) (ask : TypeRules) (trail : TypeTrail) {name : String} {word : Keyword}

/-- A name is bound to a keyword, as the parameter of an alias is to its argument. -/
abbrev Puts (name : String) (word : Keyword) : TypeEnv → TypeEnv → Prop :=
  TypeEnv.Instantiates name (keyword word)

mutual

theorem typeRule_subst {env env' : TypeEnv} (h : Puts name word env env') : (type : TypeExpr) →
    type.Reached name →
      typeRule c ask trail env type = typeRule c ask trail env' (type.subst name word)
  | .keyword _, _ | .this, _ | .literal _, _ => by simp only [TypeExpr.subst, typeRule]
  | .reference path args, hr => by
      rw [TypeExpr.Reached] at hr
      rw [TypeExpr.subst, typeRule, boundType?_instantiates h, typeRules_subst h args hr.2]
      by_cases hpath : path = [name]
      · simp only [if_pos hpath, typeRule]
      · simp only [if_neg hpath, typeRule, namedType_congr h.scope]
  | .union members, hr | .intersection members, hr => by
      rw [TypeExpr.Reached] at hr
      simp only [TypeExpr.subst, typeRule, typeRules_subst h members hr]
  | .array element, hr | .operator _ element, hr => by
      rw [TypeExpr.Reached] at hr
      simp only [TypeExpr.subst, typeRule, typeRule_subst h element hr]
  | .tuple elements, hr => by
      rw [TypeExpr.Reached] at hr
      simp only [TypeExpr.subst, typeRule, itemRules_subst h elements hr]
  | .function _ _ signature, hr => by
      rw [TypeExpr.Reached] at hr
      simp only [TypeExpr.subst, typeRule, signatureRule_subst h signature hr]
  | .members members, hr => by
      rw [TypeExpr.Reached] at hr
      simp only [TypeExpr.subst, typeRule, memberRules_subst h members hr]
  | .query path _, _ => by simp only [TypeExpr.subst, typeRule, queryType, h.scope]
  | .indexed object index, hr => by
      rw [TypeExpr.Reached] at hr
      simp only [TypeExpr.subst, typeRule, typeRule_subst h object hr.1,
        typeRule_subst h index hr.2]
  | .imported _ specifier path args, hr => by
      rw [TypeExpr.Reached] at hr
      have hargs := typeRules_subst h args hr.2
      rw [hr.1 word] at hargs
      simp only [TypeExpr.subst, typeRule, hr.1 word, hargs, importedSymbol?, h.file]
  | .conditional check bound yes no, hr => by
      rw [TypeExpr.Reached] at hr
      obtain ⟨hnames, hcheck, hbound, hyes, hno⟩ := hr
      have hbranch := h.bindNames hnames
      simp only [TypeExpr.subst, typeRule, inferNames_subst word bound hbound,
        typeRule_subst h check hcheck, typeRule_subst hbranch bound hbound,
        typeRule_subst hbranch yes hyes, typeRule_subst h no hno]
  | .infer _ none, _ => by simp only [TypeExpr.subst, substType?, typeRule]
  | .infer _ (some bound), hr => by
      rw [TypeExpr.Reached, Reached?] at hr
      simp only [TypeExpr.subst, substType?, typeRule, typeRule_subst h bound hr]
  | .mapped _ key bound rename _ value, hr => by
      rw [TypeExpr.Reached] at hr
      obtain ⟨hkey, hbound, hrename, hvalue⟩ := hr
      have hnames : name ∉ [key] := by simpa using hkey
      have hinner := h.bindNames hnames
      match rename with
      | none =>
          simp only [TypeExpr.subst, substType?, typeRule, typeRule_subst h bound hbound,
            optionalTypeRule_subst hinner value hvalue]
      | some rename =>
          rw [Reached?] at hrename
          simp only [TypeExpr.subst, substType?, typeRule, typeRule_subst h bound hbound,
            typeRule_subst hinner rename hrename, optionalTypeRule_subst hinner value hvalue]
  | .template raw, hr => by
      rw [TypeExpr.Reached] at hr
      have hword := trimBlank_word word
      rw [TypeExpr.subst, typeRule, typeRule,
        h.template_subst (render_keyword word) hword.1 hword.2 hr]
  | .predicate _ _ none, _ => by simp only [TypeExpr.subst, substType?, typeRule]
  | .predicate _ _ (some type), hr => by
      rw [TypeExpr.Reached, Reached?] at hr
      simp only [TypeExpr.subst, substType?, typeRule, typeRule_subst h type hr]

theorem optionalTypeRule_subst {env env' : TypeEnv} (h : Puts name word env env') :
    (type : Option TypeExpr) → Reached? name type →
      typeRule? c ask trail env type = typeRule? c ask trail env' (substType? name word type)
  | none, _ => by simp only [substType?, typeRule?]
  | some type, hr => by
      rw [Reached?] at hr
      simp only [substType?, typeRule?, typeRule_subst h type hr]

theorem typeRules_subst {env env' : TypeEnv} (h : Puts name word env env') :
    (types : List TypeExpr) → ReachedAll name types →
      typeRules c ask trail env types = typeRules c ask trail env' (substTypes name word types)
  | [], _ => by simp only [substTypes, typeRules]
  | type :: rest, hr => by
      rw [ReachedAll] at hr
      simp only [substTypes, typeRules, typeRule_subst h type hr.1, typeRules_subst h rest hr.2]

theorem itemRules_subst {env env' : TypeEnv} (h : Puts name word env env') :
    (elements : List TupleElement) → ReachedElements name elements →
      itemRules c ask trail env elements =
        itemRules c ask trail env' (substElements name word elements)
  | [], _ => by simp only [substElements, itemRules]
  | ⟨_, _, _, type⟩ :: rest, hr => by
      rw [ReachedElements] at hr
      simp only [substElements, itemRules, typeRule_subst h type hr.1, itemRules_subst h rest hr.2]

theorem paramRules_subst {env env' : TypeEnv} (h : Puts name word env env') :
    (params : List Param) → ReachedParams name params →
      paramRules c ask trail env params = paramRules c ask trail env' (substParams name word params)
  | [], _ => by simp only [substParams, paramRules]
  | ⟨_, _, _, _, type⟩ :: rest, hr => by
      rw [ReachedParams] at hr
      simp only [substParams, Param.subst, paramRules, optionalTypeRule_subst h type hr.1,
        paramRules_subst h rest hr.2]

theorem signatureRule_subst {env env' : TypeEnv} (h : Puts name word env env') :
    (signature : Signature) → signature.Reached name →
      signatureRule c ask trail env signature =
        signatureRule c ask trail env' (signature.subst name word)
  | ⟨typeParams, params, result⟩, hr => by
      rw [Signature.Reached] at hr
      obtain ⟨⟨hnames, hkept⟩, hparams, hresult⟩ := hr
      have hinner := h.bindNames hnames
      simp only [Signature.subst, hkept word, signatureRule, TypeEnv.bindTypeParams,
        paramRules_subst hinner params hparams, optionalTypeRule_subst hinner result hresult]

theorem memberRules_subst {env env' : TypeEnv} (h : Puts name word env env') :
    (members : List TypeMember) → ReachedMembers name members →
      memberRules c ask trail env members =
        memberRules c ask trail env' (substMembers name word members)
  | [], _ => by simp only [substMembers, memberRules]
  | member :: rest, hr => by
      rw [ReachedMembers] at hr
      simp only [substMembers, memberRules, memberRule_subst h member hr.1,
        memberRules_subst h rest hr.2]

theorem memberRule_subst {env env' : TypeEnv} (h : Puts name word env env') :
    (member : TypeMember) → member.Reached name →
      memberRule c ask trail env member = memberRule c ask trail env' (member.subst name word)
  | .property _ _ _ type, hr | .getter _ type, hr => by
      rw [TypeMember.Reached] at hr
      simp only [TypeMember.subst, memberRule, optionalTypeRule_subst h type hr]
  | .method _ _ signature, hr | .call signature, hr | .construct signature, hr => by
      rw [TypeMember.Reached] at hr
      simp only [TypeMember.subst, memberRule, signatureRule_subst h signature hr]
  | .index ⟨_, _, key, value⟩, hr => by
      rw [TypeMember.Reached] at hr
      simp only [TypeMember.subst, memberRule, typeRule_subst h key hr.1,
        optionalTypeRule_subst h value hr.2]
  | .setter _ (some ⟨_, _, _, _, some type⟩), hr => by
      rw [TypeMember.Reached, Reached?] at hr
      simp only [TypeMember.subst, substParam?, Param.subst, substType?, memberRule, paramTypeRule,
        typeRule_subst h type hr]
  | .setter _ (some ⟨_, _, _, _, none⟩), _ | .setter _ none, _ => by
      simp only [TypeMember.subst, substParam?, Param.subst, substType?, memberRule]
      rw [paramTypeRule, paramTypeRule] <;> simp

end

theorem puts_instantiate (typeAt : TypeEnv → TypeExpr → Ty) (d : Declaration) (p : TypeParam) :
    Puts p.name word (instantiate typeAt (declarationEnv d) [p] [keyword word])
      (declarationEnv d) where
  file := rfl
  scope := rfl
  bound? other := by
    by_cases hother : other = p.name
    · simp [instantiate, TypeEnv.bind, TypeEnv.bound?, hother]
    · simp [instantiate, TypeEnv.bind, TypeEnv.bound?, List.lookup_cons, beq_false_of_ne hother,
        hother]
  params _ _ h := nomatch h

end Typing

/-! ## Instances of an alias -/

namespace Checker

open Typing

/-- The symbol stands for an alias: it is no class or interface, and this is its first alias. -/
structure IsAlias (c : Checker) (id : Nat) (d : Declaration) (a : AliasDecl) : Prop where
  first : (c.binding.symbol id).declarations.findSome? aliasDecl? = some (d, a)
  noInstances : (c.binding.symbol id).declarations.any declaresInstances = false

variable {c : Checker}

theorem typeAt_of_uses {env : TypeEnv} {id : Nat} {args : List TypeExpr} {type : TypeExpr}
    (h : c.Uses env id args type) :
    c.typeAt env type = declaredType c c.inner ⟨[], []⟩ id (args.map (c.typeAt env)) := by
  unfold typeAt
  rw [typing_eq]
  cases h with
  | reference hbound h =>
      simp only [rules, typeRule, hbound, namedType, h, typeRules_eq_map]
  | @imported specifier path hpath h =>
      have hpath : ¬((false || path.isEmpty) = true) := by simpa using hpath
      simp only [rules, typeRule, if_neg hpath, h, typeRules_eq_map]

/-- What a type resolves to where the alias of a declaration stands and is open. -/
def withinAlias (c : Checker) (id : Nat) (d : Declaration) (type : TypeExpr) : Ty :=
  c.inner.typeAt ⟨[id], []⟩ (declarationEnv d) type

theorem typeAt_inner_subst {trail : TypeTrail} {env env' : TypeEnv} {name : String}
    {word : Keyword} (h : Puts name word env env') {type : TypeExpr} (hr : type.Reached name) :
    c.inner.typeAt trail env type = c.inner.typeAt trail env' (type.subst name word) := by
  unfold inner
  match c.trailLimit with
  | 0 => rfl
  | 1 | _ + 2 => exact typeRule_subst c _ trail h type hr

theorem unaliased_aliasType {ask : TypeRules} {id : Nat} (d : Declaration) (a : AliasDecl)
    (args : List Ty) : (aliasType c ask ⟨[], []⟩ id d a args).unaliased =
      (ask.typeAt ⟨[id], []⟩ (instantiate (ask.typeAt ⟨[id], []⟩) (declarationEnv d)
        a.typeParams args) a.type).unaliased := by
  unfold aliasType
  rw [if_neg List.not_mem_nil]
  dsimp only
  split
  · rw [Ty.unaliased]
  · rfl

/-- An alias with one parameter that is used with a keyword stands for its body with the keyword put
in for the parameter. So two such uses read alike only if the two bodies do. -/
theorem unaliased_of_uses {id : Nat} {d : Declaration} {a : AliasDecl} {p : TypeParam}
    (halias : c.IsAlias id d a) (hparams : a.typeParams = [p]) (hreached : a.type.Reached p.name)
    (hname : ¬((c.binding.symbol id).outer = [] ∧
      (c.binding.symbol id).name ∈ ["Array", "ReadonlyArray"])) :
    (∀ env type word, c.Uses env id [.keyword word] type → (c.typeAt env type).unaliased =
      (c.withinAlias id d (a.type.subst p.name word)).unaliased) ∧
    ∀ env type word env' type' word', c.Uses env id [.keyword word] type →
      c.Uses env' id [.keyword word'] type' →
      ((c.typeAt env type).unaliased.render = (c.typeAt env' type').unaliased.render ↔
        (c.withinAlias id d (a.type.subst p.name word)).unaliased.render =
          (c.withinAlias id d (a.type.subst p.name word')).unaliased.render) := by
  have hinstance : ∀ env type word, c.Uses env id [.keyword word] type →
      (c.typeAt env type).unaliased =
        (c.withinAlias id d (a.type.subst p.name word)).unaliased := by
    intro env type word huses
    have harg : c.typeAt env (.keyword word) = keyword word := by
      unfold typeAt
      rw [typing_eq]
      simp only [rules, typeRule]
    have harray : ((c.binding.symbol id).outer.isEmpty && ((c.binding.symbol id).name == "Array" ||
        (c.binding.symbol id).name == "ReadonlyArray")) = false := by
      simpa [Bool.eq_false_iff] using hname
    rw [typeAt_of_uses huses, List.map_singleton, harg, declaredType, harray, halias.noInstances,
      halias.first]
    simp only [Bool.false_eq_true, if_false]
    rw [unaliased_aliasType, hparams, withinAlias,
      typeAt_inner_subst (puts_instantiate _ d p) hreached]
  refine ⟨hinstance, fun env type word env' type' word' huses huses' ↦ ?_⟩
  rw [hinstance env type word huses, hinstance env' type' word' huses']

end Checker

/-- An alias for a type in braces in which the parameter stands in a property, in a generic method,
in a template and in all parts of a conditional type. -/
def genericAlias : AliasDecl :=
  let param : TypeExpr := .reference ["T"] []
  ⟨⟨"G", ⟨0, 0⟩⟩, [⟨"T", none, none⟩], .members
    [.property (.identifier "a") false false (some param),
      .method (.identifier "m") false ⟨[⟨"U", none, none⟩],
        [⟨"u", [], false, false, some (.reference ["U"] [])⟩], some (.array param)⟩,
      .property (.identifier "t") false false (some (.template "`x-$\x7bT\x7d`")),
      .property (.identifier "c") false false (some (.conditional param
        (.array (.infer "R" none)) (.reference ["R"] []) (.operator .keyof param)))]⟩

def genericProgram : Program :=
  ⟨⟨.commonjs, false⟩, #[
    ⟨⟨"/index.d.ts"⟩, "",
      ⟨[⟨0, [], .aliasDecl genericAlias, ⟨0, 0⟩⟩], []⟩, []⟩]⟩

theorem reached_genericAlias : genericAlias.type.Reached "T" := by
  have htemplate : Template.Reached "T" "`x-$\x7bT\x7d`" := by
    intro inner hinner
    obtain rfl : inner = ['T'] := by simpa [Template.placeholders] using hinner
    exact .inl rfl
  simp only [genericAlias, TypeExpr.Reached, ReachedMembers, TypeMember.Reached, Reached?,
    Signature.Reached, ReachedParams, ReachedAll, TypeExpr.inferNames, inferNamesOfType?,
    substTypeParams, substType?]
  exact ⟨by simp, ⟨by simp, by simp⟩, htemplate, by simp⟩

theorem unaliased_genericAlias :
    let c := Checker.ofProgram genericProgram
    let d : Declaration := ⟨0, 0, .aliasDecl genericAlias⟩
    c.IsAlias 0 d genericAlias ∧ genericAlias.type.Reached "T" ∧
      c.Uses ⟨0, 0, []⟩ 0 [.keyword .string] (.reference ["G"] [.keyword .string]) ∧
      (c.typeAt ⟨0, 0, []⟩ (.reference ["G"] [.keyword .string])).unaliased =
        (c.withinAlias 0 d (genericAlias.type.subst "T" .string)).unaliased ∧
      (c.withinAlias 0 d (genericAlias.type.subst "T" .string)).render =
        "\x7b a: string; m<U>(u: U): string[]; t: `x-$\x7bstring\x7d`; " ++
          "c: string extends infer R[] ? R : keyof string; \x7d" := by
  intro c d
  have halias : c.IsAlias 0 d genericAlias :=
    ⟨by with_unfolding_all rfl, by with_unfolding_all rfl⟩
  have huses : c.Uses ⟨0, 0, []⟩ 0 [.keyword .string] (.reference ["G"] [.keyword .string]) :=
    .reference rfl (by decide +kernel)
  have hname : ¬((c.binding.symbol 0).outer = [] ∧
      (c.binding.symbol 0).name ∈ ["Array", "ReadonlyArray"]) := by decide +kernel
  have hinstances := Checker.unaliased_of_uses halias rfl reached_genericAlias hname
  exact ⟨halias, reached_genericAlias, huses, hinstances.1 _ _ _ huses, by decide +kernel⟩

end PluginSurface
