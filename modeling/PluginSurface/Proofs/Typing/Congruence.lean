import PluginSurface.Proofs.Typing.Mentions

/-!
# What resolving a type depends on

A written type is resolved by going through its parts, which is the same everywhere. What differs
are the names at the bottom: what they are bound to, what is behind them, and which properties are
picked out of what is behind them. Two ways of resolving types that agree in this agree on all
types. They may belong to two programs, to two trails, or to environments that are related. What is
behind a name depends in turn on how the questions about its declarations are answered.
-/

namespace PluginSurface

namespace Typing

/-! ## Declarations -/

/-- Questions on two trails are answered alike: in environments that fit, and about what mentions
only symbols that are `named`. Environments fit that bind names to `good` types, as the answers
are. -/
structure SameAnswers (c : Checker) (named : Nat → Prop) (good : Ty → Prop)
    (fits : TypeEnv → Prop) (ask ask' : TypeRules) (trail trail' : TypeTrail) : Prop where
  declarationEnv : ∀ d, fits (declarationEnv d)
  bind : ∀ {env}, fits env → ∀ name {t}, good t → fits (env.bind name t)
  param : ∀ name, good (.param name)
  good : ∀ {env}, fits env → ∀ type, c.Mentions named env.file env.scope type.mentions →
    good (ask.typeAt trail env type)
  typeAt : ∀ {env}, fits env → ∀ type, c.Mentions named env.file env.scope type.mentions →
    ask'.typeAt trail' env type = ask.typeAt trail env type
  signatureAt : ∀ {env}, fits env → ∀ signature : Signature,
    c.Mentions named env.file env.scope signature.mentions →
    ask'.signatureAt trail' env signature = ask.signatureAt trail env signature
  objectAt : ∀ {env}, fits env → ∀ members,
    c.Mentions named env.file env.scope (mentionsOfMembers members) →
    ask'.objectAt trail' env members = ask.objectAt trail env members

/-- An alias or variable is open on both trails or on neither, and opens alike. -/
structure OpensSame (c : Checker) (named : Nat → Prop) (good : Ty → Prop)
    (fits : TypeEnv → Prop)
    (ask ask' : TypeRules) (trail trail' : TypeTrail) (id : Nat) : Prop where
  mentions : ∀ d ∈ (c.binding.symbol id).declarations,
    c.Mentions named d.file d.scope d.kind.mentions
  listed : id ∈ trail'.types ↔ id ∈ trail.types
  answers : (c.binding.symbol id).declarations ≠ [] → id ∉ trail.types →
    SameAnswers c named good fits ask ask' ⟨id :: trail.types, trail.heritage⟩
      ⟨id :: trail'.types, trail'.heritage⟩

section

variable {c : Checker} {named : Nat → Prop} {good : Ty → Prop} {fits : TypeEnv → Prop}
  {ask ask' : TypeRules} {trail trail' : TypeTrail}

namespace SameAnswers

variable (h : SameAnswers c named good fits ask ask' trail trail') {env : TypeEnv}

include h

theorem instantiate (henv : fits env) (params : List TypeParam)
    (hparams : c.Mentions named env.file env.scope (mentionsOfDefaults params)) {args : List Ty}
    (hargs : ∀ t ∈ args, good t) :
    Typing.instantiate (ask'.typeAt trail') env params args =
        Typing.instantiate (ask.typeAt trail) env params args ∧
      fits (Typing.instantiate (ask.typeAt trail) env params args) := by
  induction params generalizing env args with
  | nil => simpa [Typing.instantiate] using henv
  | cons p rest ih =>
      rw [mentionsOfDefaults, List.flatMap_cons] at hparams
      cases args with
      | cons arg args =>
          obtain ⟨harg, hargs⟩ := List.forall_mem_cons.mp hargs
          exact ih (h.bind henv p.name harg) hparams.right hargs
      | nil =>
          unfold Typing.instantiate
          cases hdefault : p.default with
          | none => exact ih (h.bind henv p.name (h.param p.name)) hparams.right hargs
          | some default =>
              have hmentions := hparams.left
              rw [hdefault, mentionsOfType?] at hmentions
              simp only [h.typeAt henv default hmentions]
              exact ih (h.bind henv p.name (h.good henv default hmentions)) hparams.right hargs

theorem annotated (henv : fits env) (type : Option TypeExpr)
    (htype : c.Mentions named env.file env.scope (mentionsOfType? type)) :
    Typing.annotated ask' trail' env type = Typing.annotated ask trail env type := by
  cases type with
  | none => rfl
  | some type => exact h.typeAt henv type htype

theorem classMembers (henv : fits env) (m : ClassMember)
    (hm : c.Mentions named env.file env.scope m.mentions) :
    Typing.classMembers ask' trail' env m = Typing.classMembers ask trail env m := by
  obtain ⟨modifiers, kind, span⟩ := m
  cases kind with
  | constructor params body =>
      refine List.map_congr_left fun p hp ↦ ?_
      rw [h.annotated henv p.type (hm.mono (mem_mentionsOfParams (List.mem_filter.mp hp).1))]
  | property name optional type | getter name type body =>
      simp only [Typing.classMembers, h.annotated henv type hm]
  | method name optional signature body =>
      simp only [Typing.classMembers, h.signatureAt henv signature hm]
  | setter name param body =>
      have hparam : c.Mentions named env.file env.scope
          (mentionsOfType? (param.bind (·.type))) := mentionsOfParams_toList param ▸ hm
      simp only [Typing.classMembers, h.annotated henv _ hparam]
  | index index | staticBlock body => rfl

/-- What a declaration adds is the same. -/
theorem addDeclaration {d : Declaration} (hd : c.Mentions named d.file d.scope d.kind.mentions)
    {args : List Ty} (hargs : ∀ t ∈ args, good t) (found : List Property × List Ty) :
    Typing.addDeclaration ask' trail' args found d =
      Typing.addDeclaration ask trail args found d := by
  have hinside (params : List TypeParam)
      (hparams : c.Mentions named d.file d.scope (mentionsOfDefaults params)) :=
    h.instantiate (h.declarationEnv d) params hparams hargs
  have htypes {env : TypeEnv} (henv : fits env) (types : List TypeExpr)
      (htypes : c.Mentions named env.file env.scope (mentionsOfTypes types)) :
      types.map (ask'.typeAt trail' env) = types.map (ask.typeAt trail env) :=
    List.map_congr_left fun type htype ↦
      h.typeAt henv type (htypes.mono (mem_mentionsOfTypes htype))
  cases hkind : d.kind with
  | classDecl decl =>
      rw [hkind] at hd
      dsimp only [DeclarationKind.mentions] at hd
      obtain ⟨henv, hfits⟩ := hinside decl.typeParams hd.left.left
      have hmembers := List.map_congr_left fun m (hm : m ∈ decl.members.filter (!·.isStatic)) ↦
        h.classMembers hfits m (by
          simpa [Typing.declarationEnv] using hd.right.mono fun x hx ↦
            List.mem_flatMap.mpr ⟨m, (List.mem_filter.mp hm).1, hx⟩)
      have hbase : c.Mentions named d.file d.scope (mentionsOfTypes decl.base.toList) := by
        rw [mentionsOfTypes_toList]
        exact hd.left.right
      simp only [Typing.addDeclaration, hkind, henv, List.flatMap_def]
      rw [htypes hfits _ (by simpa [Typing.declarationEnv] using hbase), hmembers]
  | interfaceDecl decl =>
      rw [hkind] at hd
      dsimp only [DeclarationKind.mentions] at hd
      obtain ⟨henv, hfits⟩ := hinside decl.typeParams hd.left.left
      simp only [Typing.addDeclaration, hkind, henv]
      rw [htypes hfits _ (by simpa [Typing.declarationEnv] using hd.left.right),
        h.objectAt hfits _ (by simpa [Typing.declarationEnv] using hd.right)]
  | _ => simp only [Typing.addDeclaration, hkind]

end SameAnswers

/-! ## Names -/

namespace OpensSame

variable {id : Nat} (h : OpensSame c named good fits ask ask' trail trail' id)

include h

theorem aliasType {d : Declaration} {decl : AliasDecl}
    (hd : d ∈ (c.binding.symbol id).declarations) (hkind : d.kind = .aliasDecl decl)
    {args : List Ty} (hargs : ∀ t ∈ args, good t) :
    Typing.aliasType c ask' trail' id d decl args =
      Typing.aliasType c ask trail id d decl args := by
  unfold Typing.aliasType
  by_cases hopen : id ∈ trail.types
  · rw [if_pos hopen, if_pos (h.listed.mpr hopen)]
  · have hanswers := h.answers (List.ne_nil_of_mem hd) hopen
    have hmentions := h.mentions d hd
    rw [hkind] at hmentions
    dsimp only [DeclarationKind.mentions] at hmentions
    obtain ⟨henv, hfits⟩ := hanswers.instantiate (hanswers.declarationEnv d) decl.typeParams
      hmentions.left hargs
    have htype := hanswers.typeAt hfits decl.type
      (by simpa [Typing.declarationEnv] using hmentions.right)
    rw [if_neg hopen, if_neg (mt h.listed.mp hopen)]
    simp only [henv, htype]

theorem declaredType {args : List Ty} (hargs : ∀ t ∈ args, good t) :
    Typing.declaredType c ask' trail' id args = Typing.declaredType c ask trail id args := by
  simp only [Typing.declaredType]
  split
  · rfl
  split
  · rfl
  cases hfound : (c.binding.symbol id).declarations.findSome? aliasDecl? with
  | none => rfl
  | some x =>
      obtain ⟨d, hd, hx⟩ := List.exists_of_findSome?_eq_some hfound
      obtain ⟨decl, hkind, rfl⟩ := aliasDecl?_eq_some hx
      exact h.aliasType hd hkind hargs

omit h in
theorem queryType {path : List String} {env env' : TypeEnv} (hscope : env'.scope = env.scope)
    (h : ∀ id, c.entity? path env.scope = some id →
      OpensSame c named good fits ask ask' trail trail' id) :
    Typing.queryType c ask' trail' path env' = Typing.queryType c ask trail path env := by
  unfold Typing.queryType
  rw [hscope]
  split
  · rfl
  next id hentity =>
    have hopens := h id hentity
    cases hfound : (c.binding.symbol id).declarations.findSome? variableType? with
    | none => rfl
    | some x =>
        obtain ⟨d, hd, hx⟩ := List.exists_of_findSome?_eq_some hfound
        obtain ⟨type, hkind, rfl⟩ := variableType?_eq_some hx
        have hmentions := hopens.mentions d hd
        rw [hkind] at hmentions
        by_cases hopen : id ∈ trail.types
        · simp only [if_pos hopen, if_pos (hopens.listed.mpr hopen)]
        · have hanswers := hopens.answers (List.ne_nil_of_mem hd) hopen
          simp only [if_neg hopen, if_neg (mt hopens.listed.mp hopen),
            hanswers.typeAt (hanswers.declarationEnv d) type hmentions]

end OpensSame

end

/-! ## Types -/

/-- Two ways of resolving agree on names. In related environments names are bound alike, and
where they are not bound they stand for types that are alike, if all symbols that are mentioned are
`named` and all arguments are `good`, as all resolved types are. -/
structure Congruent (c c' : Checker) (named : Nat → Prop) (good : Ty → Prop)
    (related : TypeEnv → TypeEnv → Prop) (ask ask' : TypeRules) (trail trail' : TypeTrail) :
    Prop where
  options : c'.program.options = c.program.options
  bindNames : ∀ {env env'}, related env env' → ∀ names,
    related (env.bindNames names) (env'.bindNames names)
  boundType? : ∀ {env env'}, related env env' → ∀ path,
    Typing.boundType? path env' = Typing.boundType? path env
  template : ∀ {env env'}, related env env' → ∀ raw, env'.template raw = env.template raw
  typeRule : ∀ {env env'}, related env env' → ∀ type,
    c.Mentions named env.file env.scope type.mentions →
    good (Typing.typeRule c ask trail env type)
  entity? : ∀ {env env'}, related env env' → ∀ path,
    c'.entity? path env'.scope = c.entity? path env.scope
  importedSymbol? : ∀ {env env'}, related env env' → ∀ specifier path,
    Typing.importedSymbol? c' env' specifier path = Typing.importedSymbol? c env specifier path
  declaredType : ∀ {id}, named id → ∀ {args : List Ty}, (∀ t ∈ args, good t) →
    Typing.declaredType c' ask' trail' id args = Typing.declaredType c ask trail id args
  queryType : ∀ {env env'}, related env env' → ∀ path,
    c.Mentions named env.file env.scope [.entity path] →
    Typing.queryType c' ask' trail' path env' = Typing.queryType c ask trail path env
  indexedType : ∀ {object}, good object → ∀ index,
    Typing.indexedType c' ask' trail' object index = Typing.indexedType c ask trail object index

theorem typeRules_eq_map (c : Checker) (ask : TypeRules) (trail : TypeTrail) (env : TypeEnv)
    (types : List TypeExpr) :
    typeRules c ask trail env types = types.map (typeRule c ask trail env) := by
  induction types with
  | nil => rw [typeRules, List.map_nil]
  | cons type rest ih => rw [typeRules, ih, List.map_cons]

variable {c c' : Checker} {named : Nat → Prop} {good : Ty → Prop}
  {related : TypeEnv → TypeEnv → Prop} {ask ask' : TypeRules} {trail trail' : TypeTrail}

namespace Congruent

variable (h : Congruent c c' named good related ask ask' trail trail') {env env' : TypeEnv}

include h

theorem goodTypes (henv : related env env') {types : List TypeExpr}
    (htypes : c.Mentions named env.file env.scope (mentionsOfTypes types)) :
    ∀ t ∈ typeRules c ask trail env types, good t := by
  intro t ht
  rw [typeRules_eq_map] at ht
  obtain ⟨type, htype, rfl⟩ := List.mem_map.mp ht
  exact h.typeRule henv type (htypes.mono (mem_mentionsOfTypes htype))

theorem namedType (henv : related env env') {path : List String}
    (hpath : ∀ id, c.entity? path env.scope = some id → named id) {args : List Ty}
    (hargs : ∀ t ∈ args, good t) :
    Typing.namedType c' ask' trail' path args env' =
      Typing.namedType c ask trail path args env := by
  unfold Typing.namedType
  rw [h.entity? henv]
  split
  next id hentity => exact h.declaredType (hpath id hentity) hargs
  next => rfl

end Congruent

mutual

theorem typeRule_congr (h : Congruent c c' named good related ask ask' trail trail')
    {env env' : TypeEnv} (henv : related env env') :
    ∀ type, c.Mentions named env.file env.scope type.mentions →
      typeRule c' ask' trail' env' type = typeRule c ask trail env type
  | .keyword _, _ | .this, _ | .literal _, _ => by simp only [typeRule]
  | .template raw, _ => by rw [typeRule, typeRule, h.template henv]
  | .reference path args, htype => by
      rw [TypeExpr.mentions] at htype
      simp only [typeRule, typeRules_congr h henv args htype.tail, h.boundType? henv]
      split
      · rfl
      · exact h.namedType henv (fun _ ↦ htype.entity) (h.goodTypes henv htype.tail)
  | .union members, htype => by
      rw [TypeExpr.mentions] at htype
      simp only [typeRule, typeRules_congr h henv members htype, h.options]
  | .intersection members, htype => by
      rw [TypeExpr.mentions] at htype
      simp only [typeRule, typeRules_congr h henv members htype]
  | .array element, htype => by
      rw [TypeExpr.mentions] at htype
      simp only [typeRule, typeRule_congr h henv element htype]
  | .tuple elements, htype => by
      rw [TypeExpr.mentions] at htype
      simp only [typeRule, itemRules_congr h henv elements htype]
  | .function isConstructor isAbstract signature, htype => by
      rw [TypeExpr.mentions] at htype
      simp only [typeRule, signatureRule_congr h henv signature htype]
  | .members members, htype => by
      rw [TypeExpr.mentions] at htype
      simp only [typeRule, memberRules_congr h henv members htype]
  | .query path args, htype => by
      rw [TypeExpr.mentions] at htype
      simp only [typeRule, h.queryType henv path htype]
  | .operator op operand, htype => by
      rw [TypeExpr.mentions] at htype
      simp only [typeRule, typeRule_congr h henv operand htype]
  | .indexed object index, htype => by
      rw [TypeExpr.mentions] at htype
      simp only [typeRule, typeRule_congr h henv object htype.left,
        typeRule_congr h henv index htype.right, h.indexedType (h.typeRule henv object htype.left)]
  | .imported isTypeof specifier path args, htype => by
      rw [TypeExpr.mentions] at htype
      simp only [typeRule, h.importedSymbol? henv]
      split
      · rfl
      next hresolved =>
        rw [if_neg hresolved] at htype
        rw [typeRules_congr h henv args htype.tail]
        split
        next id hid => exact h.declaredType (htype.imported hid) (h.goodTypes henv htype.tail)
        next => rfl
  | .conditional check bound yes no, htype => by
      rw [TypeExpr.mentions] at htype
      have hbranch := h.bindNames henv bound.inferNames
      have hinner {ms : List Mention} (hms : c.Mentions named env.file env.scope ms) :
          c.Mentions named (env.bindNames bound.inferNames).file
            (env.bindNames bound.inferNames).scope ms := by simpa using hms
      simp only [typeRule, typeRule_congr h henv check htype.left.left.left,
        typeRule_congr h hbranch bound (hinner htype.left.left.right),
        typeRule_congr h hbranch yes (hinner htype.left.right),
        typeRule_congr h henv no htype.right]
  | .infer _ none, _ | .predicate _ _ none, _ => by simp only [typeRule]
  | .infer _ (some type), htype | .predicate _ _ (some type), htype => by
      rw [TypeExpr.mentions, mentionsOfType?] at htype
      simp only [typeRule, typeRule_congr h henv type htype]
  | .mapped readonly key bound rename optional value, htype => by
      rw [TypeExpr.mentions] at htype
      have hkey := h.bindNames henv [key]
      have hinner {ms : List Mention} (hms : c.Mentions named env.file env.scope ms) :
          c.Mentions named (env.bindNames [key]).file (env.bindNames [key]).scope ms := by
        simpa using hms
      have hbound := typeRule_congr h henv bound htype.left.left
      have hvalue := optionalTypeRule_congr h hkey value (hinner htype.right)
      match rename with
      | none => simp only [typeRule, hbound, hvalue]
      | some rename =>
          have hrename := htype.left.right
          rw [mentionsOfType?] at hrename
          simp only [typeRule, hbound, hvalue, typeRule_congr h hkey rename (hinner hrename)]

theorem optionalTypeRule_congr (h : Congruent c c' named good related ask ask' trail trail')
    {env env' : TypeEnv} (henv : related env env') :
    ∀ type, c.Mentions named env.file env.scope (mentionsOfType? type) →
      typeRule? c' ask' trail' env' type = typeRule? c ask trail env type
  | none, _ => by simp only [typeRule?]
  | some type, htype => by
      rw [mentionsOfType?] at htype
      simp only [typeRule?, typeRule_congr h henv type htype]

theorem typeRules_congr (h : Congruent c c' named good related ask ask' trail trail')
    {env env' : TypeEnv} (henv : related env env') :
    ∀ types, c.Mentions named env.file env.scope (mentionsOfTypes types) →
      typeRules c' ask' trail' env' types = typeRules c ask trail env types
  | [], _ => by simp only [typeRules]
  | type :: rest, htypes => by
      rw [mentionsOfTypes] at htypes
      simp only [typeRules, typeRule_congr h henv type htypes.left,
        typeRules_congr h henv rest htypes.right]

theorem itemRules_congr (h : Congruent c c' named good related ask ask' trail trail')
    {env env' : TypeEnv} (henv : related env env') :
    ∀ elements, c.Mentions named env.file env.scope (mentionsOfElements elements) →
      itemRules c' ask' trail' env' elements = itemRules c ask trail env elements
  | [], _ => by simp only [itemRules]
  | ⟨_, _, _, type⟩ :: rest, helements => by
      rw [mentionsOfElements] at helements
      simp only [itemRules, typeRule_congr h henv type helements.left,
        itemRules_congr h henv rest helements.right]

theorem paramRules_congr (h : Congruent c c' named good related ask ask' trail trail')
    {env env' : TypeEnv} (henv : related env env') :
    ∀ params, c.Mentions named env.file env.scope (mentionsOfParams params) →
      paramRules c' ask' trail' env' params = paramRules c ask trail env params
  | [], _ => by simp only [paramRules]
  | ⟨_, _, _, _, type⟩ :: rest, hparams => by
      rw [mentionsOfParams] at hparams
      simp only [paramRules, optionalTypeRule_congr h henv type hparams.left,
        paramRules_congr h henv rest hparams.right]

theorem signatureRule_congr (h : Congruent c c' named good related ask ask' trail trail')
    {env env' : TypeEnv} (henv : related env env') :
    ∀ signature : Signature, c.Mentions named env.file env.scope signature.mentions →
      signatureRule c' ask' trail' env' signature = signatureRule c ask trail env signature
  | ⟨typeParams, params, result⟩, hsignature => by
      rw [Signature.mentions] at hsignature
      have hparams := h.bindNames henv (typeParams.map (·.name))
      have hinner {ms : List Mention} (hms : c.Mentions named env.file env.scope ms) :
          c.Mentions named (env.bindNames (typeParams.map (·.name))).file
            (env.bindNames (typeParams.map (·.name))).scope ms := by simpa using hms
      simp only [signatureRule, TypeEnv.bindTypeParams,
        paramRules_congr h hparams params (hinner hsignature.left),
        optionalTypeRule_congr h hparams result (hinner hsignature.right)]

theorem memberRules_congr (h : Congruent c c' named good related ask ask' trail trail')
    {env env' : TypeEnv} (henv : related env env') :
    ∀ members, c.Mentions named env.file env.scope (mentionsOfMembers members) →
      memberRules c' ask' trail' env' members = memberRules c ask trail env members
  | [], _ => by simp only [memberRules]
  | member :: rest, hmembers => by
      rw [mentionsOfMembers] at hmembers
      simp only [memberRules, memberRule_congr h henv member hmembers.left,
        memberRules_congr h henv rest hmembers.right]

theorem memberRule_congr (h : Congruent c c' named good related ask ask' trail trail')
    {env env' : TypeEnv} (henv : related env env') :
    ∀ member : TypeMember, c.Mentions named env.file env.scope member.mentions →
      memberRule c' ask' trail' env' member = memberRule c ask trail env member
  | .property name optional readonly type, hmember | .getter name type, hmember => by
      rw [TypeMember.mentions] at hmember
      simp only [memberRule, optionalTypeRule_congr h henv type hmember]
  | .method _ _ signature, hmember | .call signature, hmember
  | .construct signature, hmember => by
      rw [TypeMember.mentions] at hmember
      simp only [memberRule, signatureRule_congr h henv signature hmember]
  | .index ⟨readonly, keyName, key, value⟩, hmember => by
      rw [TypeMember.mentions] at hmember
      simp only [memberRule, typeRule_congr h henv key hmember.left,
        optionalTypeRule_congr h henv value hmember.right]
  | .setter name (some ⟨_, _, _, _, some type⟩), hmember => by
      rw [TypeMember.mentions, mentionsOfType?] at hmember
      simp only [memberRule, paramTypeRule, typeRule_congr h henv type hmember]
  | .setter name (some ⟨_, _, _, _, none⟩), _ | .setter name none, _ => by
      rw [memberRule, memberRule, paramTypeRule, paramTypeRule] <;> simp

end

end Typing

end PluginSurface
