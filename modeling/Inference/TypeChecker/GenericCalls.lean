import Inference.TypeChecker.ExpressionInference
import Inference.TypeChecker.ExpressionPanics

/-! # Calls of generic functions

A call of a generic function maps the type parameters of the function to types. The substitution
reaches a type parameter that is a type of its own or the element of an array, and the inference
only one that is the whole type of a parameter.
-/

namespace Inference.TypeChecker

open Inference.Ast Inference.Foundation Collecting

/-! ## Type parameters in types -/

/-- The text that is kept of a function type. -/
def functionText (count : Nat) (returns : TypeInfoKind) : String :=
  s!"Function<{count}, {returns.toString}>"

/-- The type parameter occurs in the type at some depth. -/
inductive Mentions (typeParam : String) : TypeInfo → Prop
  | itself {params : List String} : Mentions typeParam ⟨.generic typeParam, params⟩
  | parameter {kind : TypeInfoKind} {params : List String} (member : typeParam ∈ params) :
      Mentions typeParam ⟨kind, params⟩
  | element {element : TypeInfo} {length : Nat} {params : List String}
      (inner : Mentions typeParam element) : Mentions typeParam ⟨.array element length, params⟩
  | returned {text : String} {count : Nat} {returns : TypeInfoKind} {params : List String}
      (shown : text = functionText count returns) (inner : Mentions typeParam ⟨returns, []⟩) :
      Mentions typeParam ⟨.function text, params⟩

/-- The type parameter occurs in the type where a substitution for `typeParams` does not reach it:
in the parameters of a generic type or in the text of a function type. -/
inductive Kept (typeParams : List String) (typeParam : String) : TypeInfo → Prop
  | parameter {kind : TypeInfoKind} {params : List String} (member : typeParam ∈ params)
      (noArray : ∀ element length, kind ≠ .array element length)
      (noParam : ∀ name ∈ typeParams, kind ≠ .generic name) : Kept typeParams typeParam ⟨kind, params⟩
  | element {element : TypeInfo} {length : Nat} {params : List String}
      (inner : Kept typeParams typeParam element) :
      Kept typeParams typeParam ⟨.array element length, params⟩
  | returned {text : String} {count : Nat} {returns : TypeInfoKind} {params : List String}
      (shown : text = functionText count returns) (inner : Mentions typeParam ⟨returns, []⟩) :
      Kept typeParams typeParam ⟨.function text, params⟩

section

variable {typeParams : List String} {typeParam : String} {substitutions : Substitutions}

theorem Mentions.kept {kind : TypeInfoKind} {params : List String}
    (mentioned : Mentions typeParam ⟨kind, params⟩)
    (noArray : ∀ element length, kind ≠ .array element length)
    (noGeneric : ∀ name, kind ≠ .generic name) : Kept typeParams typeParam ⟨kind, params⟩ := by
  cases mentioned with
  | itself => exact absurd rfl (noGeneric _)
  | parameter member => exact .parameter member noArray fun name _ => noGeneric name
  | element inner => exact absurd rfl (noArray _ _)
  | returned shown inner => exact .returned shown inner

theorem substitute_other {kind : TypeInfoKind} {params : List String}
    (noArray : ∀ element length, kind ≠ .array element length)
    (noGeneric : ∀ name, kind ≠ .generic name) :
    TypeInfo.substitute substitutions ⟨kind, params⟩ = ⟨kind, params⟩ := by
  cases kind with
  | array element length => exact absurd rfl (noArray element length)
  | generic name => exact absurd rfl (noGeneric name)
  | _ => rw [TypeInfo.substitute] <;> simp

/-- What a type mentions after a substitution was kept or is mentioned by a type put in. -/
theorem mentions_substitute (member : typeParam ∈ typeParams)
    (covers : ∀ name ∈ typeParams, name ∈ substitutions) : (typeInfo : TypeInfo) →
    Mentions typeParam (typeInfo.substitute substitutions) →
      Kept typeParams typeParam typeInfo ∨
        ∃ name known, substitutions.lookup name = some known ∧ Mentions typeParam known
  | ⟨.array element length, params⟩, mentioned => by
      rw [TypeInfo.substitute] at mentioned
      cases mentioned with
      | parameter inEmpty => cases inEmpty
      | element inner =>
          rcases mentions_substitute member covers element inner with kept | found
          · exact .inl (.element kept)
          · exact .inr found
  | ⟨.generic name, params⟩, mentioned => by
      rw [TypeInfo.substitute] at mentioned
      cases found : substitutions.lookup name with
      | some known =>
          rw [found] at mentioned
          exact .inr ⟨name, known, found, mentioned⟩
      | none =>
          have absent : name ∉ substitutions := AList.lookup_eq_none.mp found
          rw [found] at mentioned
          cases mentioned with
          | itself => exact absurd (covers _ member) absent
          | parameter inParams =>
              refine .inl (.parameter inParams (fun _ _ equal => by cases equal) ?_)
              intro other inTypeParams equal
              cases equal
              exact absent (covers _ inTypeParams)
  | ⟨.unit, _⟩, mentioned | ⟨.bool, _⟩, mentioned | ⟨.string, _⟩, mentioned
  | ⟨.number _, _⟩, mentioned | ⟨.custom _, _⟩, mentioned | ⟨.qualifiedName _, _⟩, mentioned
  | ⟨.qualified _, _⟩, mentioned | ⟨.function _, _⟩, mentioned | ⟨.struct_ _, _⟩, mentioned
  | ⟨.enum _, _⟩, mentioned | ⟨.spec _, _⟩, mentioned => by
      rw [substitute_other (by simp) (by simp)] at mentioned
      exact .inl (mentioned.kept (by simp) (by simp))

/-- A substitution for the type parameters alone leaves what it does not reach. -/
theorem Kept.substitute {typeInfo : TypeInfo} (kept : Kept typeParams typeParam typeInfo)
    (within : ∀ name ∈ substitutions, name ∈ typeParams) :
    Mentions typeParam (typeInfo.substitute substitutions) := by
  induction kept with
  | @parameter kind params member noArray noParam =>
      have unchanged : TypeInfo.substitute substitutions ⟨kind, params⟩ = ⟨kind, params⟩ := by
        by_cases generic : ∃ name, kind = .generic name
        · rcases generic with ⟨name, rfl⟩
          have absent : name ∉ substitutions := fun known => noParam name (within name known) rfl
          rw [TypeInfo.substitute, AList.lookup_eq_none.mpr absent]
          rfl
        · exact substitute_other noArray fun name equal => generic ⟨name, equal⟩
      rw [unchanged]
      exact .parameter member
  | element _ induction =>
      rw [TypeInfo.substitute]
      exact .element induction
  | returned shown inner =>
      rw [substitute_other (by simp) (by simp)]
      exact .returned shown inner

end

/-! ## Inferred type parameters -/

variable {found : Substitutions} {before after : CheckState} {errors : List TypeCheckError}

section

variable [UnicodeCase]

/-- Finds the type parameters of a call that does not give them. -/
def inferTypeParamsFromArgs (callLocation : Location) (arguments : Option Arguments)
    (signature : FuncInfo) : CheckM Substitutions :=
  match arguments with
  | some arguments => do
      let substitutions ← collectSubstitutions callLocation arguments signature.paramTypes ∅
      checkTypeParams signature callLocation substitutions
      return substitutions
  | none => pure ∅

variable {location : Location}

omit [UnicodeCase] in
/-- A type that is found for a type parameter is kept, or else the one that was found before. -/
theorem addSubstitution_mem {typeParam : String} {argType : TypeInfo}
    {substitutions : Substitutions}
    (ended : (addSubstitution location typeParam (some argType) substitutions).Ends before found
      after errors) : typeParam ∈ found := by
  unfold addSubstitution at ended
  cases known : substitutions.lookup typeParam with
  | some existing =>
      simp only [known] at ended
      have present : typeParam ∈ substitutions := by
        rw [← AList.lookup_isSome, known]
        rfl
      rcases ends_ite.mp ended with ⟨-, ended⟩ | ⟨-, ended⟩
      · rw [(ends_pure.mp ended).1]
        exact present
      · rcases ends_bind.mp ended with ⟨_, _, _, _, -, returned, -⟩
        rw [(ends_pure.mp returned).1]
        exact present
  | none =>
      simp only [known] at ended
      rw [(ends_pure.mp ended).1]
      exact (AList.mem_insert _).mpr (.inl rfl)

omit [UnicodeCase] in
theorem addSubstitution_keeps {typeParam other : String} {argType : Option TypeInfo}
    {substitutions : Substitutions}
    (ended : (addSubstitution location typeParam argType substitutions).Ends before found
      after errors) (present : other ∈ substitutions) : other ∈ found := by
  unfold addSubstitution at ended
  cases argType with
  | none =>
      rw [(ends_pure.mp ended).1]
      exact present
  | some argType =>
      cases known : substitutions.lookup typeParam with
      | some existing =>
          simp only [known] at ended
          rcases ends_ite.mp ended with ⟨-, ended⟩ | ⟨-, ended⟩
          · rw [(ends_pure.mp ended).1]
            exact present
          · rcases ends_bind.mp ended with ⟨_, _, _, _, -, returned, -⟩
            rw [(ends_pure.mp returned).1]
            exact present
      | none =>
          simp only [known] at ended
          rw [(ends_pure.mp ended).1]
          exact (AList.mem_insert _).mpr (.inr present)

theorem collectSubstitutions_keeps {typeParam : String} : (arguments : Arguments) →
    (paramTypes : List TypeInfo) → ∀ {known found : Substitutions} {before after : CheckState}
      {errors : List TypeCheckError},
      (collectSubstitutions location arguments paramTypes known).Ends before found after errors →
        typeParam ∈ known → typeParam ∈ found
  | [], _, known, found, before, after, errors, ended, present => by
      rw [collectSubstitutions] at ended
      · rw [(ends_pure.mp ended).1]
        exact present
      · simp
  | _ :: _, [], known, found, before, after, errors, ended, present => by
      rw [collectSubstitutions] at ended
      · rw [(ends_pure.mp ended).1]
        exact present
      · simp
  | (label, argument) :: rest, paramType :: paramTypes, known, found, before, after, errors, ended,
      present => by
      rw [collectSubstitutions] at ended
      split at ended
      · rcases ends_bind.mp ended with ⟨argType, _, _, _, -, ended, -⟩
        rcases ends_bind.mp ended with ⟨more, _, _, _, added, rested, -⟩
        exact collectSubstitutions_keeps rest paramTypes rested (addSubstitution_keeps added present)
      · exact collectSubstitutions_keeps rest paramTypes ended present

/-- The substitutions of some parameters go into those of the parameters behind them. -/
theorem collectSubstitutions_append {arguments : Arguments} {paramTypes : List TypeInfo} :
    (frontArguments : Arguments) → (front : List TypeInfo) →
      frontArguments.length = front.length →
      ∀ {known found : Substitutions} {before after : CheckState} {errors : List TypeCheckError},
        (collectSubstitutions location (frontArguments ++ arguments) (front ++ paramTypes)
          known).Ends before found after errors →
          ∃ middleFound middle frontErrors restErrors,
            (collectSubstitutions location frontArguments front known).Ends before middleFound
              middle frontErrors ∧
            (collectSubstitutions location arguments paramTypes middleFound).Ends middle found
              after restErrors
  | [], [], _, known, found, before, after, errors, ended => by
      refine ⟨known, before, [], errors, ?_, ended⟩
      rw [collectSubstitutions]
      · exact ends_pure.mpr ⟨rfl, rfl, rfl⟩
      · simp
  | (label, argument) :: rest, paramType :: front, lengths, known, found, before, after, errors,
      ended => by
      have restLengths : rest.length = front.length := Nat.succ.inj lengths
      rw [List.cons_append, List.cons_append, collectSubstitutions] at ended
      rw [collectSubstitutions]
      split at ended
      · rcases ends_bind.mp ended with ⟨argType, first, argErrors, _, inferred, ended, -⟩
        rcases ends_bind.mp ended with ⟨more, second, addErrors, _, added, rested, -⟩
        rcases collectSubstitutions_append rest front restLengths rested with
          ⟨middleFound, middle, frontErrors, restErrors, frontEnded, restEnded⟩
        refine ⟨middleFound, middle, argErrors ++ (addErrors ++ frontErrors), restErrors, ?_,
          restEnded⟩
        apply ends_bind.mpr
        refine ⟨argType, first, argErrors, addErrors ++ frontErrors, inferred, ?_, rfl⟩
        exact ends_bind.mpr ⟨more, second, addErrors, frontErrors, added, frontEnded, rfl⟩
      · exact collectSubstitutions_append rest front restLengths ended

/-- A type parameter that is the whole type of a parameter is found where its argument has a
type. -/
theorem collectSubstitutions_mem {frontArguments backArguments : Arguments}
    {front back : List TypeInfo} (lengths : frontArguments.length = front.length)
    {label : Option Identifier} {argument : Expression} {paramType argType : TypeInfo}
    {typeParam : String} (whole : paramType.kind = .generic typeParam)
    {known middleKnown : Substitutions} {middle next : CheckState}
    {frontErrors argErrors : List TypeCheckError}
    (frontEnded : (collectSubstitutions location frontArguments front known).Ends before
      middleKnown middle frontErrors)
    (typed : (inferExpression argument).Ends middle (some argType) next argErrors)
    (ended : (collectSubstitutions location (frontArguments ++ (label, argument) :: backArguments)
      (front ++ paramType :: back) known).Ends before found after errors) : typeParam ∈ found := by
  rcases collectSubstitutions_append frontArguments front lengths ended with
    ⟨_, _, _, _, frontAgain, rested⟩
  rcases frontEnded.unique frontAgain with ⟨rfl, rfl, -⟩
  rw [collectSubstitutions] at rested
  simp only [whole] at rested
  rcases ends_bind.mp rested with ⟨_, _, _, _, inferred, rested, -⟩
  rcases typed.unique inferred with ⟨rfl, rfl, -⟩
  rcases ends_bind.mp rested with ⟨_, _, _, _, added, rested, -⟩
  exact collectSubstitutions_keeps backArguments back rested (addSubstitution_mem added)

omit [UnicodeCase] in
/-- A type parameter that is mapped is not reported. -/
theorem checkTypeParams_silent {signature : FuncInfo} {substitutions : Substitutions}
    {typeParam : String} (mapped : typeParam ∈ substitutions)
    (ended : (checkTypeParams signature location substitutions).Ends before () after errors) :
    .cannotInferTypeParameter signature.name typeParam location ∉ errors := by
  unfold checkTypeParams at ended
  generalize signature.typeParams = typeParams at ended
  induction typeParams generalizing before errors with
  | nil =>
      rw [(ends_pure.mp ended).2.2]
      exact List.not_mem_nil
  | cons head tail induction =>
      rcases ends_bind.mp ended with ⟨_, _, _, _, first, rested, rfl⟩
      rw [List.mem_append, not_or]
      constructor
      · rcases ends_ite.mp first with ⟨-, passed⟩ | ⟨missing, reported⟩
        · rw [(ends_pure.mp passed).2.2]
          exact List.not_mem_nil
        · rw [(ends_report.mp reported).2, List.mem_singleton]
          intro equal
          cases equal
          exact missing mapped
      · exact induction rested

omit [UnicodeCase] in
theorem checkTypeParams_covers {signature : FuncInfo} {substitutions : Substitutions}
    {value : Unit}
    (accepted : (checkTypeParams signature location substitutions).Accepts before value after) :
    ∀ typeParam ∈ signature.typeParams, typeParam ∈ substitutions := by
  unfold checkTypeParams at accepted
  generalize signature.typeParams = typeParams at accepted ⊢
  induction typeParams generalizing before with
  | nil => exact fun _ member => nomatch member
  | cons head tail induction =>
      rcases accepts_bind.mp accepted with ⟨_, _, first, rested⟩
      rw [List.forall_mem_cons]
      constructor
      · rcases accepts_ite.mp first with ⟨mapped, -⟩ | ⟨-, reported⟩
        · exact mapped
        · exact (accepts_report.mp reported).elim
      · exact induction rested

/-! ## Substitutions of a call -/

/-- The types that explicit type arguments stand for. -/
def Environment.typeArgument (environment : Environment) (argument : Identifier) : TypeInfo :=
  (environment.lookupType argument.name).getD { kind := .custom argument.name, typeParams := [] }

theorem mem_explicitSubstitutions (environment : Environment) (name : String) :
    (typeParams : List String) → (typeArguments : List Identifier) →
      typeArguments.length = typeParams.length →
        (name ∈ environment.explicitSubstitutions typeParams typeArguments ↔ name ∈ typeParams) := by
  have folded : ∀ (typeParams : List String) (typeArguments : List Identifier)
      (known : Substitutions), typeArguments.length = typeParams.length →
        (name ∈ (typeParams.zip typeArguments).foldl (fun known pair =>
          known.insert pair.1 (environment.typeArgument pair.2)) known ↔
            name ∈ known ∨ name ∈ typeParams) := by
    intro typeParams
    induction typeParams with
    | nil => intro typeArguments known _; simp
    | cons head tail induction =>
        intro typeArguments known lengths
        cases typeArguments with
        | nil => cases lengths
        | cons first rest =>
            rw [List.zip_cons_cons, List.foldl_cons, induction rest _ (Nat.succ.inj lengths)]
            simp only [AList.mem_insert, List.mem_cons]
            tauto
  intro typeParams typeArguments lengths
  have unfolded := folded typeParams typeArguments ∅ lengths
  rw [Environment.explicitSubstitutions]
  exact unfolded.trans (or_iff_right (AList.notMem_empty name))

theorem lookup_explicitSubstitutions (environment : Environment) {name : String}
    {known : TypeInfo} {typeParams : List String} {typeArguments : List Identifier}
    (found : (environment.explicitSubstitutions typeParams typeArguments).lookup name =
      some known) : ∃ argument ∈ typeArguments, known = environment.typeArgument argument := by
  have folded : ∀ (pairs : List (String × Identifier)) (start : Substitutions),
      (pairs.foldl (fun known pair =>
        known.insert pair.1 (environment.typeArgument pair.2)) start).lookup name =
          some known →
        start.lookup name = some known ∨
          ∃ pair ∈ pairs, known = environment.typeArgument pair.2 := by
    intro pairs
    induction pairs with
    | nil => exact fun start found => .inl found
    | cons head tail induction =>
        intro start found
        rcases induction _ found with before | ⟨pair, member, equal⟩
        · by_cases same : name = head.1
          · subst same
            rw [AList.lookup_insert] at before
            exact .inr ⟨head, List.mem_cons_self, (Option.some.inj before).symm⟩
          · rw [AList.lookup_insert_ne same] at before
            exact .inl before
        · exact .inr ⟨pair, List.mem_cons_of_mem _ member, equal⟩
  rcases folded (typeParams.zip typeArguments) ∅ found with empty | ⟨pair, member, equal⟩
  · rw [AList.lookup_empty] at empty
    cases empty
  · exact ⟨pair.2, (List.of_mem_zip member).2, equal⟩

/-- The substitutions of a call without errors map every type parameter. -/
theorem callSubstitutions_covers {call : Node} {name : String} {signature : FuncInfo}
    {typeParameters : Option (List Identifier)} {arguments : Option Arguments}
    {substitutions : Substitutions}
    (accepted : (callSubstitutions call name signature typeParameters
      (inferTypeParamsFromArgs call.location arguments signature)).Accepts before substitutions
        after) :
    ∀ typeParam ∈ signature.typeParams, typeParam ∈ substitutions := by
  unfold callSubstitutions at accepted
  rcases accepts_ite.mp accepted with ⟨empty, -⟩ | ⟨notEmpty, accepted⟩
  · rw [List.isEmpty_iff.mp empty]
    exact fun _ member => nomatch member
  · cases typeParameters with
    | some typeArguments =>
        rcases accepts_ite.mp accepted with ⟨lengths, accepted⟩ | ⟨-, accepted⟩
        · rcases accepts_bind.mp accepted with ⟨table, middle, -, returned⟩
          rw [(accepts_pure.mp returned).1]
          exact fun typeParam => (mem_explicitSubstitutions _ _ _ _ lengths).mpr
        · rcases accepts_bind.mp accepted with ⟨_, _, reported, -⟩
          exact (accepts_report.mp reported).elim
    | none =>
        rcases accepts_bind.mp accepted with ⟨inferred, middle, infers, accepted⟩
        rcases accepts_ite.mp accepted with ⟨-, accepted⟩ | ⟨found, returned⟩
        · rcases accepts_bind.mp accepted with ⟨_, _, reported, -⟩
          exact (accepts_report.mp reported).elim
        · rw [(accepts_pure.mp returned).1]
          cases arguments with
          | none =>
              rw [(accepts_pure.mp infers).1] at found
              exact absurd rfl found
          | some arguments =>
              rcases accepts_bind.mp infers with ⟨collected, _, -, infers⟩
              rcases accepts_bind.mp infers with ⟨_, _, checked, returned⟩
              rw [(accepts_pure.mp returned).1]
              exact checkTypeParams_covers checked

/-! ## Full instantiation -/

/-- A call of `function` calls the function that has the signature by its name. -/
structure NamesFunction (before : CheckState) (function : Expression) (signature : FuncInfo) :
    Prop where
  noMethod : before.environment.associatedFunction function = none
  noReceiver : ∀ node receiver name, function ≠ .memberAccess node receiver name
  found : before.environment.lookupFunction (callName function) = some signature

/-- Every type parameter is mapped, and none is left in the return type: where the type of the call
mentions a type parameter of this name, it is one of the caller, and occurs in a type that a type
parameter is mapped to. -/
structure Instantiates (substitutions : Substitutions) (signature : FuncInfo) : Prop where
  mapped : ∀ typeParam ∈ signature.typeParams, typeParam ∈ substitutions
  replaced : ∀ typeParam ∈ signature.typeParams,
    Mentions typeParam (signature.returnType.substitute substitutions) →
      ∃ name known, substitutions.lookup name = some known ∧ Mentions typeParam known

/-- The argument has a type that the type of its parameter takes for some type in the place of the
type parameter. -/
def MatchesFor (typeParam : String) (paramType argType : TypeInfo) : Prop :=
  ∃ substitutions : Substitutions, typeParam ∈ substitutions ∧
    paramType.substitute substitutions = argType

/-- All calls of a function are instantiated. A call without errors records the return type under
substitutions for all type parameters. A type parameter that a parameter mentions is inferred from
its argument, if the type of the argument matches, and then no error is reported about it. -/
structure FullyInstantiated (signature : FuncInfo) : Prop where
  accepted : ∀ {before after node function typeParameters arguments value},
    NamesFunction before function signature →
    (inferExpression (.functionCall node function typeParameters arguments)).Accepts before value
      after →
    ∃ substitutions middle,
      (callSubstitutions node (callName function) signature typeParameters
        (inferTypeParamsFromArgs node.location arguments signature)).Accepts before substitutions
          middle ∧
      Instantiates substitutions signature ∧
      value = some (signature.returnType.substitute substitutions) ∧
      after.nodeTypes node.id = value
  inferred : ∀ {location typeParam front paramType back frontArguments label argument
      backArguments before known middle frontErrors argType next argErrors found after errors},
    typeParam ∈ signature.typeParams → signature.paramTypes = front ++ paramType :: back →
    frontArguments.length = front.length → Mentions typeParam paramType →
    (collectSubstitutions location frontArguments front ∅).Ends before known middle frontErrors →
    (inferExpression argument).Ends middle (some argType) next argErrors →
    MatchesFor typeParam paramType argType →
    (inferTypeParamsFromArgs location (some (frontArguments ++ (label, argument) :: backArguments))
      signature).Ends before found after errors →
    typeParam ∈ found ∧
      ∀ {initial final reported}, (checkTypeParams signature location found).Ends initial () final
        reported → .cannotInferTypeParameter signature.name typeParam location ∉ reported

/-- A type parameter that a parameter mentions is its whole type, and a substitution reaches all
type parameters in the return type. -/
structure Instantiable (signature : FuncInfo) : Prop where
  parameters : ∀ paramType ∈ signature.paramTypes, ∀ typeParam ∈ signature.typeParams,
    Mentions typeParam paramType → paramType.kind = .generic typeParam
  returnType : ∀ typeParam ∈ signature.typeParams,
    ¬Kept signature.typeParams typeParam signature.returnType

theorem inferExpression_callFunction {node : Node}
    {function : Expression} {typeParameters : Option (List Identifier)}
    {arguments : Option Arguments} {signature : FuncInfo} {value : Option TypeInfo}
    (named : NamesFunction before function signature)
    (accepted : (inferExpression (.functionCall node function typeParameters arguments)).Accepts
      before value after) :
    ∃ inferArguments, (callFunction node (callName function) typeParameters arguments
      inferArguments (inferTypeParamsFromArgs node.location arguments)).Accepts before value
        after := by
  unfold inferExpression at accepted
  rcases accepts_bind.mp accepted with ⟨table, middle, read, accepted⟩
  rcases getSymbolTable_accepts read with ⟨rfl, rfl⟩
  have noMethod : middle.symbolTable.environment.associatedFunction function = none :=
    named.noMethod
  simp only [noMethod] at accepted
  cases function with
  | memberAccess node receiver name => exact absurd rfl (named.noReceiver node receiver name)
  | _ => exact ⟨_, accepted⟩

theorem Instantiable.fullyInstantiated {signature : FuncInfo}
    (instantiable : Instantiable signature) : FullyInstantiated signature := by
  constructor
  · intro before after node function typeParameters arguments value named accepted
    rcases inferExpression_callFunction named accepted with ⟨inferArguments, called⟩
    rcases (callFunction_found_accepts named.found).mp called with
      ⟨-, -, substitutions, middle, last, substituted, -, recorded⟩
    have covers := callSubstitutions_covers substituted
    rcases recordType_accepts recorded with ⟨_, equal, rfl, rfl⟩
    cases equal
    refine ⟨substitutions, middle, substituted, ⟨covers, ?_⟩, rfl, ?_⟩
    · intro typeParam member mentioned
      rcases mentions_substitute member covers _ mentioned with kept | found
      · exact absurd kept (instantiable.returnType typeParam member)
      · exact found
    · exact Function.update_self _ _ _
  · intro location typeParam front paramType back frontArguments label argument backArguments
      before known middle frontErrors argType next argErrors found after errors member parameters
      lengths mentioned frontEnded typed _ ended
    have whole : paramType.kind = .generic typeParam := by
      apply instantiable.parameters paramType _ typeParam member mentioned
      rw [parameters]
      exact List.mem_append_right _ List.mem_cons_self
    rcases ends_bind.mp ended with ⟨collected, _, _, _, collecting, ended, -⟩
    rcases ends_bind.mp ended with ⟨_, _, _, _, -, returned, -⟩
    rw [(ends_pure.mp returned).1]
    rw [parameters] at collecting
    have mapped : typeParam ∈ collected :=
      collectSubstitutions_mem lengths whole frontEnded typed collecting
    exact ⟨mapped, checkTypeParams_silent mapped⟩

/-! ## Calls that are not instantiated -/

/-- A state with a single scope in which `callee` is a function and `argument` a variable. -/
def calleeState (signature : FuncInfo) (argType : TypeInfo) : CheckState where
  symbolTable := {
    scopes := AList.singleton signature.definitionScopeId {
      symbols := AList.singleton "callee" (.function signature)
      variables_ := AList.singleton "argument" argType
      id := signature.definitionScopeId
      name := "root"
      fullPath := ""
      visibility := .public_
      parent := none }
    rootScope := some signature.definitionScopeId
    currentScope := some signature.definitionScopeId
    nextScopeId := signature.definitionScopeId + 1 }

def callee : Expression :=
  .identifier { id := 1, name := "callee" }

def variableArgument : Option Identifier × Expression :=
  (none, .identifier { id := 2, name := "argument" })

/-- An argument for which no type is found. -/
def uzumakiArgument : Option Identifier × Expression :=
  (none, .uzumaki { id := 3 })

def callNode : Node :=
  { id := 4 }

section

variable {signature : FuncInfo} {argType : TypeInfo}

omit [UnicodeCase] in
private theorem lookup_singleton {key value : Type} [DecidableEq key] (name : key) (known : value) :
    (AList.singleton name known : AList fun _ : key => value).lookup name = some known := by
  rw [← AList.insert_empty, AList.lookup_insert]

omit [UnicodeCase] in
private theorem lookup_singleton_ne {key value : Type} [DecidableEq key] {name other : key}
    (known : value) (different : other ≠ name) :
    (AList.singleton name known : AList fun _ : key => value).lookup other = none := by
  rw [← AList.insert_empty, AList.lookup_insert_ne different, AList.lookup_empty]

omit [UnicodeCase] in
theorem calleeState_environment :
    (calleeState signature argType).environment =
      [{ symbols := AList.singleton "callee" (.function signature)
         variables_ := AList.singleton "argument" argType }] := by
  have current : (calleeState signature argType).symbolTable.chain =
      [{ symbols := AList.singleton "callee" (.function signature)
         variables_ := AList.singleton "argument" argType
         id := signature.definitionScopeId
         name := "root"
         fullPath := ""
         visibility := .public_
         parent := none }] := by
    simp only [SymbolTable.chain, calleeState, SymbolTable.ancestors, SymbolTable.getScope,
      lookup_singleton]
    cases signature.definitionScopeId <;> rfl
  rw [CheckState.environment, SymbolTable.environment, current]
  rfl

omit [UnicodeCase] in
theorem calleeState_names :
    NamesFunction (calleeState signature argType) callee signature := by
  constructor
  · rfl
  · exact fun _ _ _ equal => by cases equal
  · rw [calleeState_environment]
    simp [Environment.lookupFunction, Environment.lookupSymbol, callName, callee,
      lookup_singleton, Symbol.asFunction]

omit [UnicodeCase] in
theorem calleeState_visible (location : Location) :
    (checkAndReportVisibility signature.visibility signature.definitionScopeId location
      (.function "callee")).Accepts (calleeState signature argType) ()
        (calleeState signature argType) := by
  refine accepts_bind.mpr ⟨_, _, accepts_read.mpr ⟨rfl, rfl⟩, ?_⟩
  apply accepts_ite.mpr
  refine .inl ⟨?_, accepts_pure.mpr ⟨rfl, rfl⟩⟩
  cases visible : signature.visibility with
  | public_ => rfl
  | private_ =>
      simp [SymbolTable.checkVisibility, calleeState, SymbolTable.isScopeDescendantOf,
        SymbolTable.currentScopeId]

omit [UnicodeCase] in
theorem calleeState_variable : (calleeState signature argType).symbolTable.lookupVariable
    "argument" = some argType := by
  have frames : (calleeState signature argType).symbolTable.environment = _ :=
    calleeState_environment
  rw [SymbolTable.lookupVariable, frames]
  simp [Environment.lookupVariable, lookup_singleton]

theorem calleeState_lookupType (name : String) :
    (calleeState signature argType).environment.lookupType name = none := by
  have nothing : ∀ text, ((calleeState signature argType).environment.lookupSymbol text).bind
      Symbol.asTypeInfo = none := by
    intro text
    rw [calleeState_environment]
    by_cases same : text = "callee"
    · subst same
      simp [Environment.lookupSymbol, lookup_singleton, Symbol.asTypeInfo]
    · simp [Environment.lookupSymbol, lookup_singleton_ne _ same]
  rw [Environment.lookupType]
  cases found : (calleeState signature argType).environment.lookupSymbol name with
  | none => exact nothing _
  | some symbol =>
      have here := nothing name
      rw [found] at here
      exact here

def uzumakiArguments (paramTypes : List TypeInfo) : Arguments :=
  paramTypes.map fun _ => uzumakiArgument

/-- Type arguments that are the names of no types. -/
def typeArguments (signature : FuncInfo) : List Identifier :=
  signature.typeParams.map fun _ => { id := 5, name := "Int" }

theorem inferArgumentList_uzumaki (state : CheckState) : (paramTypes : List TypeInfo) →
    (inferArgumentList (uzumakiArguments paramTypes)).Accepts state () state
  | [] => by
      rw [uzumakiArguments, List.map_nil, inferArgumentList]
      exact accepts_pure.mpr ⟨rfl, rfl⟩
  | _ :: rest => by
      rw [uzumakiArguments, List.map_cons, uzumakiArgument, inferArgumentList, inferExpression]
      exact accepts_bind.mpr ⟨_, state, accepts_read.mpr ⟨rfl, rfl⟩,
        inferArgumentList_uzumaki state rest⟩

theorem explicitCall_accepted (signature : FuncInfo) (argType : TypeInfo) :
    ∃ value after, (inferExpression (.functionCall callNode callee (some (typeArguments signature))
      (some (uzumakiArguments signature.paramTypes)))).Accepts (calleeState signature argType)
        value after := by
  have named : NamesFunction (calleeState signature argType) callee signature := calleeState_names
  have substituted : ∃ substitutions, (callSubstitutions callNode "callee" signature
      (some (typeArguments signature)) (inferTypeParamsFromArgs callNode.location
        (some (uzumakiArguments signature.paramTypes)) signature)).Accepts
          (calleeState signature argType) substitutions (calleeState signature argType) := by
    have lengths : (typeArguments signature).length = signature.typeParams.length :=
      List.length_map _
    unfold callSubstitutions
    by_cases empty : signature.typeParams.isEmpty = true
    · exact ⟨∅, accepts_ite.mpr (.inl ⟨empty, accepts_pure.mpr ⟨rfl, rfl⟩⟩)⟩
    · refine ⟨(calleeState signature argType).environment.explicitSubstitutions
        signature.typeParams (typeArguments signature), ?_⟩
      refine accepts_ite.mpr (.inr ⟨empty, accepts_ite.mpr (.inl ⟨lengths, ?_⟩)⟩)
      exact accepts_bind.mpr ⟨_, _, accepts_read.mpr ⟨rfl, rfl⟩, accepts_pure.mpr ⟨rfl, rfl⟩⟩
  rcases substituted with ⟨substitutions, substituted⟩
  have counted : argumentsMismatch (some (uzumakiArguments signature.paramTypes)) signature =
      false := by
    simp [argumentsMismatch, uzumakiArguments]
  have called : ∀ inferArguments : CheckM Unit,
      inferArguments.Accepts (calleeState signature argType) () (calleeState signature argType) →
        (callFunction callNode "callee" (some (typeArguments signature))
          (some (uzumakiArguments signature.paramTypes)) inferArguments
          (inferTypeParamsFromArgs callNode.location
            (some (uzumakiArguments signature.paramTypes)))).Accepts
              (calleeState signature argType)
              (some (signature.returnType.substitute substitutions))
              ((calleeState signature argType).setNodeType callNode.id
                (signature.returnType.substitute substitutions)) := by
    intro inferArguments inferred
    apply (callFunction_found_accepts named.found).mpr
    refine ⟨calleeState_visible _, counted, substitutions, _, _, substituted, inferred, ?_⟩
    exact accepts_bind.mpr ⟨(), _, accepts_update.mpr rfl, accepts_pure.mpr ⟨rfl, rfl⟩⟩
  refine ⟨some (signature.returnType.substitute substitutions),
    (calleeState signature argType).setNodeType callNode.id
      (signature.returnType.substitute substitutions), ?_⟩
  unfold inferExpression
  exact accepts_bind.mpr ⟨_, _, accepts_read.mpr ⟨rfl, rfl⟩,
    called _ (inferArgumentList_uzumaki _ _)⟩

/-- Where the return type keeps a type parameter, the type of a call keeps it. -/
theorem FullyInstantiated.returnType {signature : FuncInfo}
    (instantiated : FullyInstantiated signature) {typeParam : String}
    (member : typeParam ∈ signature.typeParams) :
    ¬Kept signature.typeParams typeParam signature.returnType := by
  intro kept
  rcases explicitCall_accepted signature default with ⟨value, after, accepted⟩
  rcases instantiated.accepted calleeState_names accepted with
    ⟨substitutions, middle, substituted, instantiates, -, -⟩
  have explicit : substitutions = (calleeState signature default).environment.explicitSubstitutions
      signature.typeParams (typeArguments signature) := by
    rcases callSubstitutions_accepts substituted with
      ⟨-, ⟨empty, -⟩ | ⟨-, arguments, same, equal⟩⟩ | ⟨-, impossible, -⟩
    · rw [List.isEmpty_iff.mp empty] at member
      cases member
    · cases same
      exact equal
    · cases impossible
  have mentioned : Mentions typeParam (signature.returnType.substitute substitutions) := by
    apply kept.substitute
    intro name known
    rw [explicit] at known
    exact (mem_explicitSubstitutions _ _ _ _ (List.length_map _)).mp known
  rcases instantiates.replaced typeParam member mentioned with ⟨name, known, found, inKnown⟩
  rw [explicit] at found
  rcases lookup_explicitSubstitutions _ found with ⟨argument, inArguments, rfl⟩
  rw [Environment.typeArgument, calleeState_lookupType] at inKnown
  cases inKnown with
  | parameter inEmpty => cases inEmpty

/-- No type parameter is found from an argument without a type. -/
theorem collectSubstitutions_uzumaki {location : Location} {state after : CheckState}
    (unrecorded : state.nodeTypes 3 = none) {arguments : Arguments} {paramTypes : List TypeInfo}
    {known found : Substitutions} {errors : List TypeCheckError}
    (ended : (collectSubstitutions location arguments paramTypes known).Ends state found after
      errors) : (front : List TypeInfo) →
    (collectSubstitutions location (uzumakiArguments front ++ arguments) (front ++ paramTypes)
      known).Ends state found after errors
  | [] => ended
  | first :: rest => by
      have rested := collectSubstitutions_uzumaki unrecorded ended rest
      rw [uzumakiArguments, List.map_cons, List.cons_append, List.cons_append, uzumakiArgument,
        collectSubstitutions]
      split
      · have untyped : (inferExpression (.uzumaki { id := 3 })).Ends state none state [] := by
          rw [inferExpression]
          exact ends_read.mpr ⟨unrecorded.symm, rfl, rfl⟩
        refine ends_bind.mpr ⟨none, state, [], errors, untyped, ?_, rfl⟩
        exact ends_bind.mpr ⟨known, state, [], errors, ends_pure.mpr ⟨rfl, rfl, rfl⟩, rested, rfl⟩
      · exact rested

theorem collectSubstitutions_nil {location : Location} {state : CheckState}
    {known : Substitutions} : (collectSubstitutions location [] [] known).Ends state known state
      [] := by
  rw [collectSubstitutions]
  · exact ends_pure.mpr ⟨rfl, rfl, rfl⟩
  · simp

/-- The type of the argument is that of the variable. -/
theorem variableArgument_typed (signature : FuncInfo) (argType : TypeInfo) :
    (inferExpression variableArgument.2).Ends (calleeState signature argType) (some argType)
      ((calleeState signature argType).setNodeType 2 argType) [] := by
  rw [variableArgument, inferExpression, inferIdentifier]
  refine ends_bind.mpr ⟨_, _, [], [], ends_read.mpr ⟨rfl, rfl, rfl⟩, ?_, rfl⟩
  rw [show (calleeState signature argType).symbolTable.lookupVariable "argument" = some argType
    from calleeState_variable]
  exact ends_bind.mpr ⟨(), _, [], [], ends_update.mpr ⟨rfl, rfl⟩, ends_pure.mpr ⟨rfl, rfl, rfl⟩,
    rfl⟩

/-- A parameter of which the type parameter is only a part leaves it unknown. -/
theorem collectSubstitutions_misses {location : Location} {signature : FuncInfo}
    {argType paramType : TypeInfo} {typeParam : String}
    (part : paramType.kind ≠ .generic typeParam) (back : List TypeInfo) :
    ∃ found after, (collectSubstitutions location (variableArgument :: uzumakiArguments back)
      (paramType :: back) ∅).Ends (calleeState signature argType) found after [] ∧
        typeParam ∉ found := by
  have behind : ∀ (state : CheckState), state.nodeTypes 3 = none → ∀ known,
      (collectSubstitutions location (uzumakiArguments back) back known).Ends state known state
        [] := by
    intro state unrecorded known
    have nothing : (collectSubstitutions location [] [] known).Ends state known state [] :=
      collectSubstitutions_nil
    have ended := collectSubstitutions_uzumaki unrecorded nothing back
    rwa [List.append_nil, List.append_nil] at ended
  rw [variableArgument, collectSubstitutions]
  split
  · rename_i other isOther
    have different : typeParam ≠ other := by
      rintro rfl
      exact part isOther
    refine ⟨(∅ : Substitutions).insert other argType,
      (calleeState signature argType).setNodeType 2 argType, ?_, ?_⟩
    · refine ends_bind.mpr ⟨_, _, [], [], variableArgument_typed signature argType, ?_, rfl⟩
      refine ends_bind.mpr ⟨_, _, [], [], ends_pure.mpr ⟨rfl, rfl, rfl⟩, ?_, rfl⟩
      exact behind _ rfl _
    · rw [AList.mem_insert, not_or]
      exact ⟨different, AList.notMem_empty _⟩
  · exact ⟨∅, calleeState signature argType, behind _ rfl ∅, AList.notMem_empty _⟩

/-- Where a type parameter is a part of the type of a parameter, it is not found. -/
theorem FullyInstantiated.parameters {signature : FuncInfo}
    (instantiated : FullyInstantiated signature) {paramType : TypeInfo}
    (isParam : paramType ∈ signature.paramTypes) {typeParam : String}
    (member : typeParam ∈ signature.typeParams) (mentioned : Mentions typeParam paramType) :
    paramType.kind = .generic typeParam := by
  by_contra part
  rcases List.append_of_mem isParam with ⟨front, back, split⟩
  have matching : MatchesFor typeParam paramType (paramType.substitute
      ((∅ : Substitutions).insert typeParam { kind := .number .i32, typeParams := [] })) :=
    ⟨_, (AList.mem_insert _).mpr (.inl rfl), rfl⟩
  generalize paramType.substitute ((∅ : Substitutions).insert typeParam
    { kind := .number .i32, typeParams := [] }) = argType at matching
  have lengths : (uzumakiArguments front).length = front.length := List.length_map _
  rcases collectSubstitutions_misses part back with ⟨found, after, rested, missing⟩
  have collected := collectSubstitutions_uzumaki rfl rested front
  have checked : ∃ final reported, (checkTypeParams signature {} found).Ends after () final
      reported := by
    have returned := ((checkTypeParams_returns signature {} found).outcome after).mpr trivial
    rcases Option.isSome_iff_exists.mp returned with ⟨⟨_, final, reported⟩, ended⟩
    exact ⟨final, reported, ended⟩
  rcases checked with ⟨final, reported, checked⟩
  have inferred : (inferTypeParamsFromArgs {} (some (uzumakiArguments front ++ variableArgument ::
      uzumakiArguments back)) signature).Ends (calleeState signature argType) found final
        reported := by
    rw [inferTypeParamsFromArgs, split]
    refine ends_bind.mpr ⟨found, after, [], reported, collected, ?_, rfl⟩
    exact ends_bind.mpr ⟨(), final, reported, [], checked, ends_pure.mpr ⟨rfl, rfl, rfl⟩,
      (List.append_nil _).symm⟩
  have nothing : (collectSubstitutions {} [] [] ∅).Ends (calleeState signature argType) ∅
      (calleeState signature argType) [] :=
    collectSubstitutions_nil
  have frontEnded := collectSubstitutions_uzumaki rfl nothing front
  rw [List.append_nil, List.append_nil] at frontEnded
  have found := instantiated.inferred member split lengths mentioned frontEnded
    (variableArgument_typed signature argType) matching inferred
  exact missing found.1

end

/-- All calls of a function are instantiated if and only if its parameters mention a type parameter
only as their whole type and its return type only where a substitution reaches it. -/
theorem fullyInstantiated_iff (signature : FuncInfo) :
    FullyInstantiated signature ↔ Instantiable signature := by
  constructor
  · intro instantiated
    constructor
    · intro paramType isParam typeParam member mentioned
      exact instantiated.parameters isParam member mentioned
    · intro typeParam member
      exact instantiated.returnType member
  · exact Instantiable.fullyInstantiated

end

/-- `fn first<T>(arr: [T; 2]) -> T` -/
def firstSignature : FuncInfo where
  name := "first"
  typeParams := ["T"]
  paramTypes := [⟨.array ⟨.generic "T", []⟩ 2, []⟩]
  returnType := ⟨.generic "T", []⟩
  visibility := .private_
  definitionScopeId := 0

/-- The element type of an array is not inferred. -/
theorem firstSignature_notInstantiated : ¬FullyInstantiated firstSignature := by
  intro instantiated
  have whole := instantiated.parameters List.mem_cons_self List.mem_cons_self
    (.element .itself)
  cases whole

end Inference.TypeChecker
