import Inference.TypeChecker.ExpressionInference

/-! # The inference finds the types of the language

A run of the inference without errors is read along the expression. What it returns and records is
what the language says about the expression, and no call in it has the wrong number of arguments.
-/

namespace Inference.TypeChecker

open Inference.Ast Inference.Foundation Inference.Foundation.Collecting

/-! ## Parts of the sites -/

section Parts

variable {sites others : List Site} {site : Site}

theorem Distinct.inside (distinct : Distinct (site :: sites)) : Distinct sites :=
  (List.nodup_cons.mp distinct).2

theorem Distinct.fresh (distinct : Distinct (site :: sites)) : site.id ∉ sites.map Site.id :=
  (List.nodup_cons.mp distinct).1

theorem Distinct.left (distinct : Distinct (sites ++ others)) : Distinct sites := by
  rw [Distinct, List.map_append] at distinct
  exact (List.nodup_append.mp distinct).1

theorem Distinct.right (distinct : Distinct (sites ++ others)) : Distinct others := by
  rw [Distinct, List.map_append] at distinct
  exact (List.nodup_append.mp distinct).2.1

theorem Distinct.disjoint (distinct : Distinct (sites ++ others)) :
    ∀ other ∈ others, other.id ∉ sites.map Site.id := by
  rw [Distinct, List.map_append] at distinct
  intro other member found
  exact (List.nodup_append.mp distinct).2.2 _ found _ (List.mem_map_of_mem member) rfl

theorem Distinct.disjoint' (distinct : Distinct (sites ++ others)) :
    ∀ other ∈ sites, other.id ∉ others.map Site.id := by
  rw [Distinct, List.map_append] at distinct
  intro other member found
  exact (List.nodup_append.mp distinct).2.2 _ (List.mem_map_of_mem member) _ found rfl

variable [UnicodeCase] {before middle : CheckState}

theorem Ready.inside (ready : Ready before (site :: sites)) : Ready before sites :=
  ready.subset fun _ member => List.mem_cons_of_mem _ member

theorem Ready.left (ready : Ready before (sites ++ others)) : Ready before sites :=
  ready.subset fun _ member => List.mem_append_left _ member

/-- The second part is ready behind the first one. -/
theorem Ready.right (ready : Ready before (sites ++ others)) (distinct : Distinct (sites ++ others))
    (outcome : Outcome sites before middle) : Ready middle others :=
  (ready.subset fun _ member => List.mem_append_right _ member).after_outcome outcome
    distinct.disjoint

end Parts

section Agreement

variable [UnicodeCase] {environment : Environment}

/-- A step of the inference over arguments keeps to them. -/
theorem Visits.refl {arguments : List (Option Identifier × Expression)} {state : CheckState}
    (ready : ReadyArguments environment state arguments) :
    Visits environment arguments state state :=
  ⟨rfl, rfl, fun _ _ => rfl, ready⟩

theorem ReadyArguments.tail {name : Option Identifier} {argument : Expression}
    {rest : List (Option Identifier × Expression)} {state : CheckState}
    (ready : ReadyArguments environment state ((name, argument) :: rest)) :
    ReadyArguments environment state rest :=
  fun other member => ready other (List.mem_cons_of_mem _ member)

/-- Visiting the first argument leaves the others ready. -/
theorem ReadyArguments.after {name : Option Identifier} {argument : Expression}
    {rest : List (Option Identifier × Expression)} {before middle : CheckState}
    (ready : ReadyArguments environment before ((name, argument) :: rest))
    (distinct : Distinct (argumentSites environment ((name, argument) :: rest)))
    (outcome : Outcome (expressionSites environment argument) before middle) :
    ReadyArguments environment middle rest := by
  rw [argumentSites] at distinct
  intro other member
  refine (ready other (List.mem_cons_of_mem _ member)).after_outcome outcome ?_
  intro site siteMember
  exact distinct.disjoint site (mem_argumentSites.mpr ⟨other, member, siteMember⟩)

/-- One argument visited, then some of the others. -/
theorem Visits.cons {name : Option Identifier} {argument : Expression}
    {rest : List (Option Identifier × Expression)} {before middle after : CheckState}
    (distinct : Distinct (argumentSites environment ((name, argument) :: rest)))
    (outcome : Outcome (expressionSites environment argument) before middle)
    (visits : Visits environment rest middle after) :
    Visits environment ((name, argument) :: rest) before after := by
  rw [argumentSites] at distinct
  refine ⟨visits.table.trans outcome.table, visits.keys.trans outcome.keys, ?_, ?_⟩
  · intro nodeId outside
    rw [argumentSites, List.map_append, List.mem_append, not_or] at outside
    rw [visits.within nodeId outside.2]
    exact outcome.extended.same nodeId (by rw [entry_ids]; exact outside.1)
  · intro other member
    rcases List.mem_cons.mp member with rfl | member
    · exact (Ready.visited outcome).of_same fun site siteMember =>
        visits.within site.id (distinct.disjoint' site siteMember)
    · exact visits.ready other member

/-- An argument that is passed over, then some of the others. -/
theorem Visits.skip {name : Option Identifier} {argument : Expression}
    {rest : List (Option Identifier × Expression)} {before after : CheckState}
    (distinct : Distinct (argumentSites environment ((name, argument) :: rest)))
    (ready : ReadyArguments environment before ((name, argument) :: rest))
    (visits : Visits environment rest before after) :
    Visits environment ((name, argument) :: rest) before after := by
  rw [argumentSites] at distinct
  refine ⟨visits.table, visits.keys, ?_, ?_⟩
  · intro nodeId outside
    rw [argumentSites, List.map_append, List.mem_append, not_or] at outside
    exact visits.within nodeId outside.2
  · intro other member
    rcases List.mem_cons.mp member with rfl | member
    · exact (ready _ List.mem_cons_self).of_same fun site siteMember =>
        visits.within site.id (distinct.disjoint' site siteMember)
    · exact visits.ready other member

/-! ## Along the expression -/

/-- Without errors the inference finds the type of the expression and records those of its sites. -/
def Agreeing (environment : Environment) (expression : Expression) : Prop :=
  ∀ ⦃before after : CheckState⦄ ⦃value : Option TypeInfo⦄, Clean environment before →
    Distinct (expressionSites environment expression) →
      Ready before (expressionSites environment expression) →
        (inferExpression expression).Accepts before value after →
          Infers environment expression before value after

/-- A type recorded before, or else the inference of a cached node. -/
theorem agrees_cached {expression : Expression} {node : Node} {infer : CheckM (Option TypeInfo)}
    {inside : List Site} {before after : CheckState} {value : Option TypeInfo}
    (isNode : expression.id = node.id)
    (sites : expressionSites environment expression = .inferred environment expression :: inside)
    (ready : Ready before (expressionSites environment expression))
    (accepted : (cached node infer).Accepts before value after)
    (fresh : before.nodeTypes node.id = none → infer.Accepts before value after →
      Infers environment expression before value after) :
    Infers environment expression before value after := by
  rcases cached_accepts accepted with ⟨known, recorded, rfl, rfl⟩ | ⟨unrecorded, accepted⟩
  · exact .of_recorded sites ready (isNode ▸ recorded)
  · exact fresh unrecorded accepted

/-- A type is recorded before the sites inside are visited. -/
theorem Outcome.recordFirst {sites : List Site} {site : Site} {known : TypeInfo}
    {before after : CheckState} (fresh : site.id ∉ sites.map Site.id)
    (recorded : site.recorded = some known) (checked : site.Checked)
    (outcome : Outcome sites (before.setNodeType site.id known) after) :
    Outcome (site :: sites) before after := by
  refine ⟨outcome.table, outcome.keys, ⟨?_, ?_⟩, ?_⟩
  · intro entry member
    rcases List.mem_cons.mp member with rfl | member
    · have kept := outcome.extended.same site.id (by rw [entry_ids]; exact fresh)
      refine kept.trans ?_
      rw [Site.entry, recorded]
      exact Function.update_self _ _ _
    · exact outcome.extended.holds entry member
  · intro nodeId outside
    rw [List.map_cons, List.map_cons, List.mem_cons, not_or] at outside
    exact (outcome.extended.same nodeId outside.2).trans (Function.update_of_ne outside.1 _ _)
  · intro other member
    rcases List.mem_cons.mp member with rfl | member
    · exact checked
    · exact outcome.checked other member

/-- An access to a variant through an expression that names no enum. -/
theorem variantSites {node : Node} {expression : Expression} {name : Identifier}
    (notType : ∀ type, expression ≠ .type_ type)
    (notIdentifier : ∀ identifier, expression ≠ .identifier identifier) :
    expressionSites environment (.typeMemberAccess node expression name) =
        .inferred environment (.typeMemberAccess node expression name) ::
          expressionSites environment expression ∧
      environment.typeOf (.typeMemberAccess node expression name) =
        (environment.typeOf expression).bind (environment.variantTypeOf name) ∧
      untyped (.typeMemberAccess node expression name) = untyped expression := by
  rw [expressionSites.eq_def, Environment.typeOf.eq_def, untyped.eq_def]
  cases expression with
  | type_ type => exact absurd rfl (notType type)
  | identifier identifier => exact absurd rfl (notIdentifier identifier)
  | _ => exact ⟨rfl, rfl, rfl⟩

omit [UnicodeCase] in
theorem compareElement_accepts {node : Node} {expected : TypeInfo} {found : Option TypeInfo}
    {before after : CheckState} {value : Unit}
    (accepted : (compareElement node expected found).Accepts before value after) :
    (found.all fun type => decide (type = expected)) = true ∧ after = before := by
  cases found with
  | none => exact ⟨rfl, (accepts_pure.mp accepted).2⟩
  | some found =>
      simp only [compareElement, pushError, accepts_ite, accepts_pure, accepts_report] at accepted
      rcases accepted with ⟨same, _, unchanged⟩ | ⟨_, impossible⟩
      · exact ⟨decide_eq_true same, unchanged⟩
      · exact impossible.elim

/-! ## Calls -/

/-- The sites of the function of a call. -/
def functionPart (environment : Environment) (function : Expression)
    (typeParameters : Option (List Identifier)) (arguments : Option Arguments) : List Site :=
  match function with
  | .memberAccess functionNode receiver name =>
      functionSite environment (.memberAccess functionNode receiver name)
          (environment.resolveCall (.memberAccess functionNode receiver name) typeParameters
            arguments) ::
        expressionSites environment receiver
  | .typeMemberAccess functionNode expression name =>
      functionSite environment (.typeMemberAccess functionNode expression name)
          (environment.resolveCall (.typeMemberAccess functionNode expression name) typeParameters
            arguments) ::
        skippedSites environment expression.nodes
  | function => skippedSites environment function.nodes

theorem callSites (environment : Environment) (node : Node) (function : Expression)
    (typeParameters : Option (List Identifier)) (arguments : Option Arguments) :
    expressionSites environment (.functionCall node function typeParameters arguments) =
      .inferred environment (.functionCall node function typeParameters arguments) ::
        (functionPart environment function typeParameters arguments ++
          argumentSites environment (arguments.getD [])) := by
  cases function <;> cases arguments <;>
    simp only [expressionSites, functionPart, Option.getD_some, Option.getD_none, argumentSites]

theorem optionArgumentTypes_eq (arguments : Option Arguments) :
    environment.optionArgumentTypes arguments =
      environment.argumentTypes (arguments.getD []) := by
  cases arguments <;> rfl

/-- A call that names no method is resolved by the name of its function. -/
theorem resolveCall_function {function : Expression} (typeParameters : Option (List Identifier))
    (arguments : Option Arguments) (noMethod : environment.associatedFunction function = none)
    (noReceiver : ∀ node receiver name, function ≠ .memberAccess node receiver name) :
    environment.resolveCall function typeParameters arguments =
      (environment.lookupFunction (callName function)).map fun signature =>
        environment.ofFunction signature typeParameters
          (environment.argumentTypes (arguments.getD [])) := by
  rw [Environment.resolveCall, optionArgumentTypes_eq, Environment.resolve.eq_def, noMethod]
  cases function with
  | memberAccess node receiver name => exact absurd rfl (noReceiver node receiver name)
  | _ => rfl

theorem functionPart_skipped {function : Expression} {typeParameters : Option (List Identifier)}
    {arguments : Option Arguments}
    (noMethod : environment.associatedFunction function = none)
    (noReceiver : ∀ node receiver name, function ≠ .memberAccess node receiver name) :
    ∃ expressions, functionPart environment function typeParameters arguments =
      skippedSites environment expressions := by
  have resolved := resolveCall_function typeParameters arguments noMethod noReceiver
  cases function with
  | memberAccess node receiver name => exact absurd rfl (noReceiver node receiver name)
  | typeMemberAccess node expression name =>
      refine ⟨.typeMemberAccess node expression name :: expression.nodes, ?_⟩
      rw [functionPart, functionSite, resolved]
      cases environment.lookupFunction (callName (.typeMemberAccess node expression name)) <;> rfl
  | _ => exact ⟨_, rfl⟩

/-- The arguments of a call are inferred, or they have been. -/
def ArgumentsAgree (environment : Environment) (arguments : Option Arguments)
    (inferArguments : CheckM Unit) : Prop :=
  ∀ {start last : CheckState}, Clean environment start →
    ReadyArguments environment start (arguments.getD []) → inferArguments.Accepts start () last →
      Outcome (argumentSites environment (arguments.getD [])) start last

/-- The substitutions that are found are those that the types of the arguments determine. -/
def ParamsAgree (environment : Environment) (arguments : Option Arguments)
    (inferTypeParams : FuncInfo → CheckM Substitutions) : Prop :=
  ∀ (signature : FuncInfo) {start last : CheckState} {found : Substitutions},
    Clean environment start → ReadyArguments environment start (arguments.getD []) →
      (inferTypeParams signature).Accepts start found last →
        found = inferredSubstitutions (environment.argumentTypes (arguments.getD []))
            signature.paramTypes ∅ ∧
          Visits environment (arguments.getD []) start last

section Calling

variable {node : Node} {function : Expression} {typeParameters : Option (List Identifier)}
  {arguments : Option Arguments} {inferArguments : CheckM Unit}
  {inferTypeParams : FuncInfo → CheckM Substitutions} {before middle last after : CheckState}
  {value : Option TypeInfo}

theorem callFunction_agrees
    (noMethod : environment.associatedFunction function = none)
    (noReceiver : ∀ node receiver name, function ≠ .memberAccess node receiver name)
    (clean : Clean environment before)
    (distinct : Distinct
      (expressionSites environment (.functionCall node function typeParameters arguments)))
    (ready : Ready before
      (expressionSites environment (.functionCall node function typeParameters arguments)))
    (argumentsAgree : ArgumentsAgree environment arguments inferArguments)
    (paramsAgree : ParamsAgree environment arguments inferTypeParams)
    (accepted : (callFunction node (callName function) typeParameters arguments inferArguments
      inferTypeParams).Accepts before value after) :
    Infers environment (.functionCall node function typeParameters arguments) before value
      after := by
  have sites := callSites environment node function typeParameters arguments
  have parts := (sites ▸ distinct).inside
  have inside := (sites ▸ ready).inside
  rcases functionPart_skipped noMethod noReceiver with ⟨expressions, isSkipped⟩
  have skipped : Outcome (functionPart environment function typeParameters arguments) before
      before := by
    have ready' := inside.left
    rw [isSkipped] at ready' ⊢
    exact .skipped ready'
  have readyArguments : ReadyArguments environment before (arguments.getD []) :=
    .of_ready (inside.right parts skipped)
  rcases callFunction_accepts clean.keys accepted with
    ⟨signature, substitutions, middle, last, found, counted, substituted, inferred, records⟩
  rw [clean.environment] at found
  have resolved : environment.resolveCall function typeParameters arguments =
      some (environment.ofFunction signature typeParameters
        (environment.argumentTypes (arguments.getD []))) := by
    rw [resolveCall_function typeParameters arguments noMethod noReceiver, found]
    rfl
  -- The first pass over the arguments of a generic function finds its type arguments.
  have passed : substitutions = environment.substitutionsOf signature typeParameters
        (environment.argumentTypes (arguments.getD [])) ∧
      Visits environment (arguments.getD []) before middle := by
    rw [Environment.substitutionsOf.eq_def]
    rcases callSubstitutions_accepts substituted with
      ⟨rfl, ⟨empty, rfl⟩ | ⟨notEmpty, typeArguments, rfl, rfl⟩⟩ | ⟨notEmpty, rfl, inferredParams⟩
    · rw [if_pos empty]
      exact ⟨rfl, .refl readyArguments⟩
    · rw [notEmpty, if_neg Bool.false_ne_true, clean.environment]
      exact ⟨rfl, .refl readyArguments⟩
    · rw [notEmpty, if_neg Bool.false_ne_true]
      exact paramsAgree signature clean readyArguments inferredParams
  have outcome := passed.2.outcome
    (argumentsAgree (clean.after passed.2.table passed.2.keys) passed.2.ready inferred)
  refine .of_records sites distinct (skipped.append parts outcome) ?_ ?_ ?_
  · rw [Environment.typeOf_functionCall, resolved, Option.map_some, Environment.ofFunction,
      ← passed.1]
    exact records
  · rw [untyped.eq_def]
    cases function with
    | memberAccess node receiver name => exact absurd rfl (noReceiver node receiver name)
    | _ => rfl
  · intro found' same hasArguments
    rw [resolved] at same
    cases same
    rcases hasArguments with hasArguments | recorded
    · cases arguments with
      | none => cases hasArguments
      | some arguments =>
          simpa [argumentsMismatch, argumentCount, Environment.ofFunction] using counted
    · cases recorded

/-- A call of a method that was found, whose function gets the name of the method. -/
theorem callsMethod_agrees {resolved : ResolvedCall} {functionNode : Node} {name : String}
    {functionSites : List Site}
    (isPart : functionPart environment function typeParameters arguments =
      functionSite environment function (environment.resolveCall function typeParameters
        arguments) :: functionSites)
    (isResolved : environment.resolveCall function typeParameters arguments = some resolved)
    (isRecorded : resolved.recorded = some (functionNode, name))
    (isNode : functionNode.id = function.id)
    (typed : untyped (.functionCall node function typeParameters arguments) = false)
    (distinct : Distinct
      (expressionSites environment (.functionCall node function typeParameters arguments)))
    (ready : Ready before
      (expressionSites environment (.functionCall node function typeParameters arguments)))
    (clean : Clean environment middle)
    (outcome : Outcome functionSites before middle)
    (argumentsAgree : ArgumentsAgree environment arguments inferArguments)
    (calls : CallsMethod node resolved arguments inferArguments middle value after) :
    Infers environment (.functionCall node function typeParameters arguments) before value
      after := by
  have sites := callSites environment node function typeParameters arguments
  rw [isPart, List.cons_append] at sites
  have parts := (sites ▸ distinct).inside
  have inside := (sites ▸ ready).inside
  have isSite : functionSite environment function (environment.resolveCall function typeParameters
      arguments) = .preset environment function (functionTypeInfo name) := by
    rw [functionSite, isResolved, Option.bind_some, isRecorded]
  rcases calls with ⟨functionNode', name', last, recorded, counted, inferred, records⟩
  rw [isRecorded] at recorded
  cases recorded
  have readyArguments : ReadyArguments environment middle (arguments.getD []) :=
    .of_ready (inside.inside.right parts.inside outcome)
  have both := outcome.append parts.inside (argumentsAgree clean readyArguments inferred)
  have noted := both.record parts.fresh (by rw [isSite]; rfl) (by rw [isSite]; trivial)
  refine .of_records sites distinct noted ?_ typed ?_
  · rw [isSite, Environment.typeOf_functionCall, isResolved, Option.map_some]
    rw [isNode] at records
    exact records
  · intro found same _
    rw [isResolved] at same
    cases same
    exact counted

theorem inferCall_agrees (clean : Clean environment before)
    (distinct : Distinct
      (expressionSites environment (.functionCall node function typeParameters arguments)))
    (ready : Ready before
      (expressionSites environment (.functionCall node function typeParameters arguments)))
    (argumentsAgree : ArgumentsAgree environment arguments inferArguments)
    (paramsAgree : ParamsAgree environment arguments inferTypeParams)
    (inReceiver : ∀ functionNode receiver name,
      function = .memberAccess functionNode receiver name → Agreeing environment receiver)
    (accepted : (do
      let environment := (← getSymbolTable).environment
      match environment.associatedFunction function with
      | some (functionNode, typeName, methodName, method) =>
          callAssociated node functionNode typeName methodName method arguments inferArguments
      | none =>
          match function with
          | .memberAccess functionNode receiver name =>
              match ← inferExpression receiver with
              | some receiverType =>
                  callOnReceiver node functionNode name receiverType arguments inferArguments
              | none =>
                  inferArguments
                  return none
          | function =>
              callFunction node (callName function) typeParameters arguments inferArguments
                inferTypeParams).Accepts before value after) :
    Infers environment (.functionCall node function typeParameters arguments) before value
      after := by
  rcases accepts_bind.mp accepted with ⟨table, middle, read, accepted⟩
  rcases getSymbolTable_accepts read with ⟨rfl, rfl⟩
  have same : middle.symbolTable.environment = environment := clean.environment
  dsimp only at accepted
  rw [same] at accepted
  have sites := callSites environment node function typeParameters arguments
  have parts := (sites ▸ distinct).inside
  have inside := (sites ▸ ready).inside
  cases associated : environment.associatedFunction function with
  | some named =>
      rcases named with ⟨functionNode, typeName, methodName, method⟩
      rw [associated] at accepted
      have resolved : environment.resolveCall function typeParameters arguments =
          some (.ofMethod functionNode typeName methodName method) := by
        rw [Environment.resolveCall, Environment.resolve.eq_def, associated]
      cases function with
      | typeMemberAccess node' expression name =>
          have isNode : functionNode = node' := by
            rw [Environment.associatedFunction] at associated
            split at associated
            · split at associated
              · cases associated
              · rcases Option.map_eq_some_iff.mp associated with ⟨_, _, equal⟩
                cases equal
                rfl
            · cases associated
          subst isNode
          exact callsMethod_agrees rfl resolved rfl rfl (by rw [untyped.eq_def]) distinct ready clean
            (.skipped inside.left.inside) argumentsAgree (callAssociated_accepts accepted)
      | _ => cases associated
  | none =>
      rw [associated] at accepted
      cases function with
      | memberAccess functionNode receiver name =>
          rcases accepts_bind.mp accepted with ⟨receiverType, last, receiverAccepted, accepted⟩
          have found := inReceiver functionNode receiver name rfl clean parts.left.inside
            inside.left.inside receiverAccepted
          have resolution : environment.resolveCall (.memberAccess functionNode receiver name)
              typeParameters arguments = receiverType.bind fun receiverType =>
                (environment.structName receiverType).bind fun typeName =>
                  (environment.lookupMethod typeName name.name).map
                    (ResolvedCall.ofMethod functionNode typeName name.name) := by
            rw [Environment.resolveCall, Environment.resolve.eq_def, associated,
              Environment.receiverType, ← found.value]
          have typeless : untyped (.functionCall node (.memberAccess functionNode receiver name)
              typeParameters arguments) = receiverType.isNone := by
            rw [untyped]
            exact found.untyped_eq
          have cleanLast := found.outcome.clean clean
          cases receiverType with
          | none =>
              rcases accepts_bind.mp accepted with ⟨_, final, inferred, accepted⟩
              rcases accepts_pure.mp accepted with ⟨rfl, rfl⟩
              have isSite : functionSite environment (.memberAccess functionNode receiver name)
                  (environment.resolveCall (.memberAccess functionNode receiver name)
                    typeParameters arguments) =
                  .skipped environment (.memberAccess functionNode receiver name) := by
                rw [functionSite, resolution]
                rfl
              have readyArguments : ReadyArguments environment last (arguments.getD []) := by
                refine .of_ready (Ready.right ?_ (Distinct.inside parts) found.outcome)
                exact Ready.inside inside
              have both := found.outcome.append (Distinct.inside parts)
                (argumentsAgree cleanLast readyArguments inferred)
              refine .of_none sites ready distinct (both.keep (Distinct.fresh parts) ?_ ?_ ?_) ?_
                rfl
                typeless ?_
              · rw [isSite]
                have member : (functionNode.id, (none : Option TypeInfo)) ∈
                    (functionPart environment (.memberAccess functionNode receiver name)
                      typeParameters arguments).map Site.entry := by
                  rw [functionPart, isSite]
                  exact List.mem_cons_self
                rcases inside.left with unset | ⟨holds, _⟩
                · exact unset _ member
                · exact holds _ member
              · rw [isSite]
                rfl
              · rw [isSite]
                trivial
              · rw [Environment.typeOf_functionCall, resolution]
                rfl
              · intro found' equal _
                rw [resolution] at equal
                cases equal
          | some receiverType =>
              rcases callOnReceiver_accepts accepted with ⟨resolved, isResolved, calls⟩
              rw [cleanLast.environment] at isResolved
              have isResolved' := resolution.trans isResolved
              rcases Option.bind_eq_some_iff.mp isResolved with ⟨typeName, _, isMethod⟩
              rcases Option.map_eq_some_iff.mp isMethod with ⟨method, _, rfl⟩
              exact callsMethod_agrees rfl isResolved' rfl rfl typeless distinct ready cleanLast
                found.outcome argumentsAgree calls
      | _ =>
          exact callFunction_agrees associated (fun _ _ _ equal => by cases equal) clean distinct
            ready argumentsAgree paramsAgree accepted

end Calling

/-! ## Expressions -/

section Constructors

variable {node : Node} {name : Identifier} {expression left right array index : Expression}

theorem arrayIndexAccess_agrees (inArray : Agreeing environment array)
    (inIndex : Agreeing environment index) :
    Agreeing environment (.arrayIndexAccess node array index) := by
  intro before after value clean distinct ready accepted
  have sites : expressionSites environment (.arrayIndexAccess node array index) =
      .inferred environment (.arrayIndexAccess node array index) ::
        (expressionSites environment array ++
          (if untyped array then skippedSites environment index.nodes
          else expressionSites environment index)) := by
    rw [expressionSites]
  rw [inferExpression] at accepted
  refine agrees_cached rfl sites ready accepted fun unrecorded accepted => ?_
  have parts := sites ▸ distinct
  have inside := (sites ▸ ready).inside
  rcases accepts_bind.mp accepted with ⟨arrayType, middle, arrayAccepted, accepted⟩
  have found := inArray clean parts.inside.left inside.left arrayAccepted
  have next := inside.right parts.inside found.outcome
  have outcome {last : CheckState} (later : Outcome
      (if untyped array then skippedSites environment index.nodes
        else expressionSites environment index) middle last) :=
    found.outcome.append parts.inside later
  cases arrayType with
  | none =>
      rcases accepts_pure.mp accepted with ⟨rfl, rfl⟩
      have isUntyped : untyped array = true := found.untyped_eq
      rw [if_pos isUntyped] at next outcome
      refine .of_none sites ready distinct ?_ ?_ rfl ?_ trivial
      · rw [if_pos isUntyped]
        exact outcome (Outcome.skipped next)
      · rw [Environment.typeOf, ← found.value]
        rfl
      · rw [untyped]
        exact isUntyped
  | some arrayType =>
      have isTyped : untyped array = false := found.untyped_eq
      rw [isTyped, if_neg Bool.false_ne_true] at next outcome
      rcases accepts_bind.mp accepted with ⟨indexType, last, indexAccepted, accepted⟩
      rcases accepts_bind.mp accepted with ⟨_, checked, indexChecked, accepted⟩
      rcases checkIndexType_accepts indexChecked with ⟨isNumber, same⟩
      cases same
      have right := parts.inside.right
      rw [isTyped, if_neg Bool.false_ne_true] at right
      have foundIndex := inIndex (found.outcome.clean clean) right next indexAccepted
      have records : RecordsType last node.id
          (environment.typeOf (.arrayIndexAccess node array index)) value after := by
        rw [Environment.typeOf, found.typed, Option.bind_some, ← foundIndex.value, indexedType,
          if_pos isNumber]
        exact elementAccess_accepts accepted
      refine .of_records sites distinct ?_ records ?_ trivial
      · rw [isTyped, if_neg Bool.false_ne_true]
        exact outcome foundIndex.outcome
      · rw [untyped]
        exact isTyped

theorem memberAccess_agrees (inside : Agreeing environment expression) :
    Agreeing environment (.memberAccess node expression name) := by
  intro before after value clean distinct ready accepted
  have sites : expressionSites environment (.memberAccess node expression name) =
      .inferred environment (.memberAccess node expression name) ::
        expressionSites environment expression := by
    rw [expressionSites]
  rw [inferExpression] at accepted
  refine agrees_cached rfl sites ready accepted fun unrecorded accepted => ?_
  rcases accepts_bind.mp accepted with ⟨objectType, middle, objectAccepted, accepted⟩
  have found := inside clean (sites ▸ distinct).inside (sites ▸ ready).inside objectAccepted
  rcases withType_accepts accepted with ⟨rfl, rfl, rfl⟩ | ⟨known, rfl, accepted⟩
  · refine .of_none sites ready distinct found.outcome ?_ rfl ?_ trivial
    · rw [Environment.typeOf, ← found.value]
      rfl
    · rw [untyped]
      exact found.untyped_eq
  · refine .of_records sites distinct found.outcome ?_ ?_ trivial
    · have same := (found.outcome.clean clean).environment
      have records := fieldAccess_accepts accepted
      rw [same] at records
      rw [Environment.typeOf, found.typed]
      exact records
    · rw [untyped]
      exact found.untyped_eq

theorem typeMemberAccess_agrees (inner : Agreeing environment expression) :
    Agreeing environment (.typeMemberAccess node expression name) := by
  intro before after value clean distinct ready accepted
  unfold inferExpression at accepted
  rcases expressionSites_head environment (.typeMemberAccess node expression name) with
    ⟨inside, sites⟩
  refine agrees_cached rfl sites ready accepted fun unrecorded accepted => ?_
  have parts := (sites ▸ distinct).inside
  have readyInside := (sites ▸ ready).inside
  have records {enumName : String}
      (accepted : (variantAccess node enumName name).Accepts before value after) :
      RecordsType before node.id (environment.variantType enumName name) value after := by
    rw [← clean.environment]
    exact variantAccess_accepts clean.keys accepted
  split at accepted
  · rename_i identifier
    rw [expressionSites, List.cons.injEq] at sites
    rcases sites with ⟨_, rfl⟩
    exact .of_records (by rw [expressionSites]) distinct (.skipped readyInside)
      (by rw [Environment.typeOf]; exact records accepted) (by rw [untyped]) trivial
  · rcases accepts_bind.mp accepted with ⟨_, _, _, failed⟩
    exact absurd failed failWith_accepts
  · rename_i identifier
    rw [expressionSites, List.cons.injEq] at sites
    rcases sites with ⟨_, rfl⟩
    exact .of_records (by rw [expressionSites]) distinct (.skipped readyInside)
      (by rw [Environment.typeOf]; exact records accepted) (by rw [untyped]) trivial
  · rename_i notCustom notType notIdentifier
    rcases variantSites notType notIdentifier with ⟨sites', type, typeless⟩
    rw [sites', List.cons.injEq] at sites
    rcases sites with ⟨_, rfl⟩
    rcases accepts_bind.mp accepted with ⟨exprType, middle, innerAccepted, accepted⟩
    have found := inner clean parts readyInside innerAccepted
    rcases withType_accepts accepted with ⟨rfl, rfl, rfl⟩ | ⟨known, rfl, accepted⟩
    · refine .of_none sites' ready distinct found.outcome ?_ rfl ?_ trivial
      · rw [type, ← found.value]
        rfl
      · rw [typeless]
        exact found.untyped_eq
    · have cleanMiddle := found.outcome.clean clean
      have recorded := variantOfType_accepts cleanMiddle.keys accepted
      rw [cleanMiddle.environment] at recorded
      refine .of_records sites' distinct found.outcome ?_ ?_ trivial
      · rw [type, found.typed]
        exact recorded
      · rw [typeless]
        exact found.untyped_eq

theorem struct_agrees {fields : Option (List (Identifier × Expression))} :
    Agreeing environment (.struct_ node name fields) := by
  intro before after value clean distinct ready accepted
  rw [inferExpression] at accepted
  rcases expressionSites_head environment (.struct_ node name fields) with ⟨inside, sites⟩
  refine agrees_cached rfl sites ready accepted fun unrecorded accepted => ?_
  have readyInside := (sites ▸ ready).inside
  have records := structLiteral_accepts clean.keys accepted
  rw [clean.environment] at records
  have outcome : Outcome inside before before := by
    rw [expressionSites.eq_def] at sites
    cases fields with
    | none =>
        cases sites
        exact .nil
    | some fields =>
        cases sites
        exact .skipped readyInside
  exact .of_records sites distinct outcome (by rw [Environment.typeOf]; exact records)
    (by rw [untyped]) trivial

theorem prefixUnary_agrees {operator : UnaryOperatorKind}
    (inside : Agreeing environment expression) :
    Agreeing environment (.prefixUnary node expression operator) := by
  intro before after value clean distinct ready accepted
  have sites : expressionSites environment (.prefixUnary node expression operator) =
      .inferred environment (.prefixUnary node expression operator) ::
        expressionSites environment expression := by
    rw [expressionSites]
  rw [inferExpression] at accepted
  rcases accepts_bind.mp accepted with ⟨operandType, middle, operandAccepted, accepted⟩
  have found := inside clean (sites ▸ distinct).inside (sites ▸ ready).inside operandAccepted
  rcases withType_accepts accepted with ⟨rfl, rfl, rfl⟩ | ⟨known, rfl, accepted⟩
  · refine .of_none sites ready distinct found.outcome ?_ rfl ?_ trivial
    · rw [Environment.typeOf, ← found.value]
      rfl
    · rw [untyped]
      exact found.untyped_eq
  · refine .of_records sites distinct found.outcome ?_ ?_ trivial
    · rw [Environment.typeOf, found.typed]
      exact applyUnary_accepts accepted
    · rw [untyped]
      exact found.untyped_eq

theorem parenthesized_agrees (inside : Agreeing environment expression) :
    Agreeing environment (.parenthesized node expression) := by
  intro before after value clean distinct ready accepted
  have sites : expressionSites environment (.parenthesized node expression) =
      .inferred environment (.parenthesized node expression) ::
        expressionSites environment expression := by
    rw [expressionSites]
  rw [inferExpression] at accepted
  rcases accepts_bind.mp accepted with ⟨foundType, middle, innerAccepted, accepted⟩
  have found := inside clean (sites ▸ distinct).inside (sites ▸ ready).inside innerAccepted
  rcases withType_accepts accepted with ⟨rfl, rfl, rfl⟩ | ⟨known, rfl, accepted⟩
  · refine .of_none sites ready distinct found.outcome ?_ rfl ?_ trivial
    · rw [Environment.typeOf, ← found.value]
    · rw [untyped]
      exact found.untyped_eq
  · refine .of_records sites distinct found.outcome ?_ ?_ trivial
    · rw [Environment.typeOf, found.typed]
      exact recordType_accepts accepted
    · rw [untyped]
      exact found.untyped_eq

theorem binary_agrees {operator : OperatorKind} (inLeft : Agreeing environment left)
    (inRight : Agreeing environment right) :
    Agreeing environment (.binary node left operator right) := by
  intro before after value clean distinct ready accepted
  have sites : expressionSites environment (.binary node left operator right) =
      .inferred environment (.binary node left operator right) ::
        (expressionSites environment left ++ expressionSites environment right) := by
    rw [expressionSites]
  rw [inferExpression] at accepted
  refine agrees_cached rfl sites ready accepted fun unrecorded accepted => ?_
  have parts := (sites ▸ distinct).inside
  have inside := (sites ▸ ready).inside
  rcases accepts_bind.mp accepted with ⟨leftType, middle, leftAccepted, accepted⟩
  rcases accepts_bind.mp accepted with ⟨rightType, last, rightAccepted, accepted⟩
  have foundLeft := inLeft clean parts.left inside.left leftAccepted
  have foundRight := inRight (foundLeft.outcome.clean clean) parts.right
    (inside.right parts foundLeft.outcome) rightAccepted
  have outcome := foundLeft.outcome.append parts foundRight.outcome
  have typeless : untyped (.binary node left operator right) =
      (leftType.isNone || rightType.isNone) := by
    rw [untyped, foundLeft.untyped_eq, foundRight.untyped_eq]
  have type : environment.typeOf (.binary node left operator right) =
      leftType.bind fun leftType => rightType.bind (binaryType operator leftType) := by
    rw [Environment.typeOf, ← foundLeft.value, ← foundRight.value]
  cases leftType with
  | none =>
      rcases accepts_pure.mp accepted with ⟨rfl, rfl⟩
      exact .of_none sites ready distinct outcome type rfl typeless trivial
  | some leftType =>
      cases rightType with
      | none =>
          rcases accepts_pure.mp accepted with ⟨rfl, rfl⟩
          exact .of_none sites ready distinct outcome type rfl typeless trivial
      | some rightType =>
          refine .of_records sites distinct outcome ?_ typeless trivial
          rw [type]
          exact applyBinary_accepts accepted

theorem identifier_agrees {identifier : Identifier} :
    Agreeing environment (.identifier identifier) := by
  intro before after value clean distinct ready accepted
  have sites : expressionSites environment (.identifier identifier) =
      [.inferred environment (.identifier identifier)] := by
    rw [expressionSites]
  rw [inferExpression] at accepted
  have records := inferIdentifier_accepts clean.keys accepted
  rw [clean.environment] at records
  exact .of_records sites distinct .nil (by rw [Environment.typeOf]; exact records)
    (by rw [untyped]) trivial

theorem uzumaki_agrees : Agreeing environment (.uzumaki node) := by
  intro before after value clean distinct ready accepted
  have sites : expressionSites environment (.uzumaki node) =
      [.inferred environment (.uzumaki node)] := by
    rw [expressionSites]
  rw [inferExpression, getNodeTypeinfo, accepts_read] at accepted
  rcases accepted with ⟨isValue, rfl⟩
  have noType : environment.typeOf (.uzumaki node) = none := by
    rw [Environment.typeOf]
  have member : (node.id, environment.typeOf (.uzumaki node)) ∈
      (expressionSites environment (.uzumaki node)).map Site.entry := by
    rw [sites]
    exact List.mem_cons_self
  have unset : after.nodeTypes node.id = none := by
    rcases ready with unset | ⟨holds, _⟩
    · exact unset _ member
    · exact (holds _ member).trans noType
  exact .of_none sites ready distinct .nil noType (isValue.trans unset) (by rw [untyped]) trivial

theorem type_agrees {type : Type_}
    (inSize : ∀ node elementType size, type = .array node elementType size →
      Agreeing environment size) :
    Agreeing environment (.type_ type) := by
  intro before after value clean distinct ready accepted
  rcases expressionSites_head environment (.type_ type) with ⟨inside, sites⟩
  rw [inferExpression] at accepted
  rcases accepts_bind.mp accepted with ⟨typeInfo, start, known, behind⟩
  rcases accepts_expect.mp known with ⟨isNew, isStart⟩
  rw [isStart] at behind
  rcases accepts_bind.mp behind with ⟨_, middle, isRecorded, rest⟩
  have isMiddle : middle = before.setNodeType type.id typeInfo := accepts_update.mp isRecorded
  have type_ : environment.typeOf (.type_ type) = some typeInfo := by
    rw [Environment.typeOf]
    exact isNew
  have isTyped : untyped (.type_ type) = false := by
    rw [untyped]
  have checked : (Site.inferred environment (.type_ type)).Checked :=
    ⟨by simp [type_, isTyped], trivial⟩
  have parts := sites ▸ distinct
  have readyInside : Ready middle inside := by
    rw [isMiddle]
    refine (sites ▸ ready).inside.of_same fun site member => Function.update_of_ne ?_ _ _
    intro same
    refine parts.fresh ?_
    change type.id ∈ inside.map Site.id
    rw [← same]
    exact List.mem_map_of_mem member
  have cleanMiddle : Clean environment middle := by
    rw [isMiddle]
    exact ⟨clean.environment, clean.keys⟩
  have ends (inner : Outcome inside middle after) (isValue : value = some typeInfo) :
      Infers environment (.type_ type) before value after := by
    refine ⟨isValue.trans type_.symm, ?_⟩
    rw [sites]
    rw [isMiddle] at inner
    exact .recordFirst parts.fresh type_ checked inner
  rw [expressionSites.eq_def] at sites
  cases type with
  | array node elementType size =>
      rw [List.cons.injEq] at sites
      rcases sites with ⟨_, rfl⟩
      rcases accepts_bind.mp rest with ⟨sizeType, last, sizeAccepted, returned⟩
      rcases accepts_pure.mp returned with ⟨isValue, rfl⟩
      have skipped : Outcome (skippedSites environment elementType.nodes) middle middle :=
        .skipped readyInside.left
      have found := inSize node elementType size rfl cleanMiddle parts.inside.right
        (readyInside.right parts.inside skipped) sizeAccepted
      exact ends (skipped.append parts.inside found.outcome) isValue
  | _ =>
      rw [List.cons.injEq] at sites
      rcases sites with ⟨_, rfl⟩
      rcases accepts_pure.mp rest with ⟨isValue, rfl⟩
      exact ends (.skipped readyInside) isValue

end Constructors

/-! ## Literals -/

/-- The elements behind the first one are compared with its type. -/
theorem compareElements_agrees {node : Node} {elementType : TypeInfo} {rest : List Expression}
    (each : ∀ element ∈ rest, Agreeing environment element) {before after : CheckState}
    (clean : Clean environment before) (distinct : Distinct (expressionListSites environment rest))
    (ready : Ready before (expressionListSites environment rest))
    (accepted : (compareElements node elementType rest).Accepts before () after) :
    environment.allHaveType elementType rest = true ∧
      Outcome (expressionListSites environment rest) before after := by
  induction rest generalizing before with
  | nil =>
      rw [compareElements] at accepted
      rcases accepts_pure.mp accepted with ⟨_, rfl⟩
      rw [expressionListSites]
      exact ⟨by rw [Environment.allHaveType], .nil⟩
  | cons element rest induction =>
      rw [compareElements] at accepted
      rw [expressionListSites] at distinct ready ⊢
      rcases accepts_bind.mp accepted with ⟨foundType, middle, elementAccepted, accepted⟩
      rcases accepts_bind.mp accepted with ⟨_, _, compared, accepted⟩
      rcases compareElement_accepts compared with ⟨hasType, same⟩
      cases same
      have found := each element List.mem_cons_self clean distinct.left ready.left elementAccepted
      rcases induction (fun other member => each other (List.mem_cons_of_mem _ member))
        (found.outcome.clean clean) distinct.right (ready.right distinct found.outcome) accepted
        with ⟨haveType, outcome⟩
      refine ⟨?_, found.outcome.append distinct outcome⟩
      rw [Environment.allHaveType, ← found.value, hasType, haveType, Bool.and_self]

theorem noElements_agrees {node : Node} : Agreeing environment (.literal (.array node none)) := by
  intro before after value clean distinct ready accepted
  have sites : expressionSites environment (.literal (.array node none)) =
      [.inferred environment (.literal (.array node none))] := by
    rw [expressionSites, literalSites.eq_def]
  rw [inferExpression] at accepted
  unfold inferLiteral at accepted
  refine agrees_cached rfl sites ready accepted fun unrecorded accepted => ?_
  rcases accepts_pure.mp accepted with ⟨rfl, rfl⟩
  exact .of_none sites ready distinct .nil
    (by rw [Environment.typeOf, Environment.literalType.eq_def]) rfl
    (by rw [untyped, untypedLiteral.eq_def]) trivial

/-- A list without elements is a panic. -/
theorem emptyElements_agrees {node : Node} :
    Agreeing environment (.literal (.array node (some []))) := by
  intro before after value clean distinct ready accepted
  have sites : expressionSites environment (.literal (.array node (some []))) =
      [.inferred environment (.literal (.array node (some [])))] := by
    rw [expressionSites, literalSites.eq_def]
  rw [inferExpression] at accepted
  unfold inferLiteral at accepted
  refine agrees_cached rfl sites ready accepted fun unrecorded accepted => ?_
  exact (accepts_abort.mp accepted).elim

theorem array_agrees {node : Node} {first : Expression} {rest : List Expression}
    (inFirst : Agreeing environment first)
    (inRest : ∀ element ∈ rest, Agreeing environment element) :
    Agreeing environment (.literal (.array node (some (first :: rest)))) := by
  intro before after value clean distinct ready accepted
  have sites : expressionSites environment (.literal (.array node (some (first :: rest)))) =
      .inferred environment (.literal (.array node (some (first :: rest)))) ::
        (expressionSites environment first ++
          (if untyped first then skippedSites environment (expressionListNodes rest)
          else expressionListSites environment rest)) := by
    rw [expressionSites, literalSites.eq_def]
  rw [inferExpression] at accepted
  unfold inferLiteral at accepted
  refine agrees_cached rfl sites ready accepted fun unrecorded accepted => ?_
  have parts := (sites ▸ distinct).inside
  have inside := (sites ▸ ready).inside
  rcases accepts_bind.mp accepted with ⟨elementType, middle, firstAccepted, accepted⟩
  have found := inFirst clean parts.left inside.left firstAccepted
  have next := inside.right parts found.outcome
  have type : environment.typeOf (.literal (.array node (some (first :: rest)))) =
      elementType.bind fun elementType =>
        if environment.allHaveType elementType rest then
          some { kind := .array elementType ((rest.length + 1) % 2 ^ 32), typeParams := [] }
        else
          none := by
    rw [Environment.typeOf, Environment.literalType.eq_def, found.value]
  have typeless : untyped (.literal (.array node (some (first :: rest)))) =
      elementType.isNone := by
    rw [untyped, untypedLiteral.eq_def]
    exact found.untyped_eq
  have firstTyped := found.untyped_eq
  cases elementType with
  | none =>
      rcases accepts_pure.mp accepted with ⟨rfl, rfl⟩
      have skipped := parts
      rw [firstTyped, Option.isNone_none, if_pos rfl] at next skipped sites
      exact .of_none sites ready distinct (found.outcome.append skipped (.skipped next)) type rfl
        typeless trivial
  | some elementType =>
      rcases accepts_bind.mp accepted with ⟨_, last, compared, accepted⟩
      rw [firstTyped, Option.isNone_some, if_neg Bool.false_ne_true] at next parts sites
      rcases compareElements_agrees inRest (found.outcome.clean clean) parts.right next compared
        with ⟨haveType, compares⟩
      refine .of_records sites distinct (found.outcome.append parts compares) ?_ typeless trivial
      rw [type, Option.bind_some, if_pos haveType]
      exact recordType_accepts accepted

/-- A literal without parts has its type recorded anew. -/
theorem recorded_agrees {literal : Literal} {node : Node} {known : TypeInfo}
    (infers : inferExpression (.literal literal) = recordType node known)
    (isNode : (Expression.literal literal).id = node.id)
    (sites : expressionSites environment (.literal literal) =
      [.inferred environment (.literal literal)])
    (type : environment.typeOf (.literal literal) = some known)
    (typed : untyped (.literal literal) = false) :
    Agreeing environment (.literal literal) := by
  intro before after value clean distinct ready accepted
  rw [infers] at accepted
  refine .of_records sites distinct .nil ?_ typed trivial
  rw [type, isNode]
  exact recordType_accepts accepted

theorem number_agrees {node : Node} {content : String} :
    Agreeing environment (.literal (.number node content)) := by
  intro before after value clean distinct ready accepted
  have sites : expressionSites environment (.literal (.number node content)) =
      [.inferred environment (.literal (.number node content))] := by
    rw [expressionSites, literalSites]
  rw [inferExpression, inferLiteral] at accepted
  refine agrees_cached rfl sites ready accepted fun unrecorded accepted => ?_
  exact .of_records sites distinct .nil
    (by rw [Environment.typeOf, Environment.literalType]; exact recordType_accepts accepted)
    (by rw [untyped, untypedLiteral]) trivial

/-! ## Arguments -/

theorem inferArgumentList_agrees {arguments : List (Option Identifier × Expression)}
    (each : ∀ argument ∈ arguments, Agreeing environment argument.2) {before after : CheckState}
    (clean : Clean environment before) (distinct : Distinct (argumentSites environment arguments))
    (ready : ReadyArguments environment before arguments)
    (accepted : (inferArgumentList arguments).Accepts before () after) :
    Outcome (argumentSites environment arguments) before after := by
  induction arguments generalizing before with
  | nil =>
      rw [inferArgumentList] at accepted
      rcases accepts_pure.mp accepted with ⟨_, rfl⟩
      rw [argumentSites]
      exact .nil
  | cons argument rest induction =>
      rcases argument with ⟨name, argument⟩
      rw [inferArgumentList] at accepted
      rcases accepts_bind.mp accepted with ⟨argType, middle, argumentAccepted, accepted⟩
      have parts := distinct
      rw [argumentSites] at parts ⊢
      have found := each _ List.mem_cons_self clean parts.left (ready _ List.mem_cons_self)
        argumentAccepted
      exact found.outcome.append parts
        (induction (fun other member => each other (List.mem_cons_of_mem _ member))
          (found.outcome.clean clean) parts.right (ready.after distinct found.outcome) accepted)

theorem collectSubstitutions_agrees {location : Location}
    {arguments : List (Option Identifier × Expression)}
    (each : ∀ argument ∈ arguments, Agreeing environment argument.2)
    {paramTypes : List TypeInfo} {substitutions found : Substitutions} {before after : CheckState}
    (clean : Clean environment before) (distinct : Distinct (argumentSites environment arguments))
    (ready : ReadyArguments environment before arguments)
    (accepted : (collectSubstitutions location arguments paramTypes substitutions).Accepts before
      found after) :
    found = inferredSubstitutions (environment.argumentTypes arguments) paramTypes substitutions ∧
      Visits environment arguments before after := by
  induction arguments generalizing paramTypes substitutions before with
  | nil =>
      rw [collectSubstitutions.eq_def] at accepted
      rcases accepts_pure.mp accepted with ⟨rfl, rfl⟩
      rw [Environment.argumentTypes, inferredSubstitutions.eq_def]
      exact ⟨rfl, .refl ready⟩
  | cons argument rest induction =>
      have later := fun other member => each other (List.mem_cons_of_mem argument member)
      cases paramTypes with
      | nil =>
          rw [collectSubstitutions.eq_def] at accepted
          rcases accepts_pure.mp accepted with ⟨rfl, rfl⟩
          rw [inferredSubstitutions.eq_def]
          refine ⟨?_, .refl ready⟩
          cases environment.argumentTypes (argument :: rest) <;> rfl
      | cons paramType paramTypes =>
          rcases argument with ⟨name, argument⟩
          rw [collectSubstitutions] at accepted
          rw [Environment.argumentTypes, inferredSubstitutions]
          have parts := distinct
          rw [argumentSites] at parts
          cases isGeneric : paramType.kind with
          | generic typeParamName =>
              simp only [isGeneric] at accepted
              rcases accepts_bind.mp accepted with ⟨argType, middle, argumentAccepted, accepted⟩
              rcases accepts_bind.mp accepted with ⟨known, last, added, collected⟩
              rcases addSubstitution_accepts added with ⟨rfl, rfl⟩
              have inferred := each _ List.mem_cons_self clean parts.left
                (ready _ List.mem_cons_self) argumentAccepted
              rcases induction later (inferred.outcome.clean clean) parts.right
                (ready.after distinct inferred.outcome) collected with ⟨rfl, visits⟩
              rw [← inferred.value]
              exact ⟨rfl, visits.cons distinct inferred.outcome⟩
          | _ =>
              simp only [isGeneric] at accepted
              rcases induction later clean parts.right ready.tail accepted with ⟨rfl, visits⟩
              exact ⟨rfl, visits.skip distinct ready⟩

theorem functionCall_agrees {node : Node} {function : Expression}
    {typeParameters : Option (List Identifier)} {arguments : Option Arguments}
    (inReceiver : ∀ functionNode receiver name,
      function = .memberAccess functionNode receiver name → Agreeing environment receiver)
    (inArguments : ∀ argument ∈ arguments.getD [], Agreeing environment argument.2) :
    Agreeing environment (.functionCall node function typeParameters arguments) := by
  intro before after value clean distinct ready accepted
  have parts := (callSites environment node function typeParameters arguments ▸ distinct).inside
  unfold inferExpression at accepted
  refine inferCall_agrees clean distinct ready ?_ ?_ inReceiver accepted
  · intro start last cleanStart readyArguments inferred
    cases arguments with
    | none =>
        rcases accepts_pure.mp inferred with ⟨_, rfl⟩
        exact .nil
    | some arguments =>
        exact inferArgumentList_agrees inArguments cleanStart parts.right readyArguments inferred
  · intro signature start last found cleanStart readyArguments inferred
    cases arguments with
    | none =>
        rcases accepts_pure.mp inferred with ⟨rfl, rfl⟩
        refine ⟨?_, .refl readyArguments⟩
        rw [Option.getD_none, Environment.argumentTypes, inferredSubstitutions.eq_def]
    | some arguments =>
        rcases accepts_bind.mp inferred with ⟨collected, middle, collecting, inferred⟩
        rcases accepts_bind.mp inferred with ⟨_, _, checked, returned⟩
        cases checkTypeParams_accepts checked
        rcases accepts_pure.mp returned with ⟨rfl, rfl⟩
        exact collectSubstitutions_agrees inArguments cleanStart parts.right readyArguments
          collecting

/-! ## All expressions -/

mutual

theorem inferExpression_agrees : (expression : Expression) → Agreeing environment expression
  | .arrayIndexAccess _ array index =>
      arrayIndexAccess_agrees (inferExpression_agrees array) (inferExpression_agrees index)
  | .memberAccess _ expression _ => memberAccess_agrees (inferExpression_agrees expression)
  | .typeMemberAccess _ expression _ =>
      typeMemberAccess_agrees (inferExpression_agrees expression)
  | .functionCall _ function _ none =>
      functionCall_agrees (receiver_agrees function) fun _ member => absurd member List.not_mem_nil
  | .functionCall _ function _ (some arguments) =>
      functionCall_agrees (receiver_agrees function) (arguments_agree arguments)
  | .struct_ _ _ _ => struct_agrees
  | .prefixUnary _ expression _ => prefixUnary_agrees (inferExpression_agrees expression)
  | .parenthesized _ expression => parenthesized_agrees (inferExpression_agrees expression)
  | .binary _ left _ right =>
      binary_agrees (inferExpression_agrees left) (inferExpression_agrees right)
  | .identifier _ => identifier_agrees
  | .uzumaki _ => uzumaki_agrees
  | .literal literal => literal_agrees literal
  | .type_ type => type_agrees (size_agrees type)
  termination_by structural expression => expression

theorem receiver_agrees : (function : Expression) → ∀ functionNode receiver name,
    function = .memberAccess functionNode receiver name → Agreeing environment receiver
  | .memberAccess _ receiver _, _, _, _, same => by
      cases same
      exact inferExpression_agrees receiver
  termination_by structural function => function

theorem size_agrees : (type : Type_) → ∀ node elementType size,
    type = .array node elementType size → Agreeing environment size
  | .array _ _ size, _, _, _, same => by
      cases same
      exact inferExpression_agrees size
  termination_by structural type => type

theorem literal_agrees : (literal : Literal) → Agreeing environment (.literal literal)
  | .array _ none => noElements_agrees
  | .array _ (some []) => emptyElements_agrees
  | .array _ (some (first :: rest)) =>
      array_agrees (inferExpression_agrees first) (elements_agree rest)
  | .bool _ _ | .string _ _ | .unit _ =>
      recorded_agrees (by rw [inferExpression, inferLiteral]) rfl
        (by rw [expressionSites, literalSites])
        (by rw [Environment.typeOf, Environment.literalType]) (by rw [untyped, untypedLiteral])
  | .number _ _ => number_agrees
  termination_by structural literal => literal

theorem elements_agree : (elements : List Expression) →
    ∀ element ∈ elements, Agreeing environment element
  | head :: _, _, .head _ => inferExpression_agrees head
  | _ :: tail, element, .tail _ member => elements_agree tail element member
  termination_by structural elements => elements

theorem arguments_agree : (arguments : List (Option Identifier × Expression)) →
    ∀ argument ∈ arguments, Agreeing environment argument.2
  | (_, head) :: _, _, .head _ => inferExpression_agrees head
  | _ :: tail, argument, .tail _ member => arguments_agree tail argument member
  termination_by structural arguments => arguments

end

/-! ## The nodes of the sites -/

omit [UnicodeCase] in
theorem skippedSites_ids (expressions : List Expression) :
    (skippedSites environment expressions).map Site.id = expressions.map Expression.id := by
  rw [skippedSites, List.map_map]
  rfl

theorem functionPart_ids {function : Expression} {typeParameters : Option (List Identifier)}
    {arguments : Option Arguments}
    (inner : (expressionSites environment function).map Site.id =
      function.nodes.map Expression.id) :
    (functionPart environment function typeParameters arguments).map Site.id =
      function.nodes.map Expression.id := by
  have ofSite (resolved : Option ResolvedCall) :
      (functionSite environment function resolved).id = function.id := by
    rw [functionSite]
    split <;> rfl
  cases function with
  | memberAccess node receiver name =>
      rw [expressionSites, Expression.nodes, List.map_cons, List.map_cons, List.cons.injEq] at inner
      rw [functionPart, Expression.nodes, List.map_cons, List.map_cons, ofSite, inner.2]
  | typeMemberAccess node expression name =>
      rw [functionPart, Expression.nodes, List.map_cons, List.map_cons, ofSite, skippedSites_ids]
  | _ => exact skippedSites_ids _

mutual

/-- The sites of an expression are its nodes. -/
theorem expressionSites_ids : (expression : Expression) →
    (expressionSites environment expression).map Site.id = expression.nodes.map Expression.id
  | .arrayIndexAccess node array index => by
      have first := expressionSites_ids array
      have second := expressionSites_ids index
      rw [expressionSites, Expression.nodes, List.map_cons, List.map_cons, List.map_append,
        List.map_append, first]
      split
      · rw [skippedSites_ids]
        rfl
      · rw [second]
        rfl
  | .binary node left operator right => by
      have first := expressionSites_ids left
      have second := expressionSites_ids right
      rw [expressionSites, Expression.nodes, List.map_cons, List.map_cons, List.map_append,
        List.map_append, first, second]
      rfl
  | .memberAccess node expression name => by
      rw [expressionSites, Expression.nodes, List.map_cons, List.map_cons,
        expressionSites_ids expression]
      rfl
  | .typeMemberAccess node expression name => by
      have inner := expressionSites_ids expression
      rw [Expression.nodes, List.map_cons]
      cases expression with
      | type_ type =>
          rw [expressionSites.eq_def, List.map_cons, skippedSites_ids]
          rfl
      | identifier identifier =>
          rw [expressionSites.eq_def, List.map_cons, skippedSites_ids, Expression.nodes]
          rfl
      | _ =>
          rw [expressionSites.eq_def, List.map_cons, inner]
          rfl
  | .functionCall node function typeParameters arguments => by
      have inner := expressionSites_ids function
      rw [callSites, Expression.nodes.eq_def, List.map_cons, List.map_append,
        functionPart_ids inner, List.map_cons, List.map_append]
      cases arguments with
      | none => rfl
      | some arguments =>
          rw [Option.getD_some, argumentSites_ids arguments]
          rfl
  | .struct_ node name fields => by
      rw [expressionSites.eq_def, Expression.nodes.eq_def, List.map_cons, List.map_cons]
      cases fields with
      | none => rfl
      | some fields =>
          rw [skippedSites_ids]
          rfl
  | .prefixUnary node expression operator => by
      rw [expressionSites, Expression.nodes, List.map_cons, List.map_cons,
        expressionSites_ids expression]
      rfl
  | .parenthesized node expression => by
      rw [expressionSites, Expression.nodes, List.map_cons, List.map_cons,
        expressionSites_ids expression]
      rfl
  | .literal value => by
      rw [expressionSites, Expression.nodes, List.map_cons, List.map_cons, literalSites_ids value]
      rfl
  | .identifier identifier => by
      rw [expressionSites, Expression.nodes]
      rfl
  | .type_ (.array node elementType size) => by
      rw [expressionSites.eq_def, Expression.nodes, Type_.nodes, List.map_cons, List.map_cons,
        List.map_append, List.map_append, skippedSites_ids, expressionSites_ids size]
      rfl
  | .type_ (.simple kind) | .type_ (.generic _ _ _) | .type_ (.function _ _ _)
  | .type_ (.qualifiedName _ _ _) | .type_ (.qualified _ _ _) | .type_ (.custom _) => by
      rw [expressionSites.eq_def, Expression.nodes, List.map_cons, List.map_cons, skippedSites_ids]
      rfl
  | .uzumaki node => by
      rw [expressionSites, Expression.nodes]
      rfl

theorem literalSites_ids : (value : Literal) →
    (literalSites environment value).map Site.id = value.nodes.map Expression.id
  | .array node none => by
      rw [literalSites.eq_def, Literal.nodes.eq_def]
      rfl
  | .array node (some []) => by
      rw [literalSites.eq_def, Literal.nodes, expressionListNodes]
      rfl
  | .array node (some (first :: rest)) => by
      rw [literalSites.eq_def, Literal.nodes, expressionListNodes, List.map_append,
        List.map_append, expressionSites_ids first]
      split
      · rw [skippedSites_ids]
      · rw [expressionListSites_ids rest]
  | .bool _ _ | .string _ _ | .number _ _ | .unit _ => by
      rw [literalSites.eq_def, Literal.nodes.eq_def]
      rfl

theorem expressionListSites_ids : (expressions : List Expression) →
    (expressionListSites environment expressions).map Site.id =
      (expressionListNodes expressions).map Expression.id
  | [] => by
      rw [expressionListSites, expressionListNodes]
      rfl
  | head :: tail => by
      rw [expressionListSites, expressionListNodes, List.map_append, List.map_append,
        expressionSites_ids head, expressionListSites_ids tail]

theorem argumentSites_ids : (arguments : List (Option Identifier × Expression)) →
    (argumentSites environment arguments).map Site.id =
      (argumentNodes arguments).map Expression.id
  | [] => by
      rw [argumentSites, argumentNodes]
      rfl
  | (name, head) :: tail => by
      rw [argumentSites, argumentNodes, List.map_append, List.map_append,
        expressionSites_ids head, argumentSites_ids tail]

end

/-- An inference without errors finds the type that the language gives to the expression, and the
types of all its parts. -/
theorem inferExpression_sound (expression : Expression) (before after : CheckState)
    (value : Option TypeInfo) (clean : Clean environment before)
    (distinct : (expression.nodes.map Expression.id).Nodup)
    (unset : ∀ node ∈ expression.nodes, before.nodeTypes node.id = none)
    (accepted : (inferExpression expression).Accepts before value after) :
    Infers environment expression before value after := by
  have ids : (expressionSites environment expression).map Site.id =
      expression.nodes.map Expression.id :=
    expressionSites_ids expression
  refine inferExpression_agrees expression clean ?_ (.inl ?_) accepted
  · rw [Distinct, ids]
    exact distinct
  · intro entry member
    rcases List.mem_map.mp member with ⟨site, siteMember, rfl⟩
    have isNode : site.id ∈ expression.nodes.map Expression.id := by
      rw [← ids]
      exact List.mem_map_of_mem siteMember
    rcases List.mem_map.mp isNode with ⟨node, nodeMember, isId⟩
    rw [Site.entry, ← isId]
    exact unset node nodeMember

end Agreement

/-- The negation of a comparison of numbers. -/
def sampleExpression : Expression :=
  .prefixUnary { id := 1 }
    (.binary { id := 2 } (.literal (.number { id := 3 } "1")) .lt
      (.literal (.number { id := 4 } "2"))) .not

theorem sampleExpression_inferred :
    ∃ after, Infers initialState.environment sampleExpression initialState
      (some TypeInfo.boolean) after :=
  ⟨_, inferExpression_sound sampleExpression initialState _ (some TypeInfo.boolean) ⟨rfl, rfl⟩
    (by decide) (fun _ _ => rfl) rfl⟩

end Inference.TypeChecker
