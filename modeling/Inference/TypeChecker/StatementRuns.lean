import Inference.TypeChecker.ExpressionRuns
import Inference.TypeChecker.LexicalScope
import Inference.TypeChecker.ScopeInvariant
import Inference.TypeChecker.StatementChecker

/-! # Runs of the checks of statements

What every run of the checks keeps, with errors or without: the tree of the scopes, the
current scope, and which types may be recorded for which nodes. A statement leaves the
declarations in scope that its text declares.
-/

namespace Inference.TypeChecker

open Inference.Ast Inference.Foundation

mutual

/-- The nodes of a statement that are no expressions and have a type recorded for them. -/
def declaredIds : Statement → List Nat
  | .block block => blockDeclaredIds block
  | .loop _ _ body => blockDeclaredIds body
  | .if_ _ _ ifArm elseArm =>
      blockDeclaredIds ifArm ++
        (match elseArm with
          | some elseArm => blockDeclaredIds elseArm
          | none => [])
  | .variableDefinition node name _ _ => [name.id, node.id]
  | .constantDefinition definition => [definition.id]
  | .expression _ | .assign _ _ _ | .return_ _ _ | .break_ _ => []
  | .typeDefinition _ _ _ | .assert _ _ => []

def blockDeclaredIds : BlockType → List Nat
  | .mk _ _ statements => statementListDeclaredIds statements

def statementListDeclaredIds : List Statement → List Nat
  | [] => []
  | head :: tail => declaredIds head ++ statementListDeclaredIds tail

end

/-! ## The discipline of the checks -/

/-- Which types may be recorded for which nodes. -/
abbrev Recording := Nat → TypeInfo → Prop

structure CheckingStep (recording : Recording) (before after : CheckState) : Prop where
  tree : after.symbolTable.IsScopeTree
  grows : SymbolTable.Grows before.symbolTable after.symbolTable
  types : after.nodeTypes = before.nodeTypes ∨ ∃ nodeId typeInfo, recording nodeId typeInfo ∧
    after.nodeTypes = Function.update before.nodeTypes nodeId (some typeInfo)
  keys : before.reportedErrorKeys ⊆ after.reportedErrorKeys

/-- What a run that ends leaves as it was. -/
structure Returns (before : CheckState) (errors : List TypeCheckError) (after : CheckState) :
    Prop where
  current : after.symbolTable.currentScope = before.symbolTable.currentScope
  grows : SymbolTable.Grows before.symbolTable after.symbolTable
  keys : FilesKeys before errors after

def checking (recording : Recording) : Discipline CheckState TypeCheckError where
  invariant state := state.symbolTable.IsScopeTree
  step := CheckingStep recording
  whole := Returns
  start _ := ⟨rfl, .refl _, .of_same rfl⟩
  join left right := ⟨right.current.trans left.current, left.grows.trans right.grows,
    left.keys.join right.keys⟩

/-- The computation follows the discipline from a state and leaves the variables. -/
structure Leaves {result : Type} (recording : Recording) (computation : CheckM result)
    (state : CheckState) (scopes : LexicalScopes) : Prop where
  follows : (computation state).Follows (checking recording) state
  leaves : ∀ {value final errors}, (computation state).outcome = some (value, final, errors) →
    final.lexical = scopes

namespace Leaves

variable {result other : Type} {recording : Recording} {state : CheckState}
  {scopes : LexicalScopes}

theorem pure (tree : state.symbolTable.IsScopeTree) (value : result) :
    Leaves recording (pure value) state state.lexical where
  follows := .pure tree value
  leaves ended := by
    cases ended
    rfl

theorem expect (tree : state.symbolTable.IsScopeTree) (value : Option result) :
    Leaves recording (Collecting.expect value) state state.lexical where
  follows := .expect tree value
  leaves ended := by
    cases value with
    | none => cases ended
    | some known =>
        cases ended
        rfl

theorem pushError (tree : state.symbolTable.IsScopeTree) {error : TypeCheckError}
    (unkeyed : error.dedupKey = none) :
    Leaves recording (pushError error) state state.lexical where
  follows := .report tree ⟨rfl, .refl _, pushError_files unkeyed state⟩
  leaves ended := by
    cases ended
    rfl

theorem bind {first : CheckM result} {next : result → CheckM other} {middle : LexicalScopes}
    (front : Leaves recording first state middle)
    (back : ∀ {value between errors}, (first state).outcome = some (value, between, errors) →
      between.symbolTable.IsScopeTree → between.lexical = middle →
        Leaves recording (next value) between scopes) :
    Leaves recording (first >>= next) state scopes := by
  have behind : ∀ {value between errors}, (first state).outcome = some (value, between, errors) →
      Leaves recording (next value) between scopes := by
    intro value between errors ended
    exact back ended (front.follows.ends ended).2.1 (front.leaves ended)
  constructor
  · exact .bind front.follows fun ended => (behind ended).follows
  · intro value final errors ended
    rw [Collecting.outcome_bind] at ended
    rcases Option.bind_eq_some_iff.mp ended with ⟨⟨found, between, front⟩, run, rest⟩
    rcases Option.map_eq_some_iff.mp rest with ⟨⟨last, lastState, more⟩, restRun, same⟩
    cases same
    exact (behind run).leaves restRun

/-- A part of the checks that leaves all declarations. -/
theorem bind_same {first : CheckM result} {next : result → CheckM other}
    (front : Leaves recording first state state.lexical)
    (back : ∀ {value between}, between.symbolTable.IsScopeTree →
      between.lexical = state.lexical → Leaves recording (next value) between scopes) :
    Leaves recording (first >>= next) state scopes :=
  front.bind fun _ tree same => back tree same

theorem setNodeTypeinfo (tree : state.symbolTable.IsScopeTree) {nodeId : Nat}
    {typeInfo : TypeInfo} (allowed : recording nodeId typeInfo) :
    Leaves recording (setNodeTypeinfo nodeId typeInfo) state state.lexical where
  follows := by
    apply Run.Follows.update
    · exact ⟨tree, .refl _, .inr ⟨nodeId, typeInfo, allowed, rfl⟩, List.Subset.refl _⟩
    · exact tree
    · exact ⟨rfl, .refl _, .of_same rfl⟩
  leaves ended := by
    cases ended
    rfl

/-- The expressions whose types a computation may record in a state. -/
def Covers (recording : Recording) (nodes : List Expression) (scopes : LexicalScopes) : Prop :=
  ∀ node ∈ nodes, ∀ typeInfo, (∀ identifier, node = .identifier identifier →
    scopes.lookup identifier.name = some typeInfo) → recording node.id typeInfo

theorem path_of_inference {nodes : List Expression} {first last : CheckState}
    {states : List CheckState} (path : Path (InferenceStep nodes) first states last)
    (tree : first.symbolTable.IsScopeTree) (covers : Covers recording nodes first.lexical) :
    Path (CheckingStep recording) first states last ∧ last.symbolTable = first.symbolTable := by
  induction path with
  | nil current => exact ⟨.nil current, rfl⟩
  | @cons before after last rest step path induction =>
      have table := step.table
      have same : after.lexical = before.lexical :=
        congrArg (fun table => table.environment.lexical) table
      rcases induction (table ▸ tree) (same ▸ covers) with ⟨restPath, restTable⟩
      refine ⟨.cons ⟨table ▸ tree, table ▸ .refl _, ?_, step.keys⟩ restPath,
        restTable.trans table⟩
      cases step with
      | key keys => exact .inl rfl
      | record member typeInfo resolved =>
          refine .inr ⟨_, typeInfo, covers _ member typeInfo ?_, rfl⟩
          intro identifier isIdentifier
          rw [CheckState.lexical, Environment.lookup_lexical]
          exact resolved identifier isIdentifier

/-- The inference keeps all declarations. -/
theorem inference {nodes : List Expression} {computation : CheckM result}
    (follows : Follows (TypeChecker.inference nodes) computation)
    (tree : state.symbolTable.IsScopeTree) (covers : Covers recording nodes state.lexical) :
    Leaves recording computation state state.lexical := by
  have run : (computation state).Follows (TypeChecker.inference nodes) state := follows.run trivial
  constructor
  · constructor
    · rcases run.path with ⟨last, path⟩
      exact ⟨last, (path_of_inference path tree covers).1⟩
    · intro value final errors ended
      rcases run.ends ended with ⟨path, _, keys⟩
      rcases path_of_inference path tree covers with ⟨checkingPath, table⟩
      have finalTree : final.symbolTable.IsScopeTree := by
        rw [table]
        exact tree
      exact ⟨checkingPath, finalTree, congrArg SymbolTable.currentScope table, table ▸ .refl _,
        keys⟩
  · intro value final errors ended
    rcases run.ends ended with ⟨path, _, _⟩
    exact congrArg (fun table => table.environment.lexical) (path_of_inference path tree covers).2

/-- A change of the current scope is a change of the innermost frame. -/
theorem modifyCurrent (tree : state.symbolTable.IsScopeTree) (change : Frame → Frame) :
    Leaves recording
      (updateSymbolTable fun _ => state.symbolTable.modifyCurrent change) state
      (state.environment.changeTop change).lexical where
  follows := by
    have changed := tree.modifyCurrent change
    have grows := SymbolTable.Grows.modifyCurrent tree change
    apply Run.Follows.update
    · exact ⟨changed, grows, .inl rfl, List.Subset.refl _⟩
    · exact changed
    · exact ⟨SymbolTable.currentScope_modifyCurrent _ _, grows, .of_same rfl⟩
  leaves ended := by
    cases ended
    exact congrArg Environment.lexical (SymbolTable.environment_modifyCurrent tree.sound change)

/-- A registration changes the innermost frame where it succeeds. -/
theorem register (tree : state.symbolTable.IsScopeTree) (noScope : String)
    (change : Nat → Frame → Except String Frame) (onFailure : String → TypeCheckError)
    (unkeyed : ∀ reason, (onFailure reason).dedupKey = none) :
    ∃ scopeId, Leaves recording
      (register (fun table => table.insertCurrent noScope change) onFailure) state
      (state.environment.changeTop fun frame =>
        (change scopeId frame).toOption.getD frame).lexical := by
  cases registered : state.symbolTable.insertCurrent noScope change with
  | error reason =>
      rcases SymbolTable.insertCurrent_error tree.sound registered with ⟨scope, current, failed⟩
      rcases SymbolTable.environment_current tree.sound current with ⟨rest, top⟩
      have same : (state.environment.changeTop fun frame =>
          (change scope.id frame).toOption.getD frame) = state.environment := by
        rw [CheckState.environment, top, Environment.changeTop, failed]
        rfl
      have unfolded : TypeChecker.register (fun table => table.insertCurrent noScope change)
          onFailure state = _ := register_error onFailure registered
      have failure : Leaves recording (TypeChecker.pushError (onFailure reason)) state
          state.lexical := pushError tree (unkeyed reason)
      refine ⟨scope.id, ?_⟩
      rw [same]
      exact ⟨unfolded ▸ failure.follows, fun ended => failure.leaves (unfolded ▸ ended)⟩
  | ok table =>
      rcases SymbolTable.insertCurrent_ok registered with
        ⟨scope, frame, current, changes, rfl⟩
      rcases SymbolTable.environment_current tree.sound current with ⟨rest, top⟩
      have same : (state.environment.changeTop fun frame =>
          (change scope.id frame).toOption.getD frame) =
            state.environment.changeTop fun _ => frame := by
        rw [CheckState.environment, top, Environment.changeTop, Environment.changeTop, changes]
        rfl
      have unfolded : TypeChecker.register (fun table => table.insertCurrent noScope change)
          onFailure state = _ := register_ok onFailure registered
      have success : Leaves recording
          (updateSymbolTable fun _ => state.symbolTable.modifyCurrent fun _ => frame) state
          (state.environment.changeTop fun _ => frame).lexical := modifyCurrent tree fun _ => frame
      refine ⟨scope.id, ?_⟩
      rw [same]
      exact ⟨unfolded ▸ success.follows, fun ended => success.leaves (unfolded ▸ ended)⟩

end Leaves

/-! ## Scopes -/

theorem pushScope_named (table : SymbolTable) : s!"anonymous_{table.nextScopeId}" ≠ "" := by
  intro empty
  have front := (String.append_eq_empty_iff.mp empty).1
  exact absurd front (by decide)

/-- The table in which a scope is open, when what was checked inside is done. -/
theorem popScope_opened {table inner : SymbolTable} (tree : table.IsScopeTree)
    (innerTree : inner.IsScopeTree) (current : inner.currentScope = table.pushScope.currentScope)
    (grows : SymbolTable.Grows table.pushScope inner) :
    inner.popScope.IsScopeTree ∧ SymbolTable.Grows inner inner.popScope ∧
      inner.popScope.currentScope = table.currentScope ∧
      inner.popScope.environment = inner.environment.tail := by
  rcases tree.current with ⟨outer, scope, isOuter, found⟩
  have filed := (tree.filed found).1
  rcases grows.kept (SymbolTable.getScope_opened _ _ isOuter found filed) with
    ⟨opened, foundOpened, same⟩
  have hasParent : opened.parent = some outer := same.parent.trans (congrArg some filed)
  rcases innerTree.popScope current foundOpened hasParent with ⟨popped, poppedGrows, back⟩
  have shape : SymbolTable.SameShape table.pushScope inner := by
    refine ⟨current, fun known => ?_⟩
    rcases grows.kept known with ⟨changed, foundChanged, place⟩
    exact ⟨changed, foundChanged, place.parent⟩
  exact ⟨popped, poppedGrows, back.trans isOuter.symm,
    (SymbolTable.popScope_pushed tree.sound innerTree.sound shape).2.2⟩

/-- What is checked in a scope of its own leaves the variables outside of it. -/
theorem inScope_leaves {recording : Recording} {body : CheckM Unit} {state : CheckState}
    {scopes : LexicalScopes} (tree : state.symbolTable.IsScopeTree)
    (outside : scopes.tail = state.lexical)
    (inside : ∀ opened : CheckState, opened.symbolTable.IsScopeTree →
      opened.lexical = state.lexical.enter → Leaves recording body opened scopes) :
    Leaves recording (inScope body) state state.lexical := by
  have openedTree : state.symbolTable.pushScope.IsScopeTree :=
    tree.pushScopeWithName (pushScope_named _) _
  have openedGrows : SymbolTable.Grows state.symbolTable state.symbolTable.pushScope :=
    SymbolTable.Grows.pushScopeWithName tree _ _
  have leaves := inside { state with symbolTable := state.symbolTable.pushScope } openedTree
    (congrArg Environment.lexical (SymbolTable.environment_pushScope tree.sound))
  have closes : ∀ {final errors},
      (body { state with symbolTable := state.symbolTable.pushScope }).outcome =
        some ((), final, errors) →
      final.symbolTable.popScope.IsScopeTree ∧
        SymbolTable.Grows final.symbolTable final.symbolTable.popScope ∧
        final.symbolTable.popScope.currentScope = state.symbolTable.currentScope ∧
        final.symbolTable.popScope.environment = final.environment.tail ∧
        Returns { state with symbolTable := state.symbolTable.pushScope } errors final := by
    intro final errors ended
    rcases leaves.follows.ends ended with ⟨_, finalTree, whole⟩
    rcases popScope_opened tree finalTree whole.current whole.grows with
      ⟨popped, poppedGrows, back, frames⟩
    exact ⟨popped, poppedGrows, back, frames, whole⟩
  constructor
  · apply Run.Follows.bracket
    · exact ⟨openedTree, openedGrows, .inl rfl, List.Subset.refl _⟩
    · exact leaves.follows
    · intro final errors ended
      rcases closes ended with ⟨popped, poppedGrows, back, _, whole⟩
      exact ⟨⟨popped, poppedGrows, .inl rfl, List.Subset.refl _⟩, popped, back,
        openedGrows.trans (whole.grows.trans poppedGrows), ⟨whole.keys.keys, whole.keys.distinct⟩⟩
  · intro value final errors ended
    rw [inScope, Collecting.outcome_bind] at ended
    rcases Option.bind_eq_some_iff.mp ended with ⟨⟨_, opened, first⟩, entered, rest⟩
    cases entered
    rcases Option.map_eq_some_iff.mp rest with ⟨⟨_, last, more⟩, restRun, same⟩
    cases same
    rw [Collecting.outcome_bind] at restRun
    rcases Option.bind_eq_some_iff.mp restRun with ⟨⟨_, inner, found⟩, innerRun, closing⟩
    rcases Option.map_eq_some_iff.mp closing with ⟨⟨_, closed, none⟩, closedRun, same⟩
    cases closedRun
    cases same
    have framesKept := (closes innerRun).2.2.2.1
    have variablesKept := (congrArg Environment.lexical framesKept).trans (Environment.lexical_tail _)
    exact variablesKept.trans ((congrArg List.tail (leaves.leaves innerRun)).trans outside)

/-! ## Values -/

section

variable [UnicodeCase] {nodes : List Expression}

omit [UnicodeCase] in
theorem checkCondition_follows (location : Location) (conditionType : Option TypeInfo) :
    Follows (inference nodes) (checkCondition location conditionType) := by
  cases conditionType with
  | none => exact pushError_follows rfl
  | some typeInfo => exact .ite (.pure _) (pushError_follows rfl)

omit [UnicodeCase] in
theorem compareTypes_follows (expected found : TypeInfo) (context : TypeMismatchContext)
    (location : Location) :
    Follows (inference nodes) (compareTypes expected found context location) :=
  .ite (.pure _) (pushError_follows rfl)

omit [UnicodeCase] in
theorem uzumaki_recordable {value : Node} (within : (Expression.uzumaki value).nodes ⊆ nodes) :
    Recordable nodes value.id :=
  ⟨.uzumaki value, within (Expression.self_mem_nodes _), rfl, fun _ equal => by cases equal⟩

theorem inferInitial_follows (node : Node) (targetType : TypeInfo) (value : Option Expression)
    (within : optionNodes value ⊆ nodes) :
    Follows (inference nodes) (inferInitial node targetType value) := by
  cases value with
  | none => exact .pure _
  | some value =>
      unfold inferInitial
      split
      · rename_i node equal
        cases equal
        exact setNodeTypeinfo_follows (uzumaki_recordable within) _
      · rename_i other _ equal
        cases equal
        apply Follows.bind (inferExpression_follows value within)
        intro initType
        cases initType with
        | none => exact .pure _
        | some initType => exact compareTypes_follows _ _ _ _
      · rename_i equal
        cases equal

theorem inferAssigned_follows (node : Node) (targetType : Option TypeInfo) (right : Expression)
    (within : right.nodes ⊆ nodes) :
    Follows (inference nodes) (inferAssigned node targetType right) := by
  unfold inferAssigned
  split
  · cases targetType with
    | none => exact pushError_follows rfl
    | some targetType => exact setNodeTypeinfo_follows (uzumaki_recordable within) _
  · apply Follows.bind (inferExpression_follows _ within)
    intro valueType
    cases targetType with
    | none => exact .pure _
    | some targetType =>
        cases valueType with
        | none => exact .pure _
        | some valueType => exact compareTypes_follows _ _ _ _

theorem inferReturned_follows (node : Node) (returnType : TypeInfo) (value : Expression)
    (within : value.nodes ⊆ nodes) :
    Follows (inference nodes) (inferReturned node returnType value) := by
  unfold inferReturned
  split
  · exact setNodeTypeinfo_follows (uzumaki_recordable within) _
  · apply Follows.bind (inferExpression_follows _ within)
    intro valueType
    exact compareTypes_follows _ _ _ _

end

/-! ## Statements -/

/-- The types of the places, and any types of the nodes, may be recorded. -/
structure Allows (recording : Recording) (places : List Place)
    (nodeIds : List Nat) : Prop where
  places : ∀ place ∈ places, ∀ typeInfo, (∀ identifier, place.2 = .identifier identifier →
    place.1.lookup identifier.name = some typeInfo) → recording place.2.id typeInfo
  nodes : ∀ nodeId ∈ nodeIds, ∀ typeInfo, recording nodeId typeInfo

namespace Allows

variable {recording : Recording} {places more : List Place}
  {nodeIds others : List Nat}

theorem left (allows : Allows recording (places ++ more) (nodeIds ++ others)) :
    Allows recording places nodeIds :=
  ⟨fun place member => allows.places place (List.mem_append_left _ member),
    fun nodeId member => allows.nodes nodeId (List.mem_append_left _ member)⟩

theorem right (allows : Allows recording (places ++ more) (nodeIds ++ others)) :
    Allows recording more others :=
  ⟨fun place member => allows.places place (List.mem_append_right _ member),
    fun nodeId member => allows.nodes nodeId (List.mem_append_right _ member)⟩

theorem covers {scopes : LexicalScopes} {nodes : List Expression}
    (allows : Allows recording (placesOf scopes nodes) nodeIds) :
    Leaves.Covers recording nodes scopes := by
  intro node member
  exact allows.places (scopes, node) (List.mem_map_of_mem member)

end Allows

variable [UnicodeCase] {recording : Recording}

omit [UnicodeCase] in
theorem pushVariable_leaves {state : CheckState} (tree : state.symbolTable.IsScopeTree)
    (name : Identifier) (location : Location) (typeInfo : TypeInfo) :
    Leaves recording (pushVariable name location typeInfo) state
      (state.lexical.declare name.name typeInfo) := by
  rw [CheckState.lexical, ← Environment.lexical_declareVariable]
  rcases Leaves.register tree "No active scope to push variable"
    (fun _ frame => frame.insertVariable name.name typeInfo)
    (fun reason => .registrationFailed .variable_ name.name (some reason) location)
    (fun _ => rfl) with ⟨_, leaves⟩
  exact leaves

omit [UnicodeCase] in
theorem typeInfoOf_leaves {other : Type} {state : CheckState}
    (tree : state.symbolTable.IsScopeTree) {type : Type_} {next : TypeInfo → CheckM other}
    {scopes : LexicalScopes}
    (back : ∀ typeInfo, TypeInfo.new type = some typeInfo →
      Leaves recording (next typeInfo) state scopes) :
    Leaves recording (typeInfoOf type >>= next) state scopes := by
  have front : Leaves recording (typeInfoOf type) state state.lexical := .expect tree _
  have next : ∀ {value between errors},
      (typeInfoOf type state).outcome = some (value, between, errors) →
        Leaves recording (next value) between scopes := by
    intro value between errors ended
    rcases Option.map_eq_some_iff.mp ended with ⟨known, found, same⟩
    cases same
    exact back value found
  exact front.bind fun ended _ _ => next ended

/-- A condition that is checked in front of other checks. -/
theorem condition_leaves {other : Type} {state : CheckState} {next : CheckM other}
    {scopes : LexicalScopes} {location : Location} (condition : Expression)
    (tree : state.symbolTable.IsScopeTree)
    (covers : Leaves.Covers recording condition.nodes state.lexical)
    (back : ∀ {between : CheckState}, between.symbolTable.IsScopeTree →
      between.lexical = state.lexical → Leaves recording next between scopes) :
    Leaves recording (do
      let conditionType ← inferExpression condition
      checkCondition location conditionType
      next) state scopes := by
  apply Leaves.bind_same (.inference (inferExpression_follows condition (List.Subset.refl _))
    tree covers)
  intro conditionType between betweenTree same
  have follows : Follows (inference []) (checkCondition location conditionType) :=
    checkCondition_follows _ _
  apply Leaves.bind_same (.inference follows betweenTree fun _ member => by cases member)
  intro _ last lastTree lastSame
  exact back lastTree (lastSame.trans same)

def optionBlockPlaces (scopes : LexicalScopes) : Option BlockType → List Place
  | some block => blockPlaces scopes block
  | none => []

def optionBlockDeclaredIds : Option BlockType → List Nat
  | some block => blockDeclaredIds block
  | none => []

omit [UnicodeCase] in
theorem statementPlaces_if (scopes : LexicalScopes) (node : Node) (condition : Expression)
    (ifArm : BlockType) (elseArm : Option BlockType) :
    statementPlaces scopes (.if_ node condition ifArm elseArm) =
      placesOf scopes condition.nodes ++ blockPlaces scopes ifArm ++
        optionBlockPlaces scopes elseArm := by
  cases elseArm <;> rw [statementPlaces] <;> rfl

omit [UnicodeCase] in
theorem declaredIds_if (node : Node) (condition : Expression) (ifArm : BlockType)
    (elseArm : Option BlockType) :
    declaredIds (.if_ node condition ifArm elseArm) =
      [] ++ blockDeclaredIds ifArm ++ optionBlockDeclaredIds elseArm := by
  cases elseArm <;> rw [declaredIds] <;> rfl

mutual

/-- The checks of a statement leave the declarations that it makes. -/
theorem inferStatement_leaves (returnType : TypeInfo) : (statement : Statement) →
    ∀ {state : CheckState}, state.symbolTable.IsScopeTree →
      Allows recording (statementPlaces state.lexical statement) (declaredIds statement) →
        Leaves recording (inferStatement returnType statement) state
          (declaredIn state.lexical statement)
  | .block block, state, tree, allows => by
      rw [inferStatement]
      exact inferScope_leaves returnType block tree allows
  | .expression expression, state, tree, allows => by
      rw [inferStatement]
      exact .inference (.bind (inferExpression_follows expression (List.Subset.refl _))
        fun _ => .pure _) tree allows.covers
  | .assign node left right, state, tree, allows => by
      rw [inferStatement]
      refine .inference (.bind (inferExpression_follows left ?_) fun targetType =>
        inferAssigned_follows node targetType right ?_) tree allows.covers
      · exact List.subset_append_left _ _
      · exact List.subset_append_right _ _
  | .return_ node expression, state, tree, allows => by
      rw [inferStatement]
      exact .inference (inferReturned_follows node returnType expression (List.Subset.refl _))
        tree allows.covers
  | .loop node condition body, state, tree, allows => by
      unfold inferStatement
      have split : Allows recording (placesOf state.lexical (optionNodes condition) ++
          blockPlaces state.lexical body) ([] ++ blockDeclaredIds body) := allows
      have bodyLeaves : ∀ {between : CheckState}, between.symbolTable.IsScopeTree →
          between.lexical = state.lexical →
            Leaves recording (inScope (inferBlock returnType body)) between
              state.lexical := by
        intro between betweenTree same
        have bodyAllows := split.right
        rw [← same] at bodyAllows ⊢
        exact inferScope_leaves returnType body betweenTree bodyAllows
      cases condition with
      | none => exact bodyLeaves tree rfl
      | some condition => exact condition_leaves condition tree split.left.covers bodyLeaves
  | .break_ _, state, tree, _ => by
      rw [inferStatement]
      exact .pure tree _
  | .if_ node condition ifArm elseArm, state, tree, allows => by
      rw [statementPlaces_if, declaredIds_if] at allows
      unfold inferStatement
      apply condition_leaves condition tree allows.left.left.covers
      intro between betweenTree same
      rw [declaredIn, ← same]
      rw [← same] at allows
      apply Leaves.bind_same (inferScope_leaves returnType ifArm betweenTree allows.left.right)
      intro _ last lastTree lastSame
      have elseAllows := allows.right
      rw [← lastSame] at elseAllows ⊢
      cases elseArm with
      | none => exact .pure lastTree _
      | some elseArm => exact inferScope_leaves returnType elseArm lastTree elseAllows
  | .variableDefinition node name ty value, state, tree, allows => by
      rw [inferStatement]
      have covers : Leaves.Covers recording (optionNodes value) state.lexical := by
        intro node member
        apply allows.places (state.lexical, node)
        exact List.mem_map_of_mem (List.mem_append_right _ member)
      apply typeInfoOf_leaves tree
      intro typeInfo known
      have declared : declaredTypeInfo ty = typeInfo := by rw [declaredTypeInfo, known]; rfl
      rw [declaredIn, declared]
      apply Leaves.bind_same (.inference
        (inferInitial_follows node typeInfo value (List.Subset.refl _)) tree covers)
      intro _ between betweenTree same
      rw [← same]
      apply Leaves.bind (pushVariable_leaves betweenTree name node.location typeInfo)
      intro _ pushed _ _ pushedTree pushedSame
      rw [← pushedSame]
      apply Leaves.bind_same (.setNodeTypeinfo pushedTree
        (allows.nodes _ (List.mem_cons_self) typeInfo))
      intro _ last lastTree lastSame
      rw [← lastSame]
      exact .setNodeTypeinfo lastTree
        (allows.nodes _ (List.mem_cons_of_mem _ (List.mem_singleton_self _)) typeInfo)
  | .typeDefinition node name ty, state, tree, allows => by
      rw [inferStatement]
      apply typeInfoOf_leaves tree
      intro typeInfo known
      have declared : declaredTypeInfo ty = typeInfo := by rw [declaredTypeInfo, known]; rfl
      rw [declaredIn, CheckState.lexical, ← Environment.lexical_declareType _ name.name typeInfo]
      rcases Leaves.register tree "No active scope to register type"
        (fun _ frame => frame.insertSymbol name.name (.typeAlias typeInfo))
        (fun reason => .registrationFailed .type_ name.name (some reason) node.location)
        (fun _ => rfl) with ⟨_, leaves⟩
      exact leaves
  | .assert node expression, state, tree, allows => by
      rw [inferStatement]
      exact .inference (.bind (inferExpression_follows expression (List.Subset.refl _)) fun _ =>
        checkCondition_follows _ _) tree allows.covers
  | .constantDefinition definition, state, tree, allows => by
      rw [inferStatement]
      have literal : ∀ typeInfo, recording definition.value.id typeInfo := by
        intro typeInfo
        apply allows.places (state.lexical, .literal definition.value)
        · apply List.mem_map_of_mem
          exact List.mem_append_right _ (Expression.self_mem_nodes _)
        · intro identifier equal
          cases equal
      apply typeInfoOf_leaves tree
      intro typeInfo known
      have declared : declaredTypeInfo definition.ty = typeInfo := by
        rw [declaredTypeInfo, known]
        rfl
      rw [declaredIn, declared]
      apply Leaves.bind (pushVariable_leaves tree definition.name definition.location typeInfo)
      intro _ pushed _ _ pushedTree pushedSame
      rw [← pushedSame]
      apply Leaves.bind_same (.setNodeTypeinfo pushedTree (literal typeInfo))
      intro _ last lastTree lastSame
      rw [← lastSame]
      exact .setNodeTypeinfo lastTree
        (allows.nodes _ (List.mem_singleton_self _) typeInfo)

/-- The checks of a block in a scope of its own leave the declarations outside of it. -/
theorem inferScope_leaves (returnType : TypeInfo) : (block : BlockType) →
    ∀ {state : CheckState}, state.symbolTable.IsScopeTree →
      Allows recording (blockPlaces state.lexical block) (blockDeclaredIds block) →
        Leaves recording (inScope (inferBlock returnType block)) state state.lexical
  | .mk kind node statements, state, tree, allows => by
      have outside : (declaredInAll state.lexical.enter statements).tail =
          state.lexical := by rw [tail_declaredInAll, LexicalScopes.tail_enter]
      apply inScope_leaves tree outside
      intro opened openedTree frames
      rw [inferBlock, ← frames]
      rw [blockPlaces, ← frames] at allows
      exact inferStatements_leaves returnType statements openedTree allows

theorem inferStatements_leaves (returnType : TypeInfo) : (statements : List Statement) →
    ∀ {state : CheckState}, state.symbolTable.IsScopeTree →
      Allows recording (statementListPlaces state.lexical statements)
        (statementListDeclaredIds statements) →
        Leaves recording (inferStatements returnType statements) state
          (declaredInAll state.lexical statements)
  | [], state, tree, _ => by
      rw [inferStatements]
      exact .pure tree _
  | head :: tail, state, tree, allows => by
      rw [inferStatements]
      apply Leaves.bind (inferStatement_leaves returnType head tree allows.left)
      intro _ between _ _ betweenTree same
      rw [declaredInAll, ← same]
      have rest := allows.right
      rw [← same] at rest
      exact inferStatements_leaves returnType tail betweenTree rest

end

end Inference.TypeChecker
