import Inference.TypeChecker.SymbolTable

/-! # The scope tree as a stack of frames

What the lookups see is a stack of frames. The operations of the symbol table are
operations on the top of this stack.
-/

namespace Inference.TypeChecker

/-! ## Operations on the stack -/

namespace Environment

def openScope (environment : Environment) : Environment :=
  {} :: environment

def changeTop (change : Frame → Frame) : Environment → Environment
  | [] => []
  | frame :: rest => change frame :: rest

/-- Declares a variable in the innermost scope; a declared name keeps its first type. -/
def declareVariable (environment : Environment) (name : String) (ty : TypeInfo) : Environment :=
  environment.changeTop fun frame => (frame.insertVariable name ty).toOption.getD frame

def declareType (environment : Environment) (name : String) (ty : TypeInfo) : Environment :=
  environment.changeTop fun frame =>
    (frame.insertSymbol name (.typeAlias ty)).toOption.getD frame

@[simp] theorem tail_openScope (environment : Environment) :
    environment.openScope.tail = environment := rfl

@[simp] theorem tail_changeTop (change : Frame → Frame) (environment : Environment) :
    (environment.changeTop change).tail = environment.tail := by
  cases environment <;> rfl

@[simp] theorem tail_declareVariable (environment : Environment) (name : String)
    (ty : TypeInfo) : (environment.declareVariable name ty).tail = environment.tail :=
  tail_changeTop _ _

@[simp] theorem tail_declareType (environment : Environment) (name : String)
    (ty : TypeInfo) : (environment.declareType name ty).tail = environment.tail :=
  tail_changeTop _ _

end Environment

variable {scopeId : Nat} {table : SymbolTable}

namespace SymbolTable

/-! ## Well-formed tables -/

/-- Every scope is filed under its id, and parents are older than their children. -/
structure Sound (table : SymbolTable) : Prop where
  current : ∃ scopeId scope, table.currentScope = some scopeId ∧
    table.getScope scopeId = some scope
  filed : ∀ {scopeId scope}, table.getScope scopeId = some scope →
    scope.id = scopeId ∧ scopeId < table.nextScopeId
  parents : ∀ {scopeId scope parentId}, table.getScope scopeId = some scope →
    scope.parent = some parentId → parentId < scopeId ∧ (table.getScope parentId).isSome

/-- The current scope and the parents of all scopes of the first table are those of the
second one. -/
structure SameShape (before after : SymbolTable) : Prop where
  current : after.currentScope = before.currentScope
  parents : ∀ {scopeId scope}, before.getScope scopeId = some scope →
    ∃ changed, after.getScope scopeId = some changed ∧ changed.parent = scope.parent

theorem SameShape.refl (table : SymbolTable) : SameShape table table where
  current := rfl
  parents found := ⟨_, found, rfl⟩

theorem SameShape.trans {first second third : SymbolTable} (left : SameShape first second)
    (right : SameShape second third) : SameShape first third where
  current := right.current.trans left.current
  parents found := by
    rcases left.parents found with ⟨middle, foundMiddle, sameMiddle⟩
    rcases right.parents foundMiddle with ⟨last, foundLast, sameLast⟩
    exact ⟨last, foundLast, sameLast.trans sameMiddle⟩

/-! ## The stack of a table -/

/-- What the walk to the root reads of a scope. -/
def view (table : SymbolTable) (scopeId : Nat) : Option (Option Nat × Frame) :=
  (table.getScope scopeId).map fun scope => (scope.parent, scope.toFrame)

private theorem ancestors_succ (table : SymbolTable) (steps scopeId : Nat) :
    (table.ancestors (steps + 1) (some scopeId)).map Scope.toFrame =
      match table.view scopeId with
      | some (parent, frame) => frame :: (table.ancestors steps parent).map Scope.toFrame
      | none => [] := by
  rw [ancestors, view]
  cases table.getScope scopeId <;> rfl

private theorem ancestors_none (table : SymbolTable) (steps : Nat) :
    table.ancestors steps none = [] := by
  cases steps <;> rfl

/-- The walk reads the scopes up to its start only, and enough steps are as good as more. -/
private theorem ancestors_congr {before after : SymbolTable} (sound : before.Sound)
    (same : ∀ other ≤ scopeId, after.view other = before.view other)
    {steps others : Nat} (enough : scopeId < steps) (enoughOthers : scopeId < others) :
    (after.ancestors steps (some scopeId)).map Scope.toFrame =
      (before.ancestors others (some scopeId)).map Scope.toFrame := by
  induction scopeId using Nat.strongRecOn generalizing steps others with
  | ind scopeId induction =>
      rcases steps with _ | steps
      · omega
      rcases others with _ | others
      · omega
      rw [ancestors_succ, ancestors_succ, same scopeId (Nat.le_refl _)]
      cases found : before.getScope scopeId with
      | none => simp [view, found]
      | some scope =>
          simp only [view, found, Option.map_some]
          cases parent : scope.parent with
          | none => rw [ancestors_none, ancestors_none]
          | some parentId =>
              have older := (sound.parents found parent).1
              exact congrArg (scope.toFrame :: ·)
                (induction parentId older (fun other smaller => same other (by omega))
                  (by omega) (by omega))

/-- Tables with the same views and the same current scope have the same stack. -/
theorem environment_of_view {before after : SymbolTable}
    (same : ∀ scopeId, after.view scopeId = before.view scopeId)
    (current : after.currentScope = before.currentScope)
    (next : after.nextScopeId = before.nextScopeId) : after.environment = before.environment := by
  have walks : ∀ steps start, (after.ancestors steps start).map Scope.toFrame =
      (before.ancestors steps start).map Scope.toFrame := by
    intro steps
    induction steps with
    | zero => exact fun _ => rfl
    | succ steps induction =>
        intro start
        cases start with
        | none => rfl
        | some scopeId =>
            rw [ancestors_succ, ancestors_succ, same scopeId]
            cases before.view scopeId with
            | none => rfl
            | some seen => exact congrArg (seen.2 :: ·) (induction seen.1)
  rw [environment, environment, chain, chain, current, next]
  exact walks _ _

private theorem environment_eq (sound : table.Sound)
    {scope : Scope} (current : table.currentScope = some scopeId)
    (found : table.getScope scopeId = some scope) :
    table.environment = scope.toFrame ::
      (table.ancestors table.nextScopeId scope.parent).map Scope.toFrame := by
  have filed := (sound.filed found).2
  rw [environment, chain, current]
  have unfolded := ancestors_succ table table.nextScopeId scopeId
  simp only [view, found, Option.map_some] at unfolded
  rw [← unfolded]
  exact ancestors_congr sound (fun _ _ => rfl) filed (by omega)

/-! ## Changes of the current scope -/

theorem getScope_modifyScope (table : SymbolTable) (scopeId other : Nat)
    (change : Scope → Scope) :
    (table.modifyScope scopeId change).getScope other =
      if other = scopeId then (table.getScope other).map change else table.getScope other := by
  rw [modifyScope]
  by_cases same : other = scopeId
  · subst same
    rw [if_pos rfl]
    cases found : table.getScope other with
    | none => exact found
    | some scope => exact AList.lookup_insert _
  · rw [if_neg same]
    cases table.getScope scopeId with
    | none => rfl
    | some scope => exact AList.lookup_insert_ne same

theorem modifyScope_currentScope (table : SymbolTable) (scopeId : Nat)
    (change : Scope → Scope) :
    (table.modifyScope scopeId change).currentScope = table.currentScope := by
  rw [modifyScope]
  split <;> rfl

theorem modifyScope_nextScopeId (table : SymbolTable) (scopeId : Nat)
    (change : Scope → Scope) :
    (table.modifyScope scopeId change).nextScopeId = table.nextScopeId := by
  rw [modifyScope]
  split <;> rfl

/-- A change that keeps the ids and the parents of the scopes keeps the tree. -/
private theorem sameShape_modifyScope (table : SymbolTable) (scopeId : Nat)
    {change : Scope → Scope} (keepsParent : ∀ scope, (change scope).parent = scope.parent) :
    SameShape table (table.modifyScope scopeId change) where
  current := modifyScope_currentScope _ _ _
  parents {other scope} found := by
    rw [getScope_modifyScope, found]
    split
    · exact ⟨change scope, rfl, keepsParent scope⟩
    · exact ⟨scope, rfl, rfl⟩

private theorem sound_modifyScope (sound : table.Sound) (scopeId : Nat)
    {change : Scope → Scope} (keepsId : ∀ scope, (change scope).id = scope.id)
    (keepsParent : ∀ scope, (change scope).parent = scope.parent) :
    (table.modifyScope scopeId change).Sound := by
  have back : ∀ {other changed}, (table.modifyScope scopeId change).getScope other = some changed →
      ∃ scope, table.getScope other = some scope ∧ changed.id = scope.id ∧
        changed.parent = scope.parent := by
    intro other changed found
    rw [getScope_modifyScope] at found
    split at found
    · rcases Option.map_eq_some_iff.mp found with ⟨scope, known, rfl⟩
      exact ⟨scope, known, keepsId scope, keepsParent scope⟩
    · exact ⟨changed, found, rfl, rfl⟩
  have some_iff : ∀ other, ((table.modifyScope scopeId change).getScope other).isSome =
      (table.getScope other).isSome := by
    intro other
    rw [getScope_modifyScope]
    split <;> simp
  constructor
  · rcases sound.current with ⟨current, scope, isCurrent, found⟩
    rcases (sameShape_modifyScope table scopeId keepsParent).parents found with ⟨changed, known, -⟩
    exact ⟨current, changed, by rw [modifyScope_currentScope, isCurrent], known⟩
  · intro other changed found
    rcases back found with ⟨scope, known, sameId, -⟩
    rw [sameId, modifyScope_nextScopeId]
    exact sound.filed known
  · intro other changed parentId found parent
    rcases back found with ⟨scope, known, -, sameParent⟩
    rw [some_iff]
    exact sound.parents known (sameParent ▸ parent)

private theorem modifyCurrent_eq (change : Frame → Frame)
    (current : table.currentScope = some scopeId) :
    table.modifyCurrent change =
      table.modifyScope scopeId fun scope => { scope with toFrame := change scope.toFrame } := by
  rw [modifyCurrent, current]

theorem Sound.modifyCurrent {table : SymbolTable} (sound : table.Sound)
    (change : Frame → Frame) : (table.modifyCurrent change).Sound := by
  rcases sound.current with ⟨scopeId, scope, current, found⟩
  rw [modifyCurrent_eq change current]
  exact sound_modifyScope sound scopeId (fun _ => rfl) fun _ => rfl

theorem SameShape.modifyCurrent {table : SymbolTable} (sound : table.Sound)
    (change : Frame → Frame) : SameShape table (table.modifyCurrent change) := by
  rcases sound.current with ⟨scopeId, scope, current, found⟩
  rw [modifyCurrent_eq change current]
  exact sameShape_modifyScope table scopeId fun _ => rfl

/-- A change of the current scope is a change of the top of the stack. -/
theorem environment_modifyCurrent (sound : table.Sound) (change : Frame → Frame) :
    (table.modifyCurrent change).environment = table.environment.changeTop change := by
  have changedSound := sound.modifyCurrent change
  rcases sound.current with ⟨scopeId, scope, current, found⟩
  rw [environment_eq sound current found]
  rw [modifyCurrent_eq change current] at changedSound ⊢
  have foundChanged : (table.modifyScope scopeId
      (fun scope => { scope with toFrame := change scope.toFrame })).getScope scopeId =
        some { scope with toFrame := change scope.toFrame } := by
    rw [getScope_modifyScope, if_pos rfl, found, Option.map_some]
  rw [environment_eq changedSound (by rw [modifyScope_currentScope, current]) foundChanged,
    Environment.changeTop, modifyScope_nextScopeId]
  congr 1
  cases parent : scope.parent with
  | none => rw [ancestors_none, ancestors_none]
  | some parentId =>
      have older := (sound.parents found parent).1
      have filed := (sound.filed found).2
      refine ancestors_congr sound ?_ (by omega) (by omega)
      intro other smaller
      rw [view, view, getScope_modifyScope, if_neg (by omega)]

/-! ## Opening and closing -/

theorem getScope_pushScopeWithName {current : Nat}
    (isCurrent : table.currentScope = some current) (name : String)
    (visibility : Inference.Ast.Visibility) (other : Nat) (old : other ≠ table.nextScopeId) :
    (table.pushScopeWithName name visibility).getScope other =
      if other = current then
        (table.getScope other).map fun scope =>
          { scope with children := scope.children ++ [table.nextScopeId] }
      else table.getScope other := by
  rw [pushScopeWithName, getScope]
  simp only [isCurrent]
  rw [AList.lookup_insert_ne old]
  exact getScope_modifyScope _ _ _ _

private theorem getScope_new (table : SymbolTable) (name : String)
    (visibility : Inference.Ast.Visibility) :
    ∃ scope, (table.pushScopeWithName name visibility).getScope table.nextScopeId = some scope ∧
      scope.id = table.nextScopeId ∧ scope.parent = table.currentScope ∧
      scope.toFrame = {} := by
  rw [pushScopeWithName, getScope]
  simp only [AList.lookup_insert]
  exact ⟨_, rfl, rfl, rfl, rfl⟩

/-- A pushed table keeps the frames and the parents of the scopes that it had. -/
private theorem view_pushScopeWithName (sound : table.Sound)
    (name : String) (visibility : Inference.Ast.Visibility) {other : Nat}
    (old : other < table.nextScopeId) :
    (table.pushScopeWithName name visibility).view other = table.view other := by
  rcases sound.current with ⟨current, _, isCurrent, -⟩
  rw [view, view, getScope_pushScopeWithName isCurrent name visibility other (by omega)]
  split
  · cases table.getScope other <;> rfl
  · rfl

theorem Sound.pushScopeWithName {table : SymbolTable} (sound : table.Sound) (name : String)
    (visibility : Inference.Ast.Visibility) :
    (table.pushScopeWithName name visibility).Sound := by
  rcases sound.current with ⟨current, currentScope, isCurrent, foundCurrent⟩
  rcases getScope_new table name visibility with ⟨fresh, foundFresh, freshId, freshParent, -⟩
  have back : ∀ {other changed}, other ≠ table.nextScopeId →
      (table.pushScopeWithName name visibility).getScope other = some changed →
      ∃ scope, table.getScope other = some scope ∧ changed.id = scope.id ∧
        changed.parent = scope.parent := by
    intro other changed old found
    rw [getScope_pushScopeWithName isCurrent name visibility other old] at found
    split at found
    · rcases Option.map_eq_some_iff.mp found with ⟨scope, known, rfl⟩
      exact ⟨scope, known, rfl, rfl⟩
    · exact ⟨changed, found, rfl, rfl⟩
  have kept : ∀ {other}, (table.getScope other).isSome →
      ((table.pushScopeWithName name visibility).getScope other).isSome := by
    intro other known
    rcases Option.isSome_iff_exists.mp known with ⟨scope, found⟩
    have old := (sound.filed found).2
    rw [getScope_pushScopeWithName isCurrent name visibility other (by omega), found]
    split <;> rfl
  constructor
  · exact ⟨table.nextScopeId, fresh, rfl, foundFresh⟩
  · intro other changed found
    show changed.id = other ∧ other < table.nextScopeId + 1
    by_cases new : other = table.nextScopeId
    · subst new
      rw [foundFresh] at found
      cases found
      exact ⟨freshId, by omega⟩
    · rcases back new found with ⟨scope, known, sameId, -⟩
      have filed := sound.filed known
      exact ⟨sameId.trans filed.1, by omega⟩
  · intro other changed parentId found parent
    by_cases new : other = table.nextScopeId
    · subst new
      rw [foundFresh] at found
      cases found
      rw [freshParent, isCurrent] at parent
      cases parent
      exact ⟨(sound.filed foundCurrent).2, kept (by rw [foundCurrent]; rfl)⟩
    · rcases back new found with ⟨scope, known, -, sameParent⟩
      have older := sound.parents known (sameParent ▸ parent)
      exact ⟨older.1, kept older.2⟩

/-- A new scope is an empty frame on the stack. -/
theorem environment_pushScope (sound : table.Sound) :
    table.pushScope.environment = table.environment.openScope := by
  rcases sound.current with ⟨current, currentScope, isCurrent, foundCurrent⟩
  rcases getScope_new table s!"anonymous_{table.nextScopeId}" .private_ with
    ⟨fresh, foundFresh, freshId, freshParent, freshFrame⟩
  have pushed := sound.pushScopeWithName s!"anonymous_{table.nextScopeId}" .private_
  have filed := (sound.filed foundCurrent).2
  rw [pushScope, environment_eq pushed rfl foundFresh, freshFrame, freshParent,
    Environment.openScope, environment, chain, isCurrent]
  congr 1
  refine ancestors_congr sound ?_ (Nat.lt_succ_of_lt filed) filed
  intro other smaller
  exact view_pushScopeWithName sound _ _ (by omega)

/-- Closing a scope gives back the stack and the current scope from before it was opened. -/
theorem popScope_pushed {inner : SymbolTable} (sound : table.Sound)
    (innerSound : inner.Sound) (shape : SameShape table.pushScope inner) :
    inner.popScope.Sound ∧ SameShape table inner.popScope ∧
      inner.popScope.environment = inner.environment.tail := by
  rcases sound.current with ⟨current, currentScope, isCurrent, foundCurrent⟩
  rcases getScope_new table s!"anonymous_{table.nextScopeId}" .private_ with
    ⟨fresh, foundFresh, freshId, freshParent, freshFrame⟩
  rcases shape.parents foundFresh with ⟨changed, foundChanged, sameParent⟩
  have innerCurrent : inner.currentScope = some table.nextScopeId := shape.current
  have parent : changed.parent = some current := sameParent.trans (freshParent.trans isCurrent)
  have popped : inner.popScope = { inner with currentScope := some current } := by
    rw [popScope, innerCurrent, Option.bind_some, foundChanged]
    simp only [parent]
  have older := innerSound.parents foundChanged parent
  rcases Option.isSome_iff_exists.mp older.2 with ⟨outer, foundOuter⟩
  rw [popped]
  refine ⟨⟨⟨current, outer, rfl, foundOuter⟩, innerSound.filed, innerSound.parents⟩,
    ⟨isCurrent.symm, ?_⟩, ?_⟩
  · intro other scope found
    have old := (sound.filed found).2
    have pushedFound := getScope_pushScopeWithName isCurrent
      s!"anonymous_{table.nextScopeId}" .private_ other (by omega)
    rw [found] at pushedFound
    split at pushedFound
    · rcases shape.parents pushedFound with ⟨last, foundLast, sameLast⟩
      exact ⟨last, foundLast, sameLast⟩
    · rcases shape.parents pushedFound with ⟨last, foundLast, sameLast⟩
      exact ⟨last, foundLast, sameLast⟩
  · rw [environment_eq innerSound innerCurrent foundChanged, parent, List.tail_cons]
    have filed := (innerSound.filed foundOuter).2
    have same : ∀ other ≤ current,
        view { inner with currentScope := some current } other = inner.view other :=
      fun _ _ => rfl
    exact ancestors_congr innerSound same filed filed

/-! ## Registration -/

/-- A registration changes the top frame or fails. -/
theorem insertCurrent_ok {changed : SymbolTable} {noScope : String}
    {change : Nat → Frame → Except String Frame}
    (registered : table.insertCurrent noScope change = .ok changed) :
    ∃ scope frame, table.currentScope.bind table.getScope = some scope ∧
      change scope.id scope.toFrame = .ok frame ∧ changed = table.modifyCurrent fun _ => frame := by
  rw [insertCurrent] at registered
  cases found : table.currentScope.bind table.getScope with
  | none => simp [found] at registered
  | some scope =>
      simp only [found] at registered
      cases changes : change scope.id scope.toFrame with
      | error reason => simp [changes, Except.map] at registered
      | ok frame =>
          simp only [changes, Except.map, Except.ok.injEq] at registered
          exact ⟨scope, frame, rfl, changes, registered.symm⟩

theorem insertCurrent_error (sound : table.Sound) {noScope reason : String}
    {change : Nat → Frame → Except String Frame}
    (failed : table.insertCurrent noScope change = .error reason) :
    ∃ scope, table.currentScope.bind table.getScope = some scope ∧
      change scope.id scope.toFrame = .error reason := by
  rcases sound.current with ⟨current, scope, isCurrent, found⟩
  rw [insertCurrent, isCurrent, Option.bind_some, found] at failed
  simp only at failed
  rw [isCurrent, Option.bind_some, found]
  cases changes : change scope.id scope.toFrame with
  | ok frame => simp [changes, Except.map] at failed
  | error other =>
      simp only [changes, Except.map, Except.error.injEq] at failed
      exact ⟨scope, rfl, changes.trans (congrArg _ failed)⟩

/-- The frame of the current scope is the top of the stack. -/
theorem environment_current (sound : table.Sound) {scope : Scope}
    (found : table.currentScope.bind table.getScope = some scope) :
    ∃ rest, table.environment = scope.toFrame :: rest := by
  rcases sound.current with ⟨current, known, isCurrent, foundKnown⟩
  rw [isCurrent, Option.bind_some, foundKnown, Option.some.injEq] at found
  subst found
  exact ⟨_, environment_eq sound isCurrent foundKnown⟩

end SymbolTable

end Inference.TypeChecker
