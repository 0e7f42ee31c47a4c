import Mathlib.Logic.Relation
import Inference.TypeChecker.ScopeTree

/-! # The tree of the scopes

The scope table is a tree under the root scope. The operations of the table keep the
tree, and they keep what was recorded about the place of a scope in it.
-/

namespace Inference.TypeChecker

open Inference.Ast

variable {scopeId other current : Nat} {scope : Scope}

namespace SymbolTable

/-- The full path of a scope with the given name under a scope with the given path. -/
def pathUnder (parentPath name : String) : String :=
  if parentPath.isEmpty then name else s!"{parentPath}::{name}"

/-- The scopes are a tree under the root scope, and one of them is the current scope. -/
structure IsScopeTree (table : SymbolTable) : Prop where
  root : ∃ rootId root, table.rootScope = some rootId ∧ table.getScope rootId = some root ∧
    root.parent = none ∧ root.fullPath = ""
  current : ∃ scopeId scope, table.currentScope = some scopeId ∧
    table.getScope scopeId = some scope
  filed : ∀ {scopeId scope}, table.getScope scopeId = some scope →
    scope.id = scopeId ∧ scopeId < table.nextScopeId
  orphan : ∀ {scopeId scope}, table.getScope scopeId = some scope → scope.parent = none →
    table.rootScope = some scopeId
  parents : ∀ {scopeId scope parentId}, table.getScope scopeId = some scope →
    scope.parent = some parentId → parentId < scopeId ∧ ∃ parent,
      table.getScope parentId = some parent ∧ parent.children.count scopeId = 1 ∧
        scope.fullPath = pathUnder parent.fullPath scope.name ∧ scope.name ≠ ""
  children : ∀ {scopeId scope childId}, table.getScope scopeId = some scope →
    childId ∈ scope.children → ∃ child, table.getScope childId = some child ∧
      child.parent = some scopeId

theorem IsScopeTree.sound {table : SymbolTable} (tree : table.IsScopeTree) : table.Sound where
  current := tree.current
  filed := tree.filed
  parents found parent := by
    rcases tree.parents found parent with ⟨older, known, foundParent, _⟩
    exact ⟨older, by rw [foundParent]; rfl⟩

/-- The place of a scope in the tree, which is recorded when the scope is opened. -/
structure SamePlace (scope changed : Scope) : Prop where
  id : changed.id = scope.id
  name : changed.name = scope.name
  fullPath : changed.fullPath = scope.fullPath
  parent : changed.parent = scope.parent

theorem SamePlace.refl (scope : Scope) : SamePlace scope scope :=
  ⟨rfl, rfl, rfl, rfl⟩

theorem SamePlace.trans {first second third : Scope} (left : SamePlace first second)
    (right : SamePlace second third) : SamePlace first third :=
  ⟨right.id.trans left.id, right.name.trans left.name, right.fullPath.trans left.fullPath,
    right.parent.trans left.parent⟩

/-- The scopes of the first table are scopes of the second one at the same places, and the
other scopes of the second one have new ids. -/
structure Grows (before after : SymbolTable) : Prop where
  next : before.nextScopeId ≤ after.nextScopeId
  kept : ∀ {scopeId scope}, before.getScope scopeId = some scope →
    ∃ changed, after.getScope scopeId = some changed ∧ SamePlace scope changed
  fresh : ∀ {scopeId changed}, before.getScope scopeId = none →
    after.getScope scopeId = some changed → before.nextScopeId ≤ scopeId

theorem Grows.refl (table : SymbolTable) : Grows table table where
  next := Nat.le_refl _
  kept found := ⟨_, found, .refl _⟩
  fresh absent found := by
    rw [absent] at found
    cases found

theorem Grows.trans {first second third : SymbolTable} (left : Grows first second)
    (right : Grows second third) : Grows first third where
  next := Nat.le_trans left.next right.next
  kept found := by
    rcases left.kept found with ⟨middle, foundMiddle, sameMiddle⟩
    rcases right.kept foundMiddle with ⟨last, foundLast, sameLast⟩
    exact ⟨last, foundLast, sameMiddle.trans sameLast⟩
  fresh {scopeId _} absent found := by
    cases between : second.getScope scopeId with
    | none => exact Nat.le_trans left.next (right.fresh between found)
    | some scope => exact left.fresh absent between

/-! ## Changes inside a scope -/

/-- A change of what a scope holds, which keeps its place and its children. -/
structure Inside (change : Scope → Scope) : Prop where
  place : ∀ scope, SamePlace scope (change scope)
  children : ∀ scope, (change scope).children = scope.children

section

variable {table : SymbolTable} {change : Scope → Scope} (inside : Inside change)

include inside

/-- A scope of the changed table is one of the table, at the same place. -/
theorem getScope_of_modifyScope {changed : Scope}
    (found : (table.modifyScope scopeId change).getScope other = some changed) :
    ∃ scope, table.getScope other = some scope ∧ SamePlace scope changed ∧
      changed.children = scope.children := by
  rw [getScope_modifyScope] at found
  split at found
  · rcases Option.map_eq_some_iff.mp found with ⟨scope, known, rfl⟩
    exact ⟨scope, known, inside.place scope, inside.children scope⟩
  · exact ⟨changed, found, .refl _, rfl⟩

theorem getScope_modifyScope_of (found : table.getScope other = some scope) :
    ∃ changed, (table.modifyScope scopeId change).getScope other = some changed ∧
      SamePlace scope changed ∧ changed.children = scope.children := by
  rw [getScope_modifyScope, found]
  split
  · exact ⟨change scope, rfl, inside.place scope, inside.children scope⟩
  · exact ⟨scope, rfl, .refl _, rfl⟩

theorem Grows.modifyScope (scopeId : Nat) : Grows table (table.modifyScope scopeId change) where
  next := by rw [modifyScope_nextScopeId]
  kept found := by
    rcases getScope_modifyScope_of inside found with ⟨changed, known, same, _⟩
    exact ⟨changed, known, same⟩
  fresh absent found := by
    rcases getScope_of_modifyScope inside found with ⟨scope, known, _⟩
    rw [absent] at known
    cases known

/-- A change that leaves what lookups find in a scope. -/
theorem environment_modifyScope (table : SymbolTable) (scopeId : Nat)
    (frames : ∀ scope, (change scope).toFrame = scope.toFrame) :
    (table.modifyScope scopeId change).environment = table.environment := by
  apply environment_of_view
  · intro other
    rw [view, view, getScope_modifyScope]
    split
    · cases table.getScope other with
      | none => rfl
      | some scope =>
          simp only [Option.map_some, frames, (inside.place scope).parent]
    · rfl
  · exact modifyScope_currentScope _ _ _
  · exact modifyScope_nextScopeId _ _ _

omit inside in
theorem modifyScope_rootScope (table : SymbolTable) (scopeId : Nat)
    (change : Scope → Scope) : (table.modifyScope scopeId change).rootScope = table.rootScope := by
  rw [SymbolTable.modifyScope]
  split <;> rfl

theorem IsScopeTree.modifyScope (tree : table.IsScopeTree) (scopeId : Nat) :
    (table.modifyScope scopeId change).IsScopeTree := by
  constructor
  · rcases tree.root with ⟨rootId, root, isRoot, found, noParent, noPath⟩
    rcases getScope_modifyScope_of inside found with ⟨changed, known, same, _⟩
    exact ⟨rootId, changed, by rw [modifyScope_rootScope, isRoot], known,
      same.parent.trans noParent, same.fullPath.trans noPath⟩
  · rcases tree.current with ⟨current, scope, isCurrent, found⟩
    rcases getScope_modifyScope_of inside found with ⟨changed, known, _, _⟩
    exact ⟨current, changed, by rw [modifyScope_currentScope, isCurrent], known⟩
  · intro other changed found
    rcases getScope_of_modifyScope inside found with ⟨scope, known, same, _⟩
    rw [modifyScope_nextScopeId, same.id]
    exact tree.filed known
  · intro other changed found noParent
    rcases getScope_of_modifyScope inside found with ⟨scope, known, same, _⟩
    rw [modifyScope_rootScope]
    exact tree.orphan known (same.parent.symm.trans noParent)
  · intro other changed parentId found hasParent
    rcases getScope_of_modifyScope inside found with ⟨scope, known, same, _⟩
    rcases tree.parents known (same.parent.symm.trans hasParent) with
      ⟨older, parent, foundParent, listed, path, named⟩
    rcases getScope_modifyScope_of inside foundParent with
      ⟨changedParent, knownParent, sameParent, sameChildren⟩
    refine ⟨older, changedParent, knownParent, ?_, ?_, ?_⟩
    · rw [sameChildren, listed]
    · rw [same.fullPath, same.name, sameParent.fullPath, path]
    · rwa [same.name]
  · intro other changed childId found member
    rcases getScope_of_modifyScope inside found with ⟨scope, known, _, sameChildren⟩
    rw [sameChildren] at member
    rcases tree.children known member with ⟨child, foundChild, isParent⟩
    rcases getScope_modifyScope_of inside foundChild with ⟨changedChild, knownChild, same, _⟩
    exact ⟨changedChild, knownChild, same.parent.trans isParent⟩

end

theorem inside_frame (change : Frame → Frame) :
    Inside fun scope => { scope with toFrame := change scope.toFrame } where
  place _ := ⟨rfl, rfl, rfl, rfl⟩
  children _ := rfl

theorem IsScopeTree.modifyCurrent {table : SymbolTable} (tree : table.IsScopeTree)
    (change : Frame → Frame) : (table.modifyCurrent change).IsScopeTree := by
  rcases tree.current with ⟨current, scope, isCurrent, found⟩
  rw [SymbolTable.modifyCurrent, isCurrent]
  exact tree.modifyScope (inside_frame change) current

theorem Grows.modifyCurrent {table : SymbolTable} (tree : table.IsScopeTree)
    (change : Frame → Frame) : Grows table (table.modifyCurrent change) := by
  rcases tree.current with ⟨current, scope, isCurrent, found⟩
  rw [SymbolTable.modifyCurrent, isCurrent]
  exact Grows.modifyScope (inside_frame change) current

theorem currentScope_modifyCurrent (table : SymbolTable) (change : Frame → Frame) :
    (table.modifyCurrent change).currentScope = table.currentScope := by
  rw [SymbolTable.modifyCurrent]
  split
  · rw [modifyScope_currentScope]
  · rfl

/-! ## Opening and closing -/

section

variable {table : SymbolTable}

/-- The scope that a table with the current scope opens. -/
def opened (table : SymbolTable) (current : Scope) (name : String) (visibility : Visibility) :
    Scope :=
  { id := table.nextScopeId, name, fullPath := pathUnder current.fullPath name, visibility
    parent := some current.id }

theorem getScope_opened (name : String) (visibility : Visibility)
    (isCurrent : table.currentScope = some current) (found : table.getScope current = some scope)
    (filed : scope.id = current) :
    (table.pushScopeWithName name visibility).getScope table.nextScopeId =
      some (table.opened scope name visibility) := by
  rw [pushScopeWithName, getScope]
  simp only [AList.lookup_insert, isCurrent, Option.bind_some, found, Option.map_some, opened,
    pathUnder, filed]

theorem IsScopeTree.fresh (tree : table.IsScopeTree)
    (found : table.getScope scopeId = some scope) : scopeId ≠ table.nextScopeId :=
  Nat.ne_of_lt (tree.filed found).2

/-- An old scope of the table with a new scope, which is a child of the current one. -/
theorem getScope_pushed (name : String) (visibility : Visibility)
    (isCurrent : table.currentScope = some current) (found : table.getScope other = some scope)
    (old : other ≠ table.nextScopeId) :
    ∃ changed, (table.pushScopeWithName name visibility).getScope other = some changed ∧
      SamePlace scope changed ∧ changed.children =
        if other = current then scope.children ++ [table.nextScopeId] else scope.children := by
  rw [getScope_pushScopeWithName isCurrent name visibility other old, found]
  split
  · exact ⟨_, rfl, ⟨rfl, rfl, rfl, rfl⟩, rfl⟩
  · exact ⟨scope, rfl, .refl _, rfl⟩

theorem getScope_of_pushed {name : String} {visibility : Visibility} {changed : Scope}
    (isCurrent : table.currentScope = some current) (old : other ≠ table.nextScopeId)
    (found : (table.pushScopeWithName name visibility).getScope other = some changed) :
    ∃ scope, table.getScope other = some scope ∧ SamePlace scope changed ∧ changed.children =
      if other = current then scope.children ++ [table.nextScopeId] else scope.children := by
  rw [getScope_pushScopeWithName isCurrent name visibility other old] at found
  by_cases isOther : other = current
  · rw [if_pos isOther] at found
    rcases Option.map_eq_some_iff.mp found with ⟨scope, known, rfl⟩
    exact ⟨scope, known, ⟨rfl, rfl, rfl, rfl⟩, by rw [if_pos isOther]⟩
  · rw [if_neg isOther] at found
    exact ⟨changed, found, .refl _, by rw [if_neg isOther]⟩

theorem Grows.pushScopeWithName (tree : table.IsScopeTree) (name : String)
    (visibility : Visibility) : Grows table (table.pushScopeWithName name visibility) where
  next := Nat.le_succ _
  kept found := by
    rcases tree.current with ⟨current, _, isCurrent, _⟩
    rcases getScope_pushed name visibility isCurrent found (tree.fresh found) with ⟨changed, known, same, _⟩
    exact ⟨changed, known, same⟩
  fresh {scopeId _} absent found := by
    by_cases new : scopeId = table.nextScopeId
    · rw [new]
    · rcases tree.current with ⟨current, _, isCurrent, _⟩
      rcases getScope_of_pushed isCurrent new found with ⟨scope, known, _⟩
      rw [absent] at known
      cases known

/-- A new scope has no children, and no scope has it as a parent. -/
theorem IsScopeTree.not_child (tree : table.IsScopeTree)
    (found : table.getScope scopeId = some scope) : table.nextScopeId ∉ scope.children := by
  intro member
  rcases tree.children found member with ⟨child, foundChild, _⟩
  exact tree.fresh foundChild rfl

theorem IsScopeTree.pushScopeWithName (tree : table.IsScopeTree) {name : String}
    (named : name ≠ "") (visibility : Visibility) : (table.pushScopeWithName name visibility).IsScopeTree := by
  rcases tree.current with ⟨current, currentScope, isCurrent, foundCurrent⟩
  have currentFiled := tree.filed foundCurrent
  have foundNew := getScope_opened name visibility isCurrent foundCurrent
    currentFiled.1
  constructor
  · rcases tree.root with ⟨rootId, root, isRoot, found, noParent, noPath⟩
    rcases getScope_pushed name visibility isCurrent found (tree.fresh found) with ⟨changed, known, same, _⟩
    refine ⟨rootId, changed, ?_, known, same.parent.trans noParent, same.fullPath.trans noPath⟩
    rw [SymbolTable.pushScopeWithName]
    simp only [isCurrent, modifyScope_rootScope, isRoot]
  · exact ⟨table.nextScopeId, _, rfl, foundNew⟩
  · intro other changed found
    show changed.id = other ∧ other < table.nextScopeId + 1
    by_cases new : other = table.nextScopeId
    · subst new
      rw [foundNew] at found
      cases found
      exact ⟨rfl, Nat.lt_succ_self _⟩
    · rcases getScope_of_pushed isCurrent new found with ⟨scope, known, same, _⟩
      have filed := tree.filed known
      exact ⟨same.id.trans filed.1, by omega⟩
  · intro other changed found noParent
    have sameRoot : (table.pushScopeWithName name visibility).rootScope = table.rootScope := by
      rw [SymbolTable.pushScopeWithName]
      simp only [isCurrent, modifyScope_rootScope]
    rw [sameRoot]
    by_cases new : other = table.nextScopeId
    · subst new
      rw [foundNew] at found
      cases found
      cases noParent
    · rcases getScope_of_pushed isCurrent new found with ⟨scope, known, same, _⟩
      exact tree.orphan known (same.parent.symm.trans noParent)
  · intro other changed parentId found hasParent
    by_cases new : other = table.nextScopeId
    · subst new
      rw [foundNew] at found
      cases found
      cases hasParent
      have foundParent : table.getScope currentScope.id = some currentScope := by
        rw [currentFiled.1, foundCurrent]
      rcases getScope_pushed name visibility isCurrent foundParent
        (tree.fresh foundParent) with ⟨parent, knownParent, same, children⟩
      refine ⟨by rw [currentFiled.1]; exact currentFiled.2, parent, knownParent, ?_, ?_, named⟩
      · rw [children, if_pos currentFiled.1, List.count_append,
          List.count_eq_zero_of_not_mem (tree.not_child foundCurrent)]
        simp
      · rw [same.fullPath]
        rfl
    · rcases getScope_of_pushed isCurrent new found with ⟨scope, known, same, _⟩
      rcases tree.parents known (same.parent.symm.trans hasParent) with
        ⟨older, parent, foundParent, listed, path, hasName⟩
      rcases getScope_pushed name visibility isCurrent foundParent
        (tree.fresh foundParent) with ⟨changedParent, knownParent, sameParent, children⟩
      refine ⟨older, changedParent, knownParent, ?_, ?_, ?_⟩
      · rw [children]
        split
        · rw [List.count_append, listed, List.count_eq_zero_of_not_mem (by simpa using new)]
        · exact listed
      · rw [same.fullPath, same.name, sameParent.fullPath, path]
      · rwa [same.name]
  · intro other changed childId found member
    by_cases new : other = table.nextScopeId
    · subst new
      rw [foundNew] at found
      cases found
      cases member
    · rcases getScope_of_pushed isCurrent new found with ⟨scope, known, same, children⟩
      rw [children] at member
      have oldChild : childId ∈ scope.children →
          ∃ child, (table.pushScopeWithName name visibility).getScope childId = some child ∧
            child.parent = some other := by
        intro oldMember
        rcases tree.children known oldMember with ⟨child, foundChild, isParent⟩
        rcases getScope_pushed name visibility isCurrent foundChild
          (tree.fresh foundChild) with ⟨changedChild, knownChild, sameChild, _⟩
        exact ⟨changedChild, knownChild, sameChild.parent.trans isParent⟩
      split at member
      · rename_i isOther
        rcases List.mem_append.mp member with oldMember | newMember
        · exact oldChild oldMember
        · rw [List.mem_singleton.mp newMember]
          refine ⟨_, foundNew, ?_⟩
          rw [opened, currentFiled.1, isOther]
      · exact oldChild member

/-- Closing a scope that has a parent. -/
theorem IsScopeTree.popScope (tree : table.IsScopeTree) {current parentId : Nat} {scope : Scope}
    (isCurrent : table.currentScope = some current) (found : table.getScope current = some scope)
    (hasParent : scope.parent = some parentId) :
    table.popScope.IsScopeTree ∧ Grows table table.popScope ∧
      table.popScope.currentScope = some parentId := by
  have popped : table.popScope = { table with currentScope := some parentId } := by
    rw [SymbolTable.popScope, isCurrent, Option.bind_some, found]
    simp only [hasParent]
  rcases tree.parents found hasParent with ⟨_, parent, foundParent, _⟩
  rw [popped]
  have grows : Grows table table := .refl table
  exact ⟨⟨tree.root, ⟨parentId, parent, rfl, foundParent⟩, tree.filed, tree.orphan, tree.parents,
    tree.children⟩, ⟨grows.next, grows.kept, grows.fresh⟩, rfl⟩

end

/-! ## The initial table -/

theorem IsScopeTree.default : SymbolTable.default.IsScopeTree := by
  have found : ∀ {scopeId scope}, (initRootScope {}).getScope scopeId = some scope →
      scopeId = 0 ∧ scope =
        { id := 0, name := "root", fullPath := "", visibility := .public_, parent := none } := by
    intro scopeId scope known
    by_cases zero : scopeId = 0
    · subst zero
      rw [initRootScope, getScope] at known
      simp only [AList.lookup_insert, Option.some.injEq] at known
      exact ⟨rfl, known.symm⟩
    · rw [initRootScope, getScope] at known
      simp only [AList.lookup_insert_ne zero] at known
      cases known
  have root : (initRootScope {}).IsScopeTree := by
    constructor
    · exact ⟨0, _, rfl, AList.lookup_insert _, rfl, rfl⟩
    · exact ⟨0, _, rfl, AList.lookup_insert _⟩
    · intro scopeId scope known
      rcases found known with ⟨rfl, rfl⟩
      exact ⟨rfl, Nat.zero_lt_one⟩
    · intro scopeId scope known _
      rw [(found known).1]
      rfl
    · intro scopeId scope parentId known hasParent
      rw [(found known).2] at hasParent
      cases hasParent
    · intro scopeId scope childId known member
      rw [(found known).2] at member
      cases member
  rw [SymbolTable.default, initBuiltinTypes]
  exact root.modifyCurrent _

/-! ## Full paths -/

/-- The scopes from the root to the given one. -/
def lineage (table : SymbolTable) (scopeId : Nat) : List Scope :=
  (table.ancestors table.nextScopeId (some scopeId)).reverse

theorem ancestors_enough {table : SymbolTable} (tree : table.IsScopeTree)
    {steps others : Nat} (enough : scopeId < steps) (enoughOthers : scopeId < others) :
    table.ancestors steps (some scopeId) = table.ancestors others (some scopeId) := by
  induction scopeId using Nat.strongRecOn generalizing steps others with
  | ind scopeId induction =>
      rcases steps with _ | steps
      · omega
      rcases others with _ | others
      · omega
      rw [ancestors, ancestors]
      cases found : table.getScope scopeId with
      | none => rfl
      | some scope =>
          cases hasParent : scope.parent with
          | none => cases steps <;> cases others <;> simp [hasParent, ancestors]
          | some parentId =>
              have older := (tree.parents found hasParent).1
              simp only [hasParent]
              have same : table.ancestors steps (some parentId) =
                  table.ancestors others (some parentId) :=
                induction parentId older (by omega) (by omega)
              rw [same]

theorem lineage_root {table : SymbolTable} (tree : table.IsScopeTree)
    (found : table.getScope scopeId = some scope) (noParent : scope.parent = none) :
    table.lineage scopeId = [scope] := by
  have filed := (tree.filed found).2
  rw [lineage, ancestors_enough tree filed (Nat.lt_succ_of_lt filed), ancestors, found]
  cases steps : table.nextScopeId <;> simp [noParent, ancestors]

theorem lineage_child {table : SymbolTable} (tree : table.IsScopeTree) {parentId : Nat}
    (found : table.getScope scopeId = some scope) (hasParent : scope.parent = some parentId) :
    table.lineage scopeId = table.lineage parentId ++ [scope] := by
  have filed := (tree.filed found).2
  rw [lineage, ancestors_enough tree filed (Nat.lt_succ_of_lt filed), ancestors, found]
  simp only [hasParent]
  rw [List.reverse_cons, lineage]

/-- The names of the scopes on the way from the root, which has no name of its own. -/
def pathNames (table : SymbolTable) (scopeId : Nat) : List String :=
  (table.lineage scopeId).tail.map (·.name)

theorem lineage_ne_nil {table : SymbolTable} (tree : table.IsScopeTree)
    (found : table.getScope scopeId = some scope) :
    table.lineage scopeId ≠ [] := by
  cases hasParent : scope.parent with
  | none =>
      rw [lineage_root tree found hasParent]
      exact List.cons_ne_nil _ _
  | some parentId =>
      rw [lineage_child tree found hasParent]
      exact List.append_ne_nil_of_right_ne_nil _ (List.cons_ne_nil _ _)

/-- The full path of a scope joins the names on the way from the root. -/
theorem IsScopeTree.fullPath_eq {table : SymbolTable} (tree : table.IsScopeTree)
    (found : table.getScope scopeId = some scope) :
    scope.fullPath = "::".intercalate (table.pathNames scopeId) ∧
      (scope.fullPath = "" ↔ scope.parent = none) := by
  induction scopeId using Nat.strongRecOn generalizing scope with
  | ind scopeId induction =>
      cases hasParent : scope.parent with
      | none =>
          rcases tree.root with ⟨rootId, root, isRoot, foundRoot, _, noPath⟩
          have same := (tree.orphan found hasParent).symm.trans isRoot
          cases same
          rw [found] at foundRoot
          cases foundRoot
          rw [pathNames, lineage_root tree found hasParent, noPath]
          exact ⟨String.intercalate_nil.symm, iff_of_true rfl rfl⟩
      | some parentId =>
          rcases tree.parents found hasParent with
            ⟨older, parent, foundParent, _, path, named⟩
          rcases induction parentId older foundParent with ⟨parentPath, emptyPath⟩
          have nonempty := lineage_ne_nil tree foundParent
          have names : table.pathNames scopeId = table.pathNames parentId ++ [scope.name] := by
            rw [pathNames, lineage_child tree found hasParent,
              List.tail_append_of_ne_nil nonempty, List.map_append]
            rfl
          have joined : scope.fullPath = "::".intercalate (table.pathNames scopeId) := by
            rw [path, names, pathUnder]
            by_cases isRoot : parent.parent = none
            · have noNames : table.pathNames parentId = [] := by
                rw [pathNames, lineage_root tree foundParent isRoot]
                rfl
              rw [emptyPath.mpr isRoot, noNames]
              exact String.intercalate_singleton.symm
            · have notEmpty : ¬ parent.fullPath.isEmpty = true := by
                intro empty
                exact isRoot (emptyPath.mp (String.isEmpty_iff.mp empty))
              have hasNames : table.pathNames parentId ≠ [] := by
                intro noNames
                rw [noNames, String.intercalate_nil] at parentPath
                exact isRoot (emptyPath.mp parentPath)
              rw [if_neg notEmpty,
                String.intercalate_append_of_ne_nil hasNames (List.cons_ne_nil _ _),
                String.intercalate_singleton, parentPath]
              rfl
          refine ⟨joined, ?_⟩
          apply iff_of_false _ (by simp)
          intro empty
          rw [path, pathUnder] at empty
          split at empty
          · exact named empty
          · exact named (String.append_eq_empty_iff.mp empty).2

/-! ## Descendants -/

/-- The second scope is a child of the first one. -/
def Child (table : SymbolTable) (parentId childId : Nat) : Prop :=
  ∃ parent, table.getScope parentId = some parent ∧ childId ∈ parent.children

/-- The second scope is the first one or below it. -/
def Descends (table : SymbolTable) (ancestor scopeId : Nat) : Prop :=
  Relation.ReflTransGen table.Child ancestor scopeId

/-- The loop that walks from a scope to the root in search of a target, with its answer. -/
inductive Walk (table : SymbolTable) (target : Nat) : Nat → Bool → Prop where
  | reached : Walk table target target true
  | up {current parentId : Nat} {answer : Bool} (other : current ≠ target)
      (hasParent : (table.getScope current).bind (·.parent) = some parentId)
      (rest : Walk table target parentId answer) : Walk table target current answer
  | ended {current : Nat} (other : current ≠ target)
      (noParent : (table.getScope current).bind (·.parent) = none) :
      Walk table target current false

theorem IsScopeTree.child_iff {table : SymbolTable} (tree : table.IsScopeTree)
    {parentId childId : Nat} : table.Child parentId childId ↔
      (table.getScope childId).bind (·.parent) = some parentId := by
  constructor
  · rintro ⟨parent, foundParent, member⟩
    rcases tree.children foundParent member with ⟨child, found, isParent⟩
    rw [found, Option.bind_some, isParent]
  · intro hasParent
    rcases Option.bind_eq_some_iff.mp hasParent with ⟨child, found, isParent⟩
    rcases tree.parents found isParent with ⟨_, parent, foundParent, listed, _⟩
    exact ⟨parent, foundParent, List.count_pos_iff.mp (by omega)⟩

/-- The walk of the checker is the loop, where it has enough steps. -/
theorem IsScopeTree.walk {table : SymbolTable} (tree : table.IsScopeTree) (target : Nat)
    {steps : Nat} (enough : scopeId ≤ steps) :
    table.Walk target scopeId (table.isScopeDescendantOf steps scopeId target) := by
  induction scopeId using Nat.strongRecOn generalizing steps with
  | ind scopeId induction =>
      by_cases reached : scopeId = target
      · subst reached
        cases steps <;> simp only [isScopeDescendantOf, if_true, decide_true] <;> exact .reached
      · cases parent : (table.getScope scopeId).bind (·.parent) with
        | none =>
            have answer : table.isScopeDescendantOf steps scopeId target = false := by
              cases steps <;> simp [isScopeDescendantOf, reached, parent]
            rw [answer]
            exact .ended reached parent
        | some parentId =>
            rcases Option.bind_eq_some_iff.mp parent with ⟨scope, found, isParent⟩
            have older := (tree.parents found isParent).1
            rcases steps with _ | steps
            · omega
            rw [isScopeDescendantOf, if_neg reached, parent]
            exact .up reached parent (induction parentId older (by omega))

/-- What the loop answers is whether the scope descends from the target. -/
theorem Walk.answer_iff {table : SymbolTable} (tree : table.IsScopeTree) {target : Nat}
    {answer : Bool} (walk : table.Walk target scopeId answer) :
    answer = true ↔ table.Descends target scopeId := by
  induction walk with
  | reached => exact iff_of_true rfl .refl
  | up other hasParent rest induction =>
      rw [induction]
      constructor
      · intro descends
        exact descends.tail (tree.child_iff.mpr hasParent)
      · intro descends
        rcases Relation.ReflTransGen.cases_tail descends with same | ⟨middle, front, single⟩
        · exact absurd same other
        · have parent := tree.child_iff.mp single
          rw [hasParent] at parent
          cases parent
          exact front
  | ended other noParent =>
      apply iff_of_false (by simp)
      intro descends
      rcases Relation.ReflTransGen.cases_tail descends with same | ⟨middle, _, single⟩
      · exact other same
      · have parent := tree.child_iff.mp single
        rw [noParent] at parent
        cases parent

/-- The steps that the checker gives to the walk are enough for every scope. -/
theorem IsScopeTree.walk_all {table : SymbolTable} (tree : table.IsScopeTree)
    (target scopeId : Nat) :
    table.Walk target scopeId (table.isScopeDescendantOf table.nextScopeId scopeId target) := by
  by_cases known : scopeId ≤ table.nextScopeId
  · exact tree.walk target known
  · have absent : table.getScope scopeId = none := by
      cases found : table.getScope scopeId with
      | none => rfl
      | some scope => exact absurd (Nat.le_of_lt (tree.filed found).2) known
    by_cases reached : scopeId = target
    · subst reached
      cases table.nextScopeId <;> simp only [isScopeDescendantOf, if_true, decide_true] <;>
        exact .reached
    · have answer : table.isScopeDescendantOf table.nextScopeId scopeId target = false := by
        cases table.nextScopeId <;> simp [isScopeDescendantOf, reached, absent]
      rw [answer]
      exact .ended reached (by rw [absent]; rfl)

theorem IsScopeTree.isScopeDescendantOf_iff {table : SymbolTable} (tree : table.IsScopeTree)
    (target scopeId : Nat) :
    table.isScopeDescendantOf table.nextScopeId scopeId target = true ↔
      table.Descends target scopeId :=
  (tree.walk_all target scopeId).answer_iff tree

end SymbolTable

end Inference.TypeChecker
