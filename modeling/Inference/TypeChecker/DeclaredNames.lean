import Inference.Foundation.Ledger
import Inference.TypeChecker.ProgramRuns

/-! # Declared names

A registration without errors files a name that was free in the current scope. The names that a run
files in a scope are all different, and what is checked in a scope of its own leaves the names of
the scopes around it.
-/

namespace Inference.TypeChecker

open Inference.Ast Inference.Foundation Collecting

/-- A name in one of the two name spaces of a scope. -/
inductive DeclaredName where
  | symbol (name : String)
  | variable_ (name : String)
deriving DecidableEq, Repr

def Frame.Declares (frame : Frame) : DeclaredName → Prop
  | .symbol name => name ∈ frame.symbols
  | .variable_ name => name ∈ frame.variables_

/-- The name is declared in the current scope. -/
def SymbolTable.Declares (table : SymbolTable) (name : DeclaredName) : Prop :=
  ∃ frame rest, table.environment = frame :: rest ∧ frame.Declares name

/-- The names are declared in the current scope, each for the first time. -/
structure NamesAdded (before : SymbolTable) (names : List DeclaredName) (after : SymbolTable) :
    Prop where
  tree : after.IsScopeTree
  current : after.currentScope = before.currentScope
  grows : SymbolTable.Grows before after
  outer : after.environment.tail = before.environment.tail
  distinct : names.Nodup
  fresh : ∀ name ∈ names, ¬before.Declares name
  declared : ∀ name, after.Declares name ↔ before.Declares name ∨ name ∈ names

theorem NamesAdded.refl {table : SymbolTable} (tree : table.IsScopeTree) :
    NamesAdded table [] table where
  tree := tree
  current := rfl
  grows := .refl table
  outer := rfl
  distinct := List.nodup_nil
  fresh _ member := nomatch member
  declared _ := (or_iff_left List.not_mem_nil).symm

theorem NamesAdded.trans {first middle last : SymbolTable} {names more : List DeclaredName}
    (left : NamesAdded first names middle) (right : NamesAdded middle more last) :
    NamesAdded first (names ++ more) last where
  tree := right.tree
  current := right.current.trans left.current
  grows := left.grows.trans right.grows
  outer := right.outer.trans left.outer
  distinct := by
    apply List.nodup_append'.mpr
    refine ⟨left.distinct, right.distinct, ?_⟩
    intro name inNames inMore
    exact right.fresh name inMore ((left.declared name).mpr (.inr inNames))
  fresh name member := by
    rcases List.mem_append.mp member with inNames | inMore
    · exact left.fresh name inNames
    · exact fun known => right.fresh name inMore ((left.declared name).mpr (.inl known))
  declared name := by
    rw [right.declared, left.declared, List.mem_append, or_assoc]

def scopeLedger : Ledger CheckState DeclaredName where
  sound state := state.symbolTable.IsScopeTree
  files before names after := NamesAdded before.symbolTable names after.symbolTable
  start := NamesAdded.refl
  join := NamesAdded.trans
  kept added := added.tree

/-! ## Single steps -/

section

variable {result : Type}

theorem pushError_enters {names : List DeclaredName} {required : Prop} (error : TypeCheckError) :
    Enters scopeLedger names required (pushError error) :=
  .report error

theorem setNodeTypeinfo_enters (nodeId : Nat) (typeInfo : TypeInfo) :
    Enters scopeLedger [] True (setNodeTypeinfo nodeId typeInfo) :=
  .update fun tree => .refl tree

/-- The inference leaves the symbol table. -/
theorem inference_enters {nodes : List Expression} {computation : CheckM result}
    (follows : Follows (inference nodes) computation) :
    Enters scopeLedger [] True computation := by
  constructor
  intro before value after tree accepted
  rcases (follows.run trivial).ends accepted with ⟨path, -, -⟩
  have covers : Leaves.Covers (fun _ _ => True) nodes before.lexical := fun _ _ _ _ => trivial
  have same : after.symbolTable = before.symbolTable :=
    (Leaves.path_of_inference path tree covers).2
  refine ⟨?_, trivial⟩
  change NamesAdded before.symbolTable [] after.symbolTable
  rw [same]
  exact .refl tree

/-- A change of the current scope that adds names to it. -/
structure AddsNames (names : List DeclaredName) (frame changed : Frame) : Prop where
  distinct : names.Nodup
  fresh : ∀ name ∈ names, ¬frame.Declares name
  declared : ∀ name, changed.Declares name ↔ frame.Declares name ∨ name ∈ names

theorem register_enters {noScope : String} {change : Nat → Frame → Except String Frame}
    {names : List DeclaredName}
    (adds : ∀ {scopeId frame changed}, change scopeId frame = .ok changed →
      AddsNames names frame changed) (onFailure : String → TypeCheckError) :
    Enters scopeLedger names True
      (register (fun table => table.insertCurrent noScope change) onFailure) := by
  constructor
  intro before value after tree accepted
  rcases accepts_bind.mp accepted with ⟨table, middle, read, accepted⟩
  rcases accepts_read.mp read with ⟨rfl, rfl⟩
  cases registered : middle.symbolTable.insertCurrent noScope change with
  | error reason =>
      simp only [registered] at accepted
      exact (accepts_report.mp accepted).elim
  | ok table =>
      simp only [registered] at accepted
      rcases SymbolTable.insertCurrent_ok registered with ⟨scope, frame, current, changes, rfl⟩
      rcases SymbolTable.environment_current tree.sound current with ⟨rest, top⟩
      have changed := SymbolTable.environment_modifyCurrent tree.sound fun _ => frame
      rw [top, Environment.changeTop] at changed
      have added := adds changes
      have declares : ∀ name, middle.symbolTable.Declares name ↔ scope.toFrame.Declares name := by
        intro name
        simp [SymbolTable.Declares, top]
      rw [accepts_update.mp accepted]
      refine ⟨⟨tree.modifyCurrent fun _ => frame, SymbolTable.currentScope_modifyCurrent _ _,
        SymbolTable.Grows.modifyCurrent tree fun _ => frame, ?_, added.distinct, ?_, ?_⟩, trivial⟩
      · rw [changed, top]
        rfl
      · intro name member known
        exact added.fresh name member ((declares name).mp known)
      · intro name
        rw [declares, ← added.declared name]
        simp [SymbolTable.Declares, changed]

theorem insertSymbol_adds {frame changed : Frame} {name : String} {symbol : Symbol}
    (inserted : frame.insertSymbol name symbol = .ok changed) :
    AddsNames [.symbol name] frame changed := by
  rw [Frame.insertSymbol] at inserted
  split at inserted
  · cases inserted
  · rename_i free
    cases inserted
    refine ⟨List.nodup_singleton _, ?_, ?_⟩
    · intro other member known
      rw [List.mem_singleton.mp member] at known
      exact free known
    · intro other
      cases other with
      | symbol text => simp [Frame.Declares, AList.mem_insert, or_comm]
      | variable_ text => simp [Frame.Declares]

theorem insertVariable_adds {frame changed : Frame} {name : String} {typeInfo : TypeInfo}
    (inserted : frame.insertVariable name typeInfo = .ok changed) :
    AddsNames [.variable_ name] frame changed := by
  rw [Frame.insertVariable] at inserted
  split at inserted
  · cases inserted
  · rename_i free
    cases inserted
    refine ⟨List.nodup_singleton _, ?_, ?_⟩
    · intro other member known
      rw [List.mem_singleton.mp member] at known
      exact free known
    · intro other
      cases other with
      | symbol text => simp [Frame.Declares]
      | variable_ text => simp [Frame.Declares, AList.mem_insert, or_comm]

theorem insertMethod_adds (frame : Frame) (typeName : String) (method : MethodInfo) :
    AddsNames [] frame (frame.insertMethod typeName method) := by
  refine ⟨List.nodup_nil, fun _ member => (nomatch member), ?_⟩
  intro name
  cases name <;> simp [Frame.Declares, Frame.insertMethod]

theorem pushVariable_enters (name : Identifier) (location : Location) (typeInfo : TypeInfo) :
    Enters scopeLedger [.variable_ name.name] True (pushVariable name location typeInfo) :=
  register_enters insertVariable_adds _

/-- A change inside a scope that leaves what lookups find in it. -/
theorem modifyScope_enters {scopeId : Nat} {change : Scope → Scope}
    (inside : SymbolTable.Inside change)
    (frames : ∀ scope, (change scope).toFrame = scope.toFrame) :
    Enters scopeLedger [] True
      (updateSymbolTable fun table => table.modifyScope scopeId change) := by
  apply Enters.update
  intro state tree
  have same := SymbolTable.environment_modifyScope inside state.symbolTable scopeId frames
  refine ⟨tree.modifyScope inside scopeId, SymbolTable.modifyScope_currentScope _ _ _,
    .modifyScope inside scopeId, congrArg List.tail same, List.nodup_nil,
    fun _ member => (nomatch member), ?_⟩
  intro name
  rw [SymbolTable.Declares, same]
  exact (or_iff_left List.not_mem_nil).symm

/-- What is declared in a scope of its own is different, and the names around it stay. -/
theorem inScope_enters {body : CheckM Unit} {names : List DeclaredName} {required : Prop}
    (enters : Enters scopeLedger names required body) :
    Enters scopeLedger [] (names.Nodup ∧ required) (inScope body) := by
  constructor
  intro before value after tree accepted
  rcases accepts_bind.mp accepted with ⟨_, opened, entered, accepted⟩
  rcases accepts_bind.mp accepted with ⟨_, inner, inside, left⟩
  rw [accepts_update.mp entered] at inside
  rw [accepts_update.mp left]
  have openedTree : before.symbolTable.pushScope.IsScopeTree :=
    tree.pushScopeWithName (pushScope_named _) _
  have sound : scopeLedger.sound { before with symbolTable := before.symbolTable.pushScope } :=
    openedTree
  rcases enters.run sound inside with ⟨added, holds⟩
  rcases popScope_opened tree added.tree added.current added.grows with
    ⟨popped, poppedGrows, back, frames⟩
  have openedGrows : SymbolTable.Grows before.symbolTable before.symbolTable.pushScope :=
    SymbolTable.Grows.pushScopeWithName tree _ _
  have restored : inner.symbolTable.popScope.environment = before.symbolTable.environment := by
    have outer : inner.symbolTable.environment.tail = before.symbolTable.pushScope.environment.tail :=
      added.outer
    rw [frames, outer, SymbolTable.environment_pushScope tree.sound, Environment.tail_openScope]
  refine ⟨⟨popped, back, openedGrows.trans (added.grows.trans poppedGrows),
    congrArg List.tail restored, List.nodup_nil, fun _ member => (nomatch member), ?_⟩,
    added.distinct, holds⟩
  intro name
  rw [SymbolTable.Declares, restored]
  exact (or_iff_left List.not_mem_nil).symm

end

end Inference.TypeChecker
