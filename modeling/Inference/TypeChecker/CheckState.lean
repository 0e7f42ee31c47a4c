import Inference.Foundation.Collecting
import Inference.TypeChecker.SymbolTable

/-! # State of the checker

The checker changes the symbol table, the types of the nodes and the keys of the
errors that are reported once. Errors are only ever added.
-/

namespace Inference.TypeChecker

open Inference.Ast Inference.Foundation

structure CheckState where
  symbolTable : SymbolTable
  reportedErrorKeys : List String := []
  nodeTypes : Nat → Option TypeInfo := fun _ => none

abbrev CheckM := Collecting CheckState TypeCheckError

namespace CheckState

def environment (state : CheckState) : Environment :=
  state.symbolTable.environment

def setNodeType (state : CheckState) (nodeId : Nat) (typeInfo : TypeInfo) : CheckState :=
  { state with nodeTypes := Function.update state.nodeTypes nodeId (some typeInfo) }

end CheckState

def pushError (error : TypeCheckError) : CheckM Unit :=
  Collecting.report error

/-- Reports an error unless one about the same unknown name was reported before. -/
def pushErrorDedup (error : TypeCheckError) : CheckM Unit := do
  match error.dedupKey with
  | some key =>
      let reported ← Collecting.read CheckState.reportedErrorKeys
      if key ∈ reported then
        pure ()
      else
        Collecting.update fun state =>
          { state with reportedErrorKeys := key :: state.reportedErrorKeys }
        pushError error
  | none => pushError error

def getNodeTypeinfo (nodeId : Nat) : CheckM (Option TypeInfo) :=
  Collecting.read fun state => state.nodeTypes nodeId

def setNodeTypeinfo (nodeId : Nat) (typeInfo : TypeInfo) : CheckM Unit :=
  Collecting.update fun state => state.setNodeType nodeId typeInfo

def getSymbolTable : CheckM SymbolTable :=
  Collecting.read CheckState.symbolTable

def updateSymbolTable (change : SymbolTable → SymbolTable) : CheckM Unit :=
  Collecting.update fun state => { state with symbolTable := change state.symbolTable }

/-- Performs a registration; a failed one leaves the table and reports an error. -/
def register (change : SymbolTable → Except String SymbolTable)
    (onFailure : String → TypeCheckError) : CheckM Unit := do
  match change (← getSymbolTable) with
  | .ok table => updateSymbolTable fun _ => table
  | .error reason => pushError (onFailure reason)

theorem register_ok {change : SymbolTable → Except String SymbolTable} {table : SymbolTable}
    (onFailure : String → TypeCheckError) {state : CheckState}
    (changed : change state.symbolTable = .ok table) :
    register change onFailure state = updateSymbolTable (fun _ => table) state := by
  refine (Collecting.read_bind _ _ state).trans ?_
  rw [changed]

theorem register_error {change : SymbolTable → Except String SymbolTable} {reason : String}
    (onFailure : String → TypeCheckError) {state : CheckState}
    (failed : change state.symbolTable = .error reason) :
    register change onFailure state = pushError (onFailure reason) state := by
  refine (Collecting.read_bind _ _ state).trans ?_
  rw [failed]

/-- The type information of a type; a type that has none is a panic. -/
def typeInfoOf (type : Type_) : CheckM TypeInfo :=
  Collecting.expect (TypeInfo.new type)

def typeInfoWithTypeParams (type : Type_) (typeParamNames : List String) : CheckM TypeInfo :=
  Collecting.expect (TypeInfo.newWithTypeParams type typeParamNames)

def checkAndReportVisibility (visibility : Visibility) (definitionScope : Nat)
    (location : Location) (context : VisibilityContext) : CheckM Unit := do
  let table ← getSymbolTable
  let accessScope := table.currentScopeId.getD 0
  if table.checkVisibility visibility definitionScope accessScope then
    pure ()
  else
    pushError (.privateAccessViolation context location)

end Inference.TypeChecker
