import Mathlib.Data.Set.Disjoint
import Mathlib.Data.Set.Lattice
import Mathlib.Order.CompletePartialOrder
import Inference.TypeChecker.ExpressionRuns
import Inference.TypeChecker.OperatorTyping

/-! # Stable computations

A computation is stable when it only writes the types of some nodes and, run again behind itself,
returns the same value and changes no type of a node. The rules put stable computations together
from parts that write to different nodes.
-/

namespace Inference.TypeChecker

open Inference.Ast Inference.Foundation Collecting

/-! ## States with the same types -/

/-- The declarations and the types of some nodes are the same. -/
structure SameOn (ids : Set Nat) (before after : CheckState) : Prop where
  table : after.symbolTable = before.symbolTable
  types : ∀ nodeId ∈ ids, nodeId ≠ noId → after.nodeTypes nodeId = before.nodeTypes nodeId

namespace SameOn

variable {ids others : Set Nat} {before middle after : CheckState}

theorem refl (state : CheckState) : SameOn ids state state :=
  ⟨rfl, fun _ _ _ => rfl⟩

theorem of_eq (table : after.symbolTable = before.symbolTable)
    (types : after.nodeTypes = before.nodeTypes) : SameOn ids before after :=
  ⟨table, fun nodeId _ _ => congrFun types nodeId⟩

theorem trans (first : SameOn ids before middle) (second : SameOn ids middle after) :
    SameOn ids before after :=
  ⟨second.table.trans first.table, fun nodeId member owned =>
    (second.types nodeId member owned).trans (first.types nodeId member owned)⟩

theorem mono (within : others ⊆ ids) (same : SameOn ids before after) :
    SameOn others before after :=
  ⟨same.table, fun nodeId member => same.types nodeId (within member)⟩

/-- Writes to other nodes keep the types. -/
theorem of_disjoint (disjoint : Disjoint others ids) (same : SameOn othersᶜ before after) :
    SameOn ids before after :=
  same.mono disjoint.symm.subset_compl_right

theorem everywhere (same : SameOn Set.univ before after) : SameOn ids before after :=
  same.mono (Set.subset_univ ids)

end SameOn

/-! ## Stable computations -/

/-- Run in any state with the types that the nodes have in `state`, the computation returns `value`
and changes no types. -/
def Revisits {result : Type} (ids : Set Nat) (computation : CheckM result) (value : result)
    (state : CheckState) : Prop :=
  ∀ later, SameOn ids state later →
    ∃ final errors, computation.Ends later value final errors ∧ SameOn Set.univ later final

structure Stable {result : Type} (ids : Set Nat) (computation : CheckM result) : Prop where
  /-- Only the types of the nodes are written. -/
  frame : ∀ {before value after errors}, computation.Ends before value after errors →
    SameOn idsᶜ before after
  again : ∀ {before value after errors}, computation.Ends before value after errors →
    Revisits ids computation value after

/-- A computation that always ends, and only reports errors. -/
def Passes (computation : CheckM Unit) : Prop :=
  ∀ state, ∃ after errors, computation.Ends state () after errors ∧
    after.symbolTable = state.symbolTable ∧ after.nodeTypes = state.nodeTypes

section

variable {result other : Type} {ids others : Set Nat} {computation : CheckM result}
  {before after : CheckState} {value : result}

theorem Revisits.mono (within : ids ⊆ others) (revisits : Revisits ids computation value after) :
    Revisits others computation value after :=
  fun later same => revisits later (same.mono within)

theorem Revisits.moved (same : SameOn ids before after)
    (revisits : Revisits ids computation value before) : Revisits ids computation value after :=
  fun later laterSame => revisits later (same.trans laterSame)

theorem Revisits.bind {next : result → CheckM other} {last : other}
    (first : Revisits ids computation value after)
    (second : Revisits ids (next value) last after) :
    Revisits ids (computation >>= next) last after := by
  intro later same
  rcases first later same with ⟨middle, errors, ended, unchanged⟩
  rcases second middle (same.trans unchanged.everywhere) with ⟨final, more, rest, kept⟩
  exact ⟨final, _, ends_bind.mpr ⟨value, middle, errors, more, ended, rest, rfl⟩,
    unchanged.trans kept⟩

namespace Stable

theorem mono (within : ids ⊆ others) (stable : Stable ids computation) :
    Stable others computation where
  frame ended := (stable.frame ended).mono (Set.compl_subset_compl.mpr within)
  again ended := (stable.again ended).mono within

theorem pure (value : result) : Stable ids (pure value : CheckM result) where
  frame ended := by
    rcases ends_pure.mp ended with ⟨rfl, rfl, rfl⟩
    exact .refl _
  again ended := by
    rcases ends_pure.mp ended with ⟨rfl, rfl, rfl⟩
    exact fun later _ => ⟨later, [], ends_pure.mpr ⟨rfl, rfl, rfl⟩, .refl later⟩

theorem abort : Stable ids (Collecting.abort : CheckM result) where
  frame ended := (ends_abort.mp ended).elim
  again ended := (ends_abort.mp ended).elim

theorem expect (known : Option result) : Stable ids (Collecting.expect known : CheckM result) where
  frame ended := by
    rcases ends_expect.mp ended with ⟨_, rfl, rfl⟩
    exact .refl _
  again ended := by
    rcases ends_expect.mp ended with ⟨isKnown, rfl, rfl⟩
    exact fun later _ => ⟨later, [], ends_expect.mpr ⟨isKnown, rfl, rfl⟩, .refl later⟩

/-- Two parts that write to different nodes. -/
theorem bind {next : result → CheckM other} (first : Stable ids computation)
    (second : ∀ value, Stable others (next value)) (disjoint : Disjoint others ids) :
    Stable (ids ∪ others) (computation >>= next) where
  frame ended := by
    rcases ends_bind.mp ended with ⟨value, middle, _, _, firstEnded, secondEnded, _⟩
    refine SameOn.trans ((first.frame firstEnded).mono ?_)
      (((second value).frame secondEnded).mono ?_)
    · exact Set.compl_subset_compl.mpr Set.subset_union_left
    · exact Set.compl_subset_compl.mpr Set.subset_union_right
  again ended := by
    rcases ends_bind.mp ended with ⟨value, middle, _, _, firstEnded, secondEnded, _⟩
    have kept := ((second value).frame secondEnded).of_disjoint disjoint
    refine Revisits.bind (((first.again firstEnded).moved kept).mono ?_)
      (((second value).again secondEnded).mono ?_)
    · exact Set.subset_union_left
    · exact Set.subset_union_right

/-- A step that reports errors only, in front of the rest. -/
theorem pass {step : CheckM Unit} {next : Unit → CheckM other} (passes : Passes step)
    (rest : Stable ids (next ())) : Stable ids (step >>= next) where
  frame {state} _ _ _ ended := by
    rcases ends_bind.mp ended with ⟨_, _, _, _, stepEnded, restEnded, _⟩
    rcases passes state with ⟨middle, errors, passed, table, types⟩
    rcases stepEnded.unique passed with ⟨rfl, rfl, rfl⟩
    exact (SameOn.of_eq table types).trans (rest.frame restEnded)
  again ended := by
    rcases ends_bind.mp ended with ⟨_, _, _, _, _, restEnded, _⟩
    have stepAgain : ∀ state, Revisits ids step () state := by
      intro state later _
      rcases passes later with ⟨final, errors, passed, table, types⟩
      exact ⟨final, errors, passed, .of_eq table types⟩
    exact (stepAgain _).bind (rest.again restEnded)

/-- A step that reads the declarations, which do not change. -/
theorem readTable {next : SymbolTable → CheckM other} (rest : ∀ table, Stable ids (next table)) :
    Stable ids (getSymbolTable >>= next) where
  frame ended := by
    rcases ends_bind.mp ended with ⟨table, _, _, _, read, restEnded, _⟩
    rcases ends_read.mp read with ⟨rfl, rfl, rfl⟩
    exact (rest _).frame restEnded
  again ended := by
    rcases ends_bind.mp ended with ⟨_, middle, _, _, read, restEnded, _⟩
    rcases ends_read.mp read with ⟨rfl, rfl, rfl⟩
    intro later same
    rcases (rest _).again restEnded later same with ⟨final, more, visited, unchanged⟩
    have sameTable : later.symbolTable = middle.symbolTable :=
      same.table.trans ((rest _).frame restEnded).table
    refine ⟨final, _, ends_bind.mpr ⟨_, later, [], more, ends_read.mpr ⟨rfl, rfl, rfl⟩, ?_, rfl⟩,
      unchanged⟩
    rw [sameTable]
    exact visited

/-- A type that is written is written again. -/
theorem set (nodeId : Nat) (typeInfo : TypeInfo) :
    Stable {nodeId} (setNodeTypeinfo nodeId typeInfo) where
  frame ended := by
    rcases ends_update.mp ended with ⟨rfl, rfl⟩
    refine ⟨rfl, fun other outside _ => ?_⟩
    exact Function.update_of_ne outside _ _
  again ended := by
    rcases ends_update.mp ended with ⟨rfl, rfl⟩
    intro later same
    refine ⟨_, [], ends_update.mpr ⟨rfl, rfl⟩, rfl, fun other _ owned => ?_⟩
    by_cases isNode : other = nodeId
    · subst isNode
      rw [same.types other rfl owned]
      simp [CheckState.setNodeType]
    · exact Function.update_of_ne isNode _ _

/-- The type of a node that is read. -/
theorem readType {nodeId : Nat} (hasId : nodeId ≠ noId) (member : nodeId ∈ ids) :
    Stable ids (getNodeTypeinfo nodeId) where
  frame ended := by
    rcases ends_read.mp ended with ⟨rfl, rfl, rfl⟩
    exact .refl _
  again ended := by
    rcases ends_read.mp ended with ⟨rfl, rfl, rfl⟩
    intro later same
    exact ⟨later, [], ends_read.mpr ⟨(same.types nodeId member hasId).symm, rfl, rfl⟩, .refl later⟩

theorem ite {condition : Prop} [Decidable condition] {first second : CheckM result}
    (yes : Stable ids first) (no : Stable ids second) :
    Stable ids (if condition then first else second) := by
  split
  · exact yes
  · exact no

end Stable

end

/-! ## Computations that give a node its type -/

/-- The types of the nodes when a node gets a type, if there is one for it. -/
def givenType (types : Nat → Option TypeInfo) (nodeId : Nat) :
    Option TypeInfo → Nat → Option TypeInfo
  | some typeInfo => Function.update types nodeId (some typeInfo)
  | none => types

/-- A computation that decides on the declarations alone whether the node gets a type. -/
def Finishes (node : Node) (computation : CheckM (Option TypeInfo)) : Prop :=
  ∀ table : SymbolTable, ∃ value : Option TypeInfo, ∀ state : CheckState,
    state.symbolTable = table → ∃ after errors, computation.Ends state value after errors ∧
      after.symbolTable = table ∧ after.nodeTypes = givenType state.nodeTypes node.id value

/-- A stable computation that records its value for the node, unless it has none. -/
structure Concludes (node : Node) (ids : Set Nat) (computation : CheckM (Option TypeInfo)) :
    Prop where
  stable : Stable (insert node.id ids) computation
  recorded : ∀ {before after errors typeInfo},
    computation.Ends before (some typeInfo) after errors →
      after.nodeTypes node.id = some typeInfo
  unrecorded : ∀ {before after errors}, computation.Ends before none after errors →
    after.nodeTypes node.id = before.nodeTypes node.id

section

variable {node : Node} {ids others : Set Nat} {computation : CheckM (Option TypeInfo)}

namespace Finishes

theorem none : Finishes node (pure none) :=
  fun _ => ⟨Option.none, fun state isTable =>
    ⟨state, [], ends_pure.mpr ⟨rfl, rfl, rfl⟩, isTable, rfl⟩⟩

theorem record (typeInfo : TypeInfo) : Finishes node (recordType node typeInfo) :=
  fun _ => ⟨some typeInfo, fun state isTable =>
    ⟨state.setNodeType node.id typeInfo, [], rfl, isTable, rfl⟩⟩

theorem pass {step : CheckM Unit} {next : Unit → CheckM (Option TypeInfo)} (passes : Passes step)
    (rest : Finishes node (next ())) : Finishes node (step >>= next) := by
  intro table
  rcases rest table with ⟨value, finishes⟩
  refine ⟨value, fun state isTable => ?_⟩
  rcases passes state with ⟨middle, errors, passed, isSame, types⟩
  rcases finishes middle (isSame.trans isTable) with ⟨after, more, ended, isAfter, written⟩
  refine ⟨after, _, ends_bind.mpr ⟨(), middle, errors, more, passed, ended, rfl⟩, isAfter, ?_⟩
  rw [written, types]

theorem readTable {next : SymbolTable → CheckM (Option TypeInfo)}
    (rest : ∀ table, Finishes node (next table)) : Finishes node (getSymbolTable >>= next) := by
  intro table
  rcases rest table table with ⟨value, finishes⟩
  refine ⟨value, fun state isTable => ?_⟩
  subst isTable
  rcases finishes state rfl with ⟨after, errors, ended, isAfter, written⟩
  exact ⟨after, _, ends_bind.mpr ⟨_, state, [], errors, ends_read.mpr ⟨rfl, rfl, rfl⟩, ended, rfl⟩,
    isAfter, written⟩

theorem ite {condition : Prop} [Decidable condition] {first second : CheckM (Option TypeInfo)}
    (yes : Finishes node first) (no : Finishes node second) :
    Finishes node (if condition then first else second) := by
  split
  · exact yes
  · exact no

/-- What the computation leaves, wherever it is run. -/
theorem ended (finishes : Finishes node computation) {before after : CheckState}
    {value : Option TypeInfo} {errors : List TypeCheckError}
    (ended : computation.Ends before value after errors) :
    after.symbolTable = before.symbolTable ∧
      after.nodeTypes = givenType before.nodeTypes node.id value := by
  rcases finishes before.symbolTable with ⟨found, everywhere⟩
  rcases everywhere before rfl with ⟨last, more, same, table, types⟩
  rcases ended.unique same with ⟨rfl, rfl, rfl⟩
  exact ⟨table, types⟩

theorem concludes (finishes : Finishes node computation) : Concludes node ∅ computation where
  stable := {
    frame := by
      intro before value after errors ended
      rcases finishes.ended ended with ⟨table, types⟩
      refine ⟨table, fun nodeId outside _ => ?_⟩
      rw [types]
      cases value with
      | none => rfl
      | some typeInfo =>
          exact Function.update_of_ne (fun same => outside (Set.mem_insert_iff.mpr (.inl same))) _ _
    again := by
      intro before value after errors ended later same
      rcases finishes.ended ended with ⟨table, types⟩
      rcases finishes before.symbolTable with ⟨found, everywhere⟩
      rcases everywhere before rfl with ⟨_, _, first, _, _⟩
      rcases ended.unique first with ⟨rfl, _, _⟩
      rcases everywhere later (same.table.trans table) with ⟨final, more, again, laterTable, written⟩
      refine ⟨final, more, again, laterTable.trans (same.table.trans table).symm, ?_⟩
      intro nodeId _ owned
      rw [written]
      cases value with
      | none => rfl
      | some typeInfo =>
          by_cases isNode : nodeId = node.id
          · subst isNode
            rw [same.types node.id (Set.mem_insert _ _) owned, types]
            simp [givenType]
          · exact Function.update_of_ne isNode _ _ }
  recorded ended := by
    rw [(finishes.ended ended).2]
    simp [givenType]
  unrecorded ended := by rw [(finishes.ended ended).2, givenType]

end Finishes

namespace Concludes

/-- Another part in front, which does not write to the node. -/
theorem bind {result : Type} {first : CheckM result} {next : result → CheckM (Option TypeInfo)}
    (stable : Stable ids first) (concludes : ∀ value, Concludes node others (next value))
    (disjoint : Disjoint (insert node.id others) ids) (hasId : node.id ≠ noId) :
    Concludes node (ids ∪ others) (first >>= next) where
  stable := by
    refine (stable.bind (fun value => (concludes value).stable) disjoint).mono ?_
    rw [Set.union_insert]
  recorded ended := by
    rcases ends_bind.mp ended with ⟨value, _, _, _, _, restEnded, _⟩
    exact (concludes value).recorded restEnded
  unrecorded ended := by
    rcases ends_bind.mp ended with ⟨value, _, _, _, firstEnded, restEnded, _⟩
    rw [(concludes value).unrecorded restEnded]
    have outside : node.id ∉ ids :=
      Set.disjoint_left.mp disjoint (Set.mem_insert node.id others)
    exact (stable.frame firstEnded).types node.id outside hasId

theorem mono (within : ids ⊆ others) (concludes : Concludes node ids computation) :
    Concludes node others computation where
  stable := concludes.stable.mono (Set.insert_subset_insert within)
  recorded := concludes.recorded
  unrecorded := concludes.unrecorded

theorem pass {step : CheckM Unit} {next : Unit → CheckM (Option TypeInfo)} (passes : Passes step)
    (rest : Concludes node ids (next ())) : Concludes node ids (step >>= next) where
  stable := .pass passes rest.stable
  recorded ended := by
    rcases ends_bind.mp ended with ⟨_, _, _, _, _, restEnded, _⟩
    exact rest.recorded restEnded
  unrecorded {before} _ _ ended := by
    rcases ends_bind.mp ended with ⟨_, _, _, _, stepEnded, restEnded, _⟩
    rcases passes before with ⟨_, _, passed, _, types⟩
    rcases stepEnded.unique passed with ⟨rfl, rfl, rfl⟩
    rw [rest.unrecorded restEnded, types]

/-- With its type recorded, the node is not inferred again. -/
theorem cached (concludes : Concludes node ids computation) (hasId : node.id ≠ noId) :
    Stable (insert node.id ids) (cached node computation) where
  frame {before} _ _ _ ended := by
    rw [cached_ends_iff] at ended
    cases recorded : before.nodeTypes node.id with
    | some typeInfo =>
        rw [recorded] at ended
        rcases ended with ⟨_, rfl, _⟩
        exact .refl _
    | none =>
        rw [recorded] at ended
        exact concludes.stable.frame ended
  again {before value after errors} ended := by
    have recordedAgain : ∀ typeInfo, after.nodeTypes node.id = some typeInfo →
        Revisits (insert node.id ids) (TypeChecker.cached node computation) (some typeInfo)
          after := by
      intro typeInfo recorded later same
      refine ⟨later, [], cached_ends_iff.mpr ?_, .refl later⟩
      rw [same.types node.id (Set.mem_insert _ _) hasId, recorded]
      exact ⟨rfl, rfl, rfl⟩
    rw [cached_ends_iff] at ended
    cases recorded : before.nodeTypes node.id with
    | some typeInfo =>
        rw [recorded] at ended
        rcases ended with ⟨rfl, rfl, _⟩
        exact recordedAgain typeInfo recorded
    | none =>
        rw [recorded] at ended
        cases value with
        | some typeInfo => exact recordedAgain typeInfo (concludes.recorded ended)
        | none =>
            intro later same
            rcases concludes.stable.again ended later same with ⟨final, more, again, unchanged⟩
            refine ⟨final, more, cached_ends_iff.mpr ?_, unchanged⟩
            rw [same.types node.id (Set.mem_insert _ _) hasId, concludes.unrecorded ended, recorded]
            exact again

end Concludes

end

/-! ## Steps that report errors -/

namespace Passes

theorem none : Passes (pure ()) :=
  fun state => ⟨state, [], ends_pure.mpr ⟨rfl, rfl, rfl⟩, rfl, rfl⟩

theorem push (error : TypeCheckError) : Passes (pushError error) :=
  fun state => ⟨state, [error], ends_report.mpr ⟨rfl, rfl⟩, rfl, rfl⟩

theorem ite {condition : Prop} [Decidable condition] {first second : CheckM Unit}
    (yes : Passes first) (no : Passes second) : Passes (if condition then first else second) := by
  split
  · exact yes
  · exact no

theorem bind {first : CheckM Unit} {next : Unit → CheckM Unit} (passes : Passes first)
    (rest : Passes (next ())) : Passes (first >>= next) := by
  intro state
  rcases passes state with ⟨middle, errors, ended, table, types⟩
  rcases rest middle with ⟨after, more, restEnded, restTable, restTypes⟩
  exact ⟨after, _, ends_bind.mpr ⟨(), middle, errors, more, ended, restEnded, rfl⟩,
    restTable.trans table, restTypes.trans types⟩

theorem pushDedup (error : TypeCheckError) : Passes (pushErrorDedup error) := by
  intro state
  rcases pushErrorDedup_outcome error state with ⟨after, errors, ended, states, _⟩
  rcases states with ⟨_, rfl⟩ | ⟨_, _, rfl⟩
  · exact ⟨after, errors, ended, rfl, rfl⟩
  · exact ⟨_, errors, ended, rfl, rfl⟩

theorem visibility (visibility : Visibility) (scope : Nat) (location : Location)
    (context : VisibilityContext) :
    Passes (checkAndReportVisibility visibility scope location context) := by
  intro state
  have checks : Passes
      (if state.symbolTable.checkVisibility visibility scope
          (state.symbolTable.currentScopeId.getD 0) then pure ()
        else pushError (.privateAccessViolation context location)) :=
    ite none (push _)
  rcases checks state with ⟨after, errors, ended, same⟩
  exact ⟨after, _, ends_bind.mpr ⟨_, state, [], errors, ends_read.mpr ⟨rfl, rfl, rfl⟩, ended, rfl⟩,
    same⟩

theorem indexType (node : Node) (indexType : Option TypeInfo) :
    Passes (checkIndexType node indexType) := by
  cases indexType with
  | none => exact .none
  | some indexType => exact .ite .none (.push _)

theorem mismatch (node : Node) (operator : OperatorKind) (leftType rightType : TypeInfo) :
    Passes (pushMismatch node operator leftType rightType) :=
  .ite .none (.push _)

theorem element (node : Node) (expected : TypeInfo) (found : Option TypeInfo) :
    Passes (compareElement node expected found) := by
  cases found with
  | none => exact .none
  | some found => exact .ite .none (.push _)

theorem forM {item : Type} {body : item → CheckM PUnit} (items : List item)
    (single : ∀ element, Passes (body element)) : Passes (items.forM body) := by
  induction items with
  | nil => exact .none
  | cons head tail induction => exact .bind (single head) induction

theorem typeParams (signature : FuncInfo) (location : Location) (substitutions : Substitutions) :
    Passes (checkTypeParams signature location substitutions) :=
  .forM _ fun _ => .ite .none (.push _)

end Passes

/-! ## Accesses and operators -/

namespace Finishes

variable {node : Node}

theorem failWith (error : TypeCheckError) : Finishes node (failWith error) :=
  .pass (.push error) .none

theorem withType {next : TypeInfo → CheckM (Option TypeInfo)}
    (rest : ∀ known, Finishes node (next known)) (typeInfo : Option TypeInfo) :
    Finishes node (withType typeInfo next) := by
  cases typeInfo with
  | none => exact .none
  | some known => exact rest known

theorem elementAccess (arrayType : TypeInfo) : Finishes node (elementAccess node arrayType) := by
  rw [TypeChecker.elementAccess]
  split
  · exact .record _
  · exact .failWith _

theorem fieldAccess (name : Identifier) (objectType : TypeInfo) :
    Finishes node (fieldAccess node name objectType) := by
  apply Finishes.readTable
  intro table
  dsimp only
  split
  · split
    · split
      · exact .pass (.visibility _ _ _ _) (.record _)
      · exact .failWith _
    · exact .failWith _
  · exact .failWith _

theorem variantAccess (enumName : String) (name : Identifier) :
    Finishes node (variantAccess node enumName name) := by
  apply Finishes.readTable
  intro table
  split
  · exact .ite (.pass (.visibility _ _ _ _) (.record _)) (.failWith _)
  · exact .pass (.pushDedup _) .none

theorem variantOfType (name : Identifier) (exprType : TypeInfo) :
    Finishes node (variantOfType node name exprType) := by
  rw [TypeChecker.variantOfType]
  split
  · exact .variantAccess _ name
  · exact .failWith _

theorem applyUnary (operator : UnaryOperatorKind) (operandType : TypeInfo) :
    Finishes node (applyUnary node operator operandType) :=
  .ite (.record _) (.failWith _)

theorem applyBinary (operator : OperatorKind) (leftType rightType : TypeInfo) :
    Finishes node (applyBinary node operator leftType rightType) := by
  have compared : Finishes node (do
      pushMismatch node operator leftType rightType
      recordType node leftType) :=
    .pass (.mismatch _ _ _ _) (.record _)
  apply Finishes.pass (.mismatch _ _ _ _)
  cases operator with
  | and | or => exact .ite (.record _) (.failWith _)
  | eq | ne | lt | le | gt | ge => exact .record _
  | _ => exact .ite compared (.pass (.push _) compared)

theorem inferIdentifier (identifier : Identifier) :
    Finishes identifier.toNode (inferIdentifier identifier) := by
  apply Finishes.readTable
  intro table
  split
  · exact .record _
  · exact .pass (.pushDedup _) .none

theorem structLiteral [UnicodeCase] (name : Identifier) :
    Finishes node (structLiteral node name) := by
  apply Finishes.readTable
  intro table
  split
  · exact .record _
  · exact .pass (.pushDedup _) .none

end Finishes

/-! ## Calls -/

namespace Concludes

variable {node function : Node} {ids : Set Nat}

theorem none : Concludes node ids (pure none) :=
  (Finishes.none.concludes).mono (Set.empty_subset ids)

theorem abort : Concludes node ids Collecting.abort where
  stable := .abort
  recorded ended := (ends_abort.mp ended).elim
  unrecorded ended := (ends_abort.mp ended).elim

theorem ite {condition : Prop} [Decidable condition] {first second : CheckM (Option TypeInfo)}
    (yes : Concludes node ids first) (no : Concludes node ids second) :
    Concludes node ids (if condition then first else second) := by
  split
  · exact yes
  · exact no

theorem readTable {next : SymbolTable → CheckM (Option TypeInfo)}
    (rest : ∀ table, Concludes node ids (next table)) :
    Concludes node ids (getSymbolTable >>= next) where
  stable := .readTable fun table => (rest table).stable
  recorded ended := by
    rcases ends_bind.mp ended with ⟨_, _, _, _, _, restEnded, _⟩
    exact (rest _).recorded restEnded
  unrecorded ended := by
    rcases ends_bind.mp ended with ⟨_, _, _, _, read, restEnded, _⟩
    rcases ends_read.mp read with ⟨rfl, rfl, rfl⟩
    exact (rest _).unrecorded restEnded

/-- A part whose value does not matter, behind which there is no type. -/
theorem untyped {step : CheckM Unit} (stable : Stable ids step) (outside : node.id ∉ ids)
    (hasId : node.id ≠ noId) : Concludes node ids (do
      step
      return Option.none) := by
  have disjoint : Disjoint (insert node.id ∅) ids := by simpa using outside
  exact (Concludes.bind stable (fun _ => Concludes.none) disjoint hasId).mono (by simp)

variable {inferArguments : CheckM Unit} (stable : Stable ids inferArguments)
  (outside : node.id ∉ ids) (hasId : node.id ≠ noId)
  (functionOutside : function.id ∉ insert node.id ids)

include stable outside hasId functionOutside

theorem callMethod (typeName methodName : String) (method : MethodInfo)
    (arguments : Option Arguments) :
    Concludes node (insert function.id ids)
      (callMethod node function typeName methodName method arguments inferArguments) := by
  rw [Set.mem_insert_iff, not_or] at functionOutside
  have recorded : Concludes node (ids ∪ ({function.id} ∪ ∅)) (do
      inferArguments
      setNodeTypeinfo function.id
        { kind := .function s!"{typeName}::{methodName}", typeParams := [] }
      recordType node method.signature.returnType) := by
    apply Concludes.bind stable _ _ hasId
    · intro _
      apply Concludes.bind (Stable.set _ _) _ _ hasId
      · exact fun _ => (Finishes.record _).concludes
      · simpa using Ne.symm functionOutside.1
    · simp [outside, functionOutside.2]
  have called : Concludes node (insert function.id ids) _ := recorded.mono (by simp)
  apply Concludes.pass (.visibility _ _ _ _)
  exact .ite called (.pass (.push _) called)

theorem callAssociated (typeName methodName : String) (method : MethodInfo)
    (arguments : Option Arguments) :
    Concludes node (insert function.id ids)
      (callAssociated node function typeName methodName method arguments inferArguments) := by
  have call := callMethod stable outside hasId functionOutside typeName methodName method arguments
  exact .ite (.pass (.push _) call) call

theorem callOnReceiver (name : Identifier) (receiverType : TypeInfo)
    (arguments : Option Arguments) :
    Concludes node (insert function.id ids)
      (callOnReceiver node function name receiverType arguments inferArguments) := by
  apply Concludes.readTable
  intro table
  dsimp only
  split
  · split
    · have call := callMethod stable outside hasId functionOutside
      exact .ite (call _ _ _ arguments) (.pass (.push _) (call _ _ _ arguments))
    · exact ((Finishes.failWith _).concludes).mono (Set.empty_subset _)
  · apply Concludes.pass (.push _)
    exact (untyped stable outside hasId).mono (Set.subset_insert _ _)

end Concludes

/-! ## Type arguments -/

/-- What a part returned is returned again behind a second part, which visits the same nodes. -/
def Survives {result : Type} (ids : Set Nat) (computation : CheckM result)
    (second : CheckM Unit) : Prop :=
  ∀ ⦃before value middle later after errors more⦄, computation.Ends before value middle errors →
    SameOn ids middle later → second.Ends later () after more →
      Revisits ids computation value after

section

variable {result : Type} {ids : Set Nat} {computation : CheckM result} {second : CheckM Unit}

/-- A part that depends on the declarations alone. -/
theorem Survives.of_stable (first : Stable ∅ computation) (stable : Stable ids second) :
    Survives ids computation second := by
  intro before value middle later after errors more ended same secondEnded
  have unchanged : SameOn (∅ : Set Nat) later after :=
    (stable.frame secondEnded).mono (Set.empty_subset _)
  have moved : SameOn (∅ : Set Nat) middle after :=
    (same.mono (Set.empty_subset _)).trans unchanged
  exact ((first.again ended).moved moved).mono (Set.empty_subset _)

/-- A part of which only the first step visits nodes. -/
theorem Survives.bind {other : Type} {next : result → CheckM other}
    (survives : Survives ids computation second) (rest : ∀ value, Stable ∅ (next value))
    (stable : Stable ids second) : Survives ids (computation >>= next) second := by
  intro before value middle later after errors more ended same secondEnded
  rcases ends_bind.mp ended with ⟨found, reached, _, _, firstEnded, restEnded, _⟩
  have unchanged : SameOn ids reached middle :=
    ((rest found).frame restEnded).of_disjoint (Set.empty_disjoint ids)
  refine Revisits.bind (survives firstEnded (unchanged.trans same) secondEnded) ?_
  have kept : SameOn (∅ : Set Nat) middle after :=
    (same.mono (Set.empty_subset _)).trans
      ((stable.frame secondEnded).mono (Set.empty_subset _))
  exact (((rest found).again restEnded).moved kept).mono (Set.empty_subset _)

/-- The call is concluded behind the two parts. -/
theorem Concludes.twice {node : Node} {returnType : result → TypeInfo}
    (first : Stable ids computation) (stable : Stable ids second)
    (survives : Survives ids computation second) (outside : node.id ∉ ids)
    (hasId : node.id ≠ noId) :
    Concludes node ids (do
      let value ← computation
      second
      recordType node (returnType value)) := by
  have last : ∀ value, Concludes node ids (do
      second
      recordType node (returnType value)) := by
    intro value
    have disjoint : Disjoint (insert node.id ∅) ids := by simpa using outside
    exact (Concludes.bind stable (fun _ => (Finishes.record _).concludes) disjoint hasId).mono
      (by simp)
  have within : (insert node.id ids)ᶜ ⊆ idsᶜ := Set.compl_subset_compl.mpr (Set.subset_insert _ _)
  constructor
  · constructor
    · intro before value after errors ended
      rcases ends_bind.mp ended with ⟨found, _, _, _, firstEnded, restEnded, _⟩
      exact ((first.frame firstEnded).mono within).trans ((last found).stable.frame restEnded)
    · intro before value after errors ended
      rcases ends_bind.mp ended with ⟨found, middle, _, _, firstEnded, restEnded, _⟩
      refine Revisits.bind ?_ ((last found).stable.again restEnded)
      rcases ends_bind.mp restEnded with ⟨_, visited, _, _, secondEnded, recordEnded, _⟩
      have records : Finishes node (recordType node (returnType found)) := .record _
      have recorded := records.concludes.stable.frame recordEnded
      have disjoint : Disjoint (insert node.id ∅) ids := by simpa using outside
      have revisits := survives firstEnded (.refl _) secondEnded
      exact (revisits.moved (recorded.of_disjoint disjoint)).mono (Set.subset_insert _ _)
  · intro before after errors typeInfo ended
    rcases ends_bind.mp ended with ⟨found, _, _, _, _, restEnded, _⟩
    exact (last found).recorded restEnded
  · intro before after errors ended
    rcases ends_bind.mp ended with ⟨found, _, _, _, firstEnded, restEnded, _⟩
    rw [(last found).unrecorded restEnded]
    exact (first.frame firstEnded).types node.id outside hasId

end

section

variable [UnicodeCase] {node : Node} {ids : Set Nat} {inferArguments : CheckM Unit}

theorem callSubstitutions_stable (call : Node) (name : String) (signature : FuncInfo)
    (typeParameters : Option (List Identifier)) {inferTypeParams : CheckM Substitutions}
    (infers : Stable ids inferTypeParams) :
    Stable ids (callSubstitutions call name signature typeParameters inferTypeParams) := by
  unfold callSubstitutions
  apply Stable.ite (.pure _)
  cases typeParameters with
  | some typeArguments =>
      apply Stable.ite
      · exact .readTable fun _ => .pure _
      · exact .pass (.push _) (.pure _)
  | none =>
      apply Stable.mono _ (Stable.bind infers _ _)
      · exact ∅
      · simp
      · intro inferred
        exact .ite (.pass (.push _) (.pure _)) (.pure _)
      · simp

theorem callSubstitutions_survives (call : Node) (name : String) (signature : FuncInfo)
    (typeParameters : Option (List Identifier)) {inferTypeParams : CheckM Substitutions}
    (stable : Stable ids inferArguments) (survives : Survives ids inferTypeParams inferArguments) :
    Survives ids (callSubstitutions call name signature typeParameters inferTypeParams)
      inferArguments := by
  unfold callSubstitutions
  split
  · exact Survives.of_stable (Stable.pure _) stable
  · cases typeParameters with
    | some typeArguments =>
        refine Survives.of_stable (Stable.ite ?_ ?_) stable
        · exact .readTable fun _ => .pure _
        · exact .pass (.push _) (.pure _)
    | none =>
        exact Survives.bind survives (fun _ => .ite (.pass (.push _) (.pure _)) (.pure _)) stable

theorem Concludes.callFunction (name : String) (typeParameters : Option (List Identifier))
    (arguments : Option Arguments) {inferTypeParams : FuncInfo → CheckM Substitutions}
    (stable : Stable ids inferArguments) (infers : ∀ signature, Stable ids (inferTypeParams signature))
    (survives : ∀ signature, Survives ids (inferTypeParams signature) inferArguments)
    (outside : node.id ∉ ids) (hasId : node.id ≠ noId) :
    Concludes node ids
      (callFunction node name typeParameters arguments inferArguments inferTypeParams) := by
  apply Concludes.readTable
  intro table
  split
  · apply Concludes.pass (.visibility _ _ _ _)
    apply Concludes.ite
    · exact .pass (.push _) (.untyped stable outside hasId)
    · exact .twice (callSubstitutions_stable _ _ _ _ (infers _)) stable
        (callSubstitutions_survives _ _ _ _ stable (survives _)) outside hasId
  · exact .pass (.pushDedup _) (.untyped stable outside hasId)

end

end Inference.TypeChecker
