import Inference.TypeChecker.ProgramRuns

/-! # History of the scopes

At every point of a run the scopes are a tree, and the run only adds scopes to it. Every
check of a body or of a statement returns to the scope in which it was started.
-/

namespace Inference.TypeChecker

open Inference.Ast Inference.Foundation

/-- The scopes at a point of a run. The walk from a scope to the root ends, and it answers
whether the scope descends from the target. -/
structure SymbolTable.WellScoped (table : SymbolTable) : Prop where
  tree : table.IsScopeTree
  path : ∀ {scopeId scope}, table.getScope scopeId = some scope →
    scope.fullPath = "::".intercalate (table.pathNames scopeId)
  ends : ∀ target scopeId, ∃ answer, table.Walk target scopeId answer
  answers : ∀ {target scopeId answer}, table.Walk target scopeId answer →
    (answer = true ↔ table.Descends target scopeId)
  computed : ∀ target scopeId, table.isScopeDescendantOf table.nextScopeId scopeId target = true ↔
    table.Descends target scopeId

theorem SymbolTable.IsScopeTree.wellScoped {table : SymbolTable} (tree : table.IsScopeTree) :
    table.WellScoped where
  tree := tree
  path found := (tree.fullPath_eq found).1
  ends target scopeId := ⟨_, tree.walk_all target scopeId⟩
  answers walk := walk.answer_iff tree
  computed := tree.isScopeDescendantOf_iff

/-- Every run of the computation from the state that ends returns to its scope. -/
def ReturnsToScope (computation : CheckM Unit) (state : CheckState) : Prop :=
  ∀ {value final errors}, (computation state).outcome = some (value, final, errors) →
    final.symbolTable.currentScope = state.symbolTable.currentScope

theorem Leaves.returnsToScope {recording : Recording} {computation : CheckM Unit}
    {state : CheckState} {scopes : LexicalScopes}
    (leaves : Leaves recording computation state scopes) : ReturnsToScope computation state := by
  intro value final errors ended
  exact (leaves.follows.ends ended).2.2.current

/-- Any type may be recorded for any node. -/
theorem Allows.any (places : List Place) (nodeIds : List Nat) :
    Allows (fun _ _ => True) places nodeIds where
  places _ _ _ _ := trivial
  nodes _ _ _ := trivial

section

variable [UnicodeCase]

theorem checkProgram_any (program : Program) :
    Leaves (fun _ _ => True) (checkProgram program) initialState (topScopes program) :=
  checkProgram_leaves program (fun _ _ _ _ => trivial) (Allows.any _ _)

/-- The states of the checker while it checks a program. -/
def points (program : Program) : List CheckState :=
  initialState :: (checkProgram program initialState).states

/-- The scopes at all points of a run of the checker. -/
theorem scopes_wellScoped (program : Program) :
    (∀ point ∈ points program, point.symbolTable.WellScoped) ∧
      (points program).Pairwise
        (fun before after => SymbolTable.Grows before.symbolTable after.symbolTable) ∧
      ∀ point ∈ points program,
        (∀ definition, ReturnsToScope (inferVariables definition) point) ∧
        (∀ definition selfType, ReturnsToScope (inferMethodVariables definition selfType) point) ∧
        ∀ returnType statement, ReturnsToScope (inferStatement returnType statement) point := by
  have leaves := checkProgram_any program
  rcases leaves.follows.path with ⟨last, path⟩
  have trees : ∀ point ∈ points program, point.symbolTable.IsScopeTree :=
    path.keeps (fun point : CheckState => point.symbolTable.IsScopeTree) (fun step _ => step.tree)
      .default
  refine ⟨fun point member => (trees point member).wellScoped, ?_, ?_⟩
  · apply path.pairwise fun before after => SymbolTable.Grows before.symbolTable after.symbolTable
    · exact fun current => .refl current.symbolTable
    · exact fun left right => left.trans right
    · exact fun step => step.grows
  · intro point member
    have tree := trees point member
    refine ⟨?_, ?_, ?_⟩
    · intro definition
      exact (inferVariables_leaves tree definition (Allows.any _ _)).returnsToScope
    · intro definition selfType
      exact (inferMethodVariables_leaves tree definition selfType (Allows.any _ _)).returnsToScope
    · intro returnType statement
      exact (inferStatement_leaves returnType statement tree (Allows.any _ _)).returnsToScope

end

end Inference.TypeChecker
