import Inference.TypeChecker.Visibility

/-! # Resolution of imports

The resolution binds the local names of the imports in a table of their own, which no
lookup reads. It leaves everything else of the scopes as it was.
-/

namespace Inference.TypeChecker

open Inference.Ast Inference.Foundation

/-! ## Paths of imports -/

/-- One path of an import, with the name that it is bound to and its text in an error. -/
structure ImportPath where
  location : Location
  path : List String
  localName : String
  failedPath : String

def Import.paths (item : Import) : List ImportPath :=
  match item.kind with
  | .plain =>
      match item.path.getLast? with
      | some symbolName =>
          [{ location := item.location, path := item.path, localName := symbolName
             failedPath := "::".intercalate item.path }]
      | none => []
  | .partial_ names =>
      names.map fun name =>
        { location := item.location, path := item.path ++ [name], localName := name
          failedPath := "::".intercalate item.path ++ "::" ++ name }

def Scope.importPaths (scope : Scope) : List ImportPath :=
  scope.imports.flatMap Import.paths

def resolvePath (scopeId : Nat) (item : ImportPath) : CheckM Unit :=
  resolveImport scopeId item.location item.path item.localName item.failedPath

/-- The import paths of a scope of the table. -/
def SymbolTable.importPaths (table : SymbolTable) (scopeId : Nat) : List ImportPath :=
  ((table.getScope scopeId).map Scope.importPaths).getD []

/-- What an import path binds, as its resolution in a table finds it. -/
def SymbolTable.binding (table : SymbolTable) (scopeId : Nat) (item : ImportPath) :
    Option ResolvedImport :=
  (table.resolveQualifiedName item.path scopeId).map fun (symbol, definitionScopeId) =>
    { localName := item.localName, symbol, definitionScopeId }

/-- The errors about an import path. -/
def SymbolTable.importErrors (table : SymbolTable) (scopeId : Nat) (item : ImportPath) :
    List TypeCheckError :=
  match table.resolveQualifiedName item.path scopeId with
  | some (symbol, definitionScopeId) =>
      if symbol.isPublic ||
          table.checkVisibility .private_ definitionScopeId (table.currentScope.getD 0) then []
      else
        [.privateAccessViolation (.import_ ("::".intercalate item.path)) item.location]
  | none => [.importResolutionFailed item.failedPath item.location]

def bindImport (binding : Option ResolvedImport)
    (known : AList fun _ : String => ResolvedImport) : AList fun _ : String => ResolvedImport :=
  match binding with
  | some resolved => known.insert resolved.localName resolved
  | none => known

/-! ## Tables that differ in their bindings -/

def Scope.unbound (scope : Scope) : Scope :=
  { scope with resolvedImports := ∅ }

theorem Scope.of_unbound {scope changed : Scope} (unbound : changed.unbound = scope.unbound) :
    changed.toFrame = scope.toFrame ∧ changed.id = scope.id ∧
      changed.children = scope.children ∧ changed.imports = scope.imports := by
  have frames := congrArg Scope.toFrame unbound
  have ids := congrArg Scope.id unbound
  have children := congrArg Scope.children unbound
  have imports := congrArg Scope.imports unbound
  exact ⟨frames, ids, children, imports⟩

/-- The second table has the scopes of the first one, with other imports bound. -/
structure SymbolTable.SameButBindings (before after : SymbolTable) : Prop where
  root : after.rootScope = before.rootScope
  current : after.currentScope = before.currentScope
  next : after.nextScopeId = before.nextScopeId
  keys : after.allScopeIds.Perm before.allScopeIds
  scopes : ∀ scopeId, (after.getScope scopeId).map Scope.unbound =
    (before.getScope scopeId).map Scope.unbound

namespace SymbolTable.SameButBindings

variable {before after : SymbolTable}

theorem refl (table : SymbolTable) : SameButBindings table table :=
  ⟨rfl, rfl, rfl, .refl _, fun _ => rfl⟩

theorem scope (same : SameButBindings before after) {scopeId : Nat} {changed : Scope}
    (found : after.getScope scopeId = some changed) :
    ∃ scope, before.getScope scopeId = some scope ∧ changed.unbound = scope.unbound := by
  have unbound := same.scopes scopeId
  rw [found] at unbound
  rcases Option.map_eq_some_iff.mp unbound.symm with ⟨scope, isScope, isSame⟩
  exact ⟨scope, isScope, isSame.symm⟩

/-- A part of the scopes that the bindings are no part of. -/
theorem part (same : SameButBindings before after) {value : Type} (view : Scope → value)
    (keeps : ∀ scope, view scope.unbound = view scope) (scopeId : Nat) :
    (after.getScope scopeId).map view = (before.getScope scopeId).map view := by
  have unbound := congrArg (Option.map view) (same.scopes scopeId)
  rw [Option.map_map, Option.map_map] at unbound
  have composed : view ∘ Scope.unbound = view := funext keeps
  rwa [composed] at unbound

theorem bind_parent (same : SameButBindings before after) (scopeId : Nat) :
    (after.getScope scopeId).bind (·.parent) = (before.getScope scopeId).bind (·.parent) := by
  have parts := same.part (·.parent) (fun _ => rfl) scopeId
  generalize after.getScope scopeId = changed at parts ⊢
  generalize before.getScope scopeId = scope at parts ⊢
  cases changed <;> cases scope <;> simp_all

theorem isScopeDescendantOf (same : SameButBindings before after) (steps access target : Nat) :
    after.isScopeDescendantOf steps access target =
      before.isScopeDescendantOf steps access target := by
  induction steps generalizing access with
  | zero => rfl
  | succ steps induction =>
      rw [SymbolTable.isScopeDescendantOf, SymbolTable.isScopeDescendantOf,
        same.bind_parent access]
      split
      · rfl
      · split
        · exact induction _
        · rfl

theorem checkVisibility (same : SameButBindings before after) (visibility : Visibility)
    (definitionScope accessScope : Nat) :
    after.checkVisibility visibility definitionScope accessScope =
      before.checkVisibility visibility definitionScope accessScope := by
  cases visibility with
  | public_ => rfl
  | private_ =>
      rw [SymbolTable.checkVisibility, SymbolTable.checkVisibility, same.next,
        same.isScopeDescendantOf]

theorem view (same : SameButBindings before after) (scopeId : Nat) :
    after.view scopeId = before.view scopeId :=
  same.part (fun scope => (scope.parent, scope.toFrame)) (fun _ => rfl) scopeId

theorem children (same : SameButBindings before after) (ids : List Nat) :
    (ids.filterMap after.getScope).map Scope.unbound =
      (ids.filterMap before.getScope).map Scope.unbound := by
  rw [List.map_filterMap, List.map_filterMap]
  exact congrArg (fun find => ids.filterMap find) (funext same.scopes)

theorem resolveFrom (same : SameButBindings before after) (path : List String)
    {scope changed : Scope} (unbound : changed.unbound = scope.unbound) :
    after.resolveFrom changed path = before.resolveFrom scope path := by
  induction path generalizing scope changed with
  | nil => rfl
  | cons segment rest induction =>
      rcases Scope.of_unbound unbound with ⟨frames, ids, childIds, _⟩
      cases rest with
      | nil => rw [SymbolTable.resolveFrom, SymbolTable.resolveFrom, frames, ids]
      | cons next rest =>
          have found : ((changed.children.filterMap after.getScope).find?
              (·.name = segment)).map Scope.unbound =
              ((scope.children.filterMap before.getScope).find? (·.name = segment)).map
                Scope.unbound := by
            have named : (fun scope : Scope => decide (scope.name = segment)) =
                (fun scope : Scope => decide (scope.name = segment)) ∘ Scope.unbound := rfl
            rw [named, ← List.find?_map, ← List.find?_map, childIds, same.children]
          rw [SymbolTable.resolveFrom, SymbolTable.resolveFrom]
          cases isChild : (scope.children.filterMap before.getScope).find?
              (·.name = segment) with
          | none =>
              rw [isChild, Option.map_none, Option.map_eq_none_iff] at found
              rw [found]
          | some child =>
              rw [isChild, Option.map_some] at found
              rcases Option.map_eq_some_iff.mp found with ⟨other, isOther, childUnbound⟩
              rw [isOther]
              exact induction childUnbound

/-- The paths resolve to the same symbols. -/
theorem resolveQualifiedName (same : SameButBindings before after) (path : List String)
    (scopeId : Nat) :
    after.resolveQualifiedName path scopeId = before.resolveQualifiedName path scopeId := by
  have resolveAt : ∀ (start : Option Nat) (rest : List String),
      (start.bind after.getScope).bind (fun scope => after.resolveFrom scope rest) =
        (start.bind before.getScope).bind fun scope => before.resolveFrom scope rest := by
    intro start rest
    cases start with
    | none => rfl
    | some start =>
        rw [Option.bind_some, Option.bind_some]
        cases found : after.getScope start with
        | none =>
            have absent := same.scopes start
            rw [found, Option.map_none, eq_comm, Option.map_eq_none_iff] at absent
            rw [absent]
            rfl
        | some changed =>
            rcases same.scope found with ⟨scope, isScope, unbound⟩
            rw [isScope, Option.bind_some, Option.bind_some, same.resolveFrom rest unbound]
  cases path with
  | nil => rfl
  | cons first rest =>
      rw [SymbolTable.resolveQualifiedName, SymbolTable.resolveQualifiedName, same.root,
        resolveAt before.rootScope (first :: rest)]
      split
      · exact resolveAt (some scopeId) rest
      · rfl

/-- The lookups find the same from every scope. -/
theorem environment (same : SameButBindings before after) (current : Option Nat) :
    { after with currentScope := current }.environment =
      { before with currentScope := current }.environment := by
  apply environment_of_view
  · exact same.view
  · rfl
  · exact same.next

end SymbolTable.SameButBindings

/-! ## The run of the resolution -/

/-- The table in which an import path of a scope is bound. -/
def SymbolTable.bindPath (before : SymbolTable) (scopeId : Nat) (table : SymbolTable)
    (item : ImportPath) : SymbolTable :=
  match before.binding scopeId item with
  | some resolved =>
      table.modifyScope scopeId fun scope =>
        { scope with
          resolvedImports := scope.resolvedImports.insert resolved.localName resolved }
  | none => table

def SymbolTable.bindScope (before table : SymbolTable) (scopeId : Nat) : SymbolTable :=
  match before.getScope scopeId with
  | some scope => scope.importPaths.foldl (before.bindPath scopeId) table
  | none => table

def SymbolTable.scopeErrors (before : SymbolTable) (scopeId : Nat) : List TypeCheckError :=
  match before.getScope scopeId with
  | some scope => scope.importPaths.flatMap (before.importErrors scopeId)
  | none => []

theorem SymbolTable.keys_modifyScope (table : SymbolTable) (scopeId : Nat)
    (change : Scope → Scope) :
    (table.modifyScope scopeId change).allScopeIds.Perm table.allScopeIds := by
  rw [modifyScope]
  cases found : table.getScope scopeId with
  | none => exact .refl _
  | some scope =>
      have known : scopeId ∈ table.scopes.keys := by
        apply AList.lookup_isSome.mp
        rw [getScope] at found
        rw [found]
        rfl
      rw [allScopeIds, AList.keys_insert]
      exact (List.perm_cons_erase known).symm

theorem SymbolTable.SameButBindings.bindPath {before table : SymbolTable}
    (same : SameButBindings before table) (scopeId : Nat) (item : ImportPath) :
    SameButBindings before (before.bindPath scopeId table item) := by
  rw [SymbolTable.bindPath]
  split
  · rename_i resolved _
    constructor
    · exact (SymbolTable.modifyScope_rootScope _ _ _).trans same.root
    · exact (SymbolTable.modifyScope_currentScope _ _ _).trans same.current
    · exact (SymbolTable.modifyScope_nextScopeId _ _ _).trans same.next
    · exact (SymbolTable.keys_modifyScope _ _ _).trans same.keys
    · intro other
      rw [SymbolTable.getScope_modifyScope]
      split
      · rw [Option.map_map]
        exact same.scopes other
      · exact same.scopes other
  · exact same

theorem checkAndReportVisibility_states (visibility : Visibility) (definitionScope : Nat)
    (location : Location) (context : VisibilityContext) (state : CheckState) :
    (checkAndReportVisibility visibility definitionScope location context state).states = [] := by
  have unfolded : checkAndReportVisibility visibility definitionScope location context state =
      (if state.symbolTable.checkVisibility visibility definitionScope
          (state.symbolTable.currentScope.getD 0) then (pure () : CheckM Unit)
      else pushError (.privateAccessViolation context location)) state :=
    Collecting.read_bind _ _ state
  rw [unfolded]
  split <;> rfl

variable {state : CheckState}

/-- What one import path does. -/
theorem resolvePath_outcome {before : SymbolTable} (scopeId : Nat) (item : ImportPath)
    (same : before.SameButBindings state.symbolTable) :
    (resolvePath scopeId item state).outcome =
      some ((), { state with symbolTable := before.bindPath scopeId state.symbolTable item },
        before.importErrors scopeId item) := by
  have ended := congrArg Run.outcome
    (resolveImport_run scopeId item.location item.path item.localName item.failedPath state)
  rw [same.resolveQualifiedName] at ended
  rw [resolvePath, ended, SymbolTable.bindPath, SymbolTable.binding, SymbolTable.importErrors]
  cases resolved : before.resolveQualifiedName item.path scopeId with
  | none => rfl
  | some found =>
      rcases found with ⟨symbol, definitionScopeId⟩
      simp only [Option.map_some]
      by_cases isPublic : symbol.isPublic = true
      · rw [if_pos isPublic, isPublic, Bool.true_or, if_pos rfl]
        rfl
      · rw [if_neg isPublic, Collecting.outcome_bind, checkAndReportVisibility_outcome,
          same.checkVisibility, same.current, Bool.not_eq_true _ |>.mp isPublic, Bool.false_or]
        split <;> rfl

/-- A write binds an import path of a scope to what it resolves to. -/
def BindingStep (before : SymbolTable) (first second : CheckState) : Prop :=
  ∃ scopeId, ∃ item ∈ before.importPaths scopeId, ∃ resolved,
    before.binding scopeId item = some resolved ∧ second = { first with
      symbolTable := first.symbolTable.modifyScope scopeId fun scope =>
        { scope with
          resolvedImports := scope.resolvedImports.insert resolved.localName resolved } }

/-- A computation that only binds imports, as a change of the table. -/
structure BindsImports (before : SymbolTable) (computation : CheckM Unit)
    (change : SymbolTable → SymbolTable) (problems : List TypeCheckError) : Prop where
  outcome : ∀ {state : CheckState}, before.SameButBindings state.symbolTable →
    (computation state).outcome =
      some ((), { state with symbolTable := change state.symbolTable }, problems)
  path : ∀ {state : CheckState}, before.SameButBindings state.symbolTable →
    Path (BindingStep before) state (computation state).states
      { state with symbolTable := change state.symbolTable }
  keeps : ∀ {table : SymbolTable}, before.SameButBindings table →
    before.SameButBindings (change table)

/-- The writes of one import path. -/
theorem resolvePath_path {before : SymbolTable} {scopeId : Nat} {item : ImportPath}
    (isPath : item ∈ before.importPaths scopeId) (same : before.SameButBindings state.symbolTable) :
    Path (BindingStep before) state (resolvePath scopeId item state).states
      { state with symbolTable := before.bindPath scopeId state.symbolTable item } := by
  have run := resolveImport_run scopeId item.location item.path item.localName item.failedPath state
  rw [same.resolveQualifiedName] at run
  rw [resolvePath, run, SymbolTable.bindPath]
  have isBinding : before.binding scopeId item =
      (before.resolveQualifiedName item.path scopeId).map fun (symbol, definitionScopeId) =>
        { localName := item.localName, symbol, definitionScopeId } := rfl
  cases resolved : before.resolveQualifiedName item.path scopeId with
  | none =>
      rw [resolved, Option.map_none] at isBinding
      rw [isBinding]
      exact .nil state
  | some found =>
      rcases found with ⟨symbol, definitionScopeId⟩
      rw [resolved, Option.map_some] at isBinding
      rw [isBinding]
      simp only
      have added : Path (BindingStep before) state _ _ :=
        .cons ⟨scopeId, item, isPath, _, isBinding, rfl⟩ (.nil _)
      by_cases isPublic : symbol.isPublic = true
      · rw [if_pos isPublic]
        exact added
      · rw [if_neg isPublic, Collecting.states_bind (checkAndReportVisibility_outcome _ _ _ _ _),
          checkAndReportVisibility_states, List.nil_append]
        exact added

namespace BindsImports

variable {before : SymbolTable}

theorem bind {first next : CheckM Unit} {change other : SymbolTable → SymbolTable}
    {problems more : List TypeCheckError} (front : BindsImports before first change problems)
    (back : BindsImports before next other more) :
    BindsImports before (first >>= fun _ => next) (fun table => other (change table))
      (problems ++ more) := by
  constructor
  · intro state same
    have ended : (next { state with symbolTable := change state.symbolTable }).outcome =
        some ((), { state with symbolTable := other (change state.symbolTable) }, more) :=
      back.outcome (front.keeps same)
    rw [Collecting.outcome_bind, front.outcome same, Option.bind_some]
    simp only [ended, Option.map_some]
  · intro state same
    have path : Path (BindingStep before) { state with symbolTable := change state.symbolTable }
        (next { state with symbolTable := change state.symbolTable }).states
        { state with symbolTable := other (change state.symbolTable) } :=
      back.path (front.keeps same)
    rw [Collecting.states_bind (front.outcome same)]
    exact (front.path same).append path
  · intro table same
    exact back.keeps (front.keeps same)

theorem nothing : BindsImports before (pure ()) id [] :=
  ⟨fun _ => rfl, fun {state} _ => .nil state, id⟩

theorem forM {item : Type} {body : item → CheckM PUnit}
    {change : SymbolTable → item → SymbolTable} {problems : item → List TypeCheckError}
    {items : List item}
    (single : ∀ element ∈ items, BindsImports before (body element)
      (fun table => change table element) (problems element)) :
    BindsImports before (items.forM body) (fun table => items.foldl change table)
      (items.flatMap problems) := by
  induction items with
  | nil => exact nothing
  | cons head tail induction =>
      have rest := induction fun element member =>
        single element (List.mem_cons_of_mem _ member)
      exact bind (single head List.mem_cons_self) rest

/-- Computations that run alike bind the same. -/
theorem of_run {computation other : CheckM Unit} {change : SymbolTable → SymbolTable}
    {problems : List TypeCheckError} (binds : BindsImports before other change problems)
    (same : ∀ {state : CheckState}, before.SameButBindings state.symbolTable →
      computation state = other state) : BindsImports before computation change problems := by
  refine ⟨fun kept => ?_, fun kept => ?_, binds.keeps⟩
  · rw [same kept]
    exact binds.outcome kept
  · rw [same kept]
    exact binds.path kept

theorem resolvePath {scopeId : Nat} {item : ImportPath}
    (isPath : item ∈ before.importPaths scopeId) :
    BindsImports before (resolvePath scopeId item) (fun table => before.bindPath scopeId table item)
      (before.importErrors scopeId item) :=
  ⟨resolvePath_outcome scopeId item, resolvePath_path isPath,
    fun same => same.bindPath scopeId item⟩

theorem resolveImportItem {scopeId : Nat} {item : Import}
    (arePaths : ∀ path ∈ item.paths, path ∈ before.importPaths scopeId) :
    BindsImports before (resolveImportItem scopeId item)
      (fun table => item.paths.foldl (before.bindPath scopeId) table)
      (item.paths.flatMap (before.importErrors scopeId)) := by
  rcases item with ⟨path, kind, location⟩
  cases kind with
  | plain =>
      rw [Import.paths] at arePaths
      rw [TypeChecker.resolveImportItem, Import.paths]
      simp only at arePaths ⊢
      cases last : path.getLast? with
      | none => exact nothing
      | some symbolName =>
          rw [last] at arePaths
          simp only [List.foldl_cons, List.foldl_nil, List.flatMap_cons, List.flatMap_nil,
            List.append_nil]
          exact resolvePath (arePaths _ List.mem_cons_self)
  | partial_ names =>
      rw [TypeChecker.resolveImportItem, Import.paths]
      simp only [List.foldl_map, List.flatMap_map]
      exact forM fun name isName => resolvePath (arePaths _ (List.mem_map_of_mem isName))

theorem resolveImportsInScope (scopeId : Nat) :
    BindsImports before (resolveImportsInScope scopeId) (fun table => before.bindScope table scopeId)
      (before.scopeErrors scopeId) := by
  have read : ∀ state : CheckState, TypeChecker.resolveImportsInScope scopeId state =
      (match state.symbolTable.getScope scopeId with
        | some scope => scope.imports.forM (TypeChecker.resolveImportItem scopeId)
        | none => pure ()) state :=
    fun state => Collecting.read_bind _ _ state
  cases found : before.getScope scopeId with
  | none =>
      have none_bound : BindsImports before (pure ()) (fun table => before.bindScope table scopeId)
          (before.scopeErrors scopeId) := by
        simp only [SymbolTable.bindScope, SymbolTable.scopeErrors, found]
        exact nothing
      apply none_bound.of_run
      intro state same
      have unbound := same.scopes scopeId
      rw [found, Option.map_none, Option.map_eq_none_iff] at unbound
      rw [read, unbound]
  | some scope =>
      have imports : BindsImports before
          (scope.imports.forM (TypeChecker.resolveImportItem scopeId))
          (fun table => before.bindScope table scopeId) (before.scopeErrors scopeId) := by
        simp only [SymbolTable.bindScope, SymbolTable.scopeErrors, found, Scope.importPaths,
          List.foldl_flatMap, List.flatMap_assoc]
        have arePaths : before.importPaths scopeId = scope.importPaths := by
          rw [SymbolTable.importPaths, found, Option.map_some, Option.getD_some]
        apply forM
        intro item isItem
        apply resolveImportItem
        intro path isPath
        rw [arePaths]
        exact List.mem_flatMap_of_mem isItem isPath
      apply imports.of_run
      intro state same
      have unbound := same.scopes scopeId
      rw [found, Option.map_some] at unbound
      rcases Option.map_eq_some_iff.mp unbound with ⟨changed, isChanged, isUnbound⟩
      rw [read, isChanged]
      simp only
      rw [(Scope.of_unbound isUnbound).2.2.2]

theorem inOrder (order : List Nat) :
    BindsImports before (order.forM TypeChecker.resolveImportsInScope)
      (fun table => order.foldl before.bindScope table) (order.flatMap before.scopeErrors) :=
  forM fun scopeId _ => resolveImportsInScope scopeId

end BindsImports

theorem resolveImports_run (state : CheckState) :
    resolveImports state = state.symbolTable.allScopeIds.forM resolveImportsInScope state :=
  Collecting.read_bind _ _ state

/-! ## The scopes after the resolution -/

/-- A scope with import paths bound on top of what it has bound. -/
def Scope.bindAll (before : SymbolTable) (scopeId : Nat) (items : List ImportPath)
    (scope : Scope) : Scope :=
  { scope with
    resolvedImports := items.foldl
      (fun known item => bindImport (before.binding scopeId item) known) scope.resolvedImports }

namespace SymbolTable

theorem getScope_bindPaths (before : SymbolTable) (scopeId : Nat) (items : List ImportPath)
    (table : SymbolTable) (other : Nat) :
    (items.foldl (before.bindPath scopeId) table).getScope other =
      if other = scopeId then (table.getScope other).map (Scope.bindAll before scopeId items)
      else table.getScope other := by
  induction items generalizing table with
  | nil =>
      have nothing : Scope.bindAll before scopeId [] = id := rfl
      rw [List.foldl_nil, nothing, Option.map_id_fun, id, ite_self]
  | cons head tail induction =>
      have first : (before.bindPath scopeId table head).getScope other =
          if other = scopeId then (table.getScope other).map (Scope.bindAll before scopeId [head])
          else table.getScope other := by
        rw [bindPath]
        cases found : before.binding scopeId head with
        | none =>
            have nothing : Scope.bindAll before scopeId [head] = id := by
              funext scope
              simp only [Scope.bindAll, List.foldl_cons, List.foldl_nil, found, bindImport]
              rfl
            rw [nothing, Option.map_id_fun, id, ite_self]
        | some resolved =>
            have bound : Scope.bindAll before scopeId [head] = fun scope =>
                { scope with
                  resolvedImports := scope.resolvedImports.insert resolved.localName resolved } := by
              funext scope
              simp only [Scope.bindAll, List.foldl_cons, List.foldl_nil, found, bindImport]
            rw [bound, getScope_modifyScope]
      rw [List.foldl_cons, induction, first]
      by_cases isScope : other = scopeId
      · rw [if_pos isScope, if_pos isScope, if_pos isScope, Option.map_map]
        rfl
      · rw [if_neg isScope, if_neg isScope, if_neg isScope]

theorem getScope_bindScope (before table : SymbolTable) (scopeId other : Nat) :
    (before.bindScope table scopeId).getScope other =
      if other = scopeId then
        (table.getScope other).map (Scope.bindAll before scopeId (before.importPaths scopeId))
      else table.getScope other := by
  rw [bindScope, importPaths]
  cases before.getScope scopeId with
  | none =>
      have nothing : Scope.bindAll before scopeId [] = id := rfl
      simp only [Option.map_none, Option.getD_none, nothing, Option.map_id_fun, id, ite_self]
  | some scope => exact getScope_bindPaths before scopeId scope.importPaths table other

/-- Each scope binds its own imports, in whichever order the scopes are visited. -/
theorem getScope_inOrder (before : SymbolTable) {order : List Nat} (distinct : order.Nodup)
    (table : SymbolTable) (other : Nat) :
    (order.foldl before.bindScope table).getScope other =
      if other ∈ order then
        (table.getScope other).map (Scope.bindAll before other (before.importPaths other))
      else table.getScope other := by
  induction order generalizing table with
  | nil => rfl
  | cons head tail induction =>
      rcases List.nodup_cons.mp distinct with ⟨notInTail, tailDistinct⟩
      rw [List.foldl_cons, induction tailDistinct, getScope_bindScope]
      by_cases isHead : other = head
      · subst isHead
        rw [if_neg notInTail, if_pos rfl, if_pos List.mem_cons_self]
      · rw [if_neg isHead]
        simp only [List.mem_cons, isHead, false_or]

end SymbolTable

/-! ## Bound imports -/

/-- An import path of a scope names a symbol in a scope. -/
structure SymbolTable.Imports (table : SymbolTable) (scopeId : Nat) (item : ImportPath)
    (symbol : Symbol) (definitionScope : Nat) : Prop where
  path : item ∈ table.importPaths scopeId
  resolves : table.resolveQualifiedName item.path scopeId = some (symbol, definitionScope)

def SymbolTable.IsBound (table : SymbolTable) (scopeId : Nat) (resolved : ResolvedImport) : Prop :=
  ∃ scope, table.getScope scopeId = some scope ∧
    scope.resolvedImports.lookup resolved.localName = some resolved

theorem SymbolTable.Imports.scope {table : SymbolTable} {scopeId : Nat} {item : ImportPath}
    {symbol : Symbol} {definitionScope : Nat}
    (imports : table.Imports scopeId item symbol definitionScope) :
    ∃ scope, table.getScope scopeId = some scope ∧ item ∈ scope.importPaths := by
  have path := imports.path
  rw [importPaths] at path
  cases found : table.getScope scopeId with
  | none =>
      rw [found] at path
      cases path
  | some scope =>
      rw [found] at path
      exact ⟨scope, rfl, path⟩

/-- A loop over imports passes the states that one of its steps passes. -/
theorem BindsImports.visits {item : Type} {before : SymbolTable} {body : item → CheckM PUnit}
    {change : item → SymbolTable → SymbolTable} {problems : item → List TypeCheckError}
    {items : List item} {goal : CheckState → Prop}
    (single : ∀ element ∈ items, BindsImports before (body element) (change element)
      (problems element))
    {element : item} (member : element ∈ items)
    (reaches : ∀ {current : CheckState}, before.SameButBindings current.symbolTable →
      ∃ point ∈ (body element current).states, goal point)
    (same : before.SameButBindings state.symbolTable) :
    ∃ point ∈ (items.forM body state).states, goal point := by
  have ends : ∀ element ∈ items, ∀ {current : CheckState},
      before.SameButBindings current.symbolTable → ∃ value final errors,
        (body element current).outcome = some (value, final, errors) ∧
          before.SameButBindings final.symbolTable := by
    intro element isItem current kept
    have binds := single element isItem
    exact ⟨_, _, _, binds.outcome kept, binds.keeps kept⟩
  exact Collecting.forM_visits ends member reaches same

section

variable {before : SymbolTable} {scopeId : Nat} {item : ImportPath} {symbol : Symbol}
  {definitionScope : Nat} (imports : before.Imports scopeId item symbol definitionScope)

/-- A state in which the import is bound. -/
abbrev SymbolTable.Imports.BoundIn
    (_ : before.Imports scopeId item symbol definitionScope) (point : CheckState) : Prop :=
  point.symbolTable.IsBound scopeId
    { localName := item.localName, symbol, definitionScopeId := definitionScope }

theorem resolvePath_visits (same : before.SameButBindings state.symbolTable) :
    ∃ point ∈ (resolvePath scopeId item state).states, imports.BoundIn point := by
  let resolved : ResolvedImport :=
    { localName := item.localName, symbol, definitionScopeId := definitionScope }
  let final : CheckState :=
    { state with
      symbolTable := state.symbolTable.modifyScope scopeId fun scope =>
        { scope with
          resolvedImports := scope.resolvedImports.insert resolved.localName resolved } }
  have added : (addResolvedImport scopeId resolved state).states = [final] := rfl
  have bound : imports.BoundIn final := by
    rcases imports.scope with ⟨scope, isScope, _⟩
    have unbound := same.scopes scopeId
    rw [isScope, Option.map_some] at unbound
    rcases Option.map_eq_some_iff.mp unbound with ⟨changed, isChanged, _⟩
    refine ⟨{ changed with
      resolvedImports := changed.resolvedImports.insert resolved.localName resolved }, ?_, ?_⟩
    · rw [SymbolTable.getScope_modifyScope, if_pos rfl, isChanged, Option.map_some]
    · exact AList.lookup_insert changed.resolvedImports
  have run := resolveImport_run scopeId item.location item.path item.localName item.failedPath state
  rw [same.resolveQualifiedName, imports.resolves] at run
  simp only at run
  rw [resolvePath, run]
  refine ⟨final, ?_, bound⟩
  by_cases isPublic : symbol.isPublic = true
  · rw [if_pos isPublic]
    change final ∈ (addResolvedImport scopeId resolved state).states
    rw [added]
    exact List.mem_singleton_self final
  · rw [if_neg isPublic, Collecting.states_bind (checkAndReportVisibility_outcome _ _ _ _ _),
      checkAndReportVisibility_states, List.nil_append]
    change final ∈ (addResolvedImport scopeId resolved state).states
    rw [added]
    exact List.mem_singleton_self final

theorem resolveImportItem_visits {directive : Import}
    (arePaths : ∀ path ∈ directive.paths, path ∈ before.importPaths scopeId)
    (member : item ∈ directive.paths)
    (same : before.SameButBindings state.symbolTable) :
    ∃ point ∈ (resolveImportItem scopeId directive state).states, imports.BoundIn point := by
  rcases directive with ⟨path, kind, location⟩
  cases kind with
  | plain =>
      rw [Import.paths] at member
      simp only at member
      rw [resolveImportItem]
      simp only
      cases last : path.getLast? with
      | none =>
          rw [last] at member
          cases member
      | some symbolName =>
          rw [last] at member
          cases List.mem_singleton.mp member
          exact resolvePath_visits imports same
  | partial_ names =>
      rw [Import.paths] at member
      rcases List.mem_map.mp member with ⟨name, isName, rfl⟩
      rw [resolveImportItem]
      simp only
      have binds : ∀ name ∈ names, BindsImports before (resolvePath scopeId
          { location, path := path ++ [name], localName := name
            failedPath := "::".intercalate path ++ "::" ++ name }) _ _ :=
        fun name isName => BindsImports.resolvePath (arePaths _ (List.mem_map_of_mem isName))
      exact BindsImports.visits binds isName (fun kept => resolvePath_visits imports kept) same

theorem resolveImportsInScope_visits (same : before.SameButBindings state.symbolTable) :
    ∃ point ∈ (resolveImportsInScope scopeId state).states, imports.BoundIn point := by
  rcases imports.scope with ⟨scope, isScope, isPath⟩
  rcases List.mem_flatMap.mp isPath with ⟨directive, isDirective, member⟩
  have unbound := same.scopes scopeId
  rw [isScope, Option.map_some] at unbound
  rcases Option.map_eq_some_iff.mp unbound with ⟨changed, isChanged, isUnbound⟩
  have run : resolveImportsInScope scopeId state =
      (match state.symbolTable.getScope scopeId with
        | some scope => scope.imports.forM (resolveImportItem scopeId)
        | none => pure ()) state :=
    Collecting.read_bind _ _ state
  rw [run, isChanged]
  simp only
  rw [(Scope.of_unbound isUnbound).2.2.2]
  have paths : before.importPaths scopeId = scope.importPaths := by
    rw [SymbolTable.importPaths, isScope, Option.map_some, Option.getD_some]
  have arePaths : ∀ directive ∈ scope.imports, ∀ path ∈ directive.paths,
      path ∈ before.importPaths scopeId := by
    intro directive isDirective path isPath
    rw [paths]
    exact List.mem_flatMap_of_mem isDirective isPath
  have binds : ∀ directive ∈ scope.imports,
      BindsImports before (resolveImportItem scopeId directive) _ _ :=
    fun directive isDirective => BindsImports.resolveImportItem (arePaths directive isDirective)
  exact BindsImports.visits binds isDirective
    (fun kept => resolveImportItem_visits imports (arePaths _ isDirective) member kept) same

end

/-- The resolution passes a state in which the import is bound. -/
theorem resolveImports_visits {scopeId : Nat} {item : ImportPath}
    {symbol : Symbol} {definitionScope : Nat}
    (imports : state.symbolTable.Imports scopeId item symbol definitionScope) :
    ∃ point ∈ (resolveImports state).states, imports.BoundIn point := by
  rcases imports.scope with ⟨scope, isScope, _⟩
  have known : scopeId ∈ state.symbolTable.allScopeIds := by
    apply AList.lookup_isSome.mp
    rw [SymbolTable.getScope] at isScope
    rw [isScope]
    rfl
  have binds : ∀ other ∈ state.symbolTable.allScopeIds,
      BindsImports state.symbolTable (resolveImportsInScope other) _ _ :=
    fun other _ => BindsImports.resolveImportsInScope other
  rw [resolveImports_run]
  exact BindsImports.visits binds known (fun kept => resolveImportsInScope_visits imports kept)
    (.refl _)

/-- An error about an import path is an error of the resolution. -/
theorem SymbolTable.mem_scopeErrors {table : SymbolTable} {scopeId : Nat} {item : ImportPath}
    (isPath : item ∈ table.importPaths scopeId) {error : TypeCheckError}
    (member : error ∈ table.importErrors scopeId item) :
    error ∈ table.allScopeIds.flatMap table.scopeErrors := by
  rw [importPaths] at isPath
  cases found : table.getScope scopeId with
  | none =>
      rw [found] at isPath
      cases isPath
  | some scope =>
      rw [found] at isPath
      have known : scopeId ∈ table.allScopeIds :=
        AList.lookup_isSome.mp (Option.isSome_of_eq_some found)
      apply List.mem_flatMap_of_mem known
      rw [scopeErrors, found]
      exact List.mem_flatMap_of_mem isPath member

/-- What is bound at some point of the resolution was bound before or is what an import path
of the scope resolves to. -/
theorem resolveImports_binds :
    ∀ point ∈ (resolveImports state).states, ∀ scopeId resolved,
      point.symbolTable.IsBound scopeId resolved → state.symbolTable.IsBound scopeId resolved ∨
        ∃ item ∈ state.symbolTable.importPaths scopeId,
          state.symbolTable.binding scopeId item = some resolved := by
  intro point visited
  have binds : BindsImports state.symbolTable _ _ _ :=
    BindsImports.inOrder state.symbolTable.allScopeIds
  have path := binds.path (.refl _)
  rw [resolveImports_run] at visited
  apply path.keeps (fun point : CheckState => ∀ scopeId resolved,
    point.symbolTable.IsBound scopeId resolved → state.symbolTable.IsBound scopeId resolved ∨
      ∃ item ∈ state.symbolTable.importPaths scopeId,
          state.symbolTable.binding scopeId item = some resolved) _ _ point
    (List.mem_cons_of_mem _ visited)
  · rintro first second ⟨holder, item, isPath, bound, isBinding, rfl⟩ kept scopeId resolved isBound
    rcases isBound with ⟨scope, isScope, isResolved⟩
    rw [SymbolTable.getScope_modifyScope] at isScope
    split at isScope
    · rename_i isHolder
      subst isHolder
      rcases Option.map_eq_some_iff.mp isScope with ⟨earlier, isEarlier, rfl⟩
      by_cases isName : resolved.localName = bound.localName
      · rw [isName, AList.lookup_insert] at isResolved
        cases isResolved
        exact .inr ⟨item, isPath, isBinding⟩
      · rw [AList.lookup_insert_ne isName] at isResolved
        exact kept _ _ ⟨earlier, isEarlier, isResolved⟩
    · exact kept _ _ ⟨scope, isScope, isResolved⟩
  · exact fun _ _ isBound => .inl isBound

/-! ## Further definitions -/

/-- The second table also has definitions that are registered later. -/
def SymbolTable.DeclaredBy (table whole : SymbolTable) : Prop :=
  ∀ {path scopeId found}, table.resolveQualifiedName path scopeId = some found →
    whole.resolveQualifiedName path scopeId = some found

/-- The second scope has further symbols. -/
structure Scope.FurtherSymbols (scope changed : Scope) : Prop where
  id : changed.id = scope.id
  name : changed.name = scope.name
  children : changed.children = scope.children
  symbols : ∀ {name symbol}, scope.symbols.lookup name = some symbol →
    changed.symbols.lookup name = some symbol

theorem Scope.FurtherSymbols.refl (scope : Scope) : scope.FurtherSymbols scope :=
  ⟨rfl, rfl, rfl, fun isSymbol => isSymbol⟩

namespace SymbolTable

/-- The second table has the same scopes with further symbols. -/
def FurtherSymbols (before after : SymbolTable) : Prop :=
  ∀ scopeId, Option.Rel Scope.FurtherSymbols (before.getScope scopeId) (after.getScope scopeId)

section

variable {before after : SymbolTable}

/-- A child scope is found under its name in both tables. -/
theorem FurtherSymbols.find_child (further : before.FurtherSymbols after) (segment : String)
    (ids : List Nat) :
    Option.Rel Scope.FurtherSymbols
      ((ids.filterMap before.getScope).find? (·.name = segment))
      ((ids.filterMap after.getScope).find? (·.name = segment)) := by
  induction ids with
  | nil => exact .none
  | cons head tail induction =>
      have single := further head
      cases found : before.getScope head with
      | none =>
          rw [found] at single
          cases changed : after.getScope head with
          | none =>
              rw [List.filterMap_cons_none found, List.filterMap_cons_none changed]
              exact induction
          | some scope =>
              rw [changed] at single
              cases single
      | some scope =>
          rw [found] at single
          cases changed : after.getScope head with
          | none =>
              rw [changed] at single
              cases single
          | some other =>
              rw [changed] at single
              cases single with
              | some isFurther =>
                  rw [List.filterMap_cons_some found, List.filterMap_cons_some changed,
                    List.find?_cons, List.find?_cons, isFurther.name]
                  split
                  · exact .some isFurther
                  · exact induction

theorem FurtherSymbols.resolveFrom (further : before.FurtherSymbols after) {path : List String}
    {scope changed : Scope} (isFurther : scope.FurtherSymbols changed) {found : Symbol × Nat}
    (resolves : before.resolveFrom scope path = some found) :
    after.resolveFrom changed path = some found := by
  induction path generalizing scope changed with
  | nil => cases resolves
  | cons segment rest induction =>
      cases rest with
      | nil =>
          rw [SymbolTable.resolveFrom] at resolves ⊢
          rcases Option.map_eq_some_iff.mp resolves with ⟨symbol, isSymbol, rfl⟩
          rw [isFurther.symbols isSymbol, isFurther.id, Option.map_some]
      | cons next rest =>
          rw [SymbolTable.resolveFrom] at resolves ⊢
          rw [isFurther.children]
          have child := further.find_child segment scope.children
          cases known : (scope.children.filterMap before.getScope).find? (·.name = segment) with
          | none =>
              rw [known] at resolves
              cases resolves
          | some inner =>
              rw [known] at child resolves
              cases other : (scope.children.filterMap after.getScope).find?
                  (·.name = segment) with
              | none =>
                  rw [other] at child
                  cases child
              | some changedInner =>
                  rw [other] at child
                  cases child with
                  | some isInner => exact induction isInner resolves

theorem FurtherSymbols.declaredBy (further : before.FurtherSymbols after)
    (root : after.rootScope = before.rootScope) : before.DeclaredBy after := by
  have resolvesAt : ∀ {start : Option Nat} {rest : List String} {found : Symbol × Nat},
      (start.bind before.getScope).bind (fun scope => before.resolveFrom scope rest) =
          some found →
        (start.bind after.getScope).bind (fun scope => after.resolveFrom scope rest) =
          some found := by
    intro start rest found resolves
    rcases Option.bind_eq_some_iff.mp resolves with ⟨scope, isScope, isFound⟩
    rcases Option.bind_eq_some_iff.mp isScope with ⟨scopeId, isStart, isKnown⟩
    have related := further scopeId
    rw [isKnown] at related
    rw [isStart, Option.bind_some]
    cases changed : after.getScope scopeId with
    | none =>
        rw [changed] at related
        cases related
    | some other =>
        rw [changed] at related
        cases related with
        | some isFurther => exact further.resolveFrom isFurther isFound
  intro path scopeId found resolves
  cases path with
  | nil => cases resolves
  | cons first rest =>
      rw [resolveQualifiedName] at resolves ⊢
      rw [root]
      split at resolves
      · rename_i isSelf
        rw [if_pos isSelf]
        have fromScope : ((some scopeId).bind before.getScope).bind
            (fun scope => before.resolveFrom scope rest) = some found := resolves
        exact resolvesAt fromScope
      · rename_i isOther
        rw [if_neg isOther]
        exact resolvesAt resolves

end

/-- The registration of a symbol. -/
theorem DeclaredBy.insertSymbol {table whole : SymbolTable} {noScope name : String}
    {symbol : Nat → Symbol}
    (registered : table.insertCurrent noScope (fun scopeId frame =>
      frame.insertSymbol name (symbol scopeId)) = .ok whole) : table.DeclaredBy whole := by
  rcases insertCurrent_ok registered with ⟨scope, frame, isScope, inserted, rfl⟩
  rcases Option.bind_eq_some_iff.mp isScope with ⟨current, isCurrent, isKnown⟩
  have changed : table.modifyCurrent (fun _ => frame) =
      table.modifyScope current fun scope => { scope with toFrame := frame } := by
    rw [modifyCurrent, isCurrent]
  rw [changed]
  apply FurtherSymbols.declaredBy
  · intro scopeId
    rw [getScope_modifyScope]
    split
    · rename_i isSame
      subst isSame
      rw [isKnown, Option.map_some]
      apply Option.Rel.some
      refine ⟨rfl, rfl, rfl, ?_⟩
      intro other known isSymbol
      rw [Frame.insertSymbol] at inserted
      split at inserted
      · cases inserted
      · rename_i isNew
        cases inserted
        have isOther : other ≠ name := by
          rintro rfl
          exact isNew (AList.lookup_isSome.mp (by rw [isSymbol]; rfl))
        rw [AList.lookup_insert_ne isOther]
        exact isSymbol
    · cases table.getScope scopeId with
      | none => exact .none
      | some other => exact .some (.refl other)
  · exact modifyScope_rootScope _ _ _

end SymbolTable

/-! ## The effect of imports -/

section

variable [UnicodeCase]

/-- The lookups from the current scope find the symbol under the name. -/
structure SymbolTable.Finds (table : SymbolTable) (name : String) (symbol : Symbol) : Prop where
  type_ : ∀ typeInfo, symbol.asTypeInfo = some typeInfo → table.lookupType name = some typeInfo
  function : ∀ signature, symbol.asFunction = some signature →
    table.lookupFunction name = some signature
  struct_ : ∀ info, symbol.asStruct = some info → table.lookupStruct name = some info
  enum : ∀ info, symbol.asEnum = some info → table.lookupEnum name = some info

theorem SymbolTable.Finds.congr {before after : SymbolTable} {name : String} {symbol : Symbol}
    (finds : before.Finds name symbol) (same : after.environment = before.environment) :
    after.Finds name symbol where
  type_ typeInfo isType := by
    rw [lookupType, same]
    exact finds.type_ typeInfo isType
  function signature isFunction := by
    rw [lookupFunction, same]
    exact finds.function signature isFunction
  struct_ info isStruct := by
    rw [lookupStruct, same]
    exact finds.struct_ info isStruct
  enum info isEnum := by
    rw [lookupEnum, same]
    exact finds.enum info isEnum

/-- The table as it is seen from a scope. -/
def SymbolTable.inside (table : SymbolTable) (scopeId : Nat) : SymbolTable :=
  { table with currentScope := some scopeId }

def ImportPath.ReportedIn (item : ImportPath) (errors : List TypeCheckError) : Prop :=
  .privateAccessViolation (.import_ ("::".intercalate item.path)) item.location ∈ errors ∨
    .importResolutionFailed item.failedPath item.location ∈ errors

/-- What the imports of a table are for, where `whole` has all definitions that the imports
may name. -/
structure ImportsTakeEffect (whole : SymbolTable) (state final : CheckState)
    (errors : List TypeCheckError) : Prop where
  found : ∀ {scopeId item symbol definitionScope},
    item ∈ state.symbolTable.importPaths scopeId →
      whole.resolveQualifiedName item.path scopeId = some (symbol, definitionScope) →
        symbol.isPublic = true →
          ∀ accessScope, state.symbolTable.Descends scopeId accessScope →
            (final.symbolTable.inside accessScope).Finds item.localName symbol
  rejected : ∀ {scopeId item symbol definitionScope},
    item ∈ state.symbolTable.importPaths scopeId →
      whole.resolveQualifiedName item.path scopeId = some (symbol, definitionScope) →
        symbol.isPublic ≠ true → ¬ state.symbolTable.Descends definitionScope scopeId →
          item.ReportedIn errors ∧
            ∀ point ∈ state :: (resolveImports state).states, ¬ point.symbolTable.IsBound scopeId
              { localName := item.localName, symbol, definitionScopeId := definitionScope }
  ordered : ∀ {order : List Nat}, order.Perm state.symbolTable.allScopeIds →
    ∃ (other : CheckState) (more : List TypeCheckError),
      (order.forM resolveImportsInScope state).outcome = some ((), other, more) ∧
        more.Perm errors ∧ other.symbolTable.currentScope = final.symbolTable.currentScope ∧
          ∀ scopeId, other.symbolTable.getScope scopeId = final.symbolTable.getScope scopeId

/-- No import is needed: each public symbol is found without it, and no private symbol is
reached from outside. -/
structure SymbolTable.ImportsNeedless (table whole : SymbolTable) : Prop where
  found : ∀ {scopeId item symbol definitionScope},
    item ∈ table.importPaths scopeId →
      whole.resolveQualifiedName item.path scopeId = some (symbol, definitionScope) →
        symbol.isPublic = true → ∀ accessScope, table.Descends scopeId accessScope →
          (table.inside accessScope).Finds item.localName symbol
  unreached : ∀ {scopeId item symbol definitionScope},
    item ∈ table.importPaths scopeId →
      whole.resolveQualifiedName item.path scopeId = some (symbol, definitionScope) →
        symbol.isPublic ≠ true → ¬ table.Descends definitionScope scopeId →
          table.resolveQualifiedName item.path scopeId = none ∧
            ¬ table.IsBound scopeId
              { localName := item.localName, symbol, definitionScopeId := definitionScope }

/-- The lookups never read what the resolution binds, so imports take effect exactly where
they are not needed. -/
theorem importsTakeEffect_iff (state : CheckState) {whole : SymbolTable}
    (declared : state.symbolTable.DeclaredBy whole) :
    (∃ final errors, (resolveImports state).outcome = some ((), final, errors) ∧
        ImportsTakeEffect whole state final errors) ↔
      state.symbolTable.ImportsNeedless whole := by
  have ends : ∀ order : List Nat, (order.forM resolveImportsInScope state).outcome =
      some ((), { state with
          symbolTable := order.foldl state.symbolTable.bindScope state.symbolTable },
        order.flatMap state.symbolTable.scopeErrors) :=
    fun order => (BindsImports.inOrder order).outcome (.refl _)
  have same : ∀ order : List Nat, state.symbolTable.SameButBindings
      (order.foldl state.symbolTable.bindScope state.symbolTable) :=
    fun order => (BindsImports.inOrder order).keeps (.refl _)
  have distinct : state.symbolTable.allScopeIds.Nodup := state.symbolTable.scopes.keys_nodup
  have run := congrArg Run.outcome (resolveImports_run state)
  constructor
  · rintro ⟨final, errors, ended, effect⟩
    cases (ends _).symm.trans (run.symm.trans ended)
    constructor
    · intro scopeId item symbol definitionScope isPath resolves isPublic accessScope descends
      apply (effect.found isPath resolves isPublic accessScope descends).congr
      exact ((same state.symbolTable.allScopeIds).environment (some accessScope)).symm
    · intro scopeId item symbol definitionScope isPath resolves isPrivate outside
      have neverBound := (effect.rejected isPath resolves isPrivate outside).2
      constructor
      · cases found : state.symbolTable.resolveQualifiedName item.path scopeId with
        | none => rfl
        | some known =>
            cases (declared found).symm.trans resolves
            rcases resolveImports_visits ⟨isPath, found⟩ with ⟨point, visited, isBound⟩
            exact absurd isBound (neverBound point (List.mem_cons_of_mem _ visited))
      · exact neverBound state List.mem_cons_self
  · intro needless
    refine ⟨_, _, run.trans (ends _), ?_, ?_, ?_⟩
    · intro scopeId item symbol definitionScope isPath resolves isPublic accessScope descends
      apply (needless.found isPath resolves isPublic accessScope descends).congr
      exact (same state.symbolTable.allScopeIds).environment (some accessScope)
    · intro scopeId item symbol definitionScope isPath resolves isPrivate outside
      rcases needless.unreached isPath resolves isPrivate outside with ⟨unresolved, unbound⟩
      constructor
      · right
        exact SymbolTable.mem_scopeErrors isPath (by
          rw [SymbolTable.importErrors, unresolved]
          exact List.mem_singleton_self _)
      · intro point visited isBound
        rcases List.mem_cons.mp visited with rfl | visited
        · exact unbound isBound
        · rcases resolveImports_binds point visited _ _ isBound with earlier | ⟨other, isOther, bound⟩
          · exact unbound earlier
          · rcases Option.map_eq_some_iff.mp bound with ⟨⟨known, holder⟩, found, isResolved⟩
            simp only [ResolvedImport.mk.injEq] at isResolved
            rcases isResolved with ⟨-, rfl, rfl⟩
            have private_ := needless.unreached isOther (declared found) isPrivate outside
            rw [found] at private_
            cases private_.1
    · intro order isOrder
      refine ⟨_, _, ends order, isOrder.flatMap_right _, ?_, ?_⟩
      · exact (same order).current.trans (same _).current.symm
      · intro scopeId
        rw [SymbolTable.getScope_inOrder _ (isOrder.nodup_iff.mpr distinct),
          SymbolTable.getScope_inOrder _ distinct]
        simp only [isOrder.mem_iff]

end

/-! ## A program that imports its function -/

/-- A directive that imports one name. -/
def useDirective (name : String) : UseDirective where
  toNode := lineNode 5
  segments := some [{ toNode := lineNode 6, name }]

def importing (table : SymbolTable) (name : String) : SymbolTable :=
  (table.registerImport (importOf (useDirective name))).toOption.getD table

/-- The root holds a public enum, which the scope `shapes` imports. In it there is the scope `round`,
and beside it the scope `drawing`. -/
def importedInShapes : SymbolTable :=
  ((importing (withEnum.pushScopeWithName "shapes" .public_) "Color").pushScopeWithName "round"
    .public_).popScope.popScope.pushScopeWithName "drawing" .public_

theorem importedInShapes_paths {scopeId : Nat} {item : ImportPath}
    (isPath : item ∈ importedInShapes.importPaths scopeId) :
    scopeId = 1 ∧ item.path = ["Color"] ∧ item.localName = "Color" := by
  match scopeId with
  | 0 | 2 | 3 | _ + 4 => cases isPath
  | 1 =>
      rw [List.mem_singleton.mp isPath]
      exact ⟨rfl, rfl, rfl⟩

theorem importedInShapes_descends {scopeId : Nat} (descends : importedInShapes.Descends 1 scopeId) :
    scopeId = 1 ∨ scopeId = 2 := by
  induction descends with
  | refl => exact .inl rfl
  | tail _ child induction =>
      rcases child with ⟨parent, isParent, isChild⟩
      rcases induction with rfl | rfl
      · cases isParent
        exact .inr (List.mem_singleton.mp isChild)
      · cases isParent
        cases isChild

theorem importedInShapes_finds {scopeId : Nat} {symbol : Symbol} {definitionScope : Nat}
    (inside : scopeId = 1 ∨ scopeId = 2)
    (resolves : importedInShapes.resolveQualifiedName ["Color"] 1 = some (symbol, definitionScope)) :
    (importedInShapes.inside scopeId).Finds "Color" symbol := by
  cases resolves
  refine ⟨?_, ?_, ?_, ?_⟩
  · intro typeInfo isType
    cases isType
    rcases inside with rfl | rfl <;> rfl
  · intro signature isFunction
    cases isFunction
  · intro info isStruct
    cases isStruct
  · intro info isEnum
    cases isEnum
    rcases inside with rfl | rfl <;> rfl

theorem importsTakeEffect_iff_enum :
    ∃ final errors,
      (resolveImports { symbolTable := importedInShapes }).outcome = some ((), final, errors) ∧
        ImportsTakeEffect importedInShapes { symbolTable := importedInShapes } final errors := by
  apply (importsTakeEffect_iff { symbolTable := importedInShapes } id).mpr
  constructor
  · intro scopeId item symbol definitionScope isPath resolves _ accessScope descends
    rcases importedInShapes_paths isPath with ⟨rfl, isColor, isName⟩
    rw [isColor] at resolves
    rw [isName]
    exact importedInShapes_finds (importedInShapes_descends descends) resolves
  · intro scopeId item symbol definitionScope isPath resolves isPrivate
    rcases importedInShapes_paths isPath with ⟨rfl, isColor, isName⟩
    rw [isColor] at resolves
    cases resolves
    exact absurd rfl isPrivate

def publicSymbol (definitionScopeId : Nat) : Symbol :=
  .function {
    name := "area", typeParams := [], paramTypes := [], returnType := default
    visibility := .public_
    definitionScopeId }

/-- The table in which the public function is registered with its visibility. -/
def withPublicFunction (table : SymbolTable) : SymbolTable :=
  (table.insertCurrent "No active scope to register function" fun scopeId frame =>
    frame.insertSymbol "area" (publicSymbol scopeId)).toOption.getD table

/-- The import of a public function has no effect, and the program that defines and imports it
is refused. -/
theorem publicFunction_importFails :
    ((importing .default "area").DeclaredBy (withPublicFunction (importing .default "area")) ∧
        ¬ ∃ final errors,
          (resolveImports { symbolTable := importing .default "area" }).outcome =
              some ((), final, errors) ∧
            ImportsTakeEffect (withPublicFunction (importing .default "area"))
              { symbolTable := importing .default "area" } final errors) ∧
      reportedErrors [{ directives := [useDirective "area"]
                        definitions := [.function publicFunction] }] =
        some [.importResolutionFailed "area" (lineNode 5).location] := by
  have registered : (importing .default "area").insertCurrent
      "No active scope to register function" (fun scopeId frame =>
        frame.insertSymbol "area" (publicSymbol scopeId)) =
      .ok (withPublicFunction (importing .default "area")) := rfl
  refine ⟨⟨SymbolTable.DeclaredBy.insertSymbol registered, ?_⟩, rfl⟩
  rintro ⟨final, errors, ended, effect⟩
  cases ended
  have finds := effect.found (List.mem_singleton_self _) rfl rfl 0 .refl
  cases finds.function _ rfl

end Inference.TypeChecker
