import Inference.TypeChecker.ErrorReports

/-! # Visibility of definitions

A private definition may be reached from its scope and the scopes below it. The check of an
access reads the visibility and the scope that the registration has recorded.
-/

namespace Inference.TypeChecker

open Inference.Ast Inference.Foundation

/-! ## Definitions -/

/-- A definition that is declared with a visibility. -/
inductive Registrable where
  | function (definition : FunctionDefinition)
  | method (structName : String) (definition : FunctionDefinition)
  | struct_ (definition : StructDefinition)
  | enum (definition : EnumDefinition)

/-- What a scope holds for a definition. -/
inductive Entry where
  | symbol (symbol : Symbol)
  | method (info : MethodInfo)

namespace Registrable

def visibility : Registrable → Visibility
  | .function definition | .method _ definition => definition.visibility
  | .struct_ definition => definition.visibility
  | .enum definition => definition.visibility

def isFunction : Registrable → Bool
  | .function _ => true
  | .method _ _ | .struct_ _ | .enum _ => false

/-- The visibility that the registration records. -/
def recordedVisibility (definition : Registrable) : Visibility :=
  if definition.isFunction then .private_ else definition.visibility

/-- The entry that a lookup of the definition finds in a scope. -/
def entry (frame : Frame) : Registrable → Option Entry
  | .function definition => (frame.symbols.lookup definition.name.name).map .symbol
  | .struct_ definition => (frame.symbols.lookup definition.name.name).map .symbol
  | .enum definition => (frame.symbols.lookup definition.name.name).map .symbol
  | .method structName definition =>
      ((frame.methods.lookup structName).bind fun methods =>
        methods.find? fun method => method.signature.name = definition.name.name).map .method

/-- The operation of the symbol table by which the checker registers a definition, with the
types that it has built for the signature or the fields. -/
inductive Registers : Registrable → SymbolTable → SymbolTable → Prop where
  | function {definition : FunctionDefinition} {paramTypes : List TypeInfo}
      {returnType : TypeInfo} {before after : SymbolTable}
      (registered : before.registerFunction definition.name.name
        (typeParamNames definition.typeParameters) paramTypes returnType = .ok after) :
      Registers (.function definition) before after
  | method {structName : String} {definition : FunctionDefinition} {signature : FuncInfo}
      {before after : SymbolTable} (named : signature.name = definition.name.name)
      (registered : before.registerMethod structName signature definition.visibility
        (hasSelf definition.arguments) = .ok after) :
      Registers (.method structName definition) before after
  | struct_ {definition : StructDefinition} {fields : List (String × TypeInfo × Visibility)}
      {before after : SymbolTable}
      (registered : before.registerStruct definition.name.name fields [] definition.visibility =
        .ok after) :
      Registers (.struct_ definition) before after
  | enum {definition : EnumDefinition} {before after : SymbolTable}
      (registered : before.registerEnum definition.name.name
        (definition.variants.map (·.name)) definition.visibility = .ok after) :
      Registers (.enum definition) before after

end Registrable

/-! ## Registration -/

variable {state final : CheckState} {value : Unit}

theorem register_accepts {change : SymbolTable → Except String SymbolTable}
    {onFailure : String → TypeCheckError}
    (accepted : (register change onFailure).Accepts state value final) :
    change state.symbolTable = .ok final.symbolTable := by
  rcases Collecting.accepts_bind.mp accepted with ⟨table, middle, isRead, rest⟩
  rcases Collecting.accepts_read.mp isRead with ⟨rfl, rfl⟩
  cases changed : change middle.symbolTable with
  | error reason =>
      rw [changed] at rest
      exact absurd rest Collecting.accepts_report.mp
  | ok table =>
      rw [changed] at rest
      rw [Collecting.accepts_update.mp rest]

theorem declaredReturnType_accepts {returns : Option Type_} {typeParams : List String}
    {value : TypeInfo}
    (accepted : (declaredReturnType returns typeParams).Accepts state value final) :
    final = state := by
  cases returns with
  | none => exact (Collecting.accepts_pure.mp accepted).2
  | some returns => exact (Collecting.accepts_expect.mp accepted).2

theorem registerMethodOf_registers {structName : String} {method : FunctionDefinition}
    (accepted : (registerMethodOf structName method).Accepts state value final) :
    Registrable.Registers (.method structName method) state.symbolTable final.symbolTable := by
  rcases Collecting.accepts_bind.mp accepted with ⟨paramTypes, typed, isTypes, behindTypes⟩
  rw [(Collecting.accepts_expect.mp isTypes).2] at behindTypes
  rcases Collecting.accepts_bind.mp behindTypes with ⟨returnType, returned, isReturns, behind⟩
  rw [declaredReturnType_accepts isReturns] at behind
  rcases Collecting.accepts_bind.mp behind with ⟨table, read, isRead, last⟩
  rw [(Collecting.accepts_read.mp isRead).2] at last
  exact .method rfl (register_accepts last)

variable {definition : FunctionDefinition}

theorem registerFunctionNamed_registers
    (accepted : (registerFunctionNamed definition.name.name definition.location
      (typeParamNames definition.typeParameters) definition.arguments definition.returns).Accepts
        state value final) :
    Registrable.Registers (.function definition) state.symbolTable final.symbolTable := by
  rcases Collecting.accepts_bind.mp accepted with ⟨paramTypes, typed, isTypes, behindTypes⟩
  rw [(Collecting.accepts_expect.mp isTypes).2] at behindTypes
  rcases Collecting.accepts_bind.mp behindTypes with ⟨returnType, returned, isReturns, last⟩
  rw [declaredReturnType_accepts isReturns] at last
  exact .function (register_accepts last)

theorem registerStruct_registers {definition : StructDefinition}
    (accepted : (registerTypeDefinition (.struct_ definition)).Accepts state value final) :
    ∃ between, Registrable.Registers (.struct_ definition) state.symbolTable between := by
  rcases Collecting.accepts_bind.mp accepted with ⟨fields, typed, isFields, behindFields⟩
  rw [(Collecting.accepts_expect.mp isFields).2] at behindFields
  rcases Collecting.accepts_bind.mp behindFields with ⟨_, registered, isRegistered, _⟩
  exact ⟨registered.symbolTable, .struct_ (register_accepts isRegistered)⟩

theorem registerEnum_registers {definition : EnumDefinition}
    (accepted : (registerTypeDefinition (.enum definition)).Accepts state value final) :
    Registrable.Registers (.enum definition) state.symbolTable final.symbolTable :=
  .enum (register_accepts accepted)

namespace Entry

/-- What the check of a use reads; a use of a struct is not checked. -/
def guard : Entry → Option (Visibility × Nat)
  | .symbol (.function signature) => some (signature.visibility, signature.definitionScopeId)
  | .symbol (.enum info) => some (info.visibility, info.definitionScopeId)
  | .method info => some (info.visibility, info.scopeId)
  | .symbol (.struct_ _) | .symbol (.typeAlias _) | .symbol (.spec _) => none

/-- The entry has the visibility and the scope recorded. -/
structure Records (entry : Entry) (visibility : Visibility) (scopeId : Nat) : Prop where
  guard : ∀ guarded, entry.guard = some guarded → guarded = (visibility, scopeId)
  isPublic : ∀ symbol, entry = .symbol symbol → (symbol.isPublic = true ↔ visibility = .public_)

end Entry

variable {symbol : Symbol}

theorem insertSymbol_ok {frame changed : Frame} {name : String}
    (inserted : frame.insertSymbol name symbol = .ok changed) :
    changed.symbols.lookup name = some symbol := by
  rw [Frame.insertSymbol] at inserted
  split at inserted
  · cases inserted
  · cases inserted
    exact AList.lookup_insert _

/-- A registration in a scope in which the definition has no entry makes one there, with the
visibility that the registration records. -/
theorem Registrable.Registers.entry {definition : Registrable} {before after : SymbolTable}
    (registers : Registers definition before after) (tree : before.IsScopeTree) {scopeId : Nat}
    {scope : Scope} (isCurrent : before.currentScope = some scopeId)
    (found : before.getScope scopeId = some scope)
    (absent : definition.entry scope.toFrame = none) :
    ∃ changed entry, after.getScope scopeId = some changed ∧
      definition.entry changed.toFrame = some entry ∧
        entry.Records definition.recordedVisibility scopeId := by
  have filed : scope.id = scopeId := (tree.filed found).1
  have current : before.currentScope.bind before.getScope = some scope := by
    rw [isCurrent, Option.bind_some, found]
  have changes : ∀ {frame : Frame}, (before.modifyCurrent fun _ => frame) = after →
      after.getScope scopeId = some { scope with toFrame := frame } := by
    intro frame same
    rw [← same, SymbolTable.modifyCurrent, isCurrent]
    simp only
    rw [SymbolTable.getScope_modifyScope, if_pos rfl, found]
    rfl
  cases registers with
  | function registered =>
      rcases SymbolTable.insertCurrent_ok registered with ⟨other, frame, isOther, inserted, same⟩
      cases current.symm.trans isOther
      refine ⟨_, _, changes same.symm,
        congrArg (Option.map Entry.symbol) (insertSymbol_ok inserted), ?_, ?_⟩
      · intro guarded isGuarded
        cases isGuarded
        rw [filed]
        rfl
      · intro symbol isSymbol
        cases isSymbol
        simp [Symbol.isPublic, recordedVisibility, isFunction]
  | struct_ registered =>
      rcases SymbolTable.insertCurrent_ok registered with ⟨other, frame, isOther, inserted, same⟩
      cases current.symm.trans isOther
      refine ⟨_, _, changes same.symm,
        congrArg (Option.map Entry.symbol) (insertSymbol_ok inserted), ?_, ?_⟩
      · intro guarded isGuarded
        cases isGuarded
      · intro symbol isSymbol
        cases isSymbol
        simp [Symbol.isPublic, recordedVisibility, isFunction, visibility]
  | enum registered =>
      rcases SymbolTable.insertCurrent_ok registered with ⟨other, frame, isOther, inserted, same⟩
      cases current.symm.trans isOther
      refine ⟨_, _, changes same.symm,
        congrArg (Option.map Entry.symbol) (insertSymbol_ok inserted), ?_, ?_⟩
      · intro guarded isGuarded
        cases isGuarded
        rw [filed]
        rfl
      · intro symbol isSymbol
        cases isSymbol
        simp [Symbol.isPublic, recordedVisibility, isFunction, visibility]
  | @method structName definition signature _ _ named registered =>
      rcases SymbolTable.insertCurrent_ok registered with ⟨other, frame, isOther, inserted, same⟩
      cases current.symm.trans isOther
      cases inserted
      refine ⟨_, .method { signature, visibility := definition.visibility, scopeId := scope.id
                           hasSelf := hasSelf definition.arguments }, changes same.symm, ?_, ?_, ?_⟩
      · have noOther : ((scope.methods.lookup structName).getD []).find?
            (fun method => method.signature.name = definition.name.name) = none := by
          rw [Registrable.entry, Option.map_eq_none_iff] at absent
          cases known : scope.methods.lookup structName with
          | none => rfl
          | some methods =>
              rw [known] at absent
              exact absent
        rw [Registrable.entry, Frame.insertMethod, AList.lookup_insert, Option.bind_some,
          List.find?_append, noOther, List.find?_cons_of_pos (by simpa using named)]
        rfl
      · intro guarded isGuarded
        cases isGuarded
        rw [filed]
        rfl
      · intro symbol isSymbol
        cases isSymbol

theorem SymbolTable.IsScopeTree.insertCurrent {table changed : SymbolTable}
    (tree : table.IsScopeTree) {noScope : String} {change : Nat → Frame → Except String Frame}
    (registered : table.insertCurrent noScope change = .ok changed) : changed.IsScopeTree := by
  rcases SymbolTable.insertCurrent_ok registered with ⟨_, frame, _, _, rfl⟩
  exact tree.modifyCurrent fun _ => frame

/-! ## Accesses -/

/-- The entry that a lookup from the current scope finds, and the scope that holds it. -/
def SymbolTable.findEntry (table : SymbolTable) (definition : Registrable) :
    Option (Nat × Entry) :=
  table.chain.findSome? fun scope =>
    (definition.entry scope.toFrame).map fun entry => (scope.id, entry)

variable {scopeId current : Nat}

namespace SymbolTable

variable {table : SymbolTable}

theorem lookupSymbol_findEntry {definition : Registrable} {name : String}
    (entries : ∀ frame, definition.entry frame = (frame.symbols.lookup name).map .symbol)
    (found : table.environment.lookupSymbol name = some symbol) :
    ∃ scopeId, table.findEntry definition = some (scopeId, .symbol symbol) := by
  rw [Environment.lookupSymbol, environment, List.findSome?_map] at found
  rcases List.findSome?_eq_some_iff.mp found with ⟨inner, scope, outer, split, holds, absent⟩
  refine ⟨scope.id, List.findSome?_eq_some_iff.mpr ⟨inner, scope, outer, split, ?_, ?_⟩⟩
  · have isSymbol : scope.symbols.lookup name = some symbol := holds
    rw [entries, isSymbol]
    rfl
  · intro other member
    have noSymbol : other.symbols.lookup name = none := absent other member
    rw [entries, noSymbol]
    rfl

/-- The accesses of the checker read the entries that are found for the definitions. -/
theorem lookupFunction_findEntry [UnicodeCase]
    {signature : FuncInfo} (found : table.lookupFunction definition.name.name = some signature) :
    ∃ scopeId, table.findEntry (.function definition) =
      some (scopeId, .symbol (.function signature)) := by
  rcases Option.bind_eq_some_iff.mp found with ⟨symbol, isSymbol, isFunction⟩
  have named : symbol = .function signature := by
    cases symbol <;> cases isFunction
    rfl
  rw [named] at isSymbol
  exact lookupSymbol_findEntry (fun _ => rfl) isSymbol

theorem lookupEnum_findEntry [UnicodeCase] {definition : EnumDefinition} {info : EnumInfo}
    (found : table.lookupEnum definition.name.name = some info) :
    ∃ scopeId, table.findEntry (.enum definition) = some (scopeId, .symbol (.enum info)) := by
  rcases Option.bind_eq_some_iff.mp found with ⟨symbol, isSymbol, isEnum⟩
  have named : symbol = .enum info := by
    cases symbol <;> cases isEnum
    rfl
  rw [named] at isSymbol
  exact lookupSymbol_findEntry (fun _ => rfl) isSymbol

theorem lookupMethod_findEntry [UnicodeCase] {structName : String}
    {info : MethodInfo} (found : table.lookupMethod structName definition.name.name = some info) :
    ∃ scopeId, table.findEntry (.method structName definition) = some (scopeId, .method info) := by
  rw [lookupMethod, Environment.lookupMethod, environment, List.findSome?_map] at found
  rcases List.findSome?_eq_some_iff.mp found with ⟨inner, scope, outer, split, holds, absent⟩
  refine ⟨scope.id, List.findSome?_eq_some_iff.mpr ⟨inner, scope, outer, split, ?_, ?_⟩⟩
  · exact congrArg (fun info => (info.map Entry.method).map fun entry => (scope.id, entry)) holds
  · intro other member
    exact congrArg (fun info => (info.map Entry.method).map fun entry => (other.id, entry))
      (absent other member)

theorem mem_ancestors (tree : table.IsScopeTree) {steps : Nat} {scope : Scope}
    (member : scope ∈ table.ancestors steps (some scopeId)) :
    table.getScope scope.id = some scope ∧ table.Descends scope.id scopeId := by
  induction steps generalizing scopeId with
  | zero => cases member
  | succ steps induction =>
      rw [ancestors] at member
      cases found : table.getScope scopeId with
      | none =>
          rw [found] at member
          cases member
      | some first =>
          rw [found] at member
          have filed := (tree.filed found).1
          rcases List.mem_cons.mp member with rfl | above
          · rw [filed]
            exact ⟨found, .refl⟩
          · cases hasParent : first.parent with
            | none =>
                rw [hasParent] at above
                cases steps <;> cases above
            | some parentId =>
                rw [hasParent] at above
                rcases induction above with ⟨known, descends⟩
                refine ⟨known, descends.tail (tree.child_iff.mpr ?_)⟩
                rw [found, Option.bind_some, hasParent]

/-- What is found from the current scope is held by a scope above it. -/
theorem findEntry_descends (tree : table.IsScopeTree) {definition : Registrable}
    {entry : Entry} (isCurrent : table.currentScope = some current)
    (found : table.findEntry definition = some (scopeId, entry)) :
    ∃ scope, table.getScope scopeId = some scope ∧ definition.entry scope.toFrame = some entry ∧
      table.Descends scopeId current := by
  rcases List.exists_of_findSome?_eq_some found with ⟨scope, member, holds⟩
  rcases Option.map_eq_some_iff.mp holds with ⟨known, isEntry, same⟩
  cases same
  rw [chain, isCurrent] at member
  rcases mem_ancestors tree member with ⟨isScope, descends⟩
  exact ⟨scope, isScope, isEntry, descends⟩

theorem checkVisibility_iff (tree : table.IsScopeTree) (visibility : Visibility)
    (definitionScope accessScope : Nat) :
    table.checkVisibility visibility definitionScope accessScope = true ↔
      (visibility = .private_ → table.Descends definitionScope accessScope) := by
  cases visibility with
  | public_ => simp [checkVisibility]
  | private_ =>
      rw [checkVisibility, tree.isScopeDescendantOf_iff]
      simp

end SymbolTable

/-- An access to a definition: a use by its name from the current scope, or an import of it
into a scope. -/
inductive Access where
  | use (location : Location) (context : VisibilityContext)
  | import_ (scopeId : Nat) (location : Location) (path : List String)
      (localName failedPath : String)

namespace Access

/-- The scope from which the access is made. -/
def scope (state : CheckState) : Access → Option Nat
  | .use _ _ => state.symbolTable.currentScope
  | .import_ scopeId _ _ _ _ => some scopeId

/-- The access resolves to the entry of the definition in a scope. -/
def Reaches (definition : Registrable) (state : CheckState) (definitionScope : Nat) :
    Access → Prop
  | .use _ _ => ∃ entry, state.symbolTable.findEntry definition = some (definitionScope, entry)
  | .import_ scopeId _ path _ _ => ∃ symbol holder,
      state.symbolTable.resolveQualifiedName path scopeId = some (symbol, definitionScope) ∧
        state.symbolTable.getScope definitionScope = some holder ∧
          definition.entry holder.toFrame = some (.symbol symbol)

/-- What the checker does with the access. -/
def check (definition : Registrable) (state : CheckState) : Access → CheckM Unit
  | .use location context =>
      match (state.symbolTable.findEntry definition).bind fun found => found.2.guard with
      | some (visibility, scopeId) =>
          checkAndReportVisibility visibility scopeId location context
      | none => pure ()
  | .import_ scopeId location path localName failedPath =>
      resolveImport scopeId location path localName failedPath

end Access

/-- The computation reports an access from outside of a private definition. -/
def ReportsAccess (computation : CheckM Unit) (state : CheckState) : Prop :=
  ∃ value final errors context location,
    (computation state).outcome = some (value, final, errors) ∧
      .privateAccessViolation context location ∈ errors

theorem not_reportsAccess {computation : CheckM Unit}
    (ended : (computation state).outcome = some (value, final, [])) :
    ¬ ReportsAccess computation state := by
  rintro ⟨_, _, _, _, _, found, member⟩
  rw [ended] at found
  cases found
  cases member

theorem checkAndReportVisibility_outcome (visibility : Visibility) (definitionScope : Nat)
    (location : Location) (context : VisibilityContext) (state : CheckState) :
    (checkAndReportVisibility visibility definitionScope location context state).outcome =
      some ((), state,
        if state.symbolTable.checkVisibility visibility definitionScope
            (state.symbolTable.currentScope.getD 0) then []
        else [.privateAccessViolation context location]) := by
  have unfolded : checkAndReportVisibility visibility definitionScope location context state =
      (if state.symbolTable.checkVisibility visibility definitionScope
          (state.symbolTable.currentScope.getD 0) then (pure () : CheckM Unit)
      else pushError (.privateAccessViolation context location)) state :=
    Collecting.read_bind _ _ state
  rw [unfolded]
  split <;> rfl

theorem checkAndReportVisibility_reports {visibility : Visibility} {definitionScope : Nat}
    {location : Location} {context : VisibilityContext} (tree : state.symbolTable.IsScopeTree)
    (isCurrent : state.symbolTable.currentScope = some current) :
    ReportsAccess (checkAndReportVisibility visibility definitionScope location context) state ↔
      visibility = .private_ ∧ ¬ state.symbolTable.Descends definitionScope current := by
  have ended := checkAndReportVisibility_outcome visibility definitionScope location context state
  have allowed := SymbolTable.checkVisibility_iff tree visibility definitionScope current
  rw [isCurrent, Option.getD_some] at ended
  by_cases inside : state.symbolTable.checkVisibility visibility definitionScope current = true
  · rw [if_pos inside] at ended
    apply iff_of_false (not_reportsAccess ended)
    rintro ⟨isPrivate, outside⟩
    exact outside (allowed.mp inside isPrivate)
  · rw [if_neg inside] at ended
    refine iff_of_true ⟨_, _, _, context, location, ended, List.mem_singleton_self _⟩ ?_
    rw [allowed, Classical.not_imp] at inside
    exact inside

theorem resolveImport_run (scopeId : Nat) (location : Location) (path : List String)
    (localName failedPath : String) (state : CheckState) :
    resolveImport scopeId location path localName failedPath state =
      (match state.symbolTable.resolveQualifiedName path scopeId with
        | some (symbol, definitionScopeId) => do
            if symbol.isPublic then pure ()
            else
              checkAndReportVisibility .private_ definitionScopeId location
                (.import_ ("::".intercalate path))
            addResolvedImport scopeId { localName, symbol, definitionScopeId }
        | none => pushError (.importResolutionFailed failedPath location)) state :=
  Collecting.read_bind _ _ state

/-- An import of a symbol that is not public is checked against the current scope. -/
theorem resolveImport_reports {location : Location} {path : List String}
    {localName failedPath : String}
    {definitionScope : Nat} (tree : state.symbolTable.IsScopeTree)
    (isCurrent : state.symbolTable.currentScope = some current)
    (resolves : state.symbolTable.resolveQualifiedName path scopeId =
      some (symbol, definitionScope)) :
    ReportsAccess (resolveImport scopeId location path localName failedPath) state ↔
      symbol.isPublic ≠ true ∧ ¬ state.symbolTable.Descends definitionScope current := by
  have unfolded := resolveImport_run scopeId location path localName failedPath state
  rw [resolves] at unfolded
  simp only at unfolded
  by_cases isPublic : symbol.isPublic = true
  · apply iff_of_false _ fun denied => denied.1 isPublic
    rw [if_pos isPublic] at unfolded
    have ended := congrArg Run.outcome unfolded
    exact not_reportsAccess ended
  · rw [if_neg isPublic] at unfolded
    have ended := congrArg Run.outcome unfolded
    rw [Collecting.outcome_bind, checkAndReportVisibility_outcome, isCurrent,
      Option.getD_some] at ended
    have allowed := SymbolTable.checkVisibility_iff tree .private_ definitionScope current
    by_cases inside :
        state.symbolTable.checkVisibility .private_ definitionScope current = true
    · rw [if_pos inside] at ended
      apply iff_of_false (not_reportsAccess ended)
      exact fun denied => denied.2 (allowed.mp inside rfl)
    · rw [if_neg inside] at ended
      refine iff_of_true ⟨_, _, _, _, location, ended, List.mem_singleton_self _⟩ ⟨isPublic, ?_⟩
      intro descends
      exact inside (allowed.mpr fun _ => descends)

/-! ## Enforcement -/

/-- The definition was registered in a scope without an entry for it, and the scope still
holds what the registration has put there. -/
def RegisteredIn (definition : Registrable) (table : SymbolTable) (scopeId : Nat) : Prop :=
  ∃ before after scope changed holder, before.IsScopeTree ∧ before.currentScope = some scopeId ∧
    before.getScope scopeId = some scope ∧ definition.entry scope.toFrame = none ∧
      definition.Registers before after ∧ after.getScope scopeId = some changed ∧
        table.getScope scopeId = some holder ∧
          definition.entry holder.toFrame = definition.entry changed.toFrame

theorem RegisteredIn.records {definition : Registrable} {table : SymbolTable} {scopeId : Nat}
    (registered : RegisteredIn definition table scopeId) {holder : Scope}
    (found : table.getScope scopeId = some holder) {entry : Entry}
    (holds : definition.entry holder.toFrame = some entry) :
    entry.Records definition.recordedVisibility scopeId := by
  rcases registered with ⟨before, after, scope, changed, other, tree, isCurrent, isScope, absent,
    registers, isChanged, isOther, same⟩
  cases found.symm.trans isOther
  rcases registers.entry tree isCurrent isScope absent with
    ⟨known, recorded, isKnown, isRecorded, records⟩
  cases isChanged.symm.trans isKnown
  rw [same, isRecorded] at holds
  cases holds
  exact records

/-- An access is reported exactly where the declaration forbids it. -/
def Enforced (definition : Registrable) (state : CheckState) (definitionScope : Nat)
    (access : Access) : Prop :=
  ReportsAccess (access.check definition state) state ↔
    definition.visibility = .private_ ∧ ∀ accessScope, access.scope state = some accessScope →
      ¬ state.symbolTable.Descends definitionScope accessScope

/-- The import of a private definition is checked from the current scope in place of the
importing one, and a function counts as private. -/
def Access.Agrees (definition : Registrable) (table : SymbolTable) (definitionScope : Nat) :
    Access → Prop
  | .use _ _ => True
  | .import_ scopeId _ _ _ _ => ∀ current, table.currentScope = some current →
      match definition.visibility with
      | .private_ => table.Descends definitionScope current ↔ table.Descends definitionScope scopeId
      | .public_ => definition.isFunction = true → table.Descends definitionScope current

/-- Exactly which accesses the checker treats as the declaration of the definition says. -/
theorem enforced_iff {definition : Registrable} {state : CheckState} {definitionScope : Nat}
    {access : Access} (tree : state.symbolTable.IsScopeTree)
    (registered : RegisteredIn definition state.symbolTable definitionScope)
    (reaches : access.Reaches definition state definitionScope) :
    Enforced definition state definitionScope access ↔
      access.Agrees definition state.symbolTable definitionScope := by
  rcases tree.current with ⟨current, _, isCurrent, _⟩
  cases access with
  | use location context =>
      rcases reaches with ⟨entry, found⟩
      rcases SymbolTable.findEntry_descends tree isCurrent found with
        ⟨holder, isHolder, holds, descends⟩
      have records := registered.records isHolder holds
      apply iff_of_true _ trivial
      apply iff_of_false
      · rw [Access.check, found, Option.bind_some]
        cases guarded : entry.guard with
        | none => exact not_reportsAccess rfl
        | some guard =>
            rw [records.guard guard guarded]
            simp only
            rw [checkAndReportVisibility_reports tree isCurrent]
            exact fun reported => reported.2 descends
      · rintro ⟨_, outside⟩
        exact outside current isCurrent descends
  | import_ scopeId location path localName failedPath =>
      rcases reaches with ⟨symbol, holder, resolves, isHolder, holds⟩
      have isPublic := (registered.records isHolder holds).isPublic symbol rfl
      rw [Enforced, Access.check, resolveImport_reports tree isCurrent resolves]
      simp only [ne_eq, isPublic, Access.scope, Option.some.injEq, forall_eq', Access.Agrees,
        isCurrent, Registrable.recordedVisibility]
      cases definition.visibility with
      | private_ => simp [not_iff_not]
      | public_ => cases definition.isFunction <;> simp

/-! ## Public definitions -/

def publicEnum : EnumDefinition where
  toNode := lineNode 1
  visibility := .public_
  name := { toNode := lineNode 2, name := "Color" }
  variants := []

def publicFunction : FunctionDefinition where
  toNode := lineNode 1
  visibility := .public_
  name := { toNode := lineNode 2, name := "area" }
  body := .mk .block (lineNode 3) []

/-- The table of a program with one public enum. -/
def withEnum : SymbolTable :=
  (SymbolTable.default.registerEnum "Color" [] .public_).toOption.getD .default

/-- The scope in which the definitions are registered. -/
def insideGeometry : SymbolTable :=
  SymbolTable.default.pushScopeWithName "geometry" .public_

theorem insideGeometry_tree : insideGeometry.IsScopeTree :=
  SymbolTable.IsScopeTree.default.pushScopeWithName (by decide) _

def colorEnum (visibility : Visibility) : EnumDefinition :=
  { publicEnum with visibility }

def withColor (visibility : Visibility) : SymbolTable :=
  (insideGeometry.registerEnum "Color" [] visibility).toOption.getD .default

/-- A scope in the scope `drawing`, which is next to the one of the enum. -/
def insideShapes (visibility : Visibility) : SymbolTable :=
  ((withColor visibility).popScope.pushScopeWithName "drawing" .public_).pushScopeWithName "shapes"
    .public_

theorem colorEnum_registers (visibility : Visibility) :
    insideGeometry.registerEnum "Color" [] visibility = .ok (withColor visibility) :=
  rfl

theorem insideShapes_tree (visibility : Visibility) : (insideShapes visibility).IsScopeTree := by
  have registered := insideGeometry_tree.insertCurrent (colorEnum_registers visibility)
  have drawing : ((withColor visibility).popScope.pushScopeWithName "drawing"
      .public_).IsScopeTree :=
    (registered.popScope rfl rfl rfl).1.pushScopeWithName (by decide) _
  exact drawing.pushScopeWithName (by decide) _

theorem insideShapes_registered (visibility : Visibility) :
    RegisteredIn (.enum (colorEnum visibility)) (insideShapes visibility) 1 :=
  ⟨insideGeometry, withColor visibility, _, _, _, insideGeometry_tree, rfl, rfl, rfl,
    .enum (colorEnum_registers visibility), rfl, rfl, rfl⟩

theorem insideShapes_outside {visibility : Visibility}
    (descends : (insideShapes visibility).Descends 1 scopeId) : scopeId = 1 := by
  induction descends with
  | refl => rfl
  | tail _ child induction =>
      rcases child with ⟨parent, isParent, isChild⟩
      rw [induction] at isParent
      cases isParent
      cases isChild

/-- An import of the enum into the scope `drawing`. -/
def importOfColor : Access :=
  .import_ 2 {} ["geometry", "Color"] "Color" "geometry::Color"

/-- The import of the public enum is allowed, and that of the private one is reported. -/
theorem enforced_iff_enum :
    Enforced (.enum (colorEnum .public_)) { symbolTable := insideShapes .public_ } 1
        importOfColor ∧
      Enforced (.enum (colorEnum .private_)) { symbolTable := insideShapes .private_ } 1
        importOfColor := by
  have reaches (visibility : Visibility) : importOfColor.Reaches (.enum (colorEnum visibility))
      { symbolTable := insideShapes visibility } 1 := ⟨_, _, rfl, rfl, rfl⟩
  constructor
  · apply (enforced_iff (insideShapes_tree _) (insideShapes_registered _) (reaches _)).mpr
    intro current _ isFunction
    cases isFunction
  · apply (enforced_iff (insideShapes_tree _) (insideShapes_registered _) (reaches _)).mpr
    intro current isCurrent
    cases isCurrent
    refine iff_of_false ?_ ?_ <;>
      exact fun descends => absurd (insideShapes_outside descends) (by decide)

def withFunction : SymbolTable :=
  (insideGeometry.registerFunction "area" [] [] default).toOption.getD .default

/-- The scope next to it, from which the function is imported. -/
def insideDrawing : SymbolTable :=
  withFunction.popScope.pushScopeWithName "drawing" .public_

/-- The import of a public function into a scope next to its own is reported, and a program
cannot import its own public function. -/
theorem publicFunction_notEnforced :
    (insideDrawing.IsScopeTree ∧ RegisteredIn (.function publicFunction) insideDrawing 1 ∧
        (Access.import_ 2 {} ["geometry", "area"] "area" "geometry::area").Reaches
          (.function publicFunction) { symbolTable := insideDrawing } 1 ∧
        ¬ Enforced (.function publicFunction) { symbolTable := insideDrawing } 1
          (.import_ 2 {} ["geometry", "area"] "area" "geometry::area")) ∧
      reportedErrors [{
          directives := [{ toNode := lineNode 5
                           segments := some [{ toNode := lineNode 6, name := "area" }] }]
          definitions := [.function publicFunction] }] =
        some [.importResolutionFailed "area" (lineNode 5).location] := by
  have registered : insideGeometry.registerFunction "area" [] [] default = .ok withFunction := rfl
  have tree : withFunction.IsScopeTree := insideGeometry_tree.insertCurrent registered
  have popped := tree.popScope rfl rfl rfl
  refine ⟨⟨popped.1.pushScopeWithName (by decide) _, ?_, ⟨_, _, rfl, rfl, rfl⟩, ?_⟩, rfl⟩
  · exact ⟨insideGeometry, withFunction, _, _, _, insideGeometry_tree, rfl, rfl, rfl,
      .function registered, rfl, rfl, rfl⟩
  · intro enforced
    have isPrivate := (enforced.mp ⟨_, _, _, _, _, rfl, List.mem_singleton_self _⟩).1
    cases isPrivate

end Inference.TypeChecker
