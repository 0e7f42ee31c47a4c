import Inference.TypeChecker.ProgramChecker
import Inference.TypeChecker.TypeMeanings

/-! # Names of types

A name that is written as a type is looked up in the scopes when it is validated, while its type
information is made from the name alone. The section tells for which names both mean the same type.
-/

namespace Inference.TypeChecker

open Inference.Ast Inference.Foundation

/-- Whether the type information made from a name stands for the type that was found for it. The
custom type of a name is the struct, enum or spec with this name. -/
def StandsFor (name : String) (written found : TypeInfo) : Prop :=
  written = found ∨
    written = { kind := .custom name, typeParams := [] } ∧
      (found.kind = .struct_ name ∨ found.kind = .enum name ∨ found.kind = .spec name)

section

variable [UnicodeCase]

/-- The type that validation takes a name for. -/
def SymbolTable.namedType (table : SymbolTable) (typeParams : List String) (name : String) :
    Option TypeInfo :=
  if name ∈ typeParams then some { kind := .generic name, typeParams := [] }
  else table.lookupType name

/-- If a name is a valid type in a symbol table, it means the type that is found for it. -/
def ResolutionsAgree (table : SymbolTable) (typeParams : List String) (identifier : Identifier) :
    Prop :=
  (validateType typeParams (.custom identifier)).Accepts { symbolTable := table } ()
      { symbolTable := table } →
    ∃ written found,
      TypeInfo.newWithTypeParams (.custom identifier) typeParams = some written ∧
        table.namedType typeParams identifier.name = some found ∧
          StandsFor identifier.name written found

/-- The symbol that a type name is looked up to. -/
def Environment.typeSymbol (environment : Environment) (name : String) : Option Symbol :=
  match environment.lookupSymbol name with
  | some symbol => some symbol
  | none => environment.lookupSymbol (UnicodeCase.toLowercase name)

/-- Whether a symbol is what its name says without the scopes: the builtin type for the name of a
builtin type in any case, and else a type of exactly this name. -/
def Symbol.MeantBy (name : String) (symbol : Symbol) : Prop :=
  match TypeInfoKind.fromBuiltinStr name with
  | some kind => ∀ typeInfo, symbol.asTypeInfo = some typeInfo → typeInfo = ⟨kind, []⟩
  | none => ∀ typeInfo, symbol.asTypeInfo = some typeInfo →
      typeInfo = ⟨.custom name, []⟩ ∨ typeInfo.kind = .struct_ name ∨ typeInfo.kind = .enum name ∨
        typeInfo.kind = .spec name

omit [UnicodeCase] in
/-- An error is held back only when its key was reported before. -/
theorem pushErrorDedup_accepts_iff {error : TypeCheckError} {before after : CheckState}
    {value : Unit} :
    (pushErrorDedup error).Accepts before value after ↔
      after = before ∧ ∃ key ∈ before.reportedErrorKeys, error.dedupKey = some key := by
  rw [pushErrorDedup]
  cases error.dedupKey with
  | none => simp [pushError]
  | some key =>
      by_cases reported : key ∈ before.reportedErrorKeys <;> simp [pushError, reported]

/-- A name is a valid type when there is a type that it is taken for. -/
theorem requireType_accepts_iff {typeParams : List String} {identifier : Identifier}
    {table : SymbolTable} :
    (requireType typeParams identifier).Accepts { symbolTable := table } ()
        { symbolTable := table } ↔
      (table.namedType typeParams identifier.name).isSome = true := by
  rw [requireType, SymbolTable.namedType, Collecting.accepts_ite]
  by_cases isParam : identifier.name ∈ typeParams
  · simp [isParam]
  · cases found : table.lookupType identifier.name <;>
      simp [isParam, found, getSymbolTable, pushErrorDedup_accepts_iff]

theorem lookupType_eq (environment : Environment) (name : String) :
    environment.lookupType name = (environment.typeSymbol name).bind Symbol.asTypeInfo := by
  rw [Environment.lookupType, Environment.typeSymbol]
  cases environment.lookupSymbol name <;> rfl

omit [UnicodeCase] in
/-- A symbol that is meant by a name is the one the type information of the name stands for. -/
theorem standsFor_iff {name : String} {symbol : Symbol} {typeInfo : TypeInfo}
    (isType : symbol.asTypeInfo = some typeInfo) :
    StandsFor name { kind := TypeInfo.typeKindFromSimpleType name, typeParams := [] } typeInfo ↔
      symbol.MeantBy name := by
  rw [StandsFor, TypeInfo.typeKindFromSimpleType, Symbol.MeantBy]
  cases builtin : TypeInfoKind.fromBuiltinStr name with
  | some kind =>
      have noCustom := BuiltinType.fromBuiltinStr_ne_custom builtin name
      simp [isType, noCustom, eq_comm]
  | none => simp [isType, eq_comm]

omit [UnicodeCase] in
theorem Symbol.meantBy_of_noType {name : String} {symbol : Symbol}
    (noType : symbol.asTypeInfo = none) : symbol.MeantBy name := by
  rw [Symbol.MeantBy]
  split <;> simp [noType]

/-- The two resolutions agree on the type parameters, and on any other name whose symbol is meant
by it. -/
theorem resolutionsAgree_iff (table : SymbolTable) (typeParams : List String)
    (identifier : Identifier) :
    ResolutionsAgree table typeParams identifier ↔
      identifier.name ∈ typeParams ∨
        ∀ symbol, table.environment.typeSymbol identifier.name = some symbol →
          symbol.MeantBy identifier.name := by
  rw [ResolutionsAgree, validateType, requireType_accepts_iff, TypeInfo.newWithTypeParams,
    SymbolTable.namedType]
  by_cases isParam : identifier.name ∈ typeParams
  · simp [isParam, StandsFor]
  · simp only [isParam, if_false, false_or, SymbolTable.lookupType, lookupType_eq]
    cases symbolFound : table.environment.typeSymbol identifier.name with
    | none => simp
    | some symbol =>
        cases isType : symbol.asTypeInfo with
        | none =>
            simp only [Option.bind_some, isType, Option.isSome_none, Bool.false_eq_true,
              false_implies, true_iff]
            intro other same
            cases same
            exact symbol.meantBy_of_noType isType
        | some typeInfo =>
            simp [isType, standsFor_iff isType]

end

/-- The symbols of a program that names a number type. -/
def aliasTable : SymbolTable :=
  ((SymbolTable.default.registerType "Size" ⟨.number .u32, []⟩).toOption).getD SymbolTable.default

/-- A name for a number type does not denote the number type. -/
theorem alias_resolutionsDiffer :
    ¬ ResolutionsAgree aliasTable []
      { toNode := { id := 0, location := {} }, name := "Size" } := by
  intro agree
  rcases agree rfl with ⟨written, found, isWritten, isFound, same | ⟨_, isType⟩⟩
  · cases isWritten
    cases isFound
    cases same
  · cases isFound
    rcases isType with isType | isType | isType <;> cases isType

end Inference.TypeChecker
