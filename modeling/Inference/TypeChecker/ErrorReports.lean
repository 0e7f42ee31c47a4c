import Inference.TypeChecker.ScopeHistory

/-! # Reports of unknown names

The checker reports an unknown name of one kind once in a run, wherever it occurs. An
error is left out only where another error about the same name is reported.
-/

namespace Inference.TypeChecker

open Inference.Ast Inference.Foundation

/-- The kinds of names that may be unknown. -/
inductive NameKind where
  | type_
  | function
  | identifier
  | struct_
  | enum
deriving DecidableEq, Repr

def NameKind.keyText : NameKind → String
  | .type_ => "UnknownType:"
  | .function => "UndefinedFunction:"
  | .identifier => "UnknownIdentifier:"
  | .struct_ => "UndefinedStruct:"
  | .enum => "UndefinedEnum:"

/-- The texts in front of the names are no prefixes of each other. -/
theorem NameKind.keyText_append {kind other : NameKind} {name text : String}
    (same : kind.keyText ++ name = other.keyText ++ text) : kind = other ∧ name = text := by
  have chars : kind.keyText.toList ++ name.toList = other.keyText.toList ++ text.toList := by
    rw [← String.toList_append, ← String.toList_append, same]
  cases kind <;> cases other <;> simp_all [keyText]

namespace TypeCheckError

/-- The name that an error reports as unknown. -/
def unknownName : TypeCheckError → Option (NameKind × String)
  | .unknownType name _ => some (.type_, name)
  | .undefinedFunction name _ => some (.function, name)
  | .unknownIdentifier name _ => some (.identifier, name)
  | .undefinedStruct name _ => some (.struct_, name)
  | .undefinedEnum name _ => some (.enum, name)
  | _ => none

def nameKey (unknown : NameKind × String) : String :=
  unknown.1.keyText ++ unknown.2

theorem nameKey_injective : Function.Injective nameKey := by
  rintro ⟨kind, name⟩ ⟨other, text⟩ same
  rcases NameKind.keyText_append same with ⟨rfl, rfl⟩
  rfl

theorem dedupKey_eq (error : TypeCheckError) :
    error.dedupKey = error.unknownName.map nameKey := by
  cases error <;> rfl

end TypeCheckError

/-- An error is reported, or its key has been reported before. -/
theorem pushErrorDedup_reports (error : TypeCheckError) (state : CheckState) :
    (∃ after, (pushErrorDedup error state).outcome = some ((), after, [error])) ∨
      (pushErrorDedup error state).outcome = some ((), state, []) ∧
        ∃ key ∈ state.reportedErrorKeys, error.dedupKey = some key := by
  cases key : error.dedupKey with
  | none =>
      have unfolded : pushErrorDedup error = pushError error := by rw [pushErrorDedup, key]
      rw [unfolded]
      exact .inl ⟨state, rfl⟩
  | some name =>
      have unfolded : pushErrorDedup error state =
          (if name ∈ state.reportedErrorKeys then (pure () : CheckM Unit)
          else do
            Collecting.update fun state =>
              { state with reportedErrorKeys := name :: state.reportedErrorKeys }
            pushError error) state := by
        rw [pushErrorDedup, key]
        exact Collecting.read_bind _ _ state
      rw [unfolded]
      by_cases known : name ∈ state.reportedErrorKeys
      · rw [if_pos known]
        exact .inr ⟨rfl, name, known, rfl⟩
      · rw [if_neg known]
        exact .inl ⟨_, rfl⟩

section

variable [UnicodeCase]

/-- The errors that the checker collects, unless it panics. -/
def reportedErrors (program : Program) : Option (List TypeCheckError) :=
  (checkProgram program initialState).outcome.map fun (_, _, errors) => errors

/-- The errors of a run name each unknown name once, and at every point an error is
reported unless one of them is about the same name. -/
theorem unknownNames_reportedOnce (program : Program) {errors : List TypeCheckError}
    (reported : reportedErrors program = some errors) :
    (errors.filterMap TypeCheckError.unknownName).Nodup ∧
      ∀ point ∈ points program, ∀ error : TypeCheckError,
        (∃ after, (pushErrorDedup error point).outcome = some ((), after, [error])) ∨
          (pushErrorDedup error point).outcome = some ((), point, []) ∧
            error.unknownName ≠ none ∧ ∃ other ∈ errors, other.unknownName = error.unknownName := by
  rcases Option.map_eq_some_iff.mp reported with ⟨⟨value, final, found⟩, ended, same⟩
  have isFound : found = errors := same
  subst isFound
  have leaves := checkProgram_any program
  rcases leaves.follows.ends ended with ⟨path, _, whole⟩
  have filed : final.reportedErrorKeys =
      (found.filterMap TypeCheckError.dedupKey).reverse ++ [] := whole.keys.keys
  have keys : found.filterMap TypeCheckError.dedupKey =
      (found.filterMap TypeCheckError.unknownName).map TypeCheckError.nameKey := by
    rw [List.map_filterMap, funext TypeCheckError.dedupKey_eq]
  constructor
  · have distinct : final.reportedErrorKeys.Nodup := whole.keys.distinct List.nodup_nil
    rw [filed, List.append_nil, List.nodup_reverse, keys] at distinct
    exact distinct.of_map
  · intro point member error
    rcases pushErrorDedup_reports error point with reports | ⟨dropped, key, known, isKey⟩
    · exact .inl reports
    · have kept : point.reportedErrorKeys ⊆ final.reportedErrorKeys :=
        path.reaches (fun before after => before.reportedErrorKeys ⊆ after.reportedErrorKeys)
          (fun current => List.Subset.refl current.reportedErrorKeys)
          (fun left right => List.Subset.trans left right) (fun step => step.keys) point member
      have filedKey := kept known
      rw [filed, List.append_nil, List.mem_reverse] at filedKey
      rcases List.mem_filterMap.mp filedKey with ⟨other, otherMember, otherKey⟩
      rw [TypeCheckError.dedupKey_eq] at isKey otherKey
      rcases Option.map_eq_some_iff.mp isKey with ⟨name, isName, rfl⟩
      rcases Option.map_eq_some_iff.mp otherKey with ⟨otherName, isOther, same⟩
      cases TypeCheckError.nameKey_injective same
      refine .inr ⟨dropped, ?_, other, otherMember, isOther.trans isName.symm⟩
      rw [isName]
      exact Option.some_ne_none _

end

/-! ## Repeated and merged errors -/

def lineNode (line : Nat) : Node :=
  { id := line, location := { startLine := line } }

def useOf (line : Nat) (name : String) : Statement :=
  .expression (.identifier { toNode := lineNode line, name })

/-- The addition of a number and a truth value. -/
def mixedSum (line : Nat) : Statement :=
  .expression (.binary (lineNode line) (.literal (.number (lineNode (line + 1)) "1")) .add
    (.literal (.bool (lineNode (line + 2)) true)))

def programOf (statements : List Statement) : Program :=
  [{ definitions := [.function {
      toNode := lineNode 0
      name := { toNode := lineNode 1, name := "main" }
      body := .mk .block (lineNode 2) statements }] }]

theorem unknownNames_reportedOnce_twoNames :
    ∃ errors, reportedErrors (programOf [useOf 3 "x", useOf 4 "y", useOf 5 "x"]) = some errors ∧
      (errors.filterMap TypeCheckError.unknownName).Nodup :=
  ⟨_, rfl, (unknownNames_reportedOnce (programOf [useOf 3 "x", useOf 4 "y", useOf 5 "x"]) rfl).1⟩

/-- A mixed sum is reported twice with the same data at the same location, and the second
use of an unknown name at another location is not reported. -/
theorem errors_repeatedAndMerged :
    (∃ errors, reportedErrors (programOf [mixedSum 3]) = some errors ∧ ¬ errors.Nodup) ∧
      reportedErrors (programOf [useOf 4 "x"]) =
        some [.unknownIdentifier "x" (lineNode 4).location] ∧
      reportedErrors (programOf [useOf 3 "x", useOf 4 "x"]) =
        some [.unknownIdentifier "x" (lineNode 3).location] := by
  refine ⟨⟨_, rfl, ?_⟩, rfl, rfl⟩
  decide

end Inference.TypeChecker
