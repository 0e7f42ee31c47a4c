import Inference.WasmToV.ErrorRecovery
import Inference.WasmToV.Faithfulness
import Inference.WasmToV.ModuleContents

/-! # Names of functions

The name section numbers the functions of a module with the imported ones first.
The translator looks names up by the position of a body in the code section.
-/

namespace Inference.WasmToV

/-! ## Emitted names -/

/-- The name of a body by its place in the function index space, behind the
imported functions. -/
def expectedName (payloads : List (Item Payload)) (getId : Nat → String) (index : Nat) : String :=
  match assignedName payloads (importedFunctions payloads + index) with
  | some name => name
  | none => "func_" ++ getId index

theorem expectedName_eq (payloads : List (Item Payload)) (getId : Nat → String) (index : Nat) :
    expectedName payloads getId index =
      (assignedName payloads (importedFunctions payloads + index)).getD ("func_" ++ getId index) := by
  rw [expectedName]
  cases assignedName payloads (importedFunctions payloads + index) <;> rfl

/-- A name is generated for every identifier only where none is assigned. -/
private theorem getD_generated_injective {first second : Option String}
    (same : ∀ id : String, first.getD ("func_" ++ id) = second.getD ("func_" ++ id)) :
    first = second := by
  have generated : ∀ {name : String}, ¬ ∀ id : String, name = "func_" ++ id := by
    intro name always
    have equal := congrArg String.toList ((always "").symm.trans (always "a"))
    rw [String.toList_append, String.toList_append] at equal
    exact absurd (List.append_cancel_left equal) (by decide)
  cases first with
  | none =>
      cases second with
      | none => rfl
      | some name => exact absurd (fun id => (same id).symm) generated
  | some name =>
      cases second with
      | none => exact absurd same generated
      | some other => exact congrArg some (same "")

/-- Whenever the functions are emitted, the module lists the expected names, and
every definition is given under its expected name. -/
def FunctionsNamed (payloads : List (Item Payload)) (parsed : WasmParseData) : Prop :=
  ∀ getId names definitions, translateFunctions parsed getId = .ok (names, definitions) →
    names = (List.range (definedBodies payloads).length).map (expectedName payloads getId) ∧
    ∃ texts, definitions = String.join texts ∧
      List.Forall₂ (fun name text => ∃ rest, text = "Definition " ++ name ++ " : module_func := " ++ rest)
        names texts

/-- The body has locals and operators that let its function be emitted. -/
structure Emitted (body : FunctionBody) : Prop where
  locals : ∀ declared, body.locals = .ok declared → SupportedLocals declared
  operators : bodyRendition body ≠ .missing

theorem translateFunctionBody_missing (parsed : WasmParseData) (index : Nat) (body : FunctionBody) :
    Succeeds (translateFunctionBody parsed index body) ↔ bodyRendition body ≠ .missing := by
  have described := bodyRendition_describes parsed index body
  cases kind : bodyRendition body with
  | missing =>
      rw [kind] at described
      obtain ⟨failure, fails⟩ := described
      simp [Succeeds, fails]
  | misrendered =>
      rw [kind] at described
      exact iff_of_true ⟨_, described⟩ (by simp)
  | lines tokens =>
      rw [kind] at described
      obtain ⟨_, text, _, translated⟩ := described
      exact iff_of_true ⟨_, translated⟩ (by simp)

theorem translateFunction_emitted (parsed : WasmParseData) (index : Nat) (id : String)
    (body : FunctionBody) : Succeeds (translateFunction parsed index id body) ↔ Emitted body := by
  rw [translateFunction_succeeds, ← translateFunctionBody_succeeds, translateFunctionBody_missing]
  exact ⟨fun ⟨locals, operators⟩ => ⟨locals, operators⟩, fun ⟨locals, operators⟩ => ⟨locals, operators⟩⟩

/-- A definition starts with the name of its function. -/
theorem translateFunction_named {parsed : WasmParseData} {index : Nat} {id : String}
    {body : FunctionBody} {text : String}
    (translated : translateFunction parsed index id body = .ok text) :
    ∃ rest, text =
      "Definition " ++ functionName parsed index id ++ " : module_func := " ++ rest := by
  obtain ⟨modfuncLocals, _, remaining⟩ := bind_ok translated
  obtain ⟨modfuncBody, _, assembled⟩ := bind_ok remaining
  cases assembled
  simp only [String.append_assoc]
  exact ⟨_, rfl⟩

/-- Emitted functions are all translated, and listed under their names. -/
theorem translateFunctionsFrom_ok {parsed : WasmParseData} {getId : Nat → String} {index : Nat}
    {bodies : List FunctionBody} {names : List String} {definitions : String}
    (translated : translateFunctionsFrom parsed getId index bodies = .ok (names, definitions)) :
    names = (List.range' index bodies.length).map
        (fun index => functionName parsed index (getId index)) ∧
      (∀ body ∈ bodies, Emitted body) ∧
      ∃ texts, definitions = String.join texts ∧
        List.Forall₂ (fun name text =>
          ∃ rest, text = "Definition " ++ name ++ " : module_func := " ++ rest) names texts := by
  induction bodies generalizing index names definitions with
  | nil =>
      cases translated
      exact ⟨rfl, by simp, [], rfl, .nil⟩
  | cons body rest induction =>
      obtain ⟨definition, bodyTranslated, remaining⟩ := bind_ok translated
      obtain ⟨⟨restNames, restDefinitions⟩, restTranslated, assembled⟩ := bind_ok remaining
      cases assembled
      obtain ⟨restNamed, restEmitted, texts, joined, named⟩ := induction restTranslated
      refine ⟨by rw [restNamed]; rfl, ?_, definition :: texts, ?_,
        .cons (translateFunction_named bodyTranslated) named⟩
      · intro other member
        rcases List.mem_cons.mp member with rfl | later
        · exact (translateFunction_emitted _ _ _ _).mp ⟨_, bodyTranslated⟩
        · exact restEmitted other later
      · rw [String.join_cons, joined]

section Naming

variable {modName : String} {payloads : List (Item Payload)} {parsed : WasmParseData}
  (parses : parse modName payloads = .ok parsed)

include parses

theorem functionName_assigned (index : Nat) (id : String) :
    functionName parsed index id =
      (assignedName payloads (index % 2 ^ 32)).getD ("func_" ++ id) := by
  rw [← lookup_assignedName parses, functionName]
  cases parsed.funcNamesMap <;> rfl

theorem translateFunctions_emits (emitted : ∀ body ∈ definedBodies payloads, Emitted body)
    (getId : Nat → String) :
    ∃ names definitions, translateFunctions parsed getId = .ok (names, definitions) := by
  have succeed : ∀ entry ∈ parsed.functionBodies.zipIdx 0,
      Succeeds (translateFunction parsed entry.2 (getId entry.2) entry.1) := by
    rintro ⟨body, position⟩ member
    rw [functionBodies_defined parses] at member
    exact (translateFunction_emitted _ _ _ _).mpr (emitted body (List.fst_mem_of_mem_zipIdx member))
  obtain ⟨definitions, _, translated, _⟩ := translateFunctionsFrom_lists succeed
  exact ⟨_, definitions, translated⟩

/-- The names of emitted functions, by their positions. -/
theorem translateFunctions_names {getId : Nat → String} {names : List String}
    {definitions : String} (translated : translateFunctions parsed getId = .ok (names, definitions)) :
    names = (List.range (definedBodies payloads).length).map fun index =>
      (assignedName payloads (index % 2 ^ 32)).getD ("func_" ++ getId index) := by
  rw [(translateFunctionsFrom_ok translated).1, functionBodies_defined parses,
    ← List.range_eq_range']
  exact List.map_congr_left fun index _ => functionName_assigned parses index _

/-- The functions are named by the index space exactly when each body's position
is assigned the name of its function index, or when no function is emitted. -/
theorem functionsNamed_iff :
    FunctionsNamed payloads parsed ↔
      (∃ body ∈ definedBodies payloads, ¬ Emitted body) ∨
        ∀ index < (definedBodies payloads).length,
          assignedName payloads (index % 2 ^ 32) =
            assignedName payloads (importedFunctions payloads + index) := by
  constructor
  · intro named
    by_cases emitted : ∀ body ∈ definedBodies payloads, Emitted body
    · refine .inr fun index inRange => ?_
      have same : ∀ id : String, (assignedName payloads (index % 2 ^ 32)).getD ("func_" ++ id) =
          expectedName payloads (fun _ => id) index := by
        intro id
        obtain ⟨names, definitions, translated⟩ := translateFunctions_emits parses emitted fun _ => id
        have lists := (translateFunctions_names parses translated).symm.trans
          (named _ names definitions translated).1
        exact List.map_inj_left.mp lists index (List.mem_range.mpr inRange)
      exact getD_generated_injective fun id => by rw [same id, expectedName_eq]
    · refine .inl ?_
      simpa using emitted
  · rintro (⟨body, member, notEmitted⟩ | agree) getId names definitions translated
    · rw [← functionBodies_defined parses] at member
      exact absurd ((translateFunctionsFrom_ok translated).2.1 body member) notEmitted
    · obtain ⟨listed, _, texts, joined, named⟩ := translateFunctionsFrom_ok translated
      refine ⟨?_, texts, joined, named⟩
      rw [listed, functionBodies_defined parses, ← List.range_eq_range']
      refine List.map_congr_left fun index member => ?_
      rw [functionName_assigned parses, agree index (List.mem_range.mp member), expectedName_eq]

end Naming

/-- A module that defines one function, which the name section calls `f`. -/
theorem functionsNamed_defined :
    ∃ parsed, parse "m" [.ok (.functionSection [.ok 0]),
        .ok (.codeSectionEntry { locals := .ok [], operators := .ok [.ok .end_] }),
        .ok (.nameSection [.ok (.function [.ok ⟨0, "f"⟩])])] = .ok parsed ∧
      FunctionsNamed [.ok (.functionSection [.ok 0]),
        .ok (.codeSectionEntry { locals := .ok [], operators := .ok [.ok .end_] }),
        .ok (.nameSection [.ok (.function [.ok ⟨0, "f"⟩])])] parsed := by
  refine ⟨_, rfl, (functionsNamed_iff rfl).mpr (.inr fun index inRange => ?_)⟩
  obtain rfl : index = 0 := Nat.lt_one_iff.mp inRange
  rfl

/-- One imported function, called `imp`, and one defined function, called `f`. -/
def importedAndDefined : List (Item Payload) :=
  [.ok (.importSection [.ok { module := "env", name := "imp", ty := .func 0 }]),
    .ok (.functionSection [.ok 0]),
    .ok (.codeSectionEntry { locals := .ok [], operators := .ok [.ok .end_] }),
    .ok (.nameSection [.ok (.function [.ok ⟨0, "imp"⟩, .ok ⟨1, "f"⟩])])]

/-- The defined function is emitted under the name of the imported one. -/
theorem importedAndDefined_misnamed :
    ∃ parsed, parse "m" importedAndDefined = .ok parsed ∧ ¬ FunctionsNamed importedAndDefined parsed := by
  have parses : parse "m" importedAndDefined = .ok _ := rfl
  refine ⟨_, parses, fun named => ?_⟩
  have emitted : ∀ body ∈ definedBodies importedAndDefined, Emitted body := by
    intro body member
    obtain rfl := List.mem_singleton.mp member
    refine ⟨fun declared noLocals item itemMember => ?_, by decide⟩
    cases noLocals
    cases itemMember
  obtain ⟨names, definitions, translated⟩ := translateFunctions_emits parses emitted fun _ => "id"
  have emittedNames : names = ["imp"] := translateFunctions_names parses translated
  have expectedNames : names = ["f"] := (named _ _ _ translated).1
  rw [emittedNames] at expectedNames
  exact absurd expectedNames (by decide)

end Inference.WasmToV
