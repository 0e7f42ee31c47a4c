import Inference.WasmToV.SegmentTexts
import Inference.WasmToV.Totality

/-! # Headers of functions

A definition starts with the type index and the locals of its function. The index
is taken from the function section and the locals from the body. Where the
section is too short, type 0 stands in, and locals that cannot be opened count as
none.
-/

namespace Inference.WasmToV

/-- The locals of a body can be read, down to the last group. -/
def FunctionBody.LocalsRead (body : FunctionBody) : Prop :=
  ∃ declared, body.locals = .ok declared ∧ Read declared

/-- The definition has the type that the function section declares at the position
of the body, and the locals of the body, each as often as it is declared. -/
def ExactHeader (payloads : List (Item Payload)) (parsed : WasmParseData) (getId : Nat → String)
    (entry : FunctionBody × Nat) (text : String) : Prop :=
  ∃ typeIndex locals localTexts rest,
    (declaredTypes payloads)[entry.2]? = some typeIndex ∧
    entry.1.LocalsRead ∧ entry.1.declaredLocals = some locals ∧
    translateValueTypes locals = .ok localTexts ∧
    text = "Definition " ++ functionName parsed entry.2 (getId entry.2) ++ " : module_func := " ++
      lcb ++ "  modfunc_type := " ++ toString typeIndex ++ "%N;\n" ++
      "  modfunc_locals := " ++ (localTexts ++ "nil") ++ ";\n" ++ rest

/-- The text has one definition for each body, and all of them with exact headers. -/
def EmitsExactly (payloads : List (Item Payload)) (parsed : WasmParseData)
    (getId : Nat → String) (text : String) : Prop :=
  ∃ sections errors names texts functionErrors,
    translateSections parsed = .ok (sections, errors) ∧
    translateFunctionSection parsed getId = .ok (names, String.join texts, functionErrors) ∧
    text = header ++ String.join texts ++ moduleRecord parsed sections names ∧
    List.Forall₂ (ExactHeader payloads parsed getId) (definedBodies payloads).zipIdx texts

/-- There are as many declared types as bodies, and the locals of all bodies can be
read. -/
def HeadersMatch (payloads : List (Item Payload)) : Prop :=
  (declaredTypes payloads).length = (definedBodies payloads).length ∧
    ∀ body ∈ definedBodies payloads, body.LocalsRead

/-- An accepted module has exact headers, and a module without them is an error. -/
def HeadersExact (payloads : List (Item Payload)) (parsed : WasmParseData) : Prop :=
  ∀ getId,
    (∀ text, translate parsed getId = .ok text → EmitsExactly payloads parsed getId text) ∧
    (¬ HeadersMatch payloads → ∃ error, translate parsed getId = Outcome.fail error)

variable {getId : Nat → String} {text : String}

section Parsed

variable {modName : String} {payloads : List (Item Payload)} {parsed : WasmParseData}
  (parses : parse modName payloads = .ok parsed)

include parses

theorem translate_panics_iff (getId : Nat → String) :
    translate parsed getId = Outcome.panic ↔ Panics payloads := by
  have total := translateBytes_total_iff modName payloads getId
  rw [translateBytes, parses, ok_bind, ne_eq, not_iff_not] at total
  exact total

/-- A body in range has its declared type, and its locals are printed one by one. -/
theorem translateFunction_exact {body : FunctionBody} {index : Nat}
    (inRange : index < (declaredTypes payloads).length) (read : body.LocalsRead)
    (translated : translateFunction parsed index (getId index) body = .ok text) :
    ExactHeader payloads parsed getId (body, index) text := by
  rcases bind_ok translated with ⟨modfuncLocals, localsTranslated, remaining⟩
  rcases bind_ok remaining with ⟨modfuncBody, _, assembled⟩
  cases assembled
  rcases locals_valueTypes localsTranslated with ⟨here, printed, rfl⟩
  rcases read with ⟨declared, opened, allRead⟩
  have declared_eq : body.declaredLocals =
      some ((readable declared).flatMap fun local_ => List.replicate local_.1 local_.2) := by
    rw [FunctionBody.declaredLocals, opened]
  rw [declared_eq, Option.getD_some] at printed
  have index_eq : functionTypeIndex parsed index = (declaredTypes payloads)[index] := by
    rw [functionTypeIndex, functionTypeIndexes_declared parses, List.getElem?_eq_getElem inRange,
      Option.getD_some]
  refine ⟨_, _, here, "  modfunc_body :=\n" ++ modfuncBody ++ ";\n" ++ rcbDot ++ "\n",
    List.getElem?_eq_getElem inRange, ⟨declared, opened, allRead⟩, declared_eq, printed, ?_⟩
  rw [index_eq]
  simp only [String.append_assoc]

theorem emitsExactly_of_emitted (matched : HeadersMatch payloads)
    (emitted : ∀ body ∈ definedBodies payloads, Emitted body)
    (translated : translate parsed getId = .ok text) :
    EmitsExactly payloads parsed getId text := by
  have succeed : ∀ entry ∈ parsed.functionBodies.zipIdx 0,
      Succeeds (translateFunction parsed entry.2 (getId entry.2) entry.1) := by
    rintro ⟨body, position⟩ member
    rw [functionBodies_defined parses] at member
    exact (translateFunction_emitted _ _ _ _).mpr (emitted body (List.fst_mem_of_mem_zipIdx member))
  rcases translateFunctionsFrom_lists succeed with ⟨definitions, texts, functions, each, joined⟩
  rcases bind_ok translated with ⟨⟨sections, sectionErrors⟩, sectioned, remaining⟩
  have section_ : translateFunctionSection parsed getId =
      .ok ((parsed.functionBodies.zipIdx 0).map
        fun entry => functionName parsed entry.2 (getId entry.2), String.join texts, []) := by
    rw [translateFunctionSection, translateFunctions, functions, joined]
  rcases bind_ok remaining with ⟨⟨names, joinedTexts, functionErrors⟩, sectionHere, assembled⟩
  cases section_.symm.trans sectionHere
  cases assembled
  refine ⟨sections, sectionErrors, _, texts, [], sectioned, section_, rfl, ?_⟩
  rw [functionBodies_defined parses] at each
  have exact_ : ∀ entry ∈ (definedBodies payloads).zipIdx, ∀ text,
      translateFunction parsed entry.2 (getId entry.2) entry.1 = .ok text →
        ExactHeader payloads parsed getId entry text := by
    rintro ⟨body, index⟩ member text here
    refine translateFunction_exact parses ?_
      (matched.2 body (List.fst_mem_of_mem_zipIdx member)) here
    rw [matched.1]
    exact List.snd_lt_of_mem_zipIdx member
  exact List.forall₂_iff_get.mpr ⟨each.length_eq, fun position inEntries inTexts =>
    exact_ _ (List.get_mem _ _) _ (List.Forall₂.get each inEntries inTexts)⟩

omit parses in
/-- A definition does not vanish among others. -/
theorem ExactHeader.join_ne {entry : FunctionBody × Nat}
    (exact_ : ExactHeader payloads parsed getId entry text) (rest : List String) :
    String.join (text :: rest) ≠ "" := by
  rcases exact_ with ⟨typeIndex, locals, localTexts, behind, -, -, -, -, rfl⟩
  intro empty
  have symbols := congrArg String.toList empty
  rw [String.join_cons] at symbols
  simp at symbols

/-- When a body is not emitted, none is. -/
theorem emitted_of_emitsExactly (exactly : EmitsExactly payloads parsed getId text) :
    ∀ body ∈ definedBodies payloads, Emitted body := by
  rcases exactly with ⟨sections, errors, names, texts, functionErrors, -, section_, -, headers⟩
  rw [translateFunctionSection] at section_
  split at section_
  case h_1 names definitions functions =>
      rw [← functionBodies_defined parses]
      exact (translateFunctionsFrom_ok functions).2.1
  case h_2 error functions =>
      have joined : "" = String.join texts := congrArg (·.2.1) (Except.ok.inj section_)
      cases bodies : definedBodies payloads with
      | nil => simp
      | cons body others =>
          rw [bodies, List.zipIdx_cons] at headers
          cases headers with
          | cons first rest => exact absurd joined.symm (first.join_ne _)
  case h_3 => cases section_

/-- Headers are exact exactly when there are as many declared types as bodies, all locals can be
read, and every body is emitted, unless the translation panics. -/
theorem headersExact_of_parse :
    HeadersExact payloads parsed ↔
      HeadersMatch payloads ∧
        ((∀ body ∈ definedBodies payloads, Emitted body) ∨ Panics payloads) := by
  constructor
  · intro exact_
    have matched : HeadersMatch payloads := by
      by_contra mismatch
      rcases (exact_ fun _ => "").2 mismatch with ⟨error, reported⟩
      exact translate_neverReports parsed _ error reported
    refine ⟨matched, ?_⟩
    cases translated : translate parsed fun _ => "" with
    | ok text =>
        exact .inl (emitted_of_emitsExactly parses ((exact_ fun _ => "").1 text translated))
    | error failure =>
        cases failure with
        | panicked => exact .inr ((translate_panics_iff parses _).mp translated)
        | error error => exact absurd translated (translate_neverReports parsed _ error)
  · rintro ⟨matched, emitted | panics⟩ getId
    · exact ⟨fun text translated => emitsExactly_of_emitted parses matched emitted translated,
        fun mismatch => absurd matched mismatch⟩
    · refine ⟨fun text translated => ?_, fun mismatch => absurd matched mismatch⟩
      rw [(translate_panics_iff parses getId).mpr panics] at translated
      cases translated

end Parsed

/-- The headers of a parsed module are exact under this condition, and only under it. -/
theorem headersExact_iff (modName : String) (payloads : List (Item Payload))
    (parsed : WasmParseData) (parses : parse modName payloads = .ok parsed) :
    HeadersExact payloads parsed ↔
      HeadersMatch payloads ∧
        ((∀ body ∈ definedBodies payloads, Emitted body) ∨ Panics payloads) :=
  headersExact_of_parse parses

/-- Two functions with declared types, one of them with locals. -/
def declaredFunctions : List (Item Payload) :=
  [.ok (.functionSection [.ok 1, .ok 0]),
    .ok (.codeSectionEntry { locals := .ok [.ok (2, .i32), .ok (1, .i64)]
                             operators := .ok [.ok (.localGet 2), .ok .end_] }),
    .ok (.codeSectionEntry { locals := .ok [], operators := .ok [.ok .end_] })]

theorem headersExact_iff_declared :
    ∃ parsed, parse "m" declaredFunctions = .ok parsed ∧ HeadersExact declaredFunctions parsed := by
  have bodies : ∀ body ∈ definedBodies declaredFunctions, body.LocalsRead ∧ Emitted body := by
    intro body member
    rcases List.mem_cons.mp member with rfl | member
    · refine ⟨⟨_, rfl, by simp [Read]⟩, ?_⟩
      exact (translateFunction_emitted (WasmParseData.new "m") 0 "id" _).mp ⟨_, rfl⟩
    · cases List.mem_singleton.mp member
      refine ⟨⟨_, rfl, by simp [Read]⟩, ?_⟩
      exact (translateFunction_emitted (WasmParseData.new "m") 1 "id" _).mp ⟨_, rfl⟩
  refine ⟨_, rfl, (headersExact_iff "m" declaredFunctions _ rfl).mpr ⟨⟨rfl, ?_⟩, .inl ?_⟩⟩
  · exact fun body member => (bodies body member).1
  · exact fun body member => (bodies body member).2

/-- A body whose type is not declared. -/
def undeclared : List (Item Payload) :=
  [.ok (.codeSectionEntry { locals := .ok [], operators := .ok [.ok .end_] })]

/-- The module is accepted, with type 0 for the body. -/
theorem undeclared_substituted :
    ∃ parsed, parse "m" undeclared = .ok parsed ∧ ¬ HeadersExact undeclared parsed := by
  have parses : parse "m" undeclared = .ok _ := rfl
  refine ⟨_, parses, fun exact_ => ?_⟩
  have matched := ((headersExact_of_parse parses).mp exact_).1.1
  exact absurd matched (by decide)

end Inference.WasmToV
