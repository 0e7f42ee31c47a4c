import Inference.WasmToV.SectionLists

/-! # The type index space

A type index counts the types of all groups. The emitted list of types has one
entry for every group, with the texts of its types run together.
-/

namespace Inference.WasmToV

open Foundation

/-! ## Types of a module -/

/-- The types of a module in the order of their indices. -/
def WasmParseData.types (parsed : WasmParseData) : List SubType :=
  parsed.functionTypes.flatMap RecGroup.types

/-- The emitted list of types has the translation of every type as an entry, in
the order of the type indices. -/
def TypeIndexSpacePreserved (parsed : WasmParseData) : Prop :=
  ∀ sections errors, translateSections parsed = .ok (sections, errors) →
    ∃ entries, sections.functionTypes = listText entries ∧
      List.Forall₂ (fun ty entry => translateSubType ty = .ok entry ∧ entry ≠ "")
        parsed.types entries

/-! ## Texts of types -/

/-- The text of a type, empty when it has none. -/
def typeText (ty : SubType) : String :=
  (translateSubType ty).toOption.getD ""

theorem translateSubType_typeText {ty : SubType} (supported : ty.supported = true) :
    translateSubType ty = .ok (typeText ty) ∧ typeText ty ≠ "" := by
  rcases (subTypeAppears_iff ty).mpr supported with ⟨text, translated, nonempty⟩
  have same : typeText ty = text := by
    rw [typeText, translated]
    rfl
  rw [same]
  exact ⟨translated, nonempty⟩

variable {text : String}

theorem lacks_refType {refType : RefType}
    (translated : translateRefType refType = .ok text) : Lacks '\n' text := by
  unfold translateRefType at translated
  split at translated
  · cases translated
    exact .literal (by decide)
  · split at translated
    · cases translated
      exact .literal (by decide)
    · cases translated

theorem lacks_valueType {valType : ValType}
    (translated : translateValueType valType = .ok text) : Lacks '\n' text := by
  cases valType with
  | ref refType =>
      rcases bind_ok translated with ⟨refText, refTranslated, assembled⟩
      cases assembled
      apply Lacks.append
      · exact .literal (by decide)
      · exact lacks_refType refTranslated
  | i32 | i64 | f32 | f64 | v128 =>
      cases translated
      exact .literal (by decide)

theorem lacks_valueTypes {valTypes : List ValType}
    (translated : translateValueTypes valTypes = .ok text) : Lacks '\n' text := by
  induction valTypes generalizing text with
  | nil =>
      cases translated
      exact .literal (by decide)
  | cons valType rest induction =>
      rcases bind_ok translated with ⟨here, hereTranslated, remaining⟩
      rcases bind_ok remaining with ⟨later, laterTranslated, assembled⟩
      cases assembled
      apply Lacks.append
      · exact (lacks_valueType hereTranslated).append (.literal (by decide))
      · exact induction laterTranslated

/-- The text of a type stays on its line. -/
theorem lacks_subType {ty : SubType}
    (translated : translateSubType ty = .ok text) : Lacks '\n' text := by
  unfold translateSubType at translated
  split at translated
  case h_1 ft =>
      rcases bind_ok translated with ⟨params, paramsTranslated, remaining⟩
      rcases bind_ok remaining with ⟨results, resultsTranslated, assembled⟩
      cases assembled
      have sealed : Lacks '\n' "nil" := .literal (by decide)
      have opening : Lacks '\n' "Tf (" := .literal (by decide)
      have between : Lacks '\n' ") (" := .literal (by decide)
      have closing : Lacks '\n' ")" := .literal (by decide)
      have paramsLack := (lacks_valueTypes paramsTranslated).append sealed
      have resultsLack := (lacks_valueTypes resultsTranslated).append sealed
      exact (((opening.append paramsLack).append between).append resultsLack).append closing
  all_goals
    cases translated
    exact .literal (by decide)

variable {types : List SubType}

theorem translateSubTypes_join (supported : ∀ ty ∈ types, ty.supported = true) :
    translateSubTypes types = .ok (String.join (types.map typeText)) := by
  induction types with
  | nil => rfl
  | cons ty rest induction =>
      rw [translateSubTypes, (translateSubType_typeText (supported ty List.mem_cons_self)).1,
        ok_bind, induction fun other member => supported other (List.mem_cons_of_mem ty member),
        ok_bind, List.map_cons, String.join_cons]
      rfl

/-! ## Groups of one type -/

variable {groups : List RecGroup}

/-- When the texts of the groups are the texts of the types, no group is empty
or holds two types. -/
theorem single_of_texts (nonempty : ∀ ty ∈ groups.flatMap RecGroup.types, typeText ty ≠ "")
    (same : groups.map (fun group => String.join (group.types.map typeText)) =
      (groups.flatMap RecGroup.types).map typeText) :
    ∀ group ∈ groups, ∃ ty, group.types = [ty] := by
  induction groups with
  | nil => simp
  | cons group rest induction =>
      rw [List.flatMap_cons, List.map_append, List.map_cons] at same
      have restNonempty : ∀ ty ∈ rest.flatMap RecGroup.types, typeText ty ≠ "" := by
        intro ty member
        exact nonempty ty (by simp [List.mem_append, List.mem_flatMap.mp member])
      have hereNonempty : ∀ ty ∈ group.types, typeText ty ≠ "" := by
        intro ty member
        exact nonempty ty (by simp [member])
      cases types : group.types with
      | nil =>
          rw [types, List.map_nil, List.nil_append] at same
          -- The empty text would be the text of the next type.
          cases later : rest.flatMap RecGroup.types with
          | nil =>
              rw [later] at same
              cases same
          | cons ty others =>
              rw [later] at same
              exact absurd (List.cons.inj same).1.symm
                (restNonempty ty (by rw [later]; exact List.mem_cons_self))
      | cons first others =>
          rw [types] at same hereNonempty
          rw [List.map_cons, List.cons_append, String.join_cons] at same
          rcases List.cons.inj same with ⟨head, tail⟩
          have nothing : String.join (others.map typeText) = "" := by
            have spelled := congrArg String.toList head
            rw [String.toList_append] at spelled
            exact String.toList_injective (by simpa using spelled)
          cases others with
          | cons second more =>
              rw [List.map_cons, String.join_cons] at nothing
              have spelled := congrArg String.toList nothing
              rw [String.toList_append] at spelled
              have empty : (typeText second).toList = [] := (by simpa using spelled :
                (typeText second).toList = [] ∧ _).1
              exact absurd (String.toList_injective (empty.trans rfl))
                (hereNonempty second (by simp))
          | nil =>
              intro other member
              rcases List.mem_cons.mp member with rfl | later
              · exact ⟨first, types⟩
              · exact induction restNonempty tail other later

theorem flatMap_single (single : ∀ group ∈ groups, ∃ ty, group.types = [ty]) :
    groups.map (fun group => String.join (group.types.map typeText)) =
      (groups.flatMap RecGroup.types).map typeText := by
  induction groups with
  | nil => rfl
  | cons group rest induction =>
      rcases single group List.mem_cons_self with ⟨ty, types⟩
      rw [List.map_cons, List.flatMap_cons, List.map_append, types,
        induction fun other member => single other (List.mem_cons_of_mem group member)]
      simp

/-! ## The condition -/

theorem forall₂_typeText (supported : ∀ ty ∈ types, ty.supported = true) :
    List.Forall₂ (fun ty entry => translateSubType ty = .ok entry ∧ entry ≠ "") types
      (types.map typeText) := by
  apply List.forall₂_map_right_iff.mpr
  apply List.forall₂_same.mpr
  intro ty member
  exact translateSubType_typeText (supported ty member)

theorem supported_of_forall₂ {entries : List String}
    (translated : List.Forall₂ (fun ty entry => translateSubType ty = .ok entry ∧ entry ≠ "") types
      entries) :
    (∀ ty ∈ types, ty.supported = true) ∧ entries = types.map typeText := by
  induction translated with
  | nil => exact ⟨by simp, rfl⟩
  | cons here _ induction =>
      have supported := (subTypeAppears_iff _).mp ⟨_, here⟩
      refine ⟨List.forall_mem_cons.mpr ⟨supported, induction.1⟩, ?_⟩
      have same := here.1.symm.trans (translateSubType_typeText supported).1
      rw [List.map_cons, ← induction.2, Except.ok.inj same]

/-- When all types are supported, every group is translated into the texts of
its types. -/
theorem translatedEntries_groups
    (supported : ∀ ty ∈ groups.flatMap RecGroup.types, ty.supported = true) :
    translatedEntries translateFunctionType groups =
      groups.map fun group => String.join (group.types.map typeText) := by
  induction groups with
  | nil => rfl
  | cons group rest induction =>
      rw [List.flatMap_cons] at supported
      have here : translateFunctionType group = .ok (String.join (group.types.map typeText)) :=
        translateSubTypes_join fun ty member => supported ty (List.mem_append_left _ member)
      have later := induction fun ty member => supported ty (List.mem_append_right _ member)
      rw [translatedEntries] at later ⊢
      rw [List.filterMap_cons, here, later]
      rfl

/-- The list of types has one entry for each type index exactly when every group
holds a single function type whose parameters and results are supported. -/
theorem typeIndexSpacePreserved_iff {parsed : WasmParseData} {getId : Nat → String}
    (accepted : Succeeds (translate parsed getId)) :
    TypeIndexSpacePreserved parsed ↔
      ∀ group ∈ parsed.functionTypes, ∃ ty, group.types = [ty] ∧ ty.supported = true := by
  constructor
  · intro preserved
    rcases accepted with ⟨text, translated⟩
    rcases translate_ok translated with ⟨sections, errors, _, _, _, sectionsTranslated, _⟩
    rcases preserved sections errors sectionsTranslated with ⟨entries, listed, translations⟩
    rcases supported_of_forall₂ translations with ⟨supported, rfl⟩
    have emitted := (translateSections_ok sectionsTranslated).functionTypes
    rw [translatedEntries_groups supported, listed] at emitted
    have lacks : ∀ ty ∈ parsed.types, Lacks '\n' (typeText ty) := fun ty member =>
      lacks_subType (translateSubType_typeText (supported ty member)).1
    have same := listText_injective
      (by
        intro entry member
        rcases List.mem_map.mp member with ⟨ty, tyMember, rfl⟩
        exact lacks ty tyMember)
      (by
        intro entry member
        rcases List.mem_map.mp member with ⟨group, groupMember, rfl⟩
        apply Lacks.join
        intro line lineMember
        rcases List.mem_map.mp lineMember with ⟨ty, tyMember, rfl⟩
        exact lacks ty (List.mem_flatMap.mpr ⟨group, groupMember, tyMember⟩))
      emitted
    intro group member
    rcases single_of_texts
      (fun ty tyMember => (translateSubType_typeText (supported ty tyMember)).2) same.symm
      group member with ⟨ty, types⟩
    refine ⟨ty, types, supported ty ?_⟩
    exact List.mem_flatMap.mpr ⟨group, member, by rw [types]; exact List.mem_singleton_self ty⟩
  · intro single sections errors sectionsTranslated
    have supported : ∀ ty ∈ parsed.types, ty.supported = true := by
      intro ty member
      rcases List.mem_flatMap.mp member with ⟨group, groupMember, tyMember⟩
      rcases single group groupMember with ⟨only, types, onlySupported⟩
      rw [types] at tyMember
      rw [List.mem_singleton.mp tyMember]
      exact onlySupported
    refine ⟨parsed.types.map typeText, ?_, forall₂_typeText supported⟩
    rw [(translateSections_ok sectionsTranslated).functionTypes,
      translatedEntries_groups supported,
      flatMap_single fun group member => (single group member).imp fun _ => And.left]
    rfl

/-- A module without functions, with these groups in its type section. -/
def groupedTypes (groups : List (List SubType)) : WasmParseData :=
  { WasmParseData.new "m" with functionTypes := groups.map RecGroup.mk }

def functionType (params results : List ValType) : SubType :=
  ⟨true, none, ⟨.func ⟨params, results⟩, false⟩⟩

/-- A group for each of three function types. -/
def singleGroups : List (List SubType) :=
  [[functionType [] []], [functionType [.i32, .i64] [.f32]], [functionType [.f64] []]]

theorem typeIndexSpacePreserved_single : TypeIndexSpacePreserved (groupedTypes singleGroups) := by
  have accepted : Succeeds (translate (groupedTypes singleGroups) fun _ => "id") := ⟨_, rfl⟩
  apply (typeIndexSpacePreserved_iff accepted).mpr
  intro group member
  rcases List.mem_map.mp member with ⟨types, isGroup, rfl⟩
  simp only [singleGroups, List.mem_cons, List.not_mem_nil, or_false] at isGroup
  rcases isGroup with rfl | rfl | rfl <;> exact ⟨_, rfl, rfl⟩

/-- One group of two function types. -/
def sharedGroup : List (List SubType) :=
  [[functionType [] [], functionType [] []]]

/-- Two function types in one group become one entry. -/
theorem groupedTypes_notPreserved :
    Succeeds (translate (groupedTypes sharedGroup) fun _ => "id") ∧
      ¬ TypeIndexSpacePreserved (groupedTypes sharedGroup) := by
  refine ⟨⟨_, rfl⟩, fun preserved => ?_⟩
  rcases preserved _ _ rfl with ⟨entries, listed, translations⟩
  rcases supported_of_forall₂ translations with ⟨_, rfl⟩
  exact absurd listed (by decide +kernel)

end Inference.WasmToV
