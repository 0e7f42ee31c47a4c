import Inference.Foundation.Identifier
import Inference.WasmToV.FunctionNaming

/-! # Names of definitions

The emitted text defines the helpers of the header, one record for every body
and the record of the module. The names of the functions come from the name
section or are generated, and nothing compares them with each other.
-/

namespace Inference.WasmToV

open Foundation

/-! ## Emitted definitions -/

def helperNames : List String :=
  ["Vi32", "Vi64", "Mt", "Mm", "Mg", "Mi", "Me", "Ma"]

/-- The header ends in the definitions of the helpers. -/
theorem header_defines :
    ∃ front rests, rests.length = helperNames.length ∧
      header = front ++ String.join
        (List.zipWith (fun name rest => "Definition " ++ name ++ " " ++ rest) helperNames rests) := by
  refine ⟨"Require Import List.\nRequire Import String.\nRequire Import BinNat.\n" ++
      "Require Import ZArith.\nFrom Wasm Require Import bytes.\n" ++
      "From Wasm Require Import numerics.\nFrom Wasm Require Import datatypes.\n\n",
    ["i := VAL_int32 (Wasm_int.int_of_Z i32m i).\n",
      "i := VAL_int64 (Wasm_int.int_of_Z i64m i).\n",
      "l et := \x7b|modtab_type := \x7b|tt_limits := l; tt_elem_type := et|\x7d|\x7d.\n",
      "l := \x7b|modmem_type := l|\x7d.\n",
      "mut t init := \x7b|modglob_type := \x7b|tg_mut := mut; tg_t := t|\x7d; " ++
        "modglob_init := init|\x7d.\n\n",
      "m n d := \x7b|\n  imp_module := list_byte_of_string m;\n" ++
        "  imp_name := list_byte_of_string n;\n  imp_desc := d;\n|\x7d.\n\n",
      "n d := \x7b|\n  modexp_name := list_byte_of_string n;\n  modexp_desc := d;\n|\x7d.\n\n",
      "of al := \x7b|memarg_offset := of; memarg_align := al|\x7d.\n\n"], rfl, ?_⟩
  decide +kernel

/-- What a top-level definition in front of the module record stands for. -/
inductive TopLevel where
  | helper (name : String)
  | function (index : Nat)
  deriving DecidableEq, Repr

/-- The definitions in front of the module record, by their names. -/
def definitionsBefore (functionNames : List String) : List (String × TopLevel) :=
  helperNames.map (fun name => (name, .helper name)) ++
    functionNames.zipIdx.map fun entry => (entry.1, .function entry.2)

/-- All names are identifiers and different from each other, and the entries of
`mod_funcs` denote the definitions of the bodies, in order. -/
structure Unambiguous (lexicon : Lexicon) (modName : String) (functionNames : List String) :
    Prop where
  identifiers : ∀ name ∈ helperNames ++ functionNames ++ [modName],
    lexicon.isIdentifier name = true
  distinct : (helperNames ++ functionNames ++ [modName]).Nodup
  denote : ∀ index name, functionNames[index]? = some name →
    denoted (definitionsBefore functionNames) name = some (.function index)

/-- The names under which a translated module is defined are unambiguous. -/
def DefinitionsUnambiguous (lexicon : Lexicon) (parsed : WasmParseData) (getId : Nat → String) :
    Prop :=
  ∀ text functionNames definitions errors, translate parsed getId = .ok text →
    translateFunctionSection parsed getId = .ok (functionNames, definitions, errors) →
      Unambiguous lexicon parsed.modName functionNames

/-! ## Generated names -/

/-- The first group of a printed identifier: eight hexadecimal digits. -/
structure IsId (id : String) : Prop where
  length : id.toList.length = 8
  digits : ∀ symbol ∈ id.toList, symbol.isDigit = true ∨ 'a' ≤ symbol ∧ symbol ≤ 'f'

/-- The lexer keeps no helper and no generated name as a keyword. -/
structure FreesNames (lexicon : Lexicon) : Prop where
  helpers : ∀ name ∈ helperNames, lexicon.keyword name = false
  generated : ∀ id, IsId id → lexicon.keyword ("func_" ++ id) = false

theorem toList_generated (id : String) :
    ("func_" ++ id).toList = 'f' :: 'u' :: 'n' :: 'c' :: '_' :: id.toList := by
  have front : "func_".toList = ['f', 'u', 'n', 'c', '_'] := String.toList_ofList
  rw [String.toList_append, front]
  rfl

theorem generated_injective {id other : String} (same : "func_" ++ id = "func_" ++ other) :
    id = other := by
  have spelled := congrArg String.toList same
  rw [toList_generated, toList_generated] at spelled
  exact String.toList_injective (by simpa using spelled)

section Generated

variable {lexicon : Lexicon} (frees : FreesNames lexicon) {id : String} (isId : IsId id)

include isId in
theorem generated_not_helper : "func_" ++ id ∉ helperNames := by
  intro member
  have short : ∀ name ∈ helperNames, name.toList.length ≤ 4 := by decide
  have length := short _ member
  rw [toList_generated] at length
  simp only [List.length_cons, isId.length] at length
  omega

include frees isId in
theorem generated_identifier : lexicon.isIdentifier ("func_" ++ id) = true := by
  apply lexicon.isIdentifier_of_parts (toList_generated id) rfl
  · intro symbol member
    have letters : ∀ letter ∈ ['u', 'n', 'c', '_'],
        lexicon.continuesIdentifier letter = true := by
      intro letter letterMember
      have plain : letter.isAlpha = true ∨ letter = '_' := by
        simp only [List.mem_cons, List.not_mem_nil, or_false] at letterMember
        rcases letterMember with rfl | rfl | rfl | rfl
        all_goals decide
      rcases plain with alphabetic | rfl
      · simp [Lexicon.continuesIdentifier, Lexicon.startsIdentifier, alphabetic]
      · simp [Lexicon.continuesIdentifier, Lexicon.startsIdentifier]
    rcases List.mem_append.mp (show symbol ∈ ['u', 'n', 'c', '_'] ++ id.toList from member) with
      front | back
    · exact letters symbol front
    · rcases isId.digits symbol back with digit | ⟨lower, upper⟩
      · simp [Lexicon.continuesIdentifier, digit]
      · have alphabetic : symbol.isAlpha = true := by
          have isLower : symbol.isLower = true :=
            Bool.and_eq_true_iff.mpr
              ⟨decide_eq_true lower, decide_eq_true (le_trans upper (by decide))⟩
          exact Bool.or_eq_true_iff.mpr (.inr isLower)
        simp [Lexicon.continuesIdentifier, Lexicon.startsIdentifier, alphabetic]
  · exact frees.generated id isId

include frees in
theorem helper_identifier : ∀ name ∈ helperNames, lexicon.isIdentifier name = true := by
  intro name member
  have spelled : ∃ first rest, name.toList = first :: rest ∧ first.isAlpha = true ∧
      ∀ symbol ∈ rest, symbol.isAlphanum = true := by
    simp only [helperNames, List.mem_cons, List.not_mem_nil, or_false] at member
    rcases member with rfl | rfl | rfl | rfl | rfl | rfl | rfl | rfl
    all_goals exact ⟨_, _, String.toList_ofList, rfl, List.all_eq_true.mp (by decide)⟩
  rcases spelled with ⟨first, rest, spelled, starts, continues⟩
  apply lexicon.isIdentifier_of_parts spelled
  · simp [Lexicon.startsIdentifier, starts]
  · intro symbol symbolMember
    have alphanumeric := continues symbol symbolMember
    simp only [Char.isAlphanum, Bool.or_eq_true] at alphanumeric
    rcases alphanumeric with alphabetic | digit
    · simp [Lexicon.continuesIdentifier, Lexicon.startsIdentifier, alphabetic]
    · simp [Lexicon.continuesIdentifier, digit]
  · exact frees.helpers name member

end Generated

/-! ## Names of the functions -/

/-- The name that the name section gives to the body at a position. -/
def givenName (parsed : WasmParseData) (index : Nat) : Option String :=
  parsed.funcNamesMap.bind (·.lookup (index % 2 ^ 32))

theorem functionName_given (parsed : WasmParseData) (index : Nat) (id : String) :
    functionName parsed index id = (givenName parsed index).getD ("func_" ++ id) := by
  rw [functionName, givenName]
  cases parsed.funcNamesMap <;> rfl

/-- A name that can stand beside the helpers. -/
structure Fits (lexicon : Lexicon) (name : String) : Prop where
  identifier : lexicon.isIdentifier name = true
  notHelper : name ∉ helperNames

/-- The given names of functions are identifiers, differ from the helpers, from
the module and from each other, and no given or generated name is generated
again. -/
structure NamesFit (lexicon : Lexicon) (parsed : WasmParseData) (getId : Nat → String) :
    Prop where
  fit : ∀ index < parsed.functionBodies.length, ∀ name, givenName parsed index = some name →
    Fits lexicon name ∧ name ≠ parsed.modName
  apart : ∀ index < parsed.functionBodies.length, ∀ other < parsed.functionBodies.length,
    ∀ name, givenName parsed index = some name → givenName parsed other = some name →
      index = other
  generated : ∀ index < parsed.functionBodies.length, givenName parsed index = none →
    "func_" ++ getId index ≠ parsed.modName ∧
      ∀ other < parsed.functionBodies.length,
        givenName parsed other ≠ some ("func_" ++ getId index)
  fresh : ∀ index < parsed.functionBodies.length, ∀ other < parsed.functionBodies.length,
    givenName parsed index = none → givenName parsed other = none →
      getId index = getId other → index = other

theorem helperNames_nodup : helperNames.Nodup := by
  decide

theorem definitionsBefore_names (functionNames : List String) :
    (definitionsBefore functionNames).map Prod.fst = helperNames ++ functionNames := by
  rw [definitionsBefore, List.map_append, List.map_map, List.map_map]
  congr 1
  exact List.zipIdx_map_fst 0 functionNames

section Unambiguity

variable {lexicon : Lexicon} (frees : FreesNames lexicon)

include frees

theorem unambiguous_iff (modName : String) (functionNames : List String) :
    Unambiguous lexicon modName functionNames ↔
      Fits lexicon modName ∧
        (∀ name ∈ functionNames, Fits lexicon name ∧ name ≠ modName) ∧ functionNames.Nodup := by
  constructor
  · intro unambiguous
    have distinct := unambiguous.distinct
    rw [List.append_assoc, List.nodup_append] at distinct
    rcases distinct with ⟨_, later, disjoint⟩
    rw [List.nodup_append] at later
    rcases later with ⟨functionsDistinct, _, notModule⟩
    refine ⟨⟨unambiguous.identifiers _ (by simp), ?_⟩, ?_, functionsDistinct⟩
    · intro member
      exact disjoint _ member modName (by simp) rfl
    · intro name member
      refine ⟨⟨unambiguous.identifiers name (by simp [member]), ?_⟩, ?_⟩
      · intro helper
        exact disjoint _ helper name (by simp [member]) rfl
      · exact notModule name member modName (by simp)
  · rintro ⟨module_, functions, functionsDistinct⟩
    have distinct : (helperNames ++ functionNames ++ [modName]).Nodup := by
      rw [List.append_assoc, List.nodup_append]
      refine ⟨helperNames_nodup, ?_, ?_⟩
      · rw [List.nodup_append]
        refine ⟨functionsDistinct, by simp, ?_⟩
        intro name member other otherMember
        rw [List.mem_singleton.mp otherMember]
        exact (functions name member).2
      · rintro name helper other member rfl
        rcases List.mem_append.mp member with function | last
        · exact (functions name function).1.notHelper helper
        · rw [List.mem_singleton.mp last] at helper
          exact module_.notHelper helper
    refine ⟨?_, distinct, ?_⟩
    · intro name member
      rcases List.mem_append.mp member with front | last
      · rcases List.mem_append.mp front with helper | function
        · exact helper_identifier frees name helper
        · exact (functions name function).1.identifier
      · rw [List.mem_singleton.mp last]
        exact module_.identifier
    · intro index name named
      apply denoted_of_nodup
      · rw [definitionsBefore_names]
        exact (List.nodup_append.mp distinct).1
      · apply List.mem_append_right
        exact List.mem_map.mpr ⟨(name, index), List.mk_mem_zipIdx_iff_getElem?.mpr named, rfl⟩

variable {parsed : WasmParseData} {getId : Nat → String} (ids : ∀ index, IsId (getId index))

include ids

/-- The names of emitted functions are unambiguous exactly when the given ones
fit. -/
theorem namesFit_iff :
    ((∀ name ∈ (List.range parsed.functionBodies.length).map
          (fun index => functionName parsed index (getId index)),
        Fits lexicon name ∧ name ≠ parsed.modName) ∧
      ((List.range parsed.functionBodies.length).map
        (fun index => functionName parsed index (getId index))).Nodup) ↔
      NamesFit lexicon parsed getId := by
  rw [List.nodup_map_iff_inj_on List.nodup_range, List.forall_mem_map]
  simp only [List.mem_range, functionName_given]
  constructor
  · rintro ⟨fit, injective⟩
    refine ⟨?_, ?_, ?_, ?_⟩
    · intro index inRange name given
      simpa [given] using fit index inRange
    · intro index inRange other otherInRange name given otherGiven
      exact injective index inRange other otherInRange (by rw [given, otherGiven]; rfl)
    · intro index inRange given
      refine ⟨by simpa [given] using (fit index inRange).2, ?_⟩
      intro other otherInRange otherGiven
      have same := injective index inRange other otherInRange (by rw [given, otherGiven]; rfl)
      rw [same, otherGiven] at given
      cases given
    · intro index inRange other otherInRange given otherGiven same
      exact injective index inRange other otherInRange (by rw [given, otherGiven, same])
  · intro fit
    refine ⟨?_, ?_⟩
    · intro index inRange
      cases given : givenName parsed index with
      | some name => exact fit.fit index inRange name given
      | none =>
          exact ⟨⟨generated_identifier frees (ids index), generated_not_helper (ids index)⟩,
            (fit.generated index inRange given).1⟩
    · intro index inRange other otherInRange same
      cases given : givenName parsed index with
      | some name =>
          cases otherGiven : givenName parsed other with
          | some otherName =>
              rw [given, otherGiven] at same
              obtain rfl : name = otherName := same
              exact fit.apart index inRange other otherInRange name given otherGiven
          | none =>
              rw [given, otherGiven] at same
              exact absurd (given.trans (congrArg some same))
                ((fit.generated other otherInRange otherGiven).2 index inRange)
      | none =>
          cases otherGiven : givenName parsed other with
          | some otherName =>
              rw [given, otherGiven] at same
              exact absurd (otherGiven.trans (congrArg some same.symm))
                ((fit.generated index inRange given).2 other otherInRange)
          | none =>
              rw [given, otherGiven] at same
              exact fit.fresh index inRange other otherInRange given otherGiven
                (generated_injective same)

end Unambiguity

/-! ## The condition -/

/-- Without an emitted function the list of functions is empty. -/
theorem translateFunctionSection_cases {parsed : WasmParseData} {getId : Nat → String}
    (accepted : Succeeds (translate parsed getId)) :
    ∃ functionNames definitions errors,
      translateFunctionSection parsed getId = .ok (functionNames, definitions, errors) ∧
      ((∀ body ∈ parsed.functionBodies, Emitted body) ∧
          functionNames = (List.range parsed.functionBodies.length).map
            (fun index => functionName parsed index (getId index)) ∨
        (∃ body ∈ parsed.functionBodies, ¬ Emitted body) ∧ functionNames = []) := by
  rcases accepted with ⟨text, translated⟩
  rcases bind_ok translated with ⟨⟨sections, sectionErrors⟩, _, remaining⟩
  rcases bind_ok remaining with ⟨⟨functionNames, definitions, errors⟩, section_, _⟩
  refine ⟨functionNames, definitions, errors, section_, ?_⟩
  rw [translateFunctionSection] at section_
  split at section_
  case h_1 names definitions functions =>
      cases section_
      rcases translateFunctionsFrom_ok functions with ⟨named, emitted, _⟩
      exact .inl ⟨emitted, by rw [named, ← List.range_eq_range']⟩
  case h_2 error functions =>
      cases section_
      refine .inr ⟨?_, rfl⟩
      by_contra allEmitted
      have succeed : ∀ entry ∈ parsed.functionBodies.zipIdx 0,
          Succeeds (translateFunction parsed entry.2 (getId entry.2) entry.1) := by
        rintro ⟨body, position⟩ member
        apply (translateFunction_emitted _ _ _ _).mpr
        by_contra notEmitted
        exact allEmitted ⟨body, List.fst_mem_of_mem_zipIdx member, notEmitted⟩
      rcases translateFunctionsFrom_lists succeed with ⟨definitions, _, emitted, _⟩
      rw [translateFunctions, emitted] at functions
      cases functions
  case h_3 => cases section_

/-- The definitions of a translated module are unambiguous exactly when the name
of the module is an identifier other than a helper's, and the same holds of the
names given to emitted functions, all names being different. -/
theorem definitionsUnambiguous_iff {lexicon : Lexicon} (frees : FreesNames lexicon)
    {parsed : WasmParseData} {getId : Nat → String} (ids : ∀ index, IsId (getId index))
    (accepted : Succeeds (translate parsed getId)) :
    DefinitionsUnambiguous lexicon parsed getId ↔
      Fits lexicon parsed.modName ∧
        ((∃ body ∈ parsed.functionBodies, ¬ Emitted body) ∨ NamesFit lexicon parsed getId) := by
  rcases translateFunctionSection_cases accepted with
    ⟨functionNames, definitions, errors, section_, names⟩
  have unambiguous : DefinitionsUnambiguous lexicon parsed getId ↔
      Unambiguous lexicon parsed.modName functionNames := by
    rcases accepted with ⟨text, translated⟩
    constructor
    · intro all
      exact all text functionNames definitions errors translated section_
    · intro here otherText otherNames otherDefinitions otherErrors _ otherSection
      rw [section_] at otherSection
      cases otherSection
      exact here
  rw [unambiguous, unambiguous_iff frees]
  apply and_congr_right
  intro _
  rcases names with ⟨emitted, rfl⟩ | ⟨notEmitted, rfl⟩
  · rw [namesFit_iff frees ids]
    constructor
    · exact .inr
    · rintro (⟨body, member, notEmitted⟩ | fit)
      · exact absurd (emitted body member) notEmitted
      · exact fit
  · exact iff_of_true ⟨by simp, List.nodup_nil⟩ (.inl notEmitted)

/-! ## Two functions -/

theorem core_frees : FreesNames Lexicon.core where
  helpers := by decide
  generated id isId := by
    have short : ∀ name, Lexicon.core.keyword name = true → name.toList.length ≤ 10 := by
      intro name keyword
      simp only [Lexicon.core, decide_eq_true_eq] at keyword
      apply of_decide_eq_true
      apply List.all_eq_true.mp _ name keyword
      decide
    by_contra keyword
    have length := short _ (by simpa using keyword)
    rw [toList_generated] at length
    simp only [List.length_cons, isId.length] at length
    omega

theorem isId_sample : IsId "0a1b2c3d" where
  length := by decide
  digits symbol member := by
    apply of_decide_eq_true
    apply List.all_eq_true.mp _ symbol member
    decide

/-- Two functions without parameters, results and operators, under two names. -/
def namedFunctions (first second : String) : WasmParseData :=
  { WasmParseData.new "m" with
    funcNamesMap := some [(1, second), (0, first)]
    functionTypes := [⟨[⟨true, none, ⟨.func ⟨[], []⟩, false⟩⟩]⟩]
    functionTypeIndexes := [0, 0]
    functionBodies :=
      [{ locals := .ok [], operators := .ok [.ok .end_] },
        { locals := .ok [], operators := .ok [.ok .end_] }] }

theorem namedFunctions_supported (first second : String) :
    Supported (namedFunctions first second) where
  imports _ member := by cases member
  exports _ member := by cases member
  tables _ member := by cases member
  globals _ member := by cases member
  data _ member := by cases member
  elements _ member := by cases member
  functionTypes group member ty tyMember := by
    rw [List.mem_singleton.mp member] at tyMember
    rw [List.mem_singleton.mp tyMember]
    decide
  functionBodies body member := by
    have onlyEnd : SupportedExpression [.ok .end_] := by
      refine ⟨?_, ?_, ?_⟩
      · intro item itemMember
        exact ⟨.end_, List.mem_singleton.mp itemMember, rfl⟩
      · intro op isLast
        obtain rfl : Operator.end_ = op := by simpa using isLast
        decide
      · intro op behind
        cases behind
    have same : body = { locals := .ok [], operators := .ok [.ok .end_] } := by
      simpa [namedFunctions] using member
    rw [same]
    exact ⟨⟨[], rfl, by simp [SupportedLocals]⟩, _, rfl, onlyEnd⟩

theorem namedFunctions_accepted (first second : String) (getId : Nat → String) :
    Succeeds (translate (namedFunctions first second) getId) := by
  rcases ((namedFunctions_supported first second).entriesSucceed getId).translate with
    ⟨sections, names, definitions, translated, _⟩
  exact ⟨_, translated⟩

theorem namedFunctions_unambiguous :
    DefinitionsUnambiguous Lexicon.core (namedFunctions "f" "g") (fun _ => "0a1b2c3d") := by
  apply (definitionsUnambiguous_iff core_frees (fun _ => isId_sample)
    (namedFunctions_accepted "f" "g" _)).mpr
  have given : ∀ index < (namedFunctions "f" "g").functionBodies.length,
      givenName (namedFunctions "f" "g") index = some (if index = 0 then "f" else "g") := by
    decide
  have fits : ∀ index, Fits Lexicon.core (if index = 0 then "f" else "g") := by
    intro index
    by_cases first : index = 0
    · rw [if_pos first]
      exact ⟨by decide +kernel, by decide⟩
    · rw [if_neg first]
      exact ⟨by decide +kernel, by decide⟩
  refine ⟨⟨by decide +kernel, by decide⟩, .inr ⟨?_, ?_, ?_, ?_⟩⟩
  · intro index inRange name named
    rw [given index inRange] at named
    cases named
    refine ⟨fits index, ?_⟩
    split <;> decide
  · decide
  · intro index inRange unnamed
    rw [given index inRange] at unnamed
    cases unnamed
  · intro index inRange other otherInRange unnamed
    rw [given index inRange] at unnamed
    cases unnamed

/-- Two bodies under one name: the first one is not denoted by its entry. -/
theorem namedFunctions_collide :
    ¬ DefinitionsUnambiguous Lexicon.core (namedFunctions "f" "f") (fun _ => "0a1b2c3d") := by
  intro unambiguous
  have emitted : ∀ body ∈ (namedFunctions "f" "f").functionBodies, Emitted body := by
    intro body member
    have same : body = { locals := .ok [], operators := .ok [.ok .end_] } := by
      simpa [namedFunctions] using member
    rw [same]
    exact ⟨fun _ noLocals => by cases noLocals; simp [SupportedLocals], by decide⟩
  rcases namedFunctions_accepted "f" "f" (fun _ => "0a1b2c3d") with ⟨text, translated⟩
  rcases translateFunctionSection_cases ⟨text, translated⟩ with
    ⟨functionNames, definitions, errors, section_, ⟨_, names⟩ | ⟨⟨body, member, notEmitted⟩, _⟩⟩
  · have collide : functionNames = ["f", "f"] := names
    have distinct := ((unambiguous_iff core_frees _ _).mp
      (unambiguous _ _ _ _ translated section_)).2.2
    rw [collide] at distinct
    exact absurd distinct (by decide)
  · exact notEmitted (emitted body member)

end Inference.WasmToV
