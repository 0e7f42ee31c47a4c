import Inference.Codegen.LexicalLowering
import Inference.Codegen.OptimizationBarriers

/-! # Resolution of variables

The generator run beside the lexical lowering. As long as every use agrees the two emit
the same instructions; a use that does not agree leaves a difference behind.
-/

namespace Inference.Codegen

open Inference.Ast Inference.TypeChecker

theorem lookup_map_snd {first second : Type} (change : first → second)
    (entries : List (String × first)) (name : String) :
    (entries.map fun entry => (entry.1, change entry.2)).lookup name =
      (entries.lookup name).map change := by
  induction entries with
  | nil => rfl
  | cons head tail induction =>
      rw [List.map_cons, List.lookup_cons, List.lookup_cons, induction]
      cases name == head.1 <;> rfl

/-! ## Slots of the numbered definitions -/

/-- The slot of a definition, given its number. -/
def slotOf (slots : List Slot) (number : Option Nat) : Option Slot :=
  number.bind (slots[·]?)

theorem slotOf_append {slots : List Slot} {number : Option Nat} (more : List Slot)
    (known : ∀ index ∈ number, index < slots.length) :
    slotOf (slots ++ more) number = slotOf slots number := by
  cases number with
  | none => rfl
  | some index => exact List.getElem?_append_left (known index rfl)

/-- Definitions have different slots. -/
theorem slotOf_injective {slots : List Slot} (distinct : slots.Nodup)
    {first second : Option Nat} (firstKnown : ∀ index ∈ first, index < slots.length)
    (secondKnown : ∀ index ∈ second, index < slots.length) :
    slotOf slots first = slotOf slots second ↔ first = second := by
  refine ⟨?_, fun equal => by rw [equal]⟩
  intro equal
  cases first with
  | none =>
      cases second with
      | none => rfl
      | some index =>
          have known := secondKnown index rfl
          simp [slotOf, List.getElem?_eq_getElem known] at equal
  | some index =>
      have known := firstKnown index rfl
      cases second with
      | none => simp [slotOf, List.getElem?_eq_getElem known] at equal
      | some other => exact congrArg some ((List.getElem?_inj known distinct).mp equal)

/-- The map of the generator holds the slot of the last definition of each name. -/
structure Numbered (latest : List (String × Nat)) (slots : List Slot) (variables_ : Variables) :
    Prop where
  count : latest.length = slots.length
  distinct : slots.Nodup
  lookup : ∀ name, variables_.lookup name = slotOf slots (latest.lookup name)
  known : ∀ name, ∀ index ∈ latest.lookup name, index < slots.length

theorem Numbered.define {latest : List (String × Nat)} {slots : List Slot}
    {variables_ : Variables} (numbered : Numbered latest slots variables_) (name : String)
    {slot : Slot} (fresh : slot ∉ slots) :
    Numbered ((name, latest.length) :: latest) (slots ++ [slot])
      (variables_.insert name slot) := by
  have bound : ∀ other, ∀ index ∈ ((name, latest.length) :: latest).lookup other,
      index < (slots ++ [slot]).length := by
    intro other index found
    rw [List.lookup_cons] at found
    rw [List.length_append, List.length_singleton, ← numbered.count]
    cases same : other == name with
    | true =>
        rw [same] at found
        cases found
        omega
    | false =>
        rw [same] at found
        have known := numbered.known other index found
        rw [← numbered.count] at known
        omega
  refine ⟨?_, ?_, ?_, bound⟩
  · rw [List.length_cons, List.length_append, List.length_singleton, numbered.count]
  · rw [List.nodup_append]
    refine ⟨numbered.distinct, by simp, ?_⟩
    intro one member other otherMember equal
    rw [List.mem_singleton.mp otherMember] at equal
    exact fresh (equal ▸ member)
  · intro other
    rw [List.lookup_cons]
    cases same : other == name with
    | true =>
        rw [eq_of_beq same, AList.lookup_insert, numbered.count]
        simp [slotOf]
    | false =>
        have different : other ≠ name := by
          intro equal
          simp [equal] at same
        rw [AList.lookup_insert_ne different, numbered.lookup other]
        exact (slotOf_append [slot] (numbered.known other)).symm

/-! ## Builders side by side -/

/-- The two builders have emitted the same, and their names hold the slots of the
definitions the reader has read. -/
structure Related (reader : Reader) (slots : List Slot) (builder : Builder Variables)
    (mirror : Builder Scope) : Prop where
  function : mirror.function = builder.function
  instructions : mirror.instructions = builder.instructions
  allocated : ∀ slot ∈ slots, slot.1.function < builder.function ∨
    (slot.1.function = builder.function ∧ slot.1.index < builder.instructions.length)
  numbered : Numbered reader.latest slots builder.variables_
  scope : mirror.variables_ = reader.scope.map fun entry => (entry.1, slotOf slots entry.2)
  known : ∀ entry ∈ reader.scope, ∀ index ∈ entry.2, index < slots.length

namespace Related

variable {reader : Reader} {slots : List Slot} {builder : Builder Variables}
  {mirror : Builder Scope}

theorem innermost_known (related : Related reader slots builder mirror) (name : String) :
    ∀ index ∈ (reader.scope.lookup name).join, index < slots.length := by
  intro index found
  rw [Option.mem_def, Option.join_eq_some_iff] at found
  rcases List.lookup_eq_some_iff.mp found with ⟨before, behind, equal, -⟩
  exact related.known (name, some index) (by simp [equal]) index rfl

theorem mirror_lookup (related : Related reader slots builder mirror) (name : String) :
    (mirror.variables_.lookup name).join = slotOf slots (reader.scope.lookup name).join := by
  rw [related.scope, lookup_map_snd]
  cases reader.scope.lookup name with
  | none => rfl
  | some number => rfl

/-- The two lookups give the same slot exactly when the use agrees. -/
theorem lookup_iff (related : Related reader slots builder mirror) (name : String) :
    builder.variables_.lookup name = (mirror.variables_.lookup name).join ↔
      (reader.use name).Agrees := by
  rw [related.numbered.lookup, related.mirror_lookup]
  exact slotOf_injective related.numbered.distinct (related.numbered.known name)
    (related.innermost_known name)

theorem build (related : Related reader slots builder mirror) (instruction : Instruction) :
    Related reader slots
      { builder with instructions := builder.instructions ++ [instruction] }
      { mirror with instructions := mirror.instructions ++ [instruction] } := by
  refine ⟨related.function, ?_, ?_, related.numbered, related.scope, related.known⟩
  · simp only [related.instructions]
  · intro slot member
    refine (related.allocated slot member).imp id ?_
    rintro ⟨function, index⟩
    refine ⟨function, ?_⟩
    simp only [List.length_append, List.length_singleton]
    omega

end Related

/-- The generator and the lexical lowering side by side: what they emit has the same
shapes, and the lexical one emits the same instructions exactly when the uses agree. -/
structure Simulates {result : Type} (shapes : List Shape) (flat : Lowering Variables result)
    (lexical : Lowering Scope result) (uses : Reader → List Use) (read : Reader → Reader) :
    Prop where
  flatEmits : Emits flat shapes
  lexicalEmits : Emits lexical shapes
  forward : ∀ reader slots builder mirror value after, Related reader slots builder mirror →
    flat builder = some (value, after) → (∀ use ∈ uses reader, use.Agrees) →
      ∃ mirrorAfter more, lexical mirror = some (value, mirrorAfter) ∧
        Related (read reader) (slots ++ more) after mirrorAfter
  backward : ∀ reader slots builder mirror value after mirrorValue mirrorAfter,
    Related reader slots builder mirror → flat builder = some (value, after) →
      lexical mirror = some (mirrorValue, mirrorAfter) →
        mirrorAfter.instructions = after.instructions → ∀ use ∈ uses reader, use.Agrees

/-- Computations that use no names. -/
def SimulatesSilently {result : Type} (shapes : List Shape)
    (flat : Lowering Variables result) (lexical : Lowering Scope result) : Prop :=
  Simulates shapes flat lexical (fun _ => []) id

namespace Simulates

variable {first second : Type} {shapes moreShapes : List Shape}
  {flat : Lowering Variables first} {lexical : Lowering Scope first}
  {flatNext : first → Lowering Variables second} {lexicalNext : first → Lowering Scope second}
  {uses moreUses : Reader → List Use} {read readNext : Reader → Reader}

/-- Prefixes of the same length of one list are the same. -/
theorem middle_instructions {builder middle after : List Instruction}
    {mirrorMiddle mirrorAfter firstAdded secondAdded mirrorFirst mirrorSecond : List Instruction}
    (middleEqual : middle = builder ++ firstAdded) (afterEqual : after = middle ++ secondAdded)
    (mirrorMiddleEqual : mirrorMiddle = builder ++ mirrorFirst)
    (mirrorAfterEqual : mirrorAfter = mirrorMiddle ++ mirrorSecond)
    (firstShapes : firstAdded.map Instruction.shape = shapes)
    (mirrorShapes : mirrorFirst.map Instruction.shape = shapes)
    (same : mirrorAfter = after) : mirrorMiddle = middle := by
  have lengths : mirrorMiddle.length = middle.length := by
    have added := congrArg List.length (mirrorShapes.trans firstShapes.symm)
    rw [List.length_map, List.length_map] at added
    rw [middleEqual, mirrorMiddleEqual, List.length_append, List.length_append, added]
  rw [mirrorAfterEqual, afterEqual] at same
  exact (List.append_inj same lengths).1

theorem bind (simulates : Simulates shapes flat lexical uses read)
    (rest : ∀ value,
      Simulates moreShapes (flatNext value) (lexicalNext value) moreUses readNext) :
    Simulates (shapes ++ moreShapes) (flat >>= flatNext) (lexical >>= lexicalNext)
      (fun reader => uses reader ++ moreUses (read reader))
      (fun reader => readNext (read reader)) := by
  refine ⟨Emits.bind simulates.flatEmits fun value => (rest value).flatEmits,
    Emits.bind simulates.lexicalEmits fun value => (rest value).lexicalEmits, ?_, ?_⟩
  · intro reader slots builder mirror result after related run agrees
    rcases Lowering.bind_eq_some.mp run with ⟨value, middle, firstRun, secondRun⟩
    rcases simulates.forward _ _ _ _ _ _ related firstRun
        (fun use member => agrees use (List.mem_append_left _ member)) with
      ⟨mirrorMiddle, firstSlots, mirrorFirst, middleRelated⟩
    rcases (rest value).forward _ _ _ _ _ _ middleRelated secondRun
        (fun use member => agrees use (List.mem_append_right _ member)) with
      ⟨mirrorAfter, secondSlots, mirrorSecond, afterRelated⟩
    refine ⟨mirrorAfter, firstSlots ++ secondSlots, ?_, ?_⟩
    · exact Lowering.bind_eq_some.mpr ⟨value, mirrorMiddle, mirrorFirst, mirrorSecond⟩
    · rw [← List.append_assoc]
      exact afterRelated
  · intro reader slots builder mirror result after mirrorResult mirrorAfter related run
      mirrorRun same
    rcases Lowering.bind_eq_some.mp run with ⟨value, middle, firstRun, secondRun⟩
    rcases Lowering.bind_eq_some.mp mirrorRun with
      ⟨mirrorValue, mirrorMiddle, mirrorFirst, mirrorSecond⟩
    rcases simulates.flatEmits _ _ _ firstRun with ⟨-, added, middleEqual, addedShapes⟩
    rcases (rest value).flatEmits _ _ _ secondRun with ⟨-, behind, afterEqual, -⟩
    rcases simulates.lexicalEmits _ _ _ mirrorFirst with
      ⟨-, mirrorAdded, mirrorMiddleEqual, mirrorShapes⟩
    rcases (rest mirrorValue).lexicalEmits _ _ _ mirrorSecond with
      ⟨-, mirrorBehind, mirrorAfterEqual, -⟩
    rw [related.instructions] at mirrorMiddleEqual
    have middleSame := middle_instructions middleEqual afterEqual mirrorMiddleEqual
      mirrorAfterEqual addedShapes mirrorShapes same
    have firstAgrees := simulates.backward _ _ _ _ _ _ _ _ related firstRun mirrorFirst
      middleSame
    rcases simulates.forward _ _ _ _ _ _ related firstRun firstAgrees with
      ⟨found, firstSlots, foundRun, middleRelated⟩
    rw [mirrorFirst] at foundRun
    cases foundRun
    intro use member
    rcases List.mem_append.mp member with member | member
    · exact firstAgrees use member
    · exact (rest value).backward _ _ _ _ _ _ _ _ middleRelated secondRun mirrorSecond
        same use member

theorem silently (simulates : Simulates shapes flat lexical uses read)
    (rest : ∀ value, SimulatesSilently moreShapes (flatNext value) (lexicalNext value)) :
    Simulates (shapes ++ moreShapes) (flat >>= flatNext) (lexical >>= lexicalNext)
      uses read := by
  have bound := simulates.bind rest
  simp only [List.append_nil, id] at bound
  exact bound

theorem todo (shapes : List Shape) (uses : Reader → List Use) (read : Reader → Reader) :
    Simulates shapes (todo : Lowering Variables first) todo uses read := by
  refine ⟨Emits.todo _, Emits.todo _, ?_, ?_⟩
  · intro reader slots builder mirror value after related run
    exact absurd run (by simp [Codegen.todo])
  · intro reader slots builder mirror value after mirrorValue mirrorAfter related run
    exact absurd run (by simp [Codegen.todo])

end Simulates

namespace SimulatesSilently

variable {first second : Type} {shapes moreShapes : List Shape}
  {flat : Lowering Variables first} {lexical : Lowering Scope first}
  {flatNext : first → Lowering Variables second} {lexicalNext : first → Lowering Scope second}
  {uses : Reader → List Use} {read : Reader → Reader}

theorem bind (silent : SimulatesSilently shapes flat lexical)
    (rest : ∀ value, Simulates moreShapes (flatNext value) (lexicalNext value) uses read) :
    Simulates (shapes ++ moreShapes) (flat >>= flatNext) (lexical >>= lexicalNext)
      uses read :=
  Simulates.bind silent rest

theorem pure {result : Type} (value : result) :
    SimulatesSilently [] (pure value) (pure value) := by
  refine ⟨Emits.pure _, Emits.pure _, ?_, ?_⟩
  · intro reader slots builder mirror found after related run _
    rcases Lowering.pure_eq_some.mp run with ⟨rfl, rfl⟩
    exact ⟨mirror, [], rfl, by rwa [List.append_nil]⟩
  · intro reader slots builder mirror found after mirrorFound mirrorAfter _ _ _ _ use member
    cases member

theorem build (instruction : Instruction) :
    SimulatesSilently [instruction.shape] (build instruction) (build instruction) := by
  refine ⟨Emits.build _, Emits.build _, ?_, ?_⟩
  · intro reader slots builder mirror place after related run _
    rcases build_eq_some.mp run with ⟨rfl, rfl⟩
    refine ⟨_, [], build_eq_some.mpr ⟨?_, rfl⟩, ?_⟩
    · rw [related.function, related.instructions]
    · rw [List.append_nil]
      exact related.build instruction
  · intro reader slots builder mirror found after mirrorFound mirrorAfter _ _ _ _ use member
    cases member

end SimulatesSilently

/-! ## Statements side by side -/

theorem simulates_lowerLiteral (literal : Literal) :
    SimulatesSilently [] (lowerLiteral literal) (lowerLiteral literal) := by
  cases literal with
  | bool _ _ | number _ _ => exact SimulatesSilently.pure _
  | array _ _ | string _ _ | unit _ => exact Simulates.todo _ _ _

theorem simulates_lowerUzumaki (context : TypedContext) (node : Node) :
    SimulatesSilently [.uzumaki] (lowerUzumaki context node) (lowerUzumaki context node) := by
  rw [lowerUzumaki, lowerUzumaki]
  split
  · exact (SimulatesSilently.build (.call .uzumakiI32 "uz_i32")).bind
      fun place => SimulatesSilently.pure (IntValue.made .i32 place)
  · split
    · exact (SimulatesSilently.build (.call .uzumakiI64 "uz_i64")).bind
        fun place => SimulatesSilently.pure (IntValue.made .i64 place)
    · exact Simulates.todo _ _ _

theorem simulates_buildCall {intrinsic : Option Intrinsic} (kind : BlockKind)
    (marks : startIntrinsic kind = intrinsic ∨ endIntrinsic kind = intrinsic) :
    SimulatesSilently (markerShapes intrinsic) (buildCall intrinsic) (buildCall intrinsic) := by
  cases intrinsic with
  | none => exact SimulatesSilently.pure ()
  | some intrinsic =>
      rw [buildCall, buildCall, markerShapes, Option.toList_some, List.map_singleton,
        ← shape_call kind marks ""]
      exact (SimulatesSilently.build _).bind fun _ => SimulatesSilently.pure ()

theorem simulates_keepTemporary {parents : List BlockType} {first : BlockType}
    (outermost : parents.head? = some first) (value : IntValue) :
    SimulatesSilently (temporaryShapes (keepsTemporary first)) (keepTemporary parents value)
      (keepTemporary parents value) := by
  rw [temporaryShapes, keepsTemporary]
  simp only [keepTemporary, outermost]
  cases first.isNonDet && first.isVoid with
  | false => exact SimulatesSilently.pure ()
  | true =>
      apply (SimulatesSilently.build (.alloca value.type "temp")).bind
      intro pointer
      exact (SimulatesSilently.build (.store pointer value)).bind
        fun _ => SimulatesSilently.pure ()

theorem simulates_buildVoidReturn (definition : FunctionDefinition) :
    SimulatesSilently (voidReturnShapes definition) (buildVoidReturn definition)
      (buildVoidReturn definition) := by
  rw [buildVoidReturn, buildVoidReturn, voidReturnShapes]
  cases definition.isVoid with
  | false => exact SimulatesSilently.pure ()
  | true => exact (SimulatesSilently.build (.ret none)).bind fun _ => SimulatesSilently.pure ()

def loadVariable (found : Slot) (name : String) {names : Type} : Lowering names IntValue := do
  let place ← build (.load found.2 found.1 name)
  pure (.made found.2 place)

theorem loadVariable_instructions {names : Type} {found : Slot} {name : String}
    {builder after : Builder names} {value : IntValue}
    (run : loadVariable found name builder = some (value, after)) :
    after.instructions = builder.instructions ++ [.load found.2 found.1 name] := by
  rcases Lowering.bind_eq_some.mp run with ⟨place, middle, built, ending⟩
  rcases build_eq_some.mp built with ⟨-, rfl⟩
  rcases Lowering.pure_eq_some.mp ending with ⟨-, rfl⟩
  rfl

/-- The load of an identifier is the same exactly when the use agrees. -/
theorem simulates_identifier (context : TypedContext) (identifier : Identifier) :
    Simulates [.other] (lowerExpression context (.identifier identifier))
      (Lexical.lowerExpression context (.identifier identifier))
      (fun reader => [reader.use identifier.name]) id := by
  have flatRun : lowerExpression context (.identifier identifier) =
      lookupVariable identifier.name >>= fun found => loadVariable found identifier.name := rfl
  have lexicalRun : Lexical.lowerExpression context (.identifier identifier) =
      Lexical.lookupVariable identifier.name >>=
        fun found => loadVariable found identifier.name := rfl
  refine ⟨emits_lowerExpression context _, Lexical.emits_lowerExpression context _, ?_, ?_⟩
  · intro reader slots builder mirror value after related run agrees
    have same := (related.lookup_iff identifier.name).mpr (agrees _ List.mem_cons_self)
    rw [flatRun] at run
    rcases Lowering.bind_eq_some.mp run with ⟨found, middle, looked, loaded⟩
    simp only [lookupVariable, Option.map_eq_some_iff, Prod.mk.injEq] at looked
    rcases looked with ⟨slot, present, rfl, rfl⟩
    have silent : SimulatesSilently [.other] (loadVariable slot identifier.name)
        (loadVariable slot identifier.name) :=
      (SimulatesSilently.build (.load slot.2 slot.1 identifier.name)).bind
        fun place => SimulatesSilently.pure (IntValue.made slot.2 place)
    rcases silent.forward _ _ _ _ _ _ related loaded (by simp) with
      ⟨mirrorAfter, more, mirrorLoaded, relatedAfter⟩
    refine ⟨mirrorAfter, more, ?_, relatedAfter⟩
    rw [lexicalRun]
    refine Lowering.bind_eq_some.mpr ⟨slot, mirror, ?_, mirrorLoaded⟩
    rw [Lexical.lookupVariable, ← same, present]
    rfl
  · intro reader slots builder mirror value after mirrorValue mirrorAfter related run mirrorRun
      same use member
    rw [List.mem_singleton] at member
    rw [member, ← related.lookup_iff]
    rw [flatRun] at run
    rw [lexicalRun] at mirrorRun
    rcases Lowering.bind_eq_some.mp run with ⟨found, middle, looked, loaded⟩
    rcases Lowering.bind_eq_some.mp mirrorRun with ⟨mirrorFound, _, mirrorLooked, mirrorLoaded⟩
    simp only [lookupVariable, Option.map_eq_some_iff, Prod.mk.injEq] at looked
    simp only [Lexical.lookupVariable, Option.map_eq_some_iff, Prod.mk.injEq] at mirrorLooked
    rcases looked with ⟨slot, present, rfl, rfl⟩
    rcases mirrorLooked with ⟨mirrorSlot, mirrorPresent, rfl, rfl⟩
    rw [present, mirrorPresent]
    rw [loadVariable_instructions loaded, loadVariable_instructions mirrorLoaded,
      related.instructions] at same
    have loads := List.append_cancel_left same
    simp only [List.cons.injEq, Instruction.load.injEq, and_true] at loads
    exact congrArg some (Prod.ext loads.2.symm loads.1.symm)

theorem simulates_lowerExpression (context : TypedContext) (expression : Expression) :
    Simulates (expressionShapes expression) (lowerExpression context expression)
      (Lexical.lowerExpression context expression)
      (fun reader => reader.uses expression) id := by
  cases expression with
  | literal literal => exact simulates_lowerLiteral literal
  | identifier identifier => exact simulates_identifier context identifier
  | uzumaki node => exact simulates_lowerUzumaki context node
  | _ => exact Simulates.todo _ _ _

/-- A new definition gets a new slot. -/
theorem Related.define {reader : Reader} {slots : List Slot} {builder : Builder Variables}
    {mirror : Builder Scope} (related : Related reader slots builder mirror) (name : String)
    (value : IntValue) {slot : Slot}
    (made : slot = (⟨builder.function, builder.instructions.length⟩, .i32)) :
    Related (reader.define name) (slots ++ [slot])
      { builder with
        instructions := builder.instructions ++ [.alloca .i32 name, .store slot.1 value]
        variables_ := builder.variables_.insert name slot }
      { mirror with
        instructions := mirror.instructions ++ [.alloca .i32 name, .store slot.1 value]
        variables_ := (name, some slot) :: mirror.variables_ } := by
  have fresh : slot ∉ slots := by
    intro member
    have allocated := related.allocated slot member
    rw [made] at allocated
    simp at allocated
  have count := related.numbered.count
  refine ⟨related.function, ?_, ?_, related.numbered.define name fresh, ?_, ?_⟩
  · simp only [related.instructions]
  · intro other member
    simp only [List.length_append, List.length_cons, List.length_nil]
    rcases List.mem_append.mp member with member | member
    · refine (related.allocated other member).imp id ?_
      rintro ⟨function, index⟩
      exact ⟨function, by omega⟩
    · rw [List.mem_singleton.mp member, made]
      exact .inr ⟨rfl, by simp⟩
  · have newest : slotOf (slots ++ [slot]) (some reader.latest.length) = some slot := by
      simp [slotOf, count]
    have others : reader.scope.map (fun entry => (entry.1, slotOf (slots ++ [slot]) entry.2)) =
        reader.scope.map fun entry => (entry.1, slotOf slots entry.2) := by
      apply List.map_congr_left
      intro entry member
      rw [slotOf_append [slot] (related.known entry member)]
    simp only [Reader.define, List.map_cons, newest, others, related.scope]
  · intro entry member index found
    rw [List.length_append, List.length_singleton]
    rcases List.mem_cons.mp member with rfl | member
    · cases found
      omega
    · have known := related.known entry member index found
      omega

/-- A constant is lowered to an alloca and a store, whatever the names are kept in. -/
theorem lowerConstant_cases (context : TypedContext) (definition : ConstantDefinition) :
    (∃ value : IntValue,
      lowerConstant context definition = (do
        let pointer ← build (.alloca .i32 definition.name.name)
        let _ ← build (.store pointer value)
        insertVariable definition.name.name pointer .i32) ∧
      Lexical.lowerConstant context definition = (do
        let pointer ← build (.alloca .i32 definition.name.name)
        let _ ← build (.store pointer value)
        Lexical.declare definition.name.name (some (pointer, .i32)))) ∨
    lowerConstant context definition = todo := by
  rw [lowerConstant, Lexical.lowerConstant]
  generalize (context.getNodeTypeinfo definition.id).map TypeInfo.kind = kind
  generalize definition.value = literal
  split
  · cases literal with
    | number node text => exact .inl ⟨_, rfl, rfl⟩
    | _ => exact .inr rfl
  · exact .inr rfl

theorem storeConstant_run {names : Type} (name : String) (value : IntValue)
    (finish : Place → Lowering names Unit) (builder : Builder names) :
    (do
      let pointer ← build (.alloca .i32 name)
      let _ ← build (.store pointer value)
      finish pointer) builder =
    finish ⟨builder.function, builder.instructions.length⟩
      { builder with
        instructions := builder.instructions ++ [.alloca .i32 name,
          .store ⟨builder.function, builder.instructions.length⟩ value] } := by
  rw [← List.singleton_append, ← List.append_assoc]
  rfl

theorem simulates_lowerConstant (context : TypedContext) (definition : ConstantDefinition) :
    Simulates [.other, .other] (lowerConstant context definition)
      (Lexical.lowerConstant context definition) (fun _ => [])
      (fun reader => reader.define definition.name.name) := by
  refine ⟨emits_lowerConstant context definition,
    Lexical.emits_lowerConstant context definition, ?_, ?_⟩
  · intro reader slots builder mirror value after related run _
    rcases lowerConstant_cases context definition with ⟨stored, flatEqual, lexicalEqual⟩ | stuck
    · rw [flatEqual, storeConstant_run] at run
      rw [lexicalEqual, storeConstant_run]
      cases run
      have defined := related.define definition.name.name stored rfl
      rw [← related.function, ← related.instructions] at defined ⊢
      exact ⟨_, _, rfl, defined⟩
    · rw [stuck] at run
      exact absurd run (by simp [todo])
  · intro reader slots builder mirror value after mirrorValue mirrorAfter _ _ _ _ use member
    cases member

/-- A variable is not lowered, but its name is declared without a slot. -/
theorem simulates_variableDefinition (name : String) :
    Simulates [] (pure ()) (Lexical.declare name none) (fun _ => [])
      (fun reader => reader.hide name) := by
  refine ⟨Emits.pure (), Lexical.emits_declare name none, ?_, ?_⟩
  · intro reader slots builder mirror value after related run _
    rcases Lowering.pure_eq_some.mp run with ⟨rfl, rfl⟩
    refine ⟨_, [], rfl, ?_⟩
    rw [List.append_nil]
    refine ⟨related.function, related.instructions, related.allocated, related.numbered,
      ?_, ?_⟩
    · simp only [Reader.hide, List.map_cons, related.scope]
      rfl
    · intro entry member index found
      rcases List.mem_cons.mp member with rfl | member
      · cases found
      · exact related.known entry member index found
  · intro reader slots builder mirror value after mirrorValue mirrorAfter _ _ _ _ use member
    cases member

theorem Simulates.inScope {shapes : List Shape} {flat : Lowering Variables Unit}
    {lexical : Lowering Scope Unit} {uses : Reader → List Use} {read : Reader → Reader}
    (simulates : Simulates shapes flat lexical uses read) :
    Simulates shapes flat (Lexical.inScope lexical) uses
      (fun reader => (read reader).leave reader) := by
  refine ⟨simulates.flatEmits, Lexical.Emits.inScope simulates.lexicalEmits, ?_, ?_⟩
  · intro reader slots builder mirror value after related run agrees
    rcases simulates.forward _ _ _ _ _ _ related run agrees with
      ⟨mirrorAfter, more, mirrorRun, relatedAfter⟩
    refine ⟨{ mirrorAfter with variables_ := mirror.variables_ }, more, ?_, ?_⟩
    · rw [Lexical.inScope, mirrorRun]
      rfl
    · refine ⟨relatedAfter.function, relatedAfter.instructions, relatedAfter.allocated,
        relatedAfter.numbered, ?_, ?_⟩
      · simp only [Reader.leave, related.scope]
        apply List.map_congr_left
        intro entry member
        rw [slotOf_append more (related.known entry member)]
      · intro entry member index found
        rw [List.length_append]
        exact Nat.lt_add_right _ (related.known entry member index found)
  · intro reader slots builder mirror value after mirrorValue mirrorAfter related run
      mirrorRun same
    simp only [Lexical.inScope, Option.map_eq_some_iff] at mirrorRun
    rcases mirrorRun with ⟨⟨⟨⟩, inside⟩, innerRun, equal⟩
    cases equal
    exact simulates.backward _ _ _ _ _ _ _ _ related run innerRun same

mutual

theorem simulates_lowerStatement (context : TypedContext) {parents : List BlockType}
    {first : BlockType} (outermost : parents.head? = some first) : ∀ statement : Statement,
    Simulates (statementShapes (keepsTemporary first) statement)
      (lowerStatement context parents statement)
      (Lexical.lowerStatement context parents statement)
      (fun reader => reader.statementUses statement) (fun reader => reader.read statement)
  | .block (.mk kind node statements) => by
      have outermostInside : (parents ++ [BlockType.mk kind node statements]).head? =
          some first := by
        simp [outermost]
      have inner := simulates_lowerStatements context outermostInside statements
      rw [lowerStatement, Lexical.lowerStatement, statementShapes, List.append_assoc]
      apply (simulates_buildCall kind (.inl rfl)).bind
      intro _
      simp only [Reader.statementUses, Reader.read]
      apply inner.inScope.silently
      intro _
      exact simulates_buildCall kind (.inr rfl)
  | .expression expression => by
      rw [lowerStatement, Lexical.lowerStatement, statementShapes]
      simp only [Reader.statementUses, Reader.read]
      apply (simulates_lowerExpression context expression).silently
      intro value
      exact simulates_keepTemporary outermost value
  | .return_ _ expression => by
      rw [lowerStatement, Lexical.lowerStatement, statementShapes]
      simp only [Reader.statementUses, Reader.read]
      apply (simulates_lowerExpression context expression).silently
      intro value
      exact (SimulatesSilently.build (.ret (some value))).bind
        fun _ => SimulatesSilently.pure ()
  | .constantDefinition definition => by
      rw [lowerStatement, Lexical.lowerStatement, statementShapes]
      simp only [Reader.statementUses, Reader.read]
      exact simulates_lowerConstant context definition
  | .variableDefinition _ name _ _ => by
      rw [lowerStatement, Lexical.lowerStatement, statementShapes]
      simp only [Reader.statementUses, Reader.read]
      exact simulates_variableDefinition name.name
  | .assign _ _ _ => Simulates.todo _ _ _
  | .loop _ _ _ => Simulates.todo _ _ _
  | .break_ _ => Simulates.todo _ _ _
  | .if_ _ _ _ _ => Simulates.todo _ _ _
  | .typeDefinition _ _ _ => Simulates.todo _ _ _
  | .assert _ _ => Simulates.todo _ _ _

theorem simulates_lowerStatements (context : TypedContext) {parents : List BlockType}
    {first : BlockType} (outermost : parents.head? = some first) :
    ∀ statements : List Statement,
    Simulates (statementListShapes (keepsTemporary first) statements)
      (lowerStatements context parents statements)
      (Lexical.lowerStatements context parents statements)
      (fun reader => reader.statementListUses statements)
      (fun reader => reader.readAll statements)
  | [] => by
      rw [lowerStatements, Lexical.lowerStatements, statementListShapes]
      simp only [Reader.statementListUses, Reader.readAll]
      exact SimulatesSilently.pure ()
  | head :: tail => by
      rw [lowerStatements, Lexical.lowerStatements, statementListShapes]
      simp only [Reader.statementListUses, Reader.readAll]
      exact (simulates_lowerStatement context outermost head).bind
        fun _ => simulates_lowerStatements context outermost tail

end

theorem simulates_lowerBody (context : TypedContext) (definition : FunctionDefinition) :
    Simulates (functionShapes definition) (lowerBody context definition)
      (Lexical.lowerBody context definition)
      (fun reader => reader.statementUses (.block definition.body))
      (fun reader => reader.read (.block definition.body)) := by
  rw [lowerBody, Lexical.lowerBody, functionShapes]
  apply (simulates_lowerStatement context rfl (.block definition.body)).silently
  intro _
  exact simulates_buildVoidReturn definition

/-! ## Functions side by side -/

/-- The slots of the functions compiled so far. -/
structure Compiled (latest : List (String × Nat)) (slots : List Slot) (compiler : Compiler) :
    Prop where
  numbered : Numbered latest slots compiler.variables_
  allocated : ∀ slot ∈ slots, slot.1.function < compiler.functions.length

variable {compiler : Compiler}

theorem Compiled.entered {reader : Reader} {slots : List Slot}
    (compiled : Compiled reader.latest slots compiler) (definition : FunctionDefinition) :
    Related (reader.enter definition) slots
      { function := compiler.functions.length, variables_ := compiler.variables_ }
      { function := compiler.functions.length
        variables_ := (Lexical.parameterNames definition).map fun name => (name, none) } := by
  refine ⟨rfl, rfl, fun slot member => .inl (compiled.allocated slot member),
    compiled.numbered, ?_, ?_⟩
  · rw [Reader.enter, List.map_map]
    rfl
  · intro entry member index found
    rcases List.mem_map.mp member with ⟨name, -, rfl⟩
    cases found

variable {after : Compiler}

/-- What a visit does to the compiler, and its lexical counterpart. -/
theorem visit_side_by_side {context : TypedContext} {definition : FunctionDefinition}
    {reader : Reader} {slots : List Slot} (compiled : Compiled reader.latest slots compiler)
    (run : visitFunctionDefinition context definition compiler = some after) :
    ((∀ use ∈ (reader.enter definition).statementUses (.block definition.body), use.Agrees) →
      Lexical.visitFunctionDefinition context definition compiler.functions =
          some after.functions ∧
        ∃ more, Compiled ((reader.enter definition).read (.block definition.body)).latest
          (slots ++ more) after) ∧
    (Lexical.visitFunctionDefinition context definition compiler.functions =
        some after.functions →
      ∀ use ∈ (reader.enter definition).statementUses (.block definition.body),
        use.Agrees) := by
  have related := compiled.entered definition
  have simulates := simulates_lowerBody context definition
  simp only [visitFunctionDefinition, Option.bind_eq_bind, Option.bind_eq_some_iff,
    Option.pure_def, Option.some.injEq] at run
  rcases run with ⟨returnType, typed, ⟨⟨⟩, builder⟩, lowered, rfl⟩
  constructor
  · intro agrees
    rcases simulates.forward _ _ _ _ _ _ related lowered agrees with
      ⟨mirror, more, mirrorRun, relatedAfter⟩
    refine ⟨?_, more, relatedAfter.numbered, ?_⟩
    · simp only [Lexical.visitFunctionDefinition, typed, mirrorRun, Option.bind_eq_bind,
        Option.bind_some, Option.pure_def, relatedAfter.instructions]
    · intro slot member
      have same : builder.function = compiler.functions.length :=
        (simulates.flatEmits _ _ _ lowered).1
      rw [List.length_append, List.length_singleton]
      rcases relatedAfter.allocated slot member with before | ⟨inside, -⟩
      · omega
      · omega
  · intro lexicalRun
    simp only [Lexical.visitFunctionDefinition, typed, Option.bind_eq_bind, Option.bind_some,
      Option.bind_eq_some_iff, Option.pure_def, Option.some.injEq] at lexicalRun
    rcases lexicalRun with ⟨⟨⟨⟩, mirror⟩, mirrorRun, equal⟩
    have values := List.append_cancel_left equal
    simp only [functionValue, List.cons.injEq, and_true, FunctionValue.mk.injEq,
      BasicBlock.mk.injEq, true_and] at values
    exact simulates.backward _ _ _ _ _ _ _ _ related lowered mirrorRun values

theorem Lexical.visit_added {context : TypedContext} {definition : FunctionDefinition}
    {functions after : List FunctionValue}
    (run : Lexical.visitFunctionDefinition context definition functions = some after) :
    ∃ function, after = functions ++ [function] := by
  simp only [Lexical.visitFunctionDefinition, Option.bind_eq_bind, Option.bind_eq_some_iff,
    Option.pure_def, Option.some.injEq] at run
  rcases run with ⟨returnType, -, ⟨⟨⟩, builder⟩, -, rfl⟩
  exact ⟨_, rfl⟩

variable {definitions : List FunctionDefinition}

theorem Lexical.visits_added {context : TypedContext} {functions after : List FunctionValue}
    (run : Lexical.visitFunctionDefinitions context definitions functions = some after) :
    ∃ added, after = functions ++ added := by
  induction definitions generalizing functions with
  | nil =>
      cases run
      exact ⟨[], by simp⟩
  | cons head tail induction =>
      simp only [Lexical.visitFunctionDefinitions, Option.bind_eq_bind,
        Option.bind_eq_some_iff] at run
      rcases run with ⟨middle, headRun, tailRun⟩
      rcases Lexical.visit_added headRun with ⟨function, rfl⟩
      rcases induction tailRun with ⟨added, rfl⟩
      exact ⟨function :: added, by simp⟩

theorem visits_added {context : TypedContext}
    (run : visitFunctionDefinitions context definitions compiler = some after) :
    ∃ added, after.functions = compiler.functions ++ added := by
  induction definitions generalizing compiler with
  | nil =>
      cases run
      exact ⟨[], by simp⟩
  | cons head tail induction =>
      simp only [visitFunctionDefinitions, Option.bind_eq_bind,
        Option.bind_eq_some_iff] at run
      rcases run with ⟨middle, headRun, tailRun⟩
      rcases visitFunctionDefinition_ok headRun with ⟨function, -, headAdded, -⟩
      rcases induction tailRun with ⟨added, tailAdded⟩
      exact ⟨function :: added, by rw [tailAdded, headAdded]; simp⟩

theorem visits_side_by_side {context : TypedContext}
    {reader : Reader} {slots : List Slot} (compiled : Compiled reader.latest slots compiler)
    (run : visitFunctionDefinitions context definitions compiler = some after) :
    Lexical.visitFunctionDefinitions context definitions compiler.functions =
        some after.functions ↔
      ∀ use ∈ reader.functionUses definitions, use.Agrees := by
  induction definitions generalizing compiler reader slots with
  | nil =>
      cases run
      simp [Lexical.visitFunctionDefinitions, Reader.functionUses]
  | cons head tail induction =>
      simp only [visitFunctionDefinitions, Option.bind_eq_bind,
        Option.bind_eq_some_iff] at run
      rcases run with ⟨middle, headRun, tailRun⟩
      have headSide := visit_side_by_side compiled headRun
      simp only [Lexical.visitFunctionDefinitions, Option.bind_eq_bind,
        Option.bind_eq_some_iff, Reader.functionUses]
      constructor
      · rintro ⟨functions, lexicalHead, lexicalTail⟩
        have same : functions = middle.functions := by
          rcases Lexical.visit_added lexicalHead with ⟨lexicalFunction, rfl⟩
          rcases Lexical.visits_added lexicalTail with ⟨lexicalRest, lexicalEqual⟩
          rcases visitFunctionDefinition_ok headRun with ⟨function, -, added, -⟩
          rcases visits_added tailRun with ⟨rest, equal⟩
          rw [equal, added, List.append_assoc, List.append_assoc] at lexicalEqual
          have heads := List.append_cancel_left lexicalEqual
          rw [added, (List.cons.inj heads).1]
        rw [same] at lexicalHead lexicalTail
        have headAgrees := headSide.2 lexicalHead
        rcases (headSide.1 headAgrees).2 with ⟨more, compiledAfter⟩
        have tailAgrees := (induction compiledAfter tailRun).mp lexicalTail
        intro use member
        exact (List.mem_append.mp member).elim (headAgrees use) (tailAgrees use)
      · intro agrees
        have headAgrees := fun use member => agrees use (List.mem_append_left _ member)
        rcases headSide.1 headAgrees with ⟨lexicalHead, more, compiledAfter⟩
        have tailRunLexical := (induction compiledAfter tailRun).mpr
          fun use member => agrees use (List.mem_append_right _ member)
        exact ⟨middle.functions, lexicalHead, tailRunLexical⟩

theorem Compiled.initial : Compiled [] [] {} := by
  refine ⟨⟨rfl, List.nodup_nil, ?_, ?_⟩, ?_⟩
  · intro name
    rfl
  · intro name index found
    cases found
  · intro slot member
    cases member

/-- Every identifier is lowered to a load from the slot of the innermost definition
exactly when the last definition compiled under its name always is that one. -/
theorem variablesResolved_iff {context : TypedContext} {definitions : List FunctionDefinition}
    {compiler : Compiler}
    (run : visitFunctionDefinitions context definitions {} = some compiler) :
    Lexical.visitFunctionDefinitions context definitions [] = some compiler.functions ↔
      LatestIsInnermost definitions :=
  visits_side_by_side Compiled.initial run

/-- `fn f() -> i32 { { const x: i32 = 1; return x; } const x: i32 = 2; return x; }` -/
def usedInPlace : FunctionDefinition where
  id := 1
  name := { id := 2, name := "f" }
  returns := some (.simple .i32)
  body := .mk .block { id := 3 }
    [.block (.mk .block { id := 4 }
      [.constantDefinition
        { id := 5, name := { id := 6, name := "x" }, ty := .simple .i32,
          value := .number { id := 7 } "1" },
      .return_ { id := 8 } (.identifier { id := 9, name := "x" })]),
    .constantDefinition
      { id := 10, name := { id := 11, name := "x" }, ty := .simple .i32,
        value := .number { id := 12 } "2" },
    .return_ { id := 13 } (.identifier { id := 14, name := "x" })]

/-- `fn g() -> i32 { const x: i32 = 3; { return x; } }` -/
def usedBelow : FunctionDefinition where
  id := 15
  name := { id := 16, name := "g" }
  returns := some (.simple .i32)
  body := .mk .block { id := 17 }
    [.constantDefinition
      { id := 18, name := { id := 19, name := "x" }, ty := .simple .i32,
        value := .number { id := 20 } "3" },
    .block (.mk .block { id := 21 }
      [.return_ { id := 22 } (.identifier { id := 23, name := "x" })])]

theorem usedInPlace_resolved :
    ∃ compiler, visitFunctionDefinitions contextOfI32 [usedInPlace, usedBelow] {} =
        some compiler ∧
      Lexical.visitFunctionDefinitions contextOfI32 [usedInPlace, usedBelow] [] =
        some compiler.functions := by
  have completes :
      (visitFunctionDefinitions contextOfI32 [usedInPlace, usedBelow] {}).isSome = true := by
    decide +kernel
  rcases Option.isSome_iff_exists.mp completes with ⟨compiler, run⟩
  refine ⟨compiler, run, (variablesResolved_iff run).mpr ?_⟩
  unfold LatestIsInnermost Use.Agrees
  decide +kernel

/-- `fn f() -> i32 { const x: i32 = 1; { const x: i32 = 2; } return x; }` -/
def shadowedInBlock : FunctionDefinition where
  id := 1
  name := { id := 2, name := "f" }
  returns := some (.simple .i32)
  body := .mk .block { id := 3 }
    [.constantDefinition
      { id := 4, name := { id := 5, name := "x" }, ty := .simple .i32,
        value := .number { id := 6 } "1" },
    .block (.mk .block { id := 7 }
      [.constantDefinition
        { id := 8, name := { id := 9, name := "x" }, ty := .simple .i32,
          value := .number { id := 10 } "2" }]),
    .return_ { id := 11 } (.identifier { id := 12, name := "x" })]

/-- The program is type-checked, lowered, and its code is not the lexical one. -/
def lowersOtherwise (program : Program) : Bool :=
  match buildTypedContext program with
  | some (.ok context) =>
      match codegen context with
      | some compiler =>
          decide (Lexical.visitFunctionDefinitions context
            (program.flatMap SourceFile.functionDefinitions) [] ≠ some compiler.functions)
      | none => false
  | _ => false

/-- The return loads the constant of the block that has ended. -/
theorem shadowedInBlock_notResolved :
    ∃ context compiler,
      buildTypedContext [{ definitions := [.function shadowedInBlock] }] = some (.ok context) ∧
        codegen context = some compiler ∧
        Lexical.visitFunctionDefinitions context [shadowedInBlock] [] ≠
          some compiler.functions := by
  have otherwise : lowersOtherwise [{ definitions := [.function shadowedInBlock] }] = true := by
    decide +kernel
  rw [lowersOtherwise] at otherwise
  split at otherwise
  next context checked =>
    split at otherwise
    next compiler compiled =>
      exact ⟨context, compiler, checked, compiled, of_decide_eq_true otherwise⟩
    next => cases otherwise
  next => cases otherwise

end Inference.Codegen
