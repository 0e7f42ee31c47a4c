import Inference.Foundation.Decimal
import Inference.TypeChecker.TypeInfo

/-! # Meanings of types

What a type of the syntax tree denotes, without its nodes and its spelling. Type information is made
from the meaning of a type, and some types of different meanings have the same type information.
-/

namespace Inference.TypeChecker

open Inference.Ast Inference.Foundation

/-! ## Meanings -/

inductive BuiltinType where
  | unit
  | bool
  | string
  | number (numberType : NumberType)
deriving DecidableEq, Repr

inductive TypeMeaning where
  | builtin (builtin : BuiltinType)
  | parameter (name : String)
  | named (name : String)
  | applied (base : String) (parameters : List String)
  | member (qualifier name : String)
  | aliased (qualifierAlias name : String)
  | array (element : TypeMeaning) (length : Nat)
  | function (parameters : List TypeMeaning) (returns : TypeMeaning)

namespace BuiltinType

def ofSimple : SimpleTypeKind → BuiltinType
  | .unit => .unit
  | .bool => .bool
  | .i8 => .number .i8
  | .i16 => .number .i16
  | .i32 => .number .i32
  | .i64 => .number .i64
  | .u8 => .number .u8
  | .u16 => .number .u16
  | .u32 => .number .u32
  | .u64 => .number .u64

def all : List (String × BuiltinType) :=
  NumberType.all.map (fun numberType => (numberType.asStr, .number numberType)) ++
    [("unit", .unit), ("bool", .bool), ("string", .string)]

/-- The builtin type with a name, in which the case of the letters makes no difference. -/
def named? (name : String) : Option BuiltinType :=
  (all.find? fun builtin => eqIgnoreAsciiCase builtin.1 name).map (·.2)

def kind : BuiltinType → TypeInfoKind
  | .unit => .unit
  | .bool => .bool
  | .string => .string
  | .number numberType => .number numberType

/-- How a builtin type is displayed. -/
def text : BuiltinType → String
  | .unit => "Unit"
  | .bool => "Bool"
  | .string => "String"
  | .number numberType => numberType.asStr

theorem toString_kind (known : BuiltinType) : known.kind.toString = known.text := by
  cases known <;> rfl

theorem kind_injective {first second : BuiltinType} (equal : first.kind = second.kind) :
    first = second := by
  cases first <;> cases second <;> cases equal <;> rfl

theorem kind_ofSimple (simple : SimpleTypeKind) :
    (ofSimple simple).kind = TypeInfo.typeKindFromSimpleTypeKind simple := by
  cases simple <;> rfl

theorem kind_named? (name : String) :
    (named? name).map kind = TypeInfoKind.fromBuiltinStr name := by
  have isMap : List.find? (fun builtin => eqIgnoreAsciiCase builtin.1 name)
      (NumberType.all.map fun numberType => (numberType.asStr, number numberType)) =
        (NumberType.fromStr name).map fun numberType => (numberType.asStr, number numberType) :=
    List.find?_map
  rw [named?, all, List.find?_append, isMap, TypeInfoKind.fromBuiltinStr]
  cases NumberType.fromStr name with
  | some numberType => rfl
  | none =>
      have others : TypeInfoKind.nonNumericBuiltins =
          [("unit", BuiltinType.unit), ("bool", .bool), ("string", .string)].map
            fun builtin => (builtin.1, builtin.2.kind) := rfl
      rw [others, List.find?_map]
      simp [Function.comp_def]

theorem fromBuiltinStr_ne_custom {text : String} {kind : TypeInfoKind}
    (builtin : TypeInfoKind.fromBuiltinStr text = some kind) (name : String) :
    kind ≠ .custom name := by
  rw [← kind_named?] at builtin
  rcases Option.map_eq_some_iff.mp builtin with ⟨known, _, rfl⟩
  cases known <;> simp [BuiltinType.kind]

end BuiltinType

namespace TypeMeaning

mutual

/-- What a type denotes where the given type parameters are in scope. A function without a declared
return type returns the unit value, and a size that is no number in 32 bits denotes no array. -/
def ofType : Type_ → List String → Option TypeMeaning
  | .simple kind, _ => some (.builtin (.ofSimple kind))
  | .generic _ base parameters, _ => some (.applied base.name (parameters.map (·.name)))
  | .qualifiedName _ qualifier name, _ => some (.member qualifier.name name.name)
  | .qualified _ qualifierAlias name, _ => some (.aliased qualifierAlias.name name.name)
  | .array _ elementType size, typeParamNames => do
      let length ← TypeInfo.extractArraySize size
      let element ← ofType elementType typeParamNames
      return .array element length
  | .function _ parameters returns, typeParamNames => do
      let parameterTypes ← match parameters with
        | some parameters => ofTypes parameters typeParamNames
        | none => some []
      let returnType ← match returns with
        | some returns => ofType returns typeParamNames
        | none => some (.builtin .unit)
      return .function parameterTypes returnType
  | .custom identifier, typeParamNames =>
      if identifier.name ∈ typeParamNames then some (.parameter identifier.name)
      else
        match BuiltinType.named? identifier.name with
        | some known => some (.builtin known)
        | none => some (.named identifier.name)

def ofTypes : List Type_ → List String → Option (List TypeMeaning)
  | [], _ => some []
  | head :: tail, typeParamNames => do
      let headType ← ofType head typeParamNames
      let tailTypes ← ofTypes tail typeParamNames
      return headType :: tailTypes

end

/-- The type information of a type with a meaning. -/
def info : TypeMeaning → TypeInfo
  | .builtin known => ⟨known.kind, []⟩
  | .parameter name => ⟨.generic name, []⟩
  | .named name => ⟨.custom name, []⟩
  | .applied base parameters => ⟨.generic base, parameters⟩
  | .member qualifier name => ⟨.qualifiedName s!"{qualifier}::{name}", []⟩
  | .aliased _ name => ⟨.qualified name, []⟩
  | .array element length => ⟨.array element.info length, []⟩
  | .function parameters returns =>
      ⟨.function s!"Function<{parameters.length}, {returns.info.kind.toString}>", []⟩

mutual

/-- Type information is made from what a type denotes. -/
theorem newWithTypeParams_eq (typeParamNames : List String) (type : Type_) :
    TypeInfo.newWithTypeParams type typeParamNames = (ofType type typeParamNames).map info := by
  match type with
  | .simple kind => simp [TypeInfo.newWithTypeParams, ofType, info, BuiltinType.kind_ofSimple]
  | .generic _ _ _ | .qualifiedName _ _ _ | .qualified _ _ _ => rfl
  | .array _ elementType size =>
      rw [TypeInfo.newWithTypeParams, ofType, newWithTypeParams_eq typeParamNames elementType]
      cases TypeInfo.extractArraySize size <;> cases ofType elementType typeParamNames <;> rfl
  | .function _ none none => rfl
  | .function _ none (some returns) =>
      have returnInfo := newWithTypeParams_eq typeParamNames returns
      cases meaning : ofType returns typeParamNames <;>
        simp [TypeInfo.newWithTypeParams, ofType, returnInfo, meaning, info]
  | .function _ (some parameters) none =>
      rw [TypeInfo.newWithTypeParams, ofType, newAllWithTypeParams_eq typeParamNames parameters]
      cases ofTypes parameters typeParamNames <;> simp [info]; rfl
  | .function _ (some parameters) (some returns) =>
      have parameterInfos := newAllWithTypeParams_eq typeParamNames parameters
      have returnInfo := newWithTypeParams_eq typeParamNames returns
      cases meanings : ofTypes parameters typeParamNames <;>
        cases meaning : ofType returns typeParamNames <;>
        simp [TypeInfo.newWithTypeParams, ofType, parameterInfos, returnInfo, meanings, meaning,
          info]
  | .custom identifier =>
      rw [TypeInfo.newWithTypeParams, ofType]
      split
      · rfl
      · rw [TypeInfo.typeKindFromSimpleType, ← BuiltinType.kind_named?]
        cases BuiltinType.named? identifier.name <;> rfl

theorem newAllWithTypeParams_eq (typeParamNames : List String) (types : List Type_) :
    TypeInfo.newAllWithTypeParams types typeParamNames =
      (ofTypes types typeParamNames).map (List.map info) := by
  match types with
  | [] => rfl
  | head :: tail =>
      rw [TypeInfo.newAllWithTypeParams, ofTypes, newWithTypeParams_eq typeParamNames head,
        newAllWithTypeParams_eq typeParamNames tail]
      cases ofType head typeParamNames <;> cases ofTypes tail typeParamNames <;> rfl

end

/-! ## Types that are taken for each other -/

/-- The parameters of a generic type as they are displayed behind it. -/
def parameterMarks : TypeMeaning → String
  | .applied _ (first :: rest) => " " ++ " ".intercalate ((first :: rest).map (· ++ "'"))
  | _ => ""

/-- How a type is displayed, without the parameters of a generic type. -/
def text : TypeMeaning → String
  | .builtin known => known.text
  | .parameter name | .applied name _ => name ++ "'"
  | .named name | .aliased _ name => name
  | .member qualifier name => s!"{qualifier}::{name}"
  | .array element length => s!"[{element.text ++ element.parameterMarks}; {length}]"
  | .function parameters returns => s!"Function<{parameters.length}, {returns.text}>"

/-- Whether type information tells two types apart. Of the parameters of a function only their
number counts, of its return type only how it is displayed, and the alias in front of a name does
not count. -/
def alike : TypeMeaning → TypeMeaning → Bool
  | .builtin first, .builtin second => first = second
  | .parameter first, .parameter second => first = second
  | .parameter first, .applied second [] | .applied first [], .parameter second => first = second
  | .applied first firstParameters, .applied second secondParameters =>
      first = second && firstParameters = secondParameters
  | .named first, .named second => first = second
  | .member firstQualifier first, .member secondQualifier second =>
      s!"{firstQualifier}::{first}" = s!"{secondQualifier}::{second}"
  | .aliased _ first, .aliased _ second => first = second
  | .array firstElement firstLength, .array secondElement secondLength =>
      firstLength = secondLength && firstElement.alike secondElement
  | .function firstParameters firstReturns, .function secondParameters secondReturns =>
      firstParameters.length = secondParameters.length && firstReturns.text = secondReturns.text
  | _, _ => false

theorem toString_info_of_kind {meaning : TypeMeaning}
    (kindText : meaning.info.kind.toString = meaning.text) :
    meaning.info.toString = meaning.text ++ meaning.parameterMarks := by
  rw [← kindText]
  match meaning with
  | .applied base (first :: rest) =>
      simp only [info, parameterMarks, TypeInfo.toString, String.append_assoc]
  | .applied _ [] | .builtin _ | .parameter _ | .named _ | .member _ _ | .aliased _ _
  | .array _ _ | .function _ _ => simp [info, parameterMarks, TypeInfo.toString]

theorem toString_info_kind (meaning : TypeMeaning) :
    meaning.info.kind.toString = meaning.text := by
  match meaning with
  | .builtin known => exact known.toString_kind
  | .parameter _ | .named _ | .applied _ _ | .member _ _ | .aliased _ _ => rfl
  | .array element length =>
      simp only [info, TypeInfoKind.toString, text,
        toString_info_of_kind (toString_info_kind element)]
  | .function parameters returns =>
      simp only [info, TypeInfoKind.toString, toString_info_kind returns, text]

/-- The number of parameters and the displayed return type can be read back. -/
theorem functionText_inj {firstCount secondCount : Nat} {firstText secondText : String} :
    s!"Function<{firstCount}, {firstText}>" = s!"Function<{secondCount}, {secondText}>" ↔
      firstCount = secondCount ∧ firstText = secondText := by
  constructor
  · intro equal
    have code : PrefixCode fun number : Nat => (toString number).toList ++ [','] :=
      PrefixCode.natural (.of_cons rfl)
    have lists := congrArg String.toList equal
    simp only [String.toList_append, List.append_assoc] at lists
    have counted := List.append_cancel_left lists
    have behind : ∀ (number : Nat) (text : String),
        (toString number).toList ++ ((", ").toList ++ (text.toList ++ (">").toList)) =
          ((toString number).toList ++ [',']) ++ (' ' :: (text.toList ++ ['>'])) := by
      intro number text
      simp
    rcases code firstCount secondCount _ _
      ((behind _ _).symm.trans (counted.trans (behind _ _))) with ⟨sameCount, rest⟩
    refine ⟨sameCount, String.toList_inj.mp ?_⟩
    exact List.append_cancel_right (List.cons.inj rest).2
  · rintro ⟨rfl, rfl⟩
    rfl

theorem info_inj {first second : TypeMeaning} :
    first.info = second.info ↔ first.alike second = true := by
  fun_induction alike first second with
  | case1 first second =>
      simp only [info, TypeInfo.mk.injEq, and_true, decide_eq_true_eq]
      exact ⟨BuiltinType.kind_injective, congrArg _⟩
  | case2 | case3 | case4 | case5 | case6 | case7 | case8 => simp [info]
  | case9 firstElement firstLength secondElement secondLength induction =>
      simp [info, induction, and_comm]
  | case10 =>
      simp only [info, TypeInfo.mk.injEq, TypeInfoKind.function.injEq, and_true, toString_info_kind,
        functionText_inj, Bool.and_eq_true, decide_eq_true_eq]
  | case11 first second =>
      cases first with
      | builtin known => cases known <;> cases second <;> simp_all [info, BuiltinType.kind]
      | applied base parameters =>
          cases second with
          | builtin known => cases known <;> simp_all [info, BuiltinType.kind]
          | _ => cases parameters <;> grind [info]
      | _ =>
          cases second with
          | builtin known => cases known <;> simp_all [info, BuiltinType.kind]
          | applied base parameters => cases parameters <;> grind [info]
          | _ => grind [info]

end TypeMeaning

/-- Two types with different meanings have different type information. -/
def Distinguished (first second : Type_) (typeParamNames : List String) : Prop :=
  ∀ firstMeaning secondMeaning,
    TypeMeaning.ofType first typeParamNames = some firstMeaning →
      TypeMeaning.ofType second typeParamNames = some secondMeaning →
        firstMeaning ≠ secondMeaning →
          TypeInfo.newWithTypeParams first typeParamNames ≠
            TypeInfo.newWithTypeParams second typeParamNames

/-- Type information distinguishes any two types but those that are alike. -/
theorem distinguished_iff (first second : Type_) (typeParamNames : List String) :
    Distinguished first second typeParamNames ↔
      ∀ firstMeaning secondMeaning,
        TypeMeaning.ofType first typeParamNames = some firstMeaning →
          TypeMeaning.ofType second typeParamNames = some secondMeaning →
            firstMeaning.alike secondMeaning = true → firstMeaning = secondMeaning := by
  simp only [Distinguished, TypeMeaning.newWithTypeParams_eq]
  constructor
  · intro distinguished firstMeaning secondMeaning isFirst isSecond alike
    by_contra different
    apply distinguished firstMeaning secondMeaning isFirst isSecond different
    rw [isFirst, isSecond]
    exact congrArg some (TypeMeaning.info_inj.mpr alike)
  · intro same firstMeaning secondMeaning isFirst isSecond different equal
    rw [isFirst, isSecond] at equal
    apply different
    apply same firstMeaning secondMeaning isFirst isSecond
    exact TypeMeaning.info_inj.mp (Option.some.inj equal)

/-- The type of the functions with one parameter that return the unit value. -/
def consumer (parameter : SimpleTypeKind) : Type_ :=
  .function { id := 0, location := {} } (some [.simple parameter]) none

/-- The types of two functions whose parameters have different types are not distinguished. -/
theorem consumers_notDistinguished :
    ¬ Distinguished (consumer .i32) (consumer .bool) [] := by
  intro distinguished
  refine distinguished _ _ rfl rfl ?_ rfl
  intro equal
  cases equal

end Inference.TypeChecker
