import Mathlib.Data.List.Basic
import Mathlib.Data.List.Chain

/-! # Prefix codes

An encoding whose words never run into each other: when two words followed by
arbitrary remainders are equal, the encoded values and the remainders are equal.
Such encodings compose, so the injectivity of a long text follows from the
shape of its pieces.
-/

namespace Inference.Foundation

/-! ## Diverging words -/

/-- Two words that differ at some position, the first one having the smaller
symbol there. Neither is a prefix of the other. -/
inductive DivergesBelow {σ : Type u} [LT σ] : List σ → List σ → Prop
  | here (below : first < second) :
      DivergesBelow (first :: firstRest) (second :: secondRest)
  | there (rest : DivergesBelow firstRest secondRest) :
      DivergesBelow (symbol :: firstRest) (symbol :: secondRest)

namespace DivergesBelow

/-- Executable form of `DivergesBelow`. -/
def check {σ : Type u} [LT σ] [DecidableEq σ] [DecidableLT σ] :
    List σ → List σ → Bool
  | first :: firstRest, second :: secondRest =>
      if first = second then check firstRest secondRest else decide (first < second)
  | _, _ => false

theorem of_check {σ : Type u} [LT σ] [DecidableEq σ] [DecidableLT σ]
    {first second : List σ} (checked : check first second = true) :
    DivergesBelow first second := by
  induction first generalizing second with
  | nil => simp [check] at checked
  | cons symbol rest induction =>
      cases second with
      | nil => simp [check] at checked
      | cons otherSymbol otherRest =>
          by_cases same : symbol = otherSymbol
          · subst same
            exact .there (induction (by simpa [check] using checked))
          · exact .here (by simpa [check, same] using checked)

theorem trans {σ : Type u} [Preorder σ] {first second third : List σ}
    (lower : DivergesBelow first second) (upper : DivergesBelow second third) :
    DivergesBelow first third := by
  induction lower generalizing third with
  | here below =>
      cases upper with
      | here above => exact .here (lt_trans below above)
      | there _ => exact .here below
  | there _ induction =>
      cases upper with
      | here above => exact .here above
      | there rest => exact .there (induction rest)

/-- Diverging words stay different whatever follows them. -/
theorem append_ne {σ : Type u} [Preorder σ] {first second : List σ}
    (diverges : DivergesBelow first second) (firstRest secondRest : List σ) :
    first ++ firstRest ≠ second ++ secondRest := by
  intro equal
  induction diverges with
  | here below =>
      have symbols := (List.cons.inj equal).1
      exact absurd below (by simp [symbols])
  | there _ induction => exact induction (List.cons.inj equal).2

end DivergesBelow

/-! ## Prefix codes -/

/-- Two encoded words followed by remainders are equal only when both the
values and the remainders are. -/
def PrefixCode {α : Type u} {σ : Type v} (encode : α → List σ) : Prop :=
  ∀ first second firstRest secondRest,
    encode first ++ firstRest = encode second ++ secondRest →
      first = second ∧ firstRest = secondRest

namespace PrefixCode

/-- A single value needs no text at all. -/
theorem constant {α : Type u} {σ : Type v} [Subsingleton α] (word : List σ) :
    PrefixCode (fun _ : α => word) := by
  intro first second firstRest secondRest equal
  exact ⟨Subsingleton.elim first second, List.append_cancel_left equal⟩

/-- A fixed word may be put in front of every encoding. -/
theorem prepend {α : Type u} {σ : Type v} {encode : α → List σ}
    (word : List σ) (code : PrefixCode encode) :
    PrefixCode (fun value => word ++ encode value) := by
  intro first second firstRest secondRest equal
  rw [List.append_assoc, List.append_assoc] at equal
  exact code first second firstRest secondRest (List.append_cancel_left equal)

/-- A fixed word may be put behind every encoding. -/
theorem append {α : Type u} {σ : Type v} {encode : α → List σ}
    (code : PrefixCode encode) (word : List σ) :
    PrefixCode (fun value => encode value ++ word) := by
  intro first second firstRest secondRest equal
  rw [List.append_assoc, List.append_assoc] at equal
  obtain ⟨same, rest⟩ := code first second _ _ equal
  exact ⟨same, List.append_cancel_left rest⟩

/-- Two codes one after the other. -/
theorem pair {α : Type u} {β : Type w} {σ : Type v}
    {encodeFirst : α → List σ} {encodeSecond : β → List σ}
    (firstCode : PrefixCode encodeFirst) (secondCode : PrefixCode encodeSecond) :
    PrefixCode (fun value : α × β => encodeFirst value.1 ++ encodeSecond value.2) := by
  intro first second firstRest secondRest equal
  rw [List.append_assoc, List.append_assoc] at equal
  obtain ⟨sameFirst, afterFirst⟩ := firstCode first.1 second.1 _ _ equal
  obtain ⟨sameSecond, rest⟩ := secondCode first.2 second.2 _ _ afterFirst
  exact ⟨Prod.ext sameFirst sameSecond, rest⟩

/-- Keys whose words diverge when they differ, each followed by a code of its own. -/
theorem keyed_cancel {κ : Type u} {α : κ → Type w} {σ : Type v} [Preorder σ]
    {head : κ → List σ} {encode : (key : κ) → α key → List σ}
    (codes : ∀ key, PrefixCode (encode key)) {first second : (key : κ) × α key}
    (heads : first.1 ≠ second.1 →
      DivergesBelow (head first.1) (head second.1) ∨ DivergesBelow (head second.1) (head first.1))
    {firstRest secondRest : List σ}
    (equal : head first.1 ++ (encode first.1 first.2 ++ firstRest) =
      head second.1 ++ (encode second.1 second.2 ++ secondRest)) :
    first = second ∧ firstRest = secondRest := by
  obtain ⟨firstKey, first⟩ := first
  obtain ⟨secondKey, second⟩ := second
  have sameKey : firstKey = secondKey := by
    by_contra different
    rcases heads different with below | above
    · exact below.append_ne _ _ equal
    · exact above.append_ne _ _ equal.symm
  subst sameKey
  obtain ⟨same, rest⟩ := codes firstKey first second _ _ (List.append_cancel_left equal)
  exact ⟨by rw [same], rest⟩

/-- A list of encoded elements closed by a word that no element can start with. -/
theorem list {α : Type u} {σ : Type v} {encode : α → List σ} {closing : List σ}
    (code : PrefixCode encode)
    (closed : ∀ value firstRest secondRest,
      encode value ++ firstRest ≠ closing ++ secondRest) :
    PrefixCode (fun values : List α => values.flatMap encode ++ closing) := by
  intro first
  induction first with
  | nil =>
      intro second firstRest secondRest equal
      cases second with
      | nil => exact ⟨rfl, by simpa using equal⟩
      | cons head tail =>
          simp only [List.flatMap_nil, List.nil_append, List.flatMap_cons,
            List.append_assoc] at equal
          exact absurd equal.symm (closed _ _ _)
  | cons firstHead firstTail induction =>
      intro second firstRest secondRest equal
      cases second with
      | nil =>
          simp only [List.flatMap_nil, List.nil_append, List.flatMap_cons,
            List.append_assoc] at equal
          exact absurd equal (closed _ _ _)
      | cons secondHead secondTail =>
          simp only [List.flatMap_cons, List.append_assoc] at equal
          obtain ⟨sameHead, tails⟩ := code firstHead secondHead _ _ equal
          obtain ⟨sameTail, rest⟩ := induction secondTail firstRest secondRest
            (by simpa only [List.append_assoc] using tails)
          exact ⟨by rw [sameHead, sameTail], rest⟩

end PrefixCode

/-- In a list of keys whose words are sorted by divergence, any two different
keys have diverging words. -/
theorem diverges_of_sorted {κ : Type u} {σ : Type v} [Preorder σ]
    {head : κ → List σ} {keys : List κ}
    (sorted : keys.IsChain fun first second => DivergesBelow (head first) (head second))
    {first second : κ} (firstMember : first ∈ keys) (secondMember : second ∈ keys)
    (different : first ≠ second) :
    DivergesBelow (head first) (head second) ∨ DivergesBelow (head second) (head first) := by
  have transitive : IsTrans κ fun first second => DivergesBelow (head first) (head second) :=
    ⟨fun _ _ _ lower upper => lower.trans upper⟩
  have pairwise := (List.isChain_iff_pairwise.mp sorted).imp
    (S := fun first second =>
      DivergesBelow (head first) (head second) ∨ DivergesBelow (head second) (head first))
    fun below => Or.inl below
  have symmetric : Std.Symm fun first second =>
      DivergesBelow (head first) (head second) ∨ DivergesBelow (head second) (head first) :=
    ⟨fun _ _ related => related.symm⟩
  exact pairwise.forall firstMember secondMember different

end Inference.Foundation
