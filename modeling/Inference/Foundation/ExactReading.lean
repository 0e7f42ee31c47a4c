import Inference.Foundation.Reading

/-! # What a reading program accepts

A program reads a language when it succeeds exactly on the items of the language, wherever they stand
in the buffer, and stops behind them.
-/

namespace Inference.Reading

variable {α ε β γ : Type}

abbrev Language (α β : Type) : Type :=
  List α → β → Prop

def ReadsExactly (program : Reader α ε β) (language : Language α β) : Prop :=
  ∀ cursor value behind, program cursor = .ok (value, behind) ↔
    ∃ items, language items value ∧ items <+: cursor.buffer.drop cursor.position ∧
      behind = { cursor with position := cursor.position + items.length }

theorem ReadsExactly.congr {program : Reader α ε β} {language language' : Language α β}
    (exact_ : ReadsExactly program language)
    (same : ∀ items value, language items value ↔ language' items value) :
    ReadsExactly program language' := by
  intro cursor value behind
  rw [exact_]
  exact exists_congr fun items => and_congr_left fun _ => same items value

theorem readsExactly_pure (value : β) :
    ReadsExactly (pure value : Reader α ε β) fun items result => items = [] ∧ result = value := by
  intro cursor result behind
  constructor
  · intro ran
    cases ran
    exact ⟨[], ⟨rfl, rfl⟩, List.nil_prefix, rfl⟩
  · intro accepted
    rcases accepted with ⟨items, ⟨rfl, rfl⟩, _, rfl⟩
    rfl

/-- A program that always fails. -/
theorem readsExactly_fails {program : Reader α ε β}
    (fails : ∀ cursor, ∃ error, program cursor = .error error) :
    ReadsExactly program fun _ _ => False := by
  intro cursor result behind
  rcases fails cursor with ⟨error, failed⟩
  rw [failed]
  constructor
  · intro ran
    cases ran
  · intro accepted
    rcases accepted with ⟨items, impossible, _⟩
    exact impossible.elim

/-- A language without an empty word is read item by item. -/
theorem readsExactly_next {missing : Nat → ε} {continue_ : α → Reader α ε β}
    {language : Language α β} (notEmpty : ∀ value, ¬ language [] value)
    (later : ∀ item, ReadsExactly (continue_ item) fun rest => language (item :: rest)) :
    ReadsExactly (next missing >>= continue_) language := by
  intro cursor value behind
  cases here : cursor.buffer[cursor.position]? with
  | none =>
      have empty : cursor.buffer.drop cursor.position = [] :=
        List.drop_eq_nil_of_le (List.getElem?_eq_none_iff.mp here)
      have failed : (next missing >>= continue_ : Reader α ε β) cursor =
          .error (missing cursor.originalPosition) := by
        change Except.bind (next missing cursor) _ = _
        rw [next, here]
        rfl
      rw [failed, empty]
      constructor
      · intro ran
        cases ran
      · intro accepted
        rcases accepted with ⟨items, member, isPrefix, _⟩
        cases List.prefix_nil.mp isPrefix
        exact absurd member (notEmpty value)
  | some item =>
      rcases List.getElem?_eq_some_iff.mp here with ⟨inside, isItem⟩
      have front : cursor.buffer.drop cursor.position =
          item :: cursor.buffer.drop (cursor.position + 1) := by
        rw [List.drop_eq_getElem_cons inside, isItem]
      have continued : (next missing >>= continue_ : Reader α ε β) cursor =
          continue_ item { cursor with position := cursor.position + 1 } := by
        change Except.bind (next missing cursor) _ = _
        rw [next, here]
        rfl
      rw [continued, later item, front]
      constructor
      · intro accepted
        rcases accepted with ⟨rest, member, isPrefix, rfl⟩
        refine ⟨item :: rest, member, (List.prefix_cons_inj item).mpr isPrefix, ?_⟩
        rw [List.length_cons, ← Nat.add_assoc, Nat.add_right_comm]
      · intro accepted
        rcases accepted with ⟨items, member, isPrefix, rfl⟩
        cases items with
        | nil => exact absurd member (notEmpty value)
        | cons other rest =>
            rcases List.cons_prefix_cons.mp isPrefix with ⟨rfl, restPrefix⟩
            refine ⟨rest, member, restPrefix, ?_⟩
            rw [List.length_cons, ← Nat.add_assoc, Nat.add_right_comm]

theorem ReadsExactly.map {program : Reader α ε β} {language : Language α β}
    (exact_ : ReadsExactly program language) (change : β → γ) :
    ReadsExactly (program >>= fun value => pure (change value)) fun items result =>
      ∃ value, language items value ∧ result = change value := by
  intro cursor result behind
  cases ran : program cursor with
  | error error =>
      have failed : (program >>= fun value => pure (change value)) cursor = .error error := by
        change Except.bind (program cursor) _ = _
        rw [ran]
        rfl
      rw [failed]
      constructor
      · intro equal
        cases equal
      · intro accepted
        rcases accepted with ⟨items, ⟨value, member, _⟩, isPrefix, isBehind⟩
        have reads := (exact_ cursor value behind).mpr ⟨items, member, isPrefix, isBehind⟩
        rw [ran] at reads
        cases reads
  | ok read =>
      rcases read with ⟨value, ahead⟩
      have changed : (program >>= fun value => pure (change value)) cursor =
          .ok (change value, ahead) := by
        change Except.bind (program cursor) _ = _
        rw [ran]
        rfl
      rw [changed]
      constructor
      · intro equal
        cases equal
        rcases (exact_ cursor value behind).mp ran with ⟨items, member, isPrefix, isBehind⟩
        exact ⟨items, ⟨value, member, rfl⟩, isPrefix, isBehind⟩
      · intro accepted
        rcases accepted with ⟨items, ⟨other, member, rfl⟩, isPrefix, isBehind⟩
        have reads := (exact_ cursor other behind).mpr ⟨items, member, isPrefix, isBehind⟩
        rw [ran] at reads
        cases reads
        rfl

end Inference.Reading
