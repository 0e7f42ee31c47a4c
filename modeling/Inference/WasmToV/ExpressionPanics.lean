import Inference.WasmToV.Faithfulness

/-! # Panics of expressions

The translation of an expression panics on an item that cannot be read, on a
condition at the very end, and on an operator that is left to do. Nothing behind
the end of the expression is looked at.
-/

namespace Inference.WasmToV

/-! ## Frames behind operators -/

/-- The frames that operators leave open, unless they close the sequence. -/
def framesAfter : List Frame → List Operator → Option (List Frame)
  | frames, [] => some frames
  | frames, op :: rest =>
      match op.role with
      | .opensBlock => framesAfter (.block :: frames) rest
      | .opensCondition => framesAfter (.thenArm :: frames) rest
      | .closes =>
          match frames with
          | [] => none
          | frame :: outer => framesAfter (frame.resumed (some op) ++ outer) rest
      | .ordinary => framesAfter frames rest

/-- The operators do not reach the end of the sequence they start. -/
def StaysOpen (frames : List Frame) (operators : List Operator) : Prop :=
  ∃ later, framesAfter frames operators = some later

theorem staysOpen_nil (frames : List Frame) : StaysOpen frames [] :=
  ⟨frames, rfl⟩

/-- The frames that one more operator leaves open. -/
def nextFrames (frames : List Frame) (op : Operator) : Option (List Frame) :=
  framesAfter frames [op]

theorem staysOpen_cons (frames : List Frame) (op : Operator) (rest : List Operator) :
    StaysOpen frames (op :: rest) ↔ ∃ next, nextFrames frames op = some next ∧ StaysOpen next rest := by
  unfold StaysOpen nextFrames
  cases role : op.role with
  | opensBlock | opensCondition | ordinary => simp [framesAfter, role]
  | closes => cases frames <;> simp [framesAfter, role]

/-! ## Reading -/

/-- Reading stops the builder: an unreadable item, or a condition with nothing
behind it. -/
inductive StopsReading : List OperatorItem → Prop
  | unreadable : StopsReading (.error error :: rest)
  | emptyCondition (opens : op.role = .opensCondition) : StopsReading [.ok op]

/-- Reading stops somewhere in front of the end of the sequence. -/
def Unreadable (frames : List Frame) (items : List OperatorItem) : Prop :=
  ∃ front back, items = front.map .ok ++ back ∧ StaysOpen frames front ∧ StopsReading back

theorem unreadable_cons (frames : List Frame) (op : Operator) (rest : List OperatorItem) :
    Unreadable frames (.ok op :: rest) ↔
      StopsReading (.ok op :: rest) ∨
        ∃ next, nextFrames frames op = some next ∧ Unreadable next rest := by
  constructor
  · rintro ⟨front, back, split, stays, stops⟩
    cases front with
    | nil =>
        rw [List.map_nil, List.nil_append] at split
        exact .inl (split ▸ stops)
    | cons first others =>
        rcases List.cons.inj split with ⟨same, rests⟩
        cases same
        rcases (staysOpen_cons frames op others).mp stays with ⟨next, step, restStays⟩
        exact .inr ⟨next, step, others, back, rests, restStays, stops⟩
  · rintro (stops | ⟨next, step, front, back, rfl, stays, stops⟩)
    · exact ⟨[], _, rfl, staysOpen_nil frames, stops⟩
    · exact ⟨op :: front, back, rfl, (staysOpen_cons frames op front).mpr ⟨next, step, stays⟩, stops⟩

theorem stopsReading_cons (op : Operator) (rest : List OperatorItem) :
    StopsReading (.ok op :: rest) ↔ op.role = .opensCondition ∧ rest = [] := by
  constructor
  · intro stops
    cases stops with
    | emptyCondition opens => exact ⟨opens, rfl⟩
  · rintro ⟨opens, rfl⟩
    exact .emptyCondition opens

/-- The lines of a sequence that goes on behind an operator. -/
theorem skeleton_step {frames : List Frame} {op : Operator} {rest : List OperatorItem}
    (reads : ¬ StopsReading (.ok op :: rest)) {next : List Frame}
    (step : nextFrames frames op = some next) :
    ∃ front, skeleton frames (.ok op :: rest) = (skeleton next rest).map (front ++ ·) ∧
      front.flatMap Token.operators = if op.role = .closes then [] else [op] := by
  rw [stopsReading_cons, not_and] at reads
  unfold nextFrames at step
  cases role : op.role with
  | opensBlock =>
      simp only [framesAfter, role, Option.some.injEq] at step
      subst step
      exact ⟨[.opened op], by simp [skeleton, role], rfl⟩
  | opensCondition =>
      simp only [framesAfter, role, Option.some.injEq] at step
      subst step
      exact ⟨[.opened op], by simp [skeleton, role, reads role], rfl⟩
  | ordinary =>
      simp only [framesAfter, role, Option.some.injEq] at step
      subst step
      exact ⟨[.line op], by simp [skeleton, role], rfl⟩
  | closes =>
      cases frames with
      | nil => simp [framesAfter, role] at step
      | cons frame outer =>
          simp only [framesAfter, role, Option.some.injEq] at step
          subst step
          exact ⟨frame.closing (some op), by simp [skeleton, role], closing_operators _ _⟩

/-- The lines of a sequence that an operator closes. -/
theorem skeleton_end {frames : List Frame} {op : Operator} (rest : List OperatorItem)
    (ends : nextFrames frames op = none) :
    op.role = .closes ∧ skeleton frames (.ok op :: rest) = some [] := by
  unfold nextFrames at ends
  cases role : op.role with
  | opensBlock | opensCondition | ordinary => simp [framesAfter, role] at ends
  | closes =>
      cases frames with
      | nil => exact ⟨rfl, by simp [skeleton, role]⟩
      | cons frame outer => simp [framesAfter, role] at ends

theorem skeleton_none_iff (frames : List Frame) (items : List OperatorItem) :
    skeleton frames items = none ↔ Unreadable frames items := by
  induction items generalizing frames with
  | nil =>
      constructor
      · intro noLines
        simp [skeleton] at noLines
      · rintro ⟨front, back, split, _, stops⟩
        rcases List.append_eq_nil_iff.mp split.symm with ⟨_, rfl⟩
        cases stops
  | cons item rest induction =>
      cases item with
      | error error =>
          exact iff_of_true (by rw [skeleton])
            ⟨[], _, rfl, staysOpen_nil frames, .unreadable⟩
      | ok op =>
          rw [unreadable_cons]
          by_cases stops : StopsReading (.ok op :: rest)
          · rcases (stopsReading_cons op rest).mp stops with ⟨opens, rfl⟩
            exact iff_of_true (by simp [skeleton, opens]) (.inl stops)
          · cases step : nextFrames frames op with
            | none => simp [(skeleton_end rest step).2, stops]
            | some next =>
                rcases skeleton_step stops step with ⟨front, lines, _⟩
                rw [lines, Option.map_eq_none_iff, induction next]
                simp [stops]

/-! ## Translating -/

/-- An operator of the sequence is the first one in it that is not supported. -/
def FirstUnsupported (frames : List Frame) (items : List OperatorItem) (op : Operator) : Prop :=
  ∃ front rest, items = front.map .ok ++ .ok op :: rest ∧ StaysOpen frames front ∧
    (∀ earlier ∈ front, earlier.support = .supported) ∧ op.support ≠ .supported

theorem firstUnsupported_cons (frames : List Frame) (first op : Operator)
    (rest : List OperatorItem) :
    FirstUnsupported frames (.ok first :: rest) op ↔
      first = op ∧ op.support ≠ .supported ∨
        first.support = .supported ∧
          ∃ next, nextFrames frames first = some next ∧ FirstUnsupported next rest op := by
  constructor
  · rintro ⟨front, later, split, stays, supported, unsupported⟩
    cases front with
    | nil =>
        rcases List.cons.inj split with ⟨same, _⟩
        exact .inl ⟨Except.ok.inj same, unsupported⟩
    | cons here others =>
        rcases List.cons.inj split with ⟨same, rests⟩
        cases same
        rcases (staysOpen_cons frames first others).mp stays with ⟨next, step, restStays⟩
        refine .inr ⟨supported first List.mem_cons_self, next, step, others, later, rests,
          restStays, ?_, unsupported⟩
        exact fun earlier member => supported earlier (List.mem_cons_of_mem first member)
  · rintro (⟨rfl, unsupported⟩ | ⟨firstSupported, next, step, front, later, rfl, stays,
      supported, unsupported⟩)
    · exact ⟨[], rest, rfl, staysOpen_nil frames, by simp, unsupported⟩
    · exact ⟨first :: front, later, rfl, (staysOpen_cons frames first front).mpr ⟨next, step, stays⟩,
        List.forall_mem_cons.mpr ⟨firstSupported, supported⟩, unsupported⟩

/-- The first unsupported operator of the lines is that of the sequence. -/
theorem find_unsupported {frames : List Frame} {items : List OperatorItem} {tokens : List Token}
    (lines : skeleton frames items = some tokens) (op : Operator) :
    (tokens.flatMap Token.operators).find? (·.support ≠ .supported) = some op ↔
      FirstUnsupported frames items op := by
  induction items generalizing frames tokens with
  | nil =>
      simp only [skeleton, Option.some.injEq] at lines
      subst lines
      constructor
      · intro found
        have nothing : (frames.flatMap (·.closing none)).flatMap Token.operators = [] := by
          simp [List.flatMap_assoc, closing_operators]
        rw [nothing] at found
        cases found
      · rintro ⟨front, rest, split, _⟩
        simp at split
  | cons item rest induction =>
      cases item with
      | error error => simp [skeleton] at lines
      | ok first =>
          rw [firstUnsupported_cons]
          have reads : ¬ StopsReading (.ok first :: rest) := by
            intro stops
            have noLines := (skeleton_none_iff frames (.ok first :: rest)).mpr
              ((unreadable_cons frames first rest).mpr (.inl stops))
            rw [noLines] at lines
            cases lines
          cases step : nextFrames frames first with
          | none =>
              rcases skeleton_end rest step with ⟨closes, ended⟩
              rw [ended] at lines
              cases lines
              constructor
              · intro found
                cases found
              · rintro (⟨rfl, unsupported⟩ | ⟨_, next, impossible, _⟩)
                · exact absurd (support_closes (Operator.closes_cases closes)) unsupported
                · cases impossible
          | some next =>
              rcases skeleton_step reads step with ⟨front, stepped, frontOperators⟩
              rw [stepped] at lines
              rcases Option.map_eq_some_iff.mp lines with ⟨later, laterLines, rfl⟩
              rw [List.flatMap_append, frontOperators]
              by_cases closes : first.role = .closes
              · have supported := support_closes (Operator.closes_cases closes)
                rw [if_pos closes, List.nil_append, induction laterLines]
                constructor
                · intro found
                  exact .inr ⟨supported, next, rfl, found⟩
                · rintro (⟨rfl, unsupported⟩ | ⟨_, _, same, found⟩)
                  · exact absurd supported unsupported
                  · cases same
                    exact found
              · rw [if_neg closes, List.singleton_append, List.find?_cons]
                by_cases supported : first.support = .supported
                · simp only [supported, ne_eq, not_true_eq_false, decide_false]
                  rw [induction laterLines]
                  constructor
                  · intro found
                    exact .inr ⟨trivial, next, rfl, found⟩
                  · rintro (⟨rfl, unsupported⟩ | ⟨_, _, same, found⟩)
                    · exact absurd supported unsupported
                    · cases same
                      exact found
                · simp only [supported, ne_eq, not_false_eq_true, decide_true, Option.some.injEq,
                    false_and, or_false]
                  constructor
                  · rintro rfl
                    exact ⟨rfl, supported⟩
                  · exact And.left

/-- An expression that cannot be read, or whose first unsupported operator is
left to do. -/
def ExpressionPanics (items : List OperatorItem) : Prop :=
  Unreadable [] items ∨ ∃ op, FirstUnsupported [] items op ∧ op.support = .unimplemented

theorem translateExpr_panics (items : List OperatorItem) (names : Option NameMap) :
    translateExpr items names = Outcome.panic ↔ ExpressionPanics items := by
  rw [translateExpr_scan, ExpressionPanics]
  cases lines : skeleton [] items with
  | none => exact iff_of_true rfl (.inl ((skeleton_none_iff [] items).mp lines))
  | some tokens =>
      have readable : ¬ Unreadable [] items := by
        rw [← skeleton_none_iff, lines]
        simp
      simp only [readable, false_or]
      cases first : (tokens.flatMap Token.operators).find? (·.support ≠ .supported) with
      | none =>
          have supported : ∀ op ∈ tokens.flatMap Token.operators, op.support = .supported := by
            intro op member
            simpa using List.find?_eq_none.mp first op member
          rcases renderTokens_ok names 2 0 supported with ⟨text, rendered⟩
          rw [rendered]
          constructor
          · intro panics
            cases panics
          · rintro ⟨op, unsupported, _⟩
            rw [(find_unsupported lines op).mpr unsupported] at first
            cases first
      | some op =>
          have unsupported := (find_unsupported lines op).mp first
          rcases renderTokens_unsupported first names 2 0 with
            ⟨rejected, error, fails⟩ | ⟨unimplemented, panics⟩
          · rw [fails]
            constructor
            · intro panics
              cases panics
            · rintro ⟨other, otherUnsupported, unimplemented⟩
              rw [(find_unsupported lines other).mpr otherUnsupported] at first
              cases first
              rw [rejected] at unimplemented
              cases unimplemented
          · rw [panics]
            exact iff_of_true rfl ⟨op, unsupported, unimplemented⟩

end Inference.WasmToV
