import Inference.Foundation.Collecting

/-! # Ledgers

A ledger says what it means that a run files entries. The entries of a sequence are those of its
parts, one after the other, so that what holds of all entries of a run is found along the text of
the computation.
-/

namespace Inference.Foundation

open Collecting

structure Ledger (state entry : Type) where
  /-- Holds between the parts of a run. -/
  sound : state → Prop
  /-- The entries are filed from the first state to the second. -/
  files : state → List entry → state → Prop
  start : ∀ {current}, sound current → files current [] current
  join : ∀ {first middle last entries more}, files first entries middle →
    files middle more last → files first (entries ++ more) last
  kept : ∀ {first last entries}, files first entries last → sound last

variable {state error result other entry : Type}

/-- Every run of the computation without errors files the entries, and there is such a run only if
the requirement holds. -/
structure Enters (ledger : Ledger state entry) (entries : List entry) (required : Prop)
    (computation : Collecting state error result) : Prop where
  run : ∀ {before value after}, ledger.sound before → computation.Accepts before value after →
    ledger.files before entries after ∧ required

namespace Enters

variable {ledger : Ledger state entry} {entries more : List entry} {required needed : Prop}

theorem pure (value : result) :
    Enters ledger [] True (pure value : Collecting state error result) := by
  constructor
  intro before found after sound accepted
  rcases accepts_pure.mp accepted with ⟨-, rfl⟩
  exact ⟨ledger.start sound, trivial⟩

theorem read (view : state → result) :
    Enters ledger [] True (Collecting.read view : Collecting state error result) := by
  constructor
  intro before found after sound accepted
  rcases accepts_read.mp accepted with ⟨-, rfl⟩
  exact ⟨ledger.start sound, trivial⟩

theorem expect (value : Option result) :
    Enters ledger [] True (Collecting.expect value : Collecting state error result) := by
  constructor
  intro before found after sound accepted
  rcases accepts_expect.mp accepted with ⟨-, rfl⟩
  exact ⟨ledger.start sound, trivial⟩

/-- A computation that reports an error has no run without errors. -/
theorem report (problem : error) :
    Enters ledger entries required (Collecting.report problem : Collecting state error Unit) :=
  ⟨fun _ accepted => (accepts_report.mp accepted).elim⟩

theorem update {change : state → state}
    (files : ∀ {current}, ledger.sound current → ledger.files current entries (change current)) :
    Enters ledger entries True (Collecting.update change : Collecting state error Unit) := by
  constructor
  intro before found after sound accepted
  rw [accepts_update.mp accepted]
  exact ⟨files sound, trivial⟩

theorem of_imp {computation : Collecting state error result}
    (enters : Enters ledger entries required computation) (weaker : required → needed) :
    Enters ledger entries needed computation := by
  constructor
  intro before value after sound accepted
  exact (enters.run sound accepted).imp_right weaker

theorem bind {first : Collecting state error result}
    {next : result → Collecting state error other}
    (front : Enters ledger entries required first)
    (back : ∀ value, Enters ledger more needed (next value)) :
    Enters ledger (entries ++ more) (required ∧ needed) (first >>= next) := by
  constructor
  intro before value after sound accepted
  rcases accepts_bind.mp accepted with ⟨found, middle, run, rest⟩
  rcases front.run sound run with ⟨filed, first⟩
  rcases (back found).run (ledger.kept filed) rest with ⟨filedMore, second⟩
  exact ⟨ledger.join filed filedMore, first, second⟩

/-- A first part that files nothing. -/
theorem bind_silent {first : Collecting state error result}
    {next : result → Collecting state error other} (front : Enters ledger [] True first)
    (back : ∀ value, Enters ledger more needed (next value)) :
    Enters ledger more needed (first >>= next) :=
  (bind front back).of_imp And.right

/-- A last part that files nothing. -/
theorem bind_last {first : Collecting state error result}
    {next : result → Collecting state error other}
    (front : Enters ledger entries required first)
    (back : ∀ value, Enters ledger [] True (next value)) :
    Enters ledger entries required (first >>= next) := by
  have both := bind front back
  rw [List.append_nil] at both
  exact both.of_imp And.left

theorem ite {condition : Prop} [Decidable condition] {first second : Collecting state error result}
    (yes : Enters ledger entries required first) (no : Enters ledger entries required second) :
    Enters ledger entries required (if condition then first else second) := by
  split
  · exact yes
  · exact no

/-- A loop files the entries of its steps. -/
theorem forM {item : Type} {body : item → Collecting state error PUnit} {items : List item}
    {entriesOf : item → List entry} {needs : item → Prop}
    (single : ∀ element ∈ items, Enters ledger (entriesOf element) (needs element) (body element)) :
    Enters ledger (items.flatMap entriesOf) (∀ element ∈ items, needs element)
      (items.forM body) := by
  induction items with
  | nil => exact (pure _).of_imp fun _ _ member => nomatch member
  | cons head tail induction =>
      have rest := induction fun element member => single element (List.mem_cons_of_mem _ member)
      rw [List.flatMap_cons]
      exact (bind (single head List.mem_cons_self) fun _ => rest).of_imp
        List.forall_mem_cons.mpr

/-- A loop whose steps file nothing. -/
theorem forM_required {item : Type} {body : item → Collecting state error PUnit}
    {items : List item} {needs : item → Prop}
    (single : ∀ element ∈ items, Enters ledger [] (needs element) (body element)) :
    Enters ledger [] (∀ element ∈ items, needs element) (items.forM body) := by
  have loop := forM single
  rwa [List.flatMap_eq_nil_iff.mpr fun _ _ => rfl] at loop

theorem forM_silent {item : Type} {body : item → Collecting state error PUnit} {items : List item}
    (single : ∀ element, Enters ledger [] True (body element)) :
    Enters ledger [] True (items.forM body) :=
  (forM_required fun element _ => single element).of_imp fun _ => trivial

end Enters

end Inference.Foundation
