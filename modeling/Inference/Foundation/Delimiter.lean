import Inference.Foundation.Decimal

/-! # Delimited texts

A text that lacks a symbol can be read back when the symbol follows it.
-/

namespace Inference.Foundation

/-! ## Texts without a symbol -/

def Lacks (symbol : Char) (text : String) : Prop :=
  symbol ∉ text.toList

namespace Lacks

variable {symbol : Char}

theorem append {first second : String} (firstLacks : Lacks symbol first)
    (secondLacks : Lacks symbol second) : Lacks symbol (first ++ second) := by
  rw [Lacks, String.toList_append, List.mem_append, not_or]
  exact ⟨firstLacks, secondLacks⟩

theorem literal {word : List Char} (absent : symbol ∉ word) :
    Lacks symbol (String.ofList word) := by
  rw [Lacks, String.toList_ofList]
  exact absent

theorem natural (number : Nat) (notDigit : symbol.isDigit = false) :
    Lacks symbol (toString number) := by
  intro member
  rw [toList_toString_nat_isDigit number symbol member] at notDigit
  cases notDigit

theorem join {texts : List String} (lack : ∀ text ∈ texts, Lacks symbol text) :
    Lacks symbol (String.join texts) := by
  induction texts with
  | nil => exact literal (by simp)
  | cons text rest induction =>
      rw [String.join_cons]
      apply append (lack text List.mem_cons_self)
      exact induction fun other member => lack other (List.mem_cons_of_mem text member)

end Lacks

/-! ## Reading up to a delimiter -/

theorem delimited_cancel {σ : Type u} {delimiter : σ} {first second firstRest secondRest : List σ}
    (firstLacks : delimiter ∉ first) (secondLacks : delimiter ∉ second)
    (equal : first ++ delimiter :: firstRest = second ++ delimiter :: secondRest) :
    first = second ∧ firstRest = secondRest := by
  induction first generalizing second with
  | nil =>
      cases second with
      | nil => exact ⟨rfl, (List.cons.inj equal).2⟩
      | cons symbol rest =>
          have same : delimiter = symbol := (List.cons.inj equal).1
          rw [same] at secondLacks
          exact absurd List.mem_cons_self secondLacks
  | cons symbol rest induction =>
      cases second with
      | nil =>
          have same : symbol = delimiter := (List.cons.inj equal).1
          rw [same] at firstLacks
          exact absurd List.mem_cons_self firstLacks
      | cons other otherRest =>
          rcases List.cons.inj equal with ⟨rfl, tails⟩
          rcases induction (fun member => firstLacks (List.mem_cons_of_mem symbol member))
            (fun member => secondLacks (List.mem_cons_of_mem symbol member)) tails with ⟨rfl, rests⟩
          exact ⟨rfl, rests⟩

end Inference.Foundation
