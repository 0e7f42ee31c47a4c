import Mathlib.Data.List.Basic
import Mathlib.Data.List.Nodup

/-! # Identifiers of Rocq

Which words the lexer takes as identifiers, and what a name denotes behind a
sequence of definitions.
-/

namespace Inference.Foundation

/-! ## Identifiers -/

/-- The part of the lexer that depends on its version and on the libraries that
are loaded: the letters beyond ASCII, what may follow them, and the keywords. -/
structure Lexicon where
  letter : Char → Bool
  part : Char → Bool
  keyword : String → Bool

namespace Lexicon

variable (lexicon : Lexicon)

def startsIdentifier (symbol : Char) : Bool :=
  symbol.isAlpha || symbol = '_' || (decide (128 ≤ symbol.toNat) && lexicon.letter symbol)

def continuesIdentifier (symbol : Char) : Bool :=
  lexicon.startsIdentifier symbol || symbol.isDigit || symbol = '\'' ||
    (decide (128 ≤ symbol.toNat) && lexicon.part symbol)

def isIdentifier (name : String) : Bool :=
  match name.toList with
  | [] => false
  | first :: rest =>
      lexicon.startsIdentifier first && rest.all lexicon.continuesIdentifier &&
        !lexicon.keyword name

/-- The keywords of the core language, and identifiers in ASCII only. -/
def core : Lexicon where
  letter _ := false
  part _ := false
  keyword name := name ∈ ["_", "Axiom", "CoFixpoint", "Definition", "Fixpoint", "Hypothesis",
    "Parameter", "Prop", "SProp", "Set", "Theorem", "Type", "Variable", "as", "at", "by",
    "cofix", "else", "end", "exists", "exists2", "fix", "for", "forall", "fun", "if", "in",
    "let", "match", "return", "then", "using", "where", "with"]

theorem isIdentifier_of_parts {name : String} {first : Char} {rest : List Char}
    (spelled : name.toList = first :: rest) (starts : lexicon.startsIdentifier first = true)
    (continues : ∀ symbol ∈ rest, lexicon.continuesIdentifier symbol = true)
    (free : lexicon.keyword name = false) : lexicon.isIdentifier name = true := by
  have all : rest.all lexicon.continuesIdentifier = true := List.all_eq_true.mpr continues
  simp [isIdentifier, spelled, starts, all, free]

end Lexicon

/-! ## Names of definitions -/

/-- What a name denotes behind definitions: the last one that is given under it. -/
def denoted {definition : Type} (definitions : List (String × definition)) (name : String) :
    Option definition :=
  definitions.reverse.lookup name

theorem lookup_of_nodup {definition : Type} {definitions : List (String × definition)}
    (distinct : (definitions.map Prod.fst).Nodup) {name : String} {given : definition}
    (member : (name, given) ∈ definitions) : definitions.lookup name = some given := by
  induction definitions with
  | nil => cases member
  | cons entry rest induction =>
      obtain ⟨fresh, restDistinct⟩ := List.nodup_cons.mp distinct
      rcases List.mem_cons.mp member with rfl | later
      · exact List.lookup_cons_self
      · have other : name ≠ entry.1 := fun same =>
          fresh (same ▸ List.mem_map_of_mem (f := Prod.fst) later)
        rw [List.lookup_cons, beq_false_of_ne other]
        exact induction restDistinct later

/-- Under distinct names every definition is denoted by its name. -/
theorem denoted_of_nodup {definition : Type} {definitions : List (String × definition)}
    (distinct : (definitions.map Prod.fst).Nodup) {name : String} {given : definition}
    (member : (name, given) ∈ definitions) : denoted definitions name = some given := by
  apply lookup_of_nodup
  · rw [List.map_reverse]
    exact List.nodup_reverse.mpr distinct
  · exact List.mem_reverse.mpr member

end Inference.Foundation
