import Inference.WatFmt.Indentation

/-! # Round trip of the tokens

The formatted text has the tokens of the input where the formatter does not fail, and it fails
exactly where an `else` stands at the outermost indentation.
-/

namespace Inference.WatFmt

open Inference.Foundation

/-! ## Tokens -/

/-- A text that is one atom. -/
inductive IsAtom : Text → Prop where
  | string {body : Text} (inside : '"' ∉ body) : IsAtom ('"' :: (body ++ ['"']))
  | word {first : Char} {rest : Text} (starts : endsAtom first = false) (notString : first ≠ '"')
      (inside : ∀ next ∈ rest, endsAtom next = false) : IsAtom (first :: rest)

/-- An atom ends in front of the text. -/
def AtomBoundary : Text → Prop
  | [] => True
  | next :: _ => endsAtom next = true

def tokenReader : Reader Char Token (List Token) :=
  .total tokenize AtomBoundary

variable {c : Char}

theorem endsAtom_eq_false :
    endsAtom c = false ↔ isWhitespace c = false ∧ c ≠ '(' ∧ c ≠ ')' := by
  simp [endsAtom, and_assoc]

theorem tokenize_whitespace (blank : isWhitespace c = true) (rest : Text) :
    tokenize (c :: rest) = tokenize rest := by
  rw [tokenize, if_pos blank]

theorem tokenize_lParen (rest : Text) : tokenize ('(' :: rest) = .lParen :: tokenize rest := by
  rw [tokenize, if_neg (by decide), if_pos rfl]

theorem tokenize_rParen (rest : Text) : tokenize (')' :: rest) = .rParen :: tokenize rest := by
  rw [tokenize, if_neg (by decide), if_neg (by decide), if_pos rfl]

theorem tokenize_quote (rest : Text) : tokenize ('"' :: rest) =
    .atom ('"' :: (readString rest).1) :: tokenize (readString rest).2 := by
  rw [tokenize, if_neg (by decide), if_neg (by decide), if_neg (by decide), if_pos rfl]

theorem tokenize_word (starts : endsAtom c = false) (notString : c ≠ '"')
    (rest : Text) : tokenize (c :: rest) =
      .atom (c :: rest.takeWhile (!endsAtom ·)) :: tokenize (rest.dropWhile (!endsAtom ·)) := by
  rcases endsAtom_eq_false.mp starts with ⟨notBlank, notOpening, notClosing⟩
  rw [tokenize, if_neg (by simp [notBlank]), if_neg notOpening, if_neg notClosing,
    if_neg notString]

theorem readString_closed {body : Text} (inside : '"' ∉ body) (rest : Text) :
    readString (body ++ '"' :: rest) = (body ++ ['"'], rest) := by
  induction body with
  | nil => rw [List.nil_append, readString, if_pos rfl, List.nil_append]
  | cons next body induction =>
      have different : next ≠ '"' := fun same => inside (same ▸ List.mem_cons_self)
      rw [List.cons_append, readString, if_neg different,
        induction fun member => inside (List.mem_cons_of_mem _ member)]
      rfl

/-- The rest of a string is its body and the closing quote, or the whole input. -/
theorem readString_cases (input : Text) :
    (∃ body, '"' ∉ body ∧ (readString input).1 = body ++ ['"']) ∨
      ('"' ∉ input ∧ (readString input).1 = input) := by
  induction input with
  | nil => exact .inr ⟨List.not_mem_nil, rfl⟩
  | cons next rest induction =>
      rw [readString]
      by_cases isQuote : next = '"'
      · rw [if_pos isQuote, isQuote]
        exact .inl ⟨[], List.not_mem_nil, rfl⟩
      · rw [if_neg isQuote]
        rcases induction with ⟨body, inside, same⟩ | ⟨inside, same⟩
        · refine .inl ⟨next :: body, ?_, by simp only [same, List.cons_append]⟩
          simp [Ne.symm isQuote, inside]
        · refine .inr ⟨?_, by simp only [same]⟩
          simp [Ne.symm isQuote, inside]

variable {s : Text}

theorem IsAtom.spells (isAtom : IsAtom s) : tokenReader.Spells s [.atom s] := by
  intro rest atBoundary
  cases isAtom with
  | @string body inside =>
      have read := tokenize_quote (body ++ '"' :: rest)
      rw [readString_closed inside] at read
      have same : '"' :: (body ++ ['"']) ++ rest = '"' :: (body ++ '"' :: rest) := by simp
      rw [same]
      exact read
  | @word first inner starts notString inside =>
      have read := tokenize_word starts notString (inner ++ rest)
      have all : ∀ next ∈ inner, (!endsAtom next) = true := by
        intro next member
        rw [inside next member]
        rfl
      have ends : rest.takeWhile (!endsAtom ·) = [] ∧ rest.dropWhile (!endsAtom ·) = rest := by
        cases rest with
        | nil => exact ⟨rfl, rfl⟩
        | cons next tail =>
            have isEnd : endsAtom next = true := atBoundary
            simp [isEnd]
      rw [List.takeWhile_append_of_pos all, List.dropWhile_append_of_pos all, ends.1, ends.2,
        List.append_nil] at read
      exact read

/-! ## Closed strings -/

/-- The token is no string that the end of the input cuts off. -/
def Token.Closed : Token → Prop
  | .atom s => s.head? = some '"' → 2 ≤ s.length ∧ s.getLast? = some '"'
  | .lParen | .rParen => True

instance (token : Token) : Decidable token.Closed :=
  match token with
  | .atom s => inferInstanceAs (Decidable (s.head? = some '"' → _ ∧ _))
  | .lParen | .rParen => .isTrue trivial

/-- The atoms that the tokenizer yields. -/
theorem tokenize_atoms {input : Text} (member : .atom s ∈ tokenize input)
    (closed : (Token.atom s).Closed) : IsAtom s := by
  induction input using tokenize.induct with
  | case1 =>
      rw [tokenize] at member
      cases member
  | case2 c rest blank induction =>
      rw [tokenize_whitespace blank] at member
      exact induction member
  | case3 rest notBlank induction =>
      rw [tokenize_lParen] at member
      exact induction (by simpa using member)
  | case4 rest notBlank notOpening induction =>
      rw [tokenize_rParen] at member
      exact induction (by simpa using member)
  | case5 rest notBlank notOpening notClosing induction =>
      rw [tokenize_quote, List.mem_cons] at member
      rcases member with isFirst | member
      · cases isFirst
        rcases readString_cases rest with ⟨body, inside, same⟩ | ⟨inside, same⟩
        · rw [same]
          exact .string inside
        · rw [same] at closed
          have isClosed : 2 ≤ ('"' :: rest).length ∧ ('"' :: rest).getLast? = some '"' := closed rfl
          cases rest with
          | nil => exact absurd isClosed.1 (by decide)
          | cons next tail =>
              have last := List.mem_of_getLast? (List.getLast?_cons_cons.symm.trans isClosed.2)
              exact absurd last inside
      · exact induction member
  | case6 c rest notBlank notOpening notClosing notString induction =>
      have starts : endsAtom c = false := by
        simp [endsAtom, notBlank, notOpening, notClosing]
      rw [tokenize_word starts notString, List.mem_cons] at member
      rcases member with isFirst | member
      · cases isFirst
        refine .word starts notString fun next inside => ?_
        have passes := List.mem_takeWhile_imp inside
        simpa using passes
      · exact induction member

/-! ## Parsing -/

/-- How many lists are open behind the tokens; a closing parenthesis without an open list
stands for itself. -/
def openLists : Nat → List Token → Nat
  | depth, [] => depth
  | depth, .lParen :: rest => openLists (depth + 1) rest
  | depth, .rParen :: rest => openLists (depth - 1) rest
  | depth, .atom _ :: rest => openLists depth rest

/-- Every closing parenthesis closes a list. -/
def NoStray : Nat → List Token → Prop
  | _, [] => True
  | depth, .lParen :: rest => NoStray (depth + 1) rest
  | 0, .rParen :: _ => False
  | depth + 1, .rParen :: rest => NoStray depth rest
  | depth, .atom _ :: rest => NoStray depth rest

variable {tokens : List Token}

section

variable {token : Type} (words : Text → List token) (opening closing : List token)

def Token.spelling : Token → List token
  | .lParen => opening
  | .rParen => closing
  | .atom s => words s

/-- The tokens with the parentheses that close the lists that they leave open. -/
def closedSpelling (depth : Nat) (tokens : List Token) : List token :=
  tokens.flatMap (Token.spelling words opening closing) ++
    (List.replicate (openLists depth tokens) closing).flatten

variable {words opening closing}

theorem closedSpelling_nil (depth : Nat) : closedSpelling words opening closing (depth + 1) [] =
    closing ++ closedSpelling words opening closing depth [] := by
  simp [closedSpelling, openLists, List.replicate_succ]

theorem closedSpelling_lParen (depth : Nat) (rest : List Token) :
    closedSpelling words opening closing depth (.lParen :: rest) =
      opening ++ closedSpelling words opening closing (depth + 1) rest := by
  simp [closedSpelling, openLists, Token.spelling]

theorem closedSpelling_rParen (depth : Nat) (rest : List Token) :
    closedSpelling words opening closing depth (.rParen :: rest) =
      closing ++ closedSpelling words opening closing (depth - 1) rest := by
  simp [closedSpelling, openLists, Token.spelling]

theorem closedSpelling_atom (depth : Nat) (s : Text) (rest : List Token) :
    closedSpelling words opening closing depth (.atom s :: rest) =
      words s ++ closedSpelling words opening closing depth rest := by
  simp [closedSpelling, openLists, Token.spelling]

/-- What a parser has read, in front of the tokens that it leaves. -/
structure ReadsOff (words : Text → List token) (opening closing : List token)
    (depth left : Nat) (tokens rest : List Token) (read : List token) : Prop where
  spelling : read ++ closedSpelling words opening closing left rest =
    closedSpelling words opening closing depth tokens
  length : rest.length ≤ tokens.length
  noStray : NoStray depth tokens → NoStray left rest

/-- The parsers read all tokens and close the lists that are left open. -/
theorem parse_readsOff (words : Text → List token) (opening closing : List token) (steps : Nat) :
    (∀ depth token rest, token ≠ .rParen → 2 * (rest.length + 1) ≤ steps →
        ReadsOff words opening closing depth depth (token :: rest)
            (parseNode steps (token :: rest)).2
            ((parseNode steps (token :: rest)).1.spelling words opening closing) ∧
          (parseNode steps (token :: rest)).2.length ≤ rest.length) ∧
      ∀ depth tokens, 2 * tokens.length + 1 ≤ steps →
        ReadsOff words opening closing (depth + 1) depth tokens (parseChildren steps tokens).2
          (nodeListSpelling words opening closing (parseChildren steps tokens).1 ++ closing) := by
  induction steps with
  | zero =>
      constructor
      · intro depth token rest _ enough
        omega
      · intro depth tokens enough
        omega
  | succ steps induction =>
      rcases induction with ⟨nodes, children⟩
      constructor
      · intro depth token rest notClosing enough
        cases token with
        | rParen => exact absurd rfl notClosing
        | atom s => exact ⟨⟨(closedSpelling_atom depth s rest).symm, Nat.le_succ _, id⟩, le_rfl⟩
        | lParen =>
            have inside := children depth rest (by omega)
            refine ⟨⟨?_, Nat.le_succ_of_le inside.length, inside.noStray⟩, inside.length⟩
            rw [closedSpelling_lParen, ← inside.spelling, parseNode, Node.spelling]
            simp only [List.append_assoc]
      · intro depth tokens enough
        cases tokens with
        | nil => exact ⟨(closedSpelling_nil depth).symm, le_rfl, fun _ => trivial⟩
        | cons token rest =>
            rw [List.length_cons] at enough
            by_cases isClosing : token = .rParen
            · rw [isClosing]
              exact ⟨(closedSpelling_rParen (depth + 1) rest).symm, Nat.le_succ _, id⟩
            · have unfolded : parseChildren (steps + 1) (token :: rest) =
                  ((parseNode steps (token :: rest)).1 ::
                      (parseChildren steps (parseNode steps (token :: rest)).2).1,
                    (parseChildren steps (parseNode steps (token :: rest)).2).2) := by
                cases token with
                | rParen => exact absurd rfl isClosing
                | lParen => rfl
                | atom s => rfl
              have node := nodes (depth + 1) token rest isClosing (by omega)
              have behind := children depth (parseNode steps (token :: rest)).2
                (by have shorter := node.2; omega)
              rw [unfolded]
              refine ⟨?_, behind.length.trans node.1.length, fun noStray =>
                behind.noStray (node.1.noStray noStray)⟩
              rw [← node.1.spelling, ← behind.spelling, nodeListSpelling]
              simp only [List.append_assoc]

theorem parseAllFrom_spelling {steps : Nat} (strays : NoStray 0 tokens ∨ words [')'] = closing)
    (enough : 2 * tokens.length + 1 ≤ steps) :
    nodeListSpelling words opening closing (parseAllFrom steps tokens) =
      closedSpelling words opening closing 0 tokens := by
  induction steps generalizing tokens with
  | zero => omega
  | succ steps induction =>
      cases tokens with
      | nil => rfl
      | cons token rest =>
          rw [List.length_cons] at enough
          have unfolded : nodeListSpelling words opening closing
              (parseAllFrom (steps + 1) (token :: rest)) =
                (parseNode steps (token :: rest)).1.spelling words opening closing ++
                  nodeListSpelling words opening closing
                    (parseAllFrom steps (parseNode steps (token :: rest)).2) := rfl
          rw [unfolded]
          by_cases isClosing : token = .rParen
          · subst isClosing
            rcases strays with noStray | stray
            · exact absurd noStray id
            · cases steps with
              | zero => omega
              | succ steps =>
                  have enoughBehind : 2 * rest.length + 1 ≤ steps + 1 := by omega
                  have behind := induction (.inr stray) enoughBehind
                  rw [closedSpelling_rParen]
                  change words [')'] ++ nodeListSpelling words opening closing
                    (parseAllFrom (steps + 1) rest) = _
                  rw [stray, behind]
          · have node := (parse_readsOff words opening closing steps).1 0 token rest isClosing
              (by omega)
            have behind := induction (strays.imp_left node.1.noStray)
              (by have shorter := node.2; omega)
            rw [behind, node.1.spelling]

/-- The nodes of all tokens. -/
theorem parseAll_spelling (strays : NoStray 0 tokens ∨ words [')'] = closing) :
    nodeListSpelling words opening closing (parseAll tokens) =
      closedSpelling words opening closing 0 tokens :=
  parseAllFrom_spelling strays le_rfl

end

/-! ### The atoms of nodes -/

theorem mem_nodeListSpelling {token : Type} {words : Text → List token}
    {opening closing : List token} {node : Node} {nodes : List Node} (member : node ∈ nodes)
    {element : token} (inNode : element ∈ node.spelling words opening closing) :
    element ∈ nodeListSpelling words opening closing nodes := by
  induction nodes with
  | nil => cases member
  | cons first rest induction =>
      rw [nodeListSpelling, List.mem_append]
      rcases List.mem_cons.mp member with rfl | member
      · exact .inl inNode
      · exact .inr (induction member)

theorem mem_spelling {token : Type} {words : Text → List token} {opening closing : List token}
    {element : token} (inWords : element ∈ words s) (node : Node)
    (isAtom : s ∈ node.atoms) : element ∈ node.spelling words opening closing := by
  induction node using Node.induct with
  | atom other =>
      cases List.mem_singleton.mp isAtom
      exact inWords
  | list children induction =>
      rcases mem_nodeListAtoms.mp isAtom with ⟨child, member, inChild⟩
      have inList := mem_nodeListSpelling member (induction child member inChild)
      exact List.mem_append_left _ (List.mem_append_right _ inList)

/-- The atoms of the nodes are atoms of the tokens, but for the closing parentheses that close
no list. -/
theorem mem_parseAll_atoms (isAtom : s ∈ nodeListAtoms (parseAll tokens)) :
    .atom s ∈ tokens ∨ s = [')'] ∧ ¬ NoStray 0 tokens := by
  by_contra neither
  rw [not_or] at neither
  let words : Text → List Text := fun other => if other = s then [s] else []
  have strays : NoStray 0 tokens ∨ words [')'] = [] := by
    by_cases isStray : s = [')']
    · exact .inl (by_contra fun stray => neither.2 ⟨isStray, stray⟩)
    · exact .inr (if_neg (Ne.symm isStray))
  have inWords : s ∈ words s := by
    simp [words]
  rcases mem_nodeListAtoms.mp isAtom with ⟨node, member, inNode⟩
  have inSpelling : s ∈ node.spelling words [] [] := mem_spelling inWords node inNode
  have spelled := mem_nodeListSpelling member inSpelling
  rw [parseAll_spelling strays, closedSpelling, List.mem_append] at spelled
  rcases spelled with inTokens | inClosing
  · rcases List.mem_flatMap.mp inTokens with ⟨token, isToken, inToken⟩
    cases token with
    | lParen => cases inToken
    | rParen => cases inToken
    | atom other =>
        by_cases same : other = s
        · exact neither.1 (same ▸ isToken)
        · have nothing : words other = [] := if_neg same
          rw [Token.spelling, nothing] at inToken
          cases inToken
  · simp at inClosing

/-! ## Formatting -/

theorem tokenReader_lists :
    ReadsLists tokenReader (fun _ => True) [.lParen] [.rParen] where
  newline rest := tokenize_whitespace (by decide) rest
  space rest := tokenize_whitespace (by decide) rest
  lParen rest _ := tokenize_lParen rest
  rParen rest := tokenize_rParen rest
  boundary := by
    intro c member rest
    change endsAtom c = true
    simp only [List.mem_cons, List.not_mem_nil, or_false] at member
    rcases member with rfl | rfl | rfl | rfl <;> decide
  allowed _ _ _ := trivial

/-- The input has balanced parentheses and closed strings, as the tokenizer sees them. -/
structure Complete (input : Text) : Prop where
  noStray : NoStray 0 (tokenize input)
  allClosed : openLists 0 (tokenize input) = 0
  stringsClosed : ∀ token ∈ tokenize input, token.Closed

theorem closedSpelling_same (allClosed : openLists 0 tokens = 0) :
    closedSpelling (fun s => [.atom s]) [.lParen] [.rParen] 0 tokens = tokens := by
  have singles : tokens.flatMap (Token.spelling (fun s => [Token.atom s]) [.lParen] [.rParen]) =
      tokens := by
    clear allClosed
    induction tokens with
    | nil => rfl
    | cons token rest induction =>
        rw [List.flatMap_cons, induction]
        cases token <;> rfl
  rw [closedSpelling, allClosed, singles]
  exact List.append_nil tokens

theorem tokenize_format {input output : Text} (complete : Complete input)
    (formatted : format input = some output) : tokenize output = tokenize input := by
  have atoms : ∀ s ∈ nodeListAtoms (parseAll (tokenize input)),
      Printed tokenReader (fun _ => True) s [.atom s] := by
    intro s isAtom
    have isToken : .atom s ∈ tokenize input :=
      (mem_parseAll_atoms isAtom).resolve_right fun stray => stray.2 complete.noStray
    have isOne := tokenize_atoms isToken (complete.stringsClosed _ isToken)
    exact ⟨isOne.spells, fun _ => trivial⟩
  have spells := format_printed tokenReader_lists atoms formatted
  have nothing : tokenize [] = [] := by rw [tokenize]
  calc tokenize output
      = nodeListSpelling (fun s => [Token.atom s]) [Token.lParen] [Token.rParen]
          (parseAll (tokenize input)) ++ tokenize [] := spells.read_eq trivial
    _ = tokenize input := by
        rw [parseAll_spelling (.inl complete.noStray), closedSpelling_same complete.allClosed,
          nothing, List.append_nil]

/-- The formatter keeps the tokens, and formats what it has formatted to itself. -/
def RoundTrips (input : Text) : Prop :=
  ∃ output, format input = some output ∧ tokenize output = tokenize input ∧
    format output = some output

/-- Exactly where the formatter loses nothing. -/
theorem roundTrips_iff {input : Text} (complete : Complete input) :
    RoundTrips input ↔ nodesFit (parseAll (tokenize input)) = true := by
  rw [← format_isSome]
  constructor
  · rintro ⟨output, formatted, _⟩
    rw [formatted]
    rfl
  · intro succeeds
    rcases Option.isSome_iff_exists.mp succeeds with ⟨output, formatted⟩
    have same := tokenize_format complete formatted
    refine ⟨output, formatted, same, ?_⟩
    rw [format, same]
    exact formatted

theorem roundTrips_iff_func : RoundTrips "(func $f nop)".toList := by
  have tokens : tokenize "(func $f nop)".toList =
      [.lParen, .atom "func".toList, .atom "$f".toList, .atom "nop".toList, .rParen] := by
    simp [tokenize, endsAtom, isWhitespace]
  apply (roundTrips_iff ⟨?_, ?_, ?_⟩).mpr
  · decide +kernel
  · rw [tokens]
    trivial
  · rw [tokens]
    rfl
  · rw [tokens]
    decide

/-- An `else` behind an `end` makes the formatter fail. -/
theorem elseBehindEnd_fails :
    Complete "(func end else)".toList ∧ ¬ RoundTrips "(func end else)".toList := by
  have tokens : tokenize "(func end else)".toList =
      [.lParen, .atom "func".toList, .atom "end".toList, .atom "else".toList, .rParen] := by
    simp [tokenize, endsAtom, isWhitespace]
  have fails : format "(func end else)".toList = none := by decide +kernel
  refine ⟨⟨?_, ?_, ?_⟩, ?_⟩
  · rw [tokens]
    trivial
  · rw [tokens]
    rfl
  · rw [tokens]
    decide
  · rintro ⟨output, formatted, _⟩
    rw [fails] at formatted
    cases formatted

end Inference.WatFmt
