import Inference.Infs.ProfileRuns

/-! # What the lines in the profile do

A shell that reads the lines of `path_config` has one more entry in front of its search path. They
are read under the rules of its quotes. For bash and zsh the path is escaped completely. For fish a
backslash is not escaped in quotes, and not all characters that need quotes get them.
-/

namespace Inference.Infs

open Effects FileSystem Foundation.ShellWords Foundation.Utf8Text

/-- The directories of a search path, between its colons. -/
def entries (path : List UInt8) : List (List UInt8) :=
  path.splitOn 58

/-- `export PATH=…` with the search path it is run with. -/
def exportPath (path : List UInt8) : List Word → Option (List UInt8)
  | [name, assignment] =>
      if name = "export".toList.map .plain ∧ "PATH=".toList.map .plain <+: assignment then
        some (value (fun sought => if sought = "PATH".toList then path else [])
          (assignment.drop "PATH=".length))
      else none
  | _ => none

/-- An argument of a command that is an option. -/
def isOption : List Char → Bool
  | '-' :: _ :: _ => true
  | _ => false

/-- A simplified `fish_add_path …`: every argument that is no option comes in front of the search
path. The function of fish also skips paths that are missing or listed already, and keeps the others
in a variable of the user. -/
def fishAddPath (path : List UInt8) : List Word → Option (List UInt8)
  | name :: arguments =>
      if name = "fish_add_path".toList.map .plain then do
        let arguments ← arguments.mapM fishArgument
        if arguments.any isOption then none
        else some (arguments.foldr (fun argument rest => encode argument ++ 58 :: rest) path)
      else none
  | [] => none

def onlyCommand : Option (List (List Word)) → Option (List Word)
  | some [command] => some command
  | _ => none

/-- The search path after a shell has read some lines that are one command. -/
def pathAfter (fish : Fish) (shell : Shell) (path : List UInt8) (lines : List Char) :
    Option (List UInt8) :=
  match shell with
  | .bash | .zsh => (onlyCommand (commandsOf posixStep lines)).bind (exportPath path)
  | .fish => (onlyCommand (commandsOf fish.step lines)).bind (fishAddPath path)

/-- The lines for a path add one entry, which is the path. -/
def AddsPath (fish : Fish) (shell : Shell) (binPath : List UInt8) : Prop :=
  ∀ path, (pathAfter fish shell path (shell.pathConfig binPath)).map entries =
    some (binPath :: entries path)

/-- Whether fish reads the formatted path as it is. -/
def survivesFish (fish : Fish) (text : List Char) : Bool :=
  !isOption text &&
    if Shell.needsQuotes text then Fish.survivesSingle text
    else text.head?.any fish.beginsWord && fish.survivesPlain text && text ≠ "%self".toList

theorem eq_of_onlyCommand {commands : Option (List (List Word))} {command : List Word}
    (only : onlyCommand commands = some command) : commands = some [command] := by
  unfold onlyCommand at only
  split at only
  · cases only
    rfl
  · cases only

/-! ## Entries -/

theorem entries_append (front back : List UInt8) :
    entries (front ++ 58 :: back) = entries front ++ entries back :=
  List.splitOn_append_cons_self front back

theorem entries_ne_nil (path : List UInt8) : entries path ≠ [] :=
  List.splitOn_ne_nil 58 path

theorem entries_eq_singleton_iff {path entry : List UInt8} :
    entries path = [entry] ↔ path = entry ∧ 58 ∉ entry := by
  constructor
  · intro single
    have same : path = entry := by
      have joined : List.intercalate [58] (path.splitOn 58) = path := List.intercalate_splitOn 58
      rw [entries] at single
      rw [single] at joined
      simpa using joined.symm
    refine ⟨same, fun member => ?_⟩
    rcases List.append_of_mem (same ▸ member) with ⟨front, back, split⟩
    rw [split, entries_append] at single
    have lengths := congrArg List.length single
    have first := List.length_pos_iff.mpr (entries_ne_nil front)
    have second := List.length_pos_iff.mpr (entries_ne_nil back)
    rw [List.length_append, List.length_singleton] at lengths
    omega
  · rintro ⟨rfl, absent⟩
    exact List.splitOn_eq_singleton absent

variable {text : List Char}

theorem colon_mem_encode : 58 ∈ encode text ↔ ':' ∈ text := by
  rw [mem_encode (by decide)]
  constructor
  · rintro ⟨c, member, isColon⟩
    have same : c = ':' := Char.ext (UInt32.toNat_inj.mp isColon)
    rwa [← same]
  · intro member
    exact ⟨':', member, rfl⟩

/-! ## The Bourne family -/

theorem escapedPath_eq (path : List Char) :
    Shell.escapedPath path = path.flatMap posixEscape := by
  rw [Shell.escapedPath, replaceChar, replaceChar, replaceChar, replaceChar, List.flatMap_assoc,
    List.flatMap_assoc, List.flatMap_assoc]
  congr
  funext c
  by_cases backslash : c = '\\'
  · subst backslash
    rfl
  · by_cases dollar : c = '$'
    · subst dollar
      rfl
    · by_cases backquote : c = '`'
      · subst backquote
        rfl
      · by_cases quote : c = '"'
        · subst quote
          rfl
        · simp [posixEscape, backslash, dollar, backquote, quote]

/-- The lines in front of the escaped path. -/
theorem posix_front :
    (['\n'] ++ inferenceMarker ++ "\nexport PATH=\"".toList).foldlM posixStep .start =
      some ⟨.double, some ("PATH=".toList.map .plain), ["export".toList.map .plain], []⟩ := by
  rfl

theorem posix_back (word : Word) :
    ":$PATH\"\n".toList.foldlM posixStep
        ⟨.double, some word, ["export".toList.map .plain], []⟩ =
      some ⟨.plain, none, [], [["export".toList.map .plain,
        word ++ [.quoted ':', .variable "PATH".toList]]]⟩ := by
  have first : ":$PATH\"\n".toList.foldlM posixStep
      ⟨.double, some word, ["export".toList.map .plain], []⟩ =
        some ⟨.plain, none, [], [["export".toList.map .plain,
          (word ++ [.quoted ':']) ++ [.variable "PATH".toList]]]⟩ := rfl
  rw [first, List.append_assoc]
  rfl

theorem posix_commands (noNul : '\x00' ∉ text) :
    commandsOf posixStep (['\n'] ++ inferenceMarker ++ "\nexport PATH=\"".toList ++
        Shell.escapedPath text ++ ":$PATH\"\n".toList) =
      some [["export".toList.map .plain, "PATH=".toList.map .plain ++ text.map .quoted ++
        [.quoted ':', .variable "PATH".toList]]] := by
  rw [commandsOf, escapedPath_eq, List.append_assoc, foldlM_append_of_some posix_front,
    foldlM_append_of_some (posix_escapes noNul _), posix_back]
  rfl

theorem posix_unread (nul : '\x00' ∈ text) :
    commandsOf posixStep (['\n'] ++ inferenceMarker ++ "\nexport PATH=\"".toList ++
        Shell.escapedPath text ++ ":$PATH\"\n".toList) = none := by
  have escaped : '\x00' ∈ Shell.escapedPath text := by
    rw [escapedPath_eq, List.mem_flatMap]
    exact ⟨'\x00', nul, by decide⟩
  rw [commandsOf, foldlM_eq_none (c := '\x00') fun _ => rfl]
  · rfl
  · simp [escaped]

theorem exportPath_commands (path : List UInt8) (text : List Char) :
    exportPath path ["export".toList.map .plain, "PATH=".toList.map .plain ++ text.map .quoted ++
        [.quoted ':', .variable "PATH".toList]] =
      some (encode text ++ 58 :: path) := by
  have assigned : ("PATH=".toList.map Piece.plain ++ text.map Piece.quoted ++
      [Piece.quoted ':', Piece.variable "PATH".toList]).drop "PATH=".length =
        text.map Piece.quoted ++ [Piece.quoted ':', Piece.variable "PATH".toList] := by
    rfl
  have behind : value (fun sought => if sought = "PATH".toList then path else [])
      [Piece.quoted ':', Piece.variable "PATH".toList] = 58 :: path := by
    rw [value, List.flatMap_cons, List.flatMap_singleton]
    rfl
  rw [exportPath, if_pos ⟨rfl, by rw [List.append_assoc]; exact List.prefix_append _ _⟩, assigned,
    value_append, value_quoted, behind]

/-- Bash and zsh add every path that is a text and can be an entry. -/
theorem addsPath_posix_iff {shell : Shell} (posix : shell ≠ .fish) {fish : Fish}
    {binPath : List UInt8} :
    AddsPath fish shell binPath ↔
      '\x00' ∉ toStringLossy binPath ∧ encode (toStringLossy binPath) = binPath ∧
        58 ∉ binPath := by
  have evaluated (path : List UInt8) :
      pathAfter fish shell path (shell.pathConfig binPath) =
        (onlyCommand (commandsOf posixStep (Shell.bash.pathConfig binPath))).bind
          (exportPath path) := by
    cases shell with
    | bash => rfl
    | zsh => rfl
    | fish => exact absurd rfl posix
  by_cases nul : '\x00' ∈ toStringLossy binPath
  · constructor
    · intro adds
      have none := adds []
      rw [evaluated, Shell.pathConfig, posix_unread nul] at none
      cases none
    · rintro ⟨noNul, _⟩
      exact absurd nul noNul
  · have result (path : List UInt8) :
        (pathAfter fish shell path (shell.pathConfig binPath)).map entries =
          some (entries (encode (toStringLossy binPath)) ++ entries path) := by
      rw [evaluated, Shell.pathConfig, posix_commands nul, onlyCommand, Option.bind_some,
        exportPath_commands, Option.map_some, entries_append]
    rw [← entries_eq_singleton_iff]
    constructor
    · intro adds
      have first := adds []
      rw [result, Option.some.injEq, ← List.singleton_append, List.append_cancel_right_eq] at first
      exact ⟨nul, first⟩
    · rintro ⟨_, single⟩ path
      rw [result, single]
      rfl

/-! ## Fish -/

variable {fish : Fish}

theorem fish_front :
    (['\n'] ++ inferenceMarker ++ "\nfish_add_path ".toList).foldlM fish.step .start =
      some ⟨.plain, none, ["fish_add_path".toList.map .plain], []⟩ := by
  rfl

theorem fish_line (word : Word) (words : List Word) :
    ['\n'].foldlM fish.step ⟨.plain, some word, words, []⟩ =
      some ⟨.plain, none, [], [words ++ [word]]⟩ := by
  rw [List.foldlM_cons, Fish.step, if_neg (by decide)]
  change (fish.plainStep _ '\n' >>= _) = _
  rw [Fish.plainStep_newline]
  simp [Reading.endCommand, Reading.endWord]

theorem plain_injective {other : List Char}
    (same : text.map Piece.plain = other.map Piece.plain) : text = other := by
  rw [← letters_plain text, same, letters_plain]

variable {word : Word}

/-- What is read behind the name of the command. -/
theorem fish_commands {formatted : List Char}
    (read : formatted.foldlM fish.step ⟨.plain, none, ["fish_add_path".toList.map .plain], []⟩ =
      some ⟨.plain, some word, ["fish_add_path".toList.map .plain], []⟩) :
    commandsOf fish.step (['\n'] ++ inferenceMarker ++ "\nfish_add_path ".toList ++ formatted ++
        ['\n']) = some [["fish_add_path".toList.map .plain, word]] := by
  rw [commandsOf, List.append_assoc _ formatted, foldlM_append_of_some fish_front,
    foldlM_append_of_some read, fish_line]
  rfl

theorem fish_quoted (noNul : '\x00' ∉ text)
    (survives : Fish.survivesSingle text = true) (words : List Word) :
    (['\''] ++ replaceChar '\'' ['\\', '\''] text ++ ['\'']).foldlM fish.step
        ⟨.plain, none, words, []⟩ =
      some ⟨.plain, some (text.map .quoted), words, []⟩ := by
  have opened : ['\''].foldlM fish.step ⟨.plain, none, words, []⟩ =
      some ⟨.single, some [], words, []⟩ := rfl
  have escaped : (replaceChar '\'' ['\\', '\''] text).foldlM fish.step
      ⟨.single, some [], words, []⟩ = some ⟨.single, some (text.map .quoted), words, []⟩ :=
    Fish.single_escapes noNul survives []
  rw [List.append_assoc, foldlM_append_of_some opened, foldlM_append_of_some escaped]
  rfl

/-- The word that fish makes of the formatted path. -/
theorem fish_formatted (noNul : '\x00' ∉ text) (survives : survivesFish fish text = true) :
    ∃ word : Word, fishArgument word = some text ∧
      commandsOf fish.step (Shell.fish.pathConfig (encode text)) =
        some [["fish_add_path".toList.map .plain, word]] := by
  rw [survivesFish, Bool.and_eq_true] at survives
  rcases survives with ⟨_, survives⟩
  rw [Shell.pathConfig, toStringLossy_encode, Shell.formattedPath]
  by_cases quotes : Shell.needsQuotes text = true
  · rw [if_pos quotes] at survives ⊢
    refine ⟨text.map .quoted, ?_, fish_commands (fish_quoted noNul survives _)⟩
    have different : text.map Piece.quoted ≠ "%self".toList.map .plain := by
      intro same
      cases text with
      | nil => cases quotes
      | cons c rest => cases same
    rw [fishArgument, if_neg different, letters_quoted]
  · rw [if_neg quotes, Bool.and_eq_true, Bool.and_eq_true] at survives
    rw [if_neg quotes]
    cases text with
    | nil => simp at survives
    | cons c rest =>
        refine ⟨(c :: rest).map .plain, ?_,
          fish_commands (Fish.unquoted_survives survives.1.1 survives.1.2)⟩
        have different : (c :: rest).map Piece.plain ≠ "%self".toList.map .plain := by
          intro same
          simp [plain_injective same] at survives
        rw [fishArgument, if_neg different, letters_plain]

theorem letters_of_argument (argument : fishArgument word = some text) : letters word = text := by
  rw [fishArgument] at argument
  split at argument
  · cases argument
  · exact Option.some.inj argument

theorem mem_formattedPath (nul : '\x00' ∈ text) :
    '\x00' ∈ Shell.formattedPath text := by
  rw [Shell.formattedPath]
  split
  · have escaped : '\x00' ∈ replaceChar '\'' ['\\', '\''] text :=
      List.mem_flatMap.mpr ⟨'\x00', nul, by decide⟩
    simp [escaped]
  · exact nul

theorem not_mem_of_unquoted {c : Char}
    (unquoted : ¬Shell.needsQuotes text = true) (special : c ∈ Shell.quotedCharacters) :
    c ∉ text := by
  intro member
  exact unquoted (List.any_eq_true.mpr ⟨c, special, List.contains_iff_mem.mpr member⟩)

/-- What fish reads as one word that is the path survives. -/
theorem survives_of_read
    (read : commandsOf fish.step (['\n'] ++ inferenceMarker ++ "\nfish_add_path ".toList ++
      Shell.formattedPath text ++ ['\n']) = some [["fish_add_path".toList.map .plain, word]])
    (argument : fishArgument word = some text) (notOption : isOption text = false) :
    '\x00' ∉ text ∧ survivesFish fish text = true := by
  have noNul : '\x00' ∉ text := by
    intro nul
    rw [commandsOf, foldlM_eq_none (c := '\x00') (fun _ => rfl)] at read
    · cases read
    · simp [mem_formattedPath nul]
  refine ⟨noNul, ?_⟩
  rw [commandsOf, List.append_assoc _ (Shell.formattedPath text),
    foldlM_append_of_some fish_front] at read
  rcases Option.bind_eq_some_iff.mp read with ⟨reading, lineRead, finished⟩
  have ended : reading.finish ≠ none := by
    rw [finished]
    exact Option.some_ne_none _
  have copied := Reading.letters_finish finished
  rw [List.flatten_singleton, List.flatten_cons, List.flatten_singleton, letters_append,
    letters_plain, letters_of_argument argument] at copied
  rw [survivesFish, notOption, Bool.not_false, Bool.true_and]
  rw [Shell.formattedPath] at lineRead
  by_cases quotes : Shell.needsQuotes text = true
  · rw [if_pos quotes] at lineRead ⊢
    rw [List.append_assoc, List.append_assoc] at lineRead
    exact (Fish.survivesSingle_of_read 0 lineRead ended
      copied.symm).2
  · rw [if_neg quotes] at lineRead ⊢
    rcases Fish.survivesPlain_of_read lineRead ended (not_mem_of_unquoted quotes (by decide))
      (not_mem_of_unquoted quotes (by decide)) copied.symm with ⟨survives, begins⟩
    cases text with
    | nil =>
        cases lineRead
        cases finished
    | cons c rest =>
        have begun := begins rfl c rfl
        have notSelf : c :: rest ≠ "%self".toList := by
          intro self
          rw [foldlM_append_of_some (Fish.unquoted_survives begun survives), fish_line] at lineRead
          cases lineRead
          cases finished
          rw [self, fishArgument, if_pos rfl] at argument
          cases argument
        rw [List.head?_cons, Option.any_some, begun, survives]
        exact decide_eq_true notSelf

theorem entries_fold (arguments : List (List Char)) (path : List UInt8) :
    entries (arguments.foldr (fun argument rest => encode argument ++ 58 :: rest) path) =
      (arguments.flatMap fun argument => entries (encode argument)) ++ entries path := by
  induction arguments with
  | nil => rfl
  | cons argument arguments induction =>
      rw [List.foldr_cons, entries_append, induction, List.flatMap_cons, List.append_assoc]

/-- Arguments that make up one entry are one argument. -/
theorem flatMap_entries_eq_singleton {arguments : List (List Char)} {entry : List UInt8}
    (single : (arguments.flatMap fun argument => entries (encode argument)) = [entry]) :
    ∃ argument, arguments = [argument] ∧ encode argument = entry ∧ 58 ∉ entry := by
  cases arguments with
  | nil => cases single
  | cons argument more =>
      rw [List.flatMap_cons] at single
      cases more with
      | nil =>
          rw [List.flatMap_nil, List.append_nil] at single
          exact ⟨argument, rfl, entries_eq_singleton_iff.mp single⟩
      | cons other more =>
          have lengths := congrArg List.length single
          have first := List.length_pos_iff.mpr (entries_ne_nil (encode argument))
          have second := List.length_pos_iff.mpr (entries_ne_nil (encode other))
          rw [List.flatMap_cons, List.length_append, List.length_append,
            List.length_singleton] at lengths
          omega

theorem fishAddPath_eq_some {path value : List UInt8} {command : List Word}
    (added : fishAddPath path command = some value) :
    ∃ words arguments, command = "fish_add_path".toList.map .plain :: words ∧
      words.mapM fishArgument = some arguments ∧ arguments.any isOption = false ∧
      entries value = (arguments.flatMap fun argument => entries (encode argument)) ++
        entries path := by
  cases command with
  | nil => cases added
  | cons name words =>
      rw [fishAddPath] at added
      split at added
      next isName =>
        rcases Option.bind_eq_some_iff.mp added with ⟨arguments, isArguments, taken⟩
        split at taken
        next => cases taken
        next noOption =>
          cases taken
          exact ⟨words, arguments, by rw [isName], isArguments, Bool.not_eq_true _ ▸ noOption,
            entries_fold arguments path⟩
      next => cases added

theorem addsPath_fish_iff {binPath : List UInt8} :
    AddsPath fish .fish binPath ↔
      ∃ text, encode text = binPath ∧ '\x00' ∉ text ∧ 58 ∉ binPath ∧
        survivesFish fish text = true := by
  constructor
  · intro adds
    rcases Option.map_eq_some_iff.mp (adds []) with ⟨value, added, oneMore⟩
    rcases Option.bind_eq_some_iff.mp added with ⟨command, only, commandAdded⟩
    have read := eq_of_onlyCommand only
    rcases fishAddPath_eq_some commandAdded with
      ⟨words, arguments, rfl, isArguments, noOption, split⟩
    rw [split, ← List.singleton_append, List.append_cancel_right_eq] at oneMore
    rcases flatMap_entries_eq_singleton oneMore with ⟨text, rfl, rfl, noColon⟩
    rw [Shell.pathConfig, toStringLossy_encode] at read
    cases words with
    | nil => cases isArguments
    | cons word words =>
        rw [List.mapM_cons] at isArguments
        rcases Option.bind_eq_some_iff.mp isArguments with ⟨first, isFirst, later⟩
        rcases Option.bind_eq_some_iff.mp later with ⟨others, isOthers, same⟩
        cases same
        cases words with
        | cons other words =>
            rw [List.mapM_cons] at isOthers
            rcases Option.bind_eq_some_iff.mp isOthers with ⟨_, _, impossible⟩
            rcases Option.bind_eq_some_iff.mp impossible with ⟨_, _, false_⟩
            cases false_
        | nil =>
            have notOption : isOption text = false := by
              simpa using noOption
            rcases survives_of_read read isFirst notOption with ⟨noNul, survives⟩
            exact ⟨text, rfl, noNul, noColon, survives⟩
  · rintro ⟨text, rfl, noNul, noColon, survives⟩ path
    rcases fish_formatted noNul survives with ⟨word, argument, commands⟩
    have notOption : isOption text = false := by
      rw [survivesFish, Bool.and_eq_true, Bool.not_eq_true'] at survives
      exact survives.1
    have arguments : [word].mapM fishArgument = some [text] := by
      rw [List.mapM_cons, argument]
      rfl
    rw [pathAfter, commands, onlyCommand, Option.bind_some, fishAddPath, if_pos rfl, arguments]
    change Option.map entries (if [text].any isOption = true then none else some _) = _
    rw [List.any_cons, notOption, if_neg (by simp), Option.map_some, entries_fold,
      List.flatMap_singleton, entries_eq_singleton_iff.mpr ⟨rfl, noColon⟩]
    rfl

/-- The lines are right, and appended once, exactly for the paths that are texts without NUL and
colon, and that fish reads as they are if it is the shell. -/
theorem shellConfiguration_iff (fish : Fish) (shell : Shell) (binPath : List UInt8) :
    AddsPath fish shell binPath ∧ ConfiguresOnce binPath ↔
      ∃ text, encode text = binPath ∧ '\x00' ∉ text ∧ ':' ∉ text ∧
        (shell = .fish → survivesFish fish text = true) := by
  rw [and_iff_left (configuresOnce binPath)]
  by_cases isFish : shell = .fish
  · subst isFish
    rw [addsPath_fish_iff]
    constructor
    · rintro ⟨text, rfl, noNul, noColon, survives⟩
      exact ⟨text, rfl, noNul, fun colon => noColon (colon_mem_encode.mpr colon),
        fun _ => survives⟩
    · rintro ⟨text, rfl, noNul, noColon, survives⟩
      exact ⟨text, rfl, noNul, fun colon => noColon (colon_mem_encode.mp colon), survives rfl⟩
  · rw [addsPath_posix_iff isFish]
    constructor
    · rintro ⟨noNul, isText, noColon⟩
      refine ⟨toStringLossy binPath, isText, noNul, fun colon => noColon ?_,
        fun fish => absurd fish isFish⟩
      rw [← isText]
      exact colon_mem_encode.mpr colon
    · rintro ⟨text, rfl, noNul, noColon, _⟩
      rw [toStringLossy_encode]
      exact ⟨noNul, rfl, fun colon => noColon (colon_mem_encode.mp colon)⟩

/-- A semicolon ends the command for fish. -/
theorem semicolon_splitsCommand :
    ¬AddsPath ⟨fun _ => false, true⟩ .fish (encode "/home/a;b/.inference/bin".toList) := by
  intro adds
  have added := adds []
  rw [pathAfter, Shell.pathConfig, toStringLossy_encode] at added
  cases added

end Inference.Infs
