import Inference.Foundation.ByteText
import Inference.Foundation.Zipper
import Inference.Infs.ScreenNavigation

/-! # The line editor

The command line as a text with a cursor between its characters. Each key does to the two sides of
the cursor what its command says in terms of characters, and the byte offset that the application
keeps is the length of what stands in front of the cursor.
-/

namespace Inference.Infs

open Foundation
open WatFmt (isWhitespace)

/-! ## Byte offsets -/

theorem splitAtByte_eq (offset : Nat) (text : List Char) :
    splitAtByte offset text = ByteText.split text offset := by
  induction text generalizing offset with
  | nil => cases offset <;> rw [splitAtByte, ByteText.split]
  | cons next rest induction =>
      cases offset with
      | zero => rw [splitAtByte, ByteText.split]
      | succ offset => rw [splitAtByte, ByteText.split, induction]

theorem splitAtByte_append (front back : List Char) :
    splitAtByte (byteLength front) (front ++ back) = some (front, back) :=
  (splitAtByte_eq _ _).trans (ByteText.split_eq_some_iff.mpr ⟨rfl, rfl⟩)

theorem byteLength_append (front back : List Char) :
    byteLength (front ++ back) = byteLength front + byteLength back :=
  ByteText.size_append front back

theorem byteLength_eq_zero_iff {text : List Char} : byteLength text = 0 ↔ text = [] := by
  constructor
  · exact ByteText.eq_nil_of_size_eq_zero
  · rintro rfl
    rfl

theorem byteLength_reverse (text : List Char) : byteLength text.reverse = byteLength text := by
  simp [byteLength]

/-- A beginning that is as long in bytes as the text is the whole text. -/
theorem eq_of_byteLength_eq {front text : List Char} (begins : front <+: text)
    (same : byteLength front = byteLength text) : front = text := by
  rcases begins with ⟨back, rfl⟩
  rw [byteLength_append] at same
  have empty : back = [] := byteLength_eq_zero_iff.mp (by omega)
  rw [empty, List.append_nil]

/-! ## The abstract editor -/

structure Editor where
  zipper : Zipper Char := {}
  history : CommandHistory := {}

namespace Editor

/-- The command line that shows the editor. -/
def line (editor : Editor) : CommandLine :=
  ⟨editor.zipper.text, byteLength editor.zipper.before, editor.history⟩

variable (editor : Editor)

def edit (change : Zipper Char → Zipper Char) : Editor :=
  { editor with zipper := change editor.zipper }

/-- An empty line, for a new command. -/
def reset : Editor :=
  ⟨{}, editor.history.resetNavigation⟩

/-- Shows a command of the history, the cursor behind it. -/
def showFound : Option (List Char) × CommandHistory → Editor
  | (some command, history) => ⟨.ending command, history⟩
  | (none, history) => { editor with history := history }

section Commands

variable [TypeChecker.UnicodeCase]

/-- The command that is typed, without the blanks around it. -/
def command : String :=
  TypeChecker.UnicodeCase.toLowercase (String.ofList (trim editor.zipper.text))

/-- Completes the beginning of a known command, unless several begin like this. -/
def complete : Editor :=
  if editor.command = "" then editor
  else
    match knownCommands.filter fun known => editor.command.toList.isPrefixOf known.toList with
    | [known] => { editor with zipper := .ending known.toList }
    | _ => editor

/-- Empties the line. The history keeps what was typed, if it is a command. -/
def execute : Editor :=
  if editor.command = "" then { editor with zipper := {} }
  else ⟨{}, (editor.history.push editor.zipper.text).resetNavigation⟩

/-- What a key does in the command mode. -/
def key (code : KeyCode) (control : Bool) : Editor :=
  match code with
  | .esc => editor.reset
  | .enter => editor.execute
  | .backspace => editor.edit .removeBefore
  | .delete => editor.edit .removeAfter
  | .left => editor.edit fun zipper =>
      if control then zipper.moveWordLeft isWhitespace else zipper.moveLeft
  | .right => editor.edit fun zipper =>
      if control then zipper.moveWordRight isWhitespace else zipper.moveRight
  | .home => editor.edit .moveToStart
  | .end => editor.edit .moveToEnd
  | .up => editor.showFound (editor.history.previous editor.zipper.text)
  | .down => editor.showFound editor.history.next
  | .tab => editor.complete
  | .char inserted => editor.edit (·.insert inserted)
  | .other => editor

end Commands

end Editor

/-! ## One key -/

namespace Editor

variable (editor : Editor)

theorem splitAtByte_line :
    splitAtByte editor.line.cursorPos editor.line.commandInput =
      some (editor.zipper.before, editor.zipper.after) :=
  splitAtByte_append _ _

theorem cursorDisplayPos_line :
    editor.line.cursorDisplayPos = some editor.zipper.before.length := by
  simp [CommandLine.cursorDisplayPos, splitAtByte_line]

/-- An edit that keeps the text changes the cursor alone. -/
theorem line_edit {change : Zipper Char → Zipper Char}
    (keeps : (change editor.zipper).text = editor.zipper.text) :
    (editor.edit change).line =
      { editor.line with cursorPos := byteLength (change editor.zipper).before } := by
  simp [line, edit, keeps]

theorem insertChar_line (inserted : Char) :
    editor.line.insertChar inserted = some (editor.edit (·.insert inserted)).line := by
  have longer : byteLength (editor.zipper.before ++ [inserted]) =
      byteLength editor.zipper.before + inserted.utf8Size := by
    rw [byteLength_append]
    rfl
  rw [CommandLine.insertChar, splitAtByte_line]
  simp [edit, line, Zipper.insert, Zipper.text, longer]

theorem backspace_line : editor.line.backspace = some (editor.edit .removeBefore).line := by
  unfold CommandLine.backspace
  split
  · rw [splitAtByte_line]
    simp [edit, line, Zipper.removeBefore, Zipper.text]
  · rename_i atStart
    have empty : editor.zipper.before = [] := by
      apply byteLength_eq_zero_iff.mp
      change ¬ byteLength editor.zipper.before > 0 at atStart
      omega
    simp [edit, line, Zipper.removeBefore, Zipper.text, empty]

theorem byteLength_text :
    byteLength editor.line.commandInput =
      editor.line.cursorPos + byteLength editor.zipper.after :=
  byteLength_append _ _

/-- The cursor is at the end unless something stands behind it. -/
theorem after_eq_nil (atEnd : ¬ editor.line.cursorPos < byteLength editor.line.commandInput) :
    editor.zipper.after = [] := by
  have := editor.byteLength_text
  exact byteLength_eq_zero_iff.mp (by omega)

theorem deleteChar_line : editor.line.deleteChar = some (editor.edit .removeAfter).line := by
  unfold CommandLine.deleteChar
  split
  · rw [splitAtByte_line]
    simp [edit, line, Zipper.removeAfter, Zipper.text]
  · rename_i atEnd
    simp [edit, line, Zipper.removeAfter, Zipper.text, editor.after_eq_nil atEnd]

theorem moveCursorLeft_line : editor.line.moveCursorLeft = some (editor.edit .moveLeft).line := by
  rw [editor.line_edit (editor.zipper.text_moveLeft)]
  unfold CommandLine.moveCursorLeft
  split
  · simp [splitAtByte_line, Zipper.moveLeft]
  · rename_i atStart
    have empty : editor.zipper.before = [] := by
      apply byteLength_eq_zero_iff.mp
      change ¬ byteLength editor.zipper.before > 0 at atStart
      omega
    simp [line, Zipper.moveLeft, empty]

theorem moveCursorRight_line :
    editor.line.moveCursorRight = some (editor.edit .moveRight).line := by
  rw [editor.line_edit (editor.zipper.text_moveRight)]
  unfold CommandLine.moveCursorRight
  split
  · have passed : byteLength editor.zipper.after.head?.toList =
        (editor.zipper.after.head?.map Char.utf8Size).getD 0 := by
      cases editor.zipper.after <;> rfl
    rw [splitAtByte_line]
    simp [Zipper.moveRight, byteLength_append, passed, line]
  · rename_i atEnd
    simp [line, Zipper.moveRight, editor.after_eq_nil atEnd]

theorem moveCursorWordLeft_line :
    editor.line.moveCursorWordLeft = some (editor.edit (·.moveWordLeft isWhitespace)).line := by
  rw [editor.line_edit (editor.zipper.text_moveWordLeft isWhitespace)]
  unfold CommandLine.moveCursorWordLeft
  split
  · rename_i atStart
    have empty : editor.zipper.before = [] := byteLength_eq_zero_iff.mp atStart
    simp [line, Zipper.moveWordLeft, Zipper.beforeLastWord, empty]
  · rename_i inside
    have kept : (editor.zipper.before.reverse.dropWhile isWhitespace).dropWhile (!isWhitespace ·) =
        (Zipper.beforeLastWord isWhitespace editor.zipper.before).reverse := by
      simp [Zipper.beforeLastWord, List.rdropWhile]
    -- The cursor always moves, so that the step to the start is never taken.
    have moves : byteLength (Zipper.beforeLastWord isWhitespace editor.zipper.before) ≠
        editor.line.cursorPos := by
      intro same
      have nonempty : editor.zipper.before ≠ [] := by
        intro empty
        exact inside (byteLength_eq_zero_iff.mpr empty)
      exact Zipper.beforeLastWord_ne isWhitespace nonempty
        (eq_of_byteLength_eq (Zipper.beforeLastWord_starts ..) same)
    simp [splitAtByte_line, kept, byteLength_reverse, moves, Zipper.moveWordLeft]

theorem moveCursorWordRight_line :
    editor.line.moveCursorWordRight = some (editor.edit (·.moveWordRight isWhitespace)).line := by
  rw [editor.line_edit (editor.zipper.text_moveWordRight isWhitespace)]
  unfold CommandLine.moveCursorWordRight
  split
  · rename_i atEnd
    have empty := editor.after_eq_nil (by omega)
    simp [line, Zipper.moveWordRight, Zipper.behindFirstWord, empty]
  · have whole := List.suffix_iff_eq_append.mp
      (Zipper.behindFirstWord_suffix isWhitespace editor.zipper.after)
    have passed := congrArg byteLength whole
    rw [byteLength_append] at passed
    have skipped : byteLength editor.zipper.after -
          byteLength (Zipper.behindFirstWord isWhitespace editor.zipper.after) =
        byteLength (editor.zipper.after.take (editor.zipper.after.length -
          (Zipper.behindFirstWord isWhitespace editor.zipper.after).length)) := by
      omega
    rw [splitAtByte_line]
    unfold Zipper.behindFirstWord at skipped
    simp [Zipper.moveWordRight, Zipper.behindFirstWord, byteLength_append, skipped, line]

theorem moveHome_line : editor.line.moveHome = (editor.edit .moveToStart).line :=
  (editor.line_edit editor.zipper.text_moveToStart).symm

theorem moveEnd_line : editor.line.moveEnd = (editor.edit .moveToEnd).line :=
  (editor.line_edit (editor.zipper.text_moveToEnd)).symm

theorem showCommand_line (found : Option (List Char) × CommandHistory) :
    editor.line.showCommand found = (editor.showFound found).line := by
  rcases found with ⟨_ | command, history⟩
  · rfl
  · simp [CommandLine.showCommand, showFound, line, Zipper.ending, Zipper.text]

end Editor

/-! ## The application -/

/-- What a command prints is not cut inside of a character. -/
def Surroundings.Printable (outside : Surroundings) : Prop :=
  ∀ arguments ∈ [["--help"], ["version"]], ∀ stdout stderr,
    outside.runCommand arguments = .ok (stdout, stderr) →
      let shown := (App.firstLine (if stdout = [] then stderr else stdout)).getD
        "(no output)".toList
      byteLength shown > 60 → (splitAtByte 57 shown).isSome

variable {app app' : App} {line : CommandLine}

namespace App

variable (outside : Surroundings)

/-! ### Where the command line stays -/

@[simp] theorem setStatus_toCommandLine (app : App) (message : String) :
    (app.setStatus message).toCommandLine = app.toCommandLine :=
  rfl

@[simp] theorem quit_toCommandLine (app : App) : app.quit.toCommandLine = app.toCommandLine :=
  rfl

@[simp] theorem loadToolchainData_toCommandLine (app : App) :
    (app.loadToolchainData outside).toCommandLine = app.toCommandLine := by
  unfold loadToolchainData
  cases outside.toolchains with
  | error error => rfl
  | ok installed =>
      rcases installed with ⟨defaultVersion, versions, metadata⟩
      cases defaultVersion <;> cases versions <;> rfl

@[simp] theorem navigateTo_toCommandLine (app : App) (screen : Screen) :
    (app.navigateTo outside screen).toCommandLine = app.toCommandLine := by
  cases screen with
  | main | progress => rfl
  | toolchains =>
      rw [navigateTo, setStatus_toCommandLine]
      split
      · exact loadToolchainData_toCommandLine outside _
      · rfl
  | doctor | versionSelect =>
      rw [navigateTo, setStatus_toCommandLine]
      split <;> rfl

theorem activateMenuItem_toCommandLine (app : App) :
    (app.activateMenuItem outside).toCommandLine = app.toCommandLine := by
  unfold activateMenuItem
  dsimp only
  split
  · rfl
  · split
    · exact navigateTo_toCommandLine outside app _
    · rfl

theorem setSelectedToolchainAsDefault_toCommandLine (app : App) :
    (app.setSelectedToolchainAsDefault outside).toCommandLine = app.toCommandLine := by
  unfold setSelectedToolchainAsDefault
  split
  · rfl
  · split
    · rfl
    · split
      · exact loadToolchainData_toCommandLine outside _
      · rfl

/-- In the normal mode only the colon on the main screen concerns the command line. -/
theorem handleMainKey_toCommandLine (app : App) (code : KeyCode) :
    (app.handleMainKey outside code).toCommandLine =
      if code = .char ':' then
        { app.toCommandLine.clear with commandHistory := app.commandHistory.resetNavigation }
      else app.toCommandLine := by
  unfold handleMainKey
  split
  · rfl
  · rfl
  · rfl
  · rfl
  · rfl
  · rfl
  · exact activateMenuItem_toCommandLine outside app
  · rename_i key _ notColon _ _
    rw [if_neg (by simpa using notColon)]
    split
    · split
      · rfl
      · split
        · exact navigateTo_toCommandLine outside app _
        · rfl
    · rfl
  · rename_i notColon _ _ _ _ _ _
    rw [if_neg (fun colon => notColon colon)]

theorem handleToolchainsKey_toCommandLine (app : App) (code : KeyCode) :
    (app.handleToolchainsKey outside code).toCommandLine = app.toCommandLine := by
  unfold handleToolchainsKey
  split
  · rfl
  · rfl
  · rfl
  · rfl
  · rfl
  · exact navigateTo_toCommandLine outside _ _
  · split
    · exact navigateTo_toCommandLine outside _ _
    · exact setSelectedToolchainAsDefault_toCommandLine outside app
  · rfl

theorem handleDoctorKey_toCommandLine (app : App) (code : KeyCode) :
    (app.handleDoctorKey outside code).toCommandLine = app.toCommandLine := by
  unfold handleDoctorKey
  split <;> rfl

theorem handleProgressKey_toCommandLine (app : App) (code : KeyCode) :
    (app.handleProgressKey outside code).toCommandLine = app.toCommandLine := by
  unfold handleProgressKey
  split
  · split
    · rw [returnFromProgress, navigateTo_toCommandLine]
      split <;> rfl
    · rfl
  · rfl

theorem handleVersionSelectKey_toCommandLine (app : App) (code : KeyCode) :
    (app.handleVersionSelectKey outside code).toCommandLine = app.toCommandLine := by
  unfold handleVersionSelectKey
  split
  · exact navigateTo_toCommandLine outside _ _
  · rfl
  · rfl
  · rfl
  · rfl
  · split
    · split <;> rfl
    · rfl
  · rfl

theorem handleNormalKey_toCommandLine (app : App) (code : KeyCode) :
    (app.handleNormalKey outside code).toCommandLine =
      if app.screen = .main ∧ code = .char ':' then
        { app.toCommandLine.clear with commandHistory := app.commandHistory.resetNavigation }
      else app.toCommandLine := by
  unfold handleNormalKey
  cases shown : app.screen with
  | main => simpa using handleMainKey_toCommandLine outside app code
  | toolchains => simpa using handleToolchainsKey_toCommandLine outside app code
  | doctor => simpa using handleDoctorKey_toCommandLine outside app code
  | progress => simpa using handleProgressKey_toCommandLine outside app code
  | versionSelect => simpa using handleVersionSelectKey_toCommandLine outside app code

theorem poll_toCommandLine (now : Nat) (messages : List InstallProgress)
    (versions : Option (Except String (List VersionSelectInfo))) (app : App) :
    ((app.pollInstallProgress now messages).pollVersionLoading versions).toCommandLine =
      app.toCommandLine := by
  have received : ∀ (messages : List InstallProgress) (app : App),
      (messages.foldl (receiveProgress now) app).toCommandLine = app.toCommandLine := by
    intro messages
    induction messages with
    | nil => exact fun app => rfl
    | cons message messages induction =>
        intro app
        rw [List.foldl_cons, induction]
        cases message <;> rfl
  have polled : (app.pollInstallProgress now messages).toCommandLine = app.toCommandLine := by
    unfold pollInstallProgress
    split
    · rfl
    · dsimp only
      split
      · exact received messages app
      · exact received messages app
  rw [← polled]
  unfold pollVersionLoading
  split <;> rfl

theorem runQuickCommand_toCommandLine {arguments : List String}
    (ran : app.runQuickCommand outside arguments = some app') :
    app'.toCommandLine = app.toCommandLine := by
  unfold runQuickCommand at ran
  split at ran
  · cases ran
    rfl
  · rename_i stdout stderr _
    dsimp only at ran
    generalize (firstLine (if stdout = [] then stderr else stdout)).getD "(no output)".toList = line
      at ran
    split at ran
    · rcases Option.bind_eq_some_iff.mp ran with ⟨cut, _, ran⟩
      cases ran
      rfl
    · cases ran
      rfl

theorem runQuickCommand_isSome {outside : Surroundings} (printable : outside.Printable)
    {arguments : List String} (member : arguments ∈ [["--help"], ["version"]]) (app : App) :
    (app.runQuickCommand outside arguments).isSome := by
  unfold runQuickCommand
  split
  · rfl
  · rename_i stdout stderr ran
    have isCut := printable arguments member stdout stderr ran
    dsimp only at isCut ⊢
    generalize (firstLine (if stdout = [] then stderr else stdout)).getD "(no output)".toList = line
      at isCut ⊢
    split
    · rename_i long
      rcases Option.isSome_iff_exists.mp (isCut long) with ⟨cut, found⟩
      rw [found]
      rfl
    · rfl

theorem performCommand_toCommandLine {command : String}
    (performed : app.performCommand outside command = some app') :
    app'.toCommandLine = app.toCommandLine := by
  unfold performCommand at performed
  split at performed
  · cases performed
    rfl
  · split at performed
    · cases performed
      exact navigateTo_toCommandLine outside app _
    · split at performed
      · cases performed
        exact navigateTo_toCommandLine outside app _
      · split at performed
        · cases performed
          rfl
        · split at performed
          · exact runQuickCommand_toCommandLine outside performed
          · split at performed
            · exact runQuickCommand_toCommandLine outside performed
            · cases performed
              rfl

theorem performCommand_isSome {outside : Surroundings} (printable : outside.Printable)
    (command : String) (app : App) : (app.performCommand outside command).isSome := by
  unfold performCommand
  split
  · rfl
  · split
    · rfl
    · split
      · rfl
      · split
        · rfl
        · split
          · exact runQuickCommand_isSome printable (by simp) app
          · split
            · exact runQuickCommand_isSome printable (by simp) app
            · rfl

theorem edited_toCommandLine
    (edit : app.edited (some line) = some app') : app'.toCommandLine = line := by
  cases edit
  rfl

section Keys

variable [TypeChecker.UnicodeCase] {outside}

/-! ### Keys in the command mode -/

theorem tabComplete_toCommandLine {editor : Editor} (shows : app.toCommandLine = editor.line) :
    app.tabComplete.toCommandLine = editor.complete.line := by
  have typed : normalizedCommand app.toCommandLine = editor.command := by
    rw [shows]
    rfl
  unfold tabComplete Editor.complete
  rw [typed]
  dsimp only
  split
  · exact shows
  · split
    · rename_i none
      simp only [none]
      exact shows
    · rename_i known found
      simp only [found]
      have history : app.commandHistory = editor.history :=
        congrArg CommandLine.commandHistory shows
      rw [Editor.line, Zipper.text_ending, ← history]
      rfl
    · rename_i severalNone severalOne
      split
      · rename_i known found
        exact absurd found (severalOne known)
      · exact shows

theorem executeCommand_toCommandLine {editor : Editor}
    (shows : app.toCommandLine = editor.line) (executed : app.executeCommand outside = some app') :
    app'.toCommandLine = editor.execute.line := by
  have typed : normalizedCommand app.toCommandLine = editor.command := by
    rw [shows]
    rfl
  have history : app.commandHistory = editor.history := congrArg CommandLine.commandHistory shows
  have input : app.commandInput = editor.zipper.text := congrArg CommandLine.commandInput shows
  unfold executeCommand at executed
  unfold Editor.execute
  rw [typed] at executed
  dsimp only at executed
  split at executed
  · rename_i empty
    cases executed
    rw [if_pos empty]
    change (⟨[], 0, app.commandHistory⟩ : CommandLine) = ⟨[], 0, editor.history⟩
    rw [history]
  · rename_i nonempty
    rw [if_neg nonempty, performCommand_toCommandLine outside executed]
    change (⟨[], 0, (app.commandHistory.push app.commandInput).resetNavigation⟩ : CommandLine) =
      ⟨[], 0, (editor.history.push editor.zipper.text).resetNavigation⟩
    rw [history, input]

/-- A key in the command mode does to the command line what it does to the editor. -/
theorem handleCommandKey_toCommandLine {editor : Editor} {code : KeyCode}
    {control : Bool} (shows : app.toCommandLine = editor.line)
    (handled : app.handleCommandKey outside code control = some app') :
    app'.toCommandLine = (editor.key code control).line := by
  cases code with
  | esc =>
      cases handled
      change (⟨[], 0, app.commandHistory.resetNavigation⟩ : CommandLine) =
        ⟨[], 0, editor.history.resetNavigation⟩
      rw [show app.commandHistory = editor.history from congrArg CommandLine.commandHistory shows]
  | enter => exact executeCommand_toCommandLine shows handled
  | backspace =>
      rw [handleCommandKey, shows, editor.backspace_line] at handled
      exact edited_toCommandLine handled
  | delete =>
      rw [handleCommandKey, shows, editor.deleteChar_line] at handled
      exact edited_toCommandLine handled
  | left =>
      rw [handleCommandKey, shows, editor.moveCursorLeft_line, editor.moveCursorWordLeft_line]
        at handled
      cases control with
      | false => exact edited_toCommandLine handled
      | true => exact edited_toCommandLine handled
  | right =>
      rw [handleCommandKey, shows, editor.moveCursorRight_line, editor.moveCursorWordRight_line]
        at handled
      cases control with
      | false => exact edited_toCommandLine handled
      | true => exact edited_toCommandLine handled
  | home =>
      rw [handleCommandKey, shows, editor.moveHome_line] at handled
      exact edited_toCommandLine handled
  | «end» =>
      rw [handleCommandKey, shows, editor.moveEnd_line] at handled
      exact edited_toCommandLine handled
  | up =>
      rw [handleCommandKey, shows, CommandLine.historyPrevious, editor.showCommand_line] at handled
      exact edited_toCommandLine handled
  | down =>
      rw [handleCommandKey, shows, CommandLine.historyNext, editor.showCommand_line] at handled
      exact edited_toCommandLine handled
  | tab =>
      cases handled
      exact tabComplete_toCommandLine shows
  | char inserted =>
      rw [handleCommandKey, shows, editor.insertChar_line] at handled
      exact edited_toCommandLine handled
  | other =>
      cases handled
      exact shows

theorem handleCommandKey_isSome {editor : Editor} (printable : outside.Printable)
    (shows : app.toCommandLine = editor.line) (code : KeyCode) (control : Bool) :
    (app.handleCommandKey outside code control).isSome := by
  cases code with
  | enter =>
      rw [handleCommandKey, executeCommand]
      dsimp only
      split
      · rfl
      · exact performCommand_isSome printable _ _
  | backspace =>
      rw [handleCommandKey, shows, editor.backspace_line]
      rfl
  | delete =>
      rw [handleCommandKey, shows, editor.deleteChar_line]
      rfl
  | left =>
      rw [handleCommandKey, shows, editor.moveCursorLeft_line, editor.moveCursorWordLeft_line]
      cases control <;> rfl
  | right =>
      rw [handleCommandKey, shows, editor.moveCursorRight_line, editor.moveCursorWordRight_line]
      cases control <;> rfl
  | char inserted =>
      rw [handleCommandKey, shows, editor.insertChar_line]
      rfl
  | esc | home | «end» | up | down | tab | other => rfl

end Keys

end App

/-! ## The history -/

/-- The entry that is shown is one of the history. -/
def CommandHistory.Sound (history : CommandHistory) : Prop :=
  ∀ index, history.index = some index → index < history.commands.length

theorem CommandHistory.resetNavigation_sound (history : CommandHistory) :
    history.resetNavigation.Sound := by
  intro index navigating
  cases navigating

variable {history : CommandHistory}

theorem CommandHistory.previous_sound (sound : history.Sound)
    (currentInput : List Char) : (history.previous currentInput).2.Sound := by
  unfold previous
  split
  · exact sound
  · rename_i nonempty
    have positive := List.length_pos_of_ne_nil nonempty
    split
    · intro index navigating
      cases navigating
      exact Nat.sub_one_lt_of_lt positive
    · rename_i later navigated
      intro index navigating
      cases navigating
      have := sound _ navigated
      dsimp only
      omega
    · exact sound

theorem CommandHistory.next_sound (sound : history.Sound) :
    history.next.2.Sound := by
  unfold next
  split
  · split
    · rename_i later inside
      intro index navigating
      cases navigating
      exact inside
    · intro index navigating
      cases navigating
  · exact sound

theorem Editor.showFound_sound (editor : Editor) {found : Option (List Char) × CommandHistory}
    (sound : found.2.Sound) : (editor.showFound found).history.Sound := by
  rcases found with ⟨_ | command, history⟩
  · exact sound
  · exact sound

theorem Editor.key_sound [TypeChecker.UnicodeCase] {editor : Editor} (sound : editor.history.Sound)
    (code : KeyCode) (control : Bool) : (editor.key code control).history.Sound := by
  cases code with
  | esc => exact CommandHistory.resetNavigation_sound _
  | enter =>
      unfold Editor.key Editor.execute
      dsimp only
      split
      · exact sound
      · exact CommandHistory.resetNavigation_sound _
  | tab =>
      unfold Editor.key Editor.complete
      dsimp only
      split
      · exact sound
      · split
        · exact sound
        · exact sound
  | up => exact editor.showFound_sound (CommandHistory.previous_sound sound _)
  | down => exact editor.showFound_sound (CommandHistory.next_sound sound)
  | backspace | delete | left | right | home | «end» | char inserted | other => exact sound

variable {index : Nat}

namespace CommandLine

/-- The line on which an entry of the history is shown. -/
def recalled (history : CommandHistory) (index : Nat) (inside : index < history.commands.length) :
    CommandLine :=
  ⟨history.commands[index], byteLength history.commands[index],
    { history with index := some index }⟩

theorem historyPrevious_fresh (idle : line.commandHistory.index = none)
    (nonempty : 0 < line.commandHistory.commands.length) :
    line.historyPrevious =
      recalled { line.commandHistory with tempInput := line.commandInput }
        (line.commandHistory.commands.length - 1) (Nat.sub_one_lt_of_lt nonempty) := by
  have isSome : line.commandHistory.commands ≠ [] := List.ne_nil_of_length_pos nonempty
  rw [historyPrevious, CommandHistory.previous, if_neg isSome, List.getLast?_eq_getElem?,
    List.getElem?_eq_getElem (Nat.sub_one_lt_of_lt nonempty)]
  simp [idle, showCommand, recalled]

theorem historyPrevious_at (navigating : line.commandHistory.index = some (index + 1))
    (inside : index < line.commandHistory.commands.length) :
    line.historyPrevious = recalled line.commandHistory index inside := by
  have isSome : line.commandHistory.commands ≠ [] := List.ne_nil_of_length_pos (by omega)
  rw [historyPrevious, CommandHistory.previous, if_neg isSome]
  simp [navigating, inside, showCommand, recalled]

theorem historyNext_recalled (inside : index + 1 < history.commands.length) :
    (recalled history index (by omega)).historyNext = recalled history (index + 1) inside := by
  simp [historyNext, CommandHistory.next, recalled, inside, showCommand]

/-- Behind the latest command is what was typed before. -/
theorem historyNext_latest (latest : index + 1 = history.commands.length) :
    (recalled history index (by omega)).historyNext =
      ⟨history.tempInput, byteLength history.tempInput, { history with index := none }⟩ := by
  simp [historyNext, CommandHistory.next, recalled, latest, showCommand]

theorem historyPrevious_iterate
    (inside : index < history.commands.length) (steps : Nat) (within : steps ≤ index) :
    historyPrevious^[steps] (recalled history index inside) =
      recalled history (index - steps) (by omega) := by
  induction steps with
  | zero => rfl
  | succ steps induction =>
      have earlier : index - steps = index - (steps + 1) + 1 := by omega
      rw [Function.iterate_succ_apply', induction (by omega)]
      exact historyPrevious_at (congrArg some earlier) (by simp only [recalled]; omega)

theorem historyNext_iterate (steps : Nat) (inside : index + steps < history.commands.length) :
    historyNext^[steps] (recalled history index (by omega)) =
      recalled history (index + steps) inside := by
  induction steps with
  | zero => rfl
  | succ steps induction =>
      rw [Function.iterate_succ_apply', induction (by omega)]
      exact historyNext_recalled inside

/-- From a line on which no command was recalled, the way back leads to it. -/
theorem history_restores (idle : line.commandHistory.index = none)
    {steps : Nat} (within : steps ≤ line.commandHistory.commands.length) :
    (historyNext^[steps] (historyPrevious^[steps] line)).commandInput = line.commandInput := by
  cases steps with
  | zero => rfl
  | succ steps =>
      have latest : line.commandHistory.commands.length - 1 - steps + steps + 1 =
          ({ line.commandHistory with tempInput := line.commandInput } :
            CommandHistory).commands.length := by
        dsimp only
        omega
      rw [Function.iterate_succ_apply historyPrevious, historyPrevious_fresh idle (by omega),
        historyPrevious_iterate _ _ (by omega), Function.iterate_succ_apply',
        historyNext_iterate steps (by simp only; omega), historyNext_latest latest]

/-- From a line on which a command was recalled, the way back leads to that command. -/
theorem history_recalls (navigating : line.commandHistory.index = some index)
    (inside : index < line.commandHistory.commands.length) {steps : Nat} (moved : 0 < steps)
    (within : steps ≤ index) :
    (historyNext^[steps] (historyPrevious^[steps] line)).commandInput =
      line.commandHistory.commands[index] := by
  cases index with
  | zero => omega
  | succ index =>
      cases steps with
      | zero => omega
      | succ steps =>
          have whole : index - steps + (steps + 1) = index + 1 := by omega
          rw [Function.iterate_succ_apply historyPrevious, historyPrevious_at navigating (by omega),
            historyPrevious_iterate _ _ (by omega), historyNext_iterate (steps + 1) (by omega)]
          simp only [recalled, whole]

end CommandLine

/-! ## Runs -/

section

variable [TypeChecker.UnicodeCase]

/-- What an event does to the editor. -/
def AppEvent.edit (app : App) (editor : Editor) : AppEvent → Editor
  | .poll _ _ _ => editor
  | .key code control _ =>
      if control && code = .char 'c' then editor
      else
        match app.inputMode with
        | .command => editor.key code control
        | .normal => if app.screen = .main ∧ code = .char ':' then editor.reset else editor

/-- Whether the event meets only commands whose output can be cut. -/
def AppEvent.Printable : AppEvent → Prop
  | .poll _ _ _ => True
  | .key _ _ outside => outside.Printable

namespace App

/-- The events up to the end of the application. `none` stands for a panic. -/
def run : App → List AppEvent → Option App
  | app, [] => some app
  | app, event :: events =>
      if app.shouldQuit then some app else (app.step event).bind fun next => next.run events

/-- What the same events do to the editor. -/
def edits : App → Editor → List AppEvent → Editor
  | _, editor, [] => editor
  | app, editor, event :: events =>
      if app.shouldQuit then editor
      else
        match app.step event with
        | some next => next.edits (event.edit app editor) events
        | none => editor

theorem step_toCommandLine {editor : Editor} {event : AppEvent}
    (shows : app.toCommandLine = editor.line) (stepped : app.step event = some app') :
    app'.toCommandLine = (event.edit app editor).line := by
  unfold App.step at stepped
  split at stepped
  · cases stepped
  · cases event with
    | poll now messages versions =>
        cases stepped
        exact (poll_toCommandLine now messages versions app).trans shows
    | key code control outside =>
        dsimp only at stepped
        unfold handleKey at stepped
        unfold AppEvent.edit
        dsimp only
        split at stepped
        · rename_i interrupt
          cases stepped
          rw [if_pos interrupt]
          exact shows
        · rename_i other
          rw [if_neg other]
          split at stepped
          · rename_i normal
            cases stepped
            rw [normal]
            dsimp only
            rw [handleNormalKey_toCommandLine]
            split
            · change (⟨[], 0, app.commandHistory.resetNavigation⟩ : CommandLine) =
                ⟨[], 0, editor.history.resetNavigation⟩
              rw [show app.commandHistory = editor.history from
                congrArg CommandLine.commandHistory shows]
            · exact shows
          · rename_i command
            rw [command]
            exact handleCommandKey_toCommandLine shows stepped

theorem step_isSome {editor : Editor} {event : AppEvent}
    (running : ¬ app.shouldQuit = true) (printable : event.Printable)
    (shows : app.toCommandLine = editor.line) : (app.step event).isSome := by
  unfold App.step
  rw [if_neg running]
  cases event with
  | poll now messages versions => rfl
  | key code control outside =>
      dsimp only
      unfold handleKey
      split
      · rfl
      · split
        · rfl
        · exact handleCommandKey_isSome printable shows code control

theorem edits_sound {editor : Editor} (sound : editor.history.Sound)
    (events : List AppEvent) : (app.edits editor events).history.Sound := by
  induction events generalizing app editor with
  | nil => exact sound
  | cons event events induction =>
      unfold edits
      split
      · exact sound
      · split
        · rename_i next _
          apply induction
          cases event with
          | poll now messages versions => exact sound
          | key code control outside =>
              unfold AppEvent.edit
              dsimp only
              split
              · exact sound
              · split
                · exact Editor.key_sound sound code control
                · split
                  · exact CommandHistory.resetNavigation_sound _
                  · exact sound
        · exact sound

/-- No event of a run panics, and the command line shows the editor behind it. -/
theorem run_shows {app : App} {editor : Editor} (shows : app.toCommandLine = editor.line)
    {events : List AppEvent} (printable : ∀ event ∈ events, event.Printable) :
    ∃ last, app.run events = some last ∧
      last.toCommandLine = (app.edits editor events).line := by
  induction events generalizing app editor with
  | nil => exact ⟨app, rfl, shows⟩
  | cons event events induction =>
      unfold run edits
      split
      · exact ⟨app, rfl, shows⟩
      · rename_i running
        have first := printable event List.mem_cons_self
        rcases Option.isSome_iff_exists.mp (step_isSome running first shows) with ⟨next, stepped⟩
        rw [stepped]
        exact induction (step_toCommandLine shows stepped)
          fun event member => printable event (List.mem_cons_of_mem _ member)

def withLine (app : App) (line : CommandLine) : App :=
  { app with toCommandLine := line }

/-- A key in the command mode that moves the command line, pressed again and again. -/
theorem run_replicate {event : AppEvent} {move : CommandLine → CommandLine}
    (moves : ∀ app : App, app.inputMode = .command → ¬ app.shouldQuit = true →
      app.step event = some (app.withLine (move app.toCommandLine)))
    {app : App} (command : app.inputMode = .command) (running : ¬ app.shouldQuit = true)
    (steps : Nat) (events : List AppEvent) :
    app.run (List.replicate steps event ++ events) =
      (app.withLine (move^[steps] app.toCommandLine)).run events := by
  induction steps generalizing app with
  | zero => rfl
  | succ steps induction =>
      rw [List.replicate_succ, List.cons_append, run, if_neg running, moves app command running,
        Option.bind_some]
      exact @induction (app.withLine (move app.toCommandLine)) command running

theorem step_up (control : Bool) (outside : Surroundings) (app : App)
    (command : app.inputMode = .command) (running : ¬ app.shouldQuit = true) :
    app.step (.key .up control outside) =
      some (app.withLine app.toCommandLine.historyPrevious) := by
  cases control <;> simp [App.step, running, handleKey, command, handleCommandKey, edited, withLine]

theorem step_down (control : Bool) (outside : Surroundings) (app : App)
    (command : app.inputMode = .command) (running : ¬ app.shouldQuit = true) :
    app.step (.key .down control outside) =
      some (app.withLine app.toCommandLine.historyNext) := by
  cases control <;> simp [App.step, running, handleKey, command, handleCommandKey, edited, withLine]

/-- The key for the previous command, and then the one for the next command as often. -/
theorem run_upDown (command : app.inputMode = .command)
    (running : ¬ app.shouldQuit = true) (control : Bool) (outside : Surroundings) (steps : Nat) :
    app.run (List.replicate steps (.key .up control outside) ++
        List.replicate steps (.key .down control outside)) =
      some (app.withLine (CommandLine.historyNext^[steps]
        (CommandLine.historyPrevious^[steps] app.toCommandLine))) := by
  have down := @run_replicate _ _ _ (step_down control outside)
    (app.withLine (CommandLine.historyPrevious^[steps] app.toCommandLine)) command running steps []
  rw [List.append_nil] at down
  rw [run_replicate (step_up control outside) command running, down]
  rfl

end App

/-! ## The line editor -/

/-- What the line editor guarantees behind some events: the application has not panicked, its
command line is the text of the zipper, and the offset of its cursor is the length of what is in
front. -/
structure RefinesZipper (events : List AppEvent) (app : App) : Prop where
  reached : ({} : App).run events = some app
  shows : app.toCommandLine = (({} : App).edits {} events).line
  display : app.cursorDisplayPos = some (({} : App).edits {} events).zipper.before.length

/-- The way through the history and back restores the input. -/
def RestoresInput (events : List AppEvent) (app : App) : Prop :=
  ({} : App).run events = some app → app.inputMode = .command → app.shouldQuit = false →
    ∀ control outside steps, steps ≤ app.commandHistory.commands.length →
      ∃ last, app.run (List.replicate steps (.key .up control outside) ++
          List.replicate steps (.key .down control outside)) = some last ∧
        last.commandInput = app.commandInput

/-- On a line where no command was recalled, the way through the history and back restores the
input. Where one was, it leads to that command again, unless it goes beyond the oldest one. -/
structure RestoresRecalled (app : App) : Prop where
  fresh : app.inputMode = .command → app.shouldQuit = false → app.commandHistory.index = none →
    ∀ control outside steps, steps ≤ app.commandHistory.commands.length →
      ∃ last, app.run (List.replicate steps (.key .up control outside) ++
          List.replicate steps (.key .down control outside)) = some last ∧
        last.commandInput = app.commandInput
  recalled : app.inputMode = .command → app.shouldQuit = false →
    ∀ index, app.commandHistory.index = some index →
      ∀ control outside steps, 0 < steps → steps ≤ index →
        ∃ last, app.run (List.replicate steps (.key .up control outside) ++
            List.replicate steps (.key .down control outside)) = some last ∧
          app.commandHistory.commands[index]? = some last.commandInput

theorem lineEditor_refines {events : List AppEvent}
    (printable : ∀ event ∈ events, event.Printable) :
    ∃ app, RefinesZipper events app ∧ RestoresRecalled app := by
  rcases @App.run_shows _ {} {} rfl events printable with ⟨app, reached, shows⟩
  have sound : (({} : App).edits {} events).history.Sound :=
    App.edits_sound (CommandHistory.resetNavigation_sound {}) events
  have display : app.cursorDisplayPos =
      some (({} : App).edits {} events).zipper.before.length := by
    rw [shows]
    exact Editor.cursorDisplayPos_line _
  refine ⟨app, ⟨reached, shows, display⟩, ?_, ?_⟩
  · intro command running idle control outside steps within
    exact ⟨_, App.run_upDown command (by simp [running]) control outside steps,
      CommandLine.history_restores idle within⟩
  · intro command running index navigating control outside steps moved within
    have inside : index < app.commandHistory.commands.length := by
      have history : app.commandHistory = (({} : App).edits {} events).history :=
        congrArg CommandLine.commandHistory shows
      rw [history] at navigating ⊢
      exact sound index navigating
    refine ⟨_, App.run_upDown command (by simp [running]) control outside steps, ?_⟩
    rw [List.getElem?_eq_getElem inside]
    exact congrArg some (CommandLine.history_recalls navigating inside moved within).symm

end

/-! ## A way back that is longer than the way through the history -/

/-- Two commands are typed, and both are recalled on a third line. -/
def recalledTwice : List AppEvent :=
  [pressed (.char ':'), pressed (.char 'a'), pressed .enter, pressed (.char ':'),
    pressed (.char 'b'), pressed .enter, pressed (.char ':'), pressed .up, pressed .up]

/-- At the oldest command, one step further changes nothing, but the step back does. -/
theorem recalledTwice_restores_not :
    ¬ ∀ app, RestoresInput recalledTwice app := by
  intro restores
  have ends : (({} : App).run recalledTwice).map (fun app =>
      decide (app.inputMode = .command ∧ app.shouldQuit = false ∧
        app.commandHistory.commands.length = 2 ∧ app.commandInput = ['a'] ∧
        (app.run [pressed .up, pressed .down]).map (·.commandInput) = some ['b'])) = some true := by
    decide +kernel
  rcases Option.map_eq_some_iff.mp ends with ⟨app, reached, shown⟩
  rcases of_decide_eq_true shown with ⟨command, running, two, before, behind⟩
  rcases restores app reached command running false emptyDisk 1 (by omega) with ⟨last, ran, same⟩
  rcases Option.map_eq_some_iff.mp behind with ⟨other, alsoRan, isLater⟩
  rw [show last = other from Option.some.inj (ran.symm.trans alsoRan), isLater, before] at same
  exact absurd same (by decide)

/-- Two characters of two bytes, and the cursor between them. -/
theorem lineEditor_refines_umlauts :
    ∃ app, RefinesZipper [pressed (.char ':'), pressed (.char 'ä'), pressed (.char 'ö'),
        pressed .left] app ∧ RestoresRecalled app := by
  apply lineEditor_refines
  have printable : emptyDisk.Printable := by
    intro arguments _ stdout stderr ran
    cases ran
  intro event member
  simp only [List.mem_cons, List.not_mem_nil, or_false] at member
  rcases member with rfl | rfl | rfl | rfl <;> exact printable

end Inference.Infs
