import Inference.Infs.Screens
import Inference.TypeChecker.SymbolTable

/-! # The terminal interface

The state of the application and what a key press or a look at the channels of the background tasks
does to it. What it meets outside, such as the installed toolchains, is given with each step. `none`
stands for a panic.
-/

namespace Inference.Infs

open TypeChecker (UnicodeCase)

inductive KeyCode
  | esc
  | enter
  | backspace
  | delete
  | left
  | right
  | home
  | «end»
  | up
  | down
  | tab
  | char (key : Char)
  | other
  deriving DecidableEq, Repr

def knownCommands : List String :=
  ["build", "run", "verify", "new", "install", "doctor", "help", "version", "quit", "toolchains",
    "exit"]

inductive InputMode
  | normal
  | command
  deriving DecidableEq, Repr

abbrev Channel := Nat

/-- An installation task at the other end of a channel. -/
structure InstallTask where
  channel : Channel
  version : Option String
  deriving DecidableEq, Repr

/-- What reading the toolchains from the disk gives. -/
structure InstalledToolchains where
  defaultVersion : Except String (Option String)
  versions : Except String (List String)
  metadata : String → Option ToolchainMetadata

def InstalledToolchains.list (installed : InstalledToolchains) : List ToolchainInfo :=
  let defaultVersion := installed.defaultVersion.toOption.join
  let versions := installed.versions.toOption.getD []
  versions.map fun version =>
    ⟨version, defaultVersion = some version, installed.metadata version⟩

/-- What a step of the application meets outside. -/
structure Surroundings where
  toolchains : Except String InstalledToolchains
  setDefault : String → Except String Unit
  checks : List DoctorCheck
  platformOs : Option String
  runCommand : List String → Except String (List Char × List Char)
  channel : Channel

/-- The list of toolchains on the disk. -/
def Surroundings.listed (outside : Surroundings) : List ToolchainInfo :=
  match outside.toolchains with
  | .ok installed => installed.list
  | .error _ => []

def mainStatus : String := "Press ':' to enter a command, 'q' to quit"

structure App extends CommandLine where
  screen : Screen := .main
  inputMode : InputMode := .normal
  statusMessage : String := mainStatus
  shouldQuit : Bool := false
  menu : Menu := {}
  toolchainsState : ToolchainsState := {}
  doctorState : DoctorState := {}
  progressState : ProgressState := {}
  pendingCommand : Option String := none
  installReceiver : Option InstallTask := none
  previousScreen : Option Screen := none
  versionSelectState : VersionSelectState := {}
  versionLoadReceiver : Option Channel := none
  deriving DecidableEq, Repr

namespace App

variable (outside : Surroundings)

def setStatus (app : App) (message : String) : App :=
  { app with statusMessage := message }

def quit (app : App) : App :=
  { app with shouldQuit := true }

/-! ## Loading -/

def loadToolchainData (app : App) : App :=
  match outside.toolchains with
  | .error error =>
      { app with
        statusMessage := s!"Cannot load toolchains: {error}"
        toolchainsState := { app.toolchainsState with toolchains := [], loaded := true } }
  | .ok installed =>
      let app := match installed.defaultVersion with
        | .ok _ => app
        | .error error => app.setStatus s!"Cannot read default version: {error}"
      let app := match installed.versions with
        | .ok _ => app
        | .error error => app.setStatus s!"Cannot list toolchains: {error}"
      { app with toolchainsState := ⟨installed.list, 0, true⟩ }

def loadDoctorData (app : App) : App :=
  { app with doctorState := ⟨outside.checks, 0, true⟩ }

/-- Starts a task that loads the versions. -/
def loadVersionData (app : App) : App :=
  { app with
    versionLoadReceiver := some outside.channel
    versionSelectState := { app.versionSelectState with
      loading := true
      error := none
      currentOs := outside.platformOs.getD "unknown" } }

def navigateTo (screen : Screen) (app : App) : App :=
  let app := { app with screen := screen }
  match screen with
  | .main => app.setStatus mainStatus
  | .toolchains =>
      let app := if !app.toolchainsState.loaded then app.loadToolchainData outside else app
      app.setStatus "Press Enter to set as default, Esc to go back"
  | .doctor =>
      let app := if !app.doctorState.loaded then app.loadDoctorData outside else app
      app.setStatus "Press 'r' to refresh, Esc to go back"
  | .progress => app.setStatus "Operation in progress..."
  | .versionSelect =>
      let app := if !app.versionSelectState.loaded && !app.versionSelectState.loading then
        app.loadVersionData outside else app
      app.setStatus "Press Enter to install, Esc to go back"

/-! ## Keys on the screens -/

def activateMenuItem (app : App) : App :=
  let item := app.menu.selectedItem
  if item.quits then app.quit
  else
    match item.screen with
    | some screen => app.navigateTo outside screen
    | none => app

def handleMainKey (code : KeyCode) (app : App) : App :=
  match code with
  | .char 'q' => app.quit
  | .char ':' =>
      { app with
        inputMode := .command
        toCommandLine := { app.toCommandLine.clear with
          commandHistory := app.commandHistory.resetNavigation }
        statusMessage := "Enter command (Esc to cancel, Tab to complete)" }
  | .up | .char 'k' => { app with menu := app.menu.up }
  | .down | .char 'j' => { app with menu := app.menu.down }
  | .enter => app.activateMenuItem outside
  | .char key =>
      match Menu.findByKey key with
      | some item =>
          if item.quits then app.quit
          else
            match item.screen with
            | some screen => app.navigateTo outside screen
            | none => app
      | none => app
  | _ => app

def setSelectedToolchainAsDefault (app : App) : App :=
  match app.toolchainsState.toolchains[app.toolchainsState.selected]? with
  | none => app
  | some toolchain =>
      if toolchain.isDefault then app.setStatus s!"{toolchain.version} is already the default"
      else
        match outside.setDefault toolchain.version with
        | .ok () =>
            let app := { app with
              statusMessage := s!"Set {toolchain.version} as default toolchain"
              toolchainsState := { app.toolchainsState with loaded := false } }
            app.loadToolchainData outside
        | .error error => app.setStatus s!"Failed to set default: {error}"

/-- Opens the version selection from the list of toolchains. -/
def selectVersion (app : App) : App :=
  let app := { app with previousScreen := some .toolchains, versionSelectState := {} }
  app.navigateTo outside .versionSelect

def returnToMain (app : App) : App :=
  { app with screen := .main, statusMessage := mainStatus }

def handleToolchainsKey (code : KeyCode) (app : App) : App :=
  match code with
  | .esc => app.returnToMain
  | .up | .char 'k' => { app with toolchainsState := app.toolchainsState.selectPrevious }
  | .down | .char 'j' => { app with toolchainsState := app.toolchainsState.selectNext }
  | .char 'i' => app.selectVersion outside
  | .enter =>
      if app.toolchainsState.toolchains = [] then app.selectVersion outside
      else app.setSelectedToolchainAsDefault outside
  | _ => app

def handleDoctorKey (code : KeyCode) (app : App) : App :=
  match code with
  | .esc => app.returnToMain
  | .up | .char 'k' => { app with doctorState := app.doctorState.selectPrevious }
  | .down | .char 'j' => { app with doctorState := app.doctorState.selectNext }
  | .char 'r' => app.loadDoctorData outside
  | _ => app

def returnFromProgress (app : App) : App :=
  let app := if app.previousScreen = some .toolchains then
    { app with toolchainsState := { app.toolchainsState with loaded := false } } else app
  let returnScreen := app.previousScreen.getD .main
  { app with previousScreen := none, installReceiver := none }.navigateTo outside returnScreen

/-- The receiver is dropped. -/
def cancelInstallation (app : App) : App :=
  { app with
    installReceiver := none
    progressState := app.progressState.setError "Installation cancelled"
    statusMessage := "Installation cancelled. Press Esc to return." }

def handleProgressKey (code : KeyCode) (app : App) : App :=
  if code = .esc then
    if app.progressState.completed then app.returnFromProgress outside
    else app.cancelInstallation
  else app

/-- Starts a task that installs the version. -/
def startInstallation (version : Option String) (app : App) : App :=
  { app with
    installReceiver := some ⟨outside.channel, version⟩
    progressState :=
      (({ title := "Installing Toolchain" : ProgressState }.setStatus
        "Starting installation...").addItem { description := "Initializing..." })
    previousScreen := some app.screen
    screen := .progress
    statusMessage := "Installing... Press Esc to cancel." }

def handleVersionSelectKey (code : KeyCode) (app : App) : App :=
  match code with
  | .esc =>
      let returnScreen := app.previousScreen.getD .main
      { app with previousScreen := none, versionLoadReceiver := none }.navigateTo outside
        returnScreen
  | .up | .char 'k' => { app with versionSelectState := app.versionSelectState.selectPrevious }
  | .down | .char 'j' => { app with versionSelectState := app.versionSelectState.selectNext }
  | .enter =>
      if app.versionSelectState.canInstallSelected then
        match app.versionSelectState.selectedVersion with
        | some versionInfo => app.startInstallation outside (some versionInfo.version)
        | none => app
      else app.setStatus "Selected version is not available for your platform"
  | _ => app

def handleNormalKey (code : KeyCode) (app : App) : App :=
  match app.screen with
  | .main => app.handleMainKey outside code
  | .toolchains => app.handleToolchainsKey outside code
  | .doctor => app.handleDoctorKey outside code
  | .progress => app.handleProgressKey outside code
  | .versionSelect => app.handleVersionSelectKey outside code

/-! ## The command mode -/

/-- The first of the `lines` of a text. -/
def firstLine (text : List Char) : Option (List Char) :=
  match text.span (· ≠ '\n') with
  | ([], []) => none
  | (line, []) => some line
  | (line, _ :: _) => some (if line.getLast? = some '\r' then line.dropLast else line)

/-- The first line of the output. A long one is cut at a byte, which panics inside a character. -/
def runQuickCommand (arguments : List String) (app : App) : Option App :=
  match outside.runCommand arguments with
  | .error error => some (app.setStatus s!"Failed to run command: {error}")
  | .ok (stdout, stderr) => do
      let combined := if stdout = [] then stderr else stdout
      let line := (firstLine combined).getD "(no output)".toList
      if byteLength line > 60 then
        let (front, _) ← splitAtByte 57 line
        return app.setStatus (String.ofList front ++ "...")
      else return app.setStatus (String.ofList line)

variable [UnicodeCase]

/-- `trim().to_lowercase()` -/
def normalizedCommand (line : CommandLine) : String :=
  UnicodeCase.toLowercase (String.ofList (trim line.commandInput))

def tabComplete (app : App) : App :=
  let input := normalizedCommand app.toCommandLine
  if input = "" then app
  else
    match knownCommands.filter fun command => input.toList.isPrefixOf command.toList with
    | [] => app.setStatus "No matching command"
    | [command] =>
        { app with
          commandInput := command.toList
          cursorPos := byteLength command.toList
          statusMessage := "Enter command (Esc to cancel, Tab to complete)" }
    | found => app.setStatus ("Matches: " ++ ", ".intercalate found)

/-- Commands that need the terminal end the interface first. -/
def performCommand (command : String) (app : App) : Option App :=
  if command = "q" || command = "quit" || command = "exit" then some app.quit
  else if command = "toolchains" || command = "t" then some (app.navigateTo outside .toolchains)
  else if command = "doctor" || command = "d" then some (app.navigateTo outside .doctor)
  else if command ∈ ["build", "new", "install", "run", "verify"] then
    some { app with pendingCommand := some command, shouldQuit := true }
  else if command = "help" then app.runQuickCommand outside ["--help"]
  else if command = "version" then app.runQuickCommand outside ["version"]
  else some (app.setStatus s!"Unknown command: {command}")

def executeCommand (app : App) : Option App :=
  let command := normalizedCommand app.toCommandLine
  let originalInput := app.commandInput
  let app := { app with toCommandLine := app.toCommandLine.clear, inputMode := .normal }
  if command = "" then some (app.setStatus "No command entered")
  else
    let history := (app.commandHistory.push originalInput).resetNavigation
    { app with commandHistory := history }.performCommand outside command

def edited (app : App) (line : Option CommandLine) : Option App :=
  line.map fun line => { app with toCommandLine := line }

def handleCommandKey (code : KeyCode) (control : Bool) (app : App) : Option App :=
  match code with
  | .esc =>
      some { app with
        inputMode := .normal
        toCommandLine := { app.toCommandLine.clear with
          commandHistory := app.commandHistory.resetNavigation }
        statusMessage := "Command cancelled" }
  | .enter => app.executeCommand outside
  | .backspace => app.edited app.toCommandLine.backspace
  | .delete => app.edited app.toCommandLine.deleteChar
  | .left =>
      app.edited (if control then app.toCommandLine.moveCursorWordLeft
        else app.toCommandLine.moveCursorLeft)
  | .right =>
      app.edited (if control then app.toCommandLine.moveCursorWordRight
        else app.toCommandLine.moveCursorRight)
  | .home => app.edited (some app.toCommandLine.moveHome)
  | .end => app.edited (some app.toCommandLine.moveEnd)
  | .up => app.edited (some app.toCommandLine.historyPrevious)
  | .down => app.edited (some app.toCommandLine.historyNext)
  | .tab => some app.tabComplete
  | .char key => app.edited (app.toCommandLine.insertChar key)
  | .other => some app

def handleKey (code : KeyCode) (control : Bool) (app : App) : Option App :=
  if control && code = .char 'c' then some app.quit
  else
    match app.inputMode with
    | .normal => some (app.handleNormalKey outside code)
    | .command => app.handleCommandKey outside code control

/-! ## Channels -/

omit [UnicodeCase]

/-- What a message of the installation does, at the given time. -/
def receiveProgress (now : Nat) (app : App) : InstallProgress → App
  | .phaseStarted phase =>
      { app with progressState :=
          (app.progressState.setStatus s!"{phase}...").updateFirstItem fun item =>
            { item with description := phase } }
  | .downloadStarted total =>
      { app with progressState := app.progressState.updateFirstItem fun item =>
          ({ item with total := total } : ProgressItem).start now }
  | .downloadProgress downloaded speed =>
      { app with progressState := app.progressState.updateFirstItem fun item =>
          item.updateWithSpeed downloaded speed }
  | .phaseCompleted phase =>
      { app with progressState := app.progressState.setStatus s!"{phase} - done" }
  | .completed version =>
      { app with
        progressState := (app.progressState.complete.setStatus
          s!"Toolchain v{version} installed successfully").updateFirstItem fun item =>
            ({ item with description := s!"Installed v{version}" } : ProgressItem).complete
        statusMessage := "Installation complete! Press Esc to return." }
  | .failed error =>
      { app with
        progressState := app.progressState.setError error
        statusMessage := "Installation failed. Press Esc to return." }

/-- A message that is the last one of an installation. -/
def isLast : InstallProgress → Bool
  | .completed _ | .failed _ => true
  | _ => false

/-- Reads all messages that the channel of the installation holds. -/
def pollInstallProgress (now : Nat) (messages : List InstallProgress) (app : App) : App :=
  match app.installReceiver with
  | none => app
  | some _ =>
      let app := messages.foldl (receiveProgress now) app
      if messages.any isLast then { app with installReceiver := none } else app

/-- Reads the message that the channel of the version loading holds, if there is one. -/
def pollVersionLoading (result : Option (Except String (List VersionSelectInfo))) (app : App) :
    App :=
  match app.versionLoadReceiver, result with
  | none, _ | _, none => app
  | some _, some (.ok versions) =>
      { app with
        versionLoadReceiver := none
        versionSelectState := { app.versionSelectState with
          versions := versions
          selected := 0
          loaded := true
          loading := false } }
  | some _, some (.error error) =>
      { app with
        versionLoadReceiver := none
        versionSelectState := { app.versionSelectState with
          error := some error
          loaded := true
          loading := false } }

end App

/-! ## Runs -/

/-- One thing that the event loop reacts to. -/
inductive AppEvent
  | key (code : KeyCode) (control : Bool) (outside : Surroundings)
  | poll (now : Nat) (messages : List InstallProgress)
      (versions : Option (Except String (List VersionSelectInfo)))

section

variable [UnicodeCase]

/-- Nothing happens any more after the application has quit. -/
def App.step (app : App) (event : AppEvent) : Option App :=
  if app.shouldQuit then none
  else
    match event with
    | .key code control outside => app.handleKey outside code control
    | .poll now messages versions =>
        some ((app.pollInstallProgress now messages).pollVersionLoading versions)

end

end Inference.Infs
