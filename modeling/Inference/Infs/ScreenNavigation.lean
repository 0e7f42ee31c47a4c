import Inference.Infs.TerminalApp

/-! # Navigation between the screens

Where the application is on its screens, as an abstract machine that the application refines, and
where the escape key leads. One slot holds the previous screen. An installation overwrites it, so
that the version selection does not know any more where it was opened from.
-/

namespace Inference.Infs

open TypeChecker (UnicodeCase)

/-! ## The abstract machine -/

/-- What the navigation depends on. -/
structure Navigation where
  screen : Screen
  inputMode : InputMode
  previousScreen : Option Screen
  installReceiver : Option InstallTask
  completed : Bool
  shouldQuit : Bool
  deriving DecidableEq, Repr

/-- What one event can do, the escape key or another one. -/
inductive Moves : Bool → Navigation → Navigation → Prop
  | stays {escape : Bool} {here : Navigation} (mode : InputMode) (quit : Bool)
      (escapes : escape = true → here.screen = .main ∧ quit = here.shouldQuit)
      (commands : mode = .command → here.screen = .main) :
      Moves escape here { here with inputMode := mode, shouldQuit := quit }
  | enters {here : Navigation} {screen : Screen} (isMain : here.screen = .main)
      (entered : screen = .toolchains ∨ screen = .doctor) :
      Moves false here { here with screen := screen, inputMode := .normal }
  | selects {here : Navigation} (isToolchains : here.screen = .toolchains) :
      Moves false here { here with
        screen := .versionSelect
        previousScreen := some .toolchains }
  | closes {here : Navigation} (isList : here.screen = .toolchains ∨ here.screen = .doctor) :
      Moves true here { here with screen := .main }
  | goesBack {here : Navigation} (isSelection : here.screen = .versionSelect) :
      Moves true here { here with
        screen := here.previousScreen.getD .main
        previousScreen := none }
  | installs {here : Navigation} (task : InstallTask)
      (isSelection : here.screen = .versionSelect) :
      Moves false here { here with
        screen := .progress
        previousScreen := some .versionSelect
        installReceiver := some task
        completed := false }
  | cancels {here : Navigation} (isProgress : here.screen = .progress)
      (running : here.completed = false) :
      Moves true here { here with installReceiver := none, completed := true }
  | returns {here : Navigation} (isProgress : here.screen = .progress)
      (ended : here.completed = true) :
      Moves true here { here with
        screen := here.previousScreen.getD .main
        previousScreen := none
        installReceiver := none }
  | receives {here : Navigation} (receiver : Option InstallTask) (completed : Bool)
      (isReceiving : here.installReceiver.isSome)
      (keeps : receiver = none ∨ receiver = here.installReceiver)
      (ends : here.completed = true → completed = true) :
      Moves false here { here with installReceiver := receiver, completed := completed }

/-- The screens that the open ones were entered from after a step, the latest first. -/
def trailAfter (escape : Bool) (before after : Screen) (trail : List Screen) : List Screen :=
  if after = before then trail
  else if escape then trail.tail
  else before :: trail

/-- What holds on a screen that was entered from the screens of the trail. -/
def EnteredFrom (previous : Option Screen) (trail : List Screen) : Screen → Prop
  | .main => True
  | .toolchains | .doctor => ∃ rest, trail = .main :: rest
  | .versionSelect =>
      (∃ rest, trail = .toolchains :: .main :: rest) ∧
        (previous = none ∨ previous = some .toolchains)
  | .progress =>
      (∃ rest, trail = .versionSelect :: .toolchains :: .main :: rest) ∧
        previous = some .versionSelect

structure Navigation.Sound (here : Navigation) (trail : List Screen) : Prop where
  commands : here.inputMode = .command → here.screen = .main
  receiving : here.installReceiver.isSome → here.screen = .progress
  entered : EnteredFrom here.previousScreen trail here.screen

theorem Moves.sound {escape : Bool} {here there : Navigation} {trail : List Screen}
    (moves : Moves escape here there) (sound : here.Sound trail) :
    there.Sound (trailAfter escape here.screen there.screen trail) := by
  rcases here with ⟨screen, mode, previous, receiver, completed, quit⟩
  rcases sound with ⟨commands, receiving, entered⟩
  cases moves with
  | stays mode quit escapes commands => exact ⟨commands, receiving, by simpa [trailAfter] using entered⟩
  | enters isMain target =>
      dsimp only at *
      subst isMain
      have idle : receiver.isSome = true → False := fun some => nomatch receiving some
      rcases target with rfl | rfl
      · exact ⟨nofun, fun some => (idle some).elim, trail, rfl⟩
      · exact ⟨nofun, fun some => (idle some).elim, trail, rfl⟩
  | selects isToolchains =>
      dsimp only at *
      subst isToolchains
      rcases entered with ⟨rest, rfl⟩
      exact ⟨fun command => (nomatch commands command), fun some => (nomatch receiving some),
        ⟨rest, rfl⟩, Or.inr rfl⟩
  | closes isList =>
      dsimp only at *
      exact ⟨fun _ => rfl, fun some => (by rcases isList with rfl | rfl <;> cases receiving some),
        trivial⟩
  | goesBack isSelection =>
      dsimp only at *
      subst isSelection
      rcases entered with ⟨⟨rest, rfl⟩, rfl | rfl⟩
      · exact ⟨fun _ => rfl, fun some => (nomatch receiving some), trivial⟩
      · exact ⟨fun command => (nomatch commands command), fun some => (nomatch receiving some), rest,
          rfl⟩
  | installs task isSelection =>
      dsimp only at *
      subst isSelection
      rcases entered with ⟨⟨rest, rfl⟩, _⟩
      exact ⟨fun command => (nomatch commands command), fun _ => rfl, ⟨rest, rfl⟩, rfl⟩
  | cancels isProgress running =>
      dsimp only at *
      subst isProgress
      exact ⟨commands, fun _ => rfl, entered⟩
  | returns isProgress ended =>
      dsimp only at *
      subst isProgress
      rcases entered with ⟨⟨rest, rfl⟩, rfl⟩
      exact ⟨fun command => (nomatch commands command), nofun, ⟨rest, rfl⟩, Or.inl rfl⟩
  | receives received completed isReceiving keeps ends =>
      dsimp only at *
      have isProgress := receiving isReceiving
      subst isProgress
      exact ⟨commands, fun _ => rfl, entered⟩

/-! ### Where the escape key leads -/

/-- A screen that the escape key closes. -/
def Navigation.IsClosing (here : Navigation) : Prop :=
  here.screen = .versionSelect ∨ here.screen = .progress ∧ here.completed = true

variable {here : Navigation}

/-- The escape key closes a screen towards the one it was entered from, unless that is forgotten. -/
theorem Moves.returns_iff {there : Navigation} {trail : List Screen}
    (moves : Moves true here there) (sound : here.Sound trail) (closing : here.IsClosing) :
    trail.head? = some there.screen ↔
      ¬ (here.screen = .versionSelect ∧ here.previousScreen = none) := by
  rcases here with ⟨screen, mode, previous, receiver, completed, quit⟩
  have entered := sound.entered
  unfold Navigation.IsClosing at closing
  dsimp only at *
  cases moves with
  | stays mode quit escapes commands =>
      have isMain := (escapes rfl).1
      simp_all
  | closes isList =>
      rcases isList with rfl | rfl <;> simp_all
  | goesBack isSelection =>
      dsimp only at *
      subst isSelection
      rcases entered with ⟨⟨rest, rfl⟩, rfl | rfl⟩
      · simp
      · simp
  | cancels isProgress running => simp_all
  | returns isProgress ended =>
      dsimp only at *
      subst isProgress
      rcases entered with ⟨⟨rest, rfl⟩, rfl⟩
      simp

/-- How often the escape key is at most pressed until the main screen is reached. -/
def Navigation.depth (here : Navigation) : Nat :=
  match here.screen with
  | .main => 0
  | .toolchains | .doctor => 1
  | .versionSelect => if here.previousScreen = none then 1 else 2
  | .progress => if here.completed then 2 else 3

/-! ## The application refines it -/

variable {app app' : App} {code : KeyCode}

namespace App

def navigation (app : App) : Navigation :=
  ⟨app.screen, app.inputMode, app.previousScreen, app.installReceiver, app.progressState.completed,
    app.shouldQuit⟩

variable (outside : Surroundings)

@[simp] theorem setStatus_navigation (app : App) (message : String) :
    (app.setStatus message).navigation = app.navigation :=
  rfl

@[simp] theorem loadToolchainData_navigation (app : App) :
    (app.loadToolchainData outside).navigation = app.navigation := by
  unfold loadToolchainData
  cases outside.toolchains with
  | error error => rfl
  | ok installed =>
      rcases installed with ⟨defaultVersion, versions, metadata⟩
      cases defaultVersion <;> cases versions <;> rfl

@[simp] theorem loadDoctorData_navigation (app : App) :
    (app.loadDoctorData outside).navigation = app.navigation :=
  rfl

@[simp] theorem loadVersionData_navigation (app : App) :
    (app.loadVersionData outside).navigation = app.navigation :=
  rfl

@[simp] theorem navigateTo_navigation (app : App) (screen : Screen) :
    (app.navigateTo outside screen).navigation = { app.navigation with screen := screen } := by
  cases screen with
  | main | progress => rfl
  | toolchains =>
      rw [navigateTo, setStatus_navigation]
      split
      · exact loadToolchainData_navigation outside _
      · rfl
  | doctor =>
      rw [navigateTo, setStatus_navigation]
      split <;> rfl
  | versionSelect =>
      rw [navigateTo, setStatus_navigation]
      split <;> rfl

theorem setSelectedToolchainAsDefault_navigation (app : App) :
    (app.setSelectedToolchainAsDefault outside).navigation = app.navigation := by
  unfold setSelectedToolchainAsDefault
  split
  · rfl
  · split
    · rfl
    · split
      · rw [loadToolchainData_navigation]
        rfl
      · rfl

theorem startInstallation_navigation (version : Option String) (app : App) :
    (app.startInstallation outside version).navigation =
      { app.navigation with
        screen := .progress
        previousScreen := some app.screen
        installReceiver := some ⟨outside.channel, version⟩
        completed := false } :=
  rfl

theorem receiveProgress_navigation (now : Nat) (app : App) (message : InstallProgress) :
    (receiveProgress now app message).navigation =
      { app.navigation with completed := app.progressState.completed || isLast message } := by
  cases message <;> simp [receiveProgress, navigation, isLast, ProgressState.setStatus,
    ProgressState.updateFirstItem, ProgressState.complete, ProgressState.setError]

theorem receivedProgress_navigation (now : Nat) (messages : List InstallProgress) (app : App) :
    (messages.foldl (receiveProgress now) app).navigation =
      { app.navigation with completed := app.progressState.completed || messages.any isLast } := by
  induction messages generalizing app with
  | nil => simp [navigation]
  | cons message messages induction =>
      have first := receiveProgress_navigation now app message
      have later := induction (receiveProgress now app message)
      have completed : (receiveProgress now app message).progressState.completed =
          (app.progressState.completed || isLast message) := congrArg Navigation.completed first
      rw [List.foldl_cons, later, first, completed, List.any_cons, Bool.or_assoc]

theorem pollVersionLoading_navigation
    (result : Option (Except String (List VersionSelectInfo))) (app : App) :
    (app.pollVersionLoading result).navigation = app.navigation := by
  unfold pollVersionLoading
  split <;> rfl

/-- Whether a key is the escape key. -/
def isEsc (code : KeyCode) : Bool :=
  code = .esc

theorem stays_main {escape : Bool} (isMain : app.screen = .main)
    (same : app'.navigation = app.navigation) : Moves escape app.navigation app'.navigation := by
  rw [same]
  exact .stays app.inputMode app.shouldQuit (fun _ => ⟨isMain, rfl⟩) (fun _ => isMain)

theorem stays_normal (normal : app.inputMode = .normal)
    (other : code ≠ .esc) (same : app'.navigation = app.navigation) :
    Moves (isEsc code) app.navigation app'.navigation := by
  rw [same, isEsc, decide_eq_false other]
  refine .stays app.inputMode app.shouldQuit (fun impossible => nomatch impossible) ?_
  intro command
  rw [normal] at command
  cases command

theorem moves_enter {screen : Screen} (isMain : app.screen = .main)
    (normal : app.inputMode = .normal) (entered : screen = .toolchains ∨ screen = .doctor) :
    Moves false app.navigation (app.navigateTo outside screen).navigation := by
  have moved : Moves false app.navigation
      { app.navigation with screen := screen, inputMode := .normal } := .enters isMain entered
  rw [navigateTo_navigation]
  rwa [← normal] at moved

theorem moves_quit (isMain : app.screen = .main) :
    Moves false app.navigation app.quit.navigation :=
  .stays app.inputMode true (fun impossible => nomatch impossible) (fun _ => isMain)

theorem menuItem_entered {item : MenuItem} (member : item ∈ menuItems) {screen : Screen}
    (target : item.screen = some screen) : screen = .toolchains ∨ screen = .doctor := by
  simp only [menuItems, List.mem_cons, List.not_mem_nil, or_false] at member
  rcases member with rfl | rfl | rfl
  · exact Or.inl (Option.some.inj target).symm
  · exact Or.inr (Option.some.inj target).symm
  · cases target

/-- What happens with an item of the menu, selected or named by its key. -/
theorem moves_menuItem (isMain : app.screen = .main)
    (normal : app.inputMode = .normal) {item : MenuItem} (member : item ∈ menuItems) :
    Moves false app.navigation
      (if item.quits then app.quit
        else
          match item.screen with
          | some screen => app.navigateTo outside screen
          | none => app).navigation := by
  split
  · exact moves_quit isMain
  · split
    · rename_i screen target
      exact moves_enter outside isMain normal (menuItem_entered member target)
    · exact stays_main isMain rfl

theorem handleMainKey_moves (isMain : app.screen = .main)
    (normal : app.inputMode = .normal) (code : KeyCode) :
    Moves (isEsc code) app.navigation (app.handleMainKey outside code).navigation := by
  unfold handleMainKey
  split
  · exact moves_quit isMain
  · exact .stays .command app.shouldQuit (fun _ => ⟨isMain, rfl⟩) (fun _ => isMain)
  · exact stays_main isMain rfl
  · exact stays_main isMain rfl
  · exact stays_main isMain rfl
  · exact stays_main isMain rfl
  · exact moves_menuItem outside isMain normal (List.get_mem _ _)
  · split
    · rename_i item found
      exact moves_menuItem outside isMain normal (List.mem_of_find?_eq_some found)
    · exact stays_main isMain rfl
  · exact stays_main isMain rfl

theorem handleToolchainsKey_moves (isToolchains : app.screen = .toolchains)
    (normal : app.inputMode = .normal) (code : KeyCode) :
    Moves (isEsc code) app.navigation (app.handleToolchainsKey outside code).navigation := by
  have selected : Moves false app.navigation (app.selectVersion outside).navigation := by
    rw [selectVersion, navigateTo_navigation]
    exact .selects isToolchains
  unfold handleToolchainsKey
  split
  · exact .closes (Or.inl isToolchains)
  · exact stays_normal normal nofun rfl
  · exact stays_normal normal nofun rfl
  · exact stays_normal normal nofun rfl
  · exact stays_normal normal nofun rfl
  · exact selected
  · split
    · exact selected
    · exact stays_normal normal nofun (setSelectedToolchainAsDefault_navigation outside app)
  · rename_i notEsc _ _ _ _ _ _
    exact stays_normal normal notEsc rfl

theorem handleDoctorKey_moves (isDoctor : app.screen = .doctor)
    (normal : app.inputMode = .normal) (code : KeyCode) :
    Moves (isEsc code) app.navigation (app.handleDoctorKey outside code).navigation := by
  unfold handleDoctorKey
  split
  · exact .closes (Or.inr isDoctor)
  · exact stays_normal normal nofun rfl
  · exact stays_normal normal nofun rfl
  · exact stays_normal normal nofun rfl
  · exact stays_normal normal nofun rfl
  · exact stays_normal normal nofun rfl
  · rename_i notEsc _ _ _ _ _
    exact stays_normal normal notEsc rfl

theorem handleProgressKey_moves (isProgress : app.screen = .progress)
    (normal : app.inputMode = .normal) (code : KeyCode) :
    Moves (isEsc code) app.navigation (app.handleProgressKey outside code).navigation := by
  unfold handleProgressKey
  split
  · rename_i escape
    rw [isEsc, decide_eq_true escape]
    split
    · rename_i ended
      rw [returnFromProgress, navigateTo_navigation]
      have returned := @Moves.returns app.navigation isProgress ended
      split <;> exact returned
    · rename_i running
      exact .cancels isProgress (Bool.not_eq_true _ ▸ running)
  · rename_i other
    exact stays_normal normal other rfl

theorem handleVersionSelectKey_moves (isSelection : app.screen = .versionSelect)
    (normal : app.inputMode = .normal) (code : KeyCode) :
    Moves (isEsc code) app.navigation (app.handleVersionSelectKey outside code).navigation := by
  unfold handleVersionSelectKey
  split
  · rw [navigateTo_navigation]
    exact .goesBack isSelection
  · exact stays_normal normal nofun rfl
  · exact stays_normal normal nofun rfl
  · exact stays_normal normal nofun rfl
  · exact stays_normal normal nofun rfl
  · split
    · split
      · rw [startInstallation_navigation, isSelection]
        exact .installs _ isSelection
      · exact stays_normal normal nofun rfl
    · exact stays_normal normal nofun rfl
  · rename_i notEsc _ _ _ _ _
    exact stays_normal normal notEsc rfl

theorem handleNormalKey_moves (normal : app.inputMode = .normal) (code : KeyCode) :
    Moves (isEsc code) app.navigation (app.handleNormalKey outside code).navigation := by
  unfold handleNormalKey
  split
  · rename_i isMain
    exact handleMainKey_moves outside isMain normal code
  · rename_i isToolchains
    exact handleToolchainsKey_moves outside isToolchains normal code
  · rename_i isDoctor
    exact handleDoctorKey_moves outside isDoctor normal code
  · rename_i isProgress
    exact handleProgressKey_moves outside isProgress normal code
  · rename_i isSelection
    exact handleVersionSelectKey_moves outside isSelection normal code

theorem runQuickCommand_navigation {arguments : List String}
    (ran : app.runQuickCommand outside arguments = some app') :
    app'.navigation = app.navigation := by
  unfold runQuickCommand at ran
  split at ran
  · cases ran
    rfl
  · rename_i stdout stderr _
    dsimp only at ran
    generalize (firstLine (if stdout = [] then stderr else stdout)).getD "(no output)".toList = line
      at ran
    split at ran
    · rcases Option.bind_eq_some_iff.mp ran with ⟨cut, _, ran⟩
      cases ran
      rfl
    · cases ran
      rfl

theorem edited_navigation {line : Option CommandLine}
    (edit : app.edited line = some app') : app'.navigation = app.navigation := by
  rcases Option.map_eq_some_iff.mp edit with ⟨line, _, rfl⟩
  rfl

/-- A command is performed in the normal mode. -/
theorem performCommand_moves (isMain : here.screen = .main)
    (behind : app.navigation = { here with inputMode := .normal }) {command : String}
    (performed : app.performCommand outside command = some app') :
    Moves false here app'.navigation := by
  have stays : ∀ quit, Moves false here { here with inputMode := .normal, shouldQuit := quit } :=
    fun quit => .stays .normal quit (fun impossible => nomatch impossible) (fun _ => isMain)
  have same : ∀ {app'' : App}, app''.navigation = app.navigation →
      Moves false here app''.navigation :=
    fun same => (same.trans behind) ▸ stays here.shouldQuit
  have quits : Moves false here { app.navigation with shouldQuit := true } := by
    rw [behind]
    exact stays true
  have enters : ∀ screen, screen = .toolchains ∨ screen = .doctor →
      Moves false here (app.navigateTo outside screen).navigation := by
    intro screen entered
    rw [navigateTo_navigation, behind]
    exact .enters isMain entered
  unfold performCommand at performed
  split at performed
  · cases performed
    exact quits
  · split at performed
    · cases performed
      exact enters .toolchains (Or.inl rfl)
    · split at performed
      · cases performed
        exact enters .doctor (Or.inr rfl)
      · split at performed
        · cases performed
          exact quits
        · split at performed
          · exact same (runQuickCommand_navigation outside performed)
          · split at performed
            · exact same (runQuickCommand_navigation outside performed)
            · cases performed
              exact same rfl

section

variable [UnicodeCase]

theorem executeCommand_moves (isMain : app.screen = .main)
    (executed : app.executeCommand outside = some app') :
    Moves false app.navigation app'.navigation := by
  unfold executeCommand at executed
  dsimp only at executed
  split at executed
  · cases executed
    exact .stays .normal app.shouldQuit (fun impossible => nomatch impossible) (fun _ => isMain)
  · exact performCommand_moves outside isMain rfl executed

theorem handleCommandKey_moves (isMain : app.screen = .main)
    {control : Bool} (handled : app.handleCommandKey outside code control = some app') :
    Moves (isEsc code) app.navigation app'.navigation := by
  cases code with
  | esc =>
      cases handled
      exact .stays .normal app.shouldQuit (fun _ => ⟨isMain, rfl⟩) (fun _ => isMain)
  | enter => exact executeCommand_moves outside isMain handled
  | tab =>
      cases handled
      unfold tabComplete
      dsimp only
      split
      · exact stays_main isMain rfl
      · split <;> exact stays_main isMain rfl
  | other =>
      cases handled
      exact stays_main isMain rfl
  | _ => exact stays_main isMain (edited_navigation handled)

end

/-- Looking at the channels can only end an installation. -/
theorem poll_navigation (now : Nat) (messages : List InstallProgress)
    (versions : Option (Except String (List VersionSelectInfo))) (app : App) :
    ∃ receiver completed,
      ((app.pollInstallProgress now messages).pollVersionLoading versions).navigation =
          { app.navigation with installReceiver := receiver, completed := completed } ∧
        (receiver = none ∨ receiver = app.installReceiver) ∧
        (app.progressState.completed = true → completed = true) ∧
        (app.installReceiver = none → completed = app.progressState.completed) := by
  rw [pollVersionLoading_navigation]
  unfold pollInstallProgress
  split
  · exact ⟨_, _, rfl, Or.inr rfl, id, fun _ => rfl⟩
  · rename_i task receiving
    have received := receivedProgress_navigation now messages app
    have ends : app.progressState.completed = true →
        (app.progressState.completed || messages.any isLast) = true := by
      intro completed
      rw [Bool.or_eq_true]
      exact Or.inl completed
    generalize messages.foldl (receiveProgress now) app = informed at received
    refine ⟨if messages.any isLast then none else app.installReceiver, _, ?_, ?_, ends,
      fun impossible => nomatch receiving.symm.trans impossible⟩
    · dsimp only
      split
      · change { informed.navigation with installReceiver := none } = _
        rw [received]
      · exact received
    · split
      · exact Or.inl rfl
      · exact Or.inr rfl

theorem poll_moves (now : Nat) (messages : List InstallProgress)
    (versions : Option (Except String (List VersionSelectInfo)))
    (commands : app.inputMode = .command → app.screen = .main) :
    Moves false app.navigation
      ((app.pollInstallProgress now messages).pollVersionLoading versions).navigation := by
  rcases poll_navigation now messages versions app with ⟨receiver, completed, same, keeps, ends, idle⟩
  rw [same]
  cases receiving : app.installReceiver with
  | none =>
      have isNone : receiver = app.installReceiver := by
        rcases keeps with rfl | rfl
        · exact receiving.symm
        · rfl
      rw [isNone, idle receiving]
      exact .stays app.inputMode app.shouldQuit nofun commands
  | some task => exact .receives receiver completed (by rw [navigation, receiving]; rfl) keeps ends

end App

/-! ## Runs -/

namespace AppEvent

def isEsc : AppEvent → Bool
  | .key code _ _ => App.isEsc code
  | .poll _ _ _ => false

def isPoll : AppEvent → Bool
  | .key _ _ _ => false
  | .poll _ _ _ => true

end AppEvent

variable {event : AppEvent} {events : List AppEvent}

section

variable [UnicodeCase]

theorem App.handleKey_moves {outside : Surroundings}
    {control : Bool} (commands : app.inputMode = .command → app.screen = .main)
    (handled : app.handleKey outside code control = some app') :
    Moves (isEsc code) app.navigation app'.navigation := by
  unfold handleKey at handled
  split at handled
  · rename_i interrupt
    cases handled
    rw [Bool.and_eq_true] at interrupt
    have notEsc : isEsc code = false := by
      rw [of_decide_eq_true interrupt.2]
      rfl
    rw [notEsc]
    exact .stays app.inputMode true nofun commands
  · split at handled
    · rename_i normal
      cases handled
      exact handleNormalKey_moves outside normal code
    · rename_i command
      exact handleCommandKey_moves outside (commands command) handled

theorem App.step_moves (commands : app.inputMode = .command → app.screen = .main)
    (stepped : app.step event = some app') : Moves event.isEsc app.navigation app'.navigation := by
  unfold App.step at stepped
  cases event with
  | poll now messages versions =>
      split at stepped
      · cases stepped
      · cases stepped
        exact poll_moves now messages versions commands
  | key code control outside =>
      split at stepped
      · cases stepped
      · exact handleKey_moves commands stepped

/-- The application, and the screens that the open ones were entered from, the latest first. -/
structure Visit where
  app : App := {}
  trail : List Screen := []

namespace Visit

def step (visit : Visit) (event : AppEvent) : Option Visit :=
  (visit.app.step event).map fun app =>
    ⟨app, trailAfter event.isEsc visit.app.screen app.screen visit.trail⟩

theorem step_of {visit : Visit} (stepped : visit.app.step event = some app) :
    visit.step event =
      some ⟨app, trailAfter event.isEsc visit.app.screen app.screen visit.trail⟩ := by
  rw [step, stepped]
  rfl

def run : Visit → List AppEvent → Option Visit
  | visit, [] => some visit
  | visit, event :: events => (visit.step event).bind fun next => next.run events

def Sound (visit : Visit) : Prop :=
  visit.app.navigation.Sound visit.trail

theorem step_moves {visit next : Visit} {event : AppEvent} (sound : visit.Sound)
    (stepped : visit.step event = some next) :
    Moves event.isEsc visit.app.navigation next.app.navigation ∧
      next.trail = trailAfter event.isEsc visit.app.screen next.app.screen visit.trail := by
  rcases Option.map_eq_some_iff.mp stepped with ⟨app, appStepped, rfl⟩
  exact ⟨App.step_moves sound.commands appStepped, rfl⟩

theorem step_sound {visit next : Visit} (sound : visit.Sound)
    (stepped : visit.step event = some next) : next.Sound := by
  rcases step_moves sound stepped with ⟨moves, trail⟩
  rw [Sound, trail]
  exact moves.sound sound

theorem run_sound {visit last : Visit} (sound : visit.Sound)
    (ran : visit.run events = some last) : last.Sound := by
  induction events generalizing visit with
  | nil =>
      cases ran
      exact sound
  | cons event events induction =>
      rcases Option.bind_eq_some_iff.mp ran with ⟨next, stepped, ran⟩
      exact induction (step_sound sound stepped) ran

omit [UnicodeCase] in
theorem start_sound : ({} : Visit).Sound :=
  ⟨nofun, nofun, trivial⟩

end Visit

/-! ## The escape key leads to the main screen -/

omit [UnicodeCase] in
theorem Moves.depth_le {there : Navigation} {trail : List Screen}
    (moves : Moves true here there) (sound : here.Sound trail) :
    there.depth ≤ here.depth - 1 ∧ there.shouldQuit = here.shouldQuit := by
  rcases here with ⟨screen, mode, previous, receiver, completed, quit⟩
  have entered := sound.entered
  cases moves with
  | stays mode quit escapes commands =>
      rcases escapes rfl with ⟨isMain, same⟩
      exact ⟨by simp_all [Navigation.depth], same⟩
  | closes isList => exact ⟨Nat.zero_le _, rfl⟩
  | goesBack isSelection =>
      dsimp only at *
      subst isSelection
      rcases entered with ⟨_, rfl | rfl⟩ <;> exact ⟨Nat.le_refl _, rfl⟩
  | cancels isProgress running => exact ⟨by simp_all [Navigation.depth], rfl⟩
  | returns isProgress ended =>
      dsimp only at *
      subst isProgress
      subst ended
      rcases entered with ⟨_, rfl⟩
      exact ⟨Nat.le_refl _, rfl⟩

omit [UnicodeCase] in
theorem App.poll_depth (now : Nat) (messages : List InstallProgress)
    (versions : Option (Except String (List VersionSelectInfo))) (app : App) :
    let polled := (app.pollInstallProgress now messages).pollVersionLoading versions
    polled.navigation.depth ≤ app.navigation.depth ∧ polled.shouldQuit = app.shouldQuit := by
  rcases poll_navigation now messages versions app with ⟨receiver, completed, same, _, ends, _⟩
  refine ⟨?_, congrArg Navigation.shouldQuit same⟩
  rw [same]
  unfold Navigation.depth
  cases onScreen : app.navigation.screen with
  | progress =>
      cases ended : app.progressState.completed with
      | false => simp [navigation, ended]; split <;> omega
      | true => simp [navigation, ended, ends ended]
  | _ => exact Nat.le_refl _

theorem App.step_escape (running : app.shouldQuit = false) (control : Bool)
    (outside : Surroundings) : ∃ app', app.step (.key .esc control outside) = some app' := by
  unfold App.step
  rw [if_neg (by rw [running]; decide)]
  dsimp only
  unfold App.handleKey
  rw [if_neg (by simp)]
  split
  · exact ⟨_, rfl⟩
  · exact ⟨_, rfl⟩

namespace Visit

/-- An escape key that is pressed comes closer to the main screen, and messages do not lead away. -/
theorem step_depth {visit : Visit} (sound : visit.Sound)
    (running : visit.app.shouldQuit = false) (calm : event.isEsc = true ∨ event.isPoll = true) :
    ∃ next, visit.step event = some next ∧ next.Sound ∧ next.app.shouldQuit = false ∧
      next.app.navigation.depth ≤
        visit.app.navigation.depth - if event.isEsc then 1 else 0 := by
  cases event with
  | key code control outside =>
      have escape : code = .esc := of_decide_eq_true (calm.resolve_right nofun)
      subst escape
      rcases App.step_escape running control outside with ⟨app, stepped⟩
      have moves := App.step_moves sound.commands stepped
      have visited := step_of stepped
      rcases moves.depth_le sound with ⟨closer, same⟩
      exact ⟨_, visited, step_sound sound visited, same.trans running, closer⟩
  | poll now messages versions =>
      have stepped : visit.app.step (.poll now messages versions) =
          some ((visit.app.pollInstallProgress now messages).pollVersionLoading versions) := by
        unfold App.step
        rw [if_neg (by rw [running]; decide)]
      have visited := step_of stepped
      rcases App.poll_depth now messages versions visit.app with ⟨closer, same⟩
      exact ⟨_, visited, step_sound sound visited, same.trans running, closer⟩

theorem reaches_main {visit : Visit} (sound : visit.Sound) (running : visit.app.shouldQuit = false)
    (calm : ∀ event ∈ events, event.isEsc = true ∨ event.isPoll = true)
    (enough : visit.app.navigation.depth ≤ events.countP AppEvent.isEsc) :
    ∃ last, visit.run events = some last ∧ last.app.screen = .main := by
  induction events generalizing visit with
  | nil =>
      refine ⟨visit, rfl, ?_⟩
      have isZero := Nat.le_zero.mp enough
      unfold Navigation.depth at isZero
      split at isZero
      · rename_i isMain
        exact isMain
      · cases isZero
      · cases isZero
      · split at isZero <;> cases isZero
      · split at isZero <;> cases isZero
  | cons event events induction =>
      rcases step_depth sound running (calm event List.mem_cons_self) with
        ⟨next, stepped, nextSound, nextRunning, closer⟩
      have nextEnough : next.app.navigation.depth ≤ events.countP AppEvent.isEsc := by
        rw [List.countP_cons] at enough
        omega
      rcases induction nextSound nextRunning
        (fun other member => calm other (List.mem_cons_of_mem _ member)) nextEnough with
        ⟨last, ran, isMain⟩
      exact ⟨last, Option.bind_eq_some_iff.mpr ⟨next, stepped, ran⟩, isMain⟩

theorem run_append (visit : Visit) (front back : List AppEvent) :
    visit.run (front ++ back) = (visit.run front).bind fun next => next.run back := by
  induction front generalizing visit with
  | nil => rfl
  | cons event front induction =>
      rw [List.cons_append, run, run, Option.bind_assoc]
      congr 1
      funext next
      exact induction next

end Visit

/-! ## The navigation law -/

/-- One step of the run over the events from the main screen. -/
def Passes (events : List AppEvent) (visit : Visit) (event : AppEvent) (next : Visit) : Prop :=
  ∃ front, front ++ [event] <+: events ∧ ({} : Visit).run front = some visit ∧
    visit.step event = some next

/-- The application is told that the installation is complete. -/
def Completes (app : App) : AppEvent → Prop
  | .poll _ messages _ =>
      app.installReceiver.isSome ∧ ∃ version, .completed version ∈ messages
  | .key _ _ _ => False

structure NavigationLaw (events : List AppEvent) : Prop where
  /-- The escape key closes a screen towards the one it was entered from. -/
  returns : ∀ visit event next, Passes events visit event next → event.isEsc = true →
    visit.app.navigation.IsClosing → visit.trail.head? = some next.app.screen
  /-- From everywhere, three escape keys lead to the main screen, whatever messages arrive. -/
  escapes : ∀ front visit, front <+: events → ({} : Visit).run front = some visit →
    visit.app.shouldQuit = false → ∀ more : List AppEvent,
      (∀ event ∈ more, event.isEsc = true ∨ event.isPoll = true) →
        3 ≤ more.countP AppEvent.isEsc →
          ∃ last, visit.run more = some last ∧ last.app.screen = .main
  /-- Behind an installation, a list on display was read from the disk behind it. -/
  fresh : ∀ front event middle visit last, front ++ event :: middle <+: events →
    ({} : Visit).run front = some visit → Completes visit.app event →
      visit.run (event :: middle) = some last → last.app.screen = .toolchains →
        ∃ code control outside, .key code control outside ∈ middle ∧
          last.app.toolchainsState.toolchains = outside.listed

/-- The version selection is not left by the escape key once it does not know where it was opened
from. -/
def KeepsEntry (events : List AppEvent) : Prop :=
  ∀ visit event next, Passes events visit event next → event.isEsc = true →
    ¬ (visit.app.screen = .versionSelect ∧ visit.app.previousScreen = none)

/-- The screens between which an installation is started and waited for. -/
def Navigation.IsHeld (here : Navigation) : Prop :=
  here.screen = .progress ∨ here.screen = .versionSelect ∧ here.previousScreen = none

omit [UnicodeCase] in
theorem Moves.held {escape : Bool} {here there : Navigation} {trail : List Screen}
    (moves : Moves escape here there) (sound : here.Sound trail) (held : here.IsHeld)
    (keeps : escape = true → ¬ (here.screen = .versionSelect ∧ here.previousScreen = none)) :
    there.IsHeld := by
  rcases here with ⟨screen, mode, previous, receiver, completed, quit⟩
  have entered := sound.entered
  unfold Navigation.IsHeld at *
  cases moves with
  | stays | cancels | receives => exact held
  | enters | selects | closes => simp_all
  | goesBack isSelection =>
      have forgotten := held.resolve_left (by simp_all)
      exact (keeps rfl forgotten).elim
  | installs => exact Or.inl rfl
  | returns isProgress ended =>
      dsimp only at *
      subst isProgress
      rcases entered with ⟨_, rfl⟩
      exact Or.inr ⟨rfl, rfl⟩

/-- Behind an installation the version selection and the progress are not left. -/
theorem Visit.run_held {front middle : List AppEvent} {visit last : Visit}
    (keeps : KeepsEntry events) (within : front ++ middle <+: events)
    (reached : ({} : Visit).run front = some visit) (held : visit.app.navigation.IsHeld)
    (ran : visit.run middle = some last) : last.app.navigation.IsHeld := by
  induction middle generalizing front visit with
  | nil =>
      cases ran
      exact held
  | cons event middle induction =>
      rcases Option.bind_eq_some_iff.mp ran with ⟨next, stepped, ran⟩
      have sound := run_sound start_sound reached
      rw [List.append_cons] at within
      have passes : Passes events visit event next :=
        ⟨front, (List.prefix_append _ _).trans within, reached, stepped⟩
      have nextReached : ({} : Visit).run (front ++ [event]) = some next := by
        rw [run_append, reached]
        change (visit.step event).bind (fun next => some next) = some next
        rw [stepped]
        rfl
      have nextHeld := (step_moves sound stepped).1.held sound held (keeps visit event next passes)
      exact induction within nextReached nextHeld ran

/-- The law holds of a run just when the version selection is left by the escape key only while it
knows where it was opened from. -/
theorem navigationLaw_iff (events : List AppEvent) : NavigationLaw events ↔ KeepsEntry events := by
  constructor
  · rintro law visit event next passes escape ⟨isSelection, forgotten⟩
    rcases passes with ⟨front, within, reached, stepped⟩
    have sound := Visit.run_sound Visit.start_sound reached
    have moves := (Visit.step_moves sound stepped).1
    rw [escape] at moves
    have entry := law.returns visit event next ⟨front, within, reached, stepped⟩ escape
      (Or.inl isSelection)
    exact (moves.returns_iff sound (Or.inl isSelection)).mp entry ⟨isSelection, forgotten⟩
  · intro keeps
    constructor
    · rintro visit event next passes escape closing
      rcases passes with ⟨front, within, reached, stepped⟩
      have sound := Visit.run_sound Visit.start_sound reached
      have moves := (Visit.step_moves sound stepped).1
      rw [escape] at moves
      exact (moves.returns_iff sound closing).mpr
        (keeps visit event next ⟨front, within, reached, stepped⟩ escape)
    · intro front visit _ reached running more calm enough
      have sound := Visit.run_sound Visit.start_sound reached
      have depth : visit.app.navigation.depth ≤ 3 := by
        unfold Navigation.depth
        split
        · omega
        · omega
        · omega
        · split <;> omega
        · split <;> omega
      exact Visit.reaches_main sound running calm (depth.trans enough)
    · intro front event middle visit last within reached completes ran isToolchains
      have sound := Visit.run_sound Visit.start_sound reached
      have held : visit.app.navigation.IsHeld := by
        cases event with
        | key code control outside => cases completes
        | poll now messages versions => exact Or.inl (sound.receiving completes.1)
      have lastHeld := Visit.run_held keeps within reached held ran
      rcases lastHeld with isProgress | ⟨isSelection, _⟩
      · cases isProgress.symm.trans isToolchains
      · cases isSelection.symm.trans isToolchains

end

/-! ## An installation from the list of toolchains -/

def emptyDisk : Surroundings where
  toolchains := .ok ⟨.ok none, .ok [], fun _ => none⟩
  setDefault _ := .ok ()
  checks := []
  platformOs := some "linux"
  runCommand _ := .error "not found"
  channel := 1

def pressed (code : KeyCode) : AppEvent :=
  .key code false emptyDisk

/-- The version selection is opened from the list of toolchains, and a version is installed. -/
def installedVersion : List AppEvent :=
  [pressed (.char 't'), pressed (.char 'i'),
    .poll 0 [] (some (.ok [⟨"0.1.0", true, ["linux-x64"], true⟩])), pressed .enter,
    .poll 0 [.completed "0.1.0"] none, pressed .esc]

/-- The version selection is left for the main screen then, not for the list of toolchains. -/
theorem installedVersion_forgetsEntry : ¬ NavigationLaw (installedVersion ++ [pressed .esc]) := by
  intro law
  have reached : ({} : Visit).run installedVersion =
      some ((({} : Visit).run installedVersion).getD {}) := rfl
  have stepped : ((({} : Visit).run installedVersion).getD {}).step (pressed .esc) =
      some (((({} : Visit).run installedVersion).getD {}).step (pressed .esc) |>.getD {}) := rfl
  have entry := law.returns _ _ _ ⟨installedVersion, List.prefix_rfl, reached, stepped⟩ rfl
    (Or.inl rfl)
  cases entry

end Inference.Infs
