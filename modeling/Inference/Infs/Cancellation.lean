import Inference.Foundation.FileFrames
import Inference.Infs.BackgroundInstallation
import Inference.Infs.ScreenNavigation

/-! # Cancelling an installation

The terminal interface and its installation tasks, which take turns in any order, with whatever else
changes the files in between. Cancelling drops the receiver of the messages. The task is not told, so
that nothing is stopped unless there was nothing left to stop.
-/

namespace Inference.Infs

open Effects FileSystem
open TypeChecker (UnicodeCase)

/-! ## The system -/

/-- The interface, the files, and for each channel the rest of its task and the messages that are
not read yet. The channels of the cancelled tasks are noted. -/
structure System where
  app : App := {}
  tree : Tree OsName FileContent
  tasks : Channel → Option (Background Unit) := fun _ => none
  messages : Channel → List InstallProgress := fun _ => []
  cancelled : List Channel := []

inductive Actor
  | interface (event : AppEvent)
  | task (channel : Channel)
  | others

/-- The servers change no files. -/
def taskAnswers (cwd : Location OsName) :
    Semantics TaskRequest TaskRequest.Answer (Tree OsName FileContent) :=
  fun request tree answer tree' =>
    match request, answer with
    | .file request, answer => answers cwd request tree answer tree'
    | .send _, _ | .fetchArtifact _ _, _ | .get _, _ => tree' = tree

def TaskRequest.sent : TaskRequest → List InstallProgress
  | .send message => [message]
  | _ => []

namespace System

/-- What the application finds in the channel of its installation. -/
def unread (system : System) : List InstallProgress :=
  match system.app.installReceiver with
  | some task => system.messages task.channel
  | none => []

/-- A look at the channels shows what is in them. -/
def Shows (system : System) : AppEvent → Prop
  | .poll _ messages _ => messages = system.unread
  | .key _ _ _ => True

/-- The installation that is cancelled. -/
def cancels (system : System) (event : AppEvent) : Option Channel :=
  if event.isEsc && system.app.screen = .progress && !system.app.progressState.completed then
    system.app.installReceiver.map InstallTask.channel
  else none

/-- The installation that is started. -/
def starts (system : System) (app : App) : Option InstallTask :=
  match system.app.installReceiver with
  | none => app.installReceiver
  | some _ => none

variable (around : TaskSurroundings)

/-- A task that is started, and messages that are read. -/
def interfaceStep (system : System) (event : AppEvent) (app : App) : System :=
  { system with
    app := app
    tasks := match system.starts app with
      | some task =>
          Function.update system.tasks task.channel (some (runInstallation around task.version))
      | none => system.tasks
    messages := match event, system.app.installReceiver with
      | .poll _ _ _, some task => Function.update system.messages task.channel []
      | _, _ => system.messages
    cancelled := (system.cancels event).toList ++ system.cancelled }

def taskStep (system : System) (channel : Channel) (request : TaskRequest)
    (rest : Background Unit) (tree : Tree OsName FileContent) : System :=
  { system with
    tree := tree
    tasks := Function.update system.tasks channel (some rest)
    messages :=
      Function.update system.messages channel (system.messages channel ++ request.sent) }

end System

section

variable [UnicodeCase] (around : TaskSurroundings) (cwd : Location OsName)

/-- One step. A task that is started gets a new channel. -/
inductive SystemStep : System → Actor → System → Prop
  | interface {system : System} {event : AppEvent} {app : App}
      (stepped : system.app.step event = some app) (shows : system.Shows event)
      (fresh : ∀ task, system.starts app = some task → system.tasks task.channel = none) :
      SystemStep system (.interface event) (system.interfaceStep around event app)
  | task {system : System} {channel : Channel} {request : TaskRequest}
      {next : request.Answer → Background Unit} {answer : request.Answer}
      {tree : Tree OsName FileContent} (runs : system.tasks channel = some (Program.ask request next))
      (answered : taskAnswers cwd request system.tree answer tree) :
      SystemStep system (.task channel) (system.taskStep channel request (next answer) tree)
  | others {system : System} (tree : Tree OsName FileContent) :
      SystemStep system .others { system with tree := tree }

/-- The states that are reached by steps that meet a condition. -/
inductive Reached (condition : System → Actor → Prop) : System → Prop
  | start (tree : Tree OsName FileContent) : Reached condition { tree := tree }
  | step {before after : System} {actor : Actor} (reached : Reached condition before)
      (meets : condition before actor)
      (stepped : SystemStep around cwd before actor after) : Reached condition after

/-! ## What cancelling promises -/

/-- The toolchains, the default file and the links. -/
def IsInstallation (paths : ToolchainPaths) (tree : Tree OsName FileContent)
    (location : Location OsName) : Prop :=
  (∃ directory, (resolve cwd tree true paths.toolchains = .ok directory ∨
      resolve cwd tree true paths.bin = .ok directory) ∧ directory <+: location) ∨
    resolve cwd tree true paths.defaultFile = .ok location

/-- Neither the installed files nor another installation are modified. -/
structure Unmodified (paths : ToolchainPaths) (channel : Channel) (before after : System) : Prop where
  entries : ∀ location, IsInstallation cwd paths before.tree location →
    after.tree.get location = before.tree.get location
  contents : ∀ location inode, IsInstallation cwd paths before.tree location →
    before.tree.get location = some (.file inode) →
      after.tree.contents inode = before.tree.contents inode
  others : ∀ other, other ≠ channel →
    after.tasks other = before.tasks other ∧ after.messages other = before.messages other

/-- In every run with the condition, a cancelled task modifies nothing any more. -/
def CancellationStops (paths : ToolchainPaths) (condition : System → Actor → Prop) : Prop :=
  ∀ before after channel, Reached around cwd condition before →
    SystemStep around cwd before (.task channel) after →
      channel ∈ before.cancelled → Unmodified cwd paths channel before after

/-- A task that has nothing left to do but to send messages. -/
inductive SendsOnly : Background Unit → Prop
  | done : SendsOnly (.done ())
  | send {message : InstallProgress} {next : Unit → Background Unit}
      (later : SendsOnly (next ())) : SendsOnly (Program.ask (TaskRequest.send message) next)

/-- An installation is cancelled only when its task has nothing left to do but to send messages. -/
def CancelsLate (system : System) : Actor → Prop
  | .interface event => ∀ channel rest, system.cancels event = some channel →
      system.tasks channel = some rest → SendsOnly rest
  | _ => True

variable {around cwd} in
theorem Reached.interface {condition : System → Actor → Prop} {system : System} {app : App}
    (reached : Reached around cwd condition system) (event : AppEvent)
    (stepped : system.app.step event = some app) (shows : system.Shows event)
    (fresh : ∀ task, system.starts app = some task → system.tasks task.channel = none)
    (meets : condition system (.interface event)) :
    Reached around cwd condition (system.interfaceStep around event app) :=
  .step reached meets (.interface stepped shows fresh)

variable {around cwd} in
theorem Reached.task {condition : System → Actor → Prop} {system : System}
    (reached : Reached around cwd condition system) (channel : Channel)
    {request : TaskRequest} {next : request.Answer → Background Unit}
    (runs : system.tasks channel = some (Program.ask request next)) (answer : request.Answer)
    (tree : Tree OsName FileContent)
    (answered : taskAnswers cwd request system.tree answer tree)
    (meets : condition system (.task channel)) :
    Reached around cwd condition
      (system.taskStep channel request (next answer) tree) :=
  .step reached meets (.task runs answered)

variable {around cwd} in
theorem CancellationStops.task {paths : ToolchainPaths} {condition : System → Actor → Prop}
    (stops : CancellationStops around cwd paths condition) {system : System}
    (reached : Reached around cwd condition system) {channel : Channel}
    (member : channel ∈ system.cancelled)
    {request : TaskRequest} {next : request.Answer → Background Unit}
    (runs : system.tasks channel = some (Program.ask request next)) (answer : request.Answer)
    (tree : Tree OsName FileContent)
    (answered : taskAnswers cwd request system.tree answer tree) :
    Unmodified cwd paths channel system
      (system.taskStep channel request (next answer) tree) :=
  stops system _ channel reached (.task runs answered) member

/-- What holds of the tasks in a run with late cancellations. -/
structure System.Calm (system : System) : Prop where
  placed : ∃ trail, system.app.navigation.Sound trail
  received : ∀ task, system.app.installReceiver = some task →
    (system.tasks task.channel).isSome
  cancelled : ∀ channel ∈ system.cancelled,
    ∃ rest, system.tasks channel = some rest ∧ SendsOnly rest

omit [UnicodeCase] in
theorem Moves.receiver {escape : Bool} {here there : Navigation} {trail : List Screen}
    (moves : Moves escape here there) (sound : here.Sound trail) :
    there.installReceiver = here.installReceiver ∨ there.installReceiver = none ∨
      here.installReceiver = none := by
  cases moves with
  | stays | enters | selects | closes | goesBack => exact Or.inl rfl
  | cancels | returns => exact Or.inr (Or.inl rfl)
  | installs task isSelection =>
      refine Or.inr (Or.inr (Option.not_isSome_iff_eq_none.mp fun isSome => ?_))
      cases isSelection.symm.trans (sound.receiving isSome)
  | receives receiver completed isReceiving keeps ends =>
      rcases keeps with rfl | rfl
      · exact Or.inr (Or.inl rfl)
      · exact Or.inl rfl

omit [UnicodeCase] in
/-- A step of a task that only sends leaves the files as they are. -/
theorem SendsOnly.step {request : TaskRequest} {next : request.Answer → Background Unit}
    (sends : SendsOnly (Program.ask request next)) {answer : request.Answer}
    {tree tree' : Tree OsName FileContent}
    (answered : taskAnswers cwd request tree answer tree') :
    tree' = tree ∧ SendsOnly (next answer) := by
  cases sends with
  | send later => exact ⟨answered, later⟩

omit [UnicodeCase] in
theorem System.cancels_eq_some {system : System} {event : AppEvent} {channel : Channel}
    (cancels : system.cancels event = some channel) :
    ∃ task, system.app.installReceiver = some task ∧ task.channel = channel := by
  unfold System.cancels at cancels
  split at cancels
  · exact Option.map_eq_some_iff.mp cancels
  · cases cancels

omit [UnicodeCase] in
/-- What a task has left does not change when the interface takes a step, not even when the task is
cancelled. -/
theorem System.interfaceStep_tasks {system : System} {event : AppEvent} {app : App}
    (fresh : ∀ task, system.starts app = some task → system.tasks task.channel = none)
    {channel : Channel} {rest : Background Unit} (runs : system.tasks channel = some rest) :
    (system.interfaceStep around event app).tasks channel = some rest := by
  unfold System.interfaceStep
  cases starts : system.starts app with
  | none => exact runs
  | some task =>
      have different : channel ≠ task.channel := by
        rintro rfl
        cases (fresh task starts).symm.trans runs
      dsimp only
      rw [Function.update_of_ne different]
      exact runs

theorem System.Calm.interfaceStep {system : System} (calm : system.Calm) {event : AppEvent}
    {app : App} (stepped : system.app.step event = some app)
    (fresh : ∀ task, system.starts app = some task → system.tasks task.channel = none)
    (late : CancelsLate system (.interface event)) :
    (system.interfaceStep around event app).Calm := by
  rcases calm with ⟨⟨trail, sound⟩, received, cancelled⟩
  have moves := App.step_moves sound.commands stepped
  have kept {channel : Channel} {rest : Background Unit} :
      system.tasks channel = some rest →
        (system.interfaceStep around event app).tasks channel = some rest :=
    System.interfaceStep_tasks around fresh
  constructor
  · exact ⟨_, moves.sound sound⟩
  · intro task receives
    have keeps : ∀ {channel}, (system.tasks channel).isSome →
        ((system.interfaceStep around event app).tasks channel).isSome := by
      intro channel isSome
      rcases Option.isSome_iff_exists.mp isSome with ⟨rest, runs⟩
      rw [kept runs]
      rfl
    change app.installReceiver = some task at receives
    rcases moves.receiver sound with same | gone | idle
    · exact keeps (received task (same.symm.trans receives))
    · cases receives.symm.trans gone
    · have starts : system.starts app = some task := by
        unfold System.starts
        have isNone : system.app.installReceiver = none := idle
        rw [isNone]
        exact receives
      unfold System.interfaceStep
      rw [starts]
      dsimp only
      rw [Function.update_self]
      rfl
  · intro channel member
    rcases List.mem_append.mp member with now | before
    · rcases System.cancels_eq_some (Option.mem_toList.mp now) with ⟨task, receiving, rfl⟩
      rcases Option.isSome_iff_exists.mp (received task receiving) with ⟨rest, runs⟩
      exact ⟨rest, kept runs, late task.channel rest (Option.mem_toList.mp now) runs⟩
    · rcases cancelled channel before with ⟨rest, runs, sends⟩
      exact ⟨rest, kept runs, sends⟩

omit [UnicodeCase] in
theorem System.Calm.taskStep {system : System} (calm : system.Calm) {channel : Channel}
    {request : TaskRequest} {next : request.Answer → Background Unit} {answer : request.Answer}
    {tree : Tree OsName FileContent} (runs : system.tasks channel = some (Program.ask request next))
    (answered : taskAnswers cwd request system.tree answer tree) :
    (system.taskStep channel request (next answer) tree).Calm := by
  constructor
  · exact calm.placed
  · intro task receives
    have isSome := calm.received task receives
    unfold System.taskStep
    dsimp only
    by_cases same : task.channel = channel
    · rw [same, Function.update_self]
      rfl
    · rw [Function.update_of_ne same]
      exact isSome
  · intro other member
    rcases calm.cancelled other member with ⟨rest, runsOther, sends⟩
    unfold System.taskStep
    dsimp only
    by_cases same : other = channel
    · subst same
      cases runs.symm.trans runsOther
      rw [Function.update_self]
      exact ⟨_, rfl, (sends.step cwd answered).2⟩
    · rw [Function.update_of_ne same]
      exact ⟨rest, runsOther, sends⟩

theorem Reached.calm {system : System}
    (reached : Reached around cwd CancelsLate system) : system.Calm := by
  induction reached with
  | start tree =>
      exact ⟨⟨[], Visit.start_sound⟩, nofun, nofun⟩
  | step reached late stepped calm =>
      cases stepped with
      | interface stepped shows fresh => exact calm.interfaceStep around stepped fresh late
      | task runs answered => exact calm.taskStep cwd runs answered
      | others tree => exact ⟨calm.placed, calm.received, calm.cancelled⟩

/-- Where installations are cancelled only when there is nothing left to do, a cancelled task
modifies nothing any more. -/
theorem cancellationStops_of_late (paths : ToolchainPaths) :
    CancellationStops around cwd paths CancelsLate := by
  intro before after channel reached stepped member
  rcases reached.calm.cancelled channel member with ⟨rest, runs, sends⟩
  cases stepped with
  | task runsTask answered =>
      cases runsTask.symm.trans runs
      have same := (sends.step cwd answered).1
      subst same
      refine ⟨fun _ _ => rfl, fun _ _ _ _ => rfl, ?_⟩
      intro other different
      exact ⟨Function.update_of_ne different _ _, Function.update_of_ne different _ _⟩

end

/-! ## A cancelled installation that goes on -/

def linuxSurroundings : TaskSurroundings where
  platform := some .linuxX64
  paths := some (.withRoot (parsePath "/inf".toList))
  readers := ⟨fun _ => none, fun _ => none, fun _ _ => return .error .other⟩
  sha256 _ := []
  toLowercase text := text
  infsMetadata := []
  toolchainMetadata := []

/-- Only the root of the toolchain manager is there. -/
def emptyRoot : Tree OsName FileContent where
  nodes := [([textName "inf"], .dir)]
  contents _ := .bytes []

theorem perform_createDir_existing {cwd location : Location OsName}
    {tree : Tree OsName FileContent} {path : Path OsName} {node : Node OsName}
    (resolved : resolve cwd tree false { path with trailing := false } = .ok location)
    (present : tree.get location = some node) :
    perform cwd (.createDir path) tree = (.error .alreadyExists, tree) := by
  have fails : createDir cwd tree path = .error .alreadyExists := by
    unfold createDir
    rw [resolved]
    simp only [bind, Except.bind, present]
  rw [perform, fails, changed]

/-- After the cancellation the task creates the directory of the toolchains. -/
theorem cancelledTask_createsToolchains :
    ¬ CancellationStops linuxSurroundings [] (.withRoot (parsePath "/inf".toList))
      fun _ _ => True := by
  intro stops
  have listed := (Reached.start emptyRoot : Reached linuxSurroundings [] (fun _ _ => True) _).interface
    (pressed (.char 't')) rfl trivial nofun trivial
  have opened := listed.interface (pressed (.char 'i')) rfl trivial nofun trivial
  have loaded := opened.interface
    (.poll 0 [] (some (.ok [⟨"0.1.0", true, ["linux-x64"], true⟩]))) rfl rfl nofun trivial
  have started := loaded.interface (pressed .enter) rfl trivial (fun _ _ => rfl) trivial
  have cancelled := started.interface (pressed .esc) rfl trivial nofun trivial
  have told := cancelled.task 1 rfl () emptyRoot rfl trivial
  have rootResolved : resolve [] emptyRoot false (parsePath "/inf".toList) =
      .ok [textName "inf"] := by decide +kernel
  have rootFound := told.task 1 rfl (.error .alreadyExists) emptyRoot
    (Or.inl (perform_createDir_existing rootResolved rfl)) trivial
  have rootKind : metadata [] emptyRoot true (parsePath "/inf".toList) = .ok .dir := by
    decide +kernel
  have rootLooked := rootFound.task 1 rfl (.ok .dir) emptyRoot
    (Or.inl (congrArg (·, emptyRoot) rootKind)) trivial
  have created : createDir [] emptyRoot (ToolchainPaths.withRoot (parsePath "/inf".toList)).toolchains =
      .ok (emptyRoot.set [textName "inf", textName "toolchains"] .dir) :=
    createDir_eq_ok.mpr ⟨_, by decide +kernel, by decide +kernel, rfl⟩
  have performed : perform [] (.createDir (ToolchainPaths.withRoot (parsePath "/inf".toList)).toolchains)
      emptyRoot = (.ok (), emptyRoot.set [textName "inf", textName "toolchains"] .dir) :=
    congrArg (changed emptyRoot) created
  have isInstallation : IsInstallation [] (.withRoot (parsePath "/inf".toList)) emptyRoot
      [textName "inf", textName "toolchains"] :=
    Or.inl ⟨_, Or.inl (by decide +kernel), List.prefix_rfl⟩
  have unmodified := stops.task rootLooked List.mem_cons_self rfl (.ok ()) _ (Or.inl performed)
  cases unmodified.entries _ isInstallation

end Inference.Infs
