import Inference.Infs.CommandLine

/-! # Screens of the terminal interface

The states of the views and the menu. A clock reading is a number, the other texts are as they are
displayed.
-/

namespace Inference.Infs

inductive Screen
  | main
  | toolchains
  | doctor
  | progress
  | versionSelect
  deriving DecidableEq, Repr

/-- A message of the installation task. -/
inductive InstallProgress
  | phaseStarted (phase : String)
  | downloadStarted (total : Nat)
  | downloadProgress (downloaded speed : Nat)
  | phaseCompleted (phase : String)
  | completed (version : String)
  | failed (error : String)
  deriving DecidableEq, Repr

structure ToolchainMetadata where
  installedAt : String
  deriving DecidableEq, Repr

structure ToolchainInfo where
  version : String
  isDefault : Bool
  metadata : Option ToolchainMetadata
  deriving DecidableEq, Repr

/-! ## Selections in a list -/

def selectPrevious (length selected : Nat) : Nat :=
  if length = 0 then selected else selected - 1

def selectNext (length selected : Nat) : Nat :=
  if length = 0 then selected else min (selected + 1) (length - 1)

structure ToolchainsState where
  toolchains : List ToolchainInfo := []
  selected : Nat := 0
  loaded : Bool := false
  deriving DecidableEq, Repr

def ToolchainsState.selectPrevious (state : ToolchainsState) : ToolchainsState :=
  { state with selected := Infs.selectPrevious state.toolchains.length state.selected }

def ToolchainsState.selectNext (state : ToolchainsState) : ToolchainsState :=
  { state with selected := Infs.selectNext state.toolchains.length state.selected }

inductive DoctorCheckStatus
  | ok
  | warning
  | error
  deriving DecidableEq, Repr

structure DoctorCheck where
  name : String
  status : DoctorCheckStatus
  message : String
  deriving DecidableEq, Repr

structure DoctorState where
  checks : List DoctorCheck := []
  selected : Nat := 0
  loaded : Bool := false
  deriving DecidableEq, Repr

def DoctorState.selectPrevious (state : DoctorState) : DoctorState :=
  { state with selected := Infs.selectPrevious state.checks.length state.selected }

def DoctorState.selectNext (state : DoctorState) : DoctorState :=
  { state with selected := Infs.selectNext state.checks.length state.selected }

structure VersionSelectInfo where
  version : String
  stable : Bool
  platforms : List String
  availableForCurrent : Bool
  deriving DecidableEq, Repr

structure VersionSelectState where
  versions : List VersionSelectInfo := []
  selected : Nat := 0
  loaded : Bool := false
  loading : Bool := false
  error : Option String := none
  currentOs : String := ""
  deriving DecidableEq, Repr

namespace VersionSelectState

variable (state : VersionSelectState)

def selectPrevious : VersionSelectState :=
  { state with selected := Infs.selectPrevious state.versions.length state.selected }

def selectNext : VersionSelectState :=
  { state with selected := Infs.selectNext state.versions.length state.selected }

def selectedVersion : Option VersionSelectInfo :=
  state.versions[state.selected]?

def canInstallSelected : Bool :=
  state.selectedVersion.any VersionSelectInfo.availableForCurrent

end VersionSelectState

/-! ## Progress -/

structure ProgressItem where
  description : String
  current : Nat := 0
  total : Nat := 0
  completed : Bool := false
  speedBytesPerSec : Option Nat := none
  startedAt : Option Nat := none
  deriving DecidableEq, Repr

namespace ProgressItem

variable (item : ProgressItem)

def start (now : Nat) : ProgressItem :=
  { item with startedAt := some now }

def updateWithSpeed (current speed : Nat) : ProgressItem :=
  { item with
    current := current
    speedBytesPerSec := some speed
    completed := item.completed || (item.total > 0 && current ≥ item.total) }

def complete : ProgressItem :=
  { item with
    completed := true
    current := if item.total > 0 then item.total else item.current }

end ProgressItem

structure ProgressState where
  title : String := ""
  items : List ProgressItem := []
  status : String := ""
  completed : Bool := false
  error : Option String := none
  deriving DecidableEq, Repr

namespace ProgressState

variable (state : ProgressState)

def addItem (item : ProgressItem) : ProgressState :=
  { state with items := state.items ++ [item] }

def setStatus (status : String) : ProgressState :=
  { state with status := status }

def complete : ProgressState :=
  { state with completed := true }

/-- An error also ends the operation. -/
def setError (error : String) : ProgressState :=
  { state with error := some error, completed := true }

def updateFirstItem (update : ProgressItem → ProgressItem) : ProgressState :=
  { state with items := state.items.modifyHead update }

end ProgressState

/-! ## The menu -/

structure MenuItem where
  label : String
  key : Char
  screen : Option Screen
  quits : Bool
  deriving DecidableEq, Repr

def menuItems : List MenuItem :=
  [⟨"Toolchains", 't', some .toolchains, false⟩,
    ⟨"Doctor", 'd', some .doctor, false⟩,
    ⟨"Quit", 'q', none, true⟩]

theorem menuItems_pos : 0 < menuItems.length := by decide

structure Menu where
  selected : Fin menuItems.length := ⟨0, menuItems_pos⟩
  deriving DecidableEq, Repr

namespace Menu

def selectedItem (menu : Menu) : MenuItem :=
  menuItems.get menu.selected

/-- Wraps around. -/
def up (menu : Menu) : Menu :=
  { selected := ⟨if menu.selected.val = 0 then menuItems.length - 1 else menu.selected.val - 1, by
      have bound := menu.selected.isLt
      split <;> omega⟩ }

def down (menu : Menu) : Menu :=
  { selected := ⟨(menu.selected.val + 1) % menuItems.length, Nat.mod_lt _ (by decide)⟩ }

def findByKey (key : Char) : Option MenuItem :=
  menuItems.find? fun item => item.key = key

end Menu

end Inference.Infs
