import Mathlib.Algebra.Ring.Nat
import Inference.Infs.ToolchainPaths

/-! # The command line of the terminal interface

The line editor of the command mode with its history. The cursor is an offset in bytes, so that
slicing the input there panics, `none`, unless a character starts or the input ends at it.
-/

namespace Inference.Infs

open WatFmt (isWhitespace)

structure CommandHistory where
  commands : List (List Char) := []
  index : Option Nat := none
  maxSize : Nat := 100
  tempInput : List Char := []
  deriving DecidableEq, Repr

namespace CommandHistory

/-- Empty commands and repetitions of the last one are not kept. -/
def push (history : CommandHistory) (command : List Char) : CommandHistory :=
  if command = [] || history.commands.getLast? = some command then history
  else
    let commands := history.commands ++ [command]
    { history with
      commands := if commands.length > history.maxSize then commands.tail else commands
      index := none
      tempInput := [] }

/-- The command to display, or `none` for no change. -/
def previous (history : CommandHistory) (currentInput : List Char) :
    Option (List Char) × CommandHistory :=
  if history.commands = [] then (none, history)
  else
    match history.index with
    | none =>
        (history.commands.getLast?,
          { history with tempInput := currentInput, index := some (history.commands.length - 1) })
    | some (index + 1) =>
        (history.commands[index]?, { history with index := some index })
    | some 0 => (none, history)

def next (history : CommandHistory) : Option (List Char) × CommandHistory :=
  match history.index with
  | some index =>
      if index + 1 < history.commands.length then
        (history.commands[index + 1]?, { history with index := some (index + 1) })
      else (some history.tempInput, { history with index := none })
  | none => (none, history)

def resetNavigation (history : CommandHistory) : CommandHistory :=
  { history with index := none, tempInput := [] }

end CommandHistory

/-- The length in UTF-8. -/
def byteLength (text : List Char) : Nat :=
  (text.map Char.utf8Size).sum

/-- The text in front of a byte offset and behind it. -/
def splitAtByte : Nat → List Char → Option (List Char × List Char)
  | 0, text => some ([], text)
  | _ + 1, [] => none
  | offset + 1, next :: rest =>
      if next.utf8Size ≤ offset + 1 then
        (splitAtByte (offset + 1 - next.utf8Size) rest).map fun (front, back) =>
          (next :: front, back)
      else none
termination_by _ text => text.length

structure CommandLine where
  commandInput : List Char := []
  cursorPos : Nat := 0
  commandHistory : CommandHistory := {}
  deriving DecidableEq, Repr

namespace CommandLine

variable (line : CommandLine)

/-- The position of the cursor in characters. -/
def cursorDisplayPos : Option Nat := do
  let (front, _) ← splitAtByte line.cursorPos line.commandInput
  return front.length

def clear : CommandLine :=
  { line with commandInput := [], cursorPos := 0 }

def insertChar (inserted : Char) : Option CommandLine := do
  let (front, back) ← splitAtByte line.cursorPos line.commandInput
  return { line with
    commandInput := front ++ inserted :: back
    cursorPos := line.cursorPos + inserted.utf8Size }

/-- Removes the character in front of the cursor. -/
def backspace : Option CommandLine :=
  if line.cursorPos > 0 then do
    let (front, back) ← splitAtByte line.cursorPos line.commandInput
    return { line with
      commandInput := front.dropLast ++ back
      cursorPos := byteLength front.dropLast }
  else some line

/-- Removes the character at the cursor. -/
def deleteChar : Option CommandLine :=
  if line.cursorPos < byteLength line.commandInput then do
    let (front, back) ← splitAtByte line.cursorPos line.commandInput
    return { line with commandInput := front ++ back.tail }
  else some line

def moveCursorLeft : Option CommandLine :=
  if line.cursorPos > 0 then do
    let (front, _) ← splitAtByte line.cursorPos line.commandInput
    return { line with cursorPos := byteLength front.dropLast }
  else some line

def moveCursorRight : Option CommandLine :=
  if line.cursorPos < byteLength line.commandInput then do
    let (_, back) ← splitAtByte line.cursorPos line.commandInput
    return { line with cursorPos := line.cursorPos + (back.head?.map Char.utf8Size).getD 0 }
  else some line

/-- To the start of the word that the cursor is in or behind. -/
def moveCursorWordLeft : Option CommandLine :=
  if line.cursorPos = 0 then some line
  else do
    let (front, _) ← splitAtByte line.cursorPos line.commandInput
    let kept := (front.reverse.dropWhile isWhitespace).dropWhile (!isWhitespace ·)
    let newPos := byteLength kept
    return { line with cursorPos := if newPos = line.cursorPos then 0 else newPos }

/-- To the start of the next word, or to the end of the input. -/
def moveCursorWordRight : Option CommandLine :=
  if line.cursorPos ≥ byteLength line.commandInput then some line
  else do
    let (_, back) ← splitAtByte line.cursorPos line.commandInput
    let skipped := (back.dropWhile (!isWhitespace ·)).dropWhile isWhitespace
    return { line with cursorPos := line.cursorPos + (byteLength back - byteLength skipped) }

/-- Shows a command of the history, the cursor behind it. -/
def showCommand : Option (List Char) × CommandHistory → CommandLine
  | (some command, history) => ⟨command, byteLength command, history⟩
  | (none, history) => { line with commandHistory := history }

def historyPrevious : CommandLine :=
  line.showCommand (line.commandHistory.previous line.commandInput)

def historyNext : CommandLine :=
  line.showCommand line.commandHistory.next

def moveHome : CommandLine :=
  { line with cursorPos := 0 }

def moveEnd : CommandLine :=
  { line with cursorPos := byteLength line.commandInput }

end CommandLine

end Inference.Infs
