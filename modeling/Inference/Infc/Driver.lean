import Inference.Foundation.Utf8Text
import Inference.Infc.LlvmToolchain

/-! # The compiler's command line

`infc` reads one source file, runs the phases that are asked for in their order, and writes what the
last one returns. The phases are parameters: any of them may also fail or panic. What is printed on
the way is left out.
-/

namespace Inference.Infc

open Effects FileSystem Foundation.Utf8Text
open Infs (OsName textName)

/-- The options of the command line. -/
structure Cli where
  path : Path OsName
  parse : Bool
  analyze : Bool
  codegen : Bool
  generateWasmOutput : Bool
  generateVOutput : Bool

/-- The phases of the compiler. A phase that panics returns nothing. Code is generated in two parts:
the context is lowered to a module, and the toolchain makes the code of it. -/
structure Phases (Arena Context Problem : Type) where
  parse : List Char → Option (Except Problem Arena)
  typeCheck : Arena → Option (Except Problem Context)
  lower : Context → Option LlvmModule
  toolchain : Toolchain
  wasmToV : List Char → List UInt8 → Option (Except Problem (List Char))

/-- Why a run does not succeed. All but a panic end with a message and the exit code 1. -/
inductive Failure (Problem : Type)
  | usage (message : String)
  | file (message : String) (cause : ErrorKind)
  | phase (message : String) (cause : Problem)
  | codegen (cause : CodegenError)
  | panic

def exitCode {Problem : Type} : Except (Failure Problem) Unit → Nat
  | .ok () => 0
  | .error .panic => 101
  | .error _ => 1

/-- A part of a run. -/
abbrev Compiling (Problem α : Type) : Type :=
  Program.Fallible FileRequest Answer (Failure Problem) α

variable {Arena Context Problem α : Type}

def inFile (message : String) (asked : FileCommand (Except ErrorKind α)) :
    Compiling Problem α :=
  ExceptT.mk do
    match ← asked with
    | .ok value => return .ok value
    | .error cause => return .error (.file message cause)

def phaseResult (message : String) : Option (Except Problem α) → Except (Failure Problem) α
  | none => .error .panic
  | some (.error cause) => .error (.phase message cause)
  | some (.ok value) => .ok value

def runPhase (message : String) (result : Option (Except Problem α)) : Compiling Problem α :=
  ExceptT.mk (pure (phaseResult message result))

/-! ## Names of files -/

def rawName : OsName → List UInt8
  | .text name => encode name
  | .bytes raw => raw

/-- `file_name` -/
def fileName (path : Path OsName) : Option OsName :=
  match (Path.trim path.absolute path.components).getLast? with
  | some (.named name) => some name
  | _ => none

/-- `file_stem` of a file name: what stands in front of its last dot, or all of it where nothing
stands there. -/
def fileStem (raw : List UInt8) : List UInt8 :=
  match raw.reverse.dropWhile (· ≠ 46) with
  | [] | [_] => raw
  | _ :: front => front.reverse

/-- The name of the output, which has to be UTF-8. -/
def sourceFname (path : Path OsName) : Option (List Char) :=
  match fileName path with
  | some name => decode (fileStem (rawName name))
  | none => some "module".toList

def outputPath : Path OsName :=
  Path.ofName (textName "out")

def outputFile (name : List Char) (extension : String) : Path OsName :=
  outputPath.joinName (.text (name ++ extension.toList))

def wasmFilePath (name : List Char) : Path OsName :=
  outputFile name ".wasm"

def vFilePath (name : List Char) : Path OsName :=
  outputFile name ".v"

/-! ## The run -/

def decoded (bytes : List UInt8) : Except ErrorKind (List Char) :=
  match decode bytes with
  | some text => .ok text
  | none => .error .other

/-- `read_to_string` -/
def readToString (path : Path OsName) : FileCommand (Except ErrorKind (List Char)) := do
  let answer : Except ErrorKind (List UInt8) ← ask (.read path)
  return answer.bind decoded

def writeOutput (message : String) (path : Path OsName) (content : List UInt8) :
    Compiling Problem Unit := do
  inFile "Failed to create output directory" (createDirAll outputPath)
  inFile message (ask (.write path content))

/-- `analyze` accepts every typed context. -/
def analyze (_context : Context) : Option (Except Problem Unit) :=
  some (.ok ())

variable (phases : Phases Arena Context Problem) (args : Cli)

def writeV (name : List Char) (wasm : List UInt8) : Compiling Problem Unit :=
  if args.generateVOutput then do
    let vOutput ← runPhase "WASM->V translation failed" (phases.wasmToV name wasm)
    writeOutput "Failed to write V file" (vFilePath name) (encode vOutput)
  else pure ()

def writeWasm (name : List Char) (wasm : List UInt8) : Compiling Problem Unit :=
  if args.generateWasmOutput then
    writeOutput "Failed to write WASM file" (wasmFilePath name) wasm
  else pure ()

def runToolchain (module_ : LlvmModule) : Compiling Problem (List UInt8) :=
  ExceptT.mk do
    match ← (compileToWasm phases.toolchain module_).run with
    | .ok wasm => return .ok wasm
    | .error cause => return .error (.codegen cause)

def codegen (context : Context) : Compiling Problem (List UInt8) := do
  let module_ ← runPhase "" ((phases.lower context).map .ok)
  runToolchain phases module_

def generate (context : Context) : Compiling Problem Unit :=
  if args.codegen then do
    let wasm ← codegen phases context
    let name ← runPhase "" ((sourceFname args.path).map .ok)
    writeWasm args name wasm
    writeV phases args name wasm
  else pure ()

def check (arena : Arena) : Compiling Problem Unit :=
  if args.codegen || args.analyze then do
    let context ← runPhase "Type checking failed" (phases.typeCheck arena)
    runPhase "Analysis failed" (analyze context)
    generate phases args context
  else pure ()

def compile : Compiling Problem Unit := do
  let source ← inFile "Error reading source file" (readToString args.path)
  let arena ← runPhase "Parse error" (phases.parse source)
  check phases args arena

/-- `main` -/
def main : Compiling Problem Unit := do
  if !(← (liftM (pathExists args.path : FileCommand Bool) : Compiling Problem Bool)) then
    throw (.usage "Error: path not found")
  else if !(args.parse || args.analyze || args.codegen) then
    throw (.usage "Error: at least one of --parse, --analyze, or --codegen must be specified")
  else compile phases args

end Inference.Infc
