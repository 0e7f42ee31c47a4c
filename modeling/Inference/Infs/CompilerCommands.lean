import Inference.Infc.DriverRuns

/-! # The commands that start the compiler

`infs build` hands its options to `infc`, and `infs run` starts `wasmtime` on what `infc` has
written. Both work in the directory that `infc` works in.
-/

namespace Inference.Infs

open Effects FileSystem Infc

variable {Arena Context Problem α : Type}

/-! ## Command lines of `infc` -/

inductive Argument
  | path (path : Path OsName)
  | parse
  | analyze
  | codegen
  | wasmOutput
  | vOutput
  deriving DecidableEq

/-- How clap reads a command line of `infc`. -/
structure Clap where
  /-- The path is taken as a value: it is not empty, and no option. -/
  isValue : Path OsName → Bool
  /-- The options, or the exit code with which reading them ends the process. -/
  read : List Argument → Except Nat Cli

/-! ## Starting `infc` -/

inductive CommandError
  | pathNotFound (path : Path OsName)
  | noPhase
  | wasmtimeNotFound
  | infcNotFound
  | cannotExecute (infc : Path OsName)
  | processExitCode (code : Nat)
  | wasmNotFound (path : Path OsName)

abbrev Commanding (α : Type) : Type :=
  Program.Fallible FileRequest Answer CommandError α

/-- What the commands find on their host. -/
structure Host where
  /-- The result of `find_infc`. -/
  findInfc : Option (Path OsName)
  starts : Path OsName → Bool
  wasmtimeAvailable : Bool
  clap : Clap

def orFail (error : CommandError) : Option α → Commanding α
  | some value => pure value
  | none => throw error

/-- The exit code of a process that has been started with these arguments. -/
def infcProcess (phases : Phases Arena Context Problem) (host : Host)
    (arguments : List Argument) : FileProgram OsName (List UInt8) Nat :=
  match host.clap.read arguments with
  | .error code => return code
  | .ok cli => do
      let result : Except (Failure Problem) Unit ← (Infc.main phases cli).run
      return exitCode result

def callInfc (phases : Phases Arena Context Problem) (host : Host) (infc : Path OsName)
    (arguments : List Argument) : Commanding Unit :=
  if host.starts infc then do
    let code ← (liftM (infcProcess phases host arguments) : Commanding Nat)
    if code = 0 then pure () else throw (.processExitCode code)
  else throw (.cannotExecute infc)

def requirePath (path : Path OsName) : Commanding Unit := do
  if ← (liftM (pathExists path : FileProgram OsName (List UInt8) Bool) : Commanding Bool) then
    pure ()
  else throw (.pathNotFound path)

/-! ## `infs build` -/

structure BuildArgs where
  path : Path OsName
  parse : Bool
  analyze : Bool
  codegen : Bool
  generateWasmOutput : Bool
  generateVOutput : Bool

namespace BuildArgs

def optionWhen (given : Bool) (option : Argument) : List Argument :=
  if given then [option] else []

def arguments (args : BuildArgs) : List Argument :=
  .path args.path :: (optionWhen args.parse .parse ++ optionWhen args.analyze .analyze ++
    optionWhen args.codegen .codegen ++ optionWhen args.generateWasmOutput .wasmOutput ++
    optionWhen args.generateVOutput .vOutput)

/-- The same options for `infc`. -/
def cli (args : BuildArgs) : Cli where
  path := args.path
  parse := args.parse
  analyze := args.analyze
  codegen := args.codegen
  generateWasmOutput := args.generateWasmOutput
  generateVOutput := args.generateVOutput

end BuildArgs

/-- A path that is taken as a value is read, and behind it the options that `infc` declares, each as
it is given. -/
def Clap.Documented (clap : Clap) : Prop :=
  ∀ args : BuildArgs, clap.isValue args.path = true → clap.read args.arguments = .ok args.cli

def executeBuild (phases : Phases Arena Context Problem) (host : Host) (args : BuildArgs) :
    Commanding Unit := do
  requirePath args.path
  if !(args.parse || args.analyze || args.codegen) then throw .noPhase
  else do
    let infc ← orFail .infcNotFound host.findInfc
    callInfc phases host infc args.arguments

/-! ## `infs run` -/

structure RunArgs where
  path : Path OsName
  entryPoint : List Char
  args : List (List Char)

/-- How `wasmtime` is started. -/
structure Invocation where
  wasmPath : Path OsName
  entryPoint : List Char
  args : List (List Char)

def runArguments (path : Path OsName) : List Argument :=
  [.path path, .parse, .codegen, .wasmOutput]

/-- The name under which `infs` looks for the output. -/
def outputName (path : Path OsName) : List Char :=
  (sourceFname path).getD "module".toList

def compileToWasm (phases : Phases Arena Context Problem) (host : Host) (infc path : Path OsName) :
    Commanding (Path OsName) := do
  callInfc phases host infc (runArguments path)
  let found ← (liftM (pathExists (wasmFilePath (outputName path)) :
    FileProgram OsName (List UInt8) Bool) : Commanding Bool)
  if found then pure (wasmFilePath (outputName path))
  else throw (.wasmNotFound (wasmFilePath (outputName path)))

/-- `main` is given two numbers, any other entry point the arguments of the command. -/
def invocation (args : RunArgs) (wasmPath : Path OsName) : Invocation where
  wasmPath := wasmPath
  entryPoint := args.entryPoint
  args := if args.entryPoint = "main".toList then [['0'], ['0']] else args.args

/-- All of `infs run` up to the start of `wasmtime`. -/
def prepareRun (phases : Phases Arena Context Problem) (host : Host) (args : RunArgs) :
    Commanding Invocation := do
  requirePath args.path
  if !host.wasmtimeAvailable then throw .wasmtimeNotFound
  else do
    let infc ← orFail .infcNotFound host.findInfc
    let wasmPath ← compileToWasm phases host infc args.path
    return invocation args wasmPath

end Inference.Infs
