import Inference.Infc.OutputConfinement
import Inference.Infs.CompilerCommands

/-! # Runs of the commands

Started on a path that is taken as a value, `infc` reads the options that it is given, so that the
commands keep to what `infc` keeps to.
-/

namespace Inference.Infs

open Effects FileSystem Infc

variable {Arena Context Problem α : Type}

/-- The options with which `infs run` starts the compiler. -/
def runBuild (path : Path OsName) : BuildArgs where
  path := path
  parse := true
  analyze := false
  codegen := true
  generateWasmOutput := true
  generateVOutput := false

/-! ## The compiler as a process -/

section Process

variable {cwd : Location OsName} {guarantee : SourceTree → SourceTree → Prop}
  {phases : Phases Arena Context Problem} (host : Host) {tree : SourceTree}
  {post : Except (Failure Problem) Unit → SourceTree → Prop}

theorem exitCode_eq_zero {result : Except (Failure Problem) Unit} (success : exitCode result = 0) :
    result = .ok () := by
  cases result with
  | ok value => rfl
  | error failure => cases failure <;> cases success

/-- A call that succeeds is a run of the compiler that succeeds. -/
theorem guaranteed_callInfc (documented : host.clap.Documented) (infc : Path OsName)
    {args : BuildArgs} (isValue : host.clap.isValue args.path = true)
    (runs : Guaranteed (answers cwd) guarantee (Infc.main phases args.cli).run tree
      post) :
    Guaranteed (answers cwd) guarantee
      (callInfc phases host infc args.arguments).run tree
      (Ends (fun _ tree' => post (.ok ()) tree') fun _ => True) := by
  rw [callInfc]
  split
  next =>
    refine guaranteed_bind_fallible.mpr (guaranteed_lift.mpr ?_)
    rw [infcProcess, documented args isValue]
    refine guaranteed_bind.mpr (runs.weaken ?_)
    intro result tree' ended
    refine guaranteed_pure.mpr ?_
    dsimp only
    split
    next success =>
      cases exitCode_eq_zero success
      exact ended
    next => trivial
  next => trivial

theorem guaranteed_requirePath {path : Path OsName} {rest : Commanding α}
    {post : Except CommandError α → SourceTree → Prop} (reflexive : ∀ tree, guarantee tree tree)
    (fails : ∀ error, post (.error error) tree)
    (later : Guaranteed (answers cwd) guarantee rest.run tree post) :
    Guaranteed (answers cwd) guarantee (requirePath path >>= fun _ => rest).run tree
      post := by
  refine guaranteed_bind_fallible.mpr ?_
  refine (observes_pathExists path).guaranteed_bind_lift reflexive fun found _ => ?_
  split
  next => exact later
  next => exact fails _

theorem guaranteed_orFail {error : CommandError} {value : Option α} {β : Type}
    {rest : α → Commanding β} {post : Except CommandError β → SourceTree → Prop}
    (fails : ∀ error, post (.error error) tree)
    (later : ∀ value, Guaranteed (answers cwd) guarantee (rest value).run tree post) :
    Guaranteed (answers cwd) guarantee (orFail error value >>= rest).run tree
      post := by
  refine guaranteed_bind_fallible.mpr ?_
  cases value with
  | some value => exact later value
  | none => exact fails error

/-! ## `infs build` -/

/-- Whatever the compiler keeps to, `infs build` keeps to. -/
theorem guaranteed_executeBuild (documented : host.clap.Documented) {args : BuildArgs}
    (isValue : host.clap.isValue args.path = true)
    (reflexive : ∀ tree, guarantee tree tree)
    (runs : Guaranteed (answers cwd) guarantee (Infc.main phases args.cli).run tree
      post) :
    Guaranteed (answers cwd) guarantee (executeBuild phases host args).run tree
      (Ends (fun _ tree' => post (.ok ()) tree') fun _ => True) := by
  refine guaranteed_requirePath reflexive (fun _ => trivial) ?_
  split
  next => trivial
  next =>
    exact guaranteed_orFail (fun _ => trivial) fun infc =>
      guaranteed_callInfc host documented infc isValue runs

end Process

section Build

variable (cwd temporary : Location OsName) (phases : Phases Arena Context Problem)
  (host : Host) (args : BuildArgs) (tree : SourceTree)

/-- What every run of `infs build` keeps to, whichever requests fail. -/
structure FaithfulBuild : Prop where
  untouched : ∀ rest tree',
    Steps (answers cwd) (executeBuild phases host args).run tree rest tree' →
      tree.ChangesWithin (IsTemporary temporary) tree' ∨
        MayWrite cwd phases args.cli tree
  accepted : ∀ tree', Steps (answers cwd) (executeBuild phases host args).run tree
    (.done (.ok ())) tree' → Accepted cwd phases args.cli tree
  delivered : ∀ tree', Steps (answers cwd) (executeBuild phases host args).run tree
    (.done (.ok ())) tree' → args.codegen = true →
      Delivered cwd phases args.cli tree tree'

theorem executeBuild_faithful (confined : phases.toolchain.Confined cwd temporary)
    (closed : tree.Closed) (documented : host.clap.Documented)
    (isValue : host.clap.isValue args.path = true) :
    FaithfulBuild cwd temporary phases host args tree := by
  have permits := permits_changing args.cli confined closed
  have promise := guaranteed_executeBuild host documented isValue permits.looking
    (main_promise permits)
  refine ⟨?_, ?_, ?_⟩
  · exact fun rest tree' steps => changing_steps promise steps
  · exact fun tree' steps => (promise.returns steps).1
  · exact fun tree' steps => (promise.returns steps).2

/-! ## `infs run` -/

variable {host} {path : Path OsName}

theorem outputName_eq {name : List Char} (named : sourceFname path = some name) :
    outputName path = name := by
  rw [outputName, named]
  rfl

/-- The file in which the code of a source file is found, with what it holds. -/
def HoldsCode (path wasmPath : Path OsName) (tree' : SourceTree) : Prop :=
  ∃ source name wasm, SourceText cwd (runBuild path).cli tree source ∧
    Compiles cwd phases (runBuild path).cli tree source name wasm ∧
      wasmPath = wasmFilePath name ∧ readFile cwd tree' wasmPath = .ok wasm

variable {cwd phases tree}

/-- Without a translation nothing is written behind the code. -/
theorem Delivered.holdsCode {tree' : SourceTree}
    (delivered : Delivered cwd phases (runBuild path).cli tree tree') :
    HoldsCode cwd phases tree path (wasmFilePath (outputName path)) tree' := by
  rcases delivered with ⟨source, name, wasm, text, compiles, _, written⟩
  have named : sourceFname path = some name := compiles.named
  rw [outputName_eq named]
  refine ⟨source, name, wasm, text, compiles, rfl, ?_⟩
  rcases written rfl with holds | ⟨vOutput, _⟩
  · exact holds
  · cases vOutput

theorem guaranteed_compileToWasm (documented : host.clap.Documented) {infc : Path OsName}
    (isValue : host.clap.isValue path = true) :
    Guaranteed (answers cwd) (fun _ _ => True)
      (compileToWasm phases host infc path).run tree
      (Ends (HoldsCode cwd phases tree path) fun _ => True) := by
  have runs : Guaranteed (answers cwd) (fun _ _ => True)
      (Infc.main phases (runBuild path).cli).run tree
      (Promise cwd phases (runBuild path).cli tree) := main_promise permits_true
  have calls := guaranteed_callInfc host documented infc isValue runs
  refine guaranteed_bind_fallible.mpr (calls.weaken fun result middle ended => ?_)
  cases result with
  | error error => trivial
  | ok value =>
      have holds := Delivered.holdsCode (ended.2 rfl)
      refine (observes_pathExists _).guaranteed_bind_lift (fun _ => trivial) fun found _ => ?_
      split
      next => exact holds
      next => trivial

variable (cwd phases host tree)

/-- `wasmtime` is only started on the code of the source file, and on the entry point that is asked
for. -/
theorem prepareRun_invokes (args : RunArgs) (documented : host.clap.Documented)
    (isValue : host.clap.isValue args.path = true) (invoked : Invocation) (tree' : SourceTree)
    (steps : Steps (answers cwd) (prepareRun phases host args).run tree
      (.done (.ok invoked)) tree') :
    HoldsCode cwd phases tree args.path invoked.wasmPath tree' ∧
      invoked = invocation args invoked.wasmPath := by
  have promise : Guaranteed (answers cwd) (fun _ _ => True)
      (prepareRun phases host args).run tree
      (Ends (fun invoked tree' =>
        HoldsCode cwd phases tree args.path invoked.wasmPath tree' ∧
          invoked = invocation args invoked.wasmPath) fun _ => True) := by
    refine guaranteed_requirePath (fun _ => trivial) (fun _ => trivial) ?_
    split
    next => trivial
    next =>
      refine guaranteed_orFail (fun _ => trivial) fun infc => ?_
      refine guaranteed_bind_fallible.mpr
        ((guaranteed_compileToWasm documented isValue).weaken ?_)
      intro result middle ended
      cases result with
      | error error => trivial
      | ok wasmPath => exact ⟨ended, rfl⟩
  exact promise.returns steps

end Build

/-! ## The commands on one file -/

/-- Reads a path and options behind it. The path `-h` asks for help. -/
def readOptions : Clap where
  isValue := fun path => path != Path.ofName (textName "-h")
  read := fun arguments =>
    match arguments with
    | .path path :: options =>
        if path = Path.ofName (textName "-h") then .error 0
        else .ok { path, parse := .parse ∈ options, analyze := .analyze ∈ options,
                   codegen := .codegen ∈ options, generateWasmOutput := .wasmOutput ∈ options,
                   generateVOutput := .vOutput ∈ options }
    | _ => .error 2

theorem readOptions_documented : readOptions.Documented := by
  rintro ⟨path, parse, analyze, codegen, wasmOutput, vOutput⟩ isValue
  have noOption : path ≠ Path.ofName (textName "-h") := bne_iff_ne.mp isValue
  refine (if_neg noOption).trans ?_
  cases parse <;> cases analyze <;> cases codegen <;> cases wasmOutput <;> cases vOutput <;> rfl

def onPath : Host where
  findInfc := some (Path.ofName (textName "infc"))
  starts := fun _ => true
  wasmtimeAvailable := true
  clap := readOptions

theorem sourceOnly_built :
    FaithfulBuild [textName "work"] [textName "scratch"] acceptAll onPath (runBuild buildMain.path)
      sourceOnly :=
  executeBuild_faithful [textName "work"] [textName "scratch"] acceptAll onPath
    (runBuild buildMain.path) sourceOnly (byteToolchain_confined [textName "work"])
    sourceOnly_closed readOptions_documented (by decide)

def runMain : RunArgs where
  path := buildMain.path
  entryPoint := "main".toList
  args := []

def mainInvocation : Invocation where
  wasmPath := wasmFilePath "main".toList
  entryPoint := "main".toList
  args := [['0'], ['0']]

theorem sourceOnly_invoked :
    HoldsCode [textName "work"] acceptAll sourceOnly runMain.path mainInvocation.wasmPath
        ((prepareRun acceptAll onPath runMain).run.run (perform [textName "work"]) sourceOnly).2 ∧
      mainInvocation = invocation runMain mainInvocation.wasmPath := by
  have ended : ((prepareRun acceptAll onPath runMain).run.run (perform [textName "work"])
      sourceOnly).1 = .ok mainInvocation := by rfl
  have steps : Steps (answers [textName "work"]) (prepareRun acceptAll onPath runMain).run
      sourceOnly (.done ((prepareRun acceptAll onPath runMain).run.run
        (perform [textName "work"]) sourceOnly).1)
      ((prepareRun acceptAll onPath runMain).run.run (perform [textName "work"]) sourceOnly).2 :=
    steps_run fun _ _ => .inl rfl
  rw [ended] at steps
  exact prepareRun_invokes [textName "work"] acceptAll onPath sourceOnly runMain
    readOptions_documented (by decide) _ _ steps

end Inference.Infs
