import Inference.Foundation.FilePlacing
import Inference.Infc.Driver

/-! # What runs of the compiler leave

Whatever fails on the way, nothing is created or written outside of the temporary directory before
every phase has accepted the source text, and a run that succeeds leaves what the phases returned for
this text.
-/

namespace Inference.Infc

open Effects FileSystem Foundation.Utf8Text
open Infs (OsName textName)

variable {Arena Context Problem α β : Type}

/-! ## What a run promises -/

section Promises

variable (cwd temporary : Location OsName) (phases : Phases Arena Context Problem)
  (args : Cli) (tree : SourceTree)

/-- The text that the source file holds. -/
def SourceText (source : List Char) : Prop :=
  ∃ bytes, readFile cwd tree args.path = .ok bytes ∧ decode bytes = some source

/-- The toolchain returns this code for a module. -/
def Generates (module_ : LlvmModule) (wasm : List UInt8) : Prop :=
  ∃ after, Steps (answers cwd) (compileToWasm phases.toolchain module_).run tree
    (.done (.ok wasm)) after

/-- The code that the phases return for a text, and the name of the output. -/
structure Compiles (source name : List Char) (wasm : List UInt8) : Prop where
  code : ∃ arena context module_, phases.parse source = some (.ok arena) ∧
    phases.typeCheck arena = some (.ok context) ∧ phases.lower context = some module_ ∧
    Generates cwd phases tree module_ wasm
  named : sourceFname args.path = some name

/-- An output that is asked for can be written. -/
def HasOutput (name : List Char) (wasm : List UInt8) : Prop :=
  args.generateWasmOutput = true ∨
    args.generateVOutput = true ∧ ∃ v, phases.wasmToV name wasm = some (.ok v)

def MayWrite : Prop :=
  args.codegen = true ∧ ∃ source name wasm, SourceText cwd args tree source ∧
    Compiles cwd phases args tree source name wasm ∧ HasOutput phases args name wasm

/-- The phases that are asked for accept the text. -/
def Accepted : Prop :=
  ∃ source arena, SourceText cwd args tree source ∧
    phases.parse source = some (.ok arena) ∧
    ((args.codegen || args.analyze) = true → ∃ context, phases.typeCheck arena = some (.ok context))

/-- The outputs hold what the phases returned; the translation is written last. -/
def Delivered (tree' : SourceTree) : Prop :=
  ∃ source name wasm, SourceText cwd args tree source ∧
    Compiles cwd phases args tree source name wasm ∧
    (args.generateVOutput = true → ∃ v, phases.wasmToV name wasm = some (.ok v) ∧
      readFile cwd tree' (vFilePath name) = .ok (encode v)) ∧
    (args.generateWasmOutput = true →
      readFile cwd tree' (wasmFilePath name) = .ok wasm ∨
        args.generateVOutput = true ∧
          SameFile cwd tree' (wasmFilePath name) (vFilePath name))

/-- What every run of the compiler keeps to, whichever requests fail. -/
structure FaithfulRuns : Prop where
  untouched : ∀ rest tree',
    Steps (answers cwd) (main phases args).run tree rest tree' →
      tree.ChangesWithin (IsTemporary temporary) tree' ∨
        MayWrite cwd phases args tree
  accepted : ∀ tree', Steps (answers cwd) (main phases args).run tree
    (.done (.ok ())) tree' → Accepted cwd phases args tree
  delivered : ∀ tree', Steps (answers cwd) (main phases args).run tree
    (.done (.ok ())) tree' → args.codegen = true →
      Delivered cwd phases args tree tree'

end Promises

/-! ## Parts of a run -/

section Parts

variable {cwd : Location OsName} {guarantee : SourceTree → SourceTree → Prop}
  {tree : SourceTree} {message : String}

theorem guaranteed_inFile {asked : FileProgram OsName (List UInt8) (Except ErrorKind α)}
    {post : Except (Failure Problem) α → SourceTree → Prop}
    (holds : Guaranteed (answers cwd) guarantee asked tree
      (Ends (fun value tree' => post (.ok value) tree') fun tree' =>
        ∀ cause, post (.error (.file message cause)) tree')) :
    Guaranteed (answers cwd) guarantee (inFile message asked).run tree post := by
  refine guaranteed_bind.mpr (holds.weaken ?_)
  intro answer tree' ended
  cases answer with
  | ok value => exact ended
  | error cause => exact ended cause

theorem guaranteed_runPhase {result : Option (Except Problem α)}
    {rest : α → Compiling Problem β} {post : Except (Failure Problem) β → SourceTree → Prop}
    (fails : ∀ failure, post (.error failure) tree)
    (later : ∀ value, result = some (.ok value) →
      Guaranteed (answers cwd) guarantee (rest value).run tree post) :
    Guaranteed (answers cwd) guarantee (runPhase message result >>= rest).run tree
      post := by
  refine guaranteed_bind_fallible.mpr ?_
  cases result with
  | none => exact fails _
  | some result =>
      cases result with
      | error cause => exact fails _
      | ok value => exact later value rfl

/-- What is read from the source file is its text. -/
theorem observes_readToString (path : Path OsName) :
    Observes cwd tree (readToString path) fun answer =>
      ∀ source, answer = .ok source →
        ∃ bytes, readFile cwd tree path = .ok bytes ∧ decode bytes = some source := by
  refine (observes_ask (.read path) rfl).bind fun answer answered => ?_
  refine observes_pure fun source isSource => ?_
  rcases answered with rfl | rfl
  · cases read : readFile cwd tree path with
    | error cause =>
        rw [perform, read] at isSource
        cases isSource
    | ok bytes =>
        rw [perform, read] at isSource
        refine ⟨bytes, rfl, ?_⟩
        change decoded bytes = .ok source at isSource
        rw [decoded] at isSource
        split at isSource
        next text isText =>
          cases isSource
          exact isText
        next => cases isSource
  · cases isSource

/-- What is there behind a write: the file, and all other files as before. -/
def Written (cwd : Location OsName) (tree : SourceTree) (path : Path OsName)
    (content : List UInt8) : Except (Failure Problem) Unit → SourceTree → Prop
  | .ok (), tree' =>
      readFile cwd tree' path = .ok content ∧
        ∀ other kept, readFile cwd tree other = .ok kept →
          readFile cwd tree' other = .ok kept ∨
            SameFile cwd tree' other path
  | .error _, _ => True

/-- An output directory is made, and a file written in it. -/
theorem writeOutput_writes {path : Path OsName} {content : List UInt8}
    (always : ∀ before after, guarantee before after) :
    Guaranteed (answers cwd) guarantee
      (writeOutput message path content : Compiling Problem Unit).run tree
      (Written cwd tree path content) := by
  refine guaranteed_bind_fallible.mpr (guaranteed_inFile ?_)
  refine (createDirAll_adds outputPath tree).mono (fun before after _ => always before after) ?_
  rintro made middle ⟨grows, _⟩
  cases made with
  | error cause => exact fun _ => trivial
  | ok value =>
      refine guaranteed_inFile ?_
      intro answer tree' answered
      refine ⟨always middle tree', ?_⟩
      cases answer with
      | error cause => exact fun _ => trivial
      | ok value =>
          rcases answered with performed | ⟨failed, _⟩
          · rw [perform] at performed
            cases wrote : writeFile cwd middle path content with
            | error cause =>
                rw [wrote] at performed
                cases performed
            | ok written =>
                rw [wrote] at performed
                cases performed
                refine ⟨readFile_writeFile wrote, fun other kept read => ?_⟩
                exact readFile_writeFile_other wrote (readFile_grows grows read)
          · cases failed

end Parts

/-! ## The whole run -/

section Whole

variable (cwd temporary : Location OsName) (phases : Phases Arena Context Problem)
  (args : Cli) (tree : SourceTree)

/-- What a run that succeeds has kept to. -/
def Promise : Except (Failure Problem) Unit → SourceTree → Prop
  | .ok (), tree' =>
      Accepted cwd phases args tree ∧
        (args.codegen = true → Delivered cwd phases args tree tree')
  | .error _, _ => True

/-- Only the temporary directory changes where nothing may be written. -/
def Changing (before after : SourceTree) : Prop :=
  before.ChangesWithin (IsTemporary temporary) after ∨ MayWrite cwd phases args tree

/-- What a guarantee has to permit so that a run keeps to it: the work of the toolchain, and anything
once an output may be written. -/
structure Permits (guarantee : SourceTree → SourceTree → Prop) : Prop where
  looking : ∀ tree, guarantee tree tree
  generating : ∀ module_, Guaranteed (answers cwd) guarantee
    (compileToWasm phases.toolchain module_).run tree fun _ _ => True
  writing : MayWrite cwd phases args tree → ∀ before after, guarantee before after

variable {cwd temporary phases args tree} {source name : List Char}
  {wasm : List UInt8} {middle : SourceTree} {guarantee : SourceTree → SourceTree → Prop}

theorem changing_self (state : SourceTree) :
    Changing cwd temporary phases args tree state state :=
  .inl .refl

theorem changing_steps {program rest : Program FileRequest Answer α}
    {post : α → SourceTree → Prop} {tree' : SourceTree}
    (holds : Guaranteed (answers cwd)
      (Changing cwd temporary phases args tree) program tree post)
    (steps : Steps (answers cwd) program tree rest tree') :
    Changing cwd temporary phases args tree tree tree' := by
  refine holds.invariant ?_ (changing_self tree) steps
  rintro before after (within | mayWrite) changes
  · exact changes.imp_left within.trans
  · exact .inr mayWrite

/-- A toolchain that keeps to its temporary directory. -/
theorem permits_changing (args : Cli) (confined : phases.toolchain.Confined cwd temporary)
    (closed : tree.Closed) :
    Permits cwd phases args tree
      (Changing cwd temporary phases args tree) := by
  refine ⟨changing_self, fun module_ => ?_, fun mayWrite _ _ => .inr mayWrite⟩
  exact (compileToWasm_confined confined module_ closed).mono (fun _ _ => .inl) fun _ _ => id

/-- Where nothing is kept to, any toolchain will do. -/
theorem permits_true : Permits cwd phases args tree fun _ _ => True := by
  refine ⟨fun _ => trivial, fun module_ => guaranteed_iff.mpr ⟨?_, ?_⟩, fun _ _ _ => trivial⟩
  · exact fun _ _ _ _ _ _ _ => trivial
  · exact fun _ _ _ => trivial

/-- Of a run that fails nothing is promised. -/
theorem promise_error (failure : Failure Problem) (tree' : SourceTree) :
    Promise cwd phases args tree (.error failure) tree' :=
  trivial

theorem Compiles.accepted (compiles : Compiles cwd phases args tree source name wasm)
    (text : SourceText cwd args tree source) :
    Accepted cwd phases args tree := by
  rcases compiles.code with ⟨arena, context, _, parsed, typed, _⟩
  exact ⟨source, arena, text, parsed, fun _ => ⟨context, typed⟩⟩

theorem Compiles.mayWrite (compiles : Compiles cwd phases args tree source name wasm)
    (text : SourceText cwd args tree source) (codegen : args.codegen = true)
    (output : HasOutput phases args name wasm) : MayWrite cwd phases args tree :=
  ⟨codegen, source, name, wasm, text, compiles, output⟩

/-- The translation is the last part of a run. -/
theorem writeV_promise (permits : Permits cwd phases args tree guarantee)
    (compiles : Compiles cwd phases args tree source name wasm)
    (text : SourceText cwd args tree source) (codegen : args.codegen = true)
    (written : args.generateWasmOutput = true →
      readFile cwd middle (wasmFilePath name) = .ok wasm) :
    Guaranteed (answers cwd) guarantee
      (writeV phases args name wasm).run middle (Promise cwd phases args tree) := by
  have accepted := compiles.accepted text
  rw [writeV]
  split
  next vOutput =>
    refine guaranteed_runPhase (fun failure => promise_error failure _) fun v translated => ?_
    have always := permits.writing
      (compiles.mayWrite text codegen (.inr ⟨vOutput, v, translated⟩))
    refine (writeOutput_writes always).weaken ?_
    intro result tree' ended
    cases result with
    | error failure => exact promise_error failure tree'
    | ok value =>
        refine ⟨accepted, fun _ => ⟨source, name, wasm, text, compiles, ?_, ?_⟩⟩
        · exact fun _ => ⟨v, translated, ended.1⟩
        · intro wasmOutput
          exact (ended.2 _ _ (written wasmOutput)).imp id fun same => ⟨vOutput, same⟩
  next noOutput =>
    refine ⟨accepted, fun _ => ⟨source, name, wasm, text, compiles, ?_, ?_⟩⟩
    · exact fun vOutput => absurd vOutput noOutput
    · exact fun wasmOutput => .inl (written wasmOutput)

theorem writeWasm_promise (permits : Permits cwd phases args tree guarantee)
    (compiles : Compiles cwd phases args tree source name wasm)
    (text : SourceText cwd args tree source) (codegen : args.codegen = true) :
    Guaranteed (answers cwd) guarantee
      (writeWasm args name wasm >>= fun _ => writeV phases args name wasm).run middle
      (Promise cwd phases args tree) := by
  refine guaranteed_bind_fallible.mpr ?_
  rw [writeWasm]
  split
  next wasmOutput =>
    have always := permits.writing (compiles.mayWrite text codegen (.inl wasmOutput))
    refine (writeOutput_writes always).weaken ?_
    intro result tree' ended
    cases result with
    | error failure => exact promise_error failure tree'
    | ok value => exact writeV_promise permits compiles text codegen fun _ => ended.1
  next noOutput =>
    exact writeV_promise permits compiles text codegen fun wasmOutput => absurd wasmOutput noOutput

/-- What the toolchain returns is code of the module. -/
theorem runToolchain_generates {module_ : LlvmModule}
    (keeps : Guaranteed (answers cwd) guarantee
      (compileToWasm phases.toolchain module_).run tree fun _ _ => True) :
    Guaranteed (answers cwd) guarantee (runToolchain phases module_).run tree
      (Ends (fun wasm _ => Generates cwd phases tree module_ wasm) fun _ => True) := by
  have generates := guaranteed_iff.mpr ⟨(guaranteed_iff.mp keeps).1, fun value state' steps =>
    (steps : Steps (answers cwd) (compileToWasm phases.toolchain module_).run tree
      (.done value) state')⟩
  refine guaranteed_bind.mpr (generates.weaken fun result state' steps => ?_)
  cases result with
  | ok wasm => exact ⟨state', steps⟩
  | error cause => trivial

theorem generate_promise (permits : Permits cwd phases args tree guarantee)
    {arena : Arena} {context : Context} (text : SourceText cwd args tree source)
    (parsed : phases.parse source = some (.ok arena))
    (typed : phases.typeCheck arena = some (.ok context)) :
    Guaranteed (answers cwd) guarantee
      (generate phases args context).run tree (Promise cwd phases args tree) := by
  rw [generate]
  split
  next codegen =>
    refine guaranteed_bind_fallible.mpr ?_
    refine guaranteed_runPhase (fun failure => promise_error failure _) fun module_ isLowered => ?_
    rcases Option.map_eq_some_iff.mp isLowered with ⟨found, lowered, isModule⟩
    cases isModule
    refine (runToolchain_generates (permits.generating module_)).weaken ?_
    intro result state generates
    cases result with
    | error failure => exact promise_error failure state
    | ok wasm =>
        refine guaranteed_runPhase (fun failure => promise_error failure _) fun name isName => ?_
        rcases Option.map_eq_some_iff.mp isName with ⟨found, named, isFound⟩
        cases isFound
        have compiles : Compiles cwd phases args tree source name wasm :=
          ⟨⟨arena, context, module_, parsed, typed, lowered, generates⟩, named⟩
        exact writeWasm_promise permits compiles text codegen
  next noCodegen =>
    exact ⟨⟨source, arena, text, parsed, fun _ => ⟨context, typed⟩⟩,
      fun codegen => absurd codegen noCodegen⟩

theorem check_promise (permits : Permits cwd phases args tree guarantee)
    {arena : Arena} (text : SourceText cwd args tree source)
    (parsed : phases.parse source = some (.ok arena)) :
    Guaranteed (answers cwd) guarantee
      (check phases args arena).run tree (Promise cwd phases args tree) := by
  rw [check]
  split
  next wanted =>
    refine guaranteed_runPhase (fun failure => promise_error failure _) fun context typed => ?_
    exact guaranteed_runPhase (fun failure => promise_error failure _) fun _ _ =>
      generate_promise permits text parsed typed
  next unwanted =>
    refine ⟨⟨source, arena, text, parsed, fun wanted => absurd wanted unwanted⟩, fun codegen => ?_⟩
    rw [codegen, Bool.true_or] at unwanted
    exact absurd rfl unwanted

theorem main_promise (permits : Permits cwd phases args tree guarantee) :
    Guaranteed (answers cwd) guarantee (main phases args).run tree
      (Promise cwd phases args tree) := by
  refine (observes_pathExists args.path).guaranteed_bind_lift permits.looking fun found _ => ?_
  split
  next => trivial
  next =>
    split
    next => trivial
    next =>
      refine guaranteed_bind_fallible.mpr (guaranteed_inFile ?_)
      refine (observes_readToString args.path).guaranteed permits.looking fun answer isText => ?_
      cases answer with
      | error cause => exact fun _ => trivial
      | ok source =>
          exact guaranteed_runPhase (fun failure => promise_error failure _) fun arena parsed =>
            check_promise permits (isText source rfl) parsed

variable (cwd temporary phases args tree)

/-- Whatever fails, a run keeps to the text of its source file. -/
theorem main_faithful (confined : phases.toolchain.Confined cwd temporary)
    (closed : tree.Closed) :
    FaithfulRuns cwd temporary phases args tree := by
  have promise := main_promise (permits_changing args confined closed)
  refine ⟨?_, ?_, ?_⟩
  · exact fun rest tree' steps => changing_steps promise steps
  · exact fun tree' steps => (promise.returns steps).1
  · exact fun tree' steps => (promise.returns steps).2

end Whole

/-! ## One source file -/

def acceptAll : Phases Unit Unit Unit where
  parse := fun _ => some (.ok ())
  typeCheck := fun _ => some (.ok ())
  lower := fun _ => some ⟨[0], true⟩
  toolchain := byteToolchain
  wasmToV := fun _ _ => some (.ok "Module".toList)

def buildMain : Cli where
  path := Path.ofName (textName "main.inf")
  parse := false
  analyze := false
  codegen := true
  generateWasmOutput := true
  generateVOutput := true

/-- An empty source file in the working directory, beside the programs of the toolchain. -/
def sourceOnly : SourceTree where
  nodes := [([textName "work"], .dir), ([textName "work", textName "main.inf"], .file 0),
    ([textName "tools"], .dir), ([textName "tools", textName "bin"], .dir),
    ([textName "tools", textName "bin", textName "inf-llc"], .file 1),
    ([textName "tools", textName "bin", textName "rust-lld"], .file 2)]
  contents := fun _ => []

theorem sourceOnly_closed : sourceOnly.Closed :=
  Tree.closed_of_entries (by decide)

/-- What a run leaves in which every request is performed. -/
def mainLeft : SourceTree :=
  ((main acceptAll buildMain).run.run (perform [textName "work"]) sourceOnly).2

theorem sourceOnly_steps :
    Steps (answers [textName "work"]) (main acceptAll buildMain).run sourceOnly
      (.done (.ok ())) mainLeft := by
  have ended : ((main acceptAll buildMain).run.run (perform [textName "work"]) sourceOnly).1 =
      .ok () := by rfl
  rw [← ended]
  exact steps_run fun _ _ => .inl rfl

theorem sourceOnly_faithful :
    FaithfulRuns [textName "work"] [textName "scratch"] acceptAll buildMain sourceOnly ∧
      Delivered [textName "work"] acceptAll buildMain sourceOnly mainLeft := by
  have faithful := main_faithful [textName "work"] [textName "scratch"] acceptAll buildMain
    sourceOnly (byteToolchain_confined [textName "work"]) sourceOnly_closed
  exact ⟨faithful, faithful.delivered mainLeft sourceOnly_steps rfl⟩

end Inference.Infc
