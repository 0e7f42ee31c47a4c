import Inference.Foundation.FileFrames

/-! # Rules for programs over files

A program that only looks changes nothing in any of its steps, and what it returns can be described
by the tree it has looked at. Directories that are there are left alone by `create_dir_all`.
-/

namespace Inference.FileSystem

open Effects

variable {Name Content : Type} [DecidableEq Name] {cwd : Location Name}
  {tree : Tree Name Content} {α β ε : Type}

/-- Requests that only look. -/
def Request.isReading : Request Name Content → Bool
  | .metadata _ | .symlinkMetadata _ | .read _ | .readDir _ | .setPermissions _ => true
  | _ => false

theorem answers_reading {request : Request Name Content} {answer : Answer request}
    {tree' : Tree Name Content} (reading : request.isReading = true)
    (answered : answers cwd request tree answer tree') :
    tree' = tree ∧ (answer = (perform cwd request tree).1 ∨ answer = .error .other) := by
  rcases answered with performed | ⟨failed, interrupted⟩
  · refine ⟨?_, .inl (congrArg Prod.fst performed).symm⟩
    have same : (perform cwd request tree).2 = tree := by
      cases request <;> first | rfl | cases reading
    rw [← same, performed]
  · refine ⟨?_, .inr failed⟩
    cases interrupted with
    | untouched => rfl
    | created => cases reading
    | overwritten => cases reading
    | emptied => cases reading

variable (cwd tree) in
/-- The program changes nothing, and `post` describes what it returns. -/
def Observes (program : FileProgram Name Content α) (post : α → Prop) : Prop :=
  Guaranteed (answers cwd) Eq program tree fun value tree' => tree' = tree ∧ post value

theorem Observes.guaranteed {program : FileProgram Name Content α} {post : α → Prop}
    {guarantee : Tree Name Content → Tree Name Content → Prop}
    {post' : α → Tree Name Content → Prop}
    (observes : Observes cwd tree program post)
    (reflexive : ∀ tree, guarantee tree tree) (implies : ∀ value, post value → post' value tree) :
    Guaranteed (answers cwd) guarantee program tree post' := by
  refine observes.mono ?_ ?_
  · rintro before _ rfl
    exact reflexive before
  · rintro value _ ⟨rfl, holds⟩
    exact implies value holds

theorem Observes.weaken {program : FileProgram Name Content α} {post post' : α → Prop}
    (observes : Observes cwd tree program post)
    (implies : ∀ value, post value → post' value) :
    Observes cwd tree program post' :=
  observes.guaranteed (fun _ => rfl) fun value holds => ⟨rfl, implies value holds⟩

theorem observes_pure {value : α} {post : α → Prop} (holds : post value) :
    Observes cwd tree (pure value) post :=
  ⟨rfl, holds⟩

theorem Observes.bind {program : FileProgram Name Content α}
    {rest : α → FileProgram Name Content β} {post : α → Prop} {post' : β → Prop}
    (observes : Observes cwd tree program post)
    (later : ∀ value, post value → Observes cwd tree (rest value) post') :
    Observes cwd tree (program >>= rest) post' :=
  guaranteed_bind.mpr (observes.guaranteed (fun _ => rfl) later)

theorem observes_ask (request : Request Name Content) (reading : request.isReading = true) :
    Observes cwd tree (ask request) fun answer =>
      answer = (perform cwd request tree).1 ∨ answer = .error .other := by
  intro answer tree' answered
  rcases answers_reading reading answered with ⟨rfl, answer⟩
  exact ⟨rfl, rfl, answer⟩

theorem observes_pathExists (path : Path Name) :
    Observes cwd tree (pathExists path) fun found =>
      found = true → ∃ kind, metadata cwd tree true path = .ok kind := by
  refine (observes_ask (.metadata path) rfl).bind fun answer answered => ?_
  apply observes_pure
  intro found
  rcases answered with rfl | rfl
  · change (metadata cwd tree true path).isOk = true at found
    cases answered : metadata cwd tree true path with
    | ok kind => exact ⟨kind, rfl⟩
    | error error =>
        rw [answered] at found
        cases found
  · cases found

theorem observes_isKind (kind : Kind) (path : Path Name) :
    Observes cwd tree (isKind kind path) fun found =>
      found = true → metadata cwd tree true path = .ok kind := by
  refine (observes_ask (.metadata path) rfl).bind fun answer answered => ?_
  rcases answered with rfl | rfl
  · rw [perform]
    cases metadata cwd tree true path with
    | ok other =>
        apply observes_pure
        intro found
        rw [of_decide_eq_true found]
    | error error =>
        apply observes_pure
        intro found
        cases found
  · apply observes_pure
    intro found
    cases found

/-- An error is returned, a value goes on to the rest. -/
theorem Observes.bind_fallible {program : Program.Fallible (Request Name Content) Answer ε α}
    {rest : α → Program.Fallible (Request Name Content) Answer ε β}
    {post : Except ε α → Prop} {post' : Except ε β → Prop}
    (observes : Observes cwd tree program.run post)
    (later : ∀ value, post (.ok value) → Observes cwd tree (rest value).run post')
    (failing : ∀ error, post (.error error) → post' (.error error)) :
    Observes cwd tree (program >>= rest).run post' := by
  refine observes.bind fun result holds => ?_
  cases result with
  | ok value => exact later value holds
  | error error => exact observes_pure (failing error holds)

theorem Observes.bind_lift {program : FileProgram Name Content α}
    {rest : α → Program.Fallible (Request Name Content) Answer ε β} {post : α → Prop}
    {post' : Except ε β → Prop} (observes : Observes cwd tree program post)
    (later : ∀ value, post value → Observes cwd tree (rest value).run post') :
    Observes cwd tree
      ((liftM program : Program.Fallible (Request Name Content) Answer ε α) >>= rest).run post' :=
  guaranteed_bind_fallible.mpr (guaranteed_lift.mpr (observes.guaranteed (fun _ => rfl) later))

section Going

variable {guarantee : Tree Name Content → Tree Name Content → Prop} {post : α → Prop}

/-- A program that goes on after it has looked. -/
theorem Observes.guaranteed_bind_lift {program : FileProgram Name Content α}
    {rest : α → Program.Fallible (Request Name Content) Answer ε β}
    {post' : Except ε β → Tree Name Content → Prop}
    (observes : Observes cwd tree program post)
    (reflexive : ∀ tree, guarantee tree tree)
    (later : ∀ value, post value →
      Guaranteed (answers cwd) guarantee (rest value).run tree post') :
    Guaranteed (answers cwd) guarantee
      ((liftM program : Program.Fallible (Request Name Content) Answer ε α) >>= rest).run tree
      post' :=
  guaranteed_bind_fallible.mpr (guaranteed_lift.mpr (observes.guaranteed reflexive later))

theorem Observes.guaranteed_bind_run {program : Program.Fallible (Request Name Content) Answer ε α}
    {rest : α → Program.Fallible (Request Name Content) Answer ε β} {post : Except ε α → Prop}
    {post' : Except ε β → Tree Name Content → Prop}
    (observes : Observes cwd tree program.run post)
    (reflexive : ∀ tree, guarantee tree tree)
    (later : ∀ value, post (.ok value) →
      Guaranteed (answers cwd) guarantee (rest value).run tree post')
    (failing : ∀ error, post (.error error) → post' (.error error) tree) :
    Guaranteed (answers cwd) guarantee (program >>= rest).run tree post' := by
  refine guaranteed_bind_fallible.mpr (observes.guaranteed reflexive fun result holds => ?_)
  cases result with
  | ok value => exact later value holds
  | error error => exact failing error holds

end Going

/-! ## Runs that nothing hinders -/

variable (cwd tree) in
/-- Without failures, the program ends with this value and this tree. -/
def Runs (program : FileProgram Name Content α) (value : α) (tree' : Tree Name Content) : Prop :=
  program.run (perform cwd) tree = (value, tree')

section Running

variable {tree' tree'' : Tree Name Content}

theorem runs_pure (value : α) : Runs cwd tree (pure value) value tree := rfl

theorem runs_ask (request : Request Name Content) :
    Runs cwd tree (ask request) (perform cwd request tree).1
      (perform cwd request tree).2 :=
  rfl

theorem Runs.bind {program : FileProgram Name Content α} {rest : α → FileProgram Name Content β}
    {value : α} {value' : β} (runs : Runs cwd tree program value tree')
    (later : Runs cwd tree' (rest value) value' tree'') :
    Runs cwd tree (program >>= rest) value' tree'' := by
  rw [Runs, Program.run_bind, runs]
  exact later

theorem Runs.bind_ok {program : Program.Fallible (Request Name Content) Answer ε α}
    {rest : α → Program.Fallible (Request Name Content) Answer ε β} {value : α}
    {result : Except ε β} (runs : Runs cwd tree program.run (.ok value) tree')
    (later : Runs cwd tree' (rest value).run result tree'') :
    Runs cwd tree (program >>= rest).run result tree'' :=
  Runs.bind runs later

theorem Runs.bind_error {program : Program.Fallible (Request Name Content) Answer ε α}
    {rest : α → Program.Fallible (Request Name Content) Answer ε β} {error : ε}
    (runs : Runs cwd tree program.run (.error error) tree') :
    Runs cwd tree (program >>= rest).run (.error error) tree' :=
  Runs.bind runs (runs_pure _)

theorem Runs.bind_lift {program : FileProgram Name Content α}
    {rest : α → Program.Fallible (Request Name Content) Answer ε β} {value : α}
    {result : Except ε β} (runs : Runs cwd tree program value tree')
    (later : Runs cwd tree' (rest value).run result tree'') :
    Runs cwd tree
      ((liftM program : Program.Fallible (Request Name Content) Answer ε α) >>= rest).run result
      tree'' :=
  Runs.bind (Runs.bind runs (runs_pure _)) later

theorem Runs.unique {program : FileProgram Name Content α} {value value' : α}
    (left : Runs cwd tree program value tree')
    (right : Runs cwd tree program value' tree'') : value = value' ∧ tree' = tree'' :=
  Prod.mk.inj (left.symm.trans right)

/-- A sequence that succeeds is made of a first part that does and of the rest behind it. -/
theorem Runs.parts_ok {program : Program.Fallible (Request Name Content) Answer ε α}
    {rest : α → Program.Fallible (Request Name Content) Answer ε β} {value : β}
    (runs : Runs cwd tree (program >>= rest).run (.ok value) tree'') :
    ∃ first tree', Runs cwd tree program.run (.ok first) tree' ∧
      Runs cwd tree' (rest first).run (.ok value) tree'' := by
  rcases ran : program.run.run (perform cwd) tree with ⟨error | first, tree'⟩
  · have failed : Runs cwd tree (program >>= rest).run (.error error) tree' :=
      Runs.bind_error ran
    cases (failed.unique runs).1
  · have whole : Runs cwd tree (program >>= rest).run
        ((rest first).run.run (perform cwd) tree').1
        ((rest first).run.run (perform cwd) tree').2 := Runs.bind_ok ran rfl
    rcases whole.unique runs with ⟨same, rfl⟩
    exact ⟨first, tree', ran, Prod.ext same rfl⟩

theorem Runs.parts_lift {program : FileProgram Name Content α}
    {rest : α → Program.Fallible (Request Name Content) Answer ε β} {result : Except ε β}
    (runs : Runs cwd tree
      ((liftM program : Program.Fallible (Request Name Content) Answer ε α) >>= rest).run result
      tree'') :
    ∃ first tree', Runs cwd tree program first tree' ∧
      Runs cwd tree' (rest first).run result tree'' := by
  rcases ran : program.run (perform cwd) tree with ⟨first, tree'⟩
  have whole : Runs cwd tree
      ((liftM program : Program.Fallible (Request Name Content) Answer ε α) >>= rest).run
      ((rest first).run.run (perform cwd) tree').1
      ((rest first).run.run (perform cwd) tree').2 := Runs.bind_lift ran rfl
  rcases whole.unique runs with ⟨same, rfl⟩
  exact ⟨first, tree', ran, Prod.ext same rfl⟩

theorem Runs.steps {program : FileProgram Name Content α} {value : α}
    (runs : Runs cwd tree program value tree') :
    Steps (answers cwd) program tree (.done value) tree' := by
  have ends : Steps (answers cwd) program tree
      (.done (program.run (perform cwd) tree).1)
      (program.run (perform cwd) tree).2 := steps_run fun _ _ => .inl rfl
  rwa [runs] at ends

/-- What is guaranteed holds at the end of a run. -/
theorem Runs.satisfies {program : FileProgram Name Content α} {value : α}
    {guarantee : Tree Name Content → Tree Name Content → Prop}
    {post : α → Tree Name Content → Prop} (runs : Runs cwd tree program value tree')
    (holds : Guaranteed (answers cwd) guarantee program tree post) :
    post value tree' :=
  holds.returns runs.steps

/-- Behind a run of its first part, the rest of a program keeps to the guarantee. -/
theorem Runs.rest_lift {program : FileProgram Name Content α}
    {rest : α → Program.Fallible (Request Name Content) Answer ε β} {value : α}
    {guarantee : Tree Name Content → Tree Name Content → Prop}
    {post : Except ε β → Tree Name Content → Prop}
    (runs : Runs cwd tree program value tree')
    (holds : Guaranteed (answers cwd) guarantee
      ((liftM program : Program.Fallible (Request Name Content) Answer ε α) >>= rest).run tree
      post) :
    Guaranteed (answers cwd) guarantee (rest value).run tree' post :=
  runs.satisfies (guaranteed_lift.mp (guaranteed_bind_fallible.mp holds))

theorem Runs.rest_ok {program : Program.Fallible (Request Name Content) Answer ε α}
    {rest : α → Program.Fallible (Request Name Content) Answer ε β} {value : α}
    {guarantee : Tree Name Content → Tree Name Content → Prop}
    {post : Except ε β → Tree Name Content → Prop}
    (runs : Runs cwd tree program.run (.ok value) tree')
    (holds : Guaranteed (answers cwd) guarantee (program >>= rest).run tree post) :
    Guaranteed (answers cwd) guarantee (rest value).run tree' post :=
  runs.satisfies (guaranteed_bind_fallible.mp holds)

theorem runs_pathExists (path : Path Name) :
    Runs cwd tree (pathExists path)
      (metadata cwd tree true path).isOk tree :=
  rfl

theorem runs_isKind (kind : Kind) (path : Path Name) :
    Runs cwd tree (isKind kind path)
      (decide (metadata cwd tree true path = .ok kind)) tree := by
  refine (runs_ask (.metadata path)).bind ?_
  rw [perform]
  cases metadata cwd tree true path with
  | ok found => simp [runs_pure]
  | error error => exact runs_pure _

section Requests

variable {path : Path Name}

theorem runs_read {content : Content}
    (read : readFile cwd tree path = .ok content) :
    Runs cwd tree (ask (.read path)) (.ok content) tree := by
  rw [Runs, ← read]
  rfl

theorem runs_readDir {entries : List Name}
    (read : readDir cwd tree path = .ok entries) :
    Runs cwd tree (ask (.readDir path)) (.ok entries) tree := by
  rw [Runs, ← read]
  rfl

theorem runs_write {written : Content}
    (wrote : writeFile cwd tree path written = .ok tree') :
    Runs cwd tree (ask (.write path written)) (.ok ()) tree' := by
  change changed tree (writeFile cwd tree path written) = _
  rw [wrote]
  rfl

theorem runs_removeFile (removed : removeFile cwd tree path = .ok tree') :
    Runs cwd tree (ask (.removeFile path)) (.ok ()) tree' := by
  change changed tree (removeFile cwd tree path) = _
  rw [removed]
  rfl

theorem runs_removeDirAll
    (removed : removeDirAll cwd tree path = (.ok (), tree')) :
    Runs cwd tree (ask (.removeDirAll path)) (.ok ()) tree' :=
  removed

theorem runs_symlink {original : Path Name}
    (linked : symlink cwd tree original path = .ok tree') :
    Runs cwd tree (ask (.symlink original path)) (.ok ()) tree' := by
  change changed tree (symlink cwd tree original path) = _
  rw [linked]
  rfl

end Requests

end Running

/-! ## Creating directories -/

section Creating

variable {path : Path Name} {directory : Location Name}
  {guarantee : Tree Name Content → Tree Name Content → Prop}

theorem observes_createDirAll (reaches : Reaches cwd tree path directory) :
    Observes cwd tree (createDirAll path) fun _ => True := by
  rw [createDirAll, createDirAllFrom]
  split
  · exact observes_pure trivial
  next notEmpty =>
    have asked : Observes cwd tree (ask (.createDir path)) fun answer =>
        answer = .error .alreadyExists ∨ answer = .error .other := by
      intro answer tree' answered
      rcases answered with performed | ⟨failed, interrupted⟩
      · rw [perform, reaches.createDir_fails (Bool.eq_false_iff.mpr notEmpty)] at performed
        cases performed
        exact ⟨rfl, rfl, .inl rfl⟩
      · cases interrupted with
        | untouched => exact ⟨rfl, rfl, .inr failed⟩
    refine asked.bind fun answer answered => ?_
    rcases answered with rfl | rfl
    · refine (observes_isKind .dir path).bind fun found _ => ?_
      split <;> exact observes_pure trivial
    · refine (observes_isKind .dir path).bind fun found _ => ?_
      split <;> exact observes_pure trivial

omit [DecidableEq Name] in
theorem trim_isPrefix (absolute : Bool) (components : List (Component Name)) :
    Path.trim absolute components <+: components := by
  rw [Path.trim.eq_def]
  split
  · split
    · exact List.nil_prefix
    · exact ⟨_, rfl⟩
  · exact List.rdropWhile_prefix _ _

omit [DecidableEq Name] in
theorem parent_isAbove {parent : Path Name} (isParent : path.parent = some parent) :
    parent.IsAbove path := by
  rw [Path.parent] at isParent
  split at isParent
  · cases isParent
  next components notEmpty =>
    cases isParent
    refine ⟨rfl, (trim_isPrefix _ _).trans ((List.dropLast_prefix _).trans ?_)⟩
    exact trim_isPrefix _ _

/-- What an attempt to create a directory leaves. -/
theorem grows_createDir {answer : Except ErrorKind Unit} {tree' : Tree Name Content}
    (answered : answers cwd (.createDir path) tree answer tree') :
    tree.Grows tree' ∧ (answer = .ok () → ∃ directory, Reaches cwd tree' path directory) := by
  rcases answered with performed | ⟨rfl, interrupted⟩
  · rw [perform] at performed
    cases created : createDir cwd tree path with
    | error error =>
        rw [created] at performed
        cases performed
        exact ⟨.refl tree, fun same => by cases same⟩
    | ok tree'' =>
        rw [created] at performed
        cases performed
        refine ⟨?_, fun _ => reaches_createDir created⟩
        rcases createDir_eq_ok.mp created with ⟨_, _, absent, rfl⟩
        exact Tree.grows_set absent
  · cases interrupted with
    | untouched => exact ⟨.refl tree, fun same => by cases same⟩

/-- Only the path and those above it are created, and behind a success the path is a directory. -/
theorem guaranteed_createDirAllFrom (fuel : Nat) (path : Path Name) (tree : Tree Name Content)
    (reflexive : ∀ tree, guarantee tree tree)
    (creates : ∀ above : Path Name, above.IsAbove path → ∀ tree answer tree',
      answers cwd (.createDir above) tree answer tree' → guarantee tree tree') :
    Guaranteed (answers cwd) guarantee (createDirAllFrom fuel path) tree
      fun result tree' => tree.Grows tree' ∧
        (result = .ok () → path.isEmpty = true ∨
          ∃ directory, Reaches cwd tree' path directory) := by
  have self (path : Path Name) : path.IsAbove path := ⟨rfl, List.prefix_refl _⟩
  have looks (path : Path Name) (tree : Tree Name Content) (error : ErrorKind) :
      Observes cwd tree (do
        if ← isKind .dir path then return Except.ok ()
        else return .error error) fun result =>
          result = .ok () → ∃ directory, Reaches cwd tree path directory := by
    refine (observes_isKind .dir path).bind fun found isDir => ?_
    split
    next isFound => exact observes_pure fun _ => reaches_of_metadata (isDir isFound)
    next =>
      apply observes_pure
      intro same
      cases same
  induction fuel generalizing path tree with
  | zero =>
      refine ⟨.refl tree, fun same => ?_⟩
      cases same
  | succ fuel induction =>
      rw [createDirAllFrom]
      split
      next isEmpty => exact ⟨.refl tree, fun _ => .inl isEmpty⟩
      next notEmpty =>
        refine guaranteed_bind.mpr fun answer tree' answered => ?_
        refine ⟨creates path (self path) _ _ _ answered, ?_⟩
        rcases grows_createDir answered with ⟨grows, reached⟩
        cases answer with
        | ok value => exact ⟨grows, fun _ => .inr (reached rfl)⟩
        | error error =>
            have otherwise : Guaranteed (answers cwd) guarantee (do
                if ← isKind .dir path then return Except.ok ()
                else return .error error) tree' fun result tree'' => tree.Grows tree'' ∧
                  (result = .ok () → path.isEmpty = true ∨
                    ∃ directory, Reaches cwd tree'' path directory) :=
              (looks path tree' error).guaranteed reflexive fun result reached =>
                ⟨grows, fun same => .inr (reached same)⟩
            cases error with
            | notFound =>
                cases isParent : path.parent with
                | none => exact ⟨grows, fun same => by cases same⟩
                | some parent =>
                    have above := parent_isAbove isParent
                    refine guaranteed_bind.mpr ((induction parent tree' fun higher isAbove =>
                      creates higher ⟨isAbove.1.trans above.1, isAbove.2.trans above.2⟩).weaken ?_)
                    rintro result tree'' ⟨grows', _⟩
                    cases result with
                    | error error => exact ⟨grows.trans grows', fun same => by cases same⟩
                    | ok value =>
                        refine guaranteed_bind.mpr fun answer tree''' answered' => ?_
                        refine ⟨creates path (self path) _ _ _ answered', ?_⟩
                        rcases grows_createDir answered' with ⟨grows'', reached'⟩
                        have total := (grows.trans grows').trans grows''
                        cases answer with
                        | ok value => exact ⟨total, fun _ => .inr (reached' rfl)⟩
                        | error error =>
                            exact (looks path _ error).guaranteed reflexive fun result reached =>
                              ⟨total, fun same => .inr (reached same)⟩
            | _ => exact otherwise

/-- The path itself is tried first. -/
theorem createDirAll_first {post : Except ErrorKind Unit → Tree Name Content → Prop}
    (notEmpty : path.isEmpty = false)
    (holds : Guaranteed (answers cwd) guarantee (createDirAll path) tree post) :
    guarantee tree (perform cwd (.createDir path) tree).2 := by
  rw [createDirAll, createDirAllFrom, notEmpty] at holds
  exact (guaranteed_bind.mp holds _ _ (.inl rfl)).1

/-- In a directory that is there, one directory is created. -/
theorem guaranteed_createDirAll_child (reaches : Reaches cwd tree path directory)
    (name : Name) (reflexive : ∀ tree, guarantee tree tree)
    (creates : ∀ answer tree',
      answers cwd (.createDir (path.joinName name)) tree answer tree' →
        guarantee tree tree') :
    Guaranteed (answers cwd) guarantee (createDirAll (path.joinName name)) tree
      fun _ tree' => tree' = tree ∨
        createDir cwd tree (path.joinName name) = .ok tree' := by
  rw [createDirAll, createDirAllFrom, isEmpty_joinName]
  refine guaranteed_bind.mpr ?_
  have looks (error : ErrorKind) : Observes cwd tree (do
      if ← isKind .dir (path.joinName name) then return Except.ok ()
      else return .error error) fun _ => True := by
    refine (observes_isKind .dir _).bind fun found _ => ?_
    split <;> exact observes_pure trivial
  intro answer tree' answered
  have step := creates answer tree' answered
  rcases answered with performed | ⟨failed, interrupted⟩
  · rw [perform] at performed
    cases created : createDir cwd tree (path.joinName name) with
    | ok tree'' =>
        rw [created] at performed
        cases performed
        exact ⟨step, .inr rfl⟩
    | error error =>
        have found : error ≠ .notFound := by
          rintro rfl
          rw [createDir] at created
          have resolved := reaches.resolve_joinName name
          change resolve cwd tree false { path.joinName name with trailing := false } =
            _ at resolved
          rw [resolved] at created
          simp only [bind, Except.bind] at created
          split at created <;> cases created
        rw [created] at performed
        cases performed
        refine ⟨step, ?_⟩
        cases error with
        | notFound => exact absurd rfl found
        | _ => exact (looks _).guaranteed reflexive fun _ _ => .inl rfl
  · subst failed
    cases interrupted with
    | untouched => exact ⟨step, (looks _).guaranteed reflexive fun _ _ => .inl rfl⟩

theorem runs_createDirAll (reaches : Reaches cwd tree path directory) :
    Runs cwd tree (createDirAll path) (.ok ()) tree := by
  rw [createDirAll, createDirAllFrom]
  split
  · exact runs_pure _
  next notEmpty =>
    have exists_ : (perform cwd (.createDir path) tree).1 = .error .alreadyExists := by
      rw [perform, reaches.createDir_fails (Bool.eq_false_iff.mpr notEmpty)]
      rfl
    have same : (perform cwd (.createDir path) tree).2 = tree := by
      rw [perform, reaches.createDir_fails (Bool.eq_false_iff.mpr notEmpty)]
      rfl
    have isDir : metadata cwd tree true path = .ok .dir :=
      metadata_eq_ok.mpr ⟨directory, .dir, reaches.resolves (Bool.eq_false_iff.mpr notEmpty),
        reaches.rooted.dir, rfl⟩
    refine (runs_ask (.createDir path)).bind ?_
    rw [exists_, same]
    refine (runs_isKind .dir path).bind ?_
    rw [decide_eq_true isDir]
    exact runs_pure _

end Creating

end Inference.FileSystem
