import Inference.Foundation.FileFrames
import Inference.Infs.ShellConfiguration

/-! # Repeated runs of the shell configuration

What any number of runs of `configure_path` leaves in the profile, also when requests fail.
-/

namespace Inference.Infs

open Effects FileSystem Foundation.Utf8Text

variable {cwd : Location OsName} {binPath : List UInt8}

/-- What is read as a profile that has the marker. -/
def HasMarker (content : List UInt8) : Prop :=
  ∃ text, decode content = some text ∧ inferenceMarker <:+: text

/-- How a run ends: it changes nothing, it appends the lines to a file without the marker, or it
fails while it writes them. -/
inductive RunEnds (binPath : List UInt8) (tree : ProfileTree) :
    Except InfsError ConfigureResult → ProfileTree → Prop
  | unchanged : RunEnds binPath tree result tree
  | appended (shell : Shell) (isText : decode (tree.contents file) = some text)
      (unmarked : ¬inferenceMarker <:+: text) :
      RunEnds binPath tree (.ok result)
        (tree.setContents file (tree.contents file ++ encode (shell.pathConfig binPath)))
  | partly (shell : Shell) (isText : decode (tree.contents file) = some text)
      (unmarked : ¬inferenceMarker <:+: text)
      (begins : front <+: encode (shell.pathConfig binPath))
      (unfinished : front ≠ encode (shell.pathConfig binPath)) :
      RunEnds binPath tree (.error error) (tree.setContents file (tree.contents file ++ front))

/-- Runs one after the other, each in its own environment. -/
inductive ConfigureRuns (cwd : Location OsName) (binPath : List UInt8) :
    ProfileTree → List (Except InfsError ConfigureResult) → ProfileTree → Prop
  | none : ConfigureRuns cwd binPath tree [] tree
  | run (environment : UserEnvironment)
      (steps : Steps (ProfileRequest.answers cwd)
        (configurePath environment binPath).run tree (.done result) tree')
      (later : ConfigureRuns cwd binPath tree' results tree'') :
      ConfigureRuns cwd binPath tree (result :: results) tree''

/-- What was appended to a file: the beginnings of lines whose writing failed, then the lines once
or not at all. -/
def AppendsOnce (binPath old new : List UInt8) (allSucceed : Prop) : Prop :=
  ∃ parts whole, new = old ++ parts.flatten ++ whole ∧
    (∀ part ∈ parts, ∃ shell : Shell,
      part <+: encode (shell.pathConfig binPath) ∧ part ≠ encode (shell.pathConfig binPath)) ∧
    (whole = [] ∨ ∃ shell : Shell, whole = encode (shell.pathConfig binPath)) ∧
    (allSucceed → parts = [])

/-- However often the configuration is run, each file has the lines once or not at all, and nothing
else of it changes. -/
def ConfiguresOnce (binPath : List UInt8) : Prop :=
  ∀ cwd tree results tree',
    ConfigureRuns cwd binPath tree results tree' →
      tree'.nodes = tree.nodes ∧
        ∀ file, AppendsOnce binPath (tree.contents file) (tree'.contents file)
          (∀ result ∈ results, result.isOk = true)

/-! ## One run -/

section Run

variable {tree : ProfileTree} {α β : Type}

/-- A request that only reads leaves the tree as it is. -/
theorem reading_answers {request : ProfileRequest} {answer : request.Answer} {tree' : ProfileTree}
    (answered : ProfileRequest.answers cwd request tree answer tree')
    (reads : ∀ tree, (ProfileRequest.perform cwd request tree).2 = tree)
    (writesNothing : ∀ file content, request ≠ .writeAll file content) :
    tree' = tree ∧
      (answer = .error .other ∨
        answer = (ProfileRequest.perform cwd request tree).1) := by
  rcases answered with performed | ⟨failed, interrupted⟩
  · have same := reads tree
    rw [performed] at same
    exact ⟨same, .inr (by rw [performed])⟩
  · cases interrupted with
    | untouched => exact ⟨rfl, .inl failed⟩
    | partly begins unfinished => exact absurd rfl (writesNothing _ _)

theorem guaranteed_inProfile {message : String} {path : Path OsName}
    {asked : Profiling (Except ErrorKind α)} {post : Except InfsError α → ProfileTree → Prop} :
    Guaranteed (ProfileRequest.answers cwd) (fun _ _ => True)
        (inProfile message path asked).run tree post ↔
      Guaranteed (ProfileRequest.answers cwd) (fun _ _ => True) asked tree
        fun answer tree' => post (answer.mapError (.context message path)) tree' := by
  refine guaranteed_bind.trans ⟨fun holds => holds.weaken ?_, fun holds => holds.weaken ?_⟩
  all_goals
    intro answer tree' later
    cases answer with
    | ok value => exact later
    | error cause => exact later

theorem guaranteed_findExistingProfile (candidates : List (Path OsName)) :
    Guaranteed (ProfileRequest.answers cwd) (fun _ _ => True)
      (findExistingProfile candidates) tree fun _ tree' => tree' = tree := by
  induction candidates with
  | nil => rfl
  | cons candidate candidates induction =>
      refine guaranteed_bind.mpr ?_
      intro answer tree' answered
      refine ⟨trivial, ?_⟩
      rcases reading_answers answered (fun _ => rfl) (by simp) with ⟨rfl, _⟩
      cases answer with
      | ok kind => rfl
      | error cause => exact induction

/-- A profile that is read as a text is opened under the same inode. -/
theorem guaranteed_readProfile (path : Path OsName) :
    Guaranteed (ProfileRequest.answers cwd) (fun _ _ => True) (readProfile path) tree
      fun answer tree' => tree' = tree ∧ ∀ text, answer = .ok text →
        ∃ file, ProfileRequest.openFile cwd tree path = (.ok file, tree) ∧
          decode (tree.contents file) = some text := by
  refine guaranteed_bind.mpr ?_
  intro answer tree' answered
  refine ⟨trivial, ?_⟩
  rcases reading_answers answered (fun _ => rfl) (by simp) with ⟨rfl, later⟩
  refine ⟨rfl, fun text isText => ?_⟩
  cases answer with
  | error cause => cases isText
  | ok bytes =>
      rcases later with failed | performed
      · cases failed
      · rcases readFile_eq_ok.mp performed.symm with ⟨location, file, resolved, isFile, rfl⟩
        change asText (tree'.contents file) = .ok text at isText
        refine ⟨file, ?_, ?_⟩
        · rw [ProfileRequest.openFile, resolved]
          dsimp only
          rw [isFile]
        · rw [asText] at isText
          split at isText
          next text found =>
            cases isText
            exact found
          next => cases isText

/-- The lines are appended to the file that was read, as a whole or in part. -/
theorem guaranteed_appendToFile {path : Path OsName} {shell : Shell} {file : FileSystem.Inode}
    {text : List Char}
    (opens : ProfileRequest.openFile cwd tree path = (.ok file, tree))
    (isText : decode (tree.contents file) = some text) (unmarked : ¬inferenceMarker <:+: text)
    (result : ConfigureResult) :
    Guaranteed (ProfileRequest.answers cwd) (fun _ _ => True)
      (appendToFile path (shell.pathConfig binPath)).run tree fun answer tree' =>
        RunEnds binPath tree (answer.map fun _ => result) tree' := by
  refine guaranteed_bind_fallible.mpr (guaranteed_inProfile.mpr ?_)
  intro answer tree' answered
  refine ⟨trivial, ?_⟩
  have opened : tree' = tree ∧ (answer = .error .other ∨ answer = .ok file) := by
    rcases answered with performed | ⟨failed, interrupted⟩
    · change ProfileRequest.openFile cwd tree path = (answer, tree') at performed
      rw [opens] at performed
      cases performed
      exact ⟨rfl, .inr rfl⟩
    · cases interrupted
      exact ⟨rfl, .inl failed⟩
  rcases opened with ⟨rfl, rfl | rfl⟩
  · exact .unchanged
  · refine guaranteed_inProfile.mpr ?_
    intro written tree'' writeAnswered
    refine ⟨trivial, ?_⟩
    rcases writeAnswered with performed | ⟨rfl, interrupted⟩
    · cases performed
      exact .appended shell isText unmarked
    · cases interrupted with
      | untouched => exact .unchanged
      | partly begins unfinished => exact .partly shell isText unmarked begins unfinished

theorem guaranteed_configurePath (environment : UserEnvironment) :
    Guaranteed (ProfileRequest.answers cwd) (fun _ _ => True)
      (configurePath environment binPath).run tree fun result tree' =>
        RunEnds binPath tree result tree' := by
  rw [configurePath]
  cases environment.shellVariable.bind Shell.fromPath with
  | none => exact .unchanged
  | some shell =>
      cases environment.homeDir with
      | none => exact .unchanged
      | some homeDir =>
          refine guaranteed_bind_fallible.mpr (guaranteed_lift.mpr ?_)
          refine (guaranteed_findExistingProfile _).weaken ?_
          rintro found tree' rfl
          cases found with
          | none => exact .unchanged
          | some profilePath =>
              refine guaranteed_bind_fallible.mpr (guaranteed_bind_fallible.mpr
                (guaranteed_inProfile.mpr ((guaranteed_readProfile profilePath).weaken ?_)))
              rintro answer tree' ⟨rfl, opens⟩
              cases answer with
              | error cause => exact .unchanged
              | ok text =>
                  rcases opens text rfl with ⟨file, opens, isText⟩
                  change Guaranteed _ _ (ExceptT.run (if decide (inferenceMarker <:+: text) = true
                    then _ else _)) tree' _
                  by_cases marked : inferenceMarker <:+: text
                  · rw [if_pos (decide_eq_true marked)]
                    exact .unchanged
                  · rw [if_neg (by simpa using marked)]
                    refine guaranteed_bind_fallible.mpr
                      ((guaranteed_appendToFile opens isText marked
                        (.added profilePath (Shell.sourceCommand profilePath))).weaken ?_)
                    intro answer tree'' ends
                    cases answer with
                    | ok done => exact ends
                    | error cause => exact ends

end Run

/-! ## Any number of runs -/

theorem pathConfig_marker (shell : Shell) : inferenceMarker <:+: shell.pathConfig binPath := by
  cases shell with
  | bash => exact ⟨['\n'], _, by simp [Shell.pathConfig]; rfl⟩
  | zsh => exact ⟨['\n'], _, by simp [Shell.pathConfig]; rfl⟩
  | fish => exact ⟨['\n'], _, by simp [Shell.pathConfig]; rfl⟩

theorem hasMarker_appended {content : List UInt8} {text : List Char}
    (isText : decode content = some text) (shell : Shell) :
    HasMarker (content ++ encode (shell.pathConfig binPath)) := by
  refine ⟨text ++ shell.pathConfig binPath, ?_,
    (pathConfig_marker shell).trans (List.suffix_append _ _).isInfix⟩
  rw [← decode_eq_some_iff.mp isText, ← encode_append, decode_encode]

theorem not_hasMarker {content : List UInt8} {text : List Char}
    (isText : decode content = some text) (unmarked : ¬inferenceMarker <:+: text) :
    ¬HasMarker content := by
  rintro ⟨other, isOther, marked⟩
  rw [isText] at isOther
  cases isOther
  exact unmarked marked

theorem RunEnds.nodes {tree tree' : ProfileTree} {result : Except InfsError ConfigureResult}
    (ends : RunEnds binPath tree result tree') : tree'.nodes = tree.nodes := by
  cases ends <;> rfl

/-- What one run does to one file. -/
theorem RunEnds.contents {tree tree' : ProfileTree} {result : Except InfsError ConfigureResult}
    (ends : RunEnds binPath tree result tree') (file : FileSystem.Inode) :
    tree'.contents file = tree.contents file ∨
      ¬HasMarker (tree.contents file) ∧ ∃ shell : Shell,
        (tree'.contents file = tree.contents file ++ encode (shell.pathConfig binPath) ∧
          HasMarker (tree'.contents file)) ∨
        result.isOk = false ∧ ∃ part, part <+: encode (shell.pathConfig binPath) ∧
          part ≠ encode (shell.pathConfig binPath) ∧
          tree'.contents file = tree.contents file ++ part := by
  cases ends with
  | unchanged => exact .inl rfl
  | @appended opened text answer shell isText unmarked =>
      by_cases same : file = opened
      · subst same
        refine .inr ⟨not_hasMarker isText unmarked, shell, .inl ?_⟩
        rw [Tree.setContents]
        dsimp only
        rw [Function.update_self]
        exact ⟨rfl, hasMarker_appended isText shell⟩
      · exact .inl (Function.update_of_ne same _ _)
  | @partly opened text front error shell isText unmarked begins unfinished =>
      by_cases same : file = opened
      · subst same
        exact .inr ⟨not_hasMarker isText unmarked, shell,
          .inr ⟨rfl, front, begins, unfinished, Function.update_self _ _ _⟩⟩
      · exact .inl (Function.update_of_ne same _ _)

/-- A file with the marker stays as it is, and any other one gets the lines at most once. -/
theorem ConfigureRuns.contents {tree tree' : ProfileTree}
    {results : List (Except InfsError ConfigureResult)}
    (runs : ConfigureRuns cwd binPath tree results tree') (file : FileSystem.Inode) :
    (HasMarker (tree.contents file) → tree'.contents file = tree.contents file) ∧
      AppendsOnce binPath (tree.contents file) (tree'.contents file)
        (∀ result ∈ results, result.isOk = true) := by
  induction runs with
  | none => exact ⟨fun _ => rfl, [], [], by simp, by simp, .inl rfl, fun _ => rfl⟩
  | run environment steps later induction =>
      rcases induction with ⟨keeps, parts, whole, split, begin_, once, succeed⟩
      have ends := (guaranteed_configurePath environment).returns steps
      rcases ends.contents file with same | ⟨unmarked, shell, ⟨added, marked⟩ |
        ⟨failed, part, begins, unfinished, added⟩⟩
      · refine ⟨fun marked => ?_, parts, whole, by rw [split, same], begin_, once, fun all => ?_⟩
        · rw [keeps (same ▸ marked), same]
        · exact succeed fun result member => all result (List.mem_cons_of_mem _ member)
      · refine ⟨fun marked => absurd marked unmarked, [], encode (shell.pathConfig binPath), ?_,
          by simp, .inr ⟨shell, rfl⟩, fun _ => rfl⟩
        rw [keeps marked, added]
        simp
      · refine ⟨fun marked => absurd marked unmarked, part :: parts, whole, ?_, ?_, once,
          fun all => ?_⟩
        · rw [split, added]
          simp
        · intro other member
          rcases List.mem_cons.mp member with rfl | member
          · exact ⟨shell, begins, unfinished⟩
          · exact begin_ other member
        · have succeeded := all _ List.mem_cons_self
          rw [failed] at succeeded
          cases succeeded

theorem ConfigureRuns.nodes {tree tree' : ProfileTree}
    {results : List (Except InfsError ConfigureResult)}
    (runs : ConfigureRuns cwd binPath tree results tree') :
    tree'.nodes = tree.nodes := by
  induction runs with
  | none => rfl
  | run environment steps later induction =>
      exact induction.trans ((guaranteed_configurePath environment).returns steps).nodes

theorem configuresOnce (binPath : List UInt8) : ConfiguresOnce binPath :=
  fun _ _ _ _ runs => ⟨runs.nodes, fun file => (runs.contents file).2⟩

end Inference.Infs
