import Inference.Foundation.FilePlacing
import Inference.Infs.Archive
import Inference.Infs.ToolchainRuns

/-! # The common root folder of an archive

Two loops look for the common root of the entries of a tar.gz and of a zip: the first component that
all entries share, as long as one of them has something behind it. The names in a zip come without a
`./` in front, where in a tar.gz it counts as a component of its own, so that the folder behind it
stays.
-/

namespace Inference.Infs

open Effects FileSystem

/-- An entry of an archive: a file with its content, or a directory. Its path can begin with
`./`. -/
structure ArchiveEntry where
  names : List OsName
  dotted : Bool
  content : Option FileContent

namespace ArchiveEntry

/-- The components in front of the names. -/
def dots (dotted : Bool) : List (Component OsName) :=
  if dotted then [.current] else []

def path (entry : ArchiveEntry) : Path OsName :=
  ⟨false, dots entry.dotted ++ entry.names.map .named, entry.content.isNone⟩

def entryType (entry : ArchiveEntry) : EntryType :=
  match entry.content with
  | none => .directory
  | some content => .regular content

def tar (entry : ArchiveEntry) : TarEntry :=
  ⟨some entry.path, entry.entryType⟩

/-- The name that the zip reader gives, of the names alone. -/
def enclosedName (entry : ArchiveEntry) : Path OsName :=
  ⟨false, entry.names.map .named, false⟩

def zip (entry : ArchiveEntry) : ZipEntry :=
  ⟨some entry.enclosedName, entry.content.isNone, entry.content.getD (.bytes [])⟩

/-- The entry without a `./` in front. -/
def undotted (entry : ArchiveEntry) : ArchiveEntry :=
  { entry with dotted := false }

/-- Where the entry goes, when the folder that it lies in is stripped or when it is not. -/
def place (stripped : Bool) (entry : ArchiveEntry) : List OsName :=
  if stripped then entry.names.tail else entry.names

def placed (stripped : Bool) (entry : ArchiveEntry) : List OsName × Option FileContent :=
  (entry.place stripped, entry.content)

end ArchiveEntry

/-- Each entry is named, apart from the directory `./` itself. -/
def AreNamed (entries : List ArchiveEntry) : Prop :=
  ∀ entry ∈ entries, entry.names = [] → entry.dotted = true ∧ entry.content = none

/-- No two entries have the same names, and nothing lies below a file. -/
structure IsTree (entries : List ArchiveEntry) : Prop where
  distinct : (entries.map (·.names)).Nodup
  above : ∀ entry ∈ entries, entry.content ≠ none → ∀ other ∈ entries,
    entry.names <+: other.names → other.names = entry.names

def InOneFolder (entries : List ArchiveEntry) (folder : OsName) : Prop :=
  (∀ entry ∈ entries, entry.names.head? = some folder) ∧
    ∃ entry ∈ entries, 1 < entry.names.length

/-- All entries lie in one folder, and none begins with `./`. -/
def IsStripped (entries : List ArchiveEntry) : Prop :=
  (∃ folder, InOneFolder entries folder) ∧ ∀ entry ∈ entries, entry.dotted = false

def tarEntries (entries : List ArchiveEntry) : List (Option TarEntry) :=
  entries.map fun entry => some entry.tar

def zipEntries (entries : List ArchiveEntry) : List (Option ZipEntry) :=
  entries.map fun entry => some entry.zip

/-! ## The common root -/

section Components

variable (entry : ArchiveEntry)

theorem pathComponents_entry :
    pathComponents entry.path = ArchiveEntry.dots entry.dotted ++ entry.names.map .named := by
  have named : (entry.names.map Component.named).filter (fun component => !component.isCurrent) =
      entry.names.map .named :=
    List.filter_eq_self.mpr fun component member => by
      rcases List.mem_map.mp member with ⟨name, _, rfl⟩
      rfl
  rw [ArchiveEntry.path, ArchiveEntry.dots, pathComponents.eq_def]
  cases entry.dotted with
  | true => simp [named]
  | false =>
      cases names : entry.names with
      | nil => rfl
      | cons name rest =>
          rw [names] at named
          simpa using named

theorem componentCount_entry :
    componentCount entry.path = (ArchiveEntry.dots entry.dotted).length + entry.names.length := by
  rw [componentCount, pathComponents_entry, List.length_append, List.length_map]
  exact Nat.zero_add _

theorem firstComponent_entry :
    firstComponent entry.path =
      (ArchiveEntry.dots entry.dotted ++ entry.names.map Component.named).head?.map
        fun component => ⟨false, [component], false⟩ := by
  rw [firstComponent, pathComponents_entry]
  rfl

variable {entry}

theorem firstComponent_dotted (dotted : entry.dotted = true) :
    firstComponent entry.path = some ⟨false, [.current], false⟩ := by
  rw [firstComponent_entry, dotted]
  rfl

theorem firstComponent_undotted (undotted : entry.dotted = false) :
    firstComponent entry.path =
      entry.names.head?.map fun name => ⟨false, [.named name], false⟩ := by
  rw [firstComponent_entry, undotted]
  cases entry.names <;> rfl

theorem stripPrefix_entry {root : Path OsName} (isFirst : firstComponent entry.path = some root) :
    stripPrefix entry.path root =
      some ⟨false, (ArchiveEntry.dots entry.dotted ++ entry.names.map Component.named).tail,
        false⟩ := by
  rw [stripPrefix, if_pos isFirst, pathComponents_entry]
  rfl

end Components

section Roots

variable {entries : List ArchiveEntry} {root : Path OsName} {nested : Bool}

theorem AreNamed.first (named : AreNamed entries) {entry : ArchiveEntry}
    (member : entry ∈ entries) :
    ∃ first, firstComponent entry.path = some first := by
  cases dotted : entry.dotted with
  | true => exact ⟨_, firstComponent_dotted dotted⟩
  | false =>
      rw [firstComponent_undotted dotted]
      cases names : entry.names with
      | nil =>
          rw [(named entry member names).1] at dotted
          cases dotted
      | cons name rest => exact ⟨_, rfl⟩

/-- The common root as a fold over the paths. -/
def commonRoot (entries : List ArchiveEntry) (common : CommonRoot) : Option CommonRoot :=
  entries.foldlM (fun common entry => common.add entry.path) common

theorem findCommonRootFolderTar_eq (entries : List ArchiveEntry) (common : CommonRoot) :
    findCommonRootFolderTar (tarEntries entries) common =
      .ok ((commonRoot entries common).bind CommonRoot.kept) := by
  induction entries generalizing common with
  | nil => rfl
  | cons entry entries induction =>
      rw [tarEntries, List.map_cons, findCommonRootFolderTar, commonRoot, List.foldlM_cons]
      dsimp only [ArchiveEntry.tar]
      cases common.add entry.path with
      | none => rfl
      | some common => exact induction common

/-- What is looked at of a name in a zip is what there is of the path without `./`. -/
theorem components_enclosedName (entry : ArchiveEntry) :
    firstComponent entry.enclosedName = firstComponent entry.undotted.path ∧
      componentCount entry.enclosedName = componentCount entry.undotted.path :=
  ⟨rfl, rfl⟩

theorem add_enclosedName (entry : ArchiveEntry) (common : CommonRoot) :
    common.add entry.enclosedName = common.add entry.undotted.path := by
  rw [CommonRoot.add, CommonRoot.add, (components_enclosedName entry).1,
    (components_enclosedName entry).2]

theorem findCommonRootFolder_eq {entries : List ArchiveEntry}
    (named : ∀ entry ∈ entries, entry.names ≠ []) (common : CommonRoot) :
    findCommonRootFolder (zipEntries entries) common =
      (commonRoot (entries.map ArchiveEntry.undotted) common).bind CommonRoot.kept := by
  induction entries generalizing common with
  | nil => rfl
  | cons entry entries induction =>
      rw [zipEntries, List.map_cons, findCommonRootFolder, commonRoot, List.map_cons,
        List.foldlM_cons]
      dsimp only [ArchiveEntry.zip]
      have isFirst : (firstComponent entry.enclosedName).isNone = false := by
        rw [(components_enclosedName entry).1, firstComponent_undotted rfl]
        rcases List.exists_cons_of_ne_nil (named entry List.mem_cons_self) with ⟨name, rest, names⟩
        rw [ArchiveEntry.undotted, names]
        rfl
      rw [isFirst, if_neg Bool.false_ne_true, add_enclosedName]
      cases common.add entry.undotted.path with
      | none => rfl
      | some common =>
          exact induction (fun other member => named other (List.mem_cons_of_mem _ member)) common

/-- A directory without a name means that there is no root. -/
theorem findCommonRootFolder_unnamed {entries : List ArchiveEntry} {entry : ArchiveEntry}
    (member : entry ∈ entries) (unnamed : entry.names = []) (common : CommonRoot) :
    findCommonRootFolder (zipEntries entries) common = none := by
  induction entries generalizing common with
  | nil => cases member
  | cons first entries induction =>
      rw [zipEntries, List.map_cons, findCommonRootFolder]
      dsimp only [ArchiveEntry.zip]
      split
      · rfl
      next isFirst =>
        rcases List.mem_cons.mp member with rfl | later
        · rw [ArchiveEntry.enclosedName, unnamed] at isFirst
          exact absurd rfl isFirst
        · cases common.add first.enclosedName with
          | none => rfl
          | some common => exact induction later common

theorem add_shared {path first : Path OsName} (isFirst : firstComponent path = some first) :
    CommonRoot.add ⟨some root, nested⟩ path =
      if root = first then some ⟨some root, nested || componentCount path > 1⟩ else none := by
  rw [CommonRoot.add, isFirst]

theorem commonRoot_shared
    (first : ∀ entry ∈ entries, ∃ first, firstComponent entry.path = some first)
    {kept : Path OsName} :
    (commonRoot entries ⟨some root, nested⟩).bind CommonRoot.kept = some kept ↔
      kept = root ∧ (∀ entry ∈ entries, firstComponent entry.path = some root) ∧
        (nested = true ∨ ∃ entry ∈ entries, 1 < componentCount entry.path) := by
  induction entries generalizing nested with
  | nil =>
      cases nested with
      | true => simp [commonRoot, CommonRoot.kept, eq_comm]
      | false => simp [commonRoot, CommonRoot.kept]
  | cons entry entries induction =>
      rcases first entry List.mem_cons_self with ⟨component, isFirst⟩
      rw [commonRoot, List.foldlM_cons, add_shared isFirst]
      by_cases same : root = component
      · rw [if_pos same]
        refine (induction fun other member => first other (List.mem_cons_of_mem _ member)).trans ?_
        subst same
        simp [isFirst, or_assoc]
      · rw [if_neg same]
        simp [isFirst, Ne.symm same]

theorem commonRoot_start (named : AreNamed entries) {kept : Path OsName} :
    (commonRoot entries .start).bind CommonRoot.kept = some kept ↔
      (∀ entry ∈ entries, firstComponent entry.path = some kept) ∧
        ∃ entry ∈ entries, 1 < componentCount entry.path := by
  cases entries with
  | nil => simp [commonRoot, CommonRoot.kept, CommonRoot.start]
  | cons entry entries =>
      rcases named.first List.mem_cons_self with ⟨component, isFirst⟩
      have added : CommonRoot.add .start entry.path =
          some ⟨some component, componentCount entry.path > 1⟩ := by
        rw [CommonRoot.add, isFirst]
        simp [CommonRoot.start]
      rw [commonRoot, List.foldlM_cons, added]
      refine (commonRoot_shared fun other member =>
        named.first (List.mem_cons_of_mem _ member)).trans ?_
      simp only [List.mem_cons, forall_eq_or_imp, exists_eq_or_imp, isFirst, Option.some.injEq,
        decide_eq_true_eq, gt_iff_lt]
      constructor
      · rintro ⟨rfl, shared, more⟩
        exact ⟨⟨rfl, shared⟩, more⟩
      · rintro ⟨⟨rfl, shared⟩, more⟩
        exact ⟨rfl, shared, more⟩

/-- The root that is found says whether the entries are stripped. -/
theorem isStripped_iff (named : AreNamed entries) :
    IsStripped entries ↔ ∃ folder,
      (commonRoot entries .start).bind CommonRoot.kept = some ⟨false, [.named folder], false⟩ := by
  constructor
  · rintro ⟨⟨folder, inFolder, entry, member, more⟩, undotted⟩
    refine ⟨folder, (commonRoot_start named).mpr ⟨fun other member => ?_, entry, member, ?_⟩⟩
    · rw [firstComponent_undotted (undotted other member), inFolder other member]
      rfl
    · rw [componentCount_entry]
      omega
  · rintro ⟨folder, found⟩
    rcases (commonRoot_start named).mp found with ⟨shared, entry, member, more⟩
    have undotted : ∀ other ∈ entries, other.dotted = false := by
      intro other member
      cases dotted : other.dotted with
      | false => rfl
      | true =>
          have same := (firstComponent_dotted dotted).symm.trans (shared other member)
          cases same
    refine ⟨⟨folder, fun other member => ?_, entry, member, ?_⟩, undotted⟩
    · have first := shared other member
      rw [firstComponent_undotted (undotted other member)] at first
      cases names : other.names with
      | nil =>
          rw [names] at first
          cases first
      | cons name rest =>
          rw [names] at first
          cases first
          rfl
    · rw [componentCount_entry, undotted entry member] at more
      simpa [ArchiveEntry.dots] using more

/-- The root that the loop over a tar.gz finds. -/
def rootOf (entries : List ArchiveEntry) : Option (Path OsName) :=
  (commonRoot entries .start).bind CommonRoot.kept

end Roots

/-! ## Places -/

variable {before after : List ArchiveEntry}

section Places

variable {entries : List ArchiveEntry} {entry : ArchiveEntry} {stripped : Bool}

theorem isRefused_entry (entry : ArchiveEntry) :
    isRefused entry.path = false ∧ isRefused entry.enclosedName = false := by
  have noParent : Component.parent ∉ entry.names.map Component.named := by
    intro member
    rcases List.mem_map.mp member with ⟨name, _, isParent⟩
    cases isParent
  rw [isRefused, isRefused, ArchiveEntry.path, ArchiveEntry.enclosedName, Bool.false_or,
    Bool.false_or, List.contains_eq_mem, List.contains_eq_mem, decide_eq_false_iff_not,
    decide_eq_false_iff_not]
  refine ⟨fun member => ?_, noParent⟩
  rcases List.mem_append.mp member with member | member
  · rw [ArchiveEntry.dots] at member
    split at member
    · rw [List.mem_singleton] at member
      cases member
    · cases member
  · exact noParent member

/-- Where no folder is stripped, the entry keeps its names. -/
theorem place_kept (isStripped : stripped = true ↔ IsStripped entries)
    (named : AreNamed entries) (unnamed : ∀ folder,
      rootOf entries ≠ some ⟨false, [.named folder], false⟩) :
    entry.place stripped = entry.names := by
  cases stripped with
  | false => rfl
  | true =>
      rcases (isStripped_iff named).mp (isStripped.mp rfl) with ⟨folder, found⟩
      exact absurd found (unnamed folder)

/-- With this root, the entry goes where its place is, behind a `./` or not. -/
def GoesTo (stripped : Bool) (entry : ArchiveEntry) (root : Option (Path OsName))
    (path : Path OsName) : Prop :=
  relativePath root path = none ∧ entry.place stripped = [] ∧ entry.content = none ∨
    ∃ dotted trailing, relativePath root path =
        some ⟨false, ArchiveEntry.dots dotted ++ (entry.place stripped).map .named, trailing⟩ ∧
      (entry.content ≠ none → trailing = false ∧ entry.place stripped ≠ [])

theorem goesTo_tar (named : AreNamed entries) (isTree : IsTree entries)
    (isStripped : stripped = true ↔ IsStripped entries) (member : entry ∈ entries) :
    GoesTo stripped entry (rootOf entries) entry.path := by
  rw [GoesTo]
  cases found : rootOf entries with
  | none =>
      rw [place_kept isStripped named (by simp [found])]
      refine .inr ⟨entry.dotted, entry.content.isNone, rfl, fun isFile => ⟨?_, fun empty => ?_⟩⟩
      · cases content : entry.content with
        | none => exact absurd content isFile
        | some content => rfl
      · exact isFile (named entry member empty).2
  | some root =>
      have shared := ((commonRoot_start named).mp found).1 entry member
      rw [relativePath, stripPrefix_entry shared]
      dsimp only
      cases dotted : entry.dotted with
      | true =>
          rw [firstComponent_dotted dotted] at shared
          cases shared
          rw [place_kept isStripped named (by simp [found])]
          cases names : entry.names with
          | nil => exact .inl ⟨rfl, rfl, (named entry member names).2⟩
          | cons name rest =>
              exact .inr ⟨false, false, rfl, fun _ => ⟨rfl, List.cons_ne_nil _ _⟩⟩
      | false =>
          rw [firstComponent_undotted dotted] at shared
          cases names : entry.names with
          | nil =>
              rw [names] at shared
              cases shared
          | cons folder rest =>
              rw [names] at shared
              cases shared
              have strips := (isStripped_iff named).mpr ⟨folder, found⟩
              have place : entry.place stripped = rest := by
                rw [isStripped.mpr strips, ArchiveEntry.place, if_pos rfl, names, List.tail_cons]
              rw [place]
              cases rest with
              | nil =>
                  refine .inl ⟨rfl, rfl, ?_⟩
                  by_contra isFile
                  -- A file that is the folder itself has nothing below it.
                  rcases strips.1 with ⟨folder', inFolder, other, isOther, more⟩
                  have head := inFolder entry member
                  rw [names] at head
                  cases head
                  cases names' : other.names with
                  | nil =>
                      rw [names'] at more
                      cases more
                  | cons name rest =>
                      have head := inFolder other isOther
                      rw [names'] at head
                      cases head
                      have same := isTree.above entry member isFile other isOther
                        (by rw [names, names']; exact ⟨rest, rfl⟩)
                      rw [same, names] at more
                      simp at more
              | cons name rest =>
                  exact .inr ⟨false, false, rfl, fun _ => ⟨rfl, List.cons_ne_nil _ _⟩⟩

theorem areNamed_undotted (named : ∀ entry ∈ entries, entry.names ≠ []) :
    AreNamed (entries.map ArchiveEntry.undotted) := by
  intro entry member unnamed
  rcases List.mem_map.mp member with ⟨original, isOriginal, rfl⟩
  exact absurd unnamed (named original isOriginal)

theorem IsTree.undotted (isTree : IsTree entries) :
    IsTree (entries.map ArchiveEntry.undotted) := by
  constructor
  · rw [List.map_map]
    exact isTree.distinct
  · intro entry member isFile other isOther inFront
    rcases List.mem_map.mp member with ⟨original, isOriginal, rfl⟩
    rcases List.mem_map.mp isOther with ⟨original', isOriginal', rfl⟩
    exact isTree.above original isOriginal isFile original' isOriginal' inFront

theorem isStripped_undotted :
    IsStripped (entries.map ArchiveEntry.undotted) ↔ ∃ folder, InOneFolder entries folder := by
  constructor
  · rintro ⟨⟨folder, inFolder, other, isOther, more⟩, _⟩
    rcases List.mem_map.mp isOther with ⟨original, isOriginal, rfl⟩
    refine ⟨folder, fun entry member => ?_, original, isOriginal, more⟩
    exact inFolder entry.undotted (List.mem_map_of_mem member)
  · rintro ⟨folder, inFolder, other, isOther, more⟩
    refine ⟨⟨folder, ?_, other.undotted, List.mem_map_of_mem isOther, more⟩, ?_⟩
    · intro entry member
      rcases List.mem_map.mp member with ⟨original, isOriginal, rfl⟩
      exact inFolder original isOriginal
    · intro entry member
      rcases List.mem_map.mp member with ⟨original, _, rfl⟩
      rfl

/-- A `/` at the end of a path changes nothing about where it goes. -/
theorem relativePath_enclosedName (root : Option (Path OsName)) (entry : ArchiveEntry) :
    relativePath root entry.enclosedName =
      (relativePath root entry.undotted.path).map fun path => { path with trailing := false } := by
  cases root with
  | none => rfl
  | some root =>
      have same : stripPrefix entry.enclosedName root = stripPrefix entry.undotted.path root := rfl
      rw [relativePath, relativePath, same]
      have untrailed (rest : Path OsName)
          (stripped : stripPrefix entry.undotted.path root = some rest) :
          rest.trailing = false := by
        rw [stripPrefix] at stripped
        split at stripped
        · cases stripped
          rfl
        · cases stripped
      cases stripped : stripPrefix entry.undotted.path root with
      | none => rfl
      | some rest =>
          have isUntrailed := untrailed rest stripped
          rcases rest with ⟨absolute, components, trailing⟩
          cases isUntrailed
          dsimp only
          split <;> rfl

theorem goesTo_zip (named : AreNamed entries) (isTree : IsTree entries)
    (isStripped : stripped = true ↔ ∃ folder, InOneFolder entries folder)
    (member : entry ∈ entries) :
    GoesTo stripped entry (findCommonRootFolder (zipEntries entries) .start)
      entry.enclosedName := by
  by_cases allNamed : ∀ entry ∈ entries, entry.names ≠ []
  · have goes := goesTo_tar (areNamed_undotted allNamed) isTree.undotted
      (isStripped.trans isStripped_undotted.symm) (List.mem_map_of_mem member)
    rw [GoesTo, relativePath_enclosedName, findCommonRootFolder_eq allNamed]
    rcases goes with ⟨nowhere, atRoot, isDir⟩ | ⟨dotted, trailing, goes, ofFile⟩
    · rw [rootOf] at nowhere
      rw [nowhere]
      exact .inl ⟨rfl, atRoot, isDir⟩
    · rw [rootOf] at goes
      rw [goes]
      exact .inr ⟨dotted, false, rfl, fun isFile => ⟨rfl, (ofFile isFile).2⟩⟩
  · simp only [not_forall, not_not] at allNamed
    rcases allNamed with ⟨other, isOther, unnamed⟩
    have notStripped : stripped = false := by
      rw [← Bool.not_eq_true, isStripped]
      rintro ⟨folder, inFolder, _⟩
      have first := inFolder other isOther
      rw [unnamed] at first
      cases first
    rw [findCommonRootFolder_unnamed isOther unnamed, notStripped]
    exact .inr ⟨false, false, rfl, fun isFile => ⟨rfl, fun empty => isFile (named entry member
      empty).2⟩⟩

/-- In one folder, an entry's names are the folder and its place. -/
theorem names_of_place (inFolder : stripped = true → ∃ folder, InOneFolder entries folder) :
    ∃ front, ∀ entry ∈ entries, entry.names = front ++ entry.place stripped := by
  cases stripped with
  | false => exact ⟨[], fun _ _ => rfl⟩
  | true =>
      rcases inFolder rfl with ⟨folder, inFolder, _⟩
      refine ⟨[folder], fun entry member => ?_⟩
      have head := inFolder entry member
      rw [ArchiveEntry.place, if_pos rfl]
      cases names : entry.names with
      | nil =>
          rw [names] at head
          cases head
      | cons name rest =>
          rw [names] at head
          cases head
          rfl

theorem places_nodup (isTree : IsTree entries)
    (inFolder : stripped = true → ∃ folder, InOneFolder entries folder) :
    (entries.map (ArchiveEntry.place stripped)).Nodup := by
  rcases names_of_place inFolder with ⟨front, names⟩
  have lifted : entries.map (·.names) =
      (entries.map (ArchiveEntry.place stripped)).map (front ++ ·) := by
    rw [List.map_map]
    exact List.map_congr_left names
  have distinct := isTree.distinct
  rw [lifted] at distinct
  exact distinct.of_map

/-- Nothing is put on a file, or below one. -/
theorem fits_entry (isTree : IsTree (before ++ entry :: after))
    (inFolder : stripped = true → ∃ folder, InOneFolder (before ++ entry :: after) folder) :
    Fits (entry.placed stripped) (before.map (ArchiveEntry.placed stripped)) := by
  rcases names_of_place inFolder with ⟨front, names⟩
  have isHere : entry ∈ before ++ entry :: after :=
    List.mem_append_right _ List.mem_cons_self
  have other_names {other : ArchiveEntry} (isOther : other ∈ before) :
      other.names ≠ entry.names := by
    have distinct := isTree.distinct
    rw [List.map_append, List.map_cons] at distinct
    have disjoint := (List.nodup_append.mp distinct).2.2
    exact disjoint _ (List.mem_map_of_mem isOther) _ List.mem_cons_self
  have lifts {first second : ArchiveEntry} (isFirst : first ∈ before ++ entry :: after)
      (isSecond : second ∈ before ++ entry :: after)
      (inFront : first.place stripped <+: second.place stripped) :
      first.names <+: second.names := by
    rw [names first isFirst, names second isSecond]
    exact (List.prefix_append_right_inj front).mpr inFront
  intro put member
  rcases List.mem_map.mp member with ⟨other, isOther, rfl⟩
  have isOther' : other ∈ before ++ entry :: after := List.mem_append_left _ isOther
  constructor
  · intro isFile inFront
    exact other_names isOther
      (isTree.above other isOther' isFile entry isHere (lifts isOther' isHere inFront)).symm
  · intro isFile inFront
    exact other_names isOther
      (isTree.above entry isHere isFile other isOther' (lifts isHere isOther' inFront))

end Places

/-! ## Extractions that nothing hinders -/

/-- Where nothing is, tar unpacks a regular entry as a new file. -/
def UnpacksFiles (readers : ArchiveReaders) (cwd : Location OsName) : Prop :=
  ∀ (tree : Tree OsName FileContent) (name : Option (Path OsName)) (content : FileContent)
    (path : Path OsName) (location : Location OsName),
    (∀ follow, resolve cwd tree follow path = .ok location) →
      tree.get location = none →
      Runs cwd tree (readers.unpack ⟨name, .regular content⟩ path) (.ok ())
        (tree.create location content)

variable {front : List ArchiveEntry}

section Extractions

variable {readers : ArchiveReaders} {cwd : Location OsName}
  {tree : Tree OsName FileContent} {destDir tarGz zip : Path OsName} {directory : Location OsName}
  {entries : List ArchiveEntry} {entry : ArchiveEntry} {stripped : Bool}

/-- The destination, with or without a `.` behind it. -/
def dottedDir (destDir : Path OsName) (dotted : Bool) : Path OsName :=
  ⟨destDir.absolute, destDir.components ++ ArchiveEntry.dots dotted, false⟩

theorem reaches_dottedDir (reaches : Reaches cwd tree destDir directory)
    (dotted : Bool) : Reaches cwd tree (dottedDir destDir dotted) directory := by
  cases dotted with
  | false => exact reaches.ofComponents rfl (List.append_nil _)
  | true =>
      rcases walk_append reaches.walked reaches.rooted.dir with ⟨left, _, later⟩
      refine ⟨reaches.start, (later 0 true [.current] (List.cons_ne_nil _ _)).trans ?_,
        reaches.rooted⟩
      rw [walk_current, walk_nil]

theorem join_place (destDir : Path OsName) (dotted trailing : Bool) {place : List OsName}
    (some_ : place ≠ []) :
    destDir.join ⟨false, ArchiveEntry.dots dotted ++ place.map .named, trailing⟩ =
      (dottedDir destDir dotted).below place trailing := by
  cases place with
  | nil => exact absurd rfl some_
  | cons name place => simp [Path.join, Path.below, dottedDir]

variable {placed : List (List OsName × Option FileContent)} {place : List OsName}

theorem runs_makePlace (reaches : Reaches cwd tree destDir directory)
    (laid : Laid directory placed tree) (fits : Fits (place, none) placed)
    (dotted trailing : Bool) :
    ∃ tree', Runs cwd tree (createDirAll (destDir.join
        ⟨false, ArchiveEntry.dots dotted ++ place.map .named, trailing⟩)) (.ok ()) tree' ∧
      tree.Extends tree' ∧ Laid directory (placed ++ [(place, none)]) tree' := by
  by_cases some_ : place = []
  · subst some_
    refine ⟨tree, runs_createDirAll ((reaches_dottedDir reaches dotted).ofComponents rfl ?_),
      fun _ _ found => found, laid.putDirectory (.refl ?_)⟩
    · simp [Path.join, dottedDir]
    · intro above isAbove
      rw [List.prefix_nil.mp isAbove, List.append_nil]
      exact reaches.rooted.dir
  · rw [join_place destDir dotted trailing some_]
    exact laid.runs_putDirectory (reaches_dottedDir reaches dotted) fits trailing some_

variable {root : Option (Path OsName)}

/-- An entry that goes nowhere is there already. -/
theorem laid_nowhere (reaches : Reaches cwd tree destDir directory)
    (laid : Laid directory (front.map (ArchiveEntry.placed stripped)) tree)
    (atRoot : entry.place stripped = []) (isDir : entry.content = none) :
    Laid directory (front.map (ArchiveEntry.placed stripped) ++ [entry.placed stripped]) tree := by
  rw [ArchiveEntry.placed, atRoot, isDir]
  refine laid.putDirectory (.refl fun above isAbove => ?_)
  rw [List.prefix_nil.mp isAbove, List.append_nil]
  exact reaches.rooted.dir

/-- The directory of a file is made, and then the file can be created. -/
theorem runs_makeParentOf {content : FileContent} (reaches : Reaches cwd tree destDir directory)
    (laid : Laid directory (front.map (ArchiveEntry.placed stripped)) tree)
    (isFile : entry.content = some content)
    (fits : Fits (entry.placed stripped) (front.map (ArchiveEntry.placed stripped)))
    (dotted : Bool) (some_ : entry.place stripped ≠ []) :
    ∃ parent tree' location,
      ((dottedDir destDir dotted).below (entry.place stripped) false).parent = some parent ∧
      Runs cwd tree (createDirAll parent) (.ok ()) tree' ∧ tree.Extends tree' ∧
      (∀ follow, resolve cwd tree' follow
        ((dottedDir destDir dotted).below (entry.place stripped) false) = .ok location) ∧
      tree'.get location = none ∧
      Laid directory (front.map (ArchiveEntry.placed stripped) ++ [entry.placed stripped])
        (tree'.create location content) := by
  rw [ArchiveEntry.placed, isFile] at fits ⊢
  rcases List.eq_nil_or_concat (entry.place stripped) with empty | ⟨before, name, place⟩
  · exact absurd empty some_
  rw [List.concat_eq_append] at place
  rw [place] at fits ⊢
  rcases laid.runs_makeParent (reaches_dottedDir reaches dotted) fits with
    ⟨parent, tree', isParent, ran, extends_, resolved, absent, laid'⟩
  exact ⟨parent, tree', _, isParent, ran, extends_, resolved, absent, laid'⟩

/-- A tar.gz puts an entry at its place. -/
theorem runs_tarEntry (unpacks : UnpacksFiles readers cwd)
    (goes : GoesTo stripped entry root entry.path)
    (reaches : Reaches cwd tree destDir directory)
    (laid : Laid directory (front.map (ArchiveEntry.placed stripped)) tree)
    (fits : Fits (entry.placed stripped) (front.map (ArchiveEntry.placed stripped))) :
    ∃ tree', Runs cwd tree (extractTarEntry readers destDir root entry.tar
        entry.path).run (.ok ()) tree' ∧ tree.Extends tree' ∧
      Laid directory ((front ++ [entry]).map (ArchiveEntry.placed stripped)) tree' := by
  rw [List.map_append, List.map_singleton, extractTarEntry, (isRefused_entry entry).1,
    if_neg Bool.false_ne_true]
  rcases goes with ⟨nowhere, atRoot, isDir⟩ | ⟨dotted, trailing, goes, ofFile⟩
  · rw [nowhere]
    exact ⟨tree, runs_pure _, fun _ _ found => found, laid_nowhere reaches laid atRoot isDir⟩
  · rw [goes]
    dsimp only
    cases content : entry.content with
    | none =>
        rw [ArchiveEntry.placed, content] at fits ⊢
        rcases runs_makePlace reaches laid fits dotted trailing with ⟨tree', ran, extends_, laid'⟩
        refine ⟨tree', ?_, extends_, laid'⟩
        simp only [ArchiveEntry.tar, ArchiveEntry.entryType, content]
        exact runs_withContext_ok ran
    | some content' =>
        rcases ofFile (by rw [content]; exact Option.some_ne_none _) with ⟨rfl, some_⟩
        rw [join_place destDir dotted false some_]
        rcases runs_makeParentOf reaches laid content fits dotted some_ with
          ⟨parent, made, location, isParent, ran, extends_, resolved, absent, laid'⟩
        refine ⟨_, ?_, fun location node found =>
          Tree.create_extends absent location node (extends_ location node found), laid'⟩
        simp only [ArchiveEntry.tar, ArchiveEntry.entryType, content, isParent]
        exact (runs_withContext_ok ran).bind_ok
          (runs_withContext_ok (unpacks _ _ _ _ _ resolved absent))

/-- So does a zip. -/
theorem runs_zipEntry (goes : GoesTo stripped entry root entry.enclosedName)
    (reaches : Reaches cwd tree destDir directory)
    (laid : Laid directory (front.map (ArchiveEntry.placed stripped)) tree)
    (fits : Fits (entry.placed stripped) (front.map (ArchiveEntry.placed stripped))) :
    ∃ tree', Runs cwd tree (extractZipEntry destDir root entry.zip
        entry.enclosedName).run (.ok ()) tree' ∧ tree.Extends tree' ∧
      Laid directory ((front ++ [entry]).map (ArchiveEntry.placed stripped)) tree' := by
  rw [List.map_append, List.map_singleton, extractZipEntry, (isRefused_entry entry).2,
    if_neg Bool.false_ne_true]
  rcases goes with ⟨nowhere, atRoot, isDir⟩ | ⟨dotted, trailing, goes, ofFile⟩
  · rw [nowhere]
    exact ⟨tree, runs_pure _, fun _ _ found => found, laid_nowhere reaches laid atRoot isDir⟩
  · rw [goes]
    dsimp only
    cases content : entry.content with
    | none =>
        rw [ArchiveEntry.placed, content] at fits ⊢
        rcases runs_makePlace reaches laid fits dotted trailing with ⟨tree', ran, extends_, laid'⟩
        refine ⟨tree', ?_, extends_, laid'⟩
        simp only [ArchiveEntry.zip, content, Option.isNone_none, if_true]
        exact runs_withContext_ok ran
    | some content' =>
        rcases ofFile (by rw [content]; exact Option.some_ne_none _) with ⟨rfl, some_⟩
        rw [join_place destDir dotted false some_]
        rcases runs_makeParentOf reaches laid content fits dotted some_ with
          ⟨parent, made, location, isParent, ran, extends_, resolved, absent, laid'⟩
        refine ⟨_, ?_, fun location node found =>
          Tree.create_extends absent location node (extends_ location node found), laid'⟩
        simp only [ArchiveEntry.zip, content, Option.isNone_some, Bool.false_eq_true, if_false,
          isParent]
        exact (runs_withContext_ok ran).bind_ok (runs_withContext_ok
          (runs_write (writeFile_eq_ok.mpr ⟨_, resolved true, .inl ⟨absent, by
            rw [content, Option.getD_some]⟩⟩)))

theorem runs_tarEntries (tarGz : Path OsName) (unpacks : UnpacksFiles readers cwd)
    (isTree : IsTree entries)
    (inFolder : stripped = true → ∃ folder, InOneFolder entries folder)
    (goes : ∀ entry ∈ entries, GoesTo stripped entry root entry.path)
    (reaches : Reaches cwd tree destDir directory) (split : entries = before ++ after)
    (laid : Laid directory (before.map (ArchiveEntry.placed stripped)) tree) :
    ∃ tree', Runs cwd tree (extractTarEntries readers destDir tarGz root
        (tarEntries after)).run (.ok ()) tree' ∧ tree.Extends tree' ∧
      Laid directory (entries.map (ArchiveEntry.placed stripped)) tree' := by
  induction after generalizing before tree with
  | nil =>
      rw [List.append_nil] at split
      subst split
      exact ⟨tree, runs_pure _, fun _ _ found => found, laid⟩
  | cons entry after induction =>
      subst split
      rcases runs_tarEntry unpacks (goes entry (List.mem_append_right _ List.mem_cons_self)) reaches
        laid (fits_entry isTree inFolder) with ⟨tree', ran, extends_, laid'⟩
      rcases induction (reaches.extends extends_) (by simp) laid' with
        ⟨tree'', later, extends', laid''⟩
      exact ⟨tree'', ran.bind_ok later,
        fun location node found => extends' location node (extends_ location node found), laid''⟩

theorem runs_zipEntries (zip : Path OsName) (isTree : IsTree entries)
    (inFolder : stripped = true → ∃ folder, InOneFolder entries folder)
    (goes : ∀ entry ∈ entries, GoesTo stripped entry root entry.enclosedName)
    (reaches : Reaches cwd tree destDir directory) (split : entries = before ++ after)
    (laid : Laid directory (before.map (ArchiveEntry.placed stripped)) tree) :
    ∃ tree', Runs cwd tree (extractZipEntries destDir zip root
        (zipEntries after)).run (.ok ()) tree' ∧ tree.Extends tree' ∧
      Laid directory (entries.map (ArchiveEntry.placed stripped)) tree' := by
  induction after generalizing before tree with
  | nil =>
      rw [List.append_nil] at split
      subst split
      exact ⟨tree, runs_pure _, fun _ _ found => found, laid⟩
  | cons entry after induction =>
      subst split
      rcases runs_zipEntry (goes entry (List.mem_append_right _ List.mem_cons_self)) reaches
        laid (fits_entry isTree inFolder) with ⟨tree', ran, extends_, laid'⟩
      rcases induction (reaches.extends extends_) (by simp) laid' with
        ⟨tree'', later, extends', laid''⟩
      exact ⟨tree'', ran.bind_ok later,
        fun location node found => extends' location node (extends_ location node found), laid''⟩

/-- The names at the top of what is extracted. -/
def topNames (stripped : Bool) (entries : List ArchiveEntry) : List OsName :=
  (entries.filterMap fun entry => (entry.place stripped).head?).dedup

/-- One name at the top is a `.tar.gz`, and one is neither a checksum nor hidden. -/
def IsLoneTarGz (names : List OsName) : Prop :=
  (names.filter isTarGz).length = 1 ∧ (names.filter fun name => !isMetaFile name).length = 1

theorem children_topNames
    (laid : Laid directory (entries.map (ArchiveEntry.placed stripped)) tree) :
    (tree.children directory).Perm (topNames stripped entries) := by
  have distinct : (tree.children directory).Nodup := List.nodup_dedup _
  have distinct' : (topNames stripped entries).Nodup := List.nodup_dedup _
  refine (List.perm_ext_iff_of_nodup distinct distinct').mpr fun name => ?_
  rw [laid.children, topNames, List.mem_dedup, List.mem_filterMap]
  constructor
  · rintro ⟨put, member, first⟩
    rcases List.mem_map.mp member with ⟨entry, isEntry, rfl⟩
    exact ⟨entry, isEntry, first⟩
  · rintro ⟨entry, isEntry, first⟩
    exact ⟨_, List.mem_map_of_mem isEntry, first⟩

/-- A zip that leaves no lone `.tar.gz` is done. -/
theorem runs_extractNested (reaches : Reaches cwd tree destDir directory)
    (notEmpty : destDir.isEmpty = false)
    (notLone : ¬ IsLoneTarGz (tree.children directory)) :
    Runs cwd tree (extractNestedTarGzIfPresent readers destDir).run (.ok ())
      tree := by
  refine (runs_withContext_ok (runs_readDir (readDir_eq_ok.mpr
    ⟨directory, reaches.resolves notEmpty, reaches.rooted.dir, rfl⟩))).bind_ok ?_
  split
  next one other => exact absurd ⟨by rw [one]; rfl, by rw [other]; rfl⟩ notLone
  next => exact runs_pure _

/-- A file that shows as an archive of entries. -/
def Holds (cwd : Location OsName) (tree : Tree OsName FileContent)
    (reader : FileContent → Option α) (archive : Path OsName) (listed : α) : Prop :=
  ∃ content, readFile cwd tree archive = .ok content ∧ reader content = some listed

theorem runs_readArchive {reader : FileContent → Option α} {listed : α}
    (holds : Holds cwd tree reader archive listed) :
    Runs cwd tree (readArchive reader archive).run (.ok listed) tree := by
  rcases holds with ⟨content, read, isListed⟩
  refine (runs_withContext_ok (runs_read read)).bind_ok ?_
  rw [isListed]
  exact runs_pure _

/-- A tar.gz is extracted with the folder stripped that its entries share, `./` included. -/
theorem runs_extractTar (unpacks : UnpacksFiles readers cwd)
    (named : AreNamed entries) (isTree : IsTree entries)
    (isStripped : stripped = true ↔ IsStripped entries) {made : Tree OsName FileContent}
    (isTar : Holds cwd tree readers.readTar tarGz (tarEntries entries))
    (created : Runs cwd tree (createDirAll destDir) (.ok ()) made)
    (reaches : Reaches cwd made destDir directory)
    (fresh : ∀ names, names ≠ [] → made.get (directory ++ names) = none) :
    ∃ tree', Runs cwd tree (extractTarGz readers tarGz destDir).run (.ok ()) tree' ∧
      Reaches cwd tree' destDir directory ∧
      Laid directory (entries.map (ArchiveEntry.placed stripped)) tree' := by
  have grows : tree.Grows made := (created.satisfies (createDirAll_adds destDir tree)).1
  have isTar' : Holds cwd made readers.readTar tarGz (tarEntries entries) := by
    rcases isTar with ⟨content, read, listed⟩
    exact ⟨content, readFile_grows grows read, listed⟩
  rcases runs_tarEntries tarGz unpacks isTree (fun strips => (isStripped.mp strips).1)
    (fun entry => goesTo_tar named isTree isStripped) reaches (List.nil_append _).symm
    (laid_nil fresh) with ⟨tree', ran, extends_, laid⟩
  refine ⟨tree', ?_, reaches.extends extends_, laid⟩
  refine (runs_withContext_ok created).bind_ok ((runs_readArchive isTar').bind_ok ?_)
  rw [findCommonRootFolderTar_eq]
  exact (runs_readArchive isTar').bind_ok ran

/-- A zip is extracted with the folder stripped that its entries lie in, up to what it does with a
nested archive. -/
theorem runs_extractZip (named : AreNamed entries) (isTree : IsTree entries)
    (isStripped : stripped = true ↔ ∃ folder, InOneFolder entries folder)
    {made : Tree OsName FileContent}
    (isZip : Holds cwd tree readers.readZip zip (zipEntries entries))
    (created : Runs cwd tree (createDirAll destDir) (.ok ()) made)
    (reaches : Reaches cwd made destDir directory)
    (fresh : ∀ names, names ≠ [] → made.get (directory ++ names) = none) :
    ∃ tree', Reaches cwd tree' destDir directory ∧
      Laid directory (entries.map (ArchiveEntry.placed stripped)) tree' ∧
      ∀ result tree'', Runs cwd tree'
          (extractNestedTarGzIfPresent readers destDir).run result tree'' →
        Runs cwd tree (extractZip readers zip destDir).run result tree'' := by
  rcases runs_zipEntries zip isTree isStripped.mp
    (fun entry => goesTo_zip named isTree isStripped) reaches (List.nil_append _).symm
    (laid_nil fresh) with ⟨tree', ran, extends_, laid⟩
  refine ⟨tree', reaches.extends extends_, laid, fun result tree'' nested => ?_⟩
  exact (runs_readArchive isZip).bind_ok ((runs_withContext_ok created).bind_ok
    (ran.bind_ok nested))

/-! ## Nested archives -/

theorem removeFile_shrinks (path : Path OsName) (tree : Tree OsName FileContent) :
    (perform cwd (.removeFile path) tree).2.Extends tree := by
  change (changed tree (removeFile cwd tree path)).2.Extends tree
  cases removed : removeFile cwd tree path with
  | error error => exact fun _ _ found => found
  | ok tree' =>
      rcases removeFile_eq_ok.mp removed with ⟨_, _, _, _, rfl⟩
      exact Tree.erase_extends

theorem readFile_of_readArchive {reader : FileContent → Option α} {archive : Path OsName}
    {listed : α} (runs : Runs cwd tree (readArchive reader archive).run (.ok listed)
      tree') : ∃ content, readFile cwd tree archive = .ok content := by
  rcases runs.parts_ok with ⟨content, _, asked, _⟩
  cases read : readFile cwd tree archive with
  | ok content => exact ⟨content, rfl⟩
  | error cause =>
      have fails : Runs cwd tree (ask (.read archive)) (.error cause) tree := by
        rw [Runs, ← read]
        rfl
      cases (asked.unique (runs_withContext_error fails)).1

/-- A directory is not extracted. -/
theorem not_extracted (reaches : Reaches cwd tree destDir directory) {name : OsName}
    (isDir : tree.get (directory ++ [name]) = some .dir) :
    ¬ Runs cwd tree (extractTarGz readers (destDir.joinName name) destDir).run (.ok ())
      tree' := by
  intro runs
  rcases runs.parts_ok with ⟨_, made, created, later⟩
  cases (created.unique (runs_withContext_ok (runs_createDirAll reaches))).2
  rcases later.parts_ok with ⟨_, _, reads, _⟩
  rcases readFile_of_readArchive reads with ⟨content, read⟩
  rcases readFile_eq_ok.mp read with ⟨location, inode, resolved, isFile, _⟩
  cases resolved.symm.trans ((reaches.joinName isDir).resolves (walk_of_resolve resolved).1)
  cases isDir.symm.trans isFile

/-- A lone tar.gz is taken apart: it is no file any more where the extraction succeeds. -/
theorem nested_takesApart (reaches : Reaches cwd tree destDir directory)
    (notEmpty : destDir.isEmpty = false) (lone : IsLoneTarGz (tree.children directory))
    (runs : Runs cwd tree (extractNestedTarGzIfPresent readers destDir).run (.ok ())
      tree') (reaches' : Reaches cwd tree' destDir directory) :
    ∃ name, tree.get (directory ++ [name]) ≠ none ∧ tree.get (directory ++ [name]) ≠ some .dir ∧
      ∀ inode, tree'.get (directory ++ [name]) ≠ some (.file inode) := by
  rcases List.length_eq_one_iff.mp lone.1 with ⟨tarGz, archives⟩
  rcases List.length_eq_one_iff.mp lone.2 with ⟨other, others⟩
  have isThere : tarGz ∈ (tree.children directory).filter isTarGz := by
    rw [archives]
    exact List.mem_cons_self
  have present := Tree.mem_children.mp (List.mem_filter.mp isThere).1
  rcases runs.parts_ok with ⟨entries, listedIn, listed, later⟩
  have reads : Runs cwd tree
      (withContext "Failed to read directory: " destDir (ask (.readDir destDir))).run
      (.ok (tree.children directory)) tree := runs_withContext_ok (runs_readDir (readDir_eq_ok.mpr
        ⟨directory, reaches.resolves notEmpty, reaches.rooted.dir, rfl⟩))
  rcases listed.unique reads with ⟨same, rfl⟩
  cases same
  rw [archives, others] at later
  rcases later.parts_ok with ⟨_, extracted, nested, later⟩
  refine ⟨tarGz, present, fun isDir => not_extracted reaches isDir nested, fun inode isFile => ?_⟩
  rcases later.parts_lift with ⟨_, removed, removes, later⟩
  cases removes
  rcases later.parts_lift with ⟨found, looked, looks, later⟩
  cases looks
  -- Whatever is removed behind the archive, the archive was removed before.
  have shrinks : tree'.Extends
      (perform cwd (.removeFile (destDir.joinName tarGz)) extracted).2 := by
    split at later
    · cases later
      exact removeFile_shrinks _ _
    · cases later
      exact fun _ _ found => found
  have wasFile := removeFile_shrinks _ _ _ _ (shrinks _ _ isFile)
  have wasReached := reaches'.extends fun location node found =>
    removeFile_shrinks _ _ _ _ (shrinks location node found)
  have erases : removeFile cwd extracted (destDir.joinName tarGz) =
      .ok (extracted.erase fun other => other = directory ++ [tarGz]) :=
    removeFile_eq_ok.mpr ⟨_, wasReached.resolve_joinName tarGz,
      by rw [wasFile]; exact Option.some_ne_none _, by rw [wasFile]; simp, rfl⟩
  have gone := shrinks _ _ isFile
  rw [perform, erases, changed, Tree.get_erase _ _ _ (by simp)] at gone
  simp at gone

end Extractions

/-! ## Both formats -/

/-- What there is at a location: a directory or a file with its content. -/
def shownAt (tree : Tree OsName FileContent) (location : Location OsName) :
    Option (Option FileContent) :=
  match tree.get location with
  | some .dir => some none
  | some (.file inode) => some (some (tree.contents inode))
  | _ => none

/-- What has been put into a directory says what there is in it. -/
theorem shownAt_laid {directory : Location OsName}
    {placed : List (List OsName × Option FileContent)} {tree tree' : Tree OsName FileContent}
    (laid : Laid directory placed tree) (laid' : Laid directory placed tree')
    {names : List OsName} (some_ : names ≠ []) :
    shownAt tree (directory ++ names) = shownAt tree' (directory ++ names) := by
  by_cases covered : ∃ entry ∈ placed, names <+: entry.1
  · rcases covered with ⟨⟨path, content⟩, member, inFront⟩
    by_cases above : names ≠ path ∨ content = none
    · rw [shownAt, shownAt, laid.dirs _ member names inFront above,
        laid'.dirs _ member names inFront above]
    · rw [not_or, not_not] at above
      rcases above with ⟨rfl, isFile⟩
      rcases Option.ne_none_iff_exists'.mp isFile with ⟨content', rfl⟩
      rcases laid.files _ _ member with ⟨inode, found, shown⟩
      rcases laid'.files _ _ member with ⟨inode', found', shown'⟩
      rw [shownAt, shownAt, found, found', ← shown] at *
      dsimp only
      rw [shown']
  · have absent {tree : Tree OsName FileContent} (laid : Laid directory placed tree) :
        tree.get (directory ++ names) = none := by
      by_contra present
      rcases laid.only names present with empty | inside
      · exact some_ empty
      · exact covered inside
    rw [shownAt, shownAt, absent laid, absent laid']

/-- The extraction succeeds, and every entry is at its place in the destination, with nothing else
there. -/
structure Extracts (cwd : Location OsName) (tree : Tree OsName FileContent)
    (program : Installer Unit) (destDir : Path OsName) (directory : Location OsName)
    (placed : List (List OsName × Option FileContent)) (tree' : Tree OsName FileContent) :
    Prop where
  runs : Runs cwd tree program.run (.ok ()) tree'
  reaches : Reaches cwd tree' destDir directory
  laid : Laid directory placed tree'

/-- Every entry is put at its path, without the common top folder just where all entries lie in one,
no two of them at one place, and both formats leave the same. -/
def IsLossless (readers : ArchiveReaders) (cwd : Location OsName)
    (tree : Tree OsName FileContent) (tarGz zip destDir : Path OsName)
    (entries : List ArchiveEntry) : Prop :=
  ∃ (stripped : Bool) (directory : Location OsName) (tarTree zipTree : Tree OsName FileContent),
    (stripped = true ↔ ∃ folder, InOneFolder entries folder) ∧
      (entries.map (ArchiveEntry.place stripped)).Nodup ∧
      Extracts cwd tree (extractTarGz readers tarGz destDir) destDir directory
        (entries.map (ArchiveEntry.placed stripped)) tarTree ∧
      Extracts cwd tree (extractZip readers zip destDir) destDir directory
        (entries.map (ArchiveEntry.placed stripped)) zipTree ∧
      ∀ names, shownAt tarTree (directory ++ names) = shownAt zipTree (directory ++ names)

/-- Some tar.gz is alone at the top, with or without the folder that all entries lie in. -/
def LeavesLoneTarGz (entries : List ArchiveEntry) : Prop :=
  ∃ stripped : Bool, (stripped = true ↔ ∃ folder, InOneFolder entries folder) ∧
    IsLoneTarGz (topNames stripped entries)

section Lossless

variable {entries : List ArchiveEntry} {stripped : Bool}

theorem exists_stripped (condition : Prop) : ∃ stripped : Bool, stripped = true ↔ condition := by
  by_cases holds : condition
  · exact ⟨true, iff_of_true rfl holds⟩
  · exact ⟨false, iff_of_false Bool.false_ne_true holds⟩

/-- What is extracted at its places is a tree of files. -/
theorem isTree_of_laid {directory : Location OsName} {tree : Tree OsName FileContent}
    (inFolder : stripped = true → ∃ folder, InOneFolder entries folder)
    (distinct : (entries.map (ArchiveEntry.place stripped)).Nodup)
    (laid : Laid directory (entries.map (ArchiveEntry.placed stripped)) tree) : IsTree entries := by
  constructor
  · have places : entries.map (ArchiveEntry.place stripped) =
        (entries.map (·.names)).map fun names => if stripped then names.tail else names := by
      rw [List.map_map]
      rfl
    rw [places] at distinct
    exact distinct.of_map
  · intro entry member isFile other isOther inFront
    rcases names_of_place inFolder with ⟨front, names⟩
    rw [names entry member, names other isOther] at inFront ⊢
    have inPlace := (List.prefix_append_right_inj front).mp inFront
    rcases Option.ne_none_iff_exists'.mp isFile with ⟨content, isContent⟩
    have isPut : (entry.place stripped, some content) ∈
        entries.map (ArchiveEntry.placed stripped) :=
      List.mem_map.mpr ⟨entry, member, by rw [ArchiveEntry.placed, isContent]⟩
    rcases laid.files _ _ isPut with ⟨inode, found, _⟩
    by_contra differs
    have isDir := laid.dirs _ (List.mem_map_of_mem isOther) (entry.place stripped) inPlace
      (.inl fun same => differs (congrArg (front ++ ·) same.symm))
    cases found.symm.trans isDir

/-- Entries in a folder are not at their places with it and without it. -/
theorem not_laid_twice {folder : OsName} (inFolder : InOneFolder entries folder)
    {directory : Location OsName} {tree : Tree OsName FileContent}
    (kept : Laid directory (entries.map (ArchiveEntry.placed false)) tree) :
    ¬ Laid directory (entries.map (ArchiveEntry.placed true)) tree := by
  intro laid
  -- Behind every entry there is one with more names.
  have longer (length : Nat) : ∃ entry ∈ entries, length < entry.names.length := by
    induction length with
    | zero =>
        rcases inFolder.2 with ⟨entry, member, more⟩
        exact ⟨entry, member, by omega⟩
    | succ length induction =>
        rcases induction with ⟨entry, member, more⟩
        have present : tree.get (directory ++ entry.names) ≠ none := by
          have isPut : (entry.names, entry.content) ∈ entries.map (ArchiveEntry.placed false) :=
            List.mem_map_of_mem member
          cases content : entry.content with
          | none =>
              rw [kept.dirs _ isPut entry.names (List.prefix_refl _) (.inr content)]
              exact Option.some_ne_none _
          | some content' =>
              rw [content] at isPut
              rcases kept.files _ _ isPut with ⟨inode, found, _⟩
              rw [found]
              exact Option.some_ne_none _
        rcases laid.only entry.names present with empty | ⟨put, isPut, inFront⟩
        · rw [empty] at more
          exact absurd more (Nat.not_lt_zero _)
        · rcases List.mem_map.mp isPut with ⟨other, isOther, rfl⟩
          have shorter : entry.names.length ≤ other.names.tail.length := inFront.length_le
          rw [List.length_tail] at shorter
          exact ⟨other, isOther, by omega⟩
  have bounded : ∃ bound, ∀ entry ∈ entries, entry.names.length ≤ bound := by
    clear longer laid kept inFolder
    induction entries with
    | nil => exact ⟨0, fun _ member => by cases member⟩
    | cons entry entries induction =>
        rcases induction with ⟨bound, within⟩
        refine ⟨max entry.names.length bound, fun other member => ?_⟩
        rcases List.mem_cons.mp member with rfl | later
        · exact Nat.le_max_left _ _
        · exact (within other later).trans (Nat.le_max_right _ _)
  rcases bounded with ⟨bound, within⟩
  rcases longer bound with ⟨entry, member, more⟩
  exact absurd (within entry member) (by omega)

end Lossless

/-- Extraction is lossless just where the entries make a tree of files, no entry begins with `./`
when all lie in one folder, and no tar.gz is left alone at the top. -/
theorem rootStripping_lossless_iff (readers : ArchiveReaders) (cwd : Location OsName)
    (unpacks : UnpacksFiles readers cwd) (entries : List ArchiveEntry)
    (named : AreNamed entries) (tree made : Tree OsName FileContent)
    (tarGz zip destDir : Path OsName) (directory : Location OsName)
    (isTar : Holds cwd tree readers.readTar tarGz (tarEntries entries))
    (isZip : Holds cwd tree readers.readZip zip (zipEntries entries))
    (notEmpty : destDir.isEmpty = false)
    (created : Runs cwd tree (createDirAll destDir) (.ok ()) made)
    (reaches : Reaches cwd made destDir directory)
    (fresh : ∀ names, names ≠ [] → made.get (directory ++ names) = none) :
    IsLossless readers cwd tree tarGz zip destDir entries ↔
      IsTree entries ∧
        ((∃ folder, InOneFolder entries folder) → ∀ entry ∈ entries, entry.dotted = false) ∧
        ¬ LeavesLoneTarGz entries := by
  constructor
  · rintro ⟨stripped, directory', tarTree, zipTree, isStripped, distinct, isTarred, isZipped, _⟩
    have isTree := isTree_of_laid isStripped.mp distinct isTarred.laid
    rcases exists_stripped (IsStripped entries) with ⟨tarStripped, isTarStripped⟩
    rcases runs_extractTar unpacks named isTree isTarStripped isTar created reaches fresh with
      ⟨tarTree', tarRuns, tarReaches, tarLaid⟩
    cases (tarRuns.unique isTarred.runs).2
    cases tarReaches.unique isTarred.reaches
    refine ⟨isTree, fun inFolder => ?_, ?_⟩
    · rcases inFolder with ⟨folder, inFolder⟩
      cases tarStripped with
      | true => exact (isTarStripped.mp rfl).2
      | false =>
          have laid := isTarred.laid
          rw [isStripped.mpr ⟨folder, inFolder⟩] at laid
          exact absurd laid (not_laid_twice inFolder tarLaid)
    · rintro ⟨stripped', isStripped', lone⟩
      have same : stripped' = stripped := Bool.eq_iff_iff.mpr (isStripped'.trans isStripped.symm)
      subst same
      rcases runs_extractZip named isTree isStripped isZip created reaches fresh with
        ⟨middle, middleReaches, middleLaid, later⟩
      have nested := later _ _ rfl
      rcases nested.unique isZipped.runs with ⟨isOk, same⟩
      have top := children_topNames middleLaid
      have isLone : IsLoneTarGz (middle.children directory) := by
        rw [IsLoneTarGz, (top.filter isTarGz).length_eq,
          (top.filter fun name => !isMetaFile name).length_eq]
        exact lone
      rcases nested_takesApart middleReaches notEmpty isLone (Prod.ext isOk same)
        isZipped.reaches with ⟨name, present, notDir, gone⟩
      rcases middleLaid.only [name] present with empty | ⟨⟨path, content⟩, isPut, inFront⟩
      · cases empty
      · by_cases above : [name] ≠ path ∨ content = none
        · exact notDir (middleLaid.dirs _ isPut [name] inFront above)
        · rw [not_or, not_not] at above
          rcases above with ⟨rfl, isFile⟩
          rcases Option.ne_none_iff_exists'.mp isFile with ⟨content', rfl⟩
          rcases isZipped.laid.files _ _ isPut with ⟨inode, found, _⟩
          exact gone inode found
  · rintro ⟨isTree, undotted, notLone⟩
    rcases exists_stripped (∃ folder, InOneFolder entries folder) with ⟨stripped, isStripped⟩
    have isTarStripped : stripped = true ↔ IsStripped entries :=
      isStripped.trans ⟨fun inFolder => ⟨inFolder, undotted inFolder⟩, fun strips => strips.1⟩
    rcases runs_extractTar unpacks named isTree isTarStripped isTar created reaches fresh with
      ⟨tarTree, tarRuns, tarReaches, tarLaid⟩
    rcases runs_extractZip named isTree isStripped isZip created reaches fresh with
      ⟨zipTree, zipReaches, zipLaid, later⟩
    have top := children_topNames zipLaid
    have zipRuns := later _ _ (runs_extractNested zipReaches notEmpty fun lone => notLone
      ⟨stripped, isStripped, by
        rw [IsLoneTarGz, ← (top.filter isTarGz).length_eq,
          ← (top.filter fun name => !isMetaFile name).length_eq]
        exact lone⟩)
    refine ⟨stripped, directory, tarTree, zipTree, isStripped, places_nodup isTree isStripped.mp,
      ⟨tarRuns, tarReaches, tarLaid⟩, ⟨zipRuns, zipReaches, zipLaid⟩, fun names => ?_⟩
    by_cases empty : names = []
    · rw [empty, List.append_nil, shownAt, shownAt, tarReaches.rooted.dir, zipReaches.rooted.dir]
    · exact shownAt_laid tarLaid zipLaid empty

/-! ## Two archives -/

/-- Readers that know one tar.gz and one zip, and unpack regular entries only. -/
def demoReaders (tarred zipped : List ArchiveEntry) : ArchiveReaders where
  readTar content := if content = .bytes [1] then some (tarEntries tarred) else none
  readZip content := if content = .bytes [2] then some (zipEntries zipped) else none
  unpack entry path :=
    match entry.entryType with
    | .regular content => ask (.write path content)
    | _ => pure (.ok ())

theorem demoReaders_unpack (tarred zipped : List ArchiveEntry)
    (cwd : Location OsName) :
    UnpacksFiles (demoReaders tarred zipped) cwd := by
  intro tree name content path location resolved absent
  exact runs_write (writeFile_eq_ok.mpr ⟨location, resolved true, .inl ⟨absent, rfl⟩⟩)

def osText (name : String) : OsName := .text name.toList

def archivesTree : Tree OsName FileContent where
  nodes := [([osText "infc.tar.gz"], .file 0), ([osText "infc.zip"], .file 1)]
  contents inode := if inode = 0 then .bytes [1] else .bytes [2]

def tarPath : Path OsName := .ofName (osText "infc.tar.gz")

def zipPath : Path OsName := .ofName (osText "infc.zip")

def outPath : Path OsName := .ofName (osText "out")

def outTree : Tree OsName FileContent :=
  archivesTree.set [osText "out"] .dir

theorem runs_outPath : Runs [] archivesTree (createDirAll outPath) (.ok ()) outTree := rfl

theorem reaches_outPath : Reaches [] outTree outPath [osText "out"] :=
  ⟨isRooted_iff.mp (by decide), rfl, isRooted_iff.mp (by decide)⟩

theorem outTree_fresh (names : List OsName) (some_ : names ≠ []) :
    outTree.get ([osText "out"] ++ names) = none := by
  cases names with
  | nil => exact absurd rfl some_
  | cons name names =>
      rw [outTree, Tree.get_set _ _ _ _ (List.cons_ne_nil _ _), if_neg (by simp)]
      simp [FileSystem.Tree.get, archivesTree, List.lookup_cons]

def packageEntries : List ArchiveEntry :=
  [⟨[osText "package"], false, none⟩,
    ⟨[osText "package", osText "infc"], false, some (.bytes [7])⟩,
    ⟨[osText "package", osText "lib", osText "core"], false, some (.bytes [8])⟩]

theorem packageEntries_top : ¬ LeavesLoneTarGz packageEntries := by
  rintro ⟨stripped, _, isArchive, _⟩
  revert isArchive
  cases stripped <;> decide

theorem packageEntries_named : AreNamed packageEntries := by
  rw [AreNamed]
  decide

theorem package_lossless :
    IsLossless (demoReaders packageEntries packageEntries) [] archivesTree tarPath zipPath outPath
      packageEntries :=
  (rootStripping_lossless_iff _ [] (demoReaders_unpack _ _ []) packageEntries packageEntries_named
    archivesTree outTree tarPath zipPath outPath [osText "out"] ⟨_, rfl, rfl⟩ ⟨_, rfl, rfl⟩ rfl
    runs_outPath reaches_outPath outTree_fresh).mpr
      ⟨⟨by decide, by decide⟩, fun _ => by decide, packageEntries_top⟩

/-- A file in a folder, behind a `./`. -/
def dottedEntries : List ArchiveEntry :=
  [⟨[osText "package", osText "infc"], true, some (.bytes [7])⟩]

/-- The tree that a program leaves when nothing hinders it. -/
def leftBy (program : Installer Unit) : Tree OsName FileContent :=
  (program.run.run (perform []) archivesTree).2

/-- A tar.gz keeps the folder behind the `./`, a zip strips it. -/
theorem dotted_folder_kept :
    InOneFolder dottedEntries (osText "package") ∧
      shownAt (leftBy (extractTarGz (demoReaders dottedEntries dottedEntries) tarPath outPath))
        [osText "out", osText "package", osText "infc"] = some (some (.bytes [7])) ∧
      shownAt (leftBy (extractZip (demoReaders dottedEntries dottedEntries) zipPath outPath))
        [osText "out", osText "infc"] = some (some (.bytes [7])) ∧
      ¬ IsLossless (demoReaders dottedEntries dottedEntries) [] archivesTree tarPath zipPath outPath
        dottedEntries := by
  refine ⟨⟨by decide, _, List.mem_cons_self, by decide⟩, rfl, rfl, ?_⟩
  rintro ⟨_, directory, tarTree, zipTree, _, _, isTarred, isZipped, same⟩
  have tarRuns : Runs [] archivesTree
      (extractTarGz (demoReaders dottedEntries dottedEntries) tarPath outPath).run (.ok ())
      (leftBy (extractTarGz (demoReaders dottedEntries dottedEntries) tarPath outPath)) := rfl
  have zipRuns : Runs [] archivesTree
      (extractZip (demoReaders dottedEntries dottedEntries) zipPath outPath).run (.ok ())
      (leftBy (extractZip (demoReaders dottedEntries dottedEntries) zipPath outPath)) := rfl
  cases (isTarred.runs.unique tarRuns).2
  cases (isZipped.runs.unique zipRuns).2
  have reaches : Reaches []
      (leftBy (extractTarGz (demoReaders dottedEntries dottedEntries) tarPath outPath)) outPath
      [osText "out"] := ⟨isRooted_iff.mp (by decide), rfl, isRooted_iff.mp (by decide)⟩
  cases isTarred.reaches.unique reaches
  cases same [osText "infc"]

end Inference.Infs
