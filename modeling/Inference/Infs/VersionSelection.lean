import Mathlib.Data.Char
import Mathlib.Data.List.Lex
import Mathlib.Data.Prod.Lex
import Mathlib.Order.Compare
import Inference.Foundation.Comparisons
import Inference.Infs.SharedDownloads
import Inference.Infs.ToolchainPaths

/-! # The versions of a manifest

Which entry of a release manifest is the latest, in which order the entries are listed, and which
archive is installed for a version. How `semver` reads a version is a parameter; its versions are
linearly ordered.
-/

namespace Inference.Infs

open Foundation

/-! ## The manifest -/

namespace FileEntry

def tool (entry : FileEntry) : List Char :=
  (entry.filename.splitOn '-').head?.getD []

def os (entry : FileEntry) : List Char :=
  (entry.filename.splitOn '-')[1]?.getD []

end FileEntry

def Platform.os : Platform → List Char
  | .linuxX64 => "linux".toList
  | .macosArm64 => "macos".toList
  | .windowsX64 => "windows".toList

structure VersionEntry where
  version : List Char
  stable : Bool
  files : List FileEntry

namespace VersionEntry

def findArtifact (entry : VersionEntry) (platform : Platform) (tool : List Char) :
    Option FileEntry :=
  entry.files.find? fun file => file.os = platform.os ∧ file.tool = tool

def findInfcArtifact (entry : VersionEntry) (platform : Platform) : Option FileEntry :=
  entry.findArtifact platform "infc".toList

end VersionEntry

abbrev Manifest := List VersionEntry

/-- Why there is nothing to install. -/
inductive ArtifactError
  | noVersion
  | versionNotFound (version : List Char)
  | noArtifact (platform : Platform) (version : List Char)

variable {entry : VersionEntry} {manifest : Manifest}

section Selection

variable {Version : Type} [LinearOrder Version] (parse : List Char → Option Version)

/-- What is no version is lower than a version. -/
def compareVersions (a b : List Char) : Ordering :=
  match parse a, parse b with
  | some a, some b => cmp a b
  | some _, none => .gt
  | none, some _ => .lt
  | none, none => cmp a b

/-- The newest version first, and what is no version last. -/
def compareNewestFirst (a b : List Char) : Ordering :=
  match parse a, parse b with
  | some a, some b => cmp b a
  | some _, none => .lt
  | none, some _ => .gt
  | none, none => cmp b a

def compareEntries (a b : VersionEntry) : Ordering :=
  compareVersions parse a.version b.version

def latestStable (manifest : Manifest) : Option VersionEntry :=
  maxBy (compareEntries parse) (manifest.filter (·.stable))

def latestVersion (manifest : Manifest) : Option VersionEntry :=
  maxBy (compareEntries parse) manifest

def findVersion (manifest : Manifest) (version : List Char) : Option VersionEntry :=
  manifest.find? fun entry => entry.version = version

def sortedVersions (manifest : Manifest) : List VersionEntry :=
  sortBy (fun a b => compareNewestFirst parse a.version b.version) manifest

def fetchArtifact (manifest : Manifest) (version : Option (List Char)) (platform : Platform) :
    Except ArtifactError (List Char × FileEntry) := do
  let entry ←
    if version = none ∨ version = some "latest".toList then
      match (latestStable parse manifest).or (latestVersion parse manifest) with
      | some entry => .ok entry
      | none => .error .noVersion
    else
      match findVersion manifest (version.getD []) with
      | some entry => .ok entry
      | none => .error (.versionNotFound (version.getD []))
  match entry.findInfcArtifact platform with
  | some artifact => .ok (entry.version, artifact)
  | none => .error (.noArtifact platform entry.version)

/-- The version that is asked for on the command line. -/
def versionArgument (version : List Char) : Option (List Char) :=
  if version = "latest".toList then none else some version

/-! ## The orders -/

theorem isLE_cmp_iff {α : Type*} [LinearOrder α] {decidable : DecidableLT α} {a b : α} :
    (@cmp α _ decidable a b).isLE ↔ a ≤ b := by
  rw [Subsingleton.elim decidable LinearOrder.toDecidableLT, Ordering.isLE_iff_ne_gt]
  exact (not_congr (cmp_eq_gt_iff a b)).trans not_lt

instance compareVersions_trans : Std.TransCmp (compareVersions parse) where
  eq_swap {a b} := by
    unfold compareVersions
    cases parse a <;> cases parse b
    · exact (cmp_swap _ _).symm
    · rfl
    · rfl
    · exact (cmp_swap _ _).symm
  isLE_trans {a b c} := by
    unfold compareVersions
    cases parse a <;> cases parse b <;> cases parse c <;> intro lower upper
    · dsimp only at lower upper ⊢
      exact isLE_cmp_iff.mpr ((isLE_cmp_iff.mp lower).trans (isLE_cmp_iff.mp upper))
    · rfl
    · cases upper
    · rfl
    · cases lower
    · cases lower
    · cases upper
    · dsimp only at lower upper ⊢
      exact isLE_cmp_iff.mpr ((isLE_cmp_iff.mp lower).trans (isLE_cmp_iff.mp upper))

instance compareEntries_trans : Std.TransCmp (compareEntries parse) where
  eq_swap := (compareVersions_trans parse).eq_swap
  isLE_trans := (compareVersions_trans parse).isLE_trans

theorem compareNewestFirst_eq (a b : List Char) :
    compareNewestFirst parse a b = compareVersions parse b a := by
  unfold compareNewestFirst compareVersions
  cases parse a <;> cases parse b <;> rfl

instance compareNewestFirst_trans : Std.TransCmp (compareNewestFirst parse) where
  eq_swap {a b} := by
    rw [compareNewestFirst_eq, compareNewestFirst_eq]
    exact Std.OrientedCmp.eq_swap
  isLE_trans {a b c} := by
    rw [compareNewestFirst_eq, compareNewestFirst_eq, compareNewestFirst_eq]
    intro upper lower
    exact Std.TransCmp.isLE_trans lower upper

/-! ## Coherence -/

/-- The entries with the highest version. -/
def newestEntries (entries : List VersionEntry) : List VersionEntry :=
  highest (compareEntries parse) entries

theorem latestVersion_eq (manifest : Manifest) :
    latestVersion parse manifest = (newestEntries parse manifest).getLast? :=
  maxBy_eq (compareEntries parse) manifest

theorem latestStable_eq (manifest : Manifest) :
    latestStable parse manifest = (newestEntries parse (manifest.filter (·.stable))).getLast? :=
  maxBy_eq (compareEntries parse) (manifest.filter (·.stable))

theorem sortedVersions_eq (manifest : Manifest) :
    sortedVersions parse manifest =
      sortBy (fun a b => compareEntries parse b a) manifest := by
  unfold sortedVersions compareEntries
  simp only [compareNewestFirst_eq]

theorem sortedVersions_head (manifest : Manifest) :
    (sortedVersions parse manifest).head? = (newestEntries parse manifest).head? := by
  rw [sortedVersions_eq]
  exact head?_sortBy (compareEntries parse) manifest

theorem sortedVersions_stable (manifest : Manifest) :
    (sortedVersions parse manifest).find? (·.stable) =
      (newestEntries parse (manifest.filter (·.stable))).head? := by
  rw [sortedVersions_eq]
  exact find?_sortBy (compareEntries parse) (·.stable) manifest

/-- The entry that `latest` stands for. -/
def latestEntry (manifest : Manifest) : Option VersionEntry :=
  (latestStable parse manifest).or (latestVersion parse manifest)

/-- The three ways to select a version agree. -/
structure SelectionCoherent (manifest : Manifest) : Prop where
  ordered : Std.TransCmp (compareVersions parse) ∧ Std.TransCmp (compareNewestFirst parse)
  latest : latestVersion parse manifest = (sortedVersions parse manifest).head?
  stable : latestStable parse manifest = (sortedVersions parse manifest).find? (·.stable)
  /-- The archive for `latest` is the one for the version that `latest` stands for. -/
  artifact : ∀ entry, latestEntry parse manifest = some entry → ∀ platform,
    fetchArtifact parse manifest (versionArgument entry.version) platform =
      fetchArtifact parse manifest (versionArgument "latest".toList) platform

/-- The first and the last entry of a list are the same, if it has any. -/
def EndsAgree (entries : List VersionEntry) : Prop :=
  entries.head? = entries.getLast?

/-- Where an entry of the manifest is repeated, the repetitions that are looked at agree: the first
and the last of the newest entries and of the newest stable ones are the same, and the first entry
with their version holds the same archives. -/
structure RepetitionsAgree (manifest : Manifest) : Prop where
  newest : EndsAgree (newestEntries parse manifest)
  newestStable : EndsAgree (newestEntries parse (manifest.filter (·.stable)))
  archives : ∀ newest first,
    ((newestEntries parse (manifest.filter (·.stable))).getLast?.or
        (newestEntries parse manifest).getLast?) = some newest →
      newest.version ≠ "latest".toList →
        manifest.find? (fun entry => entry.version = newest.version) = some first →
          ∀ platform, first.findInfcArtifact platform = newest.findInfcArtifact platform

theorem latestEntry_eq (manifest : Manifest) :
    latestEntry parse manifest =
      (newestEntries parse (manifest.filter (·.stable))).getLast?.or
        (newestEntries parse manifest).getLast? := by
  rw [latestEntry, latestStable_eq, latestVersion_eq]

theorem mem_of_newestEntries {entries : List VersionEntry}
    (newest : (newestEntries parse entries).getLast? = some entry) : entry ∈ entries :=
  List.mem_of_mem_filter (List.mem_of_getLast? newest)

theorem mem_of_latestEntry
    (latest : latestEntry parse manifest = some entry) : entry ∈ manifest := by
  rw [latestEntry_eq, Option.or_eq_some_iff] at latest
  rcases latest with stable | ⟨_, any⟩
  · exact List.mem_of_mem_filter (mem_of_newestEntries parse stable)
  · exact mem_of_newestEntries parse any

/-- The archive of an entry for a platform. -/
def VersionEntry.fetched (entry : VersionEntry) (platform : Platform) :
    Except ArtifactError (List Char × FileEntry) :=
  match entry.findInfcArtifact platform with
  | some artifact => .ok (entry.version, artifact)
  | none => .error (.noArtifact platform entry.version)

theorem fetchArtifact_latest
    (latest : latestEntry parse manifest = some entry) (platform : Platform) :
    fetchArtifact parse manifest none platform = entry.fetched platform := by
  unfold fetchArtifact
  rw [if_pos (Or.inl rfl)]
  rw [latestEntry] at latest
  rw [latest]
  rfl

theorem fetchArtifact_version {version : List Char}
    (named : version ≠ "latest".toList) (first : findVersion manifest version = some entry)
    (platform : Platform) :
    fetchArtifact parse manifest (some version) platform = entry.fetched platform := by
  unfold fetchArtifact
  rw [if_neg (by simpa using named), Option.getD_some, first]
  rfl

theorem fetched_eq_iff {other : VersionEntry} (same : other.version = entry.version)
    (platform : Platform) :
    other.fetched platform = entry.fetched platform ↔
      other.findInfcArtifact platform = entry.findInfcArtifact platform := by
  unfold VersionEntry.fetched
  rw [same]
  cases other.findInfcArtifact platform <;> cases entry.findInfcArtifact platform <;> simp

theorem artifact_iff (latest : latestEntry parse manifest = some entry) (platform : Platform) :
    fetchArtifact parse manifest (versionArgument entry.version) platform =
        fetchArtifact parse manifest (versionArgument "latest".toList) platform ↔
      (entry.version ≠ "latest".toList → ∀ first,
        manifest.find? (fun other => other.version = entry.version) = some first →
          first.findInfcArtifact platform = entry.findInfcArtifact platform) := by
  by_cases named : entry.version = "latest".toList
  · rw [named]
    exact iff_of_true rfl fun different => absurd rfl different
  · have found : (manifest.find? fun other => other.version = entry.version).isSome := by
      rw [List.find?_isSome]
      exact ⟨entry, mem_of_latestEntry parse latest, by simp⟩
    rcases Option.isSome_iff_exists.mp found with ⟨first, isFirst⟩
    have same : first.version = entry.version := by
      simpa using List.find?_some isFirst
    rw [versionArgument, if_neg named, versionArgument, if_pos rfl,
      fetchArtifact_latest parse latest, fetchArtifact_version parse named isFirst,
      fetched_eq_iff same]
    constructor
    · rintro agrees _ other isOther
      rw [isFirst] at isOther
      cases isOther
      exact agrees
    · exact fun agrees => agrees named first isFirst

/-- Where entries are repeated, the selection is coherent exactly if the repetitions agree. -/
theorem selectionCoherent_iff (manifest : Manifest) :
    SelectionCoherent parse manifest ↔ RepetitionsAgree parse manifest := by
  constructor
  · intro coherent
    have latest := coherent.latest
    have stable := coherent.stable
    rw [latestVersion_eq, sortedVersions_head] at latest
    rw [latestStable_eq, sortedVersions_stable] at stable
    refine ⟨latest.symm, stable.symm, ?_⟩
    intro newest first isNewest named isFirst platform
    rw [← latestEntry_eq] at isNewest
    exact (artifact_iff parse isNewest platform).mp (coherent.artifact newest isNewest platform)
      named first isFirst
  · intro agree
    refine ⟨⟨inferInstance, inferInstance⟩, ?_, ?_, ?_⟩
    · rw [latestVersion_eq, sortedVersions_head]
      exact agree.newest.symm
    · rw [latestStable_eq, sortedVersions_stable]
      exact agree.newestStable.symm
    · intro entry latest platform
      refine (artifact_iff parse latest platform).mpr ?_
      intro named first isFirst
      rw [latestEntry_eq] at latest
      exact agree.archives entry first latest named isFirst platform

/-! ### Manifests without repetitions -/

variable {parse}

theorem eq_of_compareVersions {a b : List Char}
    (distinguishes : ∀ text text' version, parse text = some version →
      parse text' = some version → text = text')
    (same : compareVersions parse a b = .eq) : a = b := by
  unfold compareVersions at same
  split at same
  · rename_i version version' isVersion isVersion'
    rw [cmp_eq_eq_iff] at same
    rw [← same] at isVersion'
    exact distinguishes a b version isVersion isVersion'
  · cases same
  · cases same
  · rcases lt_trichotomy a b with less | equal | greater
    · rw [cmp, cmpUsing, if_pos less] at same
      cases same
    · exact equal
    · rw [cmp, cmpUsing, if_neg greater.asymm, if_pos greater] at same
      cases same

theorem endsAgree_of_nodup {entries : List VersionEntry}
    (distinguishes : ∀ text text' version, parse text = some version →
      parse text' = some version → text = text')
    (distinct : (entries.map (·.version)).Nodup) : EndsAgree (newestEntries parse entries) := by
  have tied : ∀ entry ∈ newestEntries parse entries, ∀ other ∈ newestEntries parse entries,
      entry = other := by
    intro entry newest other newest'
    rcases List.mem_filter.mp newest with ⟨member, above⟩
    rcases List.mem_filter.mp newest' with ⟨member', above'⟩
    have notAbove := isHighest_iff.mp above' entry member
    have notBelow := isHighest_iff.mp above other member'
    apply List.inj_on_of_nodup_map distinct member member'
    exact eq_of_compareVersions distinguishes (Std.OrientedCmp.isLE_antisymm notAbove notBelow)
  unfold EndsAgree
  cases newest : newestEntries parse entries with
  | nil => rfl
  | cons first rest =>
      rw [newest] at tied
      have last := List.getLast_mem (List.cons_ne_nil first rest)
      rw [List.getLast?_eq_getLast_of_ne_nil (List.cons_ne_nil first rest)]
      exact congrArg some (tied first List.mem_cons_self _ last)

/-- If no two texts are one version, a manifest that repeats no text is selected from coherently. -/
theorem repetitionsAgree_of_nodup (distinguishes : ∀ text text' version, parse text = some version →
      parse text' = some version → text = text')
    (distinct : (manifest.map (·.version)).Nodup) : RepetitionsAgree parse manifest := by
  refine ⟨endsAgree_of_nodup distinguishes distinct, ?_, ?_⟩
  · have sublist : (manifest.filter (·.stable)).Sublist manifest := List.filter_sublist
    exact endsAgree_of_nodup distinguishes (distinct.sublist (sublist.map _))
  · intro newest first latest _ found platform
    rw [← latestEntry_eq] at latest
    have same : first.version = newest.version := by
      simpa using List.find?_some found
    rw [List.inj_on_of_nodup_map distinct (List.mem_of_find?_eq_some found)
      (mem_of_latestEntry parse latest) same]

end Selection

/-! ## A version that is repeated -/

/-- One of the numbers of a version: decimal, and without zeros in front. -/
def parseNumber (digits : List Char) : Option Nat :=
  if digits ≠ [] ∧ digits.all Char.isDigit ∧ (digits.head? = some '0' → digits.length = 1) then
    some (digits.foldl (fun number digit => 10 * number + (digit.toNat - '0'.toNat)) 0)
  else none

/-- A release version without a pre-release and without build metadata. -/
def parseRelease (text : List Char) : Option (Nat ×ₗ Nat ×ₗ Nat) :=
  match (text.splitOn '.').mapM parseNumber with
  | some [major, minor, patch] => some (toLex (major, toLex (minor, patch)))
  | _ => none

def releaseEntry (version sha256 : String) : VersionEntry :=
  ⟨version.toList, true, [⟨"https://example.com/infc-linux-x64.tar.gz".toList, sha256.toList⟩]⟩

/-- The version is published twice, with different archives. -/
def repeatedRelease : Manifest :=
  [releaseEntry "0.2.0" "aa", releaseEntry "0.2.0" "bb", releaseEntry "0.1.0" "cc"]

/-- The latest version is the second entry, and the first one is listed in front. -/
theorem repeatedRelease_incoherent : ¬ SelectionCoherent parseRelease repeatedRelease := by
  intro coherent
  have latest := coherent.latest
  rw [latestVersion_eq, sortedVersions_head] at latest
  have archives := congrArg (Option.map fun entry => entry.files.map (·.sha256)) latest
  exact absurd archives (by decide +kernel)

end Inference.Infs
