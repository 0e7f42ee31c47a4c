import Mathlib.Data.List.Induction

/-! # The cache of the release manifest

`fetch_manifest` answers from `cache/manifest.json` when that file holds a manifest, and from the
distribution server otherwise. A run is a list of calls that share the file. Time is the Unix clock
in seconds; what a manifest says plays no part here.
-/

namespace Inference.Infs

variable {Manifest NetworkError : Type}

structure CachedManifest (Manifest : Type) where
  manifest : Manifest
  timestamp : Nat

/-- The cache file as `serde_json` reads it. -/
inductive CacheFile (Manifest : Type)
  | absent
  | unparsable
  | cached (content : CachedManifest Manifest)

/-- How a write of the cache file ends. -/
inductive WriteOutcome
  | complete
  | unopened
  | interrupted

/-- What the environment grants one call: any access to the cache file can fail. -/
structure CacheAccess where
  pathKnown : Bool
  readable : Bool
  removable : Bool
  directoryCreated : Bool
  serialized : Bool
  write : WriteOutcome

/-- One call of `fetch_manifest`: the clock when it starts and when the server has answered, and
the answer the server has for it. -/
structure FetchCall (Manifest NetworkError : Type) where
  access : CacheAccess
  time : Nat
  answeredAt : Nat
  answer : Except NetworkError Manifest

/-- The age at which the documentation lets a cached manifest expire: 15 minutes. -/
def cacheTtl : Nat := 15 * 60

def loadFromCache (access : CacheAccess) (file : CacheFile Manifest) :
    Option Manifest × CacheFile Manifest :=
  if access.pathKnown && access.readable then
    match file with
    | .absent => (none, .absent)
    | .unparsable => (none, if access.removable then .absent else .unparsable)
    | .cached content => (some content.manifest, file)
  else
    (none, file)

def saveToCache (access : CacheAccess) (currentTimestamp : Nat) (manifest : Manifest)
    (file : CacheFile Manifest) : CacheFile Manifest :=
  if access.pathKnown && access.directoryCreated && access.serialized then
    match access.write with
    | .complete => .cached ⟨manifest, currentTimestamp⟩
    | .unopened => file
    | .interrupted => .unparsable
  else
    file

/-- The result of a call, and the cache file it leaves. -/
def fetchManifest (call : FetchCall Manifest NetworkError) (file : CacheFile Manifest) :
    Except NetworkError Manifest × CacheFile Manifest :=
  match loadFromCache call.access file with
  | (some manifest, file) => (.ok manifest, file)
  | (none, file) =>
      match call.answer with
      | .error error => (.error error, file)
      | .ok manifest => (.ok manifest, saveToCache call.access call.answeredAt manifest file)

/-- The cache file a run of calls leaves. -/
def cacheAfter (file : CacheFile Manifest) :
    List (FetchCall Manifest NetworkError) → CacheFile Manifest
  | [] => file
  | call :: rest => cacheAfter (fetchManifest call file).2 rest

theorem cacheAfter_append (file : CacheFile Manifest)
    (first second : List (FetchCall Manifest NetworkError)) :
    cacheAfter file (first ++ second) = cacheAfter (cacheAfter file first) second := by
  induction first generalizing file with
  | nil => rfl
  | cons call rest induction => exact induction _

/-- The call asks the server: the cache gives it nothing. -/
def AsksNetwork (call : FetchCall Manifest NetworkError) (file : CacheFile Manifest) : Prop :=
  (loadFromCache call.access file).1 = none

/-- The clock when the call returns its manifest. -/
def FetchCall.returnedAt (call : FetchCall Manifest NetworkError) (file : CacheFile Manifest) :
    Nat :=
  if (loadFromCache call.access file).1.isNone then call.answeredAt else call.time

/-- Some call of the run has this manifest from the server, at the given time. -/
def ObtainedAt (start : CacheFile Manifest) (calls : List (FetchCall Manifest NetworkError))
    (manifest : Manifest) (time : Nat) : Prop :=
  ∃ earlier call later, calls = earlier ++ call :: later ∧
    AsksNetwork call (cacheAfter start earlier) ∧ call.answer = .ok manifest ∧
      call.answeredAt = time

/-- Every manifest a call of the run returns is at most 15 minutes old: the server gave it to this
call or to one before it, and not longer ago than that. -/
def ManifestsFresh (start : CacheFile Manifest)
    (calls : List (FetchCall Manifest NetworkError)) : Prop :=
  ∀ earlier call later manifest, calls = earlier ++ call :: later →
    (fetchManifest call (cacheAfter start earlier)).1 = .ok manifest →
      ∃ obtained, ObtainedAt start (earlier ++ [call]) manifest obtained ∧
        call.returnedAt (cacheAfter start earlier) ≤ obtained + cacheTtl

/-- The call finds no cache entry that has expired. -/
def FindsNoneExpired (call : FetchCall Manifest NetworkError) (file : CacheFile Manifest) : Prop :=
  ∀ content, file = .cached content → call.time ≤ content.timestamp + cacheTtl

/-- No call of the run finds an expired cache entry. -/
def NeverExpired (start : CacheFile Manifest)
    (calls : List (FetchCall Manifest NetworkError)) : Prop :=
  ∀ earlier call later, calls = earlier ++ call :: later →
    FindsNoneExpired call (cacheAfter start earlier)

/-- The cache file was written by a call of the run, with the time at which that call had its
answer. -/
def CacheRecorded (start : CacheFile Manifest)
    (calls : List (FetchCall Manifest NetworkError)) : Prop :=
  ∀ content, cacheAfter start calls = .cached content →
    ObtainedAt start calls content.manifest content.timestamp

variable {start : CacheFile Manifest} {calls : List (FetchCall Manifest NetworkError)}
  {manifest : Manifest}

theorem ObtainedAt.append
    {time : Nat} (obtained : ObtainedAt start calls manifest time)
    (more : List (FetchCall Manifest NetworkError)) :
    ObtainedAt start (calls ++ more) manifest time := by
  rcases obtained with ⟨earlier, call, later, split, asks, answered, atTime⟩
  exact ⟨earlier, call, later ++ more, by simp [split], asks, answered, atTime⟩

variable {access : CacheAccess} {file : CacheFile Manifest}

theorem loadFromCache_some (loaded : (loadFromCache access file).1 = some manifest) :
    ∃ timestamp, file = .cached ⟨manifest, timestamp⟩ ∧
      (loadFromCache access file).2 = file := by
  unfold loadFromCache at loaded ⊢
  split at loaded
  next granted =>
    rw [if_pos granted]
    cases file with
    | absent => cases loaded
    | unparsable => cases loaded
    | cached content =>
        cases loaded
        exact ⟨content.timestamp, rfl, rfl⟩
  next => cases loaded

/-- Reading the cache writes no entry. -/
theorem loadFromCache_cached {content : CachedManifest Manifest}
    (holds : (loadFromCache access file).2 = .cached content) : file = .cached content := by
  unfold loadFromCache at holds
  split at holds
  · cases file with
    | absent => cases holds
    | unparsable =>
        dsimp only at holds
        split at holds <;> cases holds
    | cached other => exact holds
  · exact holds

theorem saveToCache_cached {now : Nat}
    {content : CachedManifest Manifest}
    (holds : saveToCache access now manifest file = .cached content) :
    content = ⟨manifest, now⟩ ∨ file = .cached content := by
  rw [saveToCache] at holds
  split at holds
  · split at holds
    · cases holds
      exact .inl rfl
    · exact .inr holds
    · cases holds
  · exact .inr holds

/-- What one call does: it answers from the cache and leaves it, or asks the server. -/
theorem fetchManifest_cases (call : FetchCall Manifest NetworkError) (file : CacheFile Manifest) :
    (∃ content, file = .cached content ∧ fetchManifest call file = (.ok content.manifest, file) ∧
        call.returnedAt file = call.time) ∨
      (AsksNetwork call file ∧ (fetchManifest call file).1 = call.answer ∧
        call.returnedAt file = call.answeredAt ∧
        ∀ content, (fetchManifest call file).2 = .cached content →
          file = .cached content ∨
            call.answer = .ok content.manifest ∧ content.timestamp = call.answeredAt) := by
  rcases loads : loadFromCache call.access file with ⟨_ | manifest, left⟩
  · right
    have asks : AsksNetwork call file := by
      rw [AsksNetwork, loads]
    have keeps : ∀ content, left = .cached content → file = .cached content := by
      intro content holds
      apply loadFromCache_cached
      rw [loads]
      exact holds
    refine ⟨asks, ?_, ?_, ?_⟩
    · rw [fetchManifest, loads]
      cases call.answer <;> rfl
    · rw [FetchCall.returnedAt, loads]
      rfl
    · intro content holds
      rw [fetchManifest, loads] at holds
      cases answered : call.answer with
      | error error =>
          rw [answered] at holds
          exact .inl (keeps content holds)
      | ok manifest =>
          rw [answered] at holds
          rcases saveToCache_cached holds with rfl | kept
          · exact .inr ⟨rfl, rfl⟩
          · exact .inl (keeps content kept)
  · left
    have loaded : (loadFromCache call.access file).1 = some manifest := by
      rw [loads]
    rcases loadFromCache_some loaded with ⟨timestamp, isCached, unchanged⟩
    rw [loads] at unchanged
    refine ⟨⟨manifest, timestamp⟩, isCached, ?_, ?_⟩
    · rw [fetchManifest, loads]
      exact congrArg (Prod.mk _) unchanged
    · rw [FetchCall.returnedAt, loads]
      rfl

theorem obtainedAt_last
    {call : FetchCall Manifest NetworkError}
    (asks : AsksNetwork call (cacheAfter start calls)) (answered : call.answer = .ok manifest) :
    ObtainedAt start (calls ++ [call]) manifest call.answeredAt :=
  ⟨calls, call, [], rfl, asks, answered, rfl⟩

/-- A further call keeps the cache file recorded. -/
theorem CacheRecorded.step
    (recorded : CacheRecorded start calls)
    (call : FetchCall Manifest NetworkError) : CacheRecorded start (calls ++ [call]) := by
  intro content holds
  rw [cacheAfter_append] at holds
  rcases fetchManifest_cases call (cacheAfter start calls) with
    ⟨cached, isCached, hit, _⟩ | ⟨asks, _, _, saved⟩
  · have unchanged : cacheAfter start calls = .cached content := by
      rw [← holds]
      exact (congrArg Prod.snd hit).symm
    exact (recorded content unchanged).append [call]
  · rcases saved content holds with kept | ⟨answered, stamped⟩
    · exact (recorded content kept).append [call]
    · rw [stamped]
      exact obtainedAt_last asks answered

theorem cacheRecorded (nothing : ∀ content, start ≠ .cached content)
    (calls : List (FetchCall Manifest NetworkError)) : CacheRecorded start calls := by
  induction calls using List.reverseRecOn with
  | nil =>
      intro content holds
      exact absurd holds (nothing content)
  | append_singleton calls call induction => exact induction.step call

/-- A run that starts without a cached manifest returns fresh manifests as long as none of its
calls finds an expired entry. -/
theorem manifestsFresh_of_neverExpired {start : CacheFile Manifest}
    {calls : List (FetchCall Manifest NetworkError)}
    (nothing : ∀ content, start ≠ .cached content) (unexpired : NeverExpired start calls) :
    ManifestsFresh start calls := by
  intro earlier call later manifest split returned
  rcases fetchManifest_cases call (cacheAfter start earlier) with
    ⟨content, isCached, hit, atTime⟩ | ⟨asks, result, atTime, _⟩
  · rw [hit] at returned
    cases returned
    refine ⟨content.timestamp, (cacheRecorded nothing earlier content isCached).append [call], ?_⟩
    rw [atTime]
    exact unexpired earlier call later split content isCached
  · rw [result] at returned
    refine ⟨call.answeredAt, obtainedAt_last asks returned, ?_⟩
    rw [atTime]
    exact Nat.le_add_right _ _

/-- An access to the cache file that nothing hinders. -/
def CacheAccess.granted : CacheAccess := ⟨true, true, true, true, true, .complete⟩

theorem manifestsFresh_secondCall :
    ManifestsFresh (.absent : CacheFile String)
      [(⟨.granted, 0, 0, .ok "0.1.0"⟩ : FetchCall String Unit),
        ⟨.granted, 900, 900, .ok "0.2.0"⟩] := by
  apply manifestsFresh_of_neverExpired
  · intro content holds
    cases holds
  · intro earlier call later split content holds
    rcases earlier with _ | ⟨first, _ | ⟨second, rest⟩⟩
    · cases holds
    · cases split
      cases holds
      decide
    · simp at split

/-- A call one second after the entry has expired still returns it. -/
theorem expiredManifest_returned :
    ¬ ManifestsFresh (.absent : CacheFile String)
      [(⟨.granted, 0, 0, .ok "0.1.0"⟩ : FetchCall String Unit),
        ⟨.granted, 901, 901, .ok "0.2.0"⟩] := by
  intro fresh
  rcases fresh [⟨.granted, 0, 0, .ok "0.1.0"⟩] ⟨.granted, 901, 901, .ok "0.2.0"⟩ [] "0.1.0" rfl rfl
    with ⟨obtained, ⟨earlier, call, later, split, _, answered, atTime⟩, inTime⟩
  have late : 901 ≤ obtained + cacheTtl := inTime
  rcases earlier with _ | ⟨first, _ | ⟨second, rest⟩⟩
  · cases split
    subst atTime
    exact absurd late (by decide)
  · cases split
    have same := Except.ok.inj answered
    exact absurd same (by decide)
  · simp at split

end Inference.Infs
