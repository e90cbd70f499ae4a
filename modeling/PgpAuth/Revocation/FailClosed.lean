import PgpAuth.Lib.Run
import PgpAuth.Revocation

/-!
# The revocation check fails closed

Between the staleness test and the swap of the cached buffer a call can fail in five
places: `stat`, open, the size limit, the allocation and the read. `CallFails` names them,
`Loads` is the call that gets through and replaces the copy, and `revocLoad_cases` says
there is only one more way: the copy is current and stays.

`callMachine` runs any sequence of calls, each with outcomes of its own. Along every run the
copy is what some call loaded, under the mtime it carries (`copy_loaded`), so a call that
allows a fingerprint has read a list that does not name it, and a call that fails denies and
leaves the copy for the next one to replace.
-/

namespace PgpAuth

open Lib

structure RevocCall where
  env : RevocEnv
  fpr : Bytes
  deriving DecidableEq, Repr

def callMachine (plcf : LocConf) : Machine RevocCache RevocCall Bool where
  step cache c := isRevoked plcf c.env cache c.fpr
  legal _ _ := True

/-- The copy does not answer for a file with this mtime. -/
def Stale (cache : RevocCache) (fi : FileInfo) : Prop := cache.data = none ∨ fi.mtime ≠ cache.mtime

/-- The file cannot be opened, is over the limit, finds no memory, or cannot be read. -/
def ReloadFails (plcf : LocConf) (env : RevocEnv) (fi : FileInfo) : Prop :=
  env.opened = false ∨ (plcf.revocMaxSize ≠ 0 ∧ plcf.revocMaxSize < fi.size) ∨
    env.alloc = false ∨ env.read = none

/-- `stat` fails, or a reload is needed and fails. -/
def CallFails (plcf : LocConf) (env : RevocEnv) (cache : RevocCache) : Prop :=
  env.stat = none ∨ ∃ fi, env.stat = some fi ∧ Stale cache fi ∧ ReloadFails plcf env fi

/-- The call replaces the copy by `copy`. -/
def Loads (plcf : LocConf) (cache : RevocCache) (c : RevocCall) (copy : RevocCache) : Prop :=
  c.fpr ≠ [] ∧ ∃ fi bytes, c.env.stat = some fi ∧ Stale cache fi ∧ ¬ ReloadFails plcf c.env fi ∧
    c.env.read = some bytes ∧ copy = ⟨some (bytes.take fi.size), fi.mtime⟩

/-! ## One call -/

section Call

variable {plcf : LocConf} {env : RevocEnv} {cache : RevocCache}

theorem revocLoad_none (hFails : CallFails plcf env cache) : revocLoad plcf env cache = none := by
  unfold revocLoad
  rcases hFails with hStat | ⟨fi, hStat, hStale, hFails⟩
  · rw [hStat]
  · unfold Stale at hStale
    rw [hStat]
    dsimp only
    rw [if_pos hStale]
    rcases hFails with hOpen | hSize | hAlloc | hRead
    · rw [if_pos hOpen]
    · rw [if_pos hSize, ite_self]
    · rw [if_pos hAlloc, ite_self, ite_self]
    · simp [hRead]

theorem revocLoad_fresh {fi : FileInfo} {bytes : Bytes} (hStat : env.stat = some fi)
    (hStale : Stale cache fi) (hReads : ¬ ReloadFails plcf env fi) (hRead : env.read = some bytes) :
    revocLoad plcf env cache = some ⟨some (bytes.take fi.size), fi.mtime⟩ := by
  simp only [ReloadFails, not_or] at hReads
  obtain ⟨hOpen, hSize, hAlloc, -⟩ := hReads
  unfold Stale at hStale
  unfold revocLoad
  rw [hStat]
  dsimp only
  rw [if_pos hStale, if_neg hOpen, if_neg hSize, if_neg hAlloc, hRead]
  rfl

theorem revocLoad_current {fi : FileInfo} (hStat : env.stat = some fi) (h : ¬ Stale cache fi) :
    revocLoad plcf env cache = some cache := by
  unfold Stale at h
  unfold revocLoad
  rw [hStat]
  dsimp only
  rw [if_neg h]

/-- A call fails, loads the file, or finds its copy current. -/
theorem revocLoad_cases (plcf : LocConf) (env : RevocEnv) (cache : RevocCache) :
    CallFails plcf env cache ∨
      (∃ fi bytes, env.stat = some fi ∧ Stale cache fi ∧ ¬ ReloadFails plcf env fi ∧
        env.read = some bytes) ∨
      ∃ fi, env.stat = some fi ∧ ¬ Stale cache fi := by
  cases hStat : env.stat with
  | none => exact .inl (.inl hStat)
  | some fi =>
      by_cases hStale : Stale cache fi
      · by_cases hFails : ReloadFails plcf env fi
        · exact .inl (.inr ⟨fi, hStat, hStale, hFails⟩)
        · cases hRead : env.read with
          | none => exact absurd (.inr (.inr (.inr hRead))) hFails
          | some bytes => exact .inr (.inl ⟨fi, bytes, rfl, hStale, hFails, rfl⟩)
      · exact .inr (.inr ⟨fi, rfl, hStale⟩)

variable {fpr : Bytes} (hList : plcf.revocationList ≠ []) (hFpr : fpr ≠ [])

include hList hFpr

theorem isRevoked_fails (hClosed : plcf.revocFailOpen = false) (hFails : CallFails plcf env cache) :
    isRevoked plcf env cache fpr = (true, cache) := by
  rw [isRevoked, if_neg (by simp [hList, hFpr]), revocLoad_none hFails, hClosed]
  rfl

theorem isRevoked_some {copy : RevocCache} (hLoad : revocLoad plcf env cache = some copy) :
    isRevoked plcf env cache fpr = (revocScan (copy.data.getD []) fpr, copy) := by
  rw [isRevoked, if_neg (by simp [hList, hFpr]), hLoad]

end Call

/-! ## Whole runs -/

/-- The copy of a worker after these calls. -/
def cacheAfter (plcf : LocConf) (calls : List RevocCall) : RevocCache :=
  (callMachine plcf).final .empty calls

/-- Some call of the run loaded this copy. -/
def LoadedIn (plcf : LocConf) (calls : List RevocCall) (copy : RevocCache) : Prop :=
  ∃ earlier c later, calls = earlier ++ c :: later ∧ Loads plcf (cacheAfter plcf earlier) c copy

theorem LoadedIn.concat {plcf : LocConf} {calls : List RevocCall} {copy : RevocCache}
    (h : LoadedIn plcf calls copy) (c : RevocCall) : LoadedIn plcf (calls ++ [c]) copy := by
  obtain ⟨earlier, c', later, rfl, hLoads⟩ := h
  exact ⟨earlier, c', later ++ [c], by simp, hLoads⟩

section Runs

variable {plcf : LocConf}

theorem isRevoked_off {env : RevocEnv} {cache : RevocCache} {fpr : Bytes}
    (h : plcf.revocationList = [] ∨ fpr = []) : (isRevoked plcf env cache fpr).2 = cache := by
  rw [isRevoked, if_pos h]

theorem cacheAfter_concat (calls : List RevocCall) (c : RevocCall) :
    cacheAfter plcf (calls ++ [c]) = (isRevoked plcf c.env (cacheAfter plcf calls) c.fpr).2 := by
  rw [cacheAfter, Machine.final_append]
  rfl

/-- What one call does to the copy. -/
theorem isRevoked_copy (plcf : LocConf) (c : RevocCall) (cache : RevocCache) :
    (isRevoked plcf c.env cache c.fpr).2 = cache ∨
      Loads plcf cache c (isRevoked plcf c.env cache c.fpr).2 := by
  by_cases hOff : plcf.revocationList = [] ∨ c.fpr = []
  · exact .inl (isRevoked_off hOff)
  · obtain ⟨hList, hFpr⟩ := not_or.mp hOff
    rcases revocLoad_cases plcf c.env cache with
      hFails | ⟨fi, bytes, hStat, hStale, hReads, hRead⟩ | ⟨fi, hStat, hCurrent⟩
    · rw [isRevoked, if_neg hOff, revocLoad_none hFails]
      exact .inl rfl
    · rw [isRevoked_some hList hFpr (revocLoad_fresh hStat hStale hReads hRead)]
      exact .inr ⟨hFpr, fi, bytes, hStat, hStale, hReads, hRead, rfl⟩
    · rw [isRevoked_some hList hFpr (revocLoad_current hStat hCurrent)]
      exact .inl rfl

/-- The copy a worker holds was loaded by some call. -/
theorem copy_loaded (calls : List RevocCall) (hData : (cacheAfter plcf calls).data ≠ none) :
    LoadedIn plcf calls (cacheAfter plcf calls) := by
  induction calls using List.reverseRecOn with
  | nil => exact absurd rfl hData
  | append_singleton calls c ih =>
      rw [cacheAfter_concat] at hData ⊢
      rcases isRevoked_copy plcf c (cacheAfter plcf calls) with hSame | hLoads
      · rw [hSame] at hData ⊢
        exact (ih hData).concat c
      · exact ⟨calls, c, [], rfl, hLoads⟩

/-- Calls that fail or ask for nothing leave the copy as it is. -/
theorem cacheAfter_fails (hList : plcf.revocationList ≠ []) (hClosed : plcf.revocFailOpen = false)
    {before between : List RevocCall}
    (hFails : ∀ x ∈ between, x.fpr = [] ∨ CallFails plcf x.env (cacheAfter plcf before)) :
    cacheAfter plcf (before ++ between) = cacheAfter plcf before := by
  induction between using List.reverseRecOn with
  | nil => rw [List.append_nil]
  | append_singleton between x ih =>
      have hBefore := ih fun y hy => hFails y (by simp [hy])
      rw [← List.append_assoc, cacheAfter_concat, hBefore]
      by_cases hFpr : x.fpr = []
      · exact isRevoked_off (.inr hFpr)
      · rw [isRevoked_fails hList hFpr hClosed ((hFails x (by simp)).resolve_left hFpr)]

/-- What is promised of a call `c` that comes after the calls `before`. -/
structure FailsClosed (plcf : LocConf) (before : List RevocCall) (c : RevocCall) : Prop where
  /-- A fingerprint is allowed only on a list that was read under the present mtime, in this
  call or in an earlier one, and does not name it. -/
  allows : ∀ copy, isRevoked plcf c.env (cacheAfter plcf before) c.fpr = (false, copy) →
    ∃ fi content, c.env.stat = some fi ∧ copy = ⟨some content, fi.mtime⟩ ∧
      revocScan content c.fpr = false ∧
      (Loads plcf (cacheAfter plcf before) c copy ∨
        (copy = cacheAfter plcf before ∧ LoadedIn plcf before copy))
  denies : CallFails plcf c.env (cacheAfter plcf before) →
    isRevoked plcf c.env (cacheAfter plcf before) c.fpr = (true, cacheAfter plcf before)
  /-- After this failure and any further calls that fail or ask for nothing, the first call
  that finds the file readable reads it. -/
  recovers : CallFails plcf c.env (cacheAfter plcf before) →
    ∀ between, (∀ x ∈ between, x.fpr = [] ∨ CallFails plcf x.env (cacheAfter plcf before)) →
      ∀ (later : RevocCall) fi bytes, later.fpr ≠ [] → later.env.stat = some fi →
        Stale (cacheAfter plcf before) fi → ¬ ReloadFails plcf later.env fi →
        later.env.read = some bytes →
          isRevoked plcf later.env (cacheAfter plcf (before ++ c :: between)) later.fpr =
            (revocScan (bytes.take fi.size) later.fpr, ⟨some (bytes.take fi.size), fi.mtime⟩)

theorem allows_read (hList : plcf.revocationList ≠ []) (hClosed : plcf.revocFailOpen = false)
    {before : List RevocCall} {c : RevocCall} (hFpr : c.fpr ≠ []) {copy : RevocCache}
    (hAllowed : isRevoked plcf c.env (cacheAfter plcf before) c.fpr = (false, copy)) :
    ∃ fi content, c.env.stat = some fi ∧ copy = ⟨some content, fi.mtime⟩ ∧
      revocScan content c.fpr = false ∧
      (Loads plcf (cacheAfter plcf before) c copy ∨
        (copy = cacheAfter plcf before ∧ LoadedIn plcf before copy)) := by
  rcases revocLoad_cases plcf c.env (cacheAfter plcf before) with
    hFails | ⟨fi, bytes, hStat, hStale, hReads, hRead⟩ | ⟨fi, hStat, hCurrent⟩
  · rw [isRevoked_fails hList hFpr hClosed hFails] at hAllowed
    cases hAllowed
  · rw [isRevoked_some hList hFpr (revocLoad_fresh hStat hStale hReads hRead)] at hAllowed
    obtain ⟨hScan, rfl⟩ := Prod.mk.inj hAllowed
    exact ⟨fi, _, hStat, rfl, hScan, .inl ⟨hFpr, fi, bytes, hStat, hStale, hReads, hRead, rfl⟩⟩
  · rw [isRevoked_some hList hFpr (revocLoad_current hStat hCurrent)] at hAllowed
    obtain ⟨hScan, rfl⟩ := Prod.mk.inj hAllowed
    obtain ⟨hData, hMtime⟩ := not_or.mp hCurrent
    have hLoaded := copy_loaded before hData
    obtain ⟨content, hContent⟩ := Option.ne_none_iff_exists'.mp hData
    refine ⟨fi, content, hStat, ?_, ?_, .inr ⟨rfl, hLoaded⟩⟩
    · rw [not_not.mp hMtime, ← hContent]
    · simpa [hContent] using hScan

/-- With a list configured and `pgp_revocation_fail_open` off, every call of every run
fails closed and keeps its copy. -/
theorem revocation_fails_closed (plcf : LocConf) (hList : plcf.revocationList ≠ [])
    (hClosed : plcf.revocFailOpen = false) (before : List RevocCall) (c : RevocCall)
    (hFpr : c.fpr ≠ []) : FailsClosed plcf before c where
  allows _ hAllowed := allows_read hList hClosed hFpr hAllowed
  denies hFails := isRevoked_fails hList hFpr hClosed hFails
  recovers := by
    intro hFails between hBetween later fi bytes hLater hStat hStale hReads hRead
    have hKept : cacheAfter plcf (before ++ c :: between) = cacheAfter plcf before := by
      apply cacheAfter_fails hList hClosed
      intro x hx
      rcases List.mem_cons.mp hx with rfl | hx
      · exact .inr hFails
      · exact hBetween x hx
    rw [hKept, isRevoked_some hList hLater (revocLoad_fresh hStat hStale hReads hRead)]
    rfl

end Runs

def watchedConf : LocConf :=
  { LocConf.defaults (ascii "s3cret") with revocationList := ascii "/var/lib/revoked" }

/-- An empty list, loaded under mtime 7. -/
def emptyLoad : RevocCall := ⟨⟨some ⟨7, 0⟩, true, true, some []⟩, ascii "AB"⟩

/-- The list has changed and cannot be opened. -/
def lockedCall : RevocCall := ⟨⟨some ⟨9, 2⟩, false, true, none⟩, ascii "AB"⟩

/-- It can be read again and names the key. -/
def namedCall : RevocCall := ⟨⟨some ⟨9, 2⟩, true, true, some (ascii "ab")⟩, ascii "AB"⟩

theorem revocation_fails_closed_locked :
    isRevoked watchedConf lockedCall.env ⟨some [], 7⟩ lockedCall.fpr = (true, ⟨some [], 7⟩) ∧
      isRevoked watchedConf namedCall.env (cacheAfter watchedConf [emptyLoad, lockedCall])
        namedCall.fpr = (true, ⟨some (ascii "ab"), 9⟩) := by
  have hCache : cacheAfter watchedConf [emptyLoad] = ⟨some [], 7⟩ := by decide +kernel
  have h := revocation_fails_closed watchedConf (by decide +kernel) rfl [emptyLoad] lockedCall
    (by decide +kernel)
  have hFails : CallFails watchedConf lockedCall.env (cacheAfter watchedConf [emptyLoad]) :=
    .inr ⟨⟨9, 2⟩, rfl, .inr (by rw [hCache]; decide), .inl rfl⟩
  have hNamed := h.recovers hFails [] (by simp) namedCall ⟨9, 2⟩ (ascii "ab") (by decide +kernel)
    rfl (.inr (by rw [hCache]; decide)) (by unfold ReloadFails; decide +kernel) rfl
  refine ⟨hCache ▸ h.denies hFails, hNamed.trans ?_⟩
  decide +kernel

end PgpAuth
