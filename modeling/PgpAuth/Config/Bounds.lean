import PgpAuth.Config.Merge
import PgpAuth.Throttle.Ban

/-!
# Bounded settings under inheritance

The lifetimes are bounded anew in every merge, so a value may be bounded several times on
its way to a location, or not at all: the `http` block is never merged, and the two throttle
times are left as they are in a block whose failure limit is `0`. Each bound gives the same
answer for a value and for the bounded value (`clampTo_clampTo`, `fallbackTo_fallbackTo`), so
the levels in between do not matter: a location ends with the bound of the nearest written
value (`bounded_settings`).

* `confOf_bounded` is the law for one setting; the five settings are its instances.
* `throttles_bounded` gives the runs of the failure throttle the parameters they assume, at
  every location that merging has left (`LocConf.Merged`).
-/

namespace PgpAuth

open Lib

/-! ## Bounding twice -/

theorem clampTo_eq {lo hi : Nat} (h : lo ≤ hi) (t : Nat) :
    clampTo lo hi t = max lo (min hi t) := by
  unfold clampTo
  split
  · omega
  · split <;> omega

theorem fallbackTo_eq (lo hi default t : Nat) :
    fallbackTo lo hi default t = if lo ≤ t ∧ t ≤ hi then t else default := by
  unfold fallbackTo
  by_cases h : lo ≤ t ∧ t ≤ hi
  · rw [if_pos h, if_neg (by omega)]
  · rw [if_neg h, if_pos (by omega)]

theorem clampTo_clampTo {lo hi : Nat} (h : lo ≤ hi) (t : Nat) :
    clampTo lo hi (clampTo lo hi t) = clampTo lo hi t := by
  simp only [clampTo_eq h]
  omega

theorem fallbackTo_fallbackTo {lo hi default : Nat} (hLo : lo ≤ default) (hHi : default ≤ hi)
    (t : Nat) :
    fallbackTo lo hi default (fallbackTo lo hi default t) = fallbackTo lo hi default t := by
  simp only [fallbackTo_eq]
  by_cases h : lo ≤ t ∧ t ≤ hi
  · rw [if_pos h, if_pos h]
  · rw [if_neg h, if_pos ⟨hLo, hHi⟩]

theorem boundSessionTimeout_eq (t : Nat) : boundSessionTimeout t = min 2592000 t := by
  unfold boundSessionTimeout
  split <;> omega

/-! ## One setting -/

section Setting

variable {env : ConfEnv} {http : Directives} {level : Level} {enclosing : List Level}
  {conf : RawLocConf}

/-- A setting that the first part of the merge bounds, in the blocks where `p` holds. -/
structure BoundedBy (p : RawLocConf → Prop) [DecidablePred p] (bound : Nat → Nat) (default : Nat)
    (field : RawLocConf → Option Nat) (written : Directives → Option Nat) : Prop where
  idem : ∀ t, bound (bound t) = bound t
  created : ∀ block, field (createLocConf block) = written block
  merged : ∀ (level : Level) prev,
    let t := (written level.block).getD ((field prev).getD default)
    field (level.settings prev) = some (if p (level.settings prev) then bound t else t)
  untouched : ∀ conf shared password secret previous,
    field (conf.fill shared password secret previous) = field conf
  condition : ∀ conf shared password secret previous,
    p (conf.fill shared password secret previous) = p conf

theorem confOf_bounded {p : RawLocConf → Prop} [DecidablePred p] {bound : Nat → Nat}
    {default : Nat} {field : RawLocConf → Option Nat} {written : Directives → Option Nat}
    (hField : BoundedBy p bound default field written)
    (h : confOf env http (level :: enclosing) = .ok conf) (hp : p conf) :
    field conf = some (bound (nearest default (writtenIn written http (level :: enclosing)))) := by
  have hMerged : ∀ (level : Level) prev c, mergeLocConf env level prev = .ok c →
      ∃ t, t = (written level.block).getD ((field prev).getD default) ∧
        field c = some (if p c then bound t else t) := by
    intro level prev c hMerge
    refine ⟨_, rfl, ?_⟩
    have hSame := mergeLocConf_frame (fun c => (field c, p c))
      (fun _ _ _ _ _ => Prod.ext (hField.untouched ..) (hField.condition ..)) hMerge
    rw [Prod.mk.injEq] at hSame
    rw [hSame.1, hField.merged level prev]
    simp only [hSame.2]
  -- Bounded or not, a stored value has the bound of the value it was merged from.
  have hNear := settled_nearest field (fun level : Level => written level.block) default bound
    (fun level prev c hMerge => by
      obtain ⟨t, ht, hc⟩ := hMerged level prev c hMerge
      rw [hc, ← ht, Option.getD_some]
      split
      · exact hField.idem t
      · rfl) h
  obtain ⟨prev, -, hMerge⟩ := confOf_cons_ok.mp h
  obtain ⟨t, -, hc⟩ := hMerged level prev conf hMerge
  rw [if_pos hp] at hc
  rw [hc, Option.getD_some, hField.idem, hField.created] at hNear
  rw [hc, hNear]
  rfl

/-! ## The five settings -/

/-- The block runs the failure throttle. -/
def RawLocConf.Throttles (conf : RawLocConf) : Prop := 0 < conf.failureLimit.getD 0

instance : DecidablePred RawLocConf.Throttles := fun _ => inferInstanceAs (Decidable (_ < _))

theorem challengeTimeout_bounded :
    BoundedBy (fun _ => True) boundChallengeTimeout 120 (·.challengeTimeout)
      (·.challengeTimeout) where
  idem := clampTo_clampTo (by decide)
  created _ := rfl
  merged _ _ := rfl
  untouched _ _ _ _ _ := rfl
  condition _ _ _ _ _ := rfl

theorem sessionTimeout_bounded :
    BoundedBy (fun _ => True) boundSessionTimeout 3600 (·.sessionTimeout) (·.sessionTimeout) where
  idem t := by
    simp only [boundSessionTimeout_eq]
    omega
  created _ := rfl
  merged _ _ := rfl
  untouched _ _ _ _ _ := rfl
  condition _ _ _ _ _ := rfl

theorem gpgTimeout_bounded :
    BoundedBy (fun _ => True) boundGpgTimeout 2000 (·.gpgTimeout) (·.gpgTimeout) where
  idem := clampTo_clampTo (by decide)
  created _ := rfl
  merged _ _ := rfl
  untouched _ _ _ _ _ := rfl
  condition _ _ _ _ _ := rfl

/-- The limit itself is inherited as it is. -/
theorem failureLimit_bounded :
    BoundedBy (fun _ => True) id 0 (·.failureLimit) (·.failureLimit) where
  idem _ := rfl
  created _ := rfl
  merged _ _ := rfl
  untouched _ _ _ _ _ := rfl
  condition _ _ _ _ _ := rfl

theorem failureWindow_bounded :
    BoundedBy RawLocConf.Throttles boundFailureWindow 60 (·.failureWindow) (·.failureWindow) where
  idem := fallbackTo_fallbackTo (by decide) (by decide)
  created _ := rfl
  merged _ _ := rfl
  untouched _ _ _ _ _ := rfl
  condition _ _ _ _ _ := rfl

theorem failureBanTime_bounded :
    BoundedBy RawLocConf.Throttles boundFailureBanTime 300 (·.failureBanTime)
      (·.failureBanTime) where
  idem := fallbackTo_fallbackTo (by decide) (by decide)
  created _ := rfl
  merged _ _ := rfl
  untouched _ _ _ _ _ := rfl
  condition _ _ _ _ _ := rfl

theorem confOf_failureLimit (h : confOf env http (level :: enclosing) = .ok conf) :
    conf.failureLimit =
      some (nearest 0 (writtenIn (·.failureLimit) http (level :: enclosing))) := by
  exact confOf_bounded failureLimit_bounded h trivial

/-- **Bounded settings under inheritance.** Whatever the enclosing blocks are, a block ends
with the documented bound of the value that the nearest block writes. -/
theorem bounded_settings (h : confOf env http (level :: enclosing) = .ok conf) :
    conf.challengeTimeout = some (max 5 (min 3600
        (nearest 120 (writtenIn (·.challengeTimeout) http (level :: enclosing))))) ∧
      conf.sessionTimeout = some (min 2592000
        (nearest 3600 (writtenIn (·.sessionTimeout) http (level :: enclosing)))) ∧
      conf.gpgTimeout = some (max 1000 (min 60000
        (nearest 2000 (writtenIn (·.gpgTimeout) http (level :: enclosing))))) ∧
      conf.failureLimit =
        some (nearest 0 (writtenIn (·.failureLimit) http (level :: enclosing))) ∧
      (0 < conf.failureLimit.getD 0 →
        conf.failureWindow = some (fallbackTo 1 3600 60
            (nearest 60 (writtenIn (·.failureWindow) http (level :: enclosing)))) ∧
          conf.failureBanTime = some (fallbackTo 1 86400 300
            (nearest 300 (writtenIn (·.failureBanTime) http (level :: enclosing))))) := by
  refine ⟨?_, ?_, ?_, ?_, fun hLimit => ⟨?_, ?_⟩⟩
  · rw [← clampTo_eq (by decide)]
    exact confOf_bounded challengeTimeout_bounded h trivial
  · rw [← boundSessionTimeout_eq]
    exact confOf_bounded sessionTimeout_bounded h trivial
  · rw [← clampTo_eq (by decide)]
    exact confOf_bounded gpgTimeout_bounded h trivial
  · exact confOf_failureLimit h
  · exact confOf_bounded failureWindow_bounded h hLimit
  · exact confOf_bounded failureBanTime_bounded h hLimit

end Setting

/-- The throttle and a lifetime of 90 days are set in `http`, the server is not enabled and
asks for a shorter challenge than there is, the location sets a window of two hours. -/
def sampleHttp : Directives where
  failureLimit := some 2
  failureWindow := some 30
  failureBanTime := some 7
  sessionTimeout := some 7776000

def sampleLevels : List Level :=
  [⟨{ enable := some true, secretFile := some (ascii "session.key"), failureWindow := some 7200 },
      sampleCalls⟩,
    ⟨{ challengeTimeout := some 1 }, sampleCalls⟩]

theorem sample_bounded_settings :
    ∃ conf, confOf sampleEnv sampleHttp sampleLevels = .ok conf ∧ conf.enabled = true ∧
      conf.challengeTimeout = some 5 ∧ conf.sessionTimeout = some 2592000 ∧
      conf.gpgTimeout = some 2000 ∧ conf.failureLimit = some 2 ∧ conf.failureWindow = some 60 ∧
      conf.failureBanTime = some 7 := by
  have hOk : (confOf sampleEnv sampleHttp sampleLevels).isOk = true := by decide +kernel
  cases hConf : confOf sampleEnv sampleHttp sampleLevels with
  | error e =>
      rw [hConf] at hOk
      cases hOk
  | ok conf =>
      obtain ⟨hChallenge, hSession, hGpg, hLimit, hThrottle⟩ := bounded_settings hConf
      obtain ⟨hWindow, hBan⟩ := hThrottle (by rw [hLimit]; decide +kernel)
      refine ⟨conf, rfl, ?_, hChallenge, hSession, hGpg, hLimit, hWindow, hBan⟩
      rw [confOf_enabled hConf]
      decide +kernel

/-! ## What requests may rely on -/

/-- The configuration of an enabled block: its lifetimes are bounded, its zones are there
exactly when its settings use them, and it has a secret. -/
structure LocConf.Settled (plcf : LocConf) : Prop where
  keyring : IsAbsolute plcf.keyring
  gpgPath : IsAbsolute plcf.gpgPath
  challengeTimeout : 5 ≤ plcf.challengeTimeout ∧ plcf.challengeTimeout ≤ 3600
  sessionTimeout : plcf.sessionTimeout ≤ 2592000
  gpgTimeout : 1000 ≤ plcf.gpgTimeout ∧ plcf.gpgTimeout ≤ 60000
  nonceZone : plcf.nonceZone = true ↔ plcf.nonceStorage ≠ .none
  nonceAddr : plcf.nonceStorage = .redis → plcf.nonceAddr ≠ []
  failureZone : plcf.failureZone = true ↔ 0 < plcf.failureLimit
  failureWindow : 0 < plcf.failureLimit →
    1 ≤ plcf.failureWindow ∧ plcf.failureWindow ≤ 3600
  failureBanTime : 0 < plcf.failureLimit →
    1 ≤ plcf.failureBanTime ∧ plcf.failureBanTime ≤ 86400
  secret : plcf.secret ≠ []

theorem fallbackTo_mem {lo hi default : Nat} (hLo : lo ≤ default) (hHi : default ≤ hi) (t : Nat) :
    lo ≤ fallbackTo lo hi default t ∧ fallbackTo lo hi default t ≤ hi := by
  rw [fallbackTo_eq]
  split
  · assumption
  · exact ⟨hLo, hHi⟩

/-- Merging leaves no enabled block unsettled. -/
theorem toLocConf_settled {env : ConfEnv} {http : Directives} {level : Level}
    {enclosing : List Level} {conf : RawLocConf}
    (h : confOf env http (level :: enclosing) = .ok conf) (hOn : conf.enabled = true) :
    conf.toLocConf.Settled := by
  obtain ⟨hChallenge, hSession, hGpg, -, hThrottle⟩ := bounded_settings h
  obtain ⟨prev, -, hMerge⟩ := confOf_cons_ok.mp h
  have hChecked := mergeLocConf_checked hMerge hOn
  have hStorage : conf.nonceStorage = some (conf.nonceStorage.getD .memory) := by
    rw [mergeLocConf_frame (·.nonceStorage) (fun _ _ _ _ _ => rfl) hMerge]
    rfl
  refine ⟨hChecked.keyring, hChecked.gpgPath, ?_, ?_, ?_, ?_, ?_, ?_, ?_, ?_, hChecked.secret⟩
  · simp only [RawLocConf.toLocConf, hChallenge, Option.getD_some]
    omega
  · simp only [RawLocConf.toLocConf, hSession, Option.getD_some]
    omega
  · simp only [RawLocConf.toLocConf, hGpg, Option.getD_some]
    omega
  · simp only [RawLocConf.toLocConf, hChecked.nonceZone, decide_eq_true_eq]
    rw [hStorage]
    cases conf.nonceStorage.getD .memory <;> simp
  · intro hRedis
    apply hChecked.nonceAddr
    rw [hStorage]
    exact congrArg some hRedis
  · simp only [RawLocConf.toLocConf, hChecked.failureZone, decide_eq_true_eq]
  · intro hLimit
    simp only [RawLocConf.toLocConf, (hThrottle hLimit).1, Option.getD_some]
    exact fallbackTo_mem (by decide) (by decide) _
  · intro hLimit
    simp only [RawLocConf.toLocConf, (hThrottle hLimit).2, Option.getD_some]
    exact fallbackTo_mem (by decide) (by decide) _

/-- What requests read of an enabled block, in whatever configuration. -/
def LocConf.Merged (plcf : LocConf) : Prop :=
  ∃ env http level enclosing conf, confOf env http (level :: enclosing) = .ok conf ∧
    conf.enabled = true ∧ conf.toLocConf = plcf

theorem LocConf.Merged.settled {plcf : LocConf} (h : plcf.Merged) : plcf.Settled := by
  obtain ⟨env, http, level, enclosing, conf, hConf, hOn, rfl⟩ := h
  exact toLocConf_settled hConf hOn

/-- The failure throttle is only ever called with parameters that its runs allow. -/
theorem throttles_bounded {plcf : LocConf} (h : plcf.Settled) (hZone : plcf.failureZone = true)
    (success : Bool) (s : ThrottleWorld) (i : ThrottleInput)
    (hCall : i.call = .record success plcf.failureLimit plcf.failureWindow plcf.failureBanTime) :
    i.call.Bounded ∧ BanBounded s i := by
  have hLimit := h.failureZone.mp hZone
  have hBan : BanBounded s i := by
    simp only [BanBounded, hCall]
    exact h.failureBanTime hLimit
  rw [hCall]
  exact ⟨⟨hLimit, h.failureWindow hLimit⟩, hBan⟩

end PgpAuth
