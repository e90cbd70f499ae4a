import PgpAuth.Login.Verdict

/-!
# What can be wrong with a verification

A verification says no on three levels: gpg is not believed, the key is refused as
revoked, the challenge is refused. On each level the cause is something the client sent
or something that went wrong on the server, and never both: `not_believed_iff`,
`isRevoked_iff` and `challengeRc_declined_iff` tell the two apart.
-/

namespace PgpAuth

open Lib

section Faults

variable (x : Externals) (plcf : LocConf) (r : Request)

/-- gpg was executed, ended by itself and was heard to its end, and its report has no good
signature. -/
def NoGoodSignature (msg : Bytes) (env : GpgEnv) : Prop :=
  ∃ run, env.gpg plcf.keyring msg = some run ∧ run.exit.isSome = true ∧
    ReadsToEnd run.stream env.turns ∧ ¬LooksGood (cString run.stream)

/-- gpg was not executed; or it was killed, or not heard to its end, and is not believed;
or it vouches for a signature, but the signed text is too long. -/
def GpgFault (msg : Bytes) (env : GpgEnv) : Prop :=
  env.gpg plcf.keyring msg = none ∨
    ∃ run, env.gpg plcf.keyring msg = some run ∧
      ((run.exit = none ∨ ¬ReadsToEnd run.stream env.turns) ∧ ¬run.Trusted env.turns ∨
        LooksGood (cString (captured run.stream env.turns)) ∧ ¬run.PlainFits)

/-- gpg's run is believed. -/
def Believed (msg : Bytes) (env : GpgEnv) : Prop := (env.run plcf.keyring msg).Trusted env.turns

/-- The fingerprint gpg reports. -/
def signer (msg : Bytes) (env : GpgEnv) : Bytes :=
  (statusParse (captured (env.run plcf.keyring msg).stream env.turns)).fpr

/-- The text that was signed, as far as it is kept. -/
def signedText (msg : Bytes) (env : GpgEnv) : Bytes :=
  ((env.run plcf.keyring msg).plain.getD []).take plaintextMax

/-- The revocation list could be consulted and has the fingerprint. -/
def Listed (env : RevocEnv) (cache : RevocCache) (fpr : Bytes) : Prop :=
  plcf.revocationList ≠ [] ∧ fpr ≠ [] ∧
    ∃ cache', revocLoad plcf env cache = some cache' ∧ revocScan (cache'.data.getD []) fpr = true

/-- The revocation list could not be consulted, and the location denies then. -/
def Unconsulted (env : RevocEnv) (cache : RevocCache) (fpr : Bytes) : Prop :=
  plcf.revocationList ≠ [] ∧ fpr ≠ [] ∧ revocLoad plcf env cache = none ∧
    plcf.revocFailOpen = false

/-- The MAC of a challenge is that of no secret of the location. -/
def Forged (t : ChallengeToken) : Prop :=
  ∀ c ∈ macChecks plcf (binding plcf r).1 (binding plcf r).2 .chal t.payload t.mac,
    ¬c.Verifies x.hmac

/-- The challenge is accepted as one of this location and client. -/
def Genuine (env : ConsumeEnv) (t : ChallengeToken) : Prop :=
  MacAccepted x.hmac plcf env.hmacPrevious .chal (binding plcf r).1 (binding plcf r).2 t.payload
    t.mac

/-- The previous secret would have matched, but the MAC under it could not be computed. -/
def RetryFailed (env : ConsumeEnv) (t : ChallengeToken) : Prop :=
  let input := tokenInput plcf (binding plcf r).1 (binding plcf r).2 .chal t.payload
  t.mac ≠ macHex x.hmac plcf.secret input ∧ plcf.secretPrevious ≠ [] ∧
    env.hmacPrevious = false ∧ t.mac = macHex x.hmac plcf.secretPrevious input

def Expired (env : ConsumeEnv) (t : ChallengeToken) : Prop :=
  ngxAtotm t.exp = -1 ∨ ngxAtotm t.exp < env.now

/-- What the nonce store says about a challenge. -/
def storeRc (env : ConsumeEnv) (t : ChallengeToken) (st : NonceState) : Rc :=
  (nonceCheckAndSet x.nonceShm plcf .cleared t.nonce (ngxAtotm t.exp) env.nonce st).1

/-- The challenge is missing, malformed, forged, expired or used. -/
def ChallengeFault (env : ConsumeEnv) (text : Bytes) (st : NonceState) : Prop :=
  challengeOf text = none ∨
    ∃ t, challengeOf text = some t ∧ env.hmac = true ∧
      (Forged x plcf r t ∨
        Genuine x plcf r env t ∧ (Expired env t ∨ storeRc x plcf env t st = .declined))

def RetryFault (env : ConsumeEnv) (text : Bytes) : Prop :=
  ∃ t, challengeOf text = some t ∧ env.hmac = true ∧ RetryFailed x plcf r env t

end Faults

section Layers

variable {x : Externals} {plcf : LocConf} {r : Request}

theorem not_trusted_of_not_executed {turns : List Turn} :
    ¬(⟨[], none, some 127⟩ : GpgRun).Trusted turns := by
  rintro ⟨-, -, ⟨line, hLine, -⟩, -⟩
  have hEmpty : captured [] turns = [] := by
    unfold captured
    split <;> simp
  rw [hEmpty] at hLine
  exact absurd hLine (by simp [cString, strtokLines])

theorem not_believed_iff (plcf : LocConf) (msg : Bytes) (env : GpgEnv) :
    ¬Believed plcf msg env ↔ NoGoodSignature plcf msg env ∨ GpgFault plcf msg env := by
  unfold Believed NoGoodSignature GpgFault GpgEnv.run
  cases hRun : env.gpg plcf.keyring msg with
  | none => simp [not_trusted_of_not_executed]
  | some run =>
      simp only [Option.getD_some, Option.some.injEq, exists_eq_left', reduceCtorEq, false_or]
      by_cases hEnd : ReadsToEnd run.stream env.turns
      · have hFull : ¬Overflows run.stream env.turns :=
          fun h => absurd hEnd.1 (Nat.not_lt.mpr h.1)
        have hCap : captured run.stream env.turns = run.stream := if_pos hEnd
        have hTrust : run.Trusted env.turns ↔ run.PlainFits ∧ LooksGood (cString run.stream) := by
          simp [GpgRun.Trusted, hFull, hCap]
        rw [hTrust, hCap]
        cases run.exit <;> tauto
      · constructor
        · intro h
          exact .inr (.inl ⟨.inr hEnd, h⟩)
        · rintro (h | ⟨-, h⟩ | ⟨-, h⟩)
          · exact absurd h.2.1 hEnd
          · exact h
          · exact fun ht => h ht.2.1

theorem not_gpgFault_of_noGoodSignature {msg : Bytes} {env : GpgEnv}
    (h : NoGoodSignature plcf msg env) : ¬GpgFault plcf msg env := by
  obtain ⟨run, hRun, hExit, hEnd, hBad⟩ := h
  rintro (hNone | ⟨run', hRun', hFault⟩)
  · rw [hRun] at hNone
    cases hNone
  · cases hRun.symm.trans hRun'
    rcases hFault with ⟨hKilled | hCut, -⟩ | ⟨hGood, -⟩
    · rw [hKilled] at hExit
      cases hExit
    · exact hCut hEnd
    · rw [captured, if_pos hEnd] at hGood
      exact hBad hGood

theorem isRevoked_iff (env : RevocEnv) (cache : RevocCache) (fpr : Bytes) :
    (isRevoked plcf env cache fpr).1 = true ↔
      Listed plcf env cache fpr ∨ Unconsulted plcf env cache fpr := by
  unfold isRevoked Listed Unconsulted
  by_cases hOff : plcf.revocationList = [] ∨ fpr = []
  · rw [if_pos hOff]
    rcases hOff with h | h <;> simp [h]
  · rw [if_neg hOff]
    rw [not_or] at hOff
    cases revocLoad plcf env cache with
    | none => simp [hOff.1, hOff.2]
    | some cache' => simp [hOff.1, hOff.2]

theorem not_unconsulted_of_listed {env : RevocEnv} {cache : RevocCache} {fpr : Bytes}
    (h : Listed plcf env cache fpr) : ¬Unconsulted plcf env cache fpr := by
  obtain ⟨-, -, cache', hLoad, -⟩ := h
  rintro ⟨-, -, hNone, -⟩
  rw [hLoad] at hNone
  cases hNone

theorem not_genuine_iff (env : ConsumeEnv) (t : ChallengeToken) :
    ¬Genuine x plcf r env t ↔ Forged x plcf r t ∨ RetryFailed x plcf r env t := by
  unfold Genuine Forged RetryFailed MacAccepted
  rw [matchedPrevious_iff]
  by_cases hNone : plcf.secretPrevious = []
  · simp [macChecks, hNone, MacCheck.Verifies]
  · simp only [macChecks, hNone, if_false, List.mem_cons, List.not_mem_nil, or_false,
      forall_eq_or_imp, forall_eq, MacCheck.Verifies, not_or, ne_eq, not_false_eq_true, true_and]
    cases env.hmacPrevious with
    | false =>
        simp only [Bool.false_eq_true, false_and, not_false_eq_true, and_true, true_and]
        tauto
    | true => simp

theorem not_retryFailed_of_forged {env : ConsumeEnv} {t : ChallengeToken}
    (h : Forged x plcf r t) : ¬RetryFailed x plcf r env t := by
  rintro ⟨-, hPrev, -, hMac⟩
  have hCheck : (⟨plcf.secretPrevious, tokenInput plcf (binding plcf r).1 (binding plcf r).2 .chal
      t.payload, t.mac⟩ : MacCheck) ∈
      macChecks plcf (binding plcf r).1 (binding plcf r).2 .chal t.payload t.mac := by
    simp [macChecks, hPrev]
  exact h _ hCheck hMac

/-- The code of the challenge check, by what is wrong with the challenge. -/
theorem challengeRc_cases (x : Externals) (plcf : LocConf) (r : Request) (env : ConsumeEnv)
    (vr : VerifyResult) (st : NonceState) :
    (challengeOf vr.plaintext = none ∧ challengeRc x plcf r env vr st = .declined) ∨
    ∃ t, challengeOf vr.plaintext = some t ∧
      ((env.hmac = false ∧ challengeRc x plcf r env vr st = .error) ∨
        (env.hmac = true ∧ ¬Genuine x plcf r env t ∧
          challengeRc x plcf r env vr st = .declined) ∨
        (env.hmac = true ∧ Genuine x plcf r env t ∧ Expired env t ∧
          challengeRc x plcf r env vr st = .declined) ∨
        (env.hmac = true ∧ Genuine x plcf r env t ∧ ¬Expired env t ∧
          challengeRc x plcf r env vr st = storeVerdict (storeRc x plcf env t st))) := by
  have hError : ∀ {e}, challengeCheck x.hmac plcf (binding plcf r).1 (binding plcf r).2 env
      vr.plaintext = .error e → challengeRc x plcf r env vr st = e.rc := by
    intro e he
    exact (validateConsume_of_error _ _ _ _ _ _ _ _ he).1
  rcases challengeCheck_cases x.hmac plcf (binding plcf r).1 (binding plcf r).2 env vr.plaintext with
    ⟨hNone, e, he, hrc⟩ | ⟨t, ht, hcase⟩
  · exact .inl ⟨hNone, (hError he).trans hrc⟩
  · refine .inr ⟨t, ht, ?_⟩
    rcases hcase with ⟨hh, e, he, hrc⟩ | ⟨hh, hm, e, he, hrc⟩ | ⟨hh, hm, hx, e, he, hrc⟩ |
      ⟨hh, hm, hx, hok⟩
    · exact .inl ⟨hh, (hError he).trans hrc⟩
    · exact .inr (.inl ⟨hh, hm, (hError he).trans hrc⟩)
    · exact .inr (.inr (.inl ⟨hh, hm, hx, (hError he).trans hrc⟩))
    · refine .inr (.inr (.inr ⟨hh, hm, hx, ?_⟩))
      rw [challengeRc, (validateConsume_of_ok _ _ _ _ _ _ _ _ hok).1,
        (nonceCheckAndSet_congr x.nonceShm plcf vr .cleared t.nonce _ env.nonce st).1]
      rfl

theorem storeVerdict_eq_declined {rc : Rc} : storeVerdict rc = .declined ↔ rc = .declined := by
  cases rc <;> simp [storeVerdict]

theorem challengeRc_declined_iff (x : Externals) (plcf : LocConf) (r : Request)
    (env : ConsumeEnv) (vr : VerifyResult) (st : NonceState) :
    challengeRc x plcf r env vr st = .declined ↔
      ChallengeFault x plcf r env vr.plaintext st ∨ RetryFault x plcf r env vr.plaintext := by
  rcases challengeRc_cases x plcf r env vr st with ⟨hNone, hrc⟩ | ⟨t, ht, hcase⟩
  · simp [hrc, ChallengeFault, hNone]
  · simp only [ChallengeFault, RetryFault, ht, reduceCtorEq, Option.some.injEq, exists_eq_left',
      false_or]
    rcases hcase with ⟨hh, hrc⟩ | ⟨hh, hm, hrc⟩ | ⟨hh, hm, hx, hrc⟩ | ⟨hh, hm, hx, hrc⟩
    · simp [hrc, hh]
    · have hWhy := (not_genuine_iff env t).mp hm
      simp only [hrc, hh, hm, true_and, true_iff, false_and, or_false]
      exact hWhy
    · simp [hrc, hh, hm, hx]
    · have hNo : ¬Forged x plcf r t ∧ ¬RetryFailed x plcf r env t := by
        rw [← not_or, ← not_genuine_iff]
        exact not_not_intro hm
      simp [hrc, hh, hm, hx, hNo.1, hNo.2, storeVerdict_eq_declined]

theorem not_retryFault_of_challengeFault {env : ConsumeEnv} {text : Bytes} {st : NonceState}
    (h : ChallengeFault x plcf r env text st) : ¬RetryFault x plcf r env text := by
  rintro ⟨t, ht, -, hRetry⟩
  rcases h with hNone | ⟨t', ht', -, hWhy⟩
  · rw [ht] at hNone
    cases hNone
  · cases ht.symm.trans ht'
    rcases hWhy with hForged | ⟨hGenuine, -⟩
    · exact not_retryFailed_of_forged hForged hRetry
    · exact (not_genuine_iff env t).mpr (.inr hRetry) hGenuine

theorem grant_rc (hmac : Hmac) (plcf : LocConf) (r : Request) (fpr : Bytes) (env : GrantEnv) :
    (grant hmac plcf r fpr env).1 = .error ∨ (grant hmac plcf r fpr env).1 = .http 303 := by
  unfold grant
  dsimp only
  cases hmacHex hmac env.hmac plcf r .sess (sessionPayload (sessionExp plcf env.now) fpr) with
  | none => simp
  | some mac =>
      dsimp only
      split_ifs <;> simp

end Layers

end PgpAuth
