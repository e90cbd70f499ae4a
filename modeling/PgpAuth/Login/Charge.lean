import PgpAuth.Login.Faults

/-!
# What the throttle is told

A refused login is charged to the client's address, a fault of the server must not be.
`ClientFault` and `ServerFault` say of a submission whose doing its refusal is, from its
body and from what the system does, and `ChargedFault` lists the faults that reach
`verify_finalize` as `NGX_DECLINED` all the same: the submission is charged for
something else than the client's doing in these cases and in no other
(`chargesClientsOnly_iff`).

Seen from the handler on, a refusal the client has earned is charged once, unless it is
made before `auth_submit` runs (`chargedOnce_iff`).
-/

namespace PgpAuth

open Lib

section Submission

variable (x : Externals) (plcf : LocConf) (r : Request)

/-- The submission comes as far as a running gpg. -/
structure ReachesGpg (env : SubmitEnv) : Prop where
  usable : ¬BodyUnusable plcf env.bufs
  bodyAlloc : env.bodyAlloc = true
  clearSigned : verifyPre (submittedMsg env.bufs) = .ok
  vrAlloc : env.vrAlloc = true
  starts : env.verify.gpg.Starts plcf.gpgPath plcf.keyring

/-- The key gpg believes in is refused as revoked. -/
def Revoked (env : SubmitEnv) (met : Met) : Prop :=
  (isRevoked plcf env.verify.post.revoc met.revoc
    (signer plcf (submittedMsg env.bufs) env.verify.gpg)).1 = true

/-- The attempt is refused for something the client is responsible for. -/
def ClientFault (env : SubmitEnv) (met : Met) : Prop :=
  let msg := submittedMsg env.bufs
  BodyUnusable plcf env.bufs ∨
    (¬BodyUnusable plcf env.bufs ∧ env.bodyAlloc = true ∧ verifyPre msg ≠ .ok) ∨
    ReachesGpg plcf env ∧
      (NoGoodSignature plcf msg env.verify.gpg ∨
        Believed plcf msg env.verify.gpg ∧
          (Listed plcf env.verify.post.revoc met.revoc (signer plcf msg env.verify.gpg) ∨
            ¬Revoked plcf env met ∧
              ChallengeFault x plcf r env.verify.post.consume (signedText plcf msg env.verify.gpg)
                met.nonce))

/-- The attempt is refused as a client's failure, for one of these: what gpg ran into, a
revocation list that could not be consulted, a failed retry under the previous secret. -/
def ChargedFault (env : SubmitEnv) (met : Met) : Prop :=
  let msg := submittedMsg env.bufs
  ReachesGpg plcf env ∧
    (GpgFault plcf msg env.verify.gpg ∨
      Believed plcf msg env.verify.gpg ∧
        (Unconsulted plcf env.verify.post.revoc met.revoc (signer plcf msg env.verify.gpg) ∨
          ¬Revoked plcf env met ∧
            RetryFault x plcf r env.verify.post.consume (signedText plcf msg env.verify.gpg)))

/-- The challenge passed its checks, and the nonce store was asked. -/
def AsksStore (env : SubmitEnv) (t : ChallengeToken) : Prop :=
  challengeOf (signedText plcf (submittedMsg env.bufs) env.verify.gpg) = some t ∧
    env.verify.post.consume.hmac = true ∧ Genuine x plcf r env.verify.post.consume t ∧
    ¬Expired env.verify.post.consume t

/-- The session cookie and the redirect could be made. -/
def CookieMade (env : SubmitEnv) : Prop :=
  (grant x.hmac plcf r (signer plcf (submittedMsg env.bufs) env.verify.gpg)
    env.verify.post.grant).1 = .http 303

/-- The attempt is refused for a fault of the server: an allocation or a system call
before gpg, gpg not executed or killed at the deadline, the revocation list, a MAC, the
nonce store, or the making of the cookie. -/
def ServerFault (env : SubmitEnv) (met : Met) : Prop :=
  let msg := submittedMsg env.bufs
  let gpg := env.verify.gpg
  let consume := env.verify.post.consume
  (¬BodyUnusable plcf env.bufs ∧
    (env.bodyAlloc = false ∨ verifyPre msg = .ok ∧
      (env.vrAlloc = false ∨ ¬gpg.Starts plcf.gpgPath plcf.keyring))) ∨
    ReachesGpg plcf env ∧
      (gpg.gpg plcf.keyring msg = none ∨
        (¬Believed plcf msg gpg ∧
          ∃ run, gpg.gpg plcf.keyring msg = some run ∧
            (statusRead run.stream gpg.turns 0).2 = .timedOut) ∨
        Believed plcf msg gpg ∧
          (Unconsulted plcf env.verify.post.revoc met.revoc (signer plcf msg gpg) ∨
            ¬Revoked plcf env met ∧
              ((∃ t, challengeOf (signedText plcf msg gpg) = some t ∧
                  (consume.hmac = false ∨ RetryFailed x plcf r consume t)) ∨
                ∃ t, AsksStore x plcf r env t ∧
                  ((storeRc x plcf consume t met.nonce ≠ .ok ∧
                      storeRc x plcf consume t met.nonce ≠ .declined) ∨
                    storeRc x plcf consume t met.nonce = .ok ∧ ¬CookieMade x plcf r env))))

/-- The attempt is granted. -/
def Granted (env : SubmitEnv) (met : Met) : Prop :=
  ReachesGpg plcf env ∧ Believed plcf (submittedMsg env.bufs) env.verify.gpg ∧
    ¬Revoked plcf env met ∧
    (∃ t, AsksStore x plcf r env t ∧
      storeRc x plcf env.verify.post.consume t met.nonce = .ok) ∧
    CookieMade x plcf r env

/-- A failure is recorded only for something the client is responsible for, and nothing is
recorded for a fault of the server. -/
def ChargesClientsOnly (env : SubmitEnv) (st : Stores) (mid : Interim) : Prop :=
  (false ∈ (submission x plcf r env st mid).records →
      ClientFault x plcf r env (metStores plcf env st mid)) ∧
    (ServerFault x plcf r env (metStores plcf env st mid) →
      (submission x plcf r env st mid).records = [])

end Submission

section Charge

variable {x : Externals} {plcf : LocConf} {r : Request}

/-- The result gpg leaves, in terms of its run. -/
theorem gpgVerify_of_starts (msg : Bytes) {env : GpgEnv}
    (hs : env.Starts plcf.gpgPath plcf.keyring) :
    (gpgVerify plcf.gpgPath plcf.keyring msg env).1 = .ok ∧
      ((gpgVerify plcf.gpgPath plcf.keyring msg env).2.valid = true ↔ Believed plcf msg env) ∧
      (Believed plcf msg env →
        (gpgVerify plcf.gpgPath plcf.keyring msg env).2.fpr = signer plcf msg env) ∧
      (gpgVerify plcf.gpgPath plcf.keyring msg env).2.plaintext = signedText plcf msg env := by
  refine ⟨?_, ?_, fun ht => gpgVerify_fpr hs ht, gpgVerify_plaintext hs⟩
  · rcases gpgVerify_cases plcf.gpgPath plcf.keyring msg env with ⟨-, hv⟩ | ⟨hNo, -⟩
    · rw [hv]
    · exact absurd hs hNo
  · rw [gpgVerify_valid]
    exact and_iff_right hs

/-- A submission that reaches gpg, by what is found then. -/
theorem submissionRc_of_reaches {env : SubmitEnv} (h : ReachesGpg plcf env) (met : Met) :
    ∃ vr : VerifyResult,
      vr.plaintext = signedText plcf (submittedMsg env.bufs) env.verify.gpg ∧
      ((¬Believed plcf (submittedMsg env.bufs) env.verify.gpg ∧
          submissionRc x plcf r env met = .declined) ∨
        (Believed plcf (submittedMsg env.bufs) env.verify.gpg ∧ Revoked plcf env met ∧
          submissionRc x plcf r env met = .declined) ∨
        (Believed plcf (submittedMsg env.bufs) env.verify.gpg ∧ ¬Revoked plcf env met ∧
          submissionRc x plcf r env met =
            if challengeRc x plcf r env.verify.post.consume vr met.nonce ≠ .ok then
              challengeRc x plcf r env.verify.post.consume vr met.nonce
            else (grant x.hmac plcf r (signer plcf (submittedMsg env.bufs) env.verify.gpg)
              env.verify.post.grant).1)) := by
  obtain ⟨hOk, hValid, hFpr, hText⟩ := gpgVerify_of_starts (submittedMsg env.bufs) h.starts
  refine ⟨_, hText, ?_⟩
  have hRc : submissionRc x plcf r env met = verdictRc x plcf r env.verify.post
      (gpgVerify plcf.gpgPath plcf.keyring (submittedMsg env.bufs) env.verify.gpg).2 met := by
    simp [submissionRc, verifyRc, h.usable, h.bodyAlloc, h.clearSigned, h.vrAlloc, hOk]
  rw [hRc, verdictRc]
  by_cases ht : Believed plcf (submittedMsg env.bufs) env.verify.gpg
  · have hTrue := hValid.mpr ht
    rw [hFpr ht, if_neg (by rw [hTrue]; decide)]
    by_cases hRevoked : Revoked plcf env met
    · exact .inr (.inl ⟨ht, hRevoked, if_pos hRevoked⟩)
    · exact .inr (.inr ⟨ht, hRevoked, if_neg hRevoked⟩)
  · have hFalse : (gpgVerify plcf.gpgPath plcf.keyring (submittedMsg env.bufs)
        env.verify.gpg).2.valid = false := by
      rw [← Bool.not_eq_true, hValid]
      exact ht
    exact .inl ⟨ht, if_pos hFalse⟩

/-- A submission that does not reach gpg is refused for its body, or fails. -/
theorem submissionRc_of_not_reaches {env : SubmitEnv} (h : ¬ReachesGpg plcf env) (met : Met) :
    (submissionRc x plcf r env met = .declined ∧
        (BodyUnusable plcf env.bufs ∨ ¬BodyUnusable plcf env.bufs ∧ env.bodyAlloc = true ∧
          verifyPre (submittedMsg env.bufs) ≠ .ok)) ∨
      (submissionRc x plcf r env met = .error ∧ ¬BodyUnusable plcf env.bufs ∧
        ¬(env.bodyAlloc = true ∧ verifyPre (submittedMsg env.bufs) ≠ .ok)) := by
  unfold submissionRc
  by_cases hBody : BodyUnusable plcf env.bufs
  · simp [hBody]
  · cases hAlloc : env.bodyAlloc with
    | false => simp [hBody]
    | true =>
        by_cases hPre : verifyPre (submittedMsg env.bufs) = .ok
        · cases hVr : env.vrAlloc with
          | false => simp [hBody, hPre]
          | true =>
              have hs : ¬env.verify.gpg.Starts plcf.gpgPath plcf.keyring :=
                fun hs => h ⟨hBody, hAlloc, hPre, hVr, hs⟩
              rcases gpgVerify_cases plcf.gpgPath plcf.keyring (submittedMsg env.bufs)
                env.verify.gpg with ⟨hYes, -⟩ | ⟨-, hrc, -⟩
              · exact absurd hYes hs
              · simp [hBody, hPre, verifyRc, hrc]
        · simp [hBody, hPre]

/-- A submission is refused with `NGX_DECLINED` for the client's faults and for those that
are charged to it. -/
theorem submissionRc_declined_iff (env : SubmitEnv) (met : Met) :
    submissionRc x plcf r env met = .declined ↔
      ClientFault x plcf r env met ∨ ChargedFault x plcf r env met := by
  unfold ClientFault ChargedFault
  by_cases hReach : ReachesGpg plcf env
  · obtain ⟨vr, hText, hcase⟩ := submissionRc_of_reaches (x := x) (r := r) hReach met
    simp only [hReach, hReach.usable, hReach.clearSigned, not_false_eq_true, ne_eq,
      not_true_eq_false, and_false, true_and, false_or]
    have hWhy := not_believed_iff plcf (submittedMsg env.bufs) env.verify.gpg
    rcases hcase with ⟨ht, hrc⟩ | ⟨ht, hRevoked, hrc⟩ | ⟨ht, hRevoked, hrc⟩
    · simp only [hrc, ht, false_and, or_false, true_iff]
      exact hWhy.mp ht
    · have hList := (isRevoked_iff _ _ _).mp hRevoked
      simp only [hrc, ht, hRevoked, not_true_eq_false, false_and, or_false, true_and, true_iff]
      tauto
    · have hNo : ¬NoGoodSignature plcf (submittedMsg env.bufs) env.verify.gpg ∧
          ¬GpgFault plcf (submittedMsg env.bufs) env.verify.gpg := by
        rw [← not_or, ← hWhy]
        exact not_not_intro ht
      have hList : ¬Listed plcf env.verify.post.revoc met.revoc
            (signer plcf (submittedMsg env.bufs) env.verify.gpg) ∧
          ¬Unconsulted plcf env.verify.post.revoc met.revoc
            (signer plcf (submittedMsg env.bufs) env.verify.gpg) := by
        rw [← not_or, ← isRevoked_iff]
        exact hRevoked
      have hChal := challengeRc_declined_iff x plcf r env.verify.post.consume vr met.nonce
      rw [hText] at hChal
      simp only [hNo.1, hNo.2, hList.1, hList.2, ht, hRevoked, not_false_eq_true, true_and, false_or]
      rw [← hChal, hrc]
      by_cases hOk : challengeRc x plcf r env.verify.post.consume vr met.nonce = .ok
      · rcases grant_rc x.hmac plcf r (signer plcf (submittedMsg env.bufs) env.verify.gpg)
          env.verify.post.grant with hg | hg
        · simp [hOk, hg]
        · simp [hOk, hg]
      · simp [hOk]
  · simp only [hReach, false_and, or_false]
    rcases submissionRc_of_not_reaches (x := x) (r := r) hReach met with ⟨hrc, hWhy⟩ | ⟨hrc, hWhy⟩
    · simp only [hrc, true_iff]
      exact hWhy
    · simp only [hrc, reduceCtorEq, false_iff, not_or]
      exact ⟨hWhy.1, fun h => hWhy.2 h.2⟩

theorem not_chargedFault_of_clientFault {env : SubmitEnv} {met : Met}
    (h : ClientFault x plcf r env met) : ¬ChargedFault x plcf r env met := by
  rintro ⟨hReach, hCharged⟩
  rcases h with hBody | ⟨-, -, hPre⟩ | ⟨-, hClient⟩
  · exact hReach.usable hBody
  · exact hPre hReach.clearSigned
  · have hWhy := not_believed_iff plcf (submittedMsg env.bufs) env.verify.gpg
    rcases hClient with hBad | ⟨ht, hClient⟩
    · rcases hCharged with hFault | ⟨ht, -⟩
      · exact not_gpgFault_of_noGoodSignature hBad hFault
      · exact hWhy.mpr (.inl hBad) ht
    · rcases hCharged with hFault | ⟨-, hCharged⟩
      · exact hWhy.mpr (.inr hFault) ht
      · rcases hClient with hListed | ⟨hNot, hChal⟩
        · rcases hCharged with hUn | ⟨hNot, -⟩
          · exact not_unconsulted_of_listed hListed hUn
          · exact hNot ((isRevoked_iff _ _ _).mpr (.inl hListed))
        · rcases hCharged with hUn | ⟨-, hRetry⟩
          · exact hNot ((isRevoked_iff _ _ _).mpr (.inr hUn))
          · exact not_retryFault_of_challengeFault hChal hRetry

theorem challengeRc_range (env : ConsumeEnv) (vr : VerifyResult) (st : NonceState) :
    challengeRc x plcf r env vr st = .ok ∨ challengeRc x plcf r env vr st = .declined ∨
      challengeRc x plcf r env vr st = .error ∨ challengeRc x plcf r env vr st = .abort := by
  rcases challengeRc_cases x plcf r env vr st with ⟨-, hrc⟩ | ⟨t, -, hcase⟩
  · simp [hrc]
  · rcases hcase with ⟨-, hrc⟩ | ⟨-, -, hrc⟩ | ⟨-, -, -, hrc⟩ | ⟨-, -, -, hrc⟩
    · simp [hrc]
    · simp [hrc]
    · simp [hrc]
    · rw [hrc]
      cases storeRc x plcf env t st <;> simp [storeVerdict]

theorem submissionRc_range (env : SubmitEnv) (met : Met) :
    submissionRc x plcf r env met = .declined ∨ submissionRc x plcf r env met = .error ∨
      submissionRc x plcf r env met = .abort ∨ submissionRc x plcf r env met = .http 303 := by
  by_cases hReach : ReachesGpg plcf env
  · obtain ⟨vr, -, ⟨-, hrc⟩ | ⟨-, -, hrc⟩ | ⟨-, -, hrc⟩⟩ :=
      submissionRc_of_reaches (x := x) (r := r) hReach met
    · exact .inl hrc
    · exact .inl hrc
    · rw [hrc]
      rcases challengeRc_range (x := x) (r := r) env.verify.post.consume vr met.nonce with
        h | h | h | h
      · rw [if_neg (not_not_intro h)]
        rcases grant_rc x.hmac plcf r (signer plcf (submittedMsg env.bufs) env.verify.gpg)
          env.verify.post.grant with hg | hg
        · exact .inr (.inl hg)
        · exact .inr (.inr (.inr hg))
      · simp [h]
      · simp [h]
      · simp [h]
  · rcases submissionRc_of_not_reaches (x := x) (r := r) hReach met with ⟨hrc, -⟩ | ⟨hrc, -⟩
    · exact .inl hrc
    · exact .inr (.inl hrc)

theorem false_mem_recordsOf (env : SubmitEnv) (met : Met) :
    false ∈ recordsOf (submissionRc x plcf r env met) ↔
      submissionRc x plcf r env met = .declined := by
  rcases submissionRc_range (x := x) (r := r) env met with h | h | h | h <;> rw [h] <;> decide

theorem challengeRc_of_hmac_failed {env : ConsumeEnv} {vr : VerifyResult} {t : ChallengeToken}
    (ht : challengeOf vr.plaintext = some t) (hh : env.hmac = false) (st : NonceState) :
    challengeRc x plcf r env vr st = .error := by
  rcases challengeRc_cases x plcf r env vr st with ⟨hNone, -⟩ | ⟨t', -, hcase⟩
  · rw [ht] at hNone
    cases hNone
  · simp only [hh, Bool.false_eq_true, false_and, or_false, true_and] at hcase
    exact hcase

theorem challengeRc_of_asks {env : SubmitEnv} {vr : VerifyResult} {t : ChallengeToken}
    (hText : vr.plaintext = signedText plcf (submittedMsg env.bufs) env.verify.gpg)
    (h : AsksStore x plcf r env t) (st : NonceState) :
    challengeRc x plcf r env.verify.post.consume vr st =
      storeVerdict (storeRc x plcf env.verify.post.consume t st) := by
  obtain ⟨ht, hh, hm, hx⟩ := h
  rw [← hText] at ht
  rcases challengeRc_cases x plcf r env.verify.post.consume vr st with ⟨hNone, -⟩ | ⟨t', ht', hcase⟩
  · rw [ht] at hNone
    cases hNone
  · cases ht.symm.trans ht'
    simp only [hh, hm, hx, Bool.true_eq_false, not_true_eq_false, not_false_eq_true, false_and,
      true_and, false_or] at hcase
    exact hcase

/-- A fault before gpg runs is answered as an error. -/
theorem submissionRc_of_early_fault {env : SubmitEnv} (met : Met)
    (hUsable : ¬BodyUnusable plcf env.bufs)
    (hWhy : env.bodyAlloc = false ∨ verifyPre (submittedMsg env.bufs) = .ok ∧
      (env.vrAlloc = false ∨ ¬env.verify.gpg.Starts plcf.gpgPath plcf.keyring)) :
    submissionRc x plcf r env met = .error := by
  have hReach : ¬ReachesGpg plcf env := by
    intro hReach
    rcases hWhy with h | ⟨-, h | h⟩
    · rw [hReach.bodyAlloc] at h
      cases h
    · rw [hReach.vrAlloc] at h
      cases h
    · exact h hReach.starts
  rcases submissionRc_of_not_reaches (x := x) (r := r) hReach met with
    ⟨-, hBody | ⟨-, hAlloc, hPre⟩⟩ | ⟨hrc, -⟩
  · exact absurd hBody hUsable
  · rcases hWhy with h | ⟨hOk, -⟩
    · rw [hAlloc] at h
      cases h
    · exact absurd hOk hPre
  · exact hrc

/-- With a believed signature by a key that passes, the challenge decides. -/
theorem submissionRc_of_passes {env : SubmitEnv} {met : Met} (hReach : ReachesGpg plcf env)
    (hBelieved : Believed plcf (submittedMsg env.bufs) env.verify.gpg)
    (hRevoked : ¬Revoked plcf env met) :
    ∃ vr : VerifyResult,
      vr.plaintext = signedText plcf (submittedMsg env.bufs) env.verify.gpg ∧
      submissionRc x plcf r env met =
        if challengeRc x plcf r env.verify.post.consume vr met.nonce ≠ .ok then
          challengeRc x plcf r env.verify.post.consume vr met.nonce
        else (grant x.hmac plcf r (signer plcf (submittedMsg env.bufs) env.verify.gpg)
          env.verify.post.grant).1 := by
  obtain ⟨vr, hText, ⟨hNo, -⟩ | ⟨-, hNo, -⟩ | ⟨-, -, hrc⟩⟩ :=
    submissionRc_of_reaches (x := x) (r := r) hReach met
  · exact absurd hBelieved hNo
  · exact absurd hNo hRevoked
  · exact ⟨vr, hText, hrc⟩

/-- A nonce store that cannot answer and a cookie that cannot be made are faults that are
answered as such. -/
theorem submissionRc_of_late_fault {env : SubmitEnv} {met : Met} {t : ChallengeToken}
    (hReach : ReachesGpg plcf env)
    (hBelieved : Believed plcf (submittedMsg env.bufs) env.verify.gpg)
    (hRevoked : ¬Revoked plcf env met) (hAsk : AsksStore x plcf r env t)
    (hWhy : (storeRc x plcf env.verify.post.consume t met.nonce ≠ .ok ∧
        storeRc x plcf env.verify.post.consume t met.nonce ≠ .declined) ∨
      storeRc x plcf env.verify.post.consume t met.nonce = .ok ∧ ¬CookieMade x plcf r env) :
    submissionRc x plcf r env met = .error ∨ submissionRc x plcf r env met = .abort := by
  obtain ⟨vr, hText, hrc⟩ := submissionRc_of_passes hReach hBelieved hRevoked
  rw [challengeRc_of_asks hText hAsk] at hrc
  rcases hWhy with ⟨hOk, hUsed⟩ | ⟨hOk, hCookie⟩
  · have hAbort : storeVerdict (storeRc x plcf env.verify.post.consume t met.nonce) = .abort := by
      revert hOk hUsed
      cases storeRc x plcf env.verify.post.consume t met.nonce <;> simp [storeVerdict]
    rw [hAbort] at hrc
    exact .inr hrc
  · rw [hOk] at hrc
    refine .inl (hrc.trans ?_)
    exact (grant_rc _ _ _ _ _).resolve_right hCookie

/-- A fault of the server is answered as one, or charged. -/
theorem serverFault_rc {env : SubmitEnv} {met : Met} (h : ServerFault x plcf r env met) :
    recordsOf (submissionRc x plcf r env met) = [] ∨ ChargedFault x plcf r env met := by
  have hQuiet : submissionRc x plcf r env met = .error ∨ submissionRc x plcf r env met = .abort →
      recordsOf (submissionRc x plcf r env met) = [] := by
    rintro (h | h) <;> rw [h] <;> rfl
  rcases h with ⟨hUsable, hWhy⟩ | ⟨hReach, hWhy⟩
  · exact .inl (hQuiet (.inl (submissionRc_of_early_fault met hUsable hWhy)))
  · rcases hWhy with hExec | ⟨hNot, run, hRun, hTime⟩ | ⟨ht, hUn | ⟨hRevoked, hWhy⟩⟩
    · exact .inr ⟨hReach, .inl (.inl hExec)⟩
    · refine .inr ⟨hReach, .inl (.inr ⟨run, hRun, .inl ⟨.inr ?_, ?_⟩⟩)⟩
      · intro hEnd
        rw [(statusRead_eof run.stream env.verify.gpg.turns).mpr hEnd] at hTime
        cases hTime
      · simpa [Believed, GpgEnv.run, hRun] using hNot
    · exact .inr ⟨hReach, .inr ⟨ht, .inl hUn⟩⟩
    · rcases hWhy with ⟨t, hChal, hWhy⟩ | ⟨t, hAsk, hWhy⟩
      · cases hh : env.verify.post.consume.hmac with
        | false =>
            obtain ⟨vr, hText, hrc⟩ := submissionRc_of_passes (x := x) (r := r) hReach ht hRevoked
            rw [← hText] at hChal
            rw [challengeRc_of_hmac_failed hChal hh] at hrc
            exact .inl (hQuiet (.inl hrc))
        | true =>
            simp only [hh, Bool.true_eq_false, false_or] at hWhy
            exact .inr ⟨hReach, .inr ⟨ht, .inr ⟨hRevoked, t, hChal, hh, hWhy⟩⟩⟩
      · exact .inl (hQuiet (submissionRc_of_late_fault hReach ht hRevoked hAsk hWhy))

/-- A submission is charged to the client for its own doing only, and a fault of the server
is charged to nobody, exactly where no `ChargedFault` happens. -/
theorem chargesClientsOnly_iff (x : Externals) (plcf : LocConf) (r : Request) (env : SubmitEnv)
    (st : Stores) (mid : Interim) :
    ChargesClientsOnly x plcf r env st mid ↔
      ¬ChargedFault x plcf r env (metStores plcf env st mid) := by
  unfold ChargesClientsOnly
  rw [submission_records, false_mem_recordsOf, submissionRc_declined_iff]
  constructor
  · rintro ⟨hOnly, -⟩ hCharged
    exact not_chargedFault_of_clientFault (hOnly (.inr hCharged)) hCharged
  · intro hNo
    refine ⟨fun h => h.resolve_right hNo, fun hServer => ?_⟩
    exact (serverFault_rc hServer).resolve_right hNo

/-- The sample location with the throttle on. -/
def throttledConf : LocConf :=
  { sampleConf with failureZone := true, failureLimit := 5, threadPool := false }

/-- A body that looks clear-signed, and a gpg binary that cannot be executed. -/
def unexecuted : SubmitEnv where
  bufs := [.memory clearSignedTag]
  bodyAlloc := true
  vrAlloc := true
  taskAlloc := true
  taskPost := true
  verify := ⟨{ sampleSigned with gpg := fun _ _ => none }, calmPost 900 [], calmFinalize 900⟩

/-- The failed `execve` is charged to the client. -/
theorem unexecuted_gpg_is_charged :
    ¬ChargesClientsOnly sampleExternals throttledConf sampleRequest unexecuted .empty
      ⟨.empty, .empty⟩ := by
  rintro ⟨-, hServer⟩
  have hReach : ReachesGpg throttledConf unexecuted :=
    ⟨by decide +kernel, rfl, by decide +kernel, rfl,
      ⟨by decide +kernel, by decide +kernel, rfl, rfl, rfl, rfl, rfl⟩⟩
  exact absurd (hServer (.inr ⟨hReach, .inl rfl⟩)) (by decide +kernel)

/-! ## Whole logins -/

theorem submissionRc_of_granted {env : SubmitEnv} {met : Met} (h : Granted x plcf r env met) :
    submissionRc x plcf r env met = .http 303 := by
  obtain ⟨hReach, ht, hRevoked, ⟨t, hAsk, hOk⟩, hCookie⟩ := h
  obtain ⟨vr, hText, hrc⟩ := submissionRc_of_passes hReach ht hRevoked
  rw [challengeRc_of_asks hText hAsk, hOk] at hrc
  exact hrc.trans hCookie

end Charge

section Login

variable (x : Externals) (plcf : LocConf) (r : Request)

/-- A submission to a location with the throttle on, from an address that is not banned and
without a valid session. -/
structure TakenUp (env : LoginEnv) (st : Stores) : Prop where
  enable : plcf.enable = true
  throttle : plcf.failureZone = true
  main : r.main = true
  submission : isSubmission r = true
  session : (checkSession x.hmac plcf r env.handler.session st.revoc).1 ≠ .ok
  ban : throttleIsBanned x.throttleShm (plcf.throttleZone? st.throttle) r env.handler.now = .ok

/-- The body reader itself turns the client away with a status in the 400s, at once or
later on. -/
def ReaderRefuses (env : LoginEnv) : Prop :=
  ∃ status, 400 ≤ status ∧ status < 500 ∧
    (env.handler.readBody = .http status ∨
      env.handler.readBody.code < specialResponse ∧ env.lateRead = some (.http status))

/-- The body is read and handed over. -/
def BodyDelivered (env : LoginEnv) : Prop :=
  env.handler.readBody.code < specialResponse ∧ env.lateRead = none

/-- A login refused for something the client is responsible for. -/
def LoginRefused (env : LoginEnv) : Prop :=
  bodyTooLarge plcf r = true ∨
    bodyTooLarge plcf r = false ∧
      (ReaderRefuses env ∨
        BodyDelivered env ∧
          ClientFault x plcf r env.submit (metStores plcf env.submit env.stores env.mid))

def LoginGranted (env : LoginEnv) : Prop :=
  bodyTooLarge plcf r = false ∧ BodyDelivered env ∧
    Granted x plcf r env.submit (metStores plcf env.submit env.stores env.mid)

/-- One failure is recorded for a refused login, one success for a granted one. -/
def ChargedOnce (env : LoginEnv) (st : Stores) : Prop :=
  (LoginRefused x plcf r env → loginRecords x plcf r env st = [false]) ∧
    (LoginGranted x plcf r env → loginRecords x plcf r env st = [true])

variable {x plcf r}

theorem loginRecords_of_delivered {env : LoginEnv} {st : Stores}
    (hRead : (authHandler x plcf r env.handler st).reading = true) (hLate : env.lateRead = none) :
    loginRecords x plcf r env st =
      recordsOf (submissionRc x plcf r env.submit
        (metStores plcf env.submit env.stores env.mid)) := by
  rw [loginRecords, if_pos hRead, hLate]
  exact submission_records _ _ _

theorem loginRecords_of_early {env : LoginEnv} {st : Stores}
    (hReading : (authHandler x plcf r env.handler st).reading = true ↔
      bodyTooLarge plcf r = false ∧ env.handler.readBody.code < specialResponse)
    (h : bodyTooLarge plcf r = true ∨ ReaderRefuses env) : loginRecords x plcf r env st = [] := by
  unfold loginRecords
  split
  · rename_i hRead
    obtain ⟨hSmall, hCode⟩ := hReading.mp hRead
    rcases h with hLarge | ⟨status, hLow, -, hNow | ⟨-, hLate⟩⟩
    · rw [hSmall] at hLarge
      cases hLarge
    · rw [hNow] at hCode
      simp only [Rc.code, specialResponse] at hCode
      omega
    · rw [hLate]
  · rfl

/-- Of the logins that the handler takes up, those and only those are accounted for that it
does not refuse by their length and whose body nginx does not refuse. -/
theorem chargedOnce_iff (x : Externals) (plcf : LocConf) (r : Request) (env : LoginEnv)
    (st : Stores) (h : TakenUp x plcf r env st) :
    ChargedOnce x plcf r env st ↔ ¬(bodyTooLarge plcf r = true ∨ ReaderRefuses env) := by
  have hReading := reading_iff h.enable h.main h.submission h.session h.ban
  constructor
  · rintro ⟨hOnce, -⟩ hEarly
    have hRefused : LoginRefused x plcf r env := by
      cases hLarge : bodyTooLarge plcf r with
      | true => exact .inl hLarge
      | false => exact .inr ⟨hLarge, .inl (hEarly.resolve_left (by simp [hLarge]))⟩
    have hNone := loginRecords_of_early hReading hEarly
    rw [hOnce hRefused] at hNone
    cases hNone
  · intro hNo
    rw [not_or, Bool.not_eq_true] at hNo
    obtain ⟨hSmall, hReader⟩ := hNo
    constructor
    · rintro (hLarge | ⟨-, hRefuses | ⟨hBody, hClient⟩⟩)
      · rw [hSmall] at hLarge
        cases hLarge
      · exact absurd hRefuses hReader
      · have hRc := (submissionRc_declined_iff _ _).mpr (.inl hClient)
        rw [loginRecords_of_delivered (hReading.mpr ⟨hSmall, hBody.1⟩) hBody.2, hRc]
        rfl
    · rintro ⟨-, hBody, hGranted⟩
      rw [loginRecords_of_delivered (hReading.mpr ⟨hSmall, hBody.1⟩) hBody.2,
        submissionRc_of_granted hGranted]
      rfl

end Login

/-- A login whose body arrives as `bufs`, without a session cookie. -/
def calmLogin (bufs : List BodyBuf) : LoginEnv where
  handler := ⟨⟨⟨true, true⟩, true, 900, ⟨none, false, false, none⟩⟩, 900, .ok, .ok,
    calmChallenge none 900⟩
  lateRead := none
  submit := { unexecuted with bufs := bufs }
  stores := .empty
  mid := ⟨.empty, .empty⟩

theorem takenUp_calmLogin (length : Int) :
    TakenUp sampleExternals throttledConf { sampleRequest with contentLength := length }
      (calmLogin []) .empty :=
  ⟨rfl, rfl, rfl, rfl, nofun, rfl⟩

/-- A submission without a body is charged once. -/
theorem empty_login_is_charged :
    ChargedOnce sampleExternals throttledConf { sampleRequest with contentLength := 500 }
        (calmLogin []) .empty ∧
      loginRecords sampleExternals throttledConf { sampleRequest with contentLength := 500 }
        (calmLogin []) .empty = [false] := by
  refine ⟨?_, by decide +kernel⟩
  refine (chargedOnce_iff sampleExternals throttledConf { sampleRequest with contentLength := 500 }
    (calmLogin []) .empty (takenUp_calmLogin 500)).mpr ?_
  rintro (hLarge | ⟨status, -, -, hNow | ⟨-, hLate⟩⟩)
  · exact absurd hLarge (by decide +kernel)
  · cases hNow
  · cases hLate

/-- A body announced with 20000 bytes is refused and not charged. -/
theorem large_login_is_not_charged :
    TakenUp sampleExternals throttledConf { sampleRequest with contentLength := 20000 }
        (calmLogin []) .empty ∧
      ¬ChargedOnce sampleExternals throttledConf { sampleRequest with contentLength := 20000 }
        (calmLogin []) .empty := by
  refine ⟨takenUp_calmLogin 20000, ?_⟩
  rintro ⟨hRefused, -⟩
  exact absurd (hRefused (.inl (by decide +kernel))) (by decide +kernel)

end PgpAuth
