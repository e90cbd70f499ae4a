import PgpAuth.Login.Handler

/-!
# The code of a submission

Both modes come to the same code: `submissionRc` says which, from the body, what the
system does, and the stores the verification meets. `submission_records` is the throttle's
view of it.
-/

namespace PgpAuth

open Lib

section Code

variable (x : Externals) (plcf : LocConf) (r : Request)

/-- What a verification meets: the nonce store, and the worker's revocation cache. -/
structure Met where
  nonce : NonceState
  revoc : RevocCache
  deriving DecidableEq, Repr

/-- In the thread pool, these are the stores the task finds. -/
def metStores (env : SubmitEnv) (st : Stores) (mid : Interim) : Met :=
  if plcf.threadPool ∧ env.taskAlloc ∧ env.taskPost then ⟨mid.nonce, mid.stores.revoc⟩
  else ⟨st.nonce, st.revoc⟩

/-- Result of the challenge check for a verdict of gpg. -/
def challengeRc (env : ConsumeEnv) (vr : VerifyResult) (st : NonceState) : Rc :=
  (validateConsume x.hmac plcf (binding plcf r).1 (binding plcf r).2 x.nonceShm env vr st).1

/-- The code of a verification after gpg, in either mode. -/
def verdictRc (env : PostEnv) (vr : VerifyResult) (met : Met) : Rc :=
  if vr.valid = false then .declined
  else if (isRevoked plcf env.revoc met.revoc vr.fpr).1 then .declined
  else if challengeRc x plcf r env.consume vr met.nonce ≠ .ok then
    challengeRc x plcf r env.consume vr met.nonce
  else (grant x.hmac plcf r vr.fpr env.grant).1

/-- The code of a verification, gpg included. -/
def verifyRc (msg : Bytes) (gpg : GpgEnv) (post : PostEnv) (met : Met) : Rc :=
  let out := gpgVerify plcf.gpgPath plcf.keyring msg gpg
  if out.1 ≠ .ok then .error else verdictRc x plcf r post out.2 met

/-- The calls of `throttle_record` for a code. -/
def recordsOf (rc : Rc) : List Bool := if rc = .abort ∨ rc = .error then [] else [rc == .http 303]

/-- No body, a body in a file, or one over the cap. -/
def BodyUnusable (bufs : List BodyBuf) : Prop :=
  bufs = [] ∨ .inFile ∈ bufs ∨ plcf.maxBodySize < (bufs.flatMap BodyBuf.bytes).length

instance (bufs : List BodyBuf) : Decidable (BodyUnusable plcf bufs) :=
  inferInstanceAs (Decidable (_ ∨ _))

/-- The message of a body that can be used. -/
def submittedMsg (bufs : List BodyBuf) : Bytes := signedMsg (bufs.flatMap BodyBuf.bytes)

/-- The code of a submission; a failed allocation of the result is answered 500 at once,
as `error` is. -/
def submissionRc (env : SubmitEnv) (met : Met) : Rc :=
  if BodyUnusable plcf env.bufs then .declined
  else if env.bodyAlloc = false then .error
  else if verifyPre (submittedMsg env.bufs) ≠ .ok then .declined
  else if env.vrAlloc = false then .error
  else verifyRc x plcf r (submittedMsg env.bufs) env.verify.gpg env.verify.post met

end Code

section Records

variable {x : Externals} {plcf : LocConf} {r : Request}

theorem finish_records (rc : Rc) (headers : Headers) (events : List Event) (diag : Option Diag)
    (env : FinalizeEnv) (st : Stores) :
    (finish x plcf r rc headers events diag env st).records = recordsOf rc := by
  unfold finish verifyFinalize recordsOf
  by_cases hAbort : rc = .abort
  · simp [hAbort]
  · by_cases hError : rc = .error
    · simp [hError]
    · simp only [hAbort, hError, if_false, or_self]
      split_ifs <;> rfl

/-- The code of `verifyPost`, from the challenge check it relies on. -/
theorem verifyPost_rc {env : PostEnv} {vr vr' : VerifyResult} {st : Stores} {met : Met}
    (hVerdict : vr.verdict = vr'.verdict) (hRevoc : st.revoc = met.revoc)
    (hChal : (challengeVerdict x plcf r env.consume vr st.nonce).1 =
      challengeRc x plcf r env.consume vr' met.nonce)
    (hFpr : (challengeVerdict x plcf r env.consume vr st.nonce).2.1.verdict = vr.verdict) :
    (verifyPost x plcf r env vr st).rc = verdictRc x plcf r env vr' met := by
  simp only [VerifyResult.verdict, Prod.mk.injEq] at hVerdict hFpr
  unfold verifyPost verdictRc
  rw [hVerdict.1, hVerdict.2.1, hRevoc]
  by_cases hValid : vr'.valid = false
  · simp [hValid]
  · by_cases hRevoked : (isRevoked plcf env.revoc met.revoc vr'.fpr).1 = true
    · simp [hValid, hRevoked]
    · simp only [hValid, hRevoked, if_false, hChal, hFpr.2.1, hVerdict.2.1, Bool.false_eq_true]
      by_cases hOk : challengeRc x plcf r env.consume vr' met.nonce = .ok
      · simp [hOk]
      · simp [hOk]

theorem readBody_eq (plcf : LocConf) (bufs : List BodyBuf) (alloc : Bool) :
    readBody bufs plcf.maxBodySize alloc =
      if BodyUnusable plcf bufs then .error .declined
      else if alloc = false then .error .error
      else .ok (bufs.flatMap BodyBuf.bytes) := by
  unfold readBody BodyUnusable
  split_ifs <;> simp_all

theorem verifyInline_records (msg : Bytes) (env : VerifyEnv) (st : Stores) :
    (verifyInline x plcf r msg env st).records =
      recordsOf (verifyRc x plcf r msg env.gpg env.post ⟨st.nonce, st.revoc⟩) := by
  unfold verifyInline verifyRc
  have hDone := @gpgVerify_chalDone plcf.gpgPath plcf.keyring msg env.gpg
  generalize gpgVerify plcf.gpgPath plcf.keyring msg env.gpg = out at *
  by_cases hOk : out.1 = .ok
  · have hChal : challengeVerdict x plcf r env.post.consume out.2 st.nonce =
        validateConsume x.hmac plcf (binding plcf r).1 (binding plcf r).2 x.nonceShm
          env.post.consume out.2 st.nonce := by
      rw [challengeVerdict, hDone hOk, if_neg Bool.false_ne_true]
    simp only [hOk, ne_eq, not_true_eq_false, if_false, finish_records]
    refine congrArg recordsOf (verifyPost_rc rfl rfl ?_ ?_)
    · rw [hChal]
      rfl
    · rw [hChal]
      exact validateConsume_verdict _ _ _ _ _ _ _ _
  · simp [hOk, finish_records]

theorem verifyThreadDone_records (msg : Bytes) (env : VerifyEnv) (nonce : NonceState)
    (st : Stores) :
    (verifyThreadDone x plcf r
        (gpgThread x plcf ⟨msg, (binding plcf r).1, (binding plcf r).2⟩ env.gpg env.post.consume
          nonce).1 env.post env.finalize st).records =
      recordsOf (verifyRc x plcf r msg env.gpg env.post ⟨nonce, st.revoc⟩) := by
  unfold verifyThreadDone gpgThread verifyRc
  generalize gpgVerify plcf.gpgPath plcf.keyring msg env.gpg = out
  by_cases hOk : out.1 = .ok
  · cases hValid : out.2.valid with
    | false => simp [hOk, hValid, finish_records, verifyPost, verdictRc]
    | true =>
        have hVerdict := validateConsume_verdict x.hmac plcf (binding plcf r).1 (binding plcf r).2
          env.post.consume x.nonceShm out.2 nonce
        simp only [hOk, hValid, and_self, if_true, ne_eq, not_true_eq_false, if_false,
          finish_records]
        exact congrArg recordsOf (verifyPost_rc hVerdict rfl rfl rfl)
  · simp [hOk, finish_records]

theorem submission_records (env : SubmitEnv) (st : Stores) (mid : Interim) :
    (submission x plcf r env st mid).records =
      recordsOf (submissionRc x plcf r env (metStores plcf env st mid)) := by
  unfold submission authSubmit submissionRc
  rw [readBody_eq]
  by_cases hBody : BodyUnusable plcf env.bufs
  · simp only [hBody, if_true]
    exact finish_records _ _ _ _ _ _
  · cases hAlloc : env.bodyAlloc with
    | false =>
        simp only [hBody, if_false, if_true]
        exact finish_records _ _ _ _ _ _
    | true =>
        simp only [hBody, if_false, Bool.true_eq_false]
        unfold submittedMsg
        generalize signedMsg (env.bufs.flatMap BodyBuf.bytes) = msg
        by_cases hPre : verifyPre msg = .ok
        · cases hVr : env.vrAlloc with
          | false => simp [hPre, recordsOf]
          | true =>
              simp only [hPre, ne_eq, not_true_eq_false, if_false, Bool.true_eq_false, metStores]
              by_cases hPool : plcf.threadPool = true ∧ env.taskAlloc = true ∧ env.taskPost = true
              · simp only [hPool, and_self, if_true]
                exact verifyThreadDone_records msg env.verify mid.nonce mid.stores
              · simp only [hPool, if_false]
                exact verifyInline_records msg env.verify st
        · simp only [hPre, ne_eq, not_false_eq_true, if_true]
          exact finish_records _ _ _ _ _ _

end Records

end PgpAuth
