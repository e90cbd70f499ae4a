import PgpAuth.Login.Submit

/-!
# Inline and thread-pool verification

The two modes run the same steps in a different order: inline, a revoked key is turned
down before the challenge is looked at, while the thread has checked the challenge and
used up its nonce before the worker asks about revocation. `modesAgree_iff` says that this
is the only difference there is.
-/

namespace PgpAuth

open Lib

section

variable (x : Externals) (plcf : LocConf) (r : Request)

/-- The thread-pool path: the thread, then the completion handler. -/
def verifyThreaded (msg : Bytes) (env : VerifyEnv) (st : Stores) : Outcome :=
  let task : ThreadTask := ⟨msg, (binding plcf r).1, (binding plcf r).2⟩
  let out := gpgThread x plcf task env.gpg env.post.consume st.nonce
  verifyThreadDone x plcf r out.1 env.post env.finalize { st with nonce := out.2 }

/-- Both modes answer alike, tell the throttle the same, and leave the same zone and the
same nonce store. -/
def ModesAgree (msg : Bytes) (env : VerifyEnv) (st : Stores) : Prop :=
  let a := verifyThreaded x plcf r msg env st
  let b := verifyInline x plcf r msg env st
  a.answer = b.answer ∧ a.records = b.records ∧ a.stores.throttle = b.stores.throttle ∧
    a.stores.nonce = b.stores.nonce

end

variable {x : Externals} {plcf : LocConf} {r : Request}

/-- A result as the worker reads it after the thread: the challenge is dealt with and the
diagnostic is emitted. -/
def threadedResult (chal : Rc × VerifyResult × NonceState) : VerifyResult :=
  { chal.2.1 with chalRc := chal.1, chalDone := true, diag := none }

/-- For a valid verdict, the worker decides after the thread as it decides inline; the
stores differ where the key is revoked. -/
theorem verifyPost_threaded (x : Externals) (plcf : LocConf) (r : Request) (env : PostEnv)
    {vr : VerifyResult} (st : Stores) {chal : Rc × VerifyResult × NonceState}
    (hChal : validateConsume x.hmac plcf (binding plcf r).1 (binding plcf r).2 x.nonceShm
      env.consume vr st.nonce = chal)
    (hValid : vr.valid = true) (hDone : vr.chalDone = false) :
    let a := verifyPost x plcf r env (threadedResult chal) { st with nonce := chal.2.2 }
    let b := verifyPost x plcf r env vr st
    a.rc = b.rc ∧ a.headers = b.headers ∧ a.stores.throttle = b.stores.throttle ∧
      a.stores.nonce = chal.2.2 ∧
      b.stores.nonce =
        if (isRevoked plcf env.revoc st.revoc vr.fpr).1 then st.nonce else chal.2.2 := by
  intro a b
  have hVerdict := validateConsume_verdict x.hmac plcf (binding plcf r).1 (binding plcf r).2
    env.consume x.nonceShm vr st.nonce
  rw [hChal] at hVerdict
  simp only [VerifyResult.verdict, Prod.mk.injEq] at hVerdict
  have hValid' : (threadedResult chal).valid = true := hVerdict.1.trans hValid
  have hFpr : (threadedResult chal).fpr = vr.fpr := hVerdict.2.1
  have hInline : challengeVerdict x plcf r env.consume vr st.nonce = chal := by
    simp [challengeVerdict, hDone, hChal]
  have hThread : challengeVerdict x plcf r env.consume (threadedResult chal) chal.2.2 =
      (chal.1, threadedResult chal, chal.2.2) := rfl
  simp only [a, b, verifyPost, hValid, hValid', Bool.true_eq_false, if_false, hFpr, hInline,
    hThread]
  cases (isRevoked plcf env.revoc st.revoc vr.fpr).1 with
  | true => simp
  | false =>
      by_cases hOk : chal.1 = .ok
      · simp [hOk, hVerdict.2.1]
      · simp [hOk]

theorem finish_congr {rc rc' : Rc} {headers headers' : Headers} {events events' : List Event}
    {diag diag' : Option Diag} (env : FinalizeEnv) {st st' : Stores} (hRc : rc = rc')
    (hHeaders : headers = headers') (hThrottle : st.throttle = st'.throttle) :
    (finish x plcf r rc headers events diag env st).answer =
        (finish x plcf r rc' headers' events' diag' env st').answer ∧
      (finish x plcf r rc headers events diag env st).records =
        (finish x plcf r rc' headers' events' diag' env st').records ∧
      (finish x plcf r rc headers events diag env st).stores.throttle =
        (finish x plcf r rc' headers' events' diag' env st').stores.throttle := by
  subst hRc hHeaders
  simp only [finish, hThrottle, and_self]

/-- The challenge in a signed plaintext passes its checks, and taking its nonce to the
store changes the store. -/
def UsesNonce (x : Externals) (plcf : LocConf) (r : Request) (env : ConsumeEnv)
    (plaintext : Bytes) (st : NonceState) : Prop :=
  ∃ t exp, challengeCheck x.hmac plcf (binding plcf r).1 (binding plcf r).2 env plaintext =
      .ok (t, exp) ∧
    (nonceCheckAndSet x.nonceShm plcf .cleared t.nonce exp env.nonce st).2.2 ≠ st

theorem validateConsume_store_ne_iff (env : ConsumeEnv) (vr : VerifyResult) (st : NonceState) :
    (validateConsume x.hmac plcf (binding plcf r).1 (binding plcf r).2 x.nonceShm env vr st).2.2
        ≠ st ↔
      UsesNonce x plcf r env vr.plaintext st := by
  unfold UsesNonce
  cases hc : challengeCheck x.hmac plcf (binding plcf r).1 (binding plcf r).2 env vr.plaintext with
  | error e =>
      rw [(validateConsume_of_error _ _ _ _ _ _ _ _ hc).2]
      simp
  | ok p =>
      obtain ⟨t, exp⟩ := p
      rw [(validateConsume_of_ok _ _ _ _ _ _ _ _ hc).2,
        (nonceCheckAndSet_congr x.nonceShm plcf vr .cleared t.nonce exp env.nonce st).2]
      simp

/-- The modes agree on everything, unless a trusted signature comes from a revoked key and
its challenge would pass and change the nonce store. -/
theorem modesAgree_iff (x : Externals) (plcf : LocConf) (r : Request) (msg : Bytes)
    (env : VerifyEnv) (st : Stores) :
    ModesAgree x plcf r msg env st ↔
      ¬(env.gpg.Starts plcf.gpgPath plcf.keyring ∧
        (env.gpg.run plcf.keyring msg).Trusted env.gpg.turns ∧
        (isRevoked plcf env.post.revoc st.revoc
          (statusParse (captured (env.gpg.run plcf.keyring msg).stream env.gpg.turns)).fpr).1
            = true ∧
        UsesNonce x plcf r env.post.consume
          (((env.gpg.run plcf.keyring msg).plain.getD []).take plaintextMax) st.nonce) := by
  have hValid := gpgVerify_valid plcf.gpgPath plcf.keyring msg env.gpg
  unfold ModesAgree verifyThreaded verifyInline gpgThread verifyThreadDone
  dsimp only
  rcases gpgVerify_cases plcf.gpgPath plcf.keyring msg env.gpg with ⟨hs, hv⟩ | ⟨hs, hrc, hv⟩
  · have hOk : (gpgVerify plcf.gpgPath plcf.keyring msg env.gpg).1 = .ok := by rw [hv]
    have hDone := gpgVerify_chalDone hOk
    by_cases ht : (env.gpg.run plcf.keyring msg).Trusted env.gpg.turns
    · have hTrue := hValid.mpr ⟨hs, ht⟩
      rw [← gpgVerify_fpr hs ht, ← gpgVerify_plaintext hs, ← validateConsume_store_ne_iff]
      generalize gpgVerify plcf.gpgPath plcf.keyring msg env.gpg = out at *
      obtain ⟨hRc, hHeaders, hThrottle, hNonce, hNonce'⟩ :=
        verifyPost_threaded x plcf r env.post st rfl hTrue hDone
      obtain ⟨hAnswer, hRecords, hZone⟩ := finish_congr env.finalize hRc hHeaders hThrottle
      simp only [hOk, hTrue, and_self, if_true, ne_eq, not_true_eq_false, if_false]
      constructor
      · rintro ⟨-, -, -, hSame⟩ ⟨-, -, hRevoked, hUsed⟩
        rw [hRevoked, if_pos rfl] at hNonce'
        exact hUsed (hNonce.symm.trans (hSame.trans hNonce'))
      · intro h
        refine ⟨hAnswer, hRecords, hZone, hNonce.trans (Eq.trans ?_ hNonce'.symm)⟩
        split
        · rename_i hRevoked
          by_contra hUsed
          exact h ⟨hs, ht, hRevoked, hUsed⟩
        · rfl
    · have hFalse : (gpgVerify plcf.gpgPath plcf.keyring msg env.gpg).2.valid = false := by
        simpa [ht] using hValid
      generalize gpgVerify plcf.gpgPath plcf.keyring msg env.gpg = out at *
      simp [hOk, hFalse, verifyPost, ht, finish]
  · generalize gpgVerify plcf.gpgPath plcf.keyring msg env.gpg = out at *
    simp [hrc, hs, finish]

/-- A revoked key signs a fresh challenge: the thread has used up the nonce, the inline
path has not. -/
theorem not_modesAgree :
    ¬ModesAgree sampleExternals { sampleConf with revocationList := ascii "/etc/nginx/revoked" }
      sampleRequest (ascii "m")
      ⟨sampleSigned, calmPost 900 sampleFpr, calmFinalize 900⟩ .empty := by
  rintro ⟨-, -, -, hNonce⟩
  exact absurd hNonce (by decide +kernel)

end PgpAuth
