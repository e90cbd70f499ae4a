import PgpAuth.Login.Charge
import PgpAuth.Login.Form
import PgpAuth.Login.Page
import PgpAuth.System.Access
import PgpAuth.Token.ChallengeTrip

/-!
# A login that does as it is told

The login page shows a challenge, the client signs a text with it, sends the signed text
through the page's form, and comes back with the cookie it got. Between the steps other
requests run and the configuration may be reloaded, so every step meets a location and stores
of its own; the locations share keyring, binding and secret, as the current or the previous
one.

`honest_login`: where the server has what it needs, such a client is let in, in either mode of
verification, and stays in until its session ends or its key is revoked.
-/

namespace PgpAuth

open Lib

/-! ## The page -/

/-- Everything `send_challenge` asks for is there. -/
structure ChallengeEnv.Serves (env : ChallengeEnv) : Prop where
  memory : env.payloadAlloc = true ∧ env.challengeAlloc = true ∧ env.bodyAlloc = true ∧
    env.bufAlloc = true
  random : env.random.isSome = true
  hmac : env.hmac = ⟨true, true⟩
  headers : env.pushHeaders = true ∧ env.sendHeader = .ok

/-- A request that the handler answers with the login page. -/
structure Visits (x : Externals) (plcf : LocConf) (r : Request) (env : HandlerEnv) (st : Stores) :
    Prop where
  enable : plcf.enable = true
  noSession : (checkSession x.hmac plcf r env.session st.revoc).1 ≠ .ok
  main : r.main = true ∧ r.headerOnly = false
  notBanned : throttleIsBanned x.throttleShm (plcf.throttleZone? st.throttle) r env.now = .ok
  notSubmission : isSubmission r = false
  discards : env.discardBody = .ok
  serves : env.challenge.Serves

section Page

variable {x : Externals} {plcf : LocConf} {r : Request}

theorem sendChallenge_serves (hmac : Hmac) (plcf : LocConf) {r : Request}
    (hOnly : r.headerOnly = false) (failed : Bool) {env : ChallengeEnv} (h : env.Serves) :
    ∃ nonce, env.random = some nonce ∧
      let t := issuedChallenge hmac plcf r nonce.val env.now
      sendChallenge hmac plcf r failed env =
        (env.outputFilter,
          some ⟨if failed then 403 else 200, some (challengeText t.payload t.mac)⟩) := by
  obtain ⟨nonce, hNonce⟩ := Option.isSome_iff_exists.mp h.random
  refine ⟨nonce, hNonce, ?_⟩
  obtain ⟨hPayload, hChallenge, hBody, hBuf⟩ := h.memory
  have hMac : hmacHex hmac env.hmac plcf r .chal
      (challengePayload (env.now + plcf.challengeTimeout) (hexDump nonce.val)) =
        some (issuedChallenge hmac plcf r nonce.val env.now).mac :=
    hmacHex_eq_some.mpr ⟨h.hmac, rfl⟩
  have hCode : ¬0 < Rc.ok.code := by decide
  simp only [sendChallenge, hNonce, hPayload, hMac, hChallenge, hBody, h.headers.1, h.headers.2,
    hOnly, hBuf, hCode, Bool.true_eq_false, Bool.false_eq_true, or_self, if_false]
  rfl

/-- The page in bytes has the challenge in its box. -/
theorem visits_page {env : HandlerEnv} {st : Stores} (h : Visits x plcf r env st)
    (hTime : env.challenge.now + plcf.challengeTimeout ≤ maxTime) :
    ∃ nonce page body, env.challenge.random = some nonce ∧
      sendChallengeBytes x.hmac plcf r false env.challenge =
        some (env.challenge.outputFilter, some page) ∧
      page.body = some body ∧
      let t := issuedChallenge x.hmac plcf r nonce.val env.challenge.now
      boxText body = some (challengeText t.payload t.mac) ∧
        (authHandler x plcf r env st).answer =
          some ⟨some 200, none, some (challengeText t.payload t.mac)⟩ := by
  obtain ⟨nonce, hNonce, hSend⟩ := sendChallenge_serves x.hmac plcf h.main.2 false h.serves
  have hRead := challengePage_read x.hmac plcf r false env.challenge
  rw [hSend, Prod.mk.injEq] at hRead
  obtain ⟨hRc, hPage⟩ := hRead
  obtain ⟨page, hSome, hPage⟩ := Option.map_eq_some_iff.mp hPage
  rw [SentPage.page, Page.mk.injEq] at hPage
  obtain ⟨body, hBody, hBox⟩ := Option.bind_eq_some_iff.mp hPage.2
  refine ⟨nonce, page, body, hNonce, ?_, hBody, hBox, ?_⟩
  · rw [sendChallengeBytes_eq x.hmac plcf r false env.challenge hTime, ← hRc, ← hSome]
  · simp only [authHandler, h.enable, h.noSession, h.main.1, h.notBanned, h.notSubmission,
      h.discards, hSend, finalizeRequest, Headers.none, Bool.true_eq_false, Bool.false_eq_true,
      if_false, ne_eq, not_true_eq_false]

end Page

/-! ## The submission -/

/-- Everything `grant` asks for is there. -/
structure GrantEnv.Serves (env : GrantEnv) : Prop where
  memory : env.payloadAlloc = true ∧ env.cookieAlloc = true
  hmac : env.hmac = ⟨true, true⟩
  headers : env.pushCookie = true ∧ env.pushCache = true ∧ env.pushLocation = true

section Submission

variable {x : Externals} {plcf : LocConf} {r : Request}

theorem grant_serves (hmac : Hmac) (plcf : LocConf) (r : Request) (fpr : Bytes) {env : GrantEnv}
    (h : env.Serves) :
    (grant hmac plcf r fpr env).1 = .http 303 ∧
      ∃ cookie, (grant hmac plcf r fpr env).2.setCookie = some (.text cookie) := by
  have hMac : hmacHex hmac env.hmac plcf r .sess (sessionPayload (sessionExp plcf env.now) fpr) =
      some _ := hmacHex_eq_some.mpr ⟨h.hmac, rfl⟩
  simp only [grant, h.memory, hMac, h.headers, Bool.true_eq_false, if_false, true_and]
  exact ⟨_, rfl⟩

theorem verifyPost_grants {env : PostEnv} {vr : VerifyResult} {st : Stores}
    (hValid : vr.valid = true) (hRevoked : (isRevoked plcf env.revoc st.revoc vr.fpr).1 = false)
    (hChal : (challengeVerdict x plcf r env.consume vr st.nonce).1 = .ok) :
    GrantsPost x plcf r env vr st := by
  rcases verifyPost_cases x plcf r env vr st with ⟨hNot, -⟩ | hGrants
  · refine absurd ?_ hNot
    simp [verifyPost, hValid, hRevoked, hChal, logEvent]
  · exact hGrants

theorem finish_granted (headers : Headers) (events : List Event) (diag : Option Diag)
    {env : FinalizeEnv} (hSend : env.sendHeader = .ok) (st : Stores) :
    (finish x plcf r (.http 303) headers events diag env st).answer =
      ⟨some 303, headers.setCookie, none⟩ := by
  have hCode : ¬0 < Rc.ok.code := by decide
  simp [finish, verifyFinalize, hSend, hCode]

/-- A verification of `msg` for which everything is there, with the stores it meets. -/
structure Accepted (x : Externals) (plcf : LocConf) (r : Request) (msg : Bytes) (env : VerifyEnv)
    (met : Met) : Prop where
  starts : env.gpg.Starts plcf.gpgPath plcf.keyring
  believed : Believed plcf msg env.gpg
  notRevoked : (isRevoked plcf env.post.revoc met.revoc (signer plcf msg env.gpg)).1 = false
  challenge : challengeRc x plcf r env.post.consume
    (gpgVerify plcf.gpgPath plcf.keyring msg env.gpg).2 met.nonce = .ok
  grant : env.post.grant.Serves
  sends : env.finalize.sendHeader = .ok

/-- The cookie it ends with. -/
def acceptedCookie (x : Externals) (plcf : LocConf) (r : Request) (msg : Bytes) (env : VerifyEnv) :
    Option SetCookie :=
  (grant x.hmac plcf r (signer plcf msg env.gpg) env.post.grant).2.setCookie

theorem gpgVerify_believed {msg : Bytes} {env : GpgEnv}
    (hStarts : env.Starts plcf.gpgPath plcf.keyring) (hBelieved : Believed plcf msg env) :
    (gpgVerify plcf.gpgPath plcf.keyring msg env).1 = .ok ∧
      (gpgVerify plcf.gpgPath plcf.keyring msg env).2.valid = true ∧
      (gpgVerify plcf.gpgPath plcf.keyring msg env).2.fpr = signer plcf msg env := by
  refine ⟨?_, (gpgVerify_valid _ _ _ _).mpr ⟨hStarts, hBelieved⟩, gpgVerify_fpr hStarts hBelieved⟩
  rcases gpgVerify_cases plcf.gpgPath plcf.keyring msg env with ⟨-, hEq⟩ | ⟨hNot, -⟩
  · rw [hEq]
  · exact absurd hStarts hNot

/-- A grant in `verifyPost` is the answer. -/
theorem finish_of_grantsPost {env : PostEnv} {vr : VerifyResult} {st : Stores} {fpr : Bytes}
    {finalize : FinalizeEnv} (h : GrantsPost x plcf r env vr st) (hFpr : vr.fpr = fpr)
    (hGrant : env.grant.Serves) (hSend : finalize.sendHeader = .ok) (diag : Option Diag) :
    (finish x plcf r (verifyPost x plcf r env vr st).rc (verifyPost x plcf r env vr st).headers
        [(verifyPost x plcf r env vr st).event] diag finalize
        (verifyPost x plcf r env vr st).stores).answer =
      ⟨some 303, (grant x.hmac plcf r fpr env.grant).2.setCookie, none⟩ := by
  rw [h.rc, h.headers, hFpr, (grant_serves x.hmac plcf r fpr hGrant).1]
  exact finish_granted _ _ _ hSend _

theorem verifyInline_accepted {msg : Bytes} {env : VerifyEnv} {st : Stores}
    (h : Accepted x plcf r msg env ⟨st.nonce, st.revoc⟩) :
    (verifyInline x plcf r msg env st).answer =
      ⟨some 303, acceptedCookie x plcf r msg env, none⟩ := by
  obtain ⟨hRc, hValid, hFpr⟩ := gpgVerify_believed h.starts h.believed
  have hDone := gpgVerify_chalDone hRc
  have hChal : (challengeVerdict x plcf r env.post.consume
      (gpgVerify plcf.gpgPath plcf.keyring msg env.gpg).2 st.nonce).1 = .ok := by
    rw [challengeVerdict, hDone, if_neg Bool.false_ne_true]
    exact h.challenge
  have hGrants : GrantsPost x plcf r env.post _ st :=
    verifyPost_grants hValid (by rw [hFpr]; exact h.notRevoked) hChal
  simp only [verifyInline, hRc, ne_eq, not_true_eq_false, if_false]
  exact finish_of_grantsPost hGrants hFpr h.grant h.sends _

theorem verifyThreadDone_accepted {msg : Bytes} {env : VerifyEnv} {nonce : NonceState}
    {st : Stores} (h : Accepted x plcf r msg env ⟨nonce, st.revoc⟩) :
    (verifyThreadDone x plcf r
        (gpgThread x plcf ⟨msg, (binding plcf r).1, (binding plcf r).2⟩ env.gpg env.post.consume
          nonce).1 env.post env.finalize st).answer =
      ⟨some 303, acceptedCookie x plcf r msg env, none⟩ := by
  obtain ⟨hRc, hValid, hFpr⟩ := gpgVerify_believed h.starts h.believed
  have hVerdict := validateConsume_verdict x.hmac plcf (binding plcf r).1 (binding plcf r).2
    env.post.consume x.nonceShm (gpgVerify plcf.gpgPath plcf.keyring msg env.gpg).2 nonce
  simp only [VerifyResult.verdict, Prod.mk.injEq] at hVerdict
  have hChal := h.challenge
  rw [challengeRc] at hChal
  simp only [verifyThreadDone, gpgThread, hRc, hValid, and_self, if_true, ne_eq, not_true_eq_false,
    if_false]
  refine finish_of_grantsPost (verifyPost_grants ?_ ?_ ?_) ?_ h.grant h.sends _
  · exact hVerdict.1.trans hValid
  · rw [hVerdict.2.1, hFpr]
    exact h.notRevoked
  · exact hChal
  · exact hVerdict.2.1.trans hFpr

/-- A usable body with such a message is answered with the cookie in either mode. -/
theorem submission_accepted {env : SubmitEnv} {st : Stores} {mid : Interim}
    (hReach : ReachesGpg plcf env)
    (h : Accepted x plcf r (submittedMsg env.bufs) env.verify (metStores plcf env st mid)) :
    (submission x plcf r env st mid).answer =
      ⟨some 303, acceptedCookie x plcf r (submittedMsg env.bufs) env.verify, none⟩ := by
  unfold submission authSubmit
  rw [readBody_eq, if_neg hReach.usable, hReach.bodyAlloc]
  simp only [Bool.true_eq_false, if_false]
  rw [← submittedMsg, hReach.clearSigned, hReach.vrAlloc]
  simp only [ne_eq, not_true_eq_false, if_false, Bool.true_eq_false]
  unfold metStores at h
  by_cases hPool : plcf.threadPool = true ∧ env.taskAlloc = true ∧ env.taskPost = true
  · rw [if_pos hPool] at h ⊢
    exact verifyThreadDone_accepted h
  · rw [if_neg hPool] at h ⊢
    exact verifyInline_accepted h

/-- The throttle is told of a success exactly then. -/
theorem submission_succeeds_iff {env : SubmitEnv} (st : Stores) (mid : Interim)
    (hReach : ReachesGpg plcf env)
    (hBelieved : Believed plcf (submittedMsg env.bufs) env.verify.gpg)
    (hGrant : env.verify.post.grant.Serves) (hSend : env.verify.finalize.sendHeader = .ok) :
    (submission x plcf r env st mid).records = [true] ↔
      Accepted x plcf r (submittedMsg env.bufs) env.verify (metStores plcf env st mid) := by
  obtain ⟨hRc, hValid, hFpr⟩ := gpgVerify_believed hReach.starts hBelieved
  have hCode := (grant_serves x.hmac plcf r (signer plcf (submittedMsg env.bufs) env.verify.gpg)
    hGrant).1
  have hRecords : (submission x plcf r env st mid).records =
      recordsOf (verdictRc x plcf r env.verify.post
        (gpgVerify plcf.gpgPath plcf.keyring (submittedMsg env.bufs) env.verify.gpg).2
        (metStores plcf env st mid)) := by
    rw [submission_records, submissionRc, if_neg hReach.usable, hReach.bodyAlloc,
      hReach.clearSigned, hReach.vrAlloc]
    simp [verifyRc, hRc]
  rw [hRecords, verdictRc, hValid, hFpr, hCode]
  constructor
  · intro h
    by_cases hRevoked : (isRevoked plcf env.verify.post.revoc (metStores plcf env st mid).revoc
        (signer plcf (submittedMsg env.bufs) env.verify.gpg)).1 = true
    · simp [hRevoked, recordsOf] at h
    · refine ⟨hReach.starts, hBelieved, by simpa using hRevoked, ?_, hGrant, hSend⟩
      rcases challengeRc_range (x := x) (r := r) env.verify.post.consume
        (gpgVerify plcf.gpgPath plcf.keyring (submittedMsg env.bufs) env.verify.gpg).2
        (metStores plcf env st mid).nonce with hChal | hChal | hChal | hChal
      · exact hChal
      all_goals simp [hRevoked, hChal, recordsOf] at h
  · intro h
    simp [h.notRevoked, h.challenge, recordsOf]

end Submission

/-! ## What the client does -/

/-- The same address and the same User-Agent. -/
def SameClient (r r' : Request) : Prop := r'.addr = r.addr ∧ r'.userAgent = r.userAgent

/-- The client sends `msg` through the form: clear-signed, and over a text with the challenge
on a line of its own, or at the end of one. gpg finds the signature good. -/
structure Signs (plcf : LocConf) (env : SubmitEnv) (challenge msg : Bytes) : Prop where
  encoded : ∃ e rest, FormEncodes msg e ∧ (rest = [] ∨ ∃ more, rest = charByte '&' :: more) ∧
    env.bufs.flatMap BodyBuf.bytes = fieldTag ++ e ++ rest
  clearSigned : clearSignedTag <+: msg.dropWhile isLeadingSpace
  text : ∃ before after, ¬ ascii "v1|" <:+: before ∧ LineEnd after ∧
    (env.verify.gpg.run plcf.keyring msg).plain = some (before ++ challenge ++ after)
  believed : Believed plcf msg env.verify.gpg

/-- The server takes the body in and comes to verify it. -/
structure Receives (plcf : LocConf) (env : SubmitEnv) : Prop where
  usable : ¬BodyUnusable plcf env.bufs
  memory : env.bodyAlloc = true ∧ env.vrAlloc = true
  starts : env.verify.gpg.Starts plcf.gpgPath plcf.keyring
  hmac : env.verify.post.consume.hmac = true ∧ env.verify.post.consume.hmacPrevious = true
  grant : env.verify.post.grant.Serves
  sends : env.verify.finalize.sendHeader = .ok

/-- The client comes back to `plcf'` with the cookie it got from `plcf`. -/
structure Returns (plcf plcf' : LocConf) (r r' : Request) (env : HandlerEnv) (cookie : Bytes) :
    Prop where
  enable : plcf'.enable = true
  shares : Shares plcf plcf'
  client : SameClient r r'
  cookie : (r'.cookie (cookieName plcf')).map Subtype.val = cookieValueOf cookie
  hmac : env.session.hmac = ⟨true, true⟩ ∧ env.session.hmacPrevious = true
  discards : env.discardBody ≠ .declined

section Client

variable {x : Externals} {plcf plcf' : LocConf} {r r' : Request}

theorem Signs.submittedMsg {env : SubmitEnv} {challenge msg : Bytes}
    (h : Signs plcf env challenge msg) : submittedMsg env.bufs = msg := by
  obtain ⟨e, rest, hEncodes, hRest, hBody⟩ := h.encoded
  have hEnd : formDecode rest = [] := by
    rcases hRest with rfl | ⟨more, rfl⟩
    · rfl
    · exact formDecode_amp more
  rw [PgpAuth.submittedMsg, hBody, signedMsg, List.append_assoc, formField_tagged, Option.getD_some,
    formDecode_encoded hEncodes hEnd]

theorem Signs.reaches {env : SubmitEnv} {challenge msg : Bytes} (h : Signs plcf env challenge msg)
    (hReceives : Receives plcf env) : ReachesGpg plcf env := by
  refine ⟨hReceives.usable, hReceives.memory.1, ?_, hReceives.memory.2, hReceives.starts⟩
  rw [h.submittedMsg, verifyPre, if_pos (List.isPrefixOf_iff_prefix.mpr h.clearSigned)]

/-- The challenge is found in the signed text. -/
theorem Signs.plaintext {env : SubmitEnv} {challenge msg : Bytes} (h : Signs plcf env challenge msg)
    (hStarts : env.verify.gpg.Starts plcf.gpgPath plcf.keyring) :
    ∃ before after, ¬ ascii "v1|" <:+: before ∧ LineEnd after ∧
      (gpgVerify plcf.gpgPath plcf.keyring msg env.verify.gpg).2.plaintext =
        before ++ challenge ++ after := by
  obtain ⟨before, after, hBefore, hAfter, hPlain⟩ := h.text
  refine ⟨before, after, hBefore, hAfter, ?_⟩
  have hFits : (env.verify.gpg.run plcf.keyring msg).PlainFits := h.believed.2.1
  rw [gpgVerify_plaintext hStarts, hPlain, Option.getD_some]
  rw [GpgRun.PlainFits, hPlain, Option.getD_some] at hFits
  exact List.take_of_length_le (Nat.le_of_lt hFits)

/-- In time, an issued challenge is left to the nonce store. -/
theorem challengeRc_issued {env : ConsumeEnv} {vr : VerifyResult} {nonce before after : Bytes}
    {now : Nat} (st : NonceState) (hSecret : plcf.secret ≠ []) (hShares : Shares plcf plcf')
    (hClient : SameClient r r') (hTime : now + plcf.challengeTimeout ≤ maxTime)
    (hBefore : ¬ ascii "v1|" <:+: before) (hAfter : LineEnd after)
    (hText : let t := issuedChallenge x.hmac plcf r nonce now
      vr.plaintext = before ++ challengeText t.payload t.mac ++ after)
    (hMacs : env.hmac = true ∧ env.hmacPrevious = true) :
    challengeRc x plcf' r' env vr st =
      if env.now ≤ now + plcf.challengeTimeout then
        storeVerdict (nonceCheckAndSet x.nonceShm plcf' .cleared (hexDump nonce)
          ((now + plcf.challengeTimeout : Nat) : Int) env.nonce st).1
      else .declined := by
  have hToken : challengeOf vr.plaintext = some (issuedChallenge x.hmac plcf r nonce now) := by
    rw [hText]
    exact challengeOf_issued x.hmac plcf r nonce now hBefore hAfter
  have hMac : MacAccepted x.hmac plcf' env.hmacPrevious .chal (binding plcf' r').1
      (binding plcf' r').2 (issuedChallenge x.hmac plcf r nonce now).payload
      (issuedChallenge x.hmac plcf r nonce now).mac := by
    rw [hMacs.2]
    exact macAccepted_issued x.hmac .chal _ hShares hSecret
      (binding_eq hShares hClient.1 hClient.2)
  have hExp : ngxAtotm (issuedChallenge x.hmac plcf r nonce now).exp =
      ((now + plcf.challengeTimeout : Nat) : Int) := by
    rw [issuedChallenge, ngxAtotm_decimal, if_pos hTime]
  rw [challengeRc]
  by_cases hNow : env.now ≤ now + plcf.challengeTimeout
  · have hCheck := challengeCheck_of hToken hMacs.1 hMac (by rw [hExp]; omega)
    rw [hExp] at hCheck
    rw [if_pos hNow, (validateConsume_of_ok _ _ _ _ _ _ _ _ hCheck).1,
      (nonceCheckAndSet_congr x.nonceShm plcf' vr .cleared _ _ env.nonce st).1]
    rfl
  · have hCheck := challengeCheck_late hToken hMacs.1 hMac (by rw [hExp]; omega)
    rw [if_neg hNow, (validateConsume_of_error _ _ _ _ _ _ _ _ hCheck).1]

/-- Until it expires, a session of a key that is not revoked opens the location. -/
theorem returns_iff {fpr cookie : Bytes} {grantEnv : GrantEnv} {env : HandlerEnv} {st : Stores}
    (hFpr : ∀ b ∈ fpr, isHexDigit b = true) (hSecret : plcf.secret ≠ [])
    (hTime : grantEnv.now + plcf.sessionTimeout ≤ maxTime)
    (hGrant : (grant x.hmac plcf r fpr grantEnv).2.setCookie = some (.text cookie))
    (h : Returns plcf plcf' r r' env cookie) :
    (authHandler x plcf' r' env st).rc = .declined ↔
      (plcf.sessionTimeout = 0 ∨ env.session.now ≤ grantEnv.now + plcf.sessionTimeout) ∧
        (isRevoked plcf' env.session.revoc st.revoc fpr).1 = false := by
  have hValue := cookieValueOf_grant hFpr hGrant
  have hParse := parseSession_issued hFpr x.hmac plcf r grantEnv.now
  obtain ⟨hExp, hUntil⟩ := expiry_issued env.session.now hTime
  have hCookie := h.cookie
  rw [hValue] at hCookie
  obtain ⟨value, hLookup, hText⟩ := Option.map_eq_some_iff.mp hCookie
  rw [← hText] at hParse
  constructor
  · intro hDeclined
    obtain ⟨value', t, hLookup', hParse', -, hAlive, hRevoked⟩ :=
      checkSession_ok (session_of_declined h.enable h.discards hDeclined)
    obtain rfl := Option.some.inj (hLookup.symm.trans hLookup')
    obtain rfl := Option.some.inj (hParse.symm.trans hParse')
    rw [show ngxAtotm (issuedSession x.hmac plcf r fpr grantEnv.now).exp = _ from hExp] at hAlive
    exact ⟨hUntil.mp hAlive, hRevoked⟩
  · rintro ⟨hAlive, hRevoked⟩
    have hMac := macAccepted_issued x.hmac .sess
      (sessionPayload (sessionExp plcf grantEnv.now) fpr) h.shares hSecret
      (binding_eq h.shares h.client.1 h.client.2)
    have hSession := checkSession_of hLookup hParse h.hmac.1 (by rw [h.hmac.2]; exact hMac) (by
      rw [show ngxAtotm (issuedSession x.hmac plcf r fpr grantEnv.now).exp = _ from hExp]
      exact hUntil.mpr hAlive) hRevoked
    simp [authHandler, h.enable, hSession]

end Client

/-! ## The whole way -/

/-- The challenge is presented in time, the store has not seen it, and the key is not
revoked. -/
structure Timely (x : Externals) (plcf : LocConf) (env : SubmitEnv) (met : Met) (msg nonce : Bytes)
    (exp : Nat) : Prop where
  inTime : env.verify.post.consume.now ≤ exp
  fresh : (nonceCheckAndSet x.nonceShm plcf .cleared nonce exp env.verify.post.consume.nonce
    met.nonce).1 = .ok
  notRevoked : (isRevoked plcf env.verify.post.revoc met.revoc
    (signer plcf msg env.verify.gpg)).1 = false

section Login

variable {x : Externals} {plcf plcf' : LocConf} {r r' : Request}

/-- A submission is taken for a success exactly with such a challenge and such a key. -/
theorem timely_iff_accepted {env : SubmitEnv} {met : Met} {msg nonce : Bytes} {now : Nat}
    (hSigns : let t := issuedChallenge x.hmac plcf r nonce now
      Signs plcf' env (challengeText t.payload t.mac) msg)
    (hReceives : Receives plcf' env) (hSecret : plcf.secret ≠ []) (hShares : Shares plcf plcf')
    (hClient : SameClient r r') (hTime : now + plcf.challengeTimeout ≤ maxTime) :
    Timely x plcf' env met msg (hexDump nonce) (now + plcf.challengeTimeout) ↔
      Accepted x plcf' r' msg env.verify met := by
  obtain ⟨before, after, hBefore, hAfter, hText⟩ := hSigns.plaintext hReceives.starts
  have hChal := challengeRc_issued met.nonce hSecret hShares hClient hTime hBefore hAfter hText
    hReceives.hmac
  constructor
  · intro h
    refine ⟨hReceives.starts, hSigns.believed, h.notRevoked, ?_, hReceives.grant, hReceives.sends⟩
    rw [hChal, if_pos h.inTime, h.fresh]
    rfl
  · intro h
    have hOk := h.challenge
    rw [hChal] at hOk
    by_cases hNow : env.verify.post.consume.now ≤ now + plcf.challengeTimeout
    · rw [if_pos hNow] at hOk
      refine ⟨hNow, ?_, h.notRevoked⟩
      generalize (nonceCheckAndSet x.nonceShm plcf' .cleared (hexDump nonce)
        ((now + plcf.challengeTimeout : Nat) : Int) env.verify.post.consume.nonce met.nonce).1
        = rc at hOk ⊢
      cases rc <;> simp_all [storeVerdict]
    · rw [if_neg hNow] at hOk
      cases hOk

/-- A client that signs the challenge of its login page is taken in exactly if it is in time
with it. It is then answered with a cookie, which opens the location until the session ends or
the key is revoked. -/
theorem honest_login {visit : HandlerEnv} {st₀ : Stores} (hVisit : Visits x plcf r visit st₀)
    (hTime : visit.challenge.now + plcf.challengeTimeout ≤ maxTime) (hSecret : plcf.secret ≠ [])
    (hShares : Shares plcf plcf') (hSecret' : plcf'.secret ≠ []) (hClient : SameClient r r') :
    ∃ nonce page body challenge, visit.challenge.random = some nonce ∧
      (authHandler x plcf r visit st₀).answer = some ⟨some 200, none, some challenge⟩ ∧
      sendChallengeBytes x.hmac plcf r false visit.challenge =
        some (visit.challenge.outputFilter, some page) ∧
      page.body = some body ∧ boxText body = some challenge ∧
      ∀ (env : SubmitEnv) (st : Stores) (mid : Interim) (msg : Bytes),
        Signs plcf' env challenge msg → Receives plcf' env →
        let exp := visit.challenge.now + plcf.challengeTimeout
        let met := metStores plcf' env st mid
        let out := submission x plcf' r' env st mid
        (out.records = [true] ↔ Timely x plcf' env met msg (hexDump nonce.val) exp) ∧
        (Timely x plcf' env met msg (hexDump nonce.val) exp →
          ∃ cookie, out.answer = ⟨some 303, some (.text cookie), none⟩ ∧
            (env.verify.post.grant.now + plcf'.sessionTimeout ≤ maxTime →
              ∀ (later : LocConf) (r'' : Request) (again : HandlerEnv) (st' : Stores),
                Returns plcf' later r' r'' again cookie →
                ((authHandler x later r'' again st').rc = .declined ↔
                  (plcf'.sessionTimeout = 0 ∨
                      again.session.now ≤ env.verify.post.grant.now + plcf'.sessionTimeout) ∧
                    (isRevoked later again.session.revoc st'.revoc
                      (signer plcf' msg env.verify.gpg)).1 = false))) := by
  obtain ⟨nonce, page, body, hNonce, hSend, hBody, hBox, hPage⟩ := visits_page hVisit hTime
  refine ⟨nonce, page, body, _, hNonce, hPage, hSend, hBody, hBox, ?_⟩
  intro env st mid msg hSigns hReceives exp met out
  have hMsg := hSigns.submittedMsg
  have hReaches := hSigns.reaches hReceives
  have hIff : Timely x plcf' env met msg (hexDump nonce.val) exp ↔
      Accepted x plcf' r' msg env.verify met :=
    timely_iff_accepted hSigns hReceives hSecret hShares hClient hTime
  constructor
  · rw [hIff, ← hMsg]
    exact submission_succeeds_iff st mid hReaches (by rw [hMsg]; exact hSigns.believed)
      hReceives.grant hReceives.sends
  · intro hTimely
    have hAccepted := hIff.mp hTimely
    obtain ⟨-, hValid, hFpr⟩ := gpgVerify_believed hAccepted.starts hAccepted.believed
    have hHex := gpgVerify_fpr_hex hValid
    rw [hFpr] at hHex
    obtain ⟨-, cookie, hCookie⟩ := grant_serves x.hmac plcf' r' (signer plcf' msg env.verify.gpg)
      hReceives.grant
    rw [← hMsg] at hAccepted
    have hAnswer := submission_accepted hReaches hAccepted
    rw [acceptedCookie, hMsg, hCookie] at hAnswer
    refine ⟨cookie, hAnswer, ?_⟩
    intro hGrantTime later r'' again st' hReturns
    exact returns_iff hHex hSecret' hGrantTime hCookie hReturns

end Login

/-- The sample client asks for the page, -/
def visitingRequest : Request := { sampleRequest with post := false }

def visitingEnv : HandlerEnv := ⟨calmSession 880, 880, .ok, .ok, samplePage⟩

/-- and sends the sample signature twenty seconds later. -/
def signedForm : SubmitEnv where
  bufs := [.memory (fieldTag ++ clearSignedTag)]
  bodyAlloc := true
  vrAlloc := true
  taskAlloc := true
  taskPost := true
  verify := ⟨sampleSigned, calmPost 900 [], calmFinalize 900⟩

theorem formEncodes_self {m : Bytes}
    (h : ∀ b ∈ m, b ≠ charByte '&' ∧ b ≠ charByte '+' ∧ b ≠ charByte '%') : FormEncodes m m := by
  induction m with
  | nil => exact .nil
  | cons b m ih =>
      obtain ⟨hAmp, hPlus, hPercent⟩ := h b List.mem_cons_self
      exact .plain b hAmp hPlus hPercent (ih fun c hc => h c (List.mem_cons_of_mem b hc))

theorem sampleClient_signs : Signs sampleConf signedForm sampleChallenge clearSignedTag where
  encoded := ⟨clearSignedTag, [], formEncodes_self (by decide +kernel), .inl rfl, by
    simp [signedForm, BodyBuf.bytes]⟩
  clearSigned := by decide +kernel
  text := ⟨[], [], by decide +kernel, .inl rfl, by decide +kernel⟩
  believed := by unfold Believed; decide +kernel

theorem sampleClient_visits :
    Visits sampleExternals sampleConf visitingRequest visitingEnv .empty where
  enable := rfl
  noSession := by decide +kernel
  main := ⟨rfl, rfl⟩
  notBanned := by decide +kernel
  notSubmission := rfl
  discards := rfl
  serves := ⟨⟨rfl, rfl, rfl, rfl⟩, rfl, rfl, rfl, rfl⟩

theorem sampleServer_receives : Receives sampleConf signedForm where
  usable := by decide +kernel
  memory := ⟨rfl, rfl⟩
  starts := by unfold GpgEnv.Starts; decide +kernel
  hmac := ⟨rfl, rfl⟩
  grant := ⟨⟨rfl, rfl⟩, rfl, rfl, rfl, rfl⟩
  sends := rfl

theorem sampleClient_logs_in :
    ∃ cookie, (submission sampleExternals sampleConf sampleRequest signedForm .empty
      ⟨.empty, .empty⟩).answer = ⟨some 303, some (.text cookie), none⟩ := by
  obtain ⟨nonce, page, body, challenge, hNonce, hAnswer, -, -, -, hLogin⟩ := honest_login
    sampleClient_visits (by decide +kernel) (by decide +kernel)
    (show Shares sampleConf sampleConf from ⟨.inl rfl, rfl, rfl, rfl⟩) (by decide +kernel)
    (show SameClient visitingRequest sampleRequest from ⟨rfl, rfl⟩)
  have hPage : (authHandler sampleExternals sampleConf visitingRequest visitingEnv .empty).answer =
      some ⟨some 200, none, some sampleChallenge⟩ := by decide +kernel
  have hSame : challenge = sampleChallenge := by
    rw [hPage] at hAnswer
    simpa using hAnswer.symm
  subst hSame
  have hRandom : nonce.val = sampleRandom :=
    (congrArg Subtype.val (Option.some.inj hNonce)).symm
  obtain ⟨cookie, hCookie, -⟩ := (hLogin signedForm .empty ⟨.empty, .empty⟩ clearSignedTag
    sampleClient_signs sampleServer_receives).2
      ⟨by decide +kernel, by rw [hRandom]; decide +kernel, by decide +kernel⟩
  exact ⟨cookie, hCookie⟩

end PgpAuth
