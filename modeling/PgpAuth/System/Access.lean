import PgpAuth.Login.Verdict
import PgpAuth.System.World
import PgpAuth.Token.Binding

/-!
# Only a login opens a location

Of an enabled location, the handler passes only requests with a session. Under an ideal
HMAC the session's MAC went out in a cookie; the kind and the scope in its input tell it
from the MACs of challenges and of other keyrings, so it went out with a granted
submission of a location with this keyring. `World.Sound` is the invariant that keeps
cookies and granted submissions together, and `Login.Proper` what a granted submission has
behind it.
-/

namespace PgpAuth

open Lib

section

variable (x : Externals) (locs : Nat → LocConf)

/-- The challenge in a text is one that `send_challenge` gave to this client. -/
structure ChallengeOutput (plcf : LocConf) (r : Request) (known : List Issue)
    (t : ChallengeToken) (i : Issue) : Prop where
  mem : i ∈ known
  secret : i.secret = plcf.secret ∨ plcf.secretPrevious ≠ [] ∧ i.secret = plcf.secretPrevious
  input : i.input = tokenInput plcf (binding plcf r).1 (binding plcf r).2 .chal t.payload
  mac : t.mac = i.mac x.hmac

/-- What a granted submission has behind it: a good signature by a key that is not revoked,
over a challenge that went out before, in time, and new to the nonce store. -/
structure Login.Proper (g : Login) : Prop where
  gpgOk : (g.check.verdict locs).1 = .ok
  valid : (g.check.verdict locs).2.valid = true
  notRevoked :
    (isRevoked (locs g.check.loc) g.revoc g.cache (g.check.verdict locs).2.fpr).1 = false
  challenge : ∃ t i, challengeOf (g.check.verdict locs).2.plaintext = some t ∧
    ChallengeOutput x (locs g.check.loc) g.check.r g.check.known t i ∧
    g.check.consume.now ≤ ngxAtotm t.exp ∧
    (nonceCheckAndSet x.nonceShm (locs g.check.loc) (g.check.verdict locs).2 t.nonce
      (ngxAtotm t.exp) g.check.consume.nonce g.check.nonce).1 = .ok

/-- The MACs of a verification's challenge are vouched for by the challenges known to it. -/
def Verification.Vouched (v : Verification) : Prop :=
  PgpAuth.Vouched x.hmac v.known
    (challengeChecks (locs v.loc) (binding (locs v.loc) v.r).1 (binding (locs v.loc) v.r).2
      (v.verdict locs).2.plaintext)

/-- The task a verification is posted as. -/
def Verification.task (v : Verification) : ThreadTask :=
  ⟨v.msg, (binding (locs v.loc) v.r).1, (binding (locs v.loc) v.r).2⟩

/-- What is in the thread pool and behind it: tasks as they were posted, and results as a
thread has left them. -/
structure World.Tasks (s : World) : Prop where
  posted : ∀ t ∈ s.posted,
    t.task = ⟨t.task.msg, (binding (locs t.loc) t.r).1, (binding (locs t.loc) t.r).2⟩
  finished : ∀ f ∈ s.finished,
    f.res = (gpgThread x (locs f.check.loc) (f.check.task locs) f.check.gpg f.check.consume
      f.check.nonce).1

/-- Every cookie belongs to a granted submission, and every granted submission is a proper
one; what is under way can only lead to such. -/
structure World.Sound (s : World) : Prop where
  challenges : ∀ i ∈ s.challenges, i.kind = .chal
  sessions : ∀ i ∈ s.sessions, i.kind = .sess ∧ ∃ g ∈ s.granted,
    i.secret = (locs g.check.loc).secret ∧ i.scope = (locs g.check.loc).keyring
  tasks : s.Tasks x locs
  vouched : ∀ f ∈ s.finished, f.check.Vouched x locs
  granted : ∀ g ∈ s.granted, g.Proper x locs

end

/-! ## Granted submissions -/

section Granted

variable {x : Externals} {plcf : LocConf} {r : Request}

/-- The challenge check leaves the fingerprint alone. -/
theorem challengeVerdict_fpr (x : Externals) (plcf : LocConf) (r : Request) (env : ConsumeEnv)
    (vr : VerifyResult) (st : NonceState) :
    (challengeVerdict x plcf r env vr st).2.1.fpr = vr.fpr := by
  unfold challengeVerdict
  split
  · rfl
  · have h := validateConsume_verdict x.hmac plcf (binding plcf r).1 (binding plcf r).2 env
      x.nonceShm vr st
    simp only [VerifyResult.verdict, Prod.mk.injEq] at h
    exact h.2.1

/-- What `verifyPost` has found, and answers, where it grants. -/
structure GrantsPost (x : Externals) (plcf : LocConf) (r : Request) (env : PostEnv)
    (vr : VerifyResult) (st : Stores) : Prop where
  valid : vr.valid = true
  revoked : (isRevoked plcf env.revoc st.revoc vr.fpr).1 = false
  challenge : (challengeVerdict x plcf r env.consume vr st.nonce).1 = .ok
  event : (verifyPost x plcf r env vr st).event.result = .granted
  rc : (verifyPost x plcf r env vr st).rc = (grant x.hmac plcf r vr.fpr env.grant).1
  headers : (verifyPost x plcf r env vr st).headers = (grant x.hmac plcf r vr.fpr env.grant).2

theorem verifyPost_cases (x : Externals) (plcf : LocConf) (r : Request) (env : PostEnv)
    (vr : VerifyResult) (st : Stores) :
    ((verifyPost x plcf r env vr st).event.result ≠ .granted ∧
        (verifyPost x plcf r env vr st).headers = .none) ∨
      GrantsPost x plcf r env vr st := by
  have hFpr := challengeVerdict_fpr x plcf r env.consume vr st.nonce
  by_cases hValid : vr.valid = false
  · refine .inl ?_
    simp [verifyPost, hValid, logEvent]
  by_cases hRevoked : (isRevoked plcf env.revoc st.revoc vr.fpr).1 = true
  · refine .inl ?_
    simp [verifyPost, hValid, hRevoked, logEvent]
  by_cases hChal : (challengeVerdict x plcf r env.consume vr st.nonce).1 = .ok
  · refine .inr ⟨by simpa using hValid, by simpa using hRevoked, hChal, ?_, ?_, ?_⟩
    · simp [verifyPost, hValid, hRevoked, hChal, logEvent]
    · simp [verifyPost, hValid, hRevoked, hChal, hFpr]
    · simp [verifyPost, hValid, hRevoked, hChal, hFpr]
  · refine .inl ⟨?_, ?_⟩
    · simp only [verifyPost, hValid, hRevoked, hChal, logEvent, if_false, if_true, ne_eq,
        not_false_eq_true, Bool.false_eq_true]
      split_ifs <;> decide
    · simp [verifyPost, hValid, hRevoked, hChal]

theorem verifyPost_granted {env : PostEnv} {vr : VerifyResult} {st : Stores}
    (h : (verifyPost x plcf r env vr st).event.result = .granted) :
    vr.valid = true ∧ (isRevoked plcf env.revoc st.revoc vr.fpr).1 = false ∧
      (challengeVerdict x plcf r env.consume vr st.nonce).1 = .ok := by
  obtain ⟨hNot, -⟩ | hGranted := verifyPost_cases x plcf r env vr st
  · exact absurd h hNot
  · exact ⟨hGranted.valid, hGranted.revoked, hGranted.challenge⟩

/-- No cookie without a grant. -/
theorem granted_of_cookie {env : PostEnv} {vr : VerifyResult} {st : Stores}
    (h : (verifyPost x plcf r env vr st).headers.setCookie ≠ none) :
    (verifyPost x plcf r env vr st).event.result = .granted := by
  obtain ⟨-, hNone⟩ | hGranted := verifyPost_cases x plcf r env vr st
  · rw [hNone] at h
    exact absurd rfl h
  · exact hGranted.event

theorem finalizeRequest_setCookie {rc : Rc} {page : Option Page} {headers : Headers}
    {cookie : SetCookie} (h : (finalizeRequest rc page headers).setCookie = some cookie) :
    headers.setCookie = some cookie := by
  unfold finalizeRequest at h
  split at h
  · exact h
  · split at h
    · exact h
    · cases h

/-- An answer has the cookie of its headers, if any. -/
theorem finish_setCookie {rc : Rc} {headers : Headers} {events : List Event} {diag : Option Diag}
    {env : FinalizeEnv} {st : Stores} {cookie : SetCookie}
    (h : (finish x plcf r rc headers events diag env st).answer.setCookie = some cookie) :
    headers.setCookie = some cookie := by
  unfold finish verifyFinalize at h
  dsimp only at h
  split_ifs at h
  · exact finalizeRequest_setCookie h
  · exact finalizeRequest_setCookie h
  · exact finalizeRequest_setCookie h
  · exact h
  · exact finalizeRequest_setCookie h

/-- An answer has a cookie only where its headers do. -/
theorem finish_cookie {rc : Rc} {headers : Headers} {events : List Event} {diag : Option Diag}
    {env : FinalizeEnv} {st : Stores}
    (h : (finish x plcf r rc headers events diag env st).answer.setCookie ≠ none) :
    headers.setCookie ≠ none := by
  obtain ⟨cookie, hCookie⟩ := Option.ne_none_iff_exists'.mp h
  rw [finish_setCookie hCookie]
  exact Option.some_ne_none cookie

/-- What a granted outcome needs: gpg's verdict, the revocation check, the challenge. -/
def GrantedFor (x : Externals) (plcf : LocConf) (r : Request) (msg : Bytes) (gpg : GpgEnv)
    (revoc : RevocEnv) (cache : RevocCache) (consume : ConsumeEnv) (nonce : NonceState) : Prop :=
  let out := gpgVerify plcf.gpgPath plcf.keyring msg gpg
  out.1 = .ok ∧ out.2.valid = true ∧ (isRevoked plcf revoc cache out.2.fpr).1 = false ∧
    (validateConsume x.hmac plcf (binding plcf r).1 (binding plcf r).2 x.nonceShm consume out.2
      nonce).1 = .ok

theorem verifyInline_grant {msg : Bytes} {env : VerifyEnv} {st : Stores} :
    ((verifyInline x plcf r msg env st).granted = true →
        GrantedFor x plcf r msg env.gpg env.post.revoc st.revoc env.post.consume st.nonce) ∧
      ((verifyInline x plcf r msg env st).answer.setCookie ≠ none →
        (verifyInline x plcf r msg env st).granted = true) := by
  have hDone := @gpgVerify_chalDone plcf.gpgPath plcf.keyring msg env.gpg
  unfold verifyInline GrantedFor
  dsimp only
  generalize gpgVerify plcf.gpgPath plcf.keyring msg env.gpg = out at *
  by_cases hOk : out.1 = .ok
  · simp only [hOk, ne_eq, not_true_eq_false, if_false, true_and]
    constructor
    · intro h
      have hEvent : (verifyPost x plcf r env.post out.2 st).event.result = .granted := by
        simpa [Outcome.granted, finish] using h
      obtain ⟨hValid, hRevoked, hChal⟩ := verifyPost_granted hEvent
      rw [challengeVerdict, hDone hOk, if_neg Bool.false_ne_true] at hChal
      exact ⟨hValid, hRevoked, hChal⟩
    · intro h
      have hEvent := granted_of_cookie (finish_cookie h)
      simpa [Outcome.granted, finish] using hEvent
  · simp only [hOk, ne_eq, not_false_eq_true, if_true]
    constructor
    · intro h
      simp [Outcome.granted, finish] at h
    · intro h
      exact absurd rfl (finish_cookie h)

/-- Everything `authSubmit` can do: refuse without a grant, post the task, or verify. -/
theorem authSubmit_cases (env : SubmitEnv) (st : Stores) :
    let msg := signedMsg (env.bufs.flatMap BodyBuf.bytes)
    (∃ out, authSubmit x plcf r env st = .answered out ∧ out.granted = false ∧
        out.answer.setCookie = none) ∨
      authSubmit x plcf r env st = .posted ⟨msg, (binding plcf r).1, (binding plcf r).2⟩ ∨
      authSubmit x plcf r env st = .answered (verifyInline x plcf r msg env.verify st) := by
  have hRefused : ∀ rc result reason, result ≠ EventResult.granted →
      (finish x plcf r rc .none [logEvent r result reason []] none env.verify.finalize st).granted
          = false ∧
        (finish x plcf r rc .none [logEvent r result reason []] none env.verify.finalize
          st).answer.setCookie = none := by
    intro rc result reason hResult
    constructor
    · simpa [Outcome.granted, finish, logEvent] using hResult
    · by_contra h
      exact finish_cookie h rfl
  unfold authSubmit
  rw [readBody_eq]
  by_cases hBody : BodyUnusable plcf env.bufs
  · simp only [hBody, if_true]
    exact .inl ⟨_, rfl, hRefused _ _ _ (by decide)⟩
  · cases hAlloc : env.bodyAlloc with
    | false =>
        simp only [hBody, if_false, if_true]
        exact .inl ⟨_, rfl, hRefused _ _ _ (by decide)⟩
    | true =>
        simp only [hBody, if_false, Bool.true_eq_false]
        split
        · exact .inl ⟨_, rfl, hRefused _ _ _ (by decide)⟩
        · split
          · exact .inl ⟨_, rfl, rfl, rfl⟩
          · split
            · exact .inr (.inl rfl)
            · exact .inr (.inr rfl)

theorem authSubmit_grant {env : SubmitEnv} {st : Stores} {out : Outcome}
    (h : authSubmit x plcf r env st = .answered out) :
    (out.granted = true →
        GrantedFor x plcf r (signedMsg (env.bufs.flatMap BodyBuf.bytes)) env.verify.gpg
          env.verify.post.revoc st.revoc env.verify.post.consume st.nonce) ∧
      (out.answer.setCookie ≠ none → out.granted = true) := by
  rcases authSubmit_cases env st with ⟨out', hOut, hNot, hNone⟩ | hPost | hInline
  · cases hOut.symm.trans h
    exact ⟨fun hYes => absurd (hNot.symm.trans hYes) Bool.false_ne_true, fun hc => absurd hNone hc⟩
  · cases hPost.symm.trans h
  · cases hInline.symm.trans h
    exact verifyInline_grant

theorem authSubmit_task {env : SubmitEnv} {st : Stores} {task : ThreadTask}
    (h : authSubmit x plcf r env st = .posted task) :
    task = ⟨task.msg, (binding plcf r).1, (binding plcf r).2⟩ := by
  rcases authSubmit_cases env st with ⟨out, hOut, -⟩ | hPost | hInline
  · cases hOut.symm.trans h
  · cases hPost.symm.trans h
    rfl
  · cases hInline.symm.trans h

theorem verifyThreadDone_granted {res : ThreadResult} {post : PostEnv} {finalize : FinalizeEnv}
    {st : Stores} (h : (verifyThreadDone x plcf r res post finalize st).granted = true) :
    res.gpgRc = .ok ∧
      (verifyPost x plcf r post { res.vr with diag := none } st).event.result = .granted := by
  unfold verifyThreadDone at h
  by_cases hOk : res.gpgRc = .ok
  · simp only [hOk, ne_eq, not_true_eq_false, if_false] at h
    exact ⟨hOk, by simpa [Outcome.granted, finish] using h⟩
  · simp [hOk, Outcome.granted, finish] at h

theorem verifyThreadDone_cookie {res : ThreadResult} {post : PostEnv} {finalize : FinalizeEnv}
    {st : Stores}
    (h : (verifyThreadDone x plcf r res post finalize st).answer.setCookie ≠ none) :
    (verifyThreadDone x plcf r res post finalize st).granted = true := by
  unfold verifyThreadDone at h ⊢
  by_cases hOk : res.gpgRc = .ok
  · simp only [hOk, ne_eq, not_true_eq_false, if_false] at h ⊢
    have hEvent := granted_of_cookie (finish_cookie h)
    simpa [Outcome.granted, finish] using hEvent
  · simp only [hOk, ne_eq, not_false_eq_true, if_true] at h
    exact absurd rfl (finish_cookie h)

/-- A task that is completed with a grant has passed the checks of its thread. -/
theorem gpgThread_grant {msg : Bytes} {gpg : GpgEnv} {consume : ConsumeEnv} {nonce : NonceState}
    {post : PostEnv} {finalize : FinalizeEnv} {st : Stores}
    (h : (verifyThreadDone x plcf r
      (gpgThread x plcf ⟨msg, (binding plcf r).1, (binding plcf r).2⟩ gpg consume nonce).1 post
      finalize st).granted = true) :
    GrantedFor x plcf r msg gpg post.revoc st.revoc consume nonce := by
  obtain ⟨hOk, hEvent⟩ := verifyThreadDone_granted h
  obtain ⟨hValid, hRevoked, hChal⟩ := verifyPost_granted hEvent
  unfold GrantedFor
  unfold gpgThread at hOk hValid hRevoked hChal
  generalize gpgVerify plcf.gpgPath plcf.keyring msg gpg = out at *
  by_cases hThread : out.1 = .ok ∧ out.2.valid = true
  · have hVerdict := validateConsume_verdict x.hmac plcf (binding plcf r).1 (binding plcf r).2
      consume x.nonceShm out.2 nonce
    simp only [VerifyResult.verdict, Prod.mk.injEq] at hVerdict
    simp only [hThread, and_self, if_true, hVerdict.2.1] at hRevoked hChal
    exact ⟨hThread.1, hThread.2, hRevoked, hChal⟩
  · simp only [hThread, if_false] at hOk hValid
    exact absurd ⟨hOk, hValid⟩ hThread

end Granted

/-! ## Which MACs can match -/

section Macs

variable {x : Externals} {locs : Nat → LocConf}

theorem mem_macChecks {plcf : LocConf} {ip ua data mac : Bytes} {kind : TokenKind} {c : MacCheck}
    (h : c ∈ macChecks plcf ip ua kind data mac) :
    c.input = tokenInput plcf ip ua kind data ∧ c.presented = mac ∧
      (c.secret = plcf.secret ∨ plcf.secretPrevious ≠ [] ∧ c.secret = plcf.secretPrevious) := by
  unfold macChecks at h
  rcases List.mem_cons.mp h with rfl | h
  · exact ⟨rfl, rfl, .inl rfl⟩
  · split at h
    · cases h
    · rename_i hPrev
      rw [List.mem_singleton.mp h]
      exact ⟨rfl, rfl, .inr ⟨hPrev, rfl⟩⟩

/-- A challenge is never vouched for by the MAC of a session. -/
theorem vouched_by_challenges {challenges sessions : List Issue} {plcf : LocConf}
    {ip ua text : Bytes} (hSessions : ∀ i ∈ sessions, i.kind = .sess)
    (h : Vouched x.hmac (challenges ++ sessions) (challengeChecks plcf ip ua text)) :
    Vouched x.hmac challenges (challengeChecks plcf ip ua text) := by
  intro c hc hVerifies
  obtain ⟨i, hi, hSecret, hInput⟩ := h c hc hVerifies
  rcases List.mem_append.mp hi with hi | hi
  · exact ⟨i, hi, hSecret, hInput⟩
  · unfold challengeChecks at hc
    split at hc
    · cases hc
    · rw [(mem_macChecks hc).1] at hInput
      have hKind := (macInput_kind hInput).1
      rw [hSessions i hi] at hKind
      cases hKind

/-- The MAC of a session is that of a cookie, issued with this keyring. -/
theorem session_of_vouched {challenges sessions : List Issue} {plcf : LocConf} {r : Request}
    {env : SessionEnv} {cache : RevocCache} (hScope : sep ∉ plcf.keyring)
    (hScopes : ∀ i ∈ sessions, sep ∉ i.scope) (hChallenges : ∀ i ∈ challenges, i.kind = .chal)
    (hVouched : Vouched x.hmac (challenges ++ sessions) (sessionChecks plcf r))
    (h : (checkSession x.hmac plcf r env cache).1 = .ok) :
    ∃ i ∈ sessions, i.scope = plcf.keyring ∧
      (i.secret = plcf.secret ∨ plcf.secretPrevious ≠ [] ∧ i.secret = plcf.secretPrevious) := by
  obtain ⟨c, hc, hVerifies⟩ := exists_verifies_of_checkSession h
  obtain ⟨i, hi, hSecret, hInput⟩ := hVouched c hc hVerifies
  unfold sessionChecks at hc
  split at hc
  · cases hc
  · obtain ⟨hIn, -, hSecrets⟩ := mem_macChecks hc
    rw [hIn] at hInput
    rw [← hSecret] at hSecrets
    rcases List.mem_append.mp hi with hi | hi
    · have hKind := (macInput_kind hInput).1
      rw [hChallenges i hi] at hKind
      cases hKind
    · exact ⟨i, hi, (macInput_inj (hScopes i hi) hScope hInput).2.1, hSecrets⟩

theorem Login.proper_of_grantedFor {g : Login} (hVouched : g.check.Vouched x locs)
    (h : GrantedFor x (locs g.check.loc) g.check.r g.check.msg g.check.gpg g.revoc g.cache
      g.check.consume g.check.nonce) : g.Proper x locs := by
  obtain ⟨hOk, hValid, hRevoked, hChal⟩ := h
  obtain ⟨t, exp, hCheck, hStore⟩ := validateConsume_ok hChal
  obtain ⟨hText, hMac, rfl, -, hNow⟩ := challengeCheck_ok hCheck
  obtain ⟨c, hc, hVerifies⟩ := exists_verifies_of_match hMac
  obtain ⟨hInput, hMac, hSecrets⟩ := mem_macChecks hc
  have hCheck : c ∈ challengeChecks (locs g.check.loc) (binding (locs g.check.loc) g.check.r).1
      (binding (locs g.check.loc) g.check.r).2 (g.check.verdict locs).2.plaintext := by
    rw [challengeChecks, Verification.verdict, hText]
    exact hc
  obtain ⟨i, hi, hSecret, hSame⟩ := hVouched c hCheck hVerifies
  refine ⟨hOk, hValid, hRevoked, t, i, hText, ⟨hi, ?_, ?_, ?_⟩, hNow, hStore⟩
  · rw [hSecret]
    exact hSecrets
  · exact hSame.trans hInput
  · rw [← hMac, Issue.mac, hSecret, hSame]
    exact hVerifies

end Macs

/-! ## The invariant -/

section Invariant

variable {x : Externals} {locs : Nat → LocConf} {s : World}

theorem kind_of_mem_pageIssues {plcf : LocConf} {r : Request} {env : ChallengeEnv} {a : Answer}
    {i : Issue} (h : i ∈ pageIssues plcf r env a) : i.kind = .chal := by
  unfold pageIssues at h
  split at h
  · rw [List.mem_singleton.mp h]
    rfl
  · cases h

theorem of_mem_cookieIssues {plcf : LocConf} {r : Request} {env : GrantEnv} {fpr : Bytes}
    {a : Answer} {i : Issue} (h : i ∈ cookieIssues plcf r env fpr a) :
    a.setCookie ≠ none ∧ i.kind = .sess ∧ i.secret = plcf.secret ∧ i.scope = plcf.keyring := by
  unfold cookieIssues at h
  split at h
  · rename_i hCookie
    rw [List.mem_singleton.mp h, hCookie]
    exact ⟨nofun, rfl, rfl, rfl⟩
  · cases h

theorem World.Tasks.body (h : s.Tasks x locs) (i : Nat) (env : SubmitEnv) :
    (s.body x locs i env).Tasks x locs := by
  unfold World.body
  cases s.reading[i]? with
  | none => exact h
  | some p =>
      dsimp only
      cases hSubmit : authSubmit x (locs p.loc) p.r env (s.stores p.worker p.loc) with
      | posted task =>
          refine ⟨fun t ht => ?_, h.finished⟩
          rcases List.mem_append.mp ht with ht | ht
          · exact h.posted t ht
          · rw [List.mem_singleton.mp ht]
            exact authSubmit_task hSubmit
      | answered out => exact ⟨h.posted, h.finished⟩

theorem World.Tasks.thread (h : s.Tasks x locs) (i : Nat) (gpg : GpgEnv) (consume : ConsumeEnv) :
    (s.thread x locs i gpg consume).Tasks x locs := by
  unfold World.thread
  cases hPost : s.posted[i]? with
  | none => exact h
  | some t =>
      have hTask := h.posted t (List.mem_of_getElem? hPost)
      refine ⟨fun t' ht' => h.posted t' (List.mem_of_mem_eraseIdx ht'), fun f hf => ?_⟩
      rcases List.mem_append.mp hf with hf | hf
      · exact h.finished f hf
      · rw [List.mem_singleton.mp hf]
        change (gpgThread x (locs t.loc) t.task gpg consume s.nonce).1 = _
        rw [hTask]
        rfl

theorem World.Tasks.complete (h : s.Tasks x locs) (i : Nat) (post : PostEnv)
    (finalize : FinalizeEnv) : (s.complete x locs i post finalize).Tasks x locs := by
  unfold World.complete
  cases s.finished[i]? with
  | none => exact h
  | some f => exact ⟨h.posted, fun f' hf' => h.finished f' (List.mem_of_mem_eraseIdx hf')⟩

/-- Every step keeps them, whether its MACs are vouched for or not. -/
theorem tasks_step (h : s.Tasks x locs) (i : Step) :
    ((systemMachine x locs).step s i).2.Tasks x locs := by
  cases i with
  | request worker loc r env => exact ⟨h.posted, h.finished⟩
  | body i env => exact h.body i env
  | thread i gpg consume => exact h.thread i gpg consume
  | complete i post finalize => exact h.complete i post finalize

theorem tasks_start (nonce : NonceState) (throttle : ThrottleSh)
    (revoc : Nat → Nat → RevocCache) : (World.start nonce throttle revoc).Tasks x locs :=
  ⟨fun _ ht => absurd ht List.not_mem_nil, fun _ hf => absurd hf List.not_mem_nil⟩

/-- An answered submission is sound if it is proper where granted, and sets no cookie
where not. -/
theorem World.Sound.answered (h : s.Sound x locs) {worker : Nat} {login : Login}
    {grant : GrantEnv} {challenge : ChallengeEnv} {out : Outcome}
    (hProper : out.granted = true → login.Proper x locs)
    (hCookie : out.answer.setCookie ≠ none → out.granted = true) :
    (s.answered locs worker login grant challenge out).Sound x locs := by
  have hKept : ∀ g ∈ s.granted, g ∈ if out.granted then s.granted ++ [login] else s.granted := by
    intro g hg
    split
    · exact List.mem_append_left _ hg
    · exact hg
  refine ⟨?_, ?_, ⟨h.tasks.posted, h.tasks.finished⟩, h.vouched, ?_⟩
  · intro i hi
    rcases List.mem_append.mp hi with hi | hi
    · exact h.challenges i hi
    · exact kind_of_mem_pageIssues hi
  · intro i hi
    rcases List.mem_append.mp hi with hi | hi
    · obtain ⟨hKind, g, hg, hSame⟩ := h.sessions i hi
      exact ⟨hKind, g, hKept g hg, hSame⟩
    · obtain ⟨hSet, hKind, hSame⟩ := of_mem_cookieIssues hi
      refine ⟨hKind, login, ?_, hSame⟩
      change login ∈ if out.granted then s.granted ++ [login] else s.granted
      rw [hCookie hSet, if_pos rfl]
      exact List.mem_append_right _ (List.mem_singleton_self login)
  · intro g hg
    change g ∈ if out.granted then s.granted ++ [login] else s.granted at hg
    split at hg
    · rename_i hGranted
      rcases List.mem_append.mp hg with hg | hg
      · exact h.granted g hg
      · rw [List.mem_singleton.mp hg]
        exact hProper hGranted
    · exact h.granted g hg

theorem World.Sound.request (h : s.Sound x locs) (worker loc : Nat) (r : Request)
    (env : HandlerEnv) : (s.request x locs worker loc r env).2.Sound x locs := by
  refine ⟨?_, h.sessions, ⟨h.tasks.posted, h.tasks.finished⟩, h.vouched, h.granted⟩
  intro i hi
  rcases List.mem_append.mp hi with hi | hi
  · exact h.challenges i hi
  · cases hAnswer : (authHandler x (locs loc) r env (s.stores worker loc)).answer with
    | none =>
        rw [hAnswer] at hi
        cases hi
    | some a =>
        rw [hAnswer] at hi
        exact kind_of_mem_pageIssues hi

theorem World.Sound.body (h : s.Sound x locs) {i : Nat} {env : SubmitEnv}
    (hVouched : Vouched x.hmac (s.challenges ++ s.sessions) (s.checks x locs (.body i env))) :
    (s.body x locs i env).Sound x locs := by
  have hTasks := h.tasks.body i env
  unfold World.body at hTasks ⊢
  unfold World.checks at hVouched
  cases hRead : s.reading[i]? with
  | none => exact h
  | some p =>
      simp only [hRead] at hVouched hTasks ⊢
      have hRest : World.Sound x locs { s with reading := s.reading.eraseIdx i } :=
        ⟨h.challenges, h.sessions, ⟨h.tasks.posted, h.tasks.finished⟩, h.vouched, h.granted⟩
      cases hSubmit : authSubmit x (locs p.loc) p.r env (s.stores p.worker p.loc) with
      | posted task =>
          rw [hSubmit] at hTasks
          exact ⟨h.challenges, h.sessions, hTasks, h.vouched, h.granted⟩
      | answered out =>
          simp only [hSubmit] at hVouched ⊢
          have hGrant := authSubmit_grant hSubmit
          have hKnown := vouched_by_challenges (fun i hi => (h.sessions i hi).1) hVouched
          refine hRest.answered ?_ hGrant.2
          intro hGranted
          exact Login.proper_of_grantedFor hKnown (hGrant.1 hGranted)

theorem World.Sound.thread (h : s.Sound x locs) {i : Nat} {gpg : GpgEnv} {consume : ConsumeEnv}
    (hVouched : Vouched x.hmac (s.challenges ++ s.sessions)
      (s.checks x locs (.thread i gpg consume))) :
    (s.thread x locs i gpg consume).Sound x locs := by
  have hTasks := h.tasks.thread i gpg consume
  unfold World.thread at hTasks ⊢
  unfold World.checks at hVouched
  cases hPost : s.posted[i]? with
  | none => exact h
  | some t =>
      simp only [hPost] at hVouched hTasks ⊢
      have hKnown := vouched_by_challenges (fun i hi => (h.sessions i hi).1) hVouched
      rw [h.tasks.posted t (List.mem_of_getElem? hPost)] at hKnown
      refine ⟨h.challenges, h.sessions, hTasks, ?_, h.granted⟩
      intro f hf
      rcases List.mem_append.mp hf with hf | hf
      · exact h.vouched f hf
      · rw [List.mem_singleton.mp hf]
        exact hKnown

theorem World.Sound.complete (h : s.Sound x locs) (i : Nat) (post : PostEnv)
    (finalize : FinalizeEnv) : (s.complete x locs i post finalize).Sound x locs := by
  unfold World.complete
  cases hDone : s.finished[i]? with
  | none => exact h
  | some f =>
      have hKnown := h.vouched f (List.mem_of_getElem? hDone)
      have hRes := h.tasks.finished f (List.mem_of_getElem? hDone)
      have hRest : World.Sound x locs { s with finished := s.finished.eraseIdx i } :=
        ⟨h.challenges, h.sessions,
          ⟨h.tasks.posted, fun f hf => h.tasks.finished f (List.mem_of_mem_eraseIdx hf)⟩,
          fun f hf => h.vouched f (List.mem_of_mem_eraseIdx hf), h.granted⟩
      refine hRest.answered ?_ verifyThreadDone_cookie
      intro hGranted
      rw [hRes] at hGranted
      exact Login.proper_of_grantedFor hKnown (gpgThread_grant hGranted)

theorem systemMachine_sound {i : Step} (hLegal : (systemMachine x locs).legal s i)
    (h : s.Sound x locs) : ((systemMachine x locs).step s i).2.Sound x locs := by
  cases i with
  | request worker loc r env => exact h.request worker loc r env
  | body i env => exact h.body hLegal.1
  | thread i gpg consume => exact h.thread hLegal.1
  | complete i post finalize => exact h.complete i post finalize

theorem sound_start (nonce : NonceState) (throttle : ThrottleSh)
    (revoc : Nat → Nat → RevocCache) : (World.start nonce throttle revoc).Sound x locs := by
  refine ⟨?_, ?_, tasks_start nonce throttle revoc, ?_, ?_⟩
  all_goals
    intro i hi
    exact absurd hi List.not_mem_nil

end Invariant

/-- In every run in which HMAC is ideal, a request of an enabled location continues to the
content only after a proper login at a location with its keyring, under a secret that it
has as its current or its previous one. -/
theorem content_only_after_login (x : Externals) (locs : Nat → LocConf)
    (hKeyring : ∀ loc, sep ∉ (locs loc).keyring) (nonce : NonceState) (throttle : ThrottleSh)
    (revoc : Nat → Nat → RevocCache) (run : List Step) (worker loc : Nat) (r : Request)
    (env : HandlerEnv)
    (hRun : (systemMachine x locs).LegalRun (.start nonce throttle revoc)
      (run ++ [.request worker loc r env]))
    (hEnable : (locs loc).enable = true)
    (hContinue : ((systemMachine x locs).step
      ((systemMachine x locs).final (.start nonce throttle revoc) run)
      (.request worker loc r env)).1 = some .declined) :
    ∃ g ∈ ((systemMachine x locs).final (.start nonce throttle revoc) run).granted,
      (locs g.check.loc).keyring = (locs loc).keyring ∧
      ((locs g.check.loc).secret = (locs loc).secret ∨
        (locs loc).secretPrevious ≠ [] ∧
          (locs g.check.loc).secret = (locs loc).secretPrevious) ∧
      g.Proper x locs := by
  obtain ⟨hBefore, hLast⟩ := Machine.legalRun_append.mp hRun
  have hSound := Machine.final_invariant (fun s i hLegal h => systemMachine_sound hLegal h) hBefore
    (sound_start nonce throttle revoc)
  generalize (systemMachine x locs).final (.start nonce throttle revoc) run = s at *
  obtain ⟨hVouched, -, hDiscard⟩ := hLast.1
  have hSession := session_of_declined hEnable hDiscard (Option.some.inj hContinue)
  rw [World.checks, if_pos hEnable] at hVouched
  have hScopes : ∀ i ∈ s.sessions, sep ∉ i.scope := by
    intro i hi
    obtain ⟨-, g, -, -, hScope⟩ := hSound.sessions i hi
    rw [hScope]
    exact hKeyring g.check.loc
  obtain ⟨i, hi, hScope, hSecret⟩ := session_of_vouched (hKeyring loc) hScopes hSound.challenges
    hVouched hSession
  obtain ⟨-, g, hg, hSame, hFrom⟩ := hSound.sessions i hi
  refine ⟨g, hg, hFrom.symm.trans hScope, ?_, hSound.granted g hg⟩
  rw [← hSame]
  exact hSecret

/-! ## A login in numbers -/

instance (hmac : Hmac) (c : MacCheck) : Decidable (c.Verifies hmac) :=
  inferInstanceAs (Decidable (_ = _))

instance (hmac : Hmac) (issued : List Issue) (checks : List MacCheck) :
    Decidable (Vouched hmac issued checks) :=
  inferInstanceAs (Decidable (∀ c ∈ checks, _ → ∃ i ∈ issued, _))

instance : ∀ i : Step, Decidable i.BodyFunctions
  | .request _ _ _ _ => inferInstanceAs (Decidable (_ ∧ _))
  | .body _ _ => isTrue trivial
  | .thread _ _ _ => isTrue trivial
  | .complete _ _ _ => isTrue trivial

instance (x : Externals) (locs : Nat → LocConf) (s : World) (i : Step) :
    Decidable ((systemMachine x locs).legal s i) :=
  inferInstanceAs (Decidable (_ ∧ _))

def loginExternals : Externals := { sampleExternals with hmac := sampleHmacs }

def loginHandler (now : Nat) : HandlerEnv where
  session := ⟨⟨true, true⟩, true, now, ⟨none, false, false, none⟩⟩
  now := now
  readBody := .ok
  discardBody := .ok
  challenge := calmChallenge (some ⟨[0x00, 0x11, 0x22, 0x33, 0x44, 0x55, 0x66, 0x77, 0x88, 0x99,
    0xaa, 0xbb, 0xcc, 0xdd, 0xee, 0xff], rfl⟩) now

/-- The sample client asks for the page, submits the signed challenge, and a thread and
the completion handler take it to a session. -/
def loginRun : List Step :=
  [.request 0 0 { sampleRequest with post := false } (loginHandler 880),
    .request 0 0 sampleRequest (loginHandler 990),
    .body 0 ⟨[.memory clearSignedTag], true, true, true, true,
      ⟨sampleSigned, calmPost 990 [], calmFinalize 990⟩⟩,
    .thread 0 sampleSigned (calmPost 990 []).consume,
    .complete 0 (calmPost 1000 []) (calmFinalize 1000)]

/-- The session the sample client gets. -/
def sampleSession : SessionToken where
  exp := ascii "4600"
  fpr := sampleFpr
  mac := ascii "7816d28fd796e6b43388395c1655ae8027e48df821701fc9a7125c2385fbf259"

/-- A later request with the session. -/
def returnRequest : Request :=
  { sampleRequest with
    cookie := fun _ =>
      some ⟨sampleSession.payload ++ pipe :: sampleSession.mac, by decide +kernel⟩ }

/-- The client comes back with its session, and behind it is a proper login. -/
theorem login_then_content :
    ∃ g ∈ ((systemMachine loginExternals fun _ => sampleConf).final
        (.start .empty .empty fun _ _ => .empty) loginRun).granted,
      g.Proper loginExternals fun _ => sampleConf := by
  obtain ⟨g, hg, -, -, hProper⟩ := content_only_after_login loginExternals (fun _ => sampleConf)
    (fun _ => by decide) .empty .empty (fun _ _ => .empty) loginRun 0 0 returnRequest
    (loginHandler 2000) (by decide +kernel) rfl (by decide +kernel)
  exact ⟨g, hg, hProper⟩

end PgpAuth
