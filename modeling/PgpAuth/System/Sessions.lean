import PgpAuth.System.Access

/-!
# Whose session it is

A session cookie names an end and a signer, and its MAC is over these, the keyring and the
client. `content_only_after_login` follows an accepted session to some login with its
keyring; here it is followed to the one login whose answer set the cookie. The session then
belongs to the client that logged in, it ends when that login's location says, counted from
the step that granted it, and the signer is checked against the revocation list of the
location that is asked.

The separator is not escaped, so this is said of logins whose bound User-Agent is free of
it.
-/

namespace PgpAuth

open Lib

/-- The time at which `grant` is called in a step, if it is. -/
def Step.grantNow : Step → Option Nat
  | .request _ _ _ _ => none
  | .body _ env => some env.verify.post.grant.now
  | .thread _ _ _ => none
  | .complete _ post _ => some post.grant.now

section Definitions

variable (x : Externals) (locs : Nat → LocConf)

/-- A step of the run granted the submission, at `now`. -/
def GrantedIn (start : World) (run : List Step) (g : Login) (now : Nat) : Prop :=
  ∃ before i after, run = before ++ i :: after ∧ i.grantNow = some now ∧
    ((systemMachine x locs).final start (before ++ [i])).granted =
      ((systemMachine x locs).final start before).granted ++ [g]

/-- What goes into the session of a submission that is granted at `now`. -/
def Login.session (g : Login) (now : Nat) : Issue :=
  (locs g.check.loc).issue g.check.r .sess
    (sessionPayload (sessionExp (locs g.check.loc) now) (g.check.verdict locs).2.fpr)

/-- A request has the session of the login: its cookie, from its client, before its end, and
the signer is not on the list of the location that is asked. -/
structure Login.Opens (g : Login) (now : Nat) (plcf : LocConf) (r : Request) (env : SessionEnv)
    (cache : RevocCache) : Prop where
  cookie : ∃ c, r.cookie (cookieName plcf) = some c ∧
    c.val = (g.session locs now).data ++ pipe :: (g.session locs now).mac x.hmac
  client : binding plcf r = binding (locs g.check.loc) g.check.r
  inTime : (locs g.check.loc).sessionTimeout = 0 ∨
    env.now ≤ now + (locs g.check.loc).sessionTimeout
  notRevoked : (isRevoked plcf env.revoc cache (g.check.verdict locs).2.fpr).1 = false

end Definitions

/-! ## Cookies and the steps that set them -/

section Steps

variable {x : Externals} {locs : Nat → LocConf} {s : World}

theorem eq_of_mem_cookieIssues {plcf : LocConf} {r : Request} {env : GrantEnv} {fpr : Bytes}
    {a : Answer} {c : Issue} (h : c ∈ cookieIssues plcf r env fpr a) :
    c = plcf.issue r .sess (sessionPayload (sessionExp plcf env.now) fpr) := by
  unfold cookieIssues at h
  split at h
  · exact List.mem_singleton.mp h
  · cases h

/-- A cookie that an answer adds is the session of the submission, which is granted. -/
theorem World.mem_sessions_answered {worker : Nat} {login : Login} {grant : GrantEnv}
    {challenge : ChallengeEnv} {out : Outcome}
    (hCookie : out.answer.setCookie ≠ none → out.granted = true) {c : Issue}
    (h : c ∈ (s.answered locs worker login grant challenge out).sessions) :
    c ∈ s.sessions ∨
      (s.answered locs worker login grant challenge out).granted = s.granted ++ [login] ∧
        c = login.session locs grant.now := by
  rcases List.mem_append.mp h with hc | hc
  · exact .inl hc
  · have hGranted := hCookie (of_mem_cookieIssues hc).1
    refine .inr ⟨?_, eq_of_mem_cookieIssues hc⟩
    change (if out.granted then s.granted ++ [login] else s.granted) = s.granted ++ [login]
    rw [if_pos hGranted]

theorem World.mem_sessions_body {i : Nat} {env : SubmitEnv} {c : Issue}
    (h : c ∈ (s.body x locs i env).sessions) :
    c ∈ s.sessions ∨ ∃ g, (s.body x locs i env).granted = s.granted ++ [g] ∧
      c = g.session locs env.verify.post.grant.now := by
  unfold World.body at h ⊢
  cases hRead : s.reading[i]? with
  | none =>
      rw [hRead] at h
      exact .inl h
  | some p =>
      simp only [hRead] at h ⊢
      cases hSubmit : authSubmit x (locs p.loc) p.r env (s.stores p.worker p.loc) with
      | posted task =>
          rw [hSubmit] at h
          exact .inl h
      | answered out =>
          simp only [hSubmit] at h ⊢
          rcases World.mem_sessions_answered (authSubmit_grant hSubmit).2 h with hc | hc
          · exact .inl hc
          · exact .inr ⟨_, hc⟩

theorem World.mem_sessions_thread {i : Nat} {gpg : GpgEnv} {consume : ConsumeEnv} {c : Issue}
    (h : c ∈ (s.thread x locs i gpg consume).sessions) : c ∈ s.sessions := by
  unfold World.thread at h
  split at h
  · exact h
  · exact h

theorem World.mem_sessions_complete {i : Nat} {post : PostEnv} {finalize : FinalizeEnv} {c : Issue}
    (h : c ∈ (s.complete x locs i post finalize).sessions) :
    c ∈ s.sessions ∨ ∃ g, (s.complete x locs i post finalize).granted = s.granted ++ [g] ∧
      c = g.session locs post.grant.now := by
  unfold World.complete at h ⊢
  cases hDone : s.finished[i]? with
  | none =>
      rw [hDone] at h
      exact .inl h
  | some f =>
      simp only [hDone] at h ⊢
      rcases World.mem_sessions_answered verifyThreadDone_cookie h with hc | hc
      · exact .inl hc
      · exact .inr ⟨_, hc⟩

/-- A cookie is there already, or the step grants the submission it is for. -/
theorem mem_sessions_step {i : Step} {c : Issue}
    (h : c ∈ ((systemMachine x locs).step s i).2.sessions) :
    c ∈ s.sessions ∨ ∃ g now, i.grantNow = some now ∧
      ((systemMachine x locs).step s i).2.granted = s.granted ++ [g] ∧
        c = g.session locs now := by
  cases i with
  | request worker loc r env => exact .inl h
  | body i env =>
      rcases World.mem_sessions_body h with hc | ⟨g, hGranted, hc⟩
      · exact .inl hc
      · exact .inr ⟨g, _, rfl, hGranted, hc⟩
  | thread i gpg consume => exact .inl (World.mem_sessions_thread h)
  | complete i post finalize =>
      rcases World.mem_sessions_complete h with hc | ⟨g, hGranted, hc⟩
      · exact .inl hc
      · exact .inr ⟨g, _, rfl, hGranted, hc⟩

theorem GrantedIn.append {start : World} {run : List Step} {g : Login} {now : Nat}
    (h : GrantedIn x locs start run g now) (rest : List Step) :
    GrantedIn x locs start (run ++ rest) g now := by
  obtain ⟨before, i, after, rfl, hNow, hGranted⟩ := h
  exact ⟨before, i, after ++ rest, by simp, hNow, hGranted⟩

/-- Behind every cookie is a step of the run that granted a submission, and the cookie is
its session. -/
theorem granted_of_mem_sessions {start : World} (hStart : start.sessions = []) {run : List Step}
    (hRun : (systemMachine x locs).LegalRun start run) {c : Issue}
    (h : c ∈ ((systemMachine x locs).final start run).sessions) :
    ∃ g now, GrantedIn x locs start run g now ∧ c = g.session locs now := by
  refine Machine.final_induction
    (P := fun run s => ∀ c ∈ s.sessions,
      ∃ g now, GrantedIn x locs start run g now ∧ c = g.session locs now) ?_ ?_ hRun c h
  · intro c hc
    rw [hStart] at hc
    cases hc
  · intro run i hRun hLegal ih c hc
    rcases mem_sessions_step hc with hOld | ⟨g, now, hNow, hGranted, rfl⟩
    · obtain ⟨g, now, hIn, rfl⟩ := ih c hOld
      exact ⟨g, now, hIn.append [i], rfl⟩
    · refine ⟨g, now, ⟨run, i, [], rfl, hNow, ?_⟩, rfl⟩
      rw [Machine.final_append]
      exact hGranted

/-- A submission that a legal run granted is a proper one. -/
theorem GrantedIn.proper {start : World} (hStart : start.Sound x locs) {run : List Step}
    (hRun : (systemMachine x locs).LegalRun start run) {g : Login} {now : Nat}
    (h : GrantedIn x locs start run g now) : g.Proper x locs := by
  obtain ⟨before, i, after, rfl, -, hGranted⟩ := h
  rw [List.append_cons before i after] at hRun
  have hSound := Machine.final_invariant (fun s i hLegal h => systemMachine_sound hLegal h)
    (Machine.legalRun_append.mp hRun).1 hStart
  refine hSound.granted g ?_
  rw [hGranted]
  exact List.mem_append_right _ (List.mem_singleton_self g)

end Steps

/-! ## What an accepted cookie says -/

section Accepted

variable {x : Externals} {locs : Nat → LocConf}

/-- The MAC of an accepted cookie is that of a session that went out, over the same bytes. -/
theorem issue_of_accepted {challenges sessions : List Issue} {plcf : LocConf} {r : Request}
    {env : SessionEnv} {cookie : CookieValue} {t : SessionToken}
    (hChallenges : ∀ c ∈ challenges, c.kind = .chal)
    (hVouched : Vouched x.hmac (challenges ++ sessions) (sessionChecks plcf r))
    (hCookie : r.cookie (cookieName plcf) = some cookie) (hToken : parseSession cookie.val = some t)
    (hMac : MacAccepted x.hmac plcf env.hmacPrevious .sess (binding plcf r).1 (binding plcf r).2
      t.payload t.mac) :
    ∃ c ∈ sessions,
      (c.secret = plcf.secret ∨ plcf.secretPrevious ≠ [] ∧ c.secret = plcf.secretPrevious) ∧
      c.input = tokenInput plcf (binding plcf r).1 (binding plcf r).2 .sess t.payload ∧
      t.mac = c.mac x.hmac := by
  obtain ⟨k, hk, hVerifies⟩ := exists_verifies_of_match hMac
  have hMem : k ∈ sessionChecks plcf r := by simpa [sessionChecks, hCookie, hToken] using hk
  obtain ⟨hInput, hPresented, hSecrets⟩ := mem_macChecks hk
  obtain ⟨c, hc, hSecret, hSame⟩ := hVouched k hMem hVerifies
  rw [hInput] at hSame
  rcases List.mem_append.mp hc with hc | hc
  · have hKind := (macInput_kind hSame).1
    rw [hChallenges c hc] at hKind
    cases hKind
  · refine ⟨c, hc, ?_, hSame, ?_⟩
    · rw [hSecret]
      exact hSecrets
    · rw [← hPresented, Issue.mac, hSecret, hSame, ← hInput]
      exact hVerifies

/-- Where the payload and the User-Agent of the login are free of the separator, the input of
the MAC tells both and the address. -/
theorem Login.fields_of_input {g : Login} {now : Nat} {plcf : LocConf} {r : Request}
    {payload : Bytes} (hKeyring : sep ∉ (locs g.check.loc).keyring) (hKeyring' : sep ∉ plcf.keyring)
    (hValid : (g.check.verdict locs).2.valid = true)
    (hUa : sep ∉ (binding (locs g.check.loc) g.check.r).2)
    (h : (g.session locs now).input =
      tokenInput plcf (binding plcf r).1 (binding plcf r).2 .sess payload) :
    payload = (g.session locs now).data ∧
      binding plcf r = binding (locs g.check.loc) g.check.r := by
  have hData : sep ∉ (g.session locs now).data :=
    sep_notMem_sessionPayload (gpgVerify_fpr_hex hValid)
  have hIp := sep_notMem_boundAddr (boundAddr_binding (locs g.check.loc) g.check.r)
  have hIp' := sep_notMem_boundAddr (boundAddr_binding plcf r)
  obtain ⟨-, -, hFields⟩ := macInput_inj hKeyring hKeyring' h
  rcases append_cons_eq_append_cons hData hFields.symm with ⟨hPayload, hRest⟩ | ⟨w, -, hRest⟩
  · obtain ⟨hAddr, hAgent⟩ := append_cons_inj hIp' hIp hRest
    exact ⟨hPayload, Prod.ext hAddr hAgent⟩
  · -- a longer payload takes its end from the User-Agent, which has no separator to give
    rcases append_cons_eq_append_cons hIp hRest with ⟨-, hAgent⟩ | ⟨v, -, hAgent⟩
    · refine absurd ?_ hUa
      change sep ∈ (g.session locs now).ua
      rw [← hAgent]
      exact List.mem_append_right _ List.mem_cons_self
    · refine absurd ?_ hUa
      change sep ∈ (g.session locs now).ua
      rw [← hAgent]
      exact List.mem_append_right _ List.mem_cons_self

/-- The end that a session names is read back, and one beyond what a time can be is past. -/
theorem inTime_of_ngxAtotm {plcf : LocConf} {now later : Nat}
    (h : ngxAtotm (decimal (sessionExp plcf now)) = 0 ∨
      (later : Int) ≤ ngxAtotm (decimal (sessionExp plcf now))) :
    plcf.sessionTimeout = 0 ∨ later ≤ now + plcf.sessionTimeout := by
  rw [ngxAtotm_decimal, sessionExp] at h
  by_cases hTimeout : plcf.sessionTimeout = 0
  · exact .inl hTimeout
  · rw [if_neg hTimeout] at h
    by_cases hMax : now + plcf.sessionTimeout ≤ maxTime
    · rw [if_pos hMax] at h
      omega
    · rw [if_neg hMax] at h
      omega

/-- An accepted cookie over the data of a login's session opens that session. -/
theorem Login.opens_of_accepted {g : Login} {now : Nat} {plcf : LocConf} {r : Request}
    {env : SessionEnv} {cache : RevocCache} {cookie : CookieValue} {t : SessionToken}
    (hCookie : r.cookie (cookieName plcf) = some cookie) (hToken : parseSession cookie.val = some t)
    (hMac : t.mac = (g.session locs now).mac x.hmac)
    (hPayload : t.payload = (g.session locs now).data)
    (hClient : binding plcf r = binding (locs g.check.loc) g.check.r)
    (hExp : ngxAtotm t.exp = 0 ∨ env.now ≤ ngxAtotm t.exp)
    (hRevoked : (isRevoked plcf env.revoc cache t.fpr).1 = false) :
    g.Opens x locs now plcf r env cache := by
  obtain ⟨hVal, hPipe, -⟩ := parseSession_eq_some.mp hToken
  have hDecimal : pipe ∉ decimal (sessionExp (locs g.check.loc) now) :=
    notMem_of_hex hex_of_decimal (by decide)
  obtain ⟨hEnd, hFpr⟩ := append_cons_inj hPipe hDecimal hPayload
  rw [hEnd] at hExp
  rw [hFpr] at hRevoked
  refine ⟨⟨cookie, hCookie, ?_⟩, hClient, inTime_of_ngxAtotm hExp, hRevoked⟩
  rw [hVal, hPayload, hMac]

end Accepted

/-- In every run in which HMAC is ideal, behind a request that continues to the content of an
enabled location is one step that granted a proper login. Where the User-Agent bound at that
login is free of the separator, the request has the cookie which that login's answer set, comes
from the client that logged in, before the end of the session counted from that step, and with
a signer that is not revoked now. -/
theorem content_only_in_session (x : Externals) (locs : Nat → LocConf)
    (hKeyring : ∀ loc, sep ∉ (locs loc).keyring) (nonce : NonceState) (throttle : ThrottleSh)
    (revoc : Nat → Nat → RevocCache) (run : List Step) (worker loc : Nat) (r : Request)
    (env : HandlerEnv)
    (hRun : (systemMachine x locs).LegalRun (.start nonce throttle revoc)
      (run ++ [.request worker loc r env]))
    (hEnable : (locs loc).enable = true)
    (hContinue : ((systemMachine x locs).step
      ((systemMachine x locs).final (.start nonce throttle revoc) run)
      (.request worker loc r env)).1 = some .declined) :
    ∃ g now, GrantedIn x locs (.start nonce throttle revoc) run g now ∧ g.Proper x locs ∧
      (sep ∉ (binding (locs g.check.loc) g.check.r).2 →
        g.Opens x locs now (locs loc) r env.session
          (((systemMachine x locs).final (.start nonce throttle revoc) run).revoc worker loc)) := by
  obtain ⟨hBefore, hLast⟩ := Machine.legalRun_append.mp hRun
  have hStart : (World.start nonce throttle revoc).Sound x locs := sound_start nonce throttle revoc
  have hSound := Machine.final_invariant (fun s i hLegal h => systemMachine_sound hLegal h) hBefore
    hStart
  obtain ⟨hVouched, -, hDiscard⟩ := hLast.1
  rw [World.checks, if_pos hEnable] at hVouched
  have hSession := session_of_declined hEnable hDiscard (Option.some.inj hContinue)
  obtain ⟨cookie, t, hCookie, hToken, hAccepted, hExp, hRevoked⟩ := checkSession_ok hSession
  obtain ⟨c, hc, -, hInput, hMac⟩ := issue_of_accepted hSound.challenges hVouched hCookie hToken
    hAccepted
  obtain ⟨g, now, hGranted, rfl⟩ := granted_of_mem_sessions rfl hBefore hc
  have hProper := hGranted.proper hStart hBefore
  refine ⟨g, now, hGranted, hProper, ?_⟩
  intro hUa
  obtain ⟨hPayload, hClient⟩ := Login.fields_of_input (hKeyring g.check.loc) (hKeyring loc)
    hProper.valid hUa hInput
  exact Login.opens_of_accepted hCookie hToken hMac hPayload hClient hExp hRevoked

/-- No User-Agent with the separator is bound at any point of the sample run. -/
theorem loginRun_agents {g : Login} {now : Nat}
    (h : GrantedIn loginExternals (fun _ => sampleConf) (.start .empty .empty fun _ _ => .empty)
      loginRun g now) : sep ∉ (binding sampleConf g.check.r).2 := by
  have hAll : ∀ n < 6, ∀ g ∈ ((systemMachine loginExternals fun _ => sampleConf).final
      (.start .empty .empty fun _ _ => .empty) (loginRun.take n)).granted,
      sep ∉ (binding sampleConf g.check.r).2 := by decide +kernel
  obtain ⟨before, i, after, hRun, -, hGranted⟩ := h
  have hLength : before.length + 1 < 6 := by
    have := congrArg List.length hRun
    simp only [loginRun, List.length_append, List.length_cons, List.length_nil] at this
    omega
  have hTake : loginRun.take (before.length + 1) = before ++ [i] := by
    rw [hRun, List.append_cons]
    exact List.take_left' (by simp)
  refine hAll (before.length + 1) hLength g ?_
  rw [hTake, hGranted]
  exact List.mem_append_right _ (List.mem_singleton_self g)

/-- The client comes back within the hour, with its own session. -/
theorem login_then_session :
    ∃ g now, GrantedIn loginExternals (fun _ => sampleConf) (.start .empty .empty fun _ _ => .empty)
        loginRun g now ∧
      g.Opens loginExternals (fun _ => sampleConf) now sampleConf returnRequest
        (loginHandler 2000).session .empty := by
  obtain ⟨g, now, hGranted, -, hOpens⟩ := content_only_in_session loginExternals
    (fun _ => sampleConf) (fun _ => by decide) .empty .empty (fun _ _ => .empty) loginRun 0 0
    returnRequest (loginHandler 2000) (by decide +kernel) rfl (by decide +kernel)
  have hCache : ((systemMachine loginExternals fun _ => sampleConf).final
      (.start .empty .empty fun _ _ => .empty) loginRun).revoc 0 0 = .empty := by decide +kernel
  rw [hCache] at hOpens
  exact ⟨g, now, hGranted, hOpens (loginRun_agents hGranted)⟩

end PgpAuth
