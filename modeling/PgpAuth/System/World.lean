import PgpAuth.Lib.Run
import PgpAuth.Login.Handler

/-!
# The system

Workers take requests for any number of locations. A submission is a chain of steps: the
handler, `authSubmit` once the body is there, and with a thread pool the thread and the
completion handler. Steps of different requests interleave in any order; the nonce store
and the throttle are shared by all of them, a revocation cache belongs to one location in
one worker.

Beside the state proper, a `World` keeps the history that the result is about: the MACs
that went out in login pages and in session cookies, and the submissions that were
granted. `systemMachine` admits the steps in which HMAC is ideal: a MAC that a client
presents verifies only if it went out before.
-/

namespace PgpAuth

open Lib

/-! ## MACs that went out -/

/-- A MAC the server has output: its secret and the fields of its input. -/
structure Issue where
  kind : TokenKind
  secret : Bytes
  scope : Bytes
  data : Bytes
  ip : Bytes
  ua : Bytes
  deriving DecidableEq, Repr

def Issue.input (i : Issue) : Bytes := macInput i.kind i.scope i.data i.ip i.ua

def Issue.mac (hmac : Hmac) (i : Issue) : Bytes := macHex hmac i.secret i.input

section Issues

variable (plcf : LocConf) (r : Request)

def LocConf.issue (kind : TokenKind) (data : Bytes) : Issue :=
  ⟨kind, plcf.secret, plcf.keyring, data, (binding plcf r).1, (binding plcf r).2⟩

/-- What `send_challenge` outputs with an answer. -/
def pageIssues (env : ChallengeEnv) (a : Answer) : List Issue :=
  match env.random, a.challenge with
  | some nonce, some _ =>
      [plcf.issue r .chal
        (challengePayload (env.now + plcf.challengeTimeout) (hexDump nonce.val))]
  | _, _ => []

/-- What `grant` outputs with an answer. -/
def cookieIssues (env : GrantEnv) (fpr : Bytes) (a : Answer) : List Issue :=
  match a.setCookie with
  | some (.text _) => [plcf.issue r .sess (sessionPayload (sessionExp plcf env.now) fpr)]
  | _ => []

variable {plcf r} {hmac : Hmac}

/-- The MAC in a login page is the one noted for it. -/
theorem sendChallenge_output {failed : Bool} {env : ChallengeEnv} {page : Page} {text : Bytes}
    (h : (sendChallenge hmac plcf r failed env).2 = some page) (hText : page.challenge = some text)
    {a : Answer} (ha : a.challenge = some text) :
    ∃ i, pageIssues plcf r env a = [i] ∧ text = challengeText i.data (i.mac hmac) := by
  obtain ⟨nonce, hRandom, rfl⟩ := sendChallenge_text h hText
  exact ⟨plcf.issue r .chal
    (challengePayload (env.now + plcf.challengeTimeout) (hexDump nonce.val)),
    by simp [pageIssues, hRandom, ha], rfl⟩

/-- The MAC in a session cookie is the one noted for it. -/
theorem grant_output {fpr : Bytes} {env : GrantEnv} {cookie : Bytes}
    (h : (grant hmac plcf r fpr env).2.setCookie = some (.text cookie)) {a : Answer}
    (ha : a.setCookie = some (.text cookie)) :
    ∃ i, cookieIssues plcf r env fpr a = [i] ∧ cookie = cookieText plcf i.data (i.mac hmac) := by
  obtain ⟨-, rfl⟩ := grant_setCookie h
  exact ⟨plcf.issue r .sess (sessionPayload (sessionExp plcf env.now) fpr),
    by simp [cookieIssues, ha], rfl⟩

end Issues

/-! ## The state -/

/-- A request whose body is being read. -/
structure Reading where
  worker : Nat
  loc : Nat
  r : Request

/-- A task in the thread pool. -/
structure Posted where
  worker : Nat
  loc : Nat
  r : Request
  task : ThreadTask

/-- What one verification had before it: the message, what the system did, the nonce
store, and the challenges that had gone out by then. -/
structure Verification where
  loc : Nat
  r : Request
  msg : Bytes
  gpg : GpgEnv
  consume : ConsumeEnv
  nonce : NonceState
  known : List Issue

/-- A task that waits for the worker's completion handler. -/
structure Finished where
  worker : Nat
  check : Verification
  res : ThreadResult

/-- A submission, with what its revocation check met. -/
structure Login where
  check : Verification
  revoc : RevocEnv
  cache : RevocCache

structure World where
  nonce : NonceState
  throttle : ThrottleSh
  revoc : Nat → Nat → RevocCache
  reading : List Reading
  posted : List Posted
  finished : List Finished
  challenges : List Issue
  sessions : List Issue
  granted : List Login

/-- Any stores; no request under way, and nothing output yet. -/
def World.start (nonce : NonceState) (throttle : ThrottleSh) (revoc : Nat → Nat → RevocCache) :
    World :=
  ⟨nonce, throttle, revoc, [], [], [], [], [], []⟩

/-- What a step of a worker for a location finds. -/
def World.stores (s : World) (worker loc : Nat) : Stores := ⟨s.nonce, s.throttle, s.revoc worker loc⟩

def World.setRevoc (s : World) (worker loc : Nat) (cache : RevocCache) : World :=
  { s with revoc := fun w l => if w = worker ∧ l = loc then cache else s.revoc w l }

def World.setStores (s : World) (worker loc : Nat) (st : Stores) : World :=
  { s.setRevoc worker loc st.revoc with nonce := st.nonce, throttle := st.throttle }

/-! ## Steps -/

/-- A step, with the outcomes met by it. The indices point into the lists of what is under
way. -/
inductive Step where
  | request (worker loc : Nat) (r : Request) (env : HandlerEnv)
  | body (i : Nat) (env : SubmitEnv)
  | thread (i : Nat) (gpg : GpgEnv) (consume : ConsumeEnv)
  | complete (i : Nat) (post : PostEnv) (finalize : FinalizeEnv)

/-- The submission was logged as granted. -/
def Outcome.granted (out : Outcome) : Bool := out.events.any (·.result == .granted)

section Machine

variable (x : Externals) (locs : Nat → LocConf)

/-- gpg's code and result. -/
def Verification.verdict (v : Verification) : Rc × VerifyResult :=
  gpgVerify (locs v.loc).gpgPath (locs v.loc).keyring v.msg v.gpg

/-- Take over what a submission leaves behind. -/
def World.answered (s : World) (worker : Nat) (login : Login) (grant : GrantEnv)
    (challenge : ChallengeEnv) (out : Outcome) : World :=
  let v := login.check
  { s.setStores worker v.loc out.stores with
    challenges := s.challenges ++ pageIssues (locs v.loc) v.r challenge out.answer
    sessions :=
      s.sessions ++ cookieIssues (locs v.loc) v.r grant (v.verdict locs).2.fpr out.answer
    granted := if out.granted then s.granted ++ [login] else s.granted }

def World.request (s : World) (worker loc : Nat) (r : Request) (env : HandlerEnv) :
    Option Rc × World :=
  let h := authHandler x (locs loc) r env (s.stores worker loc)
  (some h.rc,
    { s.setRevoc worker loc h.revoc with
      reading := if h.reading then s.reading ++ [⟨worker, loc, r⟩] else s.reading
      challenges := s.challenges ++ h.answer.elim [] (pageIssues (locs loc) r env.challenge) })

/-- The submission of a body, as far as it is verified on the worker. -/
def World.submitted (s : World) (p : Reading) (env : SubmitEnv) : Login :=
  ⟨⟨p.loc, p.r, signedMsg (env.bufs.flatMap BodyBuf.bytes), env.verify.gpg,
      env.verify.post.consume, s.nonce, s.challenges⟩,
    env.verify.post.revoc, s.revoc p.worker p.loc⟩

def World.body (s : World) (i : Nat) (env : SubmitEnv) : World :=
  match s.reading[i]? with
  | none => s
  | some p =>
      let rest := { s with reading := s.reading.eraseIdx i }
      match authSubmit x (locs p.loc) p.r env (s.stores p.worker p.loc) with
      | .posted task => { rest with posted := s.posted ++ [⟨p.worker, p.loc, p.r, task⟩] }
      | .answered out =>
          rest.answered locs p.worker (s.submitted p env) env.verify.post.grant
            env.verify.finalize.challenge out

def World.thread (s : World) (i : Nat) (gpg : GpgEnv) (consume : ConsumeEnv) : World :=
  match s.posted[i]? with
  | none => s
  | some t =>
      let out := gpgThread x (locs t.loc) t.task gpg consume s.nonce
      { s with
        nonce := out.2
        posted := s.posted.eraseIdx i
        finished := s.finished ++
          [⟨t.worker, ⟨t.loc, t.r, t.task.msg, gpg, consume, s.nonce, s.challenges⟩, out.1⟩] }

def World.complete (s : World) (i : Nat) (post : PostEnv) (finalize : FinalizeEnv) : World :=
  match s.finished[i]? with
  | none => s
  | some f =>
      let out := verifyThreadDone x (locs f.check.loc) f.check.r f.res post finalize
        (s.stores f.worker f.check.loc)
      { s with finished := s.finished.eraseIdx i }.answered locs f.worker
        ⟨f.check, post.revoc, s.revoc f.worker f.check.loc⟩ post.grant finalize.challenge out

/-! ## Ideal HMAC -/

/-- The comparisons `validateConsume` makes for a signed text. -/
def challengeChecks (plcf : LocConf) (ip ua text : Bytes) : List MacCheck :=
  match challengeOf text with
  | none => []
  | some t => macChecks plcf ip ua .chal t.payload t.mac

/-- A comparison that succeeds is one with a MAC that went out, for the same secret and the
same bytes. -/
def Vouched (hmac : Hmac) (issued : List Issue) (checks : List MacCheck) : Prop :=
  ∀ c ∈ checks, c.Verifies hmac → ∃ i ∈ issued, i.secret = c.secret ∧ i.input = c.input

/-- The comparisons a step makes. -/
def World.checks (s : World) : Step → List MacCheck
  | .request _ loc r _ => if (locs loc).enable then sessionChecks (locs loc) r else []
  | .body i env =>
      match s.reading[i]? with
      | none => []
      | some p =>
          match authSubmit x (locs p.loc) p.r env (s.stores p.worker p.loc) with
          | .posted _ => []
          | .answered _ =>
              challengeChecks (locs p.loc) (binding (locs p.loc) p.r).1
                (binding (locs p.loc) p.r).2 ((s.submitted p env).check.verdict locs).2.plaintext
  | .thread i gpg _ =>
      match s.posted[i]? with
      | none => []
      | some t =>
          challengeChecks (locs t.loc) t.task.ip t.task.ua
            (gpgVerify (locs t.loc).gpgPath (locs t.loc).keyring t.task.msg gpg).2.plaintext
  | .complete _ _ _ => []

/-- nginx's body functions never say `NGX_DECLINED`. -/
def Step.BodyFunctions : Step → Prop
  | .request _ _ _ env => env.readBody ≠ .declined ∧ env.discardBody ≠ .declined
  | _ => True

/-- A request step answers with the handler's code. -/
def systemMachine : Machine World Step (Option Rc) where
  step s
    | .request worker loc r env => s.request x locs worker loc r env
    | .body i env => (none, s.body x locs i env)
    | .thread i gpg consume => (none, s.thread x locs i gpg consume)
    | .complete i post finalize => (none, s.complete x locs i post finalize)
  legal s i := Vouched x.hmac (s.challenges ++ s.sessions) (s.checks x locs i) ∧ i.BodyFunctions

end Machine

end PgpAuth
