import PgpAuth.Login.Submit

/-!
# The access handler

`authHandler` decides what happens to a request of a location: it continues to the content
(`NGX_DECLINED`), is turned away, gets the login page, or has its body read, after which
nginx calls `authSubmit`.

`submission` is a submission from there to its answer, in either mode, and `login` the
whole of it from the handler on. Between their steps other requests run, so every step
meets stores of its own.
-/

namespace PgpAuth

open Lib

/-- Outcomes met by one call of `ngx_http_pgp_auth_handler`. -/
structure HandlerEnv where
  session : SessionEnv
  now : Nat
  readBody : Rc
  discardBody : Rc
  challenge : ChallengeEnv
  deriving DecidableEq

/-- What the handler leaves behind. `answer` is there where it has finalized the request
itself, and `reading` where the body is being read for `authSubmit`. -/
structure Handled where
  rc : Rc
  answer : Option Answer
  events : List Event
  notice : Option ThrottleNotice
  reading : Bool
  revoc : RevocCache
  deriving DecidableEq, Repr

/-- `NGX_HTTP_PGP_AUTH_ARG` -/
def authArg : Bytes := ascii "__pgp_auth"

def isSubmission (r : Request) : Bool := r.post && r.argsLen != 0 && (r.arg authArg).isSome

/-- The body is announced to be over the cap, or comes in chunks. -/
def bodyTooLarge (plcf : LocConf) (r : Request) : Bool :=
  decide ((plcf.maxBodySize : Int) < r.contentLength) || (r.contentLength < 0 && r.chunked)

/-- `NGX_HTTP_SPECIAL_RESPONSE` -/
def specialResponse : Int := 300

variable (x : Externals) (plcf : LocConf) (r : Request)

def authHandler (env : HandlerEnv) (st : Stores) : Handled :=
  if plcf.enable = false then ⟨.declined, none, [], none, false, st.revoc⟩
  else
    let session := checkSession x.hmac plcf r env.session st.revoc
    if session.1 = .ok then ⟨.declined, none, [], none, false, session.2⟩
    else if r.main = false then
      ⟨.http 403, none, [logEvent r .denied .unauthenticatedSubrequest []], none, false, session.2⟩
    else if throttleIsBanned x.throttleShm (plcf.throttleZone? st.throttle) r env.now ≠ .ok then
      let notice :=
        throttleIsBannedNotice x.throttleShm (plcf.throttleZone? st.throttle) r env.now
      ⟨.http 429, none, [], notice, false, session.2⟩
    else if isSubmission r then
      if bodyTooLarge plcf r then ⟨.http 413, none, [], none, false, session.2⟩
      else if specialResponse ≤ env.readBody.code then
        ⟨env.readBody, none, [], none, false, session.2⟩
      else ⟨.done, none, [], none, true, session.2⟩
    else if env.discardBody ≠ .ok then ⟨env.discardBody, none, [], none, false, session.2⟩
    else
      let page := sendChallenge x.hmac plcf r false env.challenge
      ⟨.done, some (finalizeRequest page.1 page.2 .none), [], none, false, session.2⟩

/-! ## A login from the handler on -/

/-- What a posted task finds: the nonce store when the thread runs, and the stores when
the completion handler does. -/
structure Interim where
  nonce : NonceState
  stores : Stores
  deriving DecidableEq, Repr

/-- A submission, on the worker or through the thread pool, up to its answer. -/
def submission (env : SubmitEnv) (st : Stores) (mid : Interim) : Outcome :=
  match authSubmit x plcf r env st with
  | .answered out => out
  | .posted task =>
      let out := gpgThread x plcf task env.verify.gpg env.verify.post.consume mid.nonce
      verifyThreadDone x plcf r out.1 env.verify.post env.verify.finalize mid.stores

/-- Outcomes met by one login. The body reader may still give up after the handler has
returned; it then finalizes the request itself, with the code in `lateRead`. -/
structure LoginEnv where
  handler : HandlerEnv
  lateRead : Option Rc
  submit : SubmitEnv
  stores : Stores
  mid : Interim

/-- The calls of `throttle_record` that one login makes. -/
def loginRecords (env : LoginEnv) (st : Stores) : List Bool :=
  if (authHandler x plcf r env.handler st).reading then
    match env.lateRead with
    | some _ => []
    | none => (submission x plcf r env.submit env.stores env.mid).records
  else []

/-! ## Who gets through -/

variable {x plcf r}

/-- Of an enabled location, only a valid session continues to the content, as long as
nginx's function for discarding a body never says `NGX_DECLINED`. -/
theorem session_of_declined {env : HandlerEnv} {st : Stores} (hEnable : plcf.enable = true)
    (hDiscard : env.discardBody ≠ .declined)
    (h : (authHandler x plcf r env st).rc = .declined) :
    (checkSession x.hmac plcf r env.session st.revoc).1 = .ok := by
  by_contra hNo
  simp only [authHandler, hEnable, hNo, if_false, Bool.true_eq_false] at h
  split at h
  · cases h
  · split at h
    · cases h
    · split at h
      · split at h
        · cases h
        · split at h
          · rename_i hCode
            rw [show env.readBody = .declined from h] at hCode
            exact absurd hCode (by decide)
          · cases h
      · split at h
        · exact hDiscard h
        · cases h

/-- For a submission that is neither banned nor authenticated yet, the handler comes to
reading the body, unless it refuses its length or the reader fails at once. -/
theorem reading_iff {env : HandlerEnv} {st : Stores} (hEnable : plcf.enable = true)
    (hMain : r.main = true) (hSubmission : isSubmission r = true)
    (hSession : (checkSession x.hmac plcf r env.session st.revoc).1 ≠ .ok)
    (hBan : throttleIsBanned x.throttleShm (plcf.throttleZone? st.throttle) r env.now = .ok) :
    (authHandler x plcf r env st).reading = true ↔
      bodyTooLarge plcf r = false ∧ env.readBody.code < specialResponse := by
  simp only [authHandler, hEnable, hSession, hMain, hBan, hSubmission, if_false, if_true, ne_eq,
    not_true_eq_false, Bool.true_eq_false]
  cases bodyTooLarge plcf r with
  | true => simp
  | false =>
      by_cases hRead : specialResponse ≤ env.readBody.code
      · simp [hRead]
      · simp [hRead]
        omega

end PgpAuth
