import PgpAuth.Gpg.Trust
import PgpAuth.Login.Body
import PgpAuth.Throttle
import PgpAuth.Token.Challenge

/-!
# Login submissions

`authSubmit` takes a submitted body to an answer. The verification runs inline
(`verifyInline`) or on a thread pool: `gpgThread` runs gpg and consumes the nonce off the
worker, `verifyThreadDone` finishes on it. Both end in `verifyPost`, which decides, and
`verifyFinalize`, which answers and tells the throttle.

An `Outcome` holds what a submission leaves behind: the answer, the calls of
`throttle_record` by their `success` flag, the event lines, what the throttle logs, and the
stores.
-/

namespace PgpAuth

open Lib

/-- What the module takes from outside: HMAC-SHA256 and nginx's shared-memory trees. -/
structure Externals where
  hmac : Hmac
  nonceShm : ShmOps NonceNode
  throttleShm : ShmOps ThrottleNode

/-- The state a submission reads and changes. -/
structure Stores where
  nonce : NonceState
  throttle : ThrottleSh
  revoc : RevocCache
  deriving DecidableEq, Repr

def Stores.empty : Stores := ⟨.empty, .empty, .empty⟩

/-- What the client gets; no status where the connection is just closed. -/
structure Answer where
  status : Option Nat
  setCookie : Option SetCookie
  challenge : Option Bytes
  deriving DecidableEq, Repr

structure Outcome where
  answer : Answer
  records : List Bool
  events : List Event
  notice : Option ThrottleNotice
  diag : Option Diag
  stores : Stores
  deriving DecidableEq, Repr

/-- `ngx_http_finalize_request`: a page already sent stands, else the code decides. -/
def finalizeRequest (rc : Rc) (page : Option Page) (headers : Headers) : Answer :=
  match page with
  | some page => ⟨some page.status, headers.setCookie, page.challenge⟩
  | none =>
      match rc with
      | .http status => ⟨some status, headers.setCookie, none⟩
      | _ => ⟨none, none, none⟩

/-- Outcomes met by one call of `ngx_http_pgp_verify_finalize`. -/
structure FinalizeEnv where
  throttle : ThrottleEnv
  sendHeader : Rc
  challenge : ChallengeEnv
  deriving DecidableEq

/-- `plcf->failure_zone`, read through the pointer of the configuration. -/
def LocConf.throttleZone? (plcf : LocConf) (sh : ThrottleSh) : Option ThrottleSh :=
  if plcf.failureZone then some sh else none

variable (x : Externals) (plcf : LocConf) (r : Request)

/-- One call of `throttle_record`: the zone after it, and what it logs. -/
def recordFailure (success : Bool) (env : ThrottleEnv) (sh : ThrottleSh) :
    ThrottleSh × Option ThrottleNotice :=
  let out := throttleRecordCall x.throttleShm (plcf.throttleZone? sh) r success plcf.failureLimit
    plcf.failureWindow plcf.failureBanTime env
  (out.1.getD sh, out.2)

/-- What `ngx_http_pgp_verify_finalize` leaves behind. -/
structure Finalized where
  answer : Answer
  records : List Bool
  notice : Option ThrottleNotice
  throttle : ThrottleSh
  deriving DecidableEq, Repr

def verifyFinalize (rc : Rc) (headers : Headers) (env : FinalizeEnv) (sh : ThrottleSh) :
    Finalized :=
  if rc = .abort then ⟨finalizeRequest (.http 503) none headers, [], none, sh⟩
  else if rc = .error then ⟨finalizeRequest (.http 500) none headers, [], none, sh⟩
  else
    let success := rc == .http 303
    let told := recordFailure x plcf r success env.throttle sh
    if rc = .http 303 then
      if env.sendHeader = .error ∨ 0 < env.sendHeader.code then
        ⟨finalizeRequest env.sendHeader none headers, [success], told.2, told.1⟩
      else ⟨⟨some 303, headers.setCookie, none⟩, [success], told.2, told.1⟩
    else
      let out := sendChallenge x.hmac plcf r true env.challenge
      ⟨finalizeRequest out.1 out.2 headers, [success], told.2, told.1⟩

/-- `ngx_http_pgp_log_event` -/
def logEvent (result : EventResult) (reason : Reason) (fpr : Bytes) : Event :=
  ⟨result, reason, fpr, r.addr.val⟩

/-- Answer with `rc` and collect what the submission leaves behind. -/
def finish (rc : Rc) (headers : Headers) (events : List Event) (diag : Option Diag)
    (env : FinalizeEnv) (st : Stores) : Outcome :=
  let out := verifyFinalize x plcf r rc headers env st.throttle
  ⟨out.answer, out.records, events, out.notice, diag, { st with throttle := out.throttle }⟩

/-! ## After gpg -/

/-- Outcomes met by the part of a verification that follows gpg. -/
structure PostEnv where
  consume : ConsumeEnv
  revoc : RevocEnv
  grant : GrantEnv
  deriving DecidableEq, Repr

structure PostResult where
  rc : Rc
  headers : Headers
  event : Event
  vr : VerifyResult
  stores : Stores
  deriving DecidableEq, Repr

/-- Code, result and store of the challenge check: the thread's where it has done it,
else this call's own. -/
def challengeVerdict (env : ConsumeEnv) (vr : VerifyResult) (st : NonceState) :
    Rc × VerifyResult × NonceState :=
  if vr.chalDone then (vr.chalRc, vr, st)
  else validateConsume x.hmac plcf (binding plcf r).1 (binding plcf r).2 x.nonceShm env vr st

def verifyPost (env : PostEnv) (vr : VerifyResult) (st : Stores) : PostResult :=
  if vr.valid = false then
    ⟨.declined, .none, logEvent r .denied .unknownOrInvalidSignature [], vr, st⟩
  else
    let revoked := isRevoked plcf env.revoc st.revoc vr.fpr
    let st := { st with revoc := revoked.2 }
    if revoked.1 then ⟨.declined, .none, logEvent r .denied .revokedKey vr.fpr, vr, st⟩
    else
      let out := challengeVerdict x plcf r env.consume vr st.nonce
      let st := { st with nonce := out.2.2 }
      if out.1 ≠ .ok then
        let result : EventResult := if out.1 = .error ∨ out.1 = .abort then .error else .denied
        ⟨out.1, .none, logEvent r result (out.2.1.chalReason.getD .unknown) vr.fpr, out.2.1, st⟩
      else
        let granted := grant x.hmac plcf r out.2.1.fpr env.grant
        ⟨granted.1, granted.2, logEvent r .granted .validSignature out.2.1.fpr, out.2.1, st⟩

/-! ## The two modes -/

/-- Outcomes met by one verification, gpg included. -/
structure VerifyEnv where
  gpg : GpgEnv
  post : PostEnv
  finalize : FinalizeEnv

/-- The synchronous path of `ngx_http_pgp_auth_submit`. -/
def verifyInline (msg : Bytes) (env : VerifyEnv) (st : Stores) : Outcome :=
  let out := gpgVerify plcf.gpgPath plcf.keyring msg env.gpg
  if out.1 ≠ .ok then finish x plcf r .error .none [] out.2.diag env.finalize st
  else
    let post := verifyPost x plcf r env.post out.2 st
    finish x plcf r post.rc post.headers [post.event] post.vr.diag env.finalize post.stores

/-- `ngx_http_pgp_thread_ctx_t` as it is posted. -/
structure ThreadTask where
  msg : Bytes
  ip : Bytes
  ua : Bytes
  deriving DecidableEq, Repr

/-- The two fields of `ngx_http_pgp_thread_ctx_t` that the thread fills. -/
structure ThreadResult where
  gpgRc : Rc
  vr : VerifyResult
  deriving DecidableEq, Repr

def gpgThread (task : ThreadTask) (gpg : GpgEnv) (consume : ConsumeEnv) (st : NonceState) :
    ThreadResult × NonceState :=
  let out := gpgVerify plcf.gpgPath plcf.keyring task.msg gpg
  if out.1 = .ok ∧ out.2.valid then
    let chal := validateConsume x.hmac plcf task.ip task.ua x.nonceShm consume out.2 st
    (⟨out.1, { chal.2.1 with chalRc := chal.1, chalDone := true }⟩, chal.2.2)
  else (⟨out.1, out.2⟩, st)

/-- The completion handler; `gpg_log_diag` clears the diagnostic it emits. -/
def verifyThreadDone (res : ThreadResult) (post : PostEnv) (finalize : FinalizeEnv)
    (st : Stores) : Outcome :=
  let vr := { res.vr with diag := none }
  if res.gpgRc ≠ .ok then finish x plcf r .error .none [] res.vr.diag finalize st
  else
    let out := verifyPost x plcf r post vr st
    finish x plcf r out.rc out.headers [out.event] res.vr.diag finalize out.stores

/-- Outcomes met by one call of `ngx_http_pgp_auth_submit`. -/
structure SubmitEnv where
  bufs : List BodyBuf
  bodyAlloc : Bool
  vrAlloc : Bool
  taskAlloc : Bool
  taskPost : Bool
  verify : VerifyEnv

/-- A submission is answered at once, or its task is in flight. -/
inductive Submitted where
  | answered (out : Outcome)
  | posted (task : ThreadTask)
  deriving DecidableEq, Repr

def authSubmit (env : SubmitEnv) (st : Stores) : Submitted :=
  match readBody env.bufs plcf.maxBodySize env.bodyAlloc with
  | .error rc =>
      if rc = .error then
        .answered (finish x plcf r .error .none [logEvent r .error .bodyAllocFailed []] none
          env.verify.finalize st)
      else
        .answered (finish x plcf r .declined .none [logEvent r .denied .unreadableBody []] none
          env.verify.finalize st)
  | .ok body =>
      let msg := signedMsg body
      if verifyPre msg ≠ .ok then
        .answered (finish x plcf r .declined .none [logEvent r .denied .notClearSigned []] none
          env.verify.finalize st)
      else if env.vrAlloc = false then
        .answered ⟨finalizeRequest (.http 500) none .none, [], [], none, none, st⟩
      else if plcf.threadPool ∧ env.taskAlloc ∧ env.taskPost then
        .posted ⟨msg, (binding plcf r).1, (binding plcf r).2⟩
      else .answered (verifyInline x plcf r msg env.verify st)

/-! ## A calm environment -/

/-- Both zones with plain search trees; the hashes are those of the sample nonce and the
sample address. -/
def sampleExternals : Externals where
  hmac := sampleHmac
  nonceShm := ⟨fun _ => 2420647024, .plain⟩
  throttleShm := ⟨fun _ => 3680567351, .plain⟩

def calmRedis (now : Nat) (inbox : List Bytes) : RedisEnv :=
  ⟨now, true, true, true, true, true, inbox⟩

def calmFinalize (now : Nat) : FinalizeEnv where
  throttle := ⟨now, true, true⟩
  sendHeader := .ok
  challenge := calmChallenge none now

/-- Everything succeeds at time `now`, with `list` as the revocation list. -/
def calmPost (now : Nat) (list : Bytes) : PostEnv where
  consume := ⟨true, true, now, now, ⟨true, true⟩, calmRedis now []⟩
  revoc := ⟨some ⟨1, list.length⟩, true, true, some list⟩
  grant := ⟨now, true, ⟨true, true⟩, true, true, true, true⟩

/-- gpg accepts the sample challenge as signed by the sample key. -/
def sampleSigned : GpgEnv :=
  gpgWrites (statusTag ++ validsigTag ++ sampleFpr ++ ascii "\n") sampleChallenge
    [.ready 200, .ready 0]

end PgpAuth
