import Mathlib.Algebra.Ring.Nat
import PgpAuth.Lib.Digits
import PgpAuth.Lib.Split

/-!
# Data of the module

Byte strings, result codes, the merged location configuration, what the module reads of
a request, and the record that one verification fills. Times are whole seconds: `time_t`
values are integers, readings of `ngx_time()` are natural numbers.

Three kinds of text come from nginx in a fixed alphabet, and a value outside it cannot be
built: the client address (`ClientAddr`), a header value (`HeaderValue`) and a cookie
value (`CookieValue`), which nginx cuts at `;`.
-/

namespace PgpAuth

open Lib

abbrev Bytes := List UInt8

/-- The bytes of an ASCII text. -/
def ascii (s : String) : Bytes := s.toList.map charByte

theorem ascii_append (s t : String) : ascii (s ++ t) = ascii s ++ ascii t := by
  simp [ascii]

/-- Literals as lists of characters: evaluating `String.toList` on the long ones is slow. -/
theorem ascii_ofList (cs : List Char) : ascii (String.ofList cs) = cs.map charByte := by
  simp [ascii]

/-- A buffer read as a C string. -/
def cString (buf : Bytes) : Bytes := buf.takeWhile (· != 0)

/-- `ngx_int_t` results: the `NGX_*` codes, and HTTP statuses above them. -/
inductive Rc where
  | ok
  | error
  | again
  | busy
  | done
  | declined
  | abort
  | http (status : Nat)
  deriving DecidableEq, Repr

namespace Rc

def code : Rc → Int
  | ok => 0
  | error => -1
  | again => -2
  | busy => -3
  | done => -4
  | declined => -5
  | abort => -6
  | http status => status

end Rc

/-! ## Texts from nginx -/

def isInetByte (b : UInt8) : Bool := isHexDigit b || b == 46 || b == 58

/-- `connection->addr_text`: an IPv4 or IPv6 address of at most `NGX_INET6_ADDRSTRLEN` bytes,
or the text for an unnamed peer of a unix socket. -/
def IsAddr (t : Bytes) : Prop :=
  t = ascii "unix:" ∨ t ≠ [] ∧ t.length ≤ 45 ∧ ∀ b ∈ t, isInetByte b = true

instance : DecidablePred IsAddr := fun _ => inferInstanceAs (Decidable (_ ∨ _))

abbrev ClientAddr : Type := { t : Bytes // IsAddr t }

/-- Bytes that stand in some address. -/
def isAddrByte (b : UInt8) : Bool := isInetByte b || (ascii "unix").contains b

theorem IsAddr.bytes {t : Bytes} (h : IsAddr t) : ∀ b ∈ t, isAddrByte b = true := by
  rcases h with rfl | ⟨-, -, hInet⟩
  · decide +kernel
  · intro b hb
    rw [isAddrByte, hInet b hb, Bool.true_or]

theorem IsAddr.ne_nil {t : Bytes} (h : IsAddr t) : t ≠ [] := by
  rcases h with rfl | ⟨hne, -⟩
  · decide +kernel
  · exact hne

theorem IsAddr.length_le {t : Bytes} (h : IsAddr t) : t.length ≤ 45 := by
  rcases h with rfl | ⟨-, hLength, -⟩
  · decide +kernel
  · exact hLength

def isHeaderByte (b : UInt8) : Bool := b != 0 && b != 10 && b != 13

/-- Any bytes but NUL, CR and LF. -/
abbrev HeaderValue : Type := { v : Bytes // ∀ b ∈ v, isHeaderByte b = true }

/-- What the cookie lookup returns: a piece of a header value that ends before `;`. -/
abbrev CookieValue : Type := { v : Bytes // ∀ b ∈ v, isHeaderByte b = true ∧ b ≠ 59 }

/-- `NGX_MAX_TIME_T_VALUE` -/
def maxTime : Nat := 2 ^ 63 - 1

/-- `ngx_atotm`; its `NGX_ERROR` is the integer `-1`. -/
def ngxAtotm (bs : Bytes) : Int :=
  match readDecimal maxTime bs with
  | some v => v
  | none => -1

theorem ngxAtotm_decimal (n : Nat) :
    ngxAtotm (decimal n) = if n ≤ maxTime then (n : Int) else -1 := by
  rw [ngxAtotm, readDecimal_decimal]
  by_cases h : n ≤ maxTime
  · simp only [h, if_true]
  · simp only [h, if_false]

/-! ## Configuration -/

inductive NonceStorage where
  | none
  | memory
  | redis
  deriving DecidableEq, Repr

inductive SameSite where
  | lax
  | strict
  | none
  deriving DecidableEq, Repr

/-- The part of a location's configuration that requests read, after merging. The two
shared zones are pointers that may be null; `threadPool` likewise. -/
structure LocConf where
  enable : Bool
  keyring : Bytes
  challengeTimeout : Nat
  sessionTimeout : Nat
  cookieSecure : Bool
  cookieHostPrefix : Bool
  cookieSamesite : SameSite
  bindIp : Bool
  bindUa : Bool
  nonceStorage : NonceStorage
  nonceZone : Bool
  failureZone : Bool
  failureLimit : Nat
  failureWindow : Nat
  failureBanTime : Nat
  nonceAddr : Bytes
  noncePassword : Bytes
  nonceKeyPrefix : Bytes
  nonceTls : Bool
  revocationList : Bytes
  revocFailOpen : Bool
  revocMaxSize : Nat
  gpgTimeout : Nat
  maxBodySize : Nat
  gpgPath : Bytes
  secret : Bytes
  secretPrevious : Bytes
  threadPool : Bool
  deriving DecidableEq, Repr

/-- What merging gives an enabled location that sets nothing but its secret. The nonce
zone is there for every storage but `none`, the failure zone once a limit is set. -/
def LocConf.defaults (secret : Bytes) : LocConf where
  enable := true
  keyring := ascii "/etc/nginx/pubkeys.gpg"
  challengeTimeout := 120
  sessionTimeout := 3600
  cookieSecure := true
  cookieHostPrefix := true
  cookieSamesite := .lax
  bindIp := true
  bindUa := true
  nonceStorage := .memory
  nonceZone := true
  failureZone := false
  failureLimit := 0
  failureWindow := 60
  failureBanTime := 300
  nonceAddr := []
  noncePassword := []
  nonceKeyPrefix := ascii "pgp:"
  nonceTls := false
  revocationList := []
  revocFailOpen := false
  revocMaxSize := 1024 * 1024
  gpgTimeout := 2000
  maxBodySize := 16384
  gpgPath := ascii "/usr/bin/gpg"
  secret := secret
  secretPrevious := []
  threadPool := true

/-! ## Requests -/

/-- What the module reads of a request. `cookie` and `arg` are nginx's lookups by name
in the `Cookie` headers and in the query string. -/
structure Request where
  addr : ClientAddr
  userAgent : Option HeaderValue
  cookie : Bytes → Option CookieValue
  main : Bool
  post : Bool
  argsLen : Nat
  arg : Bytes → Option Bytes
  contentLength : Int
  chunked : Bool
  uri : Bytes
  headerOnly : Bool

/-! ## Diagnostics -/

inductive LogLevel where
  | err
  | warn
  | info
  deriving DecidableEq, Repr

/-- A deferred diagnostic: level, format and the bytes it is printed with. -/
structure Diag where
  level : LogLevel
  format : String
  args : List Bytes
  deriving DecidableEq, Repr

/-- Reason codes of the security event log. -/
inductive Reason where
  | unauthenticatedSubrequest
  | bodyAllocFailed
  | unreadableBody
  | notClearSigned
  | unknownOrInvalidSignature
  | revokedKey
  | noChallengeInPlaintext
  | malformedChallenge
  | hmacComputationFailed
  | challengeMacMismatch
  | challengeExpired
  | replay
  | nonceStoreError
  | validSignature
  | unknown
  deriving DecidableEq, Repr

def Reason.text : Reason → String
  | unauthenticatedSubrequest => "unauthenticated_subrequest"
  | bodyAllocFailed => "body_alloc_failed"
  | unreadableBody => "unreadable_body"
  | notClearSigned => "not_clear_signed"
  | unknownOrInvalidSignature => "unknown_or_invalid_signature"
  | revokedKey => "revoked_key"
  | noChallengeInPlaintext => "no_challenge_in_plaintext"
  | malformedChallenge => "malformed_challenge"
  | hmacComputationFailed => "hmac_computation_failed"
  | challengeMacMismatch => "challenge_mac_mismatch"
  | challengeExpired => "challenge_expired"
  | replay => "replay"
  | nonceStoreError => "nonce_store_error"
  | validSignature => "valid_signature"
  | unknown => "unknown"

inductive EventResult where
  | denied
  | error
  | granted
  deriving DecidableEq, Repr

/-- One `pgp_auth_event` line; an empty fingerprint is printed as `-`. -/
structure Event where
  result : EventResult
  reason : Reason
  fpr : Bytes
  ip : Bytes
  deriving DecidableEq, Repr

/-- `ngx_http_pgp_verify_result_t`. `fpr` and `plaintext` are the first `fpr_len` and
`plaintext_len` bytes of their buffers. -/
structure VerifyResult where
  valid : Bool
  fpr : Bytes
  plaintext : Bytes
  diag : Option Diag
  chalDone : Bool
  chalRc : Rc
  chalReason : Option Reason
  deriving DecidableEq, Repr

/-- `ngx_http_pgp_defer_diag`: the first diagnostic is kept. -/
def deferDiag (vr : VerifyResult) (level : LogLevel) (format : String)
    (args : List Bytes) : VerifyResult :=
  match vr.diag with
  | some _ => vr
  | none => { vr with diag := some ⟨level, format, args⟩ }

/-- The part that diagnostics and the challenge check leave alone. -/
def VerifyResult.verdict (vr : VerifyResult) : Bool × Bytes × Bytes :=
  (vr.valid, vr.fpr, vr.plaintext)

@[simp] theorem deferDiag_verdict (vr : VerifyResult) (level : LogLevel) (format : String)
    (args : List Bytes) : (deferDiag vr level format args).verdict = vr.verdict := by
  unfold deferDiag
  split <;> rfl

@[simp] theorem deferDiag_chalDone (vr : VerifyResult) (level : LogLevel) (format : String)
    (args : List Bytes) : (deferDiag vr level format args).chalDone = vr.chalDone := by
  unfold deferDiag
  split <;> rfl

end PgpAuth
