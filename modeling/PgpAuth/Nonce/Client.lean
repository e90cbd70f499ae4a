import PgpAuth.Lib.Ledger
import PgpAuth.Nonce.Redis

/-!
# The Redis client call by call

`nonceRedis` knows the network by the outcome of each stage. Here the client is followed
through its calls: the attempts to connect, with `EINTR` and `EINPROGRESS`, the TLS
handshake with its checks of the peer, partial writes on either kind of connection, the
one read for each command, and the way out.

`nonceRedisCalls_val`: the calls come to the verdict `nonceRedis` has.
-/

namespace PgpAuth

open Lib Lib.Traced

/-! ## What the network does -/

/-- One `ngx_http_pgp_nonce_wait`: polls that are interrupted, then whether the last one
finds the descriptor ready. -/
structure Wait where
  intrs : Nat
  ready : Bool
  deriving DecidableEq, Repr

/-- One address of the list. `pending` is `EINPROGRESS`; `clear` says whether `SO_ERROR` is
then found to be 0. -/
inductive Dial where
  | noSocket
  | connected (fd : Nat)
  | refused (fd : Nat)
  | pending (fd : Nat) (wait : Wait) (clear : Bool)
  deriving DecidableEq, Repr

/-- One call of `SSL_connect`, `SSL_write` or `SSL_read`. -/
inductive TlsTurn where
  | done (more : Nat)
  | want (wait : Wait)
  | failed
  deriving DecidableEq, Repr

/-- How the TLS layer answers. `trust` is the loading of the CA, or of the default paths. -/
structure TlsEnv where
  ctx : Bool
  trust : Bool
  ssl : Bool
  setFd : Bool
  setPeer : Bool
  handshake : List TlsTurn
  deriving DecidableEq, Repr

/-- One command and its reply. On a plain connection each `send` comes after a wait and
takes `n + 1` bytes, or fails; a wait that has no entry left times out. -/
structure TripEnv where
  sends : List (Wait × Option Nat)
  recvWait : Wait
  tlsSends : List TlsTurn
  tlsReads : List TlsTurn
  deriving DecidableEq, Repr

/-- Outcomes met by one call of the client. `addrs` is `none` where `getaddrinfo` fails, and
`inbox` holds the reply bytes as they arrive. -/
structure NetEnv where
  now : Nat
  addrs : Option (List Dial)
  tls : TlsEnv
  auth : TripEnv
  set : TripEnv
  inbox : List Bytes
  deriving DecidableEq, Repr

/-- The TLS part of `ngx_http_pgp_nonce_conf_t`. -/
structure TlsConf where
  verify : Bool
  ca : Bytes
  name : Bytes
  deriving DecidableEq, Repr

/-- What the certificate is compared with. -/
inductive Peer where
  | host (name : Bytes)
  | ip (host : Bytes)
  deriving DecidableEq, Repr

/-- Calls of the client with the handles they return and the bytes they get accepted. -/
inductive NetCall where
  | getaddrinfo
  | freeaddrinfo
  | socket (fd : Nat)
  | connect (fd : Nat)
  | poll (fd : Nat)
  | getsockopt (fd : Nat)
  | close (fd : Nat)
  | send (fd : Nat) (accepted : Bytes)
  | recv (fd : Nat)
  | ctxNew
  | loadTrust (ca : Bytes)
  | setVerify (peer : Bool)
  | ctxFree
  | sslNew
  | sslSetFd (fd : Nat)
  | serverName (name : Bytes)
  | expectPeer (peer : Peer)
  | sslConnect (fd : Nat) (completed : Bool)
  | sslWrite (fd : Nat) (accepted : Bytes)
  | sslRead (fd : Nat)
  | sslShutdown
  | sslFree
  deriving DecidableEq, Repr

/-! ## The calls -/

def pollTimes (fd : Nat) : Nat → Traced NetCall Unit
  | 0 => call (.poll fd)
  | n + 1 => do
      call (.poll fd)
      pollTimes fd n

/-- `ngx_http_pgp_nonce_wait` -/
def nonceWait (fd : Nat) (w : Wait) : Traced NetCall Bool := do
  pollTimes fd w.intrs
  pure w.ready

/-- The loop over the addresses: the first that a connection is made to. -/
def connectFirst : List Dial → Traced NetCall (Option Nat)
  | [] => pure none
  | .noSocket :: as => connectFirst as
  | .connected fd :: _ => do
      call (.socket fd)
      call (.connect fd)
      pure (some fd)
  | .refused fd :: as => do
      call (.socket fd)
      call (.connect fd)
      call (.close fd)
      connectFirst as
  | .pending fd w clear :: as => do
      call (.socket fd)
      call (.connect fd)
      let ready ← nonceWait fd w
      if ready then do
        call (.getsockopt fd)
        if clear then pure (some fd)
        else do
          call (.close fd)
          connectFirst as
      else do
        call (.close fd)
        connectFirst as

/-- The handshake loop. Once the answers are used up, a call of the TLS layer fails. -/
def tlsHandshake (fd : Nat) : List TlsTurn → Traced NetCall Bool
  | [] => do
      call (.sslConnect fd false)
      pure false
  | .done _ :: _ => do
      call (.sslConnect fd true)
      pure true
  | .failed :: _ => do
      call (.sslConnect fd false)
      pure false
  | .want w :: ts => do
      call (.sslConnect fd false)
      let ready ← nonceWait fd w
      if ready then tlsHandshake fd ts else pure false

/-- `sizeof(buf)` in the TLS set-up -/
def tlsRoom : Nat := 512

/-- There is a name to expect, and it fits. -/
def TlsConf.hasName (tc : TlsConf) : Bool := tc.name ≠ [] && tc.name.length < tlsRoom

def TlsConf.peer (tc : TlsConf) (host : Bytes) : Peer :=
  if tc.hasName then .host tc.name else .ip host

def caFailed (tc : TlsConf) (vr : VerifyResult) : VerifyResult :=
  if tc.ca ≠ [] then deferDiag vr .err "pgp_auth: redis TLS: cannot load CA \"%V\"" [tc.ca]
  else vr

def handshakeFailed (tc : TlsConf) (vr : VerifyResult) : VerifyResult :=
  deferDiag vr .err "pgp_auth: redis TLS handshake failed (verify=%d, cert must match %s)"
    [if tc.verify then ascii "1" else ascii "0",
      if tc.name ≠ [] then ascii "the configured tls_name" else ascii "the IP address"]

/-- The verification mode of the context: whether it could be set up. -/
def tlsTrust (tc : TlsConf) (env : TlsEnv) (vr : VerifyResult) :
    Traced NetCall (Bool × VerifyResult) :=
  if tc.verify = false then do
    call (.setVerify false)
    pure (true, vr)
  else if tc.ca ≠ [] ∧ tlsRoom ≤ tc.ca.length then pure (false, vr)
  else do
    call (.loadTrust tc.ca)
    if env.trust = false then pure (false, caFailed tc vr)
    else do
      call (.setVerify true)
      pure (true, vr)

/-- `SSL_set_tlsext_host_name`, where there is a name. -/
def tlsServerName (tc : TlsConf) : Traced NetCall Unit :=
  if tc.hasName then call (.serverName tc.name) else pure ()

/-- The identity the certificate has to show. -/
def tlsExpect (tc : TlsConf) (host : Bytes) (env : TlsEnv) : Traced NetCall Bool :=
  if tc.verify = false then pure true
  else if env.setPeer then do
    call (.expectPeer (tc.peer host))
    pure true
  else pure false

/-- The session once its object exists. -/
def tlsSession (tc : TlsConf) (host : Bytes) (fd : Nat) (env : TlsEnv) (vr : VerifyResult) :
    Traced NetCall (Bool × VerifyResult) := do
  call (.sslSetFd fd)
  if env.setFd = false then pure (false, vr)
  else do
    tlsServerName tc
    let expected ← tlsExpect tc host env
    if expected = false then pure (false, vr)
    else do
      let shaken ← tlsHandshake fd env.handshake
      if shaken then pure (true, vr) else pure (false, handshakeFailed tc vr)

/-- `ngx_http_pgp_nonce_tls`: whether there is a session. On failure everything it made is
freed. -/
def nonceTls (tc : TlsConf) (host : Bytes) (fd : Nat) (env : TlsEnv) (vr : VerifyResult) :
    Traced NetCall (Bool × VerifyResult) :=
  if env.ctx = false then pure (false, vr)
  else do
    call .ctxNew
    let trust ← tlsTrust tc env vr
    if trust.1 = false then do
      call .ctxFree
      pure (false, trust.2)
    else if env.ssl = false then do
      call .ctxFree
      pure (false, trust.2)
    else do
      call .sslNew
      let session ← tlsSession tc host fd env trust.2
      if session.1 then pure session
      else do
        call .sslFree
        call .ctxFree
        pure session

/-- The write loop on a plain connection. -/
def sendPlain (fd : Nat) : List (Wait × Option Nat) → Bytes → Traced NetCall Bool
  | _, [] => pure true
  | [], _ :: _ => do
      call (.poll fd)
      pure false
  | (w, took) :: ts, b :: bs => do
      let ready ← nonceWait fd w
      if ready = false then pure false
      else
        match took with
        | none => do
            call (.send fd [])
            pure false
        | some n => do
            call (.send fd ((b :: bs).take (n + 1)))
            sendPlain fd ts ((b :: bs).drop (n + 1))

/-- The write loop in a TLS session. -/
def sendTls (fd : Nat) : List TlsTurn → Bytes → Traced NetCall Bool
  | _, [] => pure true
  | [], _ :: _ => do
      call (.sslWrite fd [])
      pure false
  | .failed :: _, _ :: _ => do
      call (.sslWrite fd [])
      pure false
  | .want w :: ts, b :: bs => do
      call (.sslWrite fd [])
      let ready ← nonceWait fd w
      if ready then sendTls fd ts (b :: bs) else pure false
  | .done more :: ts, b :: bs => do
      call (.sslWrite fd ((b :: bs).take (more + 1)))
      sendTls fd ts ((b :: bs).drop (more + 1))

/-- The read in a TLS session: whether it gets to what has arrived. -/
def recvTls (fd : Nat) : List TlsTurn → Traced NetCall Bool
  | [] => do
      call (.sslRead fd)
      pure false
  | .failed :: _ => do
      call (.sslRead fd)
      pure false
  | .want w :: ts => do
      call (.sslRead fd)
      let ready ← nonceWait fd w
      if ready then recvTls fd ts else pure false
  | .done _ :: _ => do
      call (.sslRead fd)
      pure true

def recvPlain (fd : Nat) (w : Wait) : Traced NetCall Bool := do
  let ready ← nonceWait fd w
  if ready then do
    call (.recv fd)
    pure true
  else pure false

def tripSend (fd : Nat) (tls : Bool) (env : TripEnv) (cmd : Bytes) : Traced NetCall Bool :=
  if tls then sendTls fd env.tlsSends cmd else sendPlain fd env.sends cmd

def tripRecv (fd : Nat) (tls : Bool) (env : TripEnv) : Traced NetCall Bool :=
  if tls then recvTls fd env.tlsReads else recvPlain fd env.recvWait

/-- `ngx_http_pgp_nonce_redis_roundtrip`, up to the bytes that are read: whether a read is
reached. -/
def tripReaches (fd : Nat) (tls : Bool) (env : TripEnv) (cmd : Bytes) : Traced NetCall Bool := do
  let sent ← tripSend fd tls env cmd
  if sent then tripRecv fd tls env else pure false

/-- The read takes at most 127 bytes of the first piece; an empty piece, or none, is the end
of the connection. -/
def redisRoundtripCalls (fd : Nat) (tls : Bool) (env : TripEnv) (cmd : Bytes)
    (inbox : List Bytes) : Traced NetCall (Option Bytes × List Bytes) := do
  let reached ← tripReaches fd tls env cmd
  pure (nonceRedisRoundtrip reached inbox)

/-- The part of the client that talks over the connection. -/
def redisExchangeCalls (nc : LocConf) (vr : VerifyResult) (nonce : Bytes) (ttl fd : Nat)
    (env : NetEnv) : Traced NetCall (Rc × VerifyResult) :=
  let set := redisSetCommand nc.nonceKeyPrefix nonce ttl
  if nc.noncePassword = [] then do
    let trip ← redisRoundtripCalls fd nc.nonceTls env.set set env.inbox
    pure (redisVerdict vr trip.1)
  else do
    let auth := redisAuthCommand nc.noncePassword
    let trip ← redisRoundtripCalls fd nc.nonceTls env.auth auth env.inbox
    if trip.1.any (startsWith '+') then do
      let trip ← redisRoundtripCalls fd nc.nonceTls env.set set trip.2
      pure (redisVerdict vr trip.1)
    else pure (.error, deferDiag vr .err "pgp_auth: redis AUTH failed" [])

/-- `done:` -/
def redisDone (tls : Bool) (fd : Nat) : Traced NetCall Unit :=
  if tls then do
    call .sslShutdown
    call .sslFree
    call .ctxFree
    call (.close fd)
  else call (.close fd)

/-- From the connected socket on. -/
def redisConnected (nc : LocConf) (tc : TlsConf) (vr : VerifyResult) (nonce : Bytes)
    (ttl fd : Nat) (env : NetEnv) : Traced NetCall (Rc × VerifyResult) := do
  let session ←
    (if nc.nonceTls then nonceTls tc (hostPart nc.nonceAddr) fd env.tls vr
      else pure (true, vr) : Traced NetCall (Bool × VerifyResult))
  if session.1 = false then do
    call (.close fd)
    pure (.error, session.2)
  else do
    let out ← redisExchangeCalls nc session.2 nonce ttl fd env
    redisDone nc.nonceTls fd
    pure out

/-- `ngx_http_pgp_nonce_redis`, with its calls. -/
def nonceRedisCalls (nc : LocConf) (tc : TlsConf) (vr : VerifyResult) (nonce : Bytes) (exp : Int)
    (env : NetEnv) : Traced NetCall (Rc × VerifyResult) :=
  let ttl := exp - env.now
  if ttl ≤ 0 then pure (.declined, vr)
  else if nc.nonceAddr = [] ∨ 256 ≤ nc.nonceAddr.length then pure (.error, vr)
  else if 58 ∉ nc.nonceAddr then pure (.error, vr)
  else
    match env.addrs with
    | none => pure (.error, deferDiag vr .err
        "pgp_auth: redis address \"%s\" is not a numeric host:port (hostnames are not supported; use an IP)"
        [hostPart nc.nonceAddr])
    | some dials => do
        call .getaddrinfo
        let sock ← connectFirst dials
        call .freeaddrinfo
        match sock with
        | none => pure (.abort, deferDiag vr .err "pgp_auth: redis connect failed" [])
        | some fd => redisConnected nc tc vr nonce ttl.toNat fd env

/-! ## The calls summed up -/

/-- The TLS set-up succeeds. -/
def TlsEnv.succeeds (env : TlsEnv) (tc : TlsConf) : Bool :=
  env.ctx && (!tc.verify || (tc.ca.length < tlsRoom && env.trust)) && env.ssl && env.setFd &&
    (!tc.verify || env.setPeer) && (tlsHandshake 0 env.handshake).val

def NetEnv.toRedis (env : NetEnv) (nc : LocConf) (tc : TlsConf) (nonce : Bytes)
    (exp : Int) : RedisEnv where
  now := env.now
  numericAddr := env.addrs.isSome
  connect := (connectFirst (env.addrs.getD [])).val.isSome
  tls := env.tls.succeeds tc
  authWritten :=
    (tripReaches 0 nc.nonceTls env.auth (redisAuthCommand nc.noncePassword)).val
  setWritten :=
    (tripReaches 0 nc.nonceTls env.set
      (redisSetCommand nc.nonceKeyPrefix nonce (exp - env.now).toNat)).val
  inbox := env.inbox

section Val

variable (fd : Nat)

theorem nonceWait_val (w : Wait) : (nonceWait fd w).val = w.ready := rfl

theorem tlsHandshake_val (turns : List TlsTurn) :
    (tlsHandshake fd turns).val = (tlsHandshake 0 turns).val := by
  induction turns with
  | nil => rfl
  | cons t ts ih =>
      cases t with
      | done more => rfl
      | failed => rfl
      | want w =>
          obtain ⟨intrs, ready⟩ := w
          cases ready with
          | false => rfl
          | true => exact ih

theorem sendTls_val (turns : List TlsTurn) (left : Bytes) :
    (sendTls fd turns left).val = (sendTls 0 turns left).val := by
  induction turns generalizing left with
  | nil => cases left <;> rfl
  | cons t ts ih =>
      cases left with
      | nil => cases t <;> rfl
      | cons b bs =>
          cases t with
          | done more => exact ih _
          | failed => rfl
          | want w =>
              obtain ⟨intrs, ready⟩ := w
              cases ready with
              | false => rfl
              | true => exact ih _

theorem sendPlain_val (sends : List (Wait × Option Nat)) (left : Bytes) :
    (sendPlain fd sends left).val = (sendPlain 0 sends left).val := by
  induction sends generalizing left with
  | nil => cases left <;> rfl
  | cons t ts ih =>
      obtain ⟨⟨intrs, ready⟩, took⟩ := t
      cases left with
      | nil => rfl
      | cons b bs =>
          cases ready with
          | false => rfl
          | true =>
              cases took with
              | none => rfl
              | some n => exact ih _

theorem recvTls_val (turns : List TlsTurn) : (recvTls fd turns).val = (recvTls 0 turns).val := by
  induction turns with
  | nil => rfl
  | cons t ts ih =>
      cases t with
      | done more => rfl
      | failed => rfl
      | want w =>
          obtain ⟨intrs, ready⟩ := w
          cases ready with
          | false => rfl
          | true => exact ih

theorem recvPlain_val (w : Wait) : (recvPlain fd w).val = w.ready := by
  obtain ⟨intrs, ready⟩ := w
  cases ready <;> rfl

theorem tripReaches_val (tls : Bool) (env : TripEnv) (cmd : Bytes) :
    (tripReaches fd tls env cmd).val = (tripReaches 0 tls env cmd).val := by
  cases tls with
  | true =>
      simp only [tripReaches, tripSend, tripRecv, val_bind, if_true, sendTls_val fd]
      split_ifs
      · exact recvTls_val fd _
      · rfl
  | false =>
      simp only [tripReaches, tripSend, tripRecv, val_bind, Bool.false_eq_true, if_false,
        sendPlain_val fd]
      split_ifs
      · rw [recvPlain_val, recvPlain_val]
      · rfl

end Val

theorem tlsTrust_val (tc : TlsConf) (env : TlsEnv) (vr : VerifyResult) :
    (tlsTrust tc env vr).val.1 = (!tc.verify || (tc.ca.length < tlsRoom && env.trust)) ∧
      ((tlsTrust tc env vr).val.1 = true → (tlsTrust tc env vr).val.2 = vr) := by
  unfold tlsTrust
  cases hVerify : tc.verify with
  | false => simp
  | true =>
      by_cases hLong : tlsRoom ≤ tc.ca.length
      · have hCa : tc.ca ≠ [] := by
          rintro h
          rw [h] at hLong
          exact absurd hLong (by decide)
        simp [hLong, hCa]
      · have hShort : tc.ca.length < tlsRoom := Nat.lt_of_not_le hLong
        cases env.trust <;> simp [hLong, hShort]

theorem tlsSession_val (tc : TlsConf) (host : Bytes) (fd : Nat) (env : TlsEnv)
    (vr : VerifyResult) :
    (tlsSession tc host fd env vr).val.1 =
        (env.setFd && (!tc.verify || env.setPeer) && (tlsHandshake 0 env.handshake).val) ∧
      ((tlsSession tc host fd env vr).val.1 = true →
        (tlsSession tc host fd env vr).val.2 = vr) := by
  have hExpect : (tlsExpect tc host env).val = (!tc.verify || env.setPeer) := by
    unfold tlsExpect
    cases tc.verify <;> cases env.setPeer <;> rfl
  unfold tlsSession
  simp only [val_bind]
  cases hFd : env.setFd with
  | false => simp
  | true =>
      simp only [Bool.true_eq_false, if_false, val_bind, hExpect]
      cases (!tc.verify || env.setPeer) with
      | false => simp
      | true =>
          cases hShaken : (tlsHandshake 0 env.handshake).val <;>
            simp [tlsHandshake_val fd, hShaken]

theorem nonceTls_val (tc : TlsConf) (host : Bytes) (fd : Nat) (env : TlsEnv)
    (vr : VerifyResult) :
    (nonceTls tc host fd env vr).val.1 = env.succeeds tc ∧
      (env.succeeds tc = true → (nonceTls tc host fd env vr).val.2 = vr) := by
  obtain ⟨hTrust, hTrustVr⟩ := tlsTrust_val tc env vr
  unfold nonceTls TlsEnv.succeeds
  rw [← hTrust]
  cases env.ctx with
  | false => simp
  | true =>
      cases hOk : (tlsTrust tc env vr).val.1 with
      | false => simp [hOk]
      | true =>
          obtain ⟨hSession, hSessionVr⟩ := tlsSession_val tc host fd env vr
          cases env.ssl with
          | false => simp
          | true =>
              simp only [Bool.true_eq_false, if_false, val_bind, hOk, hTrustVr hOk, Bool.true_and]
              rw [← hSession]
              cases hEnd : (tlsSession tc host fd env vr).val.1 with
              | false => simp [hEnd]
              | true => simp [hEnd, hSessionVr hEnd]

theorem redisExchangeCalls_val (nc : LocConf) (tc : TlsConf) (vr : VerifyResult) (nonce : Bytes)
    (exp : Int) (fd : Nat) (env : NetEnv) :
    (redisExchangeCalls nc vr nonce (exp - env.now).toNat fd env).val =
      ((redisExchange nc vr nonce (exp - env.now).toNat (env.toRedis nc tc nonce exp)).1,
        (redisExchange nc vr nonce (exp - env.now).toNat (env.toRedis nc tc nonce exp)).2.1) := by
  unfold redisExchangeCalls redisExchange
  by_cases hPassword : nc.noncePassword = []
  · simp only [hPassword, if_true, val_bind, redisRoundtripCalls, val_pure, tripReaches_val fd,
      NetEnv.toRedis]
  · simp only [hPassword, if_false, val_bind, redisRoundtripCalls, val_pure, tripReaches_val fd,
      NetEnv.toRedis]
    by_cases hPlus : (nonceRedisRoundtrip (tripReaches 0 nc.nonceTls env.auth
        (redisAuthCommand nc.noncePassword)).val env.inbox).1.any (startsWith '+') = true
    · simp only [hPlus, if_true, val_bind, val_pure, tripReaches_val fd]
    · rw [Bool.not_eq_true] at hPlus
      simp only [hPlus, Bool.false_eq_true, if_false, val_pure]

theorem redisConnected_val (nc : LocConf) (tc : TlsConf) (vr : VerifyResult) (nonce : Bytes)
    (exp : Int) (fd : Nat) (env : NetEnv) :
    (nc.nonceTls = true ∧ env.tls.succeeds tc = false ∧
        (redisConnected nc tc vr nonce (exp - env.now).toNat fd env).val.1 = .error) ∨
      (nc.nonceTls = true → env.tls.succeeds tc = true) ∧
        (redisConnected nc tc vr nonce (exp - env.now).toNat fd env).val =
          (redisExchangeCalls nc vr nonce (exp - env.now).toNat fd env).val := by
  unfold redisConnected
  cases hTls : nc.nonceTls with
  | false => exact .inr ⟨by simp, rfl⟩
  | true =>
      obtain ⟨hVal, hVr⟩ := nonceTls_val tc (hostPart nc.nonceAddr) fd env.tls vr
      cases hOk : env.tls.succeeds tc with
      | false =>
          rw [hOk] at hVal
          exact .inl ⟨rfl, rfl, by simp [hVal]⟩
      | true =>
          rw [hOk] at hVal
          exact .inr ⟨fun _ => rfl, by simp [hVal, hVr hOk]⟩

/-- The calls come to the verdict of `nonceRedis`, and to its diagnostics as long as TLS is
set up. -/
theorem nonceRedisCalls_val (nc : LocConf) (tc : TlsConf) (vr : VerifyResult) (nonce : Bytes)
    (exp : Int) (env : NetEnv) :
    (nonceRedisCalls nc tc vr nonce exp env).val.1 =
        (nonceRedis nc vr nonce exp (env.toRedis nc tc nonce exp)).1 ∧
      ((nc.nonceTls = true → env.tls.succeeds tc = true) →
        (nonceRedisCalls nc tc vr nonce exp env).val.2 =
          (nonceRedis nc vr nonce exp (env.toRedis nc tc nonce exp)).2.1) := by
  have hNow : (env.toRedis nc tc nonce exp).now = env.now := rfl
  unfold nonceRedisCalls nonceRedis
  rw [hNow]
  dsimp only
  by_cases hTtl : exp - env.now ≤ 0
  · simp [hTtl]
  by_cases hAddr : nc.nonceAddr = [] ∨ 256 ≤ nc.nonceAddr.length
  · simp [hTtl, hAddr]
  by_cases hColon : 58 ∈ nc.nonceAddr
  swap
  · simp [hTtl, hAddr, hColon]
  cases hAddrs : env.addrs with
  | none =>
      have hNumeric : (env.toRedis nc tc nonce exp).numericAddr = false := by
        simp [NetEnv.toRedis, hAddrs]
      simp [hTtl, hAddr, hColon, hNumeric]
  | some dials =>
      have hNumeric : (env.toRedis nc tc nonce exp).numericAddr = true := by
        simp [NetEnv.toRedis, hAddrs]
      have hConnect : (env.toRedis nc tc nonce exp).connect =
          (connectFirst dials).val.isSome := by
        simp [NetEnv.toRedis, hAddrs]
      cases hSock : (connectFirst dials).val with
      | none => simp [hTtl, hAddr, hColon, hNumeric, hConnect, hSock]
      | some fd =>
          have hSame := redisExchangeCalls_val nc tc vr nonce exp fd env
          have hTlsEnv : (env.toRedis nc tc nonce exp).tls = env.tls.succeeds tc := rfl
          rw [hSock, Option.isSome_some] at hConnect
          simp only [hTtl, hAddr, hColon, hNumeric, hConnect, hTlsEnv, hSock, if_false,
            not_true_eq_false, Bool.true_eq_false, val_bind]
          obtain ⟨hOn, hFails, hRc⟩ | ⟨hOk, hVal⟩ := redisConnected_val nc tc vr nonce exp fd env
          · rw [if_pos ⟨hOn, hFails⟩, hRc]
            refine ⟨rfl, fun h => ?_⟩
            rw [h hOn] at hFails
            cases hFails
          · rw [if_neg (fun h => by rw [hOk h.1] at h; exact absurd h.2 (by decide)), hVal, hSame]
            exact ⟨rfl, fun _ => rfl⟩

end PgpAuth
