import PgpAuth.Nonce.Memory

/-!
# The `redis` nonce store and the choice of backend

`nonceRedis` is the blocking client: AUTH where a password is set, then one `SET … NX EX`
whose first reply byte is the verdict. What the network does is in `RedisEnv`: which
steps of the connection succeed, and the pieces in which reply bytes arrive, one for each
read. The TLS handshake is one outcome of the environment.

`nonceCheckAndSet` combines the two stores. The commands handed to Redis are kept in
`NonceState.sent`, beside the node's own zone, so that both halves of the store can be
compared.
-/

namespace PgpAuth

open Lib

/-- Outcomes met by one call of the client. `inbox` holds the reply bytes in the pieces in
which they arrive; a read that finds no piece times out. -/
structure RedisEnv where
  now : Nat
  numericAddr : Bool
  connect : Bool
  tls : Bool
  authWritten : Bool
  setWritten : Bool
  inbox : List Bytes
  deriving DecidableEq, Repr

def crlf : Bytes := [13, 10]

/-- `$<length>` and the bytes, as RESP writes a string. -/
def respBulk (s : Bytes) : Bytes := ascii "$" ++ decimal s.length ++ crlf ++ s ++ crlf

/-- `char buf[512]`: a longer command is cut off. -/
def redisAuthCommand (password : Bytes) : Bytes :=
  (ascii "*2" ++ crlf ++ respBulk (ascii "AUTH") ++ respBulk password).take 512

def redisSetCommand (keyPrefix nonce : Bytes) (ttl : Nat) : Bytes :=
  (ascii "*6" ++ crlf ++ respBulk (ascii "SET") ++ respBulk (keyPrefix ++ nonce) ++
    respBulk (ascii "1") ++ respBulk (ascii "NX") ++ respBulk (ascii "EX") ++
    respBulk (decimal ttl)).take 512

/-- Send a command and read once: at most 127 bytes of what has arrived, and the rest
stays for the next read. -/
def nonceRedisRoundtrip (written : Bool) (inbox : List Bytes) : Option Bytes × List Bytes :=
  match written, inbox with
  | true, (b :: bs) :: rest =>
      (some ((b :: bs).take 127),
        if (b :: bs).drop 127 = [] then rest else (b :: bs).drop 127 :: rest)
  | _, _ => (none, inbox)

def okReply : Bytes := ascii "+OK" ++ crlf

def nilReply : Bytes := ascii "$-1" ++ crlf

def startsWith (c : Char) (reply : Bytes) : Bool := reply.head? == some (charByte c)

/-- Verdict on the reply to `SET`. -/
def redisVerdict (vr : VerifyResult) (reply : Option Bytes) : Rc × VerifyResult :=
  match reply with
  | none => (.error, vr)
  | some r =>
      if startsWith '+' r then (.ok, vr)
      else if startsWith '$' r || startsWith '_' r then (.declined, vr)
      else if startsWith '-' r then
        (.error, deferDiag vr .err "pgp_auth: redis error reply: %s" [r])
      else (.error, vr)

/-- What the first byte of a reply says about it. -/
def rcOfByte (b : Option UInt8) : Rc :=
  if b = some (charByte '+') then .ok
  else if b = some (charByte '$') ∨ b = some (charByte '_') then .declined
  else .error

theorem redisVerdict_rc (vr : VerifyResult) (reply : Option Bytes) :
    (redisVerdict vr reply).1 = rcOfByte (reply.bind List.head?) := by
  cases reply with
  | none => rfl
  | some r =>
      simp only [redisVerdict, rcOfByte, startsWith, Option.bind_some, beq_iff_eq,
        Bool.or_eq_true]
      split_ifs <;> rfl

theorem rcOfByte_eq_ok {b : Option UInt8} : rcOfByte b = .ok ↔ b = some (charByte '+') := by
  unfold rcOfByte
  split_ifs with hPlus hNull <;> simp [hPlus]

/-- The part of the client that talks over the established connection. -/
def redisExchange (nc : LocConf) (vr : VerifyResult) (nonce : Bytes) (ttl : Nat)
    (env : RedisEnv) : Rc × VerifyResult × List Bytes :=
  let set := redisSetCommand nc.nonceKeyPrefix nonce ttl
  if nc.noncePassword = [] then
    let out := redisVerdict vr (nonceRedisRoundtrip env.setWritten env.inbox).1
    (out.1, out.2, [set])
  else
    let auth := redisAuthCommand nc.noncePassword
    let trip := nonceRedisRoundtrip env.authWritten env.inbox
    if trip.1.any (startsWith '+') then
      let out := redisVerdict vr (nonceRedisRoundtrip env.setWritten trip.2).1
      (out.1, out.2, [auth, set])
    else (.error, deferDiag vr .err "pgp_auth: redis AUTH failed" [], [auth])

/-- The text before the last colon. -/
def hostPart (addr : Bytes) : Bytes := ((addr.reverse.dropWhile (· ≠ 58)).drop 1).reverse

/-- Result, diagnostics, and the commands handed to Redis. -/
def nonceRedis (nc : LocConf) (vr : VerifyResult) (nonce : Bytes) (exp : Int)
    (env : RedisEnv) : Rc × VerifyResult × List Bytes :=
  let ttl := exp - env.now
  if ttl ≤ 0 then (.declined, vr, [])
  else if nc.nonceAddr = [] ∨ 256 ≤ nc.nonceAddr.length then (.error, vr, [])
  else if 58 ∉ nc.nonceAddr then (.error, vr, [])
  else if env.numericAddr = false then
    (.error, deferDiag vr .err
      "pgp_auth: redis address \"%s\" is not a numeric host:port (hostnames are not supported; use an IP)"
      [hostPart nc.nonceAddr], [])
  else if env.connect = false then
    (.abort, deferDiag vr .err "pgp_auth: redis connect failed" [], [])
  else if nc.nonceTls ∧ env.tls = false then (.error, vr, [])
  else redisExchange nc vr nonce ttl.toNat env

/-- Nothing stops the call before its first command. -/
structure RedisEnv.Connected (env : RedisEnv) (nc : LocConf) : Prop where
  addr_ne_nil : nc.nonceAddr ≠ []
  addr_lt : nc.nonceAddr.length < 256
  colon_mem : 58 ∈ nc.nonceAddr
  numericAddr : env.numericAddr = true
  connect : env.connect = true
  tls : nc.nonceTls = true → env.tls = true

theorem nonceRedis_connected {nc : LocConf} {env : RedisEnv} {exp : Int} (h : env.Connected nc)
    (hTtl : env.now < exp) (vr : VerifyResult) (nonce : Bytes) :
    nonceRedis nc vr nonce exp env =
      redisExchange nc vr nonce (exp - env.now).toNat env := by
  have hNow : ¬exp - env.now ≤ 0 := by omega
  have hAddr : ¬(nc.nonceAddr = [] ∨ 256 ≤ nc.nonceAddr.length) := by
    have := h.addr_lt
    simp only [h.addr_ne_nil, false_or]
    omega
  have hTls : ¬(nc.nonceTls = true ∧ env.tls = false) := by
    rintro ⟨hOn, hFailed⟩
    rw [h.tls hOn] at hFailed
    cases hFailed
  simp only [nonceRedis, hNow, hAddr, h.colon_mem, h.numericAddr, h.connect, hTls, if_false,
    not_true_eq_false, Bool.true_eq_false]

/-- A call reaches the exchange, or ends before it: with nothing sent, nothing accepted and the
verdict of gpg as it was. -/
theorem nonceRedis_cases (nc : LocConf) (nonce : Bytes) (exp : Int) (env : RedisEnv) :
    (env.Connected nc ∧ env.now < exp ∧ ∀ vr, nonceRedis nc vr nonce exp env =
        redisExchange nc vr nonce (exp - env.now).toNat env) ∨
      ∃ rc, rc ≠ .ok ∧ ∀ vr, (nonceRedis nc vr nonce exp env).1 = rc ∧
        (nonceRedis nc vr nonce exp env).2.1.verdict = vr.verdict ∧
        (nonceRedis nc vr nonce exp env).2.2 = [] := by
  by_cases hTtl : exp - env.now ≤ 0
  · exact .inr ⟨.declined, by decide, fun vr => by simp [nonceRedis, hTtl]⟩
  by_cases hAddr : nc.nonceAddr = [] ∨ 256 ≤ nc.nonceAddr.length
  · exact .inr ⟨.error, by decide, fun vr => by simp [nonceRedis, hTtl, hAddr]⟩
  by_cases hColon : 58 ∈ nc.nonceAddr
  swap
  · exact .inr ⟨.error, by decide, fun vr => by simp [nonceRedis, hTtl, hAddr, hColon]⟩
  cases hNumeric : env.numericAddr with
  | false =>
      refine .inr ⟨.error, by decide, fun vr => ?_⟩
      simp [nonceRedis, hTtl, hAddr, hColon, hNumeric, deferDiag_verdict]
  | true =>
      cases hConnect : env.connect with
      | false =>
          refine .inr ⟨.abort, by decide, fun vr => ?_⟩
          simp [nonceRedis, hTtl, hAddr, hColon, hNumeric, hConnect, deferDiag_verdict]
      | true =>
          by_cases hTls : nc.nonceTls = true ∧ env.tls = false
          · refine .inr ⟨.error, by decide, fun vr => ?_⟩
            simp [nonceRedis, hTtl, hAddr, hColon, hNumeric, hConnect, hTls]
          · rw [not_or, not_le] at hAddr
            rw [not_and, Bool.not_eq_false] at hTls
            have hConn : env.Connected nc :=
              ⟨hAddr.1, hAddr.2, hColon, hNumeric, hConnect, hTls⟩
            exact .inl ⟨hConn, by omega, fun vr => nonceRedis_connected hConn (by omega) vr nonce⟩

theorem nonceRedis_not_connected {nc : LocConf} {env : RedisEnv} (h : ¬env.Connected nc)
    (vr : VerifyResult) (nonce : Bytes) (exp : Int) :
    (nonceRedis nc vr nonce exp env).2.2 = [] := by
  obtain ⟨hConn, -⟩ | ⟨rc, -, hEnds⟩ := nonceRedis_cases nc nonce exp env
  · exact absurd hConn h
  · exact (hEnds vr).2.2

/-- An enabled location with this password for its Redis, and defaults otherwise. -/
def redisConf (password : Bytes) : LocConf :=
  { LocConf.defaults (ascii "0123456789abcdef") with
    nonceStorage := .redis
    nonceAddr := ascii "127.0.0.1:6379"
    noncePassword := password }

/-- Every step of the client succeeds, and these pieces arrive. -/
def willingRedis (inbox : List Bytes) : RedisEnv := ⟨1000, true, true, true, true, true, inbox⟩

/-- A good signature, on its way to the nonce store. -/
def signedResult : VerifyResult := ⟨true, [], [], none, false, .error, none⟩

def signedNonce : Bytes := ascii "00112233445566778899aabbccddeeff"

theorem willingRedis_connected (password : Bytes) (inbox : List Bytes) :
    (willingRedis inbox).Connected (redisConf password) := by
  have hAddr : ascii "127.0.0.1:6379" ≠ [] ∧ (ascii "127.0.0.1:6379").length < 256 ∧
      58 ∈ ascii "127.0.0.1:6379" := by decide
  exact ⟨hAddr.1, hAddr.2.1, hAddr.2.2, rfl, rfl, fun _ => rfl⟩

/-! ## Both stores -/

/-- Outcomes met by one call of `ngx_http_pgp_nonce_check_and_set`. -/
structure NonceEnv where
  now : Nat
  slab : Slab
  redis : RedisEnv
  deriving DecidableEq, Repr

/-- The node's zone, and every command this node has handed to Redis. -/
structure NonceState where
  zone : NonceSh
  sent : List Bytes
  deriving DecidableEq, Repr

def NonceState.empty : NonceState := ⟨.empty, []⟩

variable (ops : ShmOps NonceNode)

/-- `nc->zone`, read through the pointer of the configuration. -/
def LocConf.zone? (nc : LocConf) (st : NonceState) : Option NonceSh :=
  if nc.nonceZone then some st.zone else none

/-- Consult the zone; `nc->zone` is null where the location has none. -/
def nonceLocal (nc : LocConf) (vr : VerifyResult) (nonce : Bytes) (exp : Int)
    (env : NonceEnv) (st : NonceState) : Rc × VerifyResult × NonceState :=
  let out := nonceMemory ops vr (nc.zone? st) nonce exp env.now env.slab
  (out.1, out.2.1, { st with zone := out.2.2.getD st.zone })

/-- Ask Redis; without a verdict from it the call fails. -/
def nonceFleet (nc : LocConf) (vr : VerifyResult) (nonce : Bytes) (exp : Int)
    (env : RedisEnv) (st : NonceState) : Rc × VerifyResult × NonceState :=
  let out := nonceRedis nc vr nonce exp env
  (if out.1 = .ok ∨ out.1 = .declined then out.1 else .error, out.2.1,
    { st with sent := st.sent ++ out.2.2 })

def nonceCheckAndSet (nc : LocConf) (vr : VerifyResult) (nonce : Bytes) (exp : Int)
    (env : NonceEnv) (st : NonceState) : Rc × VerifyResult × NonceState :=
  match nc.nonceStorage with
  | .memory => nonceLocal ops nc vr nonce exp env st
  | .redis =>
      if nc.nonceZone then
        let mem := nonceLocal ops nc vr nonce exp env st
        if mem.1 = .declined then mem
        else nonceFleet nc mem.2.1 nonce exp env.redis mem.2.2
      else nonceFleet nc vr nonce exp env.redis st
  | .none => (.ok, vr, st)

/-! ## The verdict of gpg is left alone -/

section Verdict

variable {ops}
variable (nc : LocConf) (vr : VerifyResult) (nonce : Bytes) (exp : Int)

theorem nonceMemory_verdict (zone : Option NonceSh) (now : Nat) (slab : Slab) :
    (nonceMemory ops vr zone nonce exp now slab).2.1.verdict = vr.verdict := by
  unfold nonceMemory
  split
  · rfl
  · split
    · rfl
    · dsimp only
      split
      · exact deferDiag_verdict _ _ _ _
      · rfl

theorem redisVerdict_verdict (reply : Option Bytes) :
    (redisVerdict vr reply).2.verdict = vr.verdict := by
  unfold redisVerdict
  split
  · rfl
  · split
    · rfl
    · split
      · rfl
      · split
        · exact deferDiag_verdict _ _ _ _
        · rfl

theorem redisExchange_verdict (ttl : Nat) (env : RedisEnv) :
    (redisExchange nc vr nonce ttl env).2.1.verdict = vr.verdict := by
  unfold redisExchange
  dsimp only
  split
  · exact redisVerdict_verdict _ _
  · split
    · exact redisVerdict_verdict _ _
    · exact deferDiag_verdict _ _ _ _

theorem nonceRedis_verdict (env : RedisEnv) :
    (nonceRedis nc vr nonce exp env).2.1.verdict = vr.verdict := by
  obtain ⟨-, -, hEq⟩ | ⟨rc, -, hEnds⟩ := nonceRedis_cases nc nonce exp env
  · rw [hEq]
    exact redisExchange_verdict _ _ _ _ _
  · exact (hEnds vr).2.1

theorem nonceCheckAndSet_verdict (env : NonceEnv) (st : NonceState) :
    (nonceCheckAndSet ops nc vr nonce exp env st).2.1.verdict = vr.verdict := by
  have hLocal : (nonceLocal ops nc vr nonce exp env st).2.1.verdict = vr.verdict :=
    nonceMemory_verdict _ _ _ _ _ _
  unfold nonceCheckAndSet
  cases nc.nonceStorage with
  | none => rfl
  | memory => exact hLocal
  | redis =>
      dsimp only
      split
      · split
        · exact hLocal
        · exact (nonceRedis_verdict _ _ _ _ _).trans hLocal
      · exact nonceRedis_verdict _ _ _ _ _

end Verdict

/-! ## When Redis accepts -/

section Accept

variable {nc : LocConf} {vr : VerifyResult} {nonce : Bytes} {exp : Int} {env : RedisEnv}
  {st : NonceState}

/-- Redis is asked before the expiry only, and its answer is the verdict. -/
theorem nonceRedis_ok (h : (nonceRedis nc vr nonce exp env).1 = .ok) :
    env.now < exp ∧ (redisExchange nc vr nonce (exp - env.now).toNat env).1 = .ok := by
  obtain ⟨-, hTtl, hEq⟩ | ⟨rc, hRc, hEnds⟩ := nonceRedis_cases nc nonce exp env
  · rw [hEq] at h
    exact ⟨hTtl, h⟩
  · exact absurd ((hEnds vr).1.symm.trans h) hRc

theorem nonceFleet_ok (h : (nonceFleet nc vr nonce exp env st).1 = .ok) :
    (nonceRedis nc vr nonce exp env).1 = .ok := by
  unfold nonceFleet at h
  dsimp only at h
  split at h
  · exact h
  · cases h

end Accept

/-! ## Diagnostics decide nothing

Code, zone and commands do not depend on the result record a call is given. -/

section Congr

variable (nc : LocConf) (vr vr' : VerifyResult) (nonce : Bytes) (exp : Int)

theorem redisVerdict_congr (reply : Option Bytes) :
    (redisVerdict vr reply).1 = (redisVerdict vr' reply).1 := by
  rw [redisVerdict_rc, redisVerdict_rc]

theorem redisExchange_congr (ttl : Nat) (env : RedisEnv) :
    (redisExchange nc vr nonce ttl env).1 = (redisExchange nc vr' nonce ttl env).1 ∧
      (redisExchange nc vr nonce ttl env).2.2 = (redisExchange nc vr' nonce ttl env).2.2 := by
  unfold redisExchange
  by_cases hPassword : nc.noncePassword = []
  · simp only [hPassword, if_true, and_true]
    exact redisVerdict_congr vr vr' _
  · simp only [hPassword, if_false]
    cases (nonceRedisRoundtrip env.authWritten env.inbox).1.any (startsWith '+') with
    | false => exact ⟨rfl, rfl⟩
    | true => exact ⟨redisVerdict_congr vr vr' _, rfl⟩

theorem nonceRedis_congr (env : RedisEnv) :
    (nonceRedis nc vr nonce exp env).1 = (nonceRedis nc vr' nonce exp env).1 ∧
      (nonceRedis nc vr nonce exp env).2.2 = (nonceRedis nc vr' nonce exp env).2.2 := by
  obtain ⟨-, -, hEq⟩ | ⟨rc, -, hEnds⟩ := nonceRedis_cases nc nonce exp env
  · rw [hEq, hEq]
    exact redisExchange_congr nc vr vr' nonce _ env
  · obtain ⟨hRc, -, hSent⟩ := hEnds vr
    obtain ⟨hRc', -, hSent'⟩ := hEnds vr'
    exact ⟨hRc.trans hRc'.symm, hSent.trans hSent'.symm⟩

theorem nonceLocal_congr (env : NonceEnv) (st : NonceState) :
    (nonceLocal ops nc vr nonce exp env st).1 = (nonceLocal ops nc vr' nonce exp env st).1 ∧
      (nonceLocal ops nc vr nonce exp env st).2.2 =
        (nonceLocal ops nc vr' nonce exp env st).2.2 := by
  unfold nonceLocal nonceMemory
  dsimp only
  split
  · exact ⟨rfl, rfl⟩
  · split
    · exact ⟨rfl, rfl⟩
    · exact ⟨rfl, rfl⟩

theorem nonceFleet_congr (env : RedisEnv) (st : NonceState) :
    (nonceFleet nc vr nonce exp env st).1 = (nonceFleet nc vr' nonce exp env st).1 ∧
      (nonceFleet nc vr nonce exp env st).2.2 = (nonceFleet nc vr' nonce exp env st).2.2 := by
  obtain ⟨hRc, hSent⟩ := nonceRedis_congr nc vr vr' nonce exp env
  simp only [nonceFleet, hRc, hSent, and_self]

theorem nonceCheckAndSet_congr (env : NonceEnv) (st : NonceState) :
    (nonceCheckAndSet ops nc vr nonce exp env st).1 =
        (nonceCheckAndSet ops nc vr' nonce exp env st).1 ∧
      (nonceCheckAndSet ops nc vr nonce exp env st).2.2 =
        (nonceCheckAndSet ops nc vr' nonce exp env st).2.2 := by
  obtain ⟨hRc, hZone⟩ := nonceLocal_congr ops nc vr vr' nonce exp env st
  unfold nonceCheckAndSet
  cases nc.nonceStorage with
  | none => exact ⟨rfl, rfl⟩
  | memory => exact ⟨hRc, hZone⟩
  | redis =>
      cases nc.nonceZone with
      | false => exact nonceFleet_congr nc vr vr' nonce exp env.redis st
      | true =>
          simp only [if_true, hRc]
          split
          · exact ⟨hRc, hZone⟩
          · rw [hZone]
            exact nonceFleet_congr nc _ _ nonce exp env.redis _

end Congr

end PgpAuth
