import PgpAuth.Nonce.Client

/-!
# What the Redis client takes and gives back

The address list, the sockets of all attempts, the TLS context and the session, on every
path through `nonceRedisCalls`: `nonceRedisCalls_settles`.
-/

namespace PgpAuth

open Lib Lib.Traced

inductive NetRes where
  | addrs
  | sock (fd : Nat)
  | ctx
  | ssl
  deriving DecidableEq, Repr

/-- What a call does to these; the session stands on its context and its socket. -/
def NetCall.ops : NetCall → List (Op NetRes)
  | .getaddrinfo => [.acquire .addrs]
  | .freeaddrinfo => [.release .addrs]
  | .socket fd => [.use .addrs, .acquire (.sock fd)]
  | .connect fd => [.use .addrs, .use (.sock fd)]
  | .poll fd => [.use (.sock fd)]
  | .getsockopt fd => [.use (.sock fd)]
  | .close fd => [.release (.sock fd)]
  | .send fd _ => [.use (.sock fd)]
  | .recv fd => [.use (.sock fd)]
  | .ctxNew => [.acquire .ctx]
  | .loadTrust _ => [.use .ctx]
  | .setVerify _ => [.use .ctx]
  | .ctxFree => [.release .ctx]
  | .sslNew => [.use .ctx, .acquire .ssl]
  | .sslSetFd fd => [.use .ssl, .use (.sock fd)]
  | .serverName _ => [.use .ssl]
  | .expectPeer _ => [.use .ssl]
  | .sslConnect fd _ => [.use .ssl, .use (.sock fd)]
  | .sslWrite fd _ => [.use .ssl, .use (.sock fd)]
  | .sslRead fd => [.use .ssl, .use (.sock fd)]
  | .sslShutdown => [.use .ssl]
  | .sslFree => [.use .ctx, .release .ssl]

/-- The descriptor an attempt may open. -/
def Dial.fd? : Dial → Option Nat
  | .noSocket => none
  | .connected fd => some fd
  | .refused fd => some fd
  | .pending fd _ _ => some fd

/-- Nothing of this client is held yet, and the kernel hands out no socket that is in use. -/
structure NetEnv.Fresh (env : NetEnv) (held : Finset NetRes) : Prop where
  addrs : .addrs ∉ held
  ctx : .ctx ∉ held
  ssl : .ssl ∉ held
  socks : ∀ as, env.addrs = some as → ∀ a ∈ as, ∀ fd, a.fd? = some fd → .sock fd ∉ held

section Settles

variable {held : Finset NetRes} {fd : Nat}

theorem nonceWait_settles (w : Wait) (hFd : .sock fd ∈ held) :
    Settles NetCall.ops held (nonceWait fd w) (fun _ => held) := by
  refine settles_bind (Q := fun _ => held) ?_ (settles_pure rfl)
  obtain ⟨intrs, ready⟩ := w
  induction intrs with
  | zero => exact settles_call (settle_use hFd _)
  | succ n ih => exact settles_call_bind (settle_use hFd _) ih

theorem connect_settles {α : Type} {x : Traced NetCall α} {Q : α → Finset NetRes}
    (hAddrs : .addrs ∈ held) (hFd : .sock fd ∉ held)
    (hx : Settles NetCall.ops (insert (.sock fd) held) x Q) :
    Settles NetCall.ops held (call (.socket fd) >>= fun _ => call (.connect fd) >>= fun _ => x)
      Q := by
  refine settles_call_bind ((settle_use hAddrs _).trans (settle_acquire hFd _)) ?_
  exact settles_call_bind ((settle_use (Finset.mem_insert_of_mem hAddrs) _).trans
    (settle_use (Finset.mem_insert_self _ _) _)) hx

theorem close_settles {α : Type} {x : Traced NetCall α} {Q : α → Finset NetRes}
    (hFd : .sock fd ∉ held) (hx : Settles NetCall.ops held x Q) :
    Settles NetCall.ops (insert (.sock fd) held) (call (.close fd) >>= fun _ => x) Q :=
  settles_call_bind (settle_release hFd _) hx

/-- The sockets of failed attempts are closed; the one that is connected is kept. -/
theorem connectFirst_settles (hAddrs : .addrs ∈ held) {dials : List Dial}
    (hFresh : ∀ a ∈ dials, ∀ fd, a.fd? = some fd → .sock fd ∉ held) :
    Settles NetCall.ops held (connectFirst dials)
      (fun sock => match sock with
        | none => held
        | some fd => insert (.sock fd) held) := by
  induction dials with
  | nil => exact settles_pure rfl
  | cons a as ih =>
      have hRest := ih fun a ha => hFresh a (List.mem_cons_of_mem _ ha)
      cases a with
      | noSocket => exact hRest
      | connected fd =>
          have hFd := hFresh _ List.mem_cons_self fd rfl
          exact connect_settles hAddrs hFd (settles_pure rfl)
      | refused fd =>
          have hFd := hFresh _ List.mem_cons_self fd rfl
          exact connect_settles hAddrs hFd (close_settles hFd hRest)
      | pending fd w clear =>
          have hFd := hFresh _ List.mem_cons_self fd rfl
          have hIn := Finset.mem_insert_self (NetRes.sock fd) held
          refine connect_settles hAddrs hFd (settles_bind (nonceWait_settles w hIn) ?_)
          rw [nonceWait_val]
          split_ifs with hReady hClear
          · exact settles_call_bind (settle_use hIn _) (settles_pure rfl)
          · exact settles_call_bind (settle_use hIn _) (close_settles hFd hRest)
          · exact close_settles hFd hRest

/-- The connected socket is one of those the attempts opened. -/
theorem connectFirst_fresh {dials : List Dial} {fd : Nat}
    (hSock : (connectFirst dials).val = some fd)
    (hFresh : ∀ a ∈ dials, ∀ fd, a.fd? = some fd → .sock fd ∉ held) : .sock fd ∉ held := by
  induction dials with
  | nil => cases hSock
  | cons a as ih =>
      have hRest (h : (connectFirst as).val = some fd) : NetRes.sock fd ∉ held :=
        ih h fun a ha => hFresh a (List.mem_cons_of_mem _ ha)
      cases a with
      | noSocket => exact hRest hSock
      | connected fd' =>
          cases hSock
          exact hFresh _ List.mem_cons_self fd rfl
      | refused fd' => exact hRest hSock
      | pending fd' w clear =>
          obtain ⟨intrs, ready⟩ := w
          cases ready with
          | false => exact hRest hSock
          | true =>
              cases clear with
              | false => exact hRest hSock
              | true =>
                  cases hSock
                  exact hFresh _ List.mem_cons_self fd rfl

section Session

variable (hSsl : .ssl ∈ held) (hFd : .sock fd ∈ held)

include hSsl hFd

theorem tlsHandshake_settles (turns : List TlsTurn) :
    Settles NetCall.ops held (tlsHandshake fd turns) (fun _ => held) := by
  have hUse := (settle_use hSsl [.use (.sock fd)]).trans (settle_use hFd [])
  induction turns with
  | nil => exact settles_call_bind hUse (settles_pure rfl)
  | cons t ts ih =>
      cases t with
      | done more => exact settles_call_bind hUse (settles_pure rfl)
      | failed => exact settles_call_bind hUse (settles_pure rfl)
      | want w =>
          refine settles_call_bind hUse (settles_bind (nonceWait_settles w hFd) ?_)
          split_ifs
          · exact ih
          · exact settles_pure rfl

theorem sendTls_settles (turns : List TlsTurn) (left : Bytes) :
    Settles NetCall.ops held (sendTls fd turns left) (fun _ => held) := by
  have hUse := (settle_use hSsl [.use (.sock fd)]).trans (settle_use hFd [])
  induction turns generalizing left with
  | nil =>
      cases left with
      | nil => exact settles_pure rfl
      | cons b bs => exact settles_call_bind hUse (settles_pure rfl)
  | cons t ts ih =>
      cases left with
      | nil => cases t <;> exact settles_pure rfl
      | cons b bs =>
          cases t with
          | done more => exact settles_call_bind hUse (ih _)
          | failed => exact settles_call_bind hUse (settles_pure rfl)
          | want w =>
              refine settles_call_bind hUse (settles_bind (nonceWait_settles w hFd) ?_)
              split_ifs
              · exact ih _
              · exact settles_pure rfl

theorem recvTls_settles (turns : List TlsTurn) :
    Settles NetCall.ops held (recvTls fd turns) (fun _ => held) := by
  have hUse := (settle_use hSsl [.use (.sock fd)]).trans (settle_use hFd [])
  induction turns with
  | nil => exact settles_call_bind hUse (settles_pure rfl)
  | cons t ts ih =>
      cases t with
      | done more => exact settles_call_bind hUse (settles_pure rfl)
      | failed => exact settles_call_bind hUse (settles_pure rfl)
      | want w =>
          refine settles_call_bind hUse (settles_bind (nonceWait_settles w hFd) ?_)
          split_ifs
          · exact ih
          · exact settles_pure rfl

theorem tlsSession_settles (tc : TlsConf) (host : Bytes) (env : TlsEnv) (vr : VerifyResult) :
    Settles NetCall.ops held (tlsSession tc host fd env vr) (fun _ => held) := by
  refine settles_call_bind ((settle_use hSsl _).trans (settle_use hFd _)) ?_
  split_ifs
  · exact settles_pure rfl
  · refine settles_bind (Q := fun _ => held) ?_ (settles_bind (Q := fun _ => held) ?_ ?_)
    · unfold tlsServerName
      split_ifs
      · exact settles_call (settle_use hSsl _)
      · exact settles_pure rfl
    · unfold tlsExpect
      split_ifs
      · exact settles_pure rfl
      · exact settles_call_bind (settle_use hSsl _) (settles_pure rfl)
      · exact settles_pure rfl
    · split_ifs
      · exact settles_pure rfl
      · refine settles_bind (tlsHandshake_settles hSsl hFd _) ?_
        split_ifs
        · exact settles_pure rfl
        · exact settles_pure rfl

end Session

theorem tlsTrust_settles (hCtx : .ctx ∈ held) (tc : TlsConf) (env : TlsEnv) (vr : VerifyResult) :
    Settles NetCall.ops held (tlsTrust tc env vr) (fun _ => held) := by
  unfold tlsTrust
  split_ifs
  · exact settles_call_bind (settle_use hCtx _) (settles_pure rfl)
  · exact settles_pure rfl
  · exact settles_call_bind (settle_use hCtx _) (settles_pure rfl)
  · refine settles_call_bind (settle_use hCtx _) ?_
    exact settles_call_bind (settle_use hCtx _) (settles_pure rfl)

/-- On success the session and its context are left to the caller. -/
theorem nonceTls_settles (hCtx : .ctx ∉ held) (hSsl : .ssl ∉ held) (hFd : .sock fd ∈ held)
    (tc : TlsConf) (host : Bytes) (env : TlsEnv) (vr : VerifyResult) :
    Settles NetCall.ops held (nonceTls tc host fd env vr)
      (fun res => if res.1 then insert .ssl (insert .ctx held) else held) := by
  have hSsl' : NetRes.ssl ∉ insert .ctx held := by simp [hSsl]
  unfold nonceTls
  split_ifs
  · exact settles_pure rfl
  · refine settles_call_bind (settle_acquire hCtx _) ?_
    refine settles_bind (tlsTrust_settles (Finset.mem_insert_self _ _) tc env vr) ?_
    split_ifs
    · exact settles_call_bind (settle_release hCtx _) (settles_pure rfl)
    · exact settles_call_bind (settle_release hCtx _) (settles_pure rfl)
  · refine settles_call_bind (settle_acquire hCtx _) ?_
    refine settles_bind (tlsTrust_settles (Finset.mem_insert_self _ _) tc env vr) ?_
    split_ifs
    · exact settles_call_bind (settle_release hCtx _) (settles_pure rfl)
    · refine settles_call_bind ((settle_use (Finset.mem_insert_self _ _) _).trans
        (settle_acquire hSsl' _)) ?_
      refine settles_bind (tlsSession_settles (by simp) (by simp [hFd]) _ _ _ _) ?_
      split_ifs with hOk
      · exact settles_pure (by rw [if_pos hOk])
      · refine settles_call_bind ((settle_use (by simp) _).trans (settle_release hSsl' _)) ?_
        exact settles_call_bind (settle_release hCtx _) (settles_pure (by rw [if_neg hOk]))

theorem sendPlain_settles (hFd : .sock fd ∈ held) (sends : List (Wait × Option Nat))
    (left : Bytes) :
    Settles NetCall.ops held (sendPlain fd sends left) (fun _ => held) := by
  induction sends generalizing left with
  | nil =>
      cases left with
      | nil => exact settles_pure rfl
      | cons b bs => exact settles_call_bind (settle_use hFd _) (settles_pure rfl)
  | cons t ts ih =>
      obtain ⟨w, took⟩ := t
      cases left with
      | nil => exact settles_pure rfl
      | cons b bs =>
          refine settles_bind (nonceWait_settles w hFd) ?_
          split_ifs
          · exact settles_pure rfl
          · cases took with
            | none => exact settles_call_bind (settle_use hFd _) (settles_pure rfl)
            | some n => exact settles_call_bind (settle_use hFd _) (ih _)

theorem tripReaches_settles {tls : Bool} (hSsl : tls = true → .ssl ∈ held)
    (hFd : .sock fd ∈ held) (env : TripEnv) (cmd : Bytes) :
    Settles NetCall.ops held (tripReaches fd tls env cmd) (fun _ => held) := by
  cases tls with
  | true =>
      refine settles_bind (sendTls_settles (hSsl rfl) hFd _ _) ?_
      split_ifs
      · exact recvTls_settles (hSsl rfl) hFd _
      · exact settles_pure rfl
  | false =>
      refine settles_bind (sendPlain_settles hFd _ _) ?_
      split_ifs
      · refine settles_bind (nonceWait_settles _ hFd) ?_
        split_ifs
        · exact settles_call_bind (settle_use hFd _) (settles_pure rfl)
        · exact settles_pure rfl
      · exact settles_pure rfl

theorem redisExchangeCalls_settles {nc : LocConf} (hSsl : nc.nonceTls = true → .ssl ∈ held)
    (hFd : .sock fd ∈ held) (vr : VerifyResult) (nonce : Bytes) (ttl : Nat) (env : NetEnv) :
    Settles NetCall.ops held (redisExchangeCalls nc vr nonce ttl fd env) (fun _ => held) := by
  have hTrip (env : TripEnv) (cmd : Bytes) (inbox : List Bytes) : Settles NetCall.ops held
      (redisRoundtripCalls fd nc.nonceTls env cmd inbox) (fun _ => held) :=
    settles_bind (tripReaches_settles hSsl hFd env cmd) (settles_pure rfl)
  unfold redisExchangeCalls
  dsimp only
  split_ifs
  · exact settles_bind (hTrip _ _ _) (settles_pure rfl)
  · refine settles_bind (hTrip _ _ _) ?_
    split_ifs
    · exact settles_bind (hTrip _ _ _) (settles_pure rfl)
    · exact settles_pure rfl

theorem redisConnected_settles (hCtx : .ctx ∉ held) (hSsl : .ssl ∉ held) (hFd : .sock fd ∉ held)
    (nc : LocConf) (tc : TlsConf) (vr : VerifyResult) (nonce : Bytes) (ttl : Nat)
    (env : NetEnv) :
    Settles NetCall.ops (insert (.sock fd) held)
      (redisConnected nc tc vr nonce ttl fd env) (fun _ => held) := by
  have hIn := Finset.mem_insert_self (NetRes.sock fd) held
  have hCtx' : NetRes.ctx ∉ insert (.sock fd) held := by simp [hCtx]
  have hSsl' : NetRes.ssl ∉ insert (.sock fd) held := by simp [hSsl]
  unfold redisConnected
  cases hTls : nc.nonceTls with
  | false =>
      refine settles_bind (Q := fun _ => insert (.sock fd) held) (settles_pure rfl) ?_
      refine settles_bind (redisExchangeCalls_settles (by simp [hTls]) hIn _ _ _ _) ?_
      exact close_settles hFd (settles_pure rfl)
  | true =>
      rw [if_pos rfl]
      refine settles_bind (nonceTls_settles hCtx' hSsl' hIn _ _ _ _) ?_
      generalize (nonceTls tc (hostPart nc.nonceAddr) fd env.tls vr).val = session
      obtain ⟨ok, vr'⟩ := session
      cases ok with
      | false => exact close_settles hFd (settles_pure rfl)
      | true =>
          refine settles_bind (redisExchangeCalls_settles (fun _ => Finset.mem_insert_self _ _)
            (by simp) _ _ _ _) ?_
          refine settles_bind (Q := fun _ => held) ?_ (settles_pure rfl)
          refine settles_call_bind (settle_use (Finset.mem_insert_self _ _) _) ?_
          refine settles_call_bind ((settle_use (by simp) _).trans
            (settle_release (by simp [hSsl]) _)) ?_
          refine settles_call_bind (settle_release hCtx' _) ?_
          exact settles_call (settle_release hFd _)

/-- On every path through the client, what it takes is given back, each once and none used
afterwards. -/
theorem nonceRedisCalls_settles {env : NetEnv} (hFresh : env.Fresh held) (nc : LocConf)
    (tc : TlsConf) (vr : VerifyResult) (nonce : Bytes) (exp : Int) :
    Settles NetCall.ops held (nonceRedisCalls nc tc vr nonce exp env) (fun _ => held) := by
  unfold nonceRedisCalls
  dsimp only
  split_ifs
  · exact settles_pure rfl
  · exact settles_pure rfl
  · cases hList : env.addrs with
    | none => exact settles_pure rfl
    | some dials =>
        have hSocks : ∀ a ∈ dials, ∀ fd, a.fd? = some fd →
            NetRes.sock fd ∉ insert .addrs held :=
          fun a ha fd hfd => by simp [hFresh.socks dials hList a ha fd hfd]
        refine settles_call_bind (settle_acquire hFresh.addrs _) ?_
        refine settles_bind (connectFirst_settles (Finset.mem_insert_self _ _) hSocks) ?_
        cases hSock : (connectFirst dials).val with
        | none => exact settles_call_bind (settle_release hFresh.addrs _) (settles_pure rfl)
        | some fd =>
            have hFd : NetRes.sock fd ∉ held :=
              connectFirst_fresh hSock (hFresh.socks dials hList)
            dsimp only
            rw [Finset.insert_comm]
            refine settles_call_bind (settle_release (by simp [hFresh.addrs]) _) ?_
            exact redisConnected_settles hFresh.ctx hFresh.ssl hFd _ _ _ _ _ _
  · exact settles_pure rfl

end Settles

/-- The first address refuses the connection, the second takes it; the peer's certificate
does not match. -/
def wrongPeerNet : NetEnv where
  now := 1000
  addrs := some [.refused 7, .pending 7 ⟨1, true⟩ true]
  tls := ⟨true, true, true, true, true, [.want ⟨0, true⟩, .failed]⟩
  auth := ⟨[], ⟨0, false⟩, [], []⟩
  set := ⟨[], ⟨0, false⟩, [], []⟩
  inbox := []

theorem wrongPeerNet_settles :
    Settles NetCall.ops {.sock 3}
      (nonceRedisCalls { redisConf (ascii "pw") with nonceTls := true } ⟨true, [], []⟩
        signedResult signedNonce 1100 wrongPeerNet)
      fun _ => {.sock 3} := by
  refine nonceRedisCalls_settles ⟨by decide, by decide, by decide, ?_⟩ _ _ _ _ _
  rintro as ⟨⟩
  decide

end PgpAuth
