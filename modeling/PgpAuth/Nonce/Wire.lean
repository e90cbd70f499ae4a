import PgpAuth.Nonce.Client

/-!
# What the Redis client shows on the network

The calls of the client are read as an observer of the connection would: the checks that
the handshake is bound to, its completion, and the pieces of commands, sealed or in the
clear.

`nonceRedisCalls_wire` describes every run: no data without a complete handshake where TLS
is on, and then the commands in order, from their start.
-/

namespace PgpAuth

open Lib Lib.Traced

/-- Steps of a call that matter to who can read it. -/
inductive WireEvent where
  | verifying
  | expects (peer : Peer)
  | shaken
  | sealed (bytes : Bytes)
  | clear (bytes : Bytes)
  deriving DecidableEq, Repr

def WireEvent.isData : WireEvent → Bool
  | .sealed _ => true
  | .clear _ => true
  | _ => false

def dataEvent (tls : Bool) (bytes : Bytes) : WireEvent :=
  if tls then .sealed bytes else .clear bytes

def NetCall.wire : NetCall → List WireEvent
  | .setVerify true => [.verifying]
  | .expectPeer peer => [.expects peer]
  | .sslConnect _ true => [.shaken]
  | .sslWrite _ [] => []
  | .sslWrite _ (b :: bs) => [.sealed (b :: bs)]
  | .send _ [] => []
  | .send _ (b :: bs) => [.clear (b :: bs)]
  | _ => []

/-- The end of the TLS set-up, from the check of the peer on. -/
def sessionEvents (tc : TlsConf) (host : Bytes) : List WireEvent :=
  (if tc.verify then [.expects (tc.peer host)] else []) ++ [.shaken]

/-- All of it. -/
def handshakeEvents (tc : TlsConf) (host : Bytes) : List WireEvent :=
  (if tc.verify then [.verifying] else []) ++ sessionEvents tc host

theorem nonceWait_wire (fd : Nat) (w : Wait) :
    Shows NetCall.wire (nonceWait fd w) (fun _ => []) := by
  refine shows_of_silent ?_ (shows_pure rfl)
  obtain ⟨intrs, ready⟩ := w
  induction intrs with
  | zero => exact shows_call rfl
  | succ n ih => exact shows_call_bind rfl ih

theorem connectFirst_wire (dials : List Dial) :
    Shows NetCall.wire (connectFirst dials) (fun _ => []) := by
  induction dials with
  | nil => exact shows_pure rfl
  | cons a as ih =>
      cases a with
      | noSocket => exact ih
      | connected fd => exact shows_call_bind rfl (shows_call_bind rfl (shows_pure rfl))
      | refused fd =>
          exact shows_call_bind rfl (shows_call_bind rfl (shows_call_bind rfl ih))
      | pending fd w clear =>
          refine shows_call_bind rfl (shows_call_bind rfl (shows_of_silent (nonceWait_wire fd w) ?_))
          split_ifs
          · exact shows_call_bind rfl (shows_pure rfl)
          · exact shows_call_bind rfl (shows_call_bind rfl ih)
          · exact shows_call_bind rfl ih

theorem tlsTrust_wire (tc : TlsConf) (env : TlsEnv) (vr : VerifyResult) :
    Shows NetCall.wire (tlsTrust tc env vr)
      (fun res => if res.1 && tc.verify then [.verifying] else []) := by
  unfold tlsTrust
  split_ifs with hVerify hLong hTrust
  · exact shows_call_bind rfl (shows_pure (by simp [hVerify]))
  · exact shows_pure (by simp)
  · exact shows_call_bind rfl (shows_pure (by simp))
  · rw [Bool.not_eq_false] at hVerify
    refine shows_call_bind rfl ?_
    rw [Shows]
    simp [hVerify, NetCall.wire]

theorem tlsExpect_wire (tc : TlsConf) (host : Bytes) (env : TlsEnv) :
    Shows NetCall.wire (tlsExpect tc host env)
      (fun ok => if ok && tc.verify then [.expects (tc.peer host)] else []) := by
  unfold tlsExpect
  split_ifs with hVerify hPeer
  · exact shows_pure (by simp [hVerify])
  · rw [Bool.not_eq_false] at hVerify
    rw [Shows]
    simp [hVerify, NetCall.wire]
  · exact shows_pure (by simp)

theorem tlsHandshake_wire (fd : Nat) (turns : List TlsTurn) :
    Shows NetCall.wire (tlsHandshake fd turns) (fun ok => if ok then [.shaken] else []) := by
  induction turns with
  | nil => exact shows_call_bind rfl (shows_pure rfl)
  | cons t ts ih =>
      cases t with
      | done more =>
          rw [Shows]
          rfl
      | failed => exact shows_call_bind rfl (shows_pure rfl)
      | want w =>
          refine shows_call_bind rfl (shows_of_silent (nonceWait_wire fd w) ?_)
          split_ifs
          · exact ih
          · exact shows_pure rfl

/-- No data is sent while the session is set up, and a session that is handed on has been
through every check. -/
def Handshakes (x : Traced NetCall (Bool × VerifyResult)) (events : List WireEvent) : Prop :=
  (∀ e ∈ x.calls.flatMap NetCall.wire, e.isData = false) ∧
    (x.val.1 = true → x.calls.flatMap NetCall.wire = events)

theorem handshakes_failed (vr : VerifyResult) (events : List WireEvent) :
    Handshakes (pure (false, vr)) events := by
  refine ⟨?_, ?_⟩
  · rintro e ⟨⟩
  · rintro ⟨⟩

theorem handshakes_bind {α : Type} {x : Traced NetCall α}
    {f : α → Traced NetCall (Bool × VerifyResult)} {L : α → List WireEvent}
    (rest : List WireEvent) {events : List WireEvent} (hx : Shows NetCall.wire x L)
    (hData : ∀ e ∈ L x.val, e.isData = false) (hf : Handshakes (f x.val) rest)
    (hEq : (f x.val).val.1 = true → L x.val ++ rest = events) : Handshakes (x >>= f) events := by
  have hAll : (x >>= f).calls.flatMap NetCall.wire =
      L x.val ++ (f x.val).calls.flatMap NetCall.wire := by
    rw [calls_bind, List.flatMap_append, hx]
  rw [Handshakes, hAll]
  refine ⟨fun e he => ?_, fun hOk => ?_⟩
  · rcases List.mem_append.mp he with hLeft | hRight
    · exact hData e hLeft
    · exact hf.1 e hRight
  · rw [hf.2 hOk, hEq hOk]

/-- A silent step. -/
theorem handshakes_of_silent {α : Type} {x : Traced NetCall α}
    {f : α → Traced NetCall (Bool × VerifyResult)} {events : List WireEvent}
    (hx : Shows NetCall.wire x (fun _ => [])) (hf : Handshakes (f x.val) events) :
    Handshakes (x >>= f) events :=
  handshakes_bind events hx (fun _ he => absurd he List.not_mem_nil) hf (fun _ => rfl)

/-- Silent steps afterwards that do not turn failure into success. -/
theorem handshakes_then {x : Traced NetCall (Bool × VerifyResult)}
    {f : Bool × VerifyResult → Traced NetCall (Bool × VerifyResult)} {events : List WireEvent}
    (hx : Handshakes x events) (hf : Shows NetCall.wire (f x.val) (fun _ => []))
    (hOk : (f x.val).val.1 = true → x.val.1 = true) : Handshakes (x >>= f) events := by
  have hAll : (x >>= f).calls.flatMap NetCall.wire = x.calls.flatMap NetCall.wire := by
    rw [calls_bind, List.flatMap_append, hf, List.append_nil]
  rw [Handshakes, hAll]
  exact ⟨hx.1, fun h => hx.2 (hOk h)⟩

theorem noData_ite {c : Bool} {e : WireEvent} (h : e.isData = false) :
    ∀ e' ∈ (if c then [e] else []), e'.isData = false := by
  intro e' he
  split_ifs at he
  · rw [List.mem_singleton.mp he]
    exact h
  · cases he

theorem tlsSession_wire (tc : TlsConf) (host : Bytes) (fd : Nat) (env : TlsEnv)
    (vr : VerifyResult) :
    Handshakes (tlsSession tc host fd env vr) (sessionEvents tc host) := by
  refine handshakes_of_silent (shows_call rfl) ?_
  split_ifs
  · exact handshakes_failed _ _
  · refine handshakes_of_silent ?_ (handshakes_bind [.shaken]
      (tlsExpect_wire tc host env) (noData_ite rfl) ?_ ?_)
    · unfold tlsServerName
      split_ifs
      · exact shows_call rfl
      · exact shows_pure rfl
    · split_ifs
      · exact handshakes_failed _ _
      · refine handshakes_bind [] (tlsHandshake_wire fd _) (noData_ite rfl) ?_ ?_
        · split_ifs
          · exact ⟨fun _ he => absurd he List.not_mem_nil, fun _ => rfl⟩
          · exact handshakes_failed _ _
        · intro hOk
          split_ifs at hOk ⊢
          rfl
    · intro hOk
      split_ifs at hOk with hFails
      rw [Bool.not_eq_false] at hFails
      rw [hFails, Bool.true_and, sessionEvents]

theorem nonceTls_wire (tc : TlsConf) (host : Bytes) (fd : Nat) (env : TlsEnv)
    (vr : VerifyResult) :
    Handshakes (nonceTls tc host fd env vr) (handshakeEvents tc host) := by
  unfold nonceTls
  by_cases hCtx : env.ctx = false
  · rw [if_pos hCtx]
    exact handshakes_failed _ _
  rw [if_neg hCtx]
  refine handshakes_of_silent (shows_call rfl) (handshakes_bind (sessionEvents tc host)
    (tlsTrust_wire tc env vr) (noData_ite rfl) ?_ ?_)
  · split_ifs with hTrust hSsl
    · exact handshakes_of_silent (shows_call rfl) (handshakes_failed _ _)
    · exact handshakes_of_silent (shows_call rfl) (handshakes_failed _ _)
    · refine handshakes_of_silent (shows_call rfl) ?_
      refine handshakes_then (tlsSession_wire tc host fd env _) ?_ ?_
      · split_ifs
        · exact shows_pure rfl
        · exact shows_call_bind rfl (shows_call_bind rfl (shows_pure rfl))
      · intro hOk
        split_ifs at hOk with hSession
        · exact hSession
        · exact hOk
  · intro hOk
    split_ifs at hOk with hTrust
    rw [Bool.not_eq_false] at hTrust
    rw [hTrust, Bool.true_and, handshakeEvents]

/-- The computation sends some of `text`, in order, from its start; all of it where its
result says so. -/
def Writes {α : Type} (tls : Bool) (x : Traced NetCall α) (text : Bytes) (all : α → Prop) :
    Prop :=
  ∃ (pieces : List Bytes) (rest : Bytes),
    x.calls.flatMap NetCall.wire = pieces.map (dataEvent tls) ∧
    pieces.flatten ++ rest = text ∧ (all x.val → rest = [])

section Writes

variable {α β : Type} {tls : Bool} {text : Bytes}

/-- What ends without the rest. -/
theorem writes_nothing {x : Traced NetCall α} {all : α → Prop}
    (hx : Shows NetCall.wire x (fun _ => [])) (h : all x.val → text = []) :
    Writes tls x text all :=
  ⟨[], text, hx, rfl, h⟩

/-- Silent steps first. -/
theorem writes_of_silent {x : Traced NetCall α} {f : α → Traced NetCall β} {all : β → Prop}
    (hx : Shows NetCall.wire x (fun _ => [])) (hf : Writes tls (f x.val) text all) :
    Writes tls (x >>= f) text all := by
  obtain ⟨pieces, rest, hSent, hText, hAll⟩ := hf
  refine ⟨pieces, rest, ?_, hText, hAll⟩
  rw [calls_bind, List.flatMap_append, hx, List.nil_append, hSent]

/-- Silent steps afterwards. -/
theorem writes_then_silent {x : Traced NetCall α} {f : α → Traced NetCall β} {all : α → Prop}
    {all' : β → Prop} (hx : Writes tls x text all)
    (hf : Shows NetCall.wire (f x.val) (fun _ => [])) (h : all' (f x.val).val → all x.val) :
    Writes tls (x >>= f) text all' := by
  obtain ⟨pieces, rest, hSent, hText, hAll⟩ := hx
  refine ⟨pieces, rest, ?_, hText, fun hb => hAll (h hb)⟩
  rw [calls_bind, List.flatMap_append, hf, List.append_nil, hSent]

/-- One text after another. -/
theorem writes_bind {x : Traced NetCall α} {f : α → Traced NetCall β} {text' : Bytes}
    {all : α → Prop} {all' : β → Prop} (hx : Writes tls x text all) (hVal : all x.val)
    (hf : Writes tls (f x.val) text' all') : Writes tls (x >>= f) (text ++ text') all' := by
  obtain ⟨pieces, rest, hSent, hText, hAll⟩ := hx
  obtain ⟨pieces', rest', hSent', hText', hAll'⟩ := hf
  rw [hAll hVal, List.append_nil] at hText
  refine ⟨pieces ++ pieces', rest', ?_, ?_, hAll'⟩
  · rw [calls_bind, List.flatMap_append, hSent, hSent', List.map_append]
  · rw [List.flatten_append, List.append_assoc, hText, hText']

/-- One piece, then the rest of the text. -/
theorem writes_piece {c : NetCall} {f : Unit → Traced NetCall β} {all : β → Prop} {b : UInt8}
    {bs : Bytes} (n : Nat) (hc : c.wire = [dataEvent tls ((b :: bs).take (n + 1))])
    (hf : Writes tls (f ()) ((b :: bs).drop (n + 1)) all) :
    Writes tls (call c >>= f) (b :: bs) all := by
  have hPiece : Writes tls (call c) ((b :: bs).take (n + 1)) (fun _ => True) := by
    refine ⟨[(b :: bs).take (n + 1)], [], ?_, ?_, fun _ => rfl⟩
    · rw [calls_call, List.flatMap_singleton, hc]
      rfl
    · rw [List.append_nil, List.flatten_singleton]
  have hAll := writes_bind hPiece trivial hf
  rwa [List.take_append_drop] at hAll

end Writes

theorem sendTls_writes (fd : Nat) (turns : List TlsTurn) (left : Bytes) :
    Writes true (sendTls fd turns left) left (· = true) := by
  induction turns generalizing left with
  | nil =>
      cases left with
      | nil => exact writes_nothing (shows_pure rfl) (fun _ => rfl)
      | cons b bs => exact writes_nothing (shows_call_bind rfl (shows_pure rfl)) (fun h => nomatch h)
  | cons t ts ih =>
      cases left with
      | nil => cases t <;> exact writes_nothing (shows_pure rfl) (fun _ => rfl)
      | cons b bs =>
          cases t with
          | done more => exact writes_piece more rfl (ih _)
          | failed =>
              exact writes_nothing (shows_call_bind rfl (shows_pure rfl)) (fun h => nomatch h)
          | want w =>
              refine writes_of_silent (shows_call rfl) (writes_of_silent (nonceWait_wire fd w) ?_)
              split_ifs
              · exact ih _
              · exact writes_nothing (shows_pure rfl) (fun h => nomatch h)

theorem sendPlain_writes (fd : Nat) (sends : List (Wait × Option Nat)) (left : Bytes) :
    Writes false (sendPlain fd sends left) left (· = true) := by
  induction sends generalizing left with
  | nil =>
      cases left with
      | nil => exact writes_nothing (shows_pure rfl) (fun _ => rfl)
      | cons b bs => exact writes_nothing (shows_call_bind rfl (shows_pure rfl)) (fun h => nomatch h)
  | cons t ts ih =>
      obtain ⟨w, took⟩ := t
      cases left with
      | nil => exact writes_nothing (shows_pure rfl) (fun _ => rfl)
      | cons b bs =>
          refine writes_of_silent (nonceWait_wire fd w) ?_
          split_ifs
          · exact writes_nothing (shows_pure rfl) (fun h => nomatch h)
          · cases took with
            | none =>
                exact writes_nothing (shows_call_bind rfl (shows_pure rfl)) (fun h => nomatch h)
            | some n => exact writes_piece n rfl (ih _)

theorem recvTls_wire (fd : Nat) (turns : List TlsTurn) :
    Shows NetCall.wire (recvTls fd turns) (fun _ => []) := by
  induction turns with
  | nil => exact shows_call_bind rfl (shows_pure rfl)
  | cons t ts ih =>
      cases t with
      | done more => exact shows_call_bind rfl (shows_pure rfl)
      | failed => exact shows_call_bind rfl (shows_pure rfl)
      | want w =>
          refine shows_call_bind rfl (shows_of_silent (nonceWait_wire fd w) ?_)
          split_ifs
          · exact ih
          · exact shows_pure rfl

theorem recvPlain_wire (fd : Nat) (w : Wait) :
    Shows NetCall.wire (recvPlain fd w) (fun _ => []) := by
  refine shows_of_silent (nonceWait_wire fd w) ?_
  split_ifs
  · exact shows_call_bind rfl (shows_pure rfl)
  · exact shows_pure rfl

/-- A reply means that the command has been sent whole. -/
theorem redisRoundtripCalls_writes (fd : Nat) (tls : Bool) (env : TripEnv) (cmd : Bytes)
    (inbox : List Bytes) :
    Writes tls (redisRoundtripCalls fd tls env cmd inbox) cmd (fun res => res.1.isSome) := by
  have hTrip : Writes tls (tripReaches fd tls env cmd) cmd (· = true) := by
    unfold tripReaches
    cases tls with
    | true =>
        refine writes_then_silent (sendTls_writes fd _ _) ?_ ?_
        · split_ifs
          · exact recvTls_wire fd _
          · exact shows_pure rfl
        · intro h
          by_contra hNot
          rw [if_neg hNot] at h
          cases h
    | false =>
        refine writes_then_silent (sendPlain_writes fd _ _) ?_ ?_
        · split_ifs
          · exact recvPlain_wire fd _
          · exact shows_pure rfl
        · intro h
          by_contra hNot
          rw [if_neg hNot] at h
          cases h
  refine writes_then_silent hTrip (shows_pure rfl) ?_
  intro hSome
  cases hReached : (tripReaches fd tls env cmd).val with
  | true => rfl
  | false =>
      rw [hReached] at hSome
      cases inbox <;> cases hSome

theorem isSome_of_redisVerdict {vr : VerifyResult} {reply : Option Bytes}
    (h : (redisVerdict vr reply).1 = .ok ∨ (redisVerdict vr reply).1 = .declined) :
    reply.isSome = true := by
  cases reply with
  | none => rcases h with h | h <;> cases h
  | some r => rfl

theorem redisExchangeCalls_writes (nc : LocConf) (tc : TlsConf) (vr : VerifyResult)
    (nonce : Bytes) (exp : Int) (fd : Nat) (env : NetEnv) :
    Writes nc.nonceTls (redisExchangeCalls nc vr nonce (exp - env.now).toNat fd env)
      (redisExchange nc vr nonce (exp - env.now).toNat (env.toRedis nc tc nonce exp)).2.2.flatten
      (fun res => res.1 = .ok ∨ res.1 = .declined) := by
  unfold redisExchangeCalls redisExchange
  by_cases hPassword : nc.noncePassword = []
  · simp only [hPassword, if_true, List.flatten_singleton]
    exact writes_then_silent (redisRoundtripCalls_writes fd _ _ _ _) (shows_pure rfl)
      isSome_of_redisVerdict
  · have hTrip := redisRoundtripCalls_writes fd nc.nonceTls env.auth
      (redisAuthCommand nc.noncePassword) env.inbox
    have hVal : (redisRoundtripCalls fd nc.nonceTls env.auth (redisAuthCommand nc.noncePassword)
        env.inbox).val = nonceRedisRoundtrip (env.toRedis nc tc nonce exp).authWritten
          (env.toRedis nc tc nonce exp).inbox := by
      simp only [redisRoundtripCalls, val_bind, val_pure, tripReaches_val fd]
      rfl
    simp only [hPassword, if_false]
    rw [← hVal]
    generalize hFirst : redisRoundtripCalls fd nc.nonceTls env.auth
      (redisAuthCommand nc.noncePassword) env.inbox = first at hTrip ⊢
    cases hPlus : first.val.1.any (startsWith '+') with
    | true =>
        have hSome : first.val.1.isSome = true := by
          cases hReply : first.val.1 with
          | none =>
              rw [hReply] at hPlus
              cases hPlus
          | some r => rfl
        simp only [if_true, List.flatten_cons, List.flatten_nil, List.append_nil]
        refine writes_bind hTrip hSome ?_
        rw [if_pos hPlus]
        exact writes_then_silent (redisRoundtripCalls_writes fd _ _ _ _) (shows_pure rfl)
          isSome_of_redisVerdict
    | false =>
        simp only [Bool.false_eq_true, if_false, List.flatten_singleton]
        refine writes_then_silent hTrip ?_ ?_
        · rw [if_neg (by simp [hPlus])]
          exact shows_pure rfl
        · rw [if_neg (by simp [hPlus])]
          rintro (h | h) <;> cases h

theorem redisDone_wire (tls : Bool) (fd : Nat) :
    Shows NetCall.wire (redisDone tls fd) (fun _ => []) := by
  cases tls <;> rfl

theorem redisConnected_wire (nc : LocConf) (tc : TlsConf) (vr : VerifyResult) (nonce : Bytes)
    (ttl fd : Nat) (env : NetEnv) :
    (nc.nonceTls = true ∧ env.tls.succeeds tc = false ∧
        ∀ e ∈ (redisConnected nc tc vr nonce ttl fd env).calls.flatMap NetCall.wire,
          e.isData = false) ∨
      (nc.nonceTls = true → env.tls.succeeds tc = true) ∧
        (redisConnected nc tc vr nonce ttl fd env).calls.flatMap NetCall.wire =
          (if nc.nonceTls then handshakeEvents tc (hostPart nc.nonceAddr) else []) ++
            (redisExchangeCalls nc vr nonce ttl fd env).calls.flatMap NetCall.wire := by
  have hTail (session : VerifyResult) :
      (redisExchangeCalls nc session nonce ttl fd env >>= fun out =>
        redisDone nc.nonceTls fd >>= fun _ => pure out).calls.flatMap NetCall.wire =
      (redisExchangeCalls nc session nonce ttl fd env).calls.flatMap NetCall.wire := by
    have hDone := redisDone_wire nc.nonceTls fd
    rw [Shows] at hDone
    simp only [calls_bind, calls_pure, List.flatMap_append, hDone, List.append_nil]
  unfold redisConnected
  cases hTls : nc.nonceTls with
  | false =>
      refine .inr ⟨fun h => absurd h (by decide), ?_⟩
      have hAll := hTail vr
      rw [hTls] at hAll
      exact hAll
  | true =>
      obtain ⟨hVal, hVr⟩ := nonceTls_val tc (hostPart nc.nonceAddr) fd env.tls vr
      obtain ⟨hData, hEvents⟩ := nonceTls_wire tc (hostPart nc.nonceAddr) fd env.tls vr
      rw [if_pos rfl, calls_bind, List.flatMap_append]
      cases hOk : env.tls.succeeds tc with
      | false =>
          rw [hOk] at hVal
          refine .inl ⟨rfl, rfl, fun e he => ?_⟩
          rw [if_pos hVal] at he
          rcases List.mem_append.mp he with hLeft | hRight
          · exact hData e hLeft
          · cases hRight
      | true =>
          rw [hOk] at hVal
          refine .inr ⟨fun _ => rfl, ?_⟩
          have hAll := hTail vr
          rw [hTls] at hAll
          rw [if_neg (by simp [hVal]), hEvents hVal, hVr hOk, if_pos rfl, hAll]

/-- What a call shows on the network: nothing of its commands, or, after a complete
handshake where TLS is on, the commands it hands over, in order and from their start, in the
clear only where TLS is off. A verdict comes with all of them sent. -/
theorem nonceRedisCalls_wire (nc : LocConf) (tc : TlsConf) (vr : VerifyResult) (nonce : Bytes)
    (exp : Int) (env : NetEnv) :
    ((∀ e ∈ (nonceRedisCalls nc tc vr nonce exp env).calls.flatMap NetCall.wire,
          e.isData = false) ∧
        (nonceRedis nc vr nonce exp (env.toRedis nc tc nonce exp)).2.2 = []) ∨
      ∃ (pieces : List Bytes) (rest : Bytes),
        (nonceRedisCalls nc tc vr nonce exp env).calls.flatMap NetCall.wire =
            (if nc.nonceTls then handshakeEvents tc (hostPart nc.nonceAddr) else []) ++
              pieces.map (dataEvent nc.nonceTls) ∧
          pieces.flatten ++ rest =
            (nonceRedis nc vr nonce exp (env.toRedis nc tc nonce exp)).2.2.flatten ∧
          ((nonceRedisCalls nc tc vr nonce exp env).val.1 = .ok ∨
            (nonceRedisCalls nc tc vr nonce exp env).val.1 = .declined → rest = []) := by
  have hNow : (env.toRedis nc tc nonce exp).now = env.now := rfl
  unfold nonceRedisCalls nonceRedis
  rw [hNow]
  dsimp only
  by_cases hTtl : exp - env.now ≤ 0
  · exact .inl (by simp [hTtl])
  by_cases hAddr : nc.nonceAddr = [] ∨ 256 ≤ nc.nonceAddr.length
  · exact .inl (by simp [hTtl, hAddr])
  by_cases hColon : 58 ∈ nc.nonceAddr
  swap
  · exact .inl (by simp [hTtl, hAddr, hColon])
  cases hAddrs : env.addrs with
  | none =>
      have hNumeric : (env.toRedis nc tc nonce exp).numericAddr = false := by
        simp [NetEnv.toRedis, hAddrs]
      exact .inl (by simp [hTtl, hAddr, hColon, hNumeric])
  | some dials =>
      have hNumeric : (env.toRedis nc tc nonce exp).numericAddr = true := by
        simp [NetEnv.toRedis, hAddrs]
      have hConnect : (env.toRedis nc tc nonce exp).connect =
          (connectFirst dials).val.isSome := by
        simp [NetEnv.toRedis, hAddrs]
      have hSilent := connectFirst_wire dials
      rw [Shows] at hSilent
      simp only [hTtl, hAddr, hColon, hNumeric, hConnect, if_false, not_true_eq_false,
        Bool.true_eq_false, calls_bind, val_bind, List.flatMap_append, hSilent]
      cases hSock : (connectFirst dials).val with
      | none => exact .inl ⟨fun e he => absurd he List.not_mem_nil, rfl⟩
      | some fd =>
          have hTlsEnv : (env.toRedis nc tc nonce exp).tls = env.tls.succeeds tc := rfl
          simp only [Option.isSome_some, Bool.true_eq_false, if_false, hTlsEnv]
          have hVal := redisConnected_val nc tc vr nonce exp fd env
          obtain ⟨hOn, hFails, hData⟩ | ⟨hOk, hEvents⟩ :=
            redisConnected_wire nc tc vr nonce (exp - env.now).toNat fd env
          · rw [if_pos ⟨hOn, hFails⟩]
            exact .inl ⟨hData, rfl⟩
          · rw [if_neg (fun h => by rw [hOk h.1] at h; exact absurd h.2 (by decide))]
            obtain ⟨pieces, rest, hSent, hText, hAll⟩ :=
              redisExchangeCalls_writes nc tc vr nonce exp fd env
            refine .inr ⟨pieces, rest, ?_, hText, ?_⟩
            · rw [← hSent]
              exact hEvents
            · obtain ⟨hOn, hFails, -⟩ | ⟨-, hSame⟩ := hVal
              · rw [hOk hOn] at hFails
                cases hFails
              · rw [hSame]
                exact hAll

end PgpAuth
