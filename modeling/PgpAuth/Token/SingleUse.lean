import PgpAuth.Lib.Run
import PgpAuth.Nonce.Zone
import PgpAuth.Token.Challenge

/-!
# Single use with the `memory` store

Any number of workers, threads and locations validate challenges against one zone. The
zone mutex puts their calls in an order; a call reads the clock three times, when it looks
at the expiry, when it enters the store and when it holds the lock, and the last readings
do not decrease along the order.

`validateConsume` still accepts in the second in which a challenge expires, and the store
may drop a nonce in that same second. A token that comes again in its last second can
therefore be accepted twice (`accepted_twice`); in runs where that does not happen each
token is accepted at most once (`accepted_at_most_once`).
-/

namespace PgpAuth

open Lib

/-- One call of `validateConsume`, and the time at which it holds the lock. -/
structure Presentation where
  plcf : LocConf
  ip : Bytes
  ua : Bytes
  vr : VerifyResult
  env : ConsumeEnv
  lockedAt : Nat
  deriving DecidableEq, Repr

def Presentation.token (p : Presentation) : Option ChallengeToken := challengeOf p.vr.plaintext

/-- The store, the latest time at which the lock was held, and the tokens accepted. -/
structure ZoneHistory where
  store : NonceState
  clock : Nat
  accepted : List ChallengeToken
  deriving DecidableEq, Repr

def ZoneHistory.empty : ZoneHistory := ⟨.empty, 0, []⟩

def ChallengeToken.expiry (t : ChallengeToken) : Int := ngxAtotm t.exp

def zoneMachine (hmac : Hmac) (ops : ShmOps NonceNode) : Machine ZoneHistory Presentation Rc where
  step s p :=
    let out := validateConsume hmac p.plcf p.ip p.ua ops p.env p.vr s.store
    (out.1, ⟨out.2.2, p.lockedAt, if out.1 = .ok then p.token.toList ++ s.accepted else s.accepted⟩)
  legal s p :=
    p.plcf.nonceStorage = .memory ∧ p.env.now ≤ p.env.nonce.now ∧ p.env.nonce.now ≤ p.lockedAt ∧
      s.clock ≤ p.lockedAt

instance (hmac : Hmac) (ops : ShmOps NonceNode) (s : ZoneHistory) (p : Presentation) :
    Decidable ((zoneMachine hmac ops).legal s p) := inferInstanceAs (Decidable (_ ∧ _))

/-- A token that was accepted before does not come again in the second it expires. -/
def NotInLastSecond (s : ZoneHistory) (p : Presentation) : Prop :=
  ∀ t ∈ p.token, t ∈ s.accepted → ¬(p.env.now ≤ t.expiry ∧ t.expiry ≤ p.lockedAt)

instance (s : ZoneHistory) (p : Presentation) : Decidable (NotInLastSecond s p) :=
  inferInstanceAs (Decidable (∀ _ ∈ _, _))

/-- The call presents `t` and is answered `NGX_OK`. -/
def accepts (t : ChallengeToken) (c : Presentation × Rc) : Bool :=
  c.1.token == some t && c.2 == .ok

/-- The token has been accepted, and its nonce is in the zone until it expires. -/
def Spent (t : ChallengeToken) (s : ZoneHistory) : Prop :=
  t ∈ s.accepted ∧ (Remembers s.store t.nonce t.expiry ∨ t.expiry ≤ s.clock)

section Steps

variable {hmac : Hmac} {ops : ShmOps NonceNode} {s : ZoneHistory} {p : Presentation}
  {t : ChallengeToken}

/-- A call leaves the store as it is, or takes its token's nonce to the zone. -/
theorem zoneMachine_store (hLegal : (zoneMachine hmac ops).legal s p) :
    ((zoneMachine hmac ops).step s p).2.store = s.store ∧
        ((zoneMachine hmac ops).step s p).1 ≠ .ok ∨
      ∃ u, p.token = some u ∧ p.env.now ≤ u.expiry ∧
        ((zoneMachine hmac ops).step s p).2.store =
          (nonceLocal ops p.plcf p.vr u.nonce u.expiry p.env.nonce s.store).2.2 ∧
        ((zoneMachine hmac ops).step s p).1 =
          storeVerdict (nonceLocal ops p.plcf p.vr u.nonce u.expiry p.env.nonce s.store).1 := by
  have hMemory : ∀ nonce exp, nonceCheckAndSet ops p.plcf p.vr nonce exp p.env.nonce s.store =
      nonceLocal ops p.plcf p.vr nonce exp p.env.nonce s.store := by
    intro nonce exp
    simp [nonceCheckAndSet, hLegal.1]
  cases hc : challengeCheck hmac p.plcf p.ip p.ua p.env p.vr.plaintext with
  | error e =>
      obtain ⟨hrc, hst⟩ := validateConsume_of_error _ _ _ _ _ ops p.vr s.store hc
      refine .inl ⟨hst, fun h => ?_⟩
      rcases challengeCheck_error hc with he | he
      · exact absurd (hrc.symm.trans h) (by rw [he]; decide)
      · exact absurd (hrc.symm.trans h) (by rw [he]; decide)
  | ok q =>
      obtain ⟨u, exp⟩ := q
      obtain ⟨hu, -, rfl, -, hNow⟩ := challengeCheck_ok hc
      obtain ⟨hrc, hst⟩ := validateConsume_of_ok _ _ _ _ _ ops p.vr s.store hc
      rw [hMemory] at hrc hst
      exact .inr ⟨u, hu, hNow, hst, hrc⟩

theorem zoneMachine_wf (hLegal : (zoneMachine hmac ops).legal s p) (h : s.store.zone.Wf ops) :
    ((zoneMachine hmac ops).step s p).2.store.zone.Wf ops := by
  rcases zoneMachine_store hLegal with ⟨hst, -⟩ | ⟨u, -, -, hst, -⟩
  · rwa [hst]
  · rw [hst]
    exact nonceLocal_wf h

theorem mem_accepted_step (h : t ∈ s.accepted) :
    t ∈ ((zoneMachine hmac ops).step s p).2.accepted := by
  unfold zoneMachine
  dsimp only
  split
  · exact List.mem_append_right _ h
  · exact h

theorem spent_step (hLegal : (zoneMachine hmac ops).legal s p) (h : s.store.zone.Wf ops)
    (hSpent : Spent t s) : Spent t ((zoneMachine hmac ops).step s p).2 := by
  refine ⟨mem_accepted_step hSpent.1, ?_⟩
  obtain ⟨hStorage, hNow, hLock, hClock⟩ := hLegal
  have hClock' : ((zoneMachine hmac ops).step s p).2.clock = p.lockedAt := rfl
  rcases hSpent.2 with hRem | hPast
  · by_cases hLive : p.env.nonce.now < t.expiry
    · rcases zoneMachine_store ⟨hStorage, hNow, hLock, hClock⟩ with ⟨hst, -⟩ | ⟨u, -, -, hst, -⟩
      · exact .inl (by rwa [hst])
      · exact .inl (by rw [hst]; exact hRem.nonceLocal h hLive)
    · exact .inr (by omega)
  · exact .inr (by omega)

theorem spent_of_accepts (hLegal : (zoneMachine hmac ops).legal s p) (h : s.store.zone.Wf ops)
    (hAcc : accepts t (p, ((zoneMachine hmac ops).step s p).1) = true) :
    Spent t ((zoneMachine hmac ops).step s p).2 := by
  simp only [accepts, Bool.and_eq_true, beq_iff_eq] at hAcc
  obtain ⟨hTok, hOk⟩ := hAcc
  have hMem : t ∈ ((zoneMachine hmac ops).step s p).2.accepted := by
    change t ∈ if ((zoneMachine hmac ops).step s p).1 = .ok then p.token.toList ++ s.accepted
      else s.accepted
    rw [if_pos hOk, hTok]
    exact List.mem_cons_self
  refine ⟨hMem, .inl ?_⟩
  rcases zoneMachine_store hLegal with ⟨-, hNo⟩ | ⟨u, hu, -, hst, hrc⟩
  · exact absurd hOk hNo
  · cases hu.symm.trans hTok
    rw [hrc, storeVerdict_eq_ok] at hOk
    rw [hst]
    exact remembers_of_ok h hOk

/-- A spent token that does not come in its last second is not accepted. -/
theorem not_accepts_of_spent (hLegal : (zoneMachine hmac ops).legal s p)
    (hLast : NotInLastSecond s p) (h : s.store.zone.Wf ops) (hSpent : Spent t s) :
    accepts t (p, ((zoneMachine hmac ops).step s p).1) = false := by
  by_contra hAcc
  simp only [Bool.not_eq_false, accepts, Bool.and_eq_true, beq_iff_eq] at hAcc
  obtain ⟨hTok, hOk⟩ := hAcc
  have hOutside := hLast t hTok hSpent.1
  rcases zoneMachine_store hLegal with ⟨-, hNo⟩ | ⟨u, hu, hNow, -, hrc⟩
  · exact hNo hOk
  · cases hu.symm.trans hTok
    obtain ⟨-, hStored, hLock, hClock⟩ := hLegal
    rw [hrc, storeVerdict_eq_ok] at hOk
    rcases hSpent.2 with hRem | hPast
    · exact not_ok_of_remembers h hRem (by omega) hOk
    · omega

end Steps

/-- In every run in which no accepted token comes again in the second it expires, each
token is accepted at most once. -/
theorem accepted_at_most_once (hmac : Hmac) (ops : ShmOps NonceNode) (run : List Presentation)
    (hRun : ((zoneMachine hmac ops).restrict NotInLastSecond).LegalRun .empty run)
    (t : ChallengeToken) : ((zoneMachine hmac ops).answers .empty run).countP (accepts t) ≤ 1 := by
  rw [← Machine.answers_restrict NotInLastSecond]
  exact Machine.countP_answers_le_one (m := (zoneMachine hmac ops).restrict NotInLastSecond)
    (fun s p hLegal (h : s.store.zone.Wf ops) => zoneMachine_wf hLegal.1 h)
    (fun s p hLegal h (hSpent : Spent t s) => spent_step hLegal.1 h hSpent)
    (fun s p hLegal h hSpent => not_accepts_of_spent hLegal.1 hLegal.2 h hSpent)
    (fun s p hLegal h hAcc => spent_of_accepts hLegal.1 h hAcc) hRun NonceSh.Wf.empty

/-- The sample challenge, presented at time `now`. -/
def samplePresentation (now : Nat) : Presentation where
  plcf := sampleConf
  ip := ascii "192.0.2.1"
  ua := ascii "curl"
  vr := ⟨true, ascii "0123456789ABCDEF0123456789ABCDEF01234567", sampleChallenge, none, false,
    .error, none⟩
  env := ⟨true, true, now, now, ⟨true, true⟩, now, true, true, true, true, true, []⟩
  lockedAt := now

def sampleZone : ShmOps NonceNode := ⟨fun _ => 2420647024, .plain⟩

/-- One second before it expires the sample challenge is accepted once in two attempts. -/
theorem accepted_once_before_expiry :
    ((zoneMachine sampleHmac sampleZone).restrict NotInLastSecond).LegalRun .empty
        [samplePresentation 999, samplePresentation 999] ∧
      ∀ t, ((zoneMachine sampleHmac sampleZone).answers .empty
        [samplePresentation 999, samplePresentation 999]).countP (accepts t) ≤ 1 :=
  have hRun : ((zoneMachine sampleHmac sampleZone).restrict NotInLastSecond).LegalRun .empty
      [samplePresentation 999, samplePresentation 999] := by decide +kernel
  ⟨hRun, accepted_at_most_once sampleHmac sampleZone _ hRun⟩

/-- In the second it expires, the sample challenge is accepted twice. -/
theorem accepted_twice :
    (zoneMachine sampleHmac sampleZone).LegalRun .empty
        [samplePresentation 1000, samplePresentation 1000] ∧
      ¬∀ t, ((zoneMachine sampleHmac sampleZone).answers .empty
        [samplePresentation 1000, samplePresentation 1000]).countP (accepts t) ≤ 1 := by
  refine ⟨by decide +kernel, fun h => ?_⟩
  have hCount := h ⟨ascii "v1", ascii "1000", sampleNonce,
    ascii "7be768b155bd6a434f41c0b291e7ac09761c876aca4de769880acf5fccb97be1"⟩
  exact absurd hCount (by decide +kernel)

end PgpAuth
