import PgpAuth.Lib.Run
import PgpAuth.Nonce.Zone

/-!
# One node with the `redis` store

The node's zone is consulted before Redis and may only turn a login down. Its answer
`NGX_ERROR`, which means that the nonce could not be recorded, is treated like an
acceptance, so with a full zone a Redis that forgets lets a nonce through twice
(`accepted_twice_by_full_node`). In runs in which the calls for a nonce find room, the node
accepts it at most once, whatever Redis answers (`node_accepts_at_most_once`).
-/

namespace PgpAuth

open Lib

/-- One call of `nonceCheckAndSet` on a node, and the time at which it holds the lock of
the zone. -/
structure NodeCall where
  nc : LocConf
  vr : VerifyResult
  nonce : Bytes
  exp : Int
  env : NonceEnv
  lockedAt : Nat
  deriving DecidableEq, Repr

/-- The node's store, and the latest time at which the lock was held. -/
structure NodeHistory where
  store : NonceState
  clock : Nat
  deriving DecidableEq, Repr

def NodeHistory.empty : NodeHistory := ⟨.empty, 0⟩

/-- Calls come with the zone that the configuration gives every `redis` location, and
with a nonce out of a plaintext of at most 8192 bytes. Redis is asked after the zone. -/
def nodeMachine (ops : ShmOps NonceNode) : Machine NodeHistory NodeCall Rc where
  step s c :=
    let out := nonceCheckAndSet ops c.nc c.vr c.nonce c.exp c.env s.store
    (out.1, ⟨out.2.2, c.lockedAt⟩)
  legal s c :=
    (c.nc.nonceStorage = .redis → c.nc.nonceZone = true) ∧ c.nonce.length ≤ 8192 ∧
      c.env.now ≤ c.lockedAt ∧ c.lockedAt ≤ c.env.redis.now ∧ s.clock ≤ c.lockedAt

instance (ops : ShmOps NonceNode) (s : NodeHistory) (c : NodeCall) :
    Decidable ((nodeMachine ops).legal s c) := inferInstanceAs (Decidable (_ ∧ _))

/-- A call of the `redis` store for this nonce and expiry. -/
def NodeCall.IsFor (nonce : Bytes) (exp : Int) (c : NodeCall) : Prop :=
  c.nc.nonceStorage = .redis ∧ c.nonce = nonce ∧ c.exp = exp

instance (nonce : Bytes) (exp : Int) (c : NodeCall) : Decidable (c.IsFor nonce exp) :=
  inferInstanceAs (Decidable (_ ∧ _))

/-- One of the two allocations succeeds for every such call. -/
def HasRoom (nonce : Bytes) (exp : Int) (_ : NodeHistory) (c : NodeCall) : Prop :=
  c.IsFor nonce exp → c.env.slab.first = true ∨ c.env.slab.second = true

instance (nonce : Bytes) (exp : Int) (s : NodeHistory) (c : NodeCall) :
    Decidable (HasRoom nonce exp s c) := inferInstanceAs (Decidable (_ → _))

def nodeAccepts (nonce : Bytes) (exp : Int) (a : NodeCall × Rc) : Bool :=
  decide (a.1.IsFor nonce exp) && a.2 == .ok

/-- The nonce is in the zone until it expires. -/
def SpentOnNode (nonce : Bytes) (exp : Int) (s : NodeHistory) : Prop :=
  Remembers s.store nonce exp ∨ exp ≤ s.clock

section Steps

variable {ops : ShmOps NonceNode} {s : NodeHistory} {c : NodeCall} {nonce : Bytes} {exp : Int}

/-- Whatever the storage, a call leaves the zone alone or goes through it. -/
theorem nodeMachine_zone (ops : ShmOps NonceNode) (s : NodeHistory) (c : NodeCall) :
    ((nodeMachine ops).step s c).2.store.zone = s.store.zone ∨
      ((nodeMachine ops).step s c).2.store.zone =
        (nonceLocal ops c.nc c.vr c.nonce c.exp c.env s.store).2.2.zone := by
  unfold nodeMachine nonceCheckAndSet
  dsimp only
  cases c.nc.nonceStorage with
  | none => exact .inl rfl
  | memory => exact .inr rfl
  | redis =>
      dsimp only
      split
      · split
        · exact .inr rfl
        · exact .inr rfl
      · exact .inl rfl

/-- An accepted call was not turned down by the zone, and Redis accepted in time. -/
theorem nodeMachine_ok (hFor : c.IsFor nonce exp) (hZone : c.nc.nonceZone = true)
    (hOk : ((nodeMachine ops).step s c).1 = .ok) :
    (nonceLocal ops c.nc c.vr nonce exp c.env s.store).1 ≠ .declined ∧ c.env.redis.now < exp ∧
      ((nodeMachine ops).step s c).2.store.zone =
        (nonceLocal ops c.nc c.vr nonce exp c.env s.store).2.2.zone := by
  obtain ⟨hStorage, rfl, rfl⟩ := hFor
  simp only [nodeMachine, nonceCheckAndSet, hStorage, hZone, if_true] at hOk ⊢
  split at hOk
  · rename_i hDeclined
    rw [hDeclined] at hOk
    cases hOk
  · rename_i hDeclined
    rw [if_neg hDeclined]
    exact ⟨hDeclined, (nonceRedis_ok (nonceFleet_ok hOk)).1, rfl⟩

theorem spentOnNode_step (hLegal : (nodeMachine ops).legal s c) (h : s.store.zone.Wf ops)
    (hSpent : SpentOnNode nonce exp s) :
    SpentOnNode nonce exp ((nodeMachine ops).step s c).2 := by
  obtain ⟨-, -, hNow, -, hClock⟩ := hLegal
  have hClock' : ((nodeMachine ops).step s c).2.clock = c.lockedAt := rfl
  rcases hSpent with hRem | hPast
  · by_cases hLive : c.env.now < exp
    · rcases nodeMachine_zone ops s c with hZone | hZone
      · exact .inl (by unfold Remembers; rwa [hZone])
      · exact .inl (by unfold Remembers; rw [hZone]; exact hRem.nonceLocal h hLive)
    · exact .inr (by omega)
  · exact .inr (by omega)

theorem nodeMachine_wf (h : s.store.zone.Wf ops) :
    ((nodeMachine ops).step s c).2.store.zone.Wf ops := by
  rcases nodeMachine_zone ops s c with hZone | hZone
  · rwa [hZone]
  · rw [hZone]
    exact nonceLocal_wf h

theorem spentOnNode_of_accepts (hLegal : (nodeMachine ops).legal s c)
    (hRoom : HasRoom nonce exp s c) (h : s.store.zone.Wf ops)
    (hAcc : nodeAccepts nonce exp (c, ((nodeMachine ops).step s c).1) = true) :
    SpentOnNode nonce exp ((nodeMachine ops).step s c).2 := by
  simp only [nodeAccepts, Bool.and_eq_true, decide_eq_true_eq, beq_iff_eq] at hAcc
  obtain ⟨hFor, hOk⟩ := hAcc
  have hHas := hLegal.1 hFor.1
  obtain ⟨hNot, -, hZone⟩ := nodeMachine_ok hFor hHas hOk
  have hLen : nonce.length ≤ 65535 := by
    rw [← hFor.2.1]
    exact le_trans hLegal.2.1 (by decide)
  have hLocal : (nonceLocal ops c.nc c.vr nonce exp c.env s.store).1 = .ok := by
    rcases nonceLocal_cases ops c.nc c.vr nonce exp c.env s.store with ⟨-, -, hrc, -⟩ | ⟨hno, -⟩
    · rw [hrc] at hNot ⊢
      exact (ok_or_declined_of_room h (hRoom hFor) rfl).resolve_right hNot
    · exact absurd ⟨hHas, hLen⟩ hno
  refine .inl ?_
  unfold Remembers
  rw [hZone]
  exact remembers_of_ok h hLocal

theorem not_nodeAccepts_of_spent (hLegal : (nodeMachine ops).legal s c)
    (h : s.store.zone.Wf ops) (hSpent : SpentOnNode nonce exp s) :
    nodeAccepts nonce exp (c, ((nodeMachine ops).step s c).1) = false := by
  by_contra hAcc
  simp only [Bool.not_eq_false, nodeAccepts, Bool.and_eq_true, decide_eq_true_eq,
    beq_iff_eq] at hAcc
  obtain ⟨hFor, hOk⟩ := hAcc
  obtain ⟨hZone, hLen, hNow, hRedis, hClock⟩ := hLegal
  obtain ⟨hNot, hTime, -⟩ := nodeMachine_ok hFor (hZone hFor.1) hOk
  rcases hSpent with hRem | hPast
  · refine hNot (declined_of_remembers h hRem (by omega) (hZone hFor.1) ?_)
    rw [← hFor.2.1]
    omega
  · omega

end Steps

/-- Whatever Redis answers, a node whose calls for a nonce find room in the zone accepts
it at most once. -/
theorem node_accepts_at_most_once (ops : ShmOps NonceNode) (nonce : Bytes) (exp : Int)
    (run : List NodeCall)
    (hRun : ((nodeMachine ops).restrict (HasRoom nonce exp)).LegalRun .empty run) :
    ((nodeMachine ops).answers .empty run).countP (nodeAccepts nonce exp) ≤ 1 := by
  rw [← Machine.answers_restrict (HasRoom nonce exp)]
  exact Machine.countP_answers_le_one (m := (nodeMachine ops).restrict (HasRoom nonce exp))
    (fun s c _ (h : s.store.zone.Wf ops) => nodeMachine_wf h)
    (fun s c hLegal h (hSpent : SpentOnNode nonce exp s) => spentOnNode_step hLegal.1 h hSpent)
    (fun s c hLegal h hSpent => not_nodeAccepts_of_spent hLegal.1 h hSpent)
    (fun s c hLegal h hAcc => spentOnNode_of_accepts hLegal.1 hLegal.2 h hAcc) hRun
    NonceSh.Wf.empty

/-- A call for a nonce that expires at 1000, to which Redis answers `+OK`. -/
def sampleCall (nonce : String) (now : Nat) (slab : Slab) : NodeCall where
  nc := { LocConf.defaults [] with nonceStorage := .redis, nonceAddr := ascii "10.0.0.9:6379" }
  vr := ⟨true, [], [], none, false, .error, none⟩
  nonce := ascii nonce
  exp := 1000
  env := ⟨now, slab, now, true, true, true, true, true, [ascii "+OK" ++ crlf]⟩
  lockedAt := now

def plainZone : ShmOps NonceNode :=
  ⟨fun b => if b = ascii "m" then 3775001192 else 2013832146, .plain⟩

/-- With room in the zone, the second of two calls is turned down though Redis forgot. -/
theorem node_accepts_once_with_room :
    ((nodeMachine plainZone).restrict (HasRoom (ascii "n") 1000)).LegalRun .empty
        [sampleCall "n" 900 ⟨true, true⟩, sampleCall "n" 901 ⟨true, true⟩] ∧
      ((nodeMachine plainZone).answers .empty
        [sampleCall "n" 900 ⟨true, true⟩, sampleCall "n" 901 ⟨true, true⟩]).countP
          (nodeAccepts (ascii "n") 1000) ≤ 1 :=
  have hRun : ((nodeMachine plainZone).restrict (HasRoom (ascii "n") 1000)).LegalRun .empty
      [sampleCall "n" 900 ⟨true, true⟩, sampleCall "n" 901 ⟨true, true⟩] := by decide +kernel
  ⟨hRun, node_accepts_at_most_once plainZone (ascii "n") 1000 _ hRun⟩

/-- Another nonce fills the zone; with a Redis that forgets, both calls for `n` are
accepted. -/
theorem accepted_twice_by_full_node :
    (nodeMachine plainZone).LegalRun .empty
        [sampleCall "m" 899 ⟨true, true⟩, sampleCall "n" 900 ⟨false, false⟩,
          sampleCall "n" 901 ⟨false, false⟩] ∧
      ¬((nodeMachine plainZone).answers .empty
        [sampleCall "m" 899 ⟨true, true⟩, sampleCall "n" 900 ⟨false, false⟩,
          sampleCall "n" 901 ⟨false, false⟩]).countP (nodeAccepts (ascii "n") 1000) ≤ 1 := by
  decide +kernel

end PgpAuth
