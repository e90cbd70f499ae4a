import PgpAuth.Lib.Run
import PgpAuth.Throttle.Zone

/-!
# Runs of throttle calls

All locations share one zone, and the zone mutex puts their calls in an order. A call comes
with its own limit, window and ban time, the clock it reads and the outcomes of its
allocations; the clock does not go back. `entry_step` says everything a call can do to the
entry of one address.
-/

namespace PgpAuth

open Lib

inductive ThrottleCall where
  | isBanned
  | record (success : Bool) (limit window banTime : Nat)
  deriving DecidableEq, Repr

structure ThrottleInput where
  r : Request
  env : ThrottleEnv
  call : ThrottleCall

def ThrottleInput.ip (i : ThrottleInput) : Bytes := throttleClientIp i.r

/-- The code `throttleIsBanned` returns, or the notice `throttleRecord` logs. -/
inductive ThrottleAnswer where
  | rc (rc : Rc)
  | notice (notice : Option ThrottleNotice)
  deriving DecidableEq, Repr

structure ThrottleWorld where
  zone : ThrottleSh
  clock : Nat
  deriving DecidableEq, Repr

def ThrottleWorld.start : ThrottleWorld := ⟨.empty, 0⟩

/-- Limit and window as merging leaves them in a location that throttles. -/
def ThrottleCall.Bounded : ThrottleCall → Prop
  | .isBanned => True
  | .record _ limit window _ => 0 < limit ∧ 1 ≤ window ∧ window ≤ 3600

instance (c : ThrottleCall) : Decidable c.Bounded := by
  cases c <;> unfold ThrottleCall.Bounded <;> infer_instance

def throttleMachine (ops : ShmOps ThrottleNode) :
    Machine ThrottleWorld ThrottleInput ThrottleAnswer where
  step s i :=
    match i.call with
    | .isBanned => (.rc (throttleIsBanned ops (some s.zone) i.r i.env.now), ⟨s.zone, i.env.now⟩)
    | .record success limit window banTime =>
        (.notice (throttleRecordNotice ops (some s.zone) i.r success limit window banTime i.env),
          ⟨(throttleRecord ops (some s.zone) i.r success limit window banTime i.env).getD s.zone,
            i.env.now⟩)
  legal s i := s.clock ≤ i.env.now ∧ i.call.Bounded

instance (ops : ShmOps ThrottleNode) (s : ThrottleWorld) (i : ThrottleInput) :
    Decidable ((throttleMachine ops).legal s i) := inferInstanceAs (Decidable (_ ∧ _))

/-- A failure of the address `a`, recorded with these parameters. -/
def ThrottleInput.FailureOf (i : ThrottleInput) (a : Bytes) (limit window banTime : Nat) : Prop :=
  i.ip = a ∧ i.call = .record false limit window banTime

/-- The flag of a record. -/
def ThrottleCall.success? : ThrottleCall → Option Bool
  | .isBanned => none
  | .record success _ _ _ => some success

def ThrottleInput.isFailureOf (a : Bytes) (i : ThrottleInput) : Bool :=
  i.ip = a ∧ i.call.success? = some false

def ThrottleInput.isSuccessOf (a : Bytes) (i : ThrottleInput) : Bool :=
  i.ip = a ∧ i.call.success? = some true

variable {ops : ShmOps ThrottleNode} {s : ThrottleWorld} {i : ThrottleInput}

@[simp] theorem throttleMachine_clock :
    ((throttleMachine ops).step s i).2.clock = i.env.now := by
  simp only [throttleMachine]
  split <;> rfl

theorem throttleMachine_wf (h : s.zone.Wf ops) :
    ((throttleMachine ops).step s i).2.zone.Wf ops := by
  simp only [throttleMachine]
  split
  · exact h
  · rename_i success limit window banTime _
    cases success with
    | true =>
        obtain ⟨sh', hRec, hwf, -⟩ := throttleRecord_success h i.r limit window banTime i.env
        simpa [hRec] using hwf
    | false =>
        obtain ⟨sh', hRec, hwf, -⟩ := throttleRecord_failure h i.r limit window banTime i.env
        simpa [hRec] using hwf

theorem wf_final {is : List ThrottleInput} (hRun : (throttleMachine ops).LegalRun .start is) :
    ((throttleMachine ops).final .start is).zone.Wf ops :=
  @Machine.final_invariant _ _ _ (throttleMachine ops) (fun s => s.zone.Wf ops)
    (fun _ _ _ h => throttleMachine_wf h) _ _ hRun .empty

theorem throttleMachine_isBanned (hCall : i.call = .isBanned) :
    (throttleMachine ops).step s i =
      (.rc (throttleIsBanned ops (some s.zone) i.r i.env.now), ⟨s.zone, i.env.now⟩) := by
  simp only [throttleMachine, hCall]

theorem Fades.weaken {now staleAfter staleAfter' : Nat} {o o' : Option ThrottleNode}
    (h : Fades now staleAfter o o') (hLe : staleAfter' ≤ staleAfter) :
    Fades now staleAfter' o o' := by
  rcases h with rfl | ⟨rfl, n, rfl, hBan, hWindow⟩
  · exact .inl rfl
  · exact .inr ⟨rfl, n, rfl, hBan, by omega⟩

theorem entry_of_failure (hwf : s.zone.Wf ops) {limit window banTime : Nat}
    (hOf : i.FailureOf a limit window banTime) :
    ((throttleMachine ops).step s i).2.zone.entry ops a =
      (s.zone.nodeAt ops a i.env).map (·.failed limit window banTime i.env.now) := by
  obtain ⟨rfl, hCall⟩ := hOf
  obtain ⟨sh', hRec, -, hMine, -⟩ := throttleRecord_failure hwf i.r limit window banTime i.env
  simp only [throttleMachine, hCall, hRec]
  exact hMine

/-- What a call does to the entry of `a`. A failure of `a` is counted on its node, a
success of `a` drops it, and any other call may only drop a stale node. -/
theorem entry_step (h : s.zone.Wf ops) (i : ThrottleInput) (a : Bytes) :
    (i.isFailureOf a = false ∧ i.isSuccessOf a = false ∧
      Fades i.env.now 3600 (s.zone.entry ops a)
        (((throttleMachine ops).step s i).2.zone.entry ops a)) ∨
    (i.isSuccessOf a = true ∧ i.isFailureOf a = false ∧
      ((throttleMachine ops).step s i).2.zone.entry ops a = none) ∨
    ∃ limit window banTime, i.FailureOf a limit window banTime ∧
      ((throttleMachine ops).step s i).2.zone.entry ops a =
        (s.zone.nodeAt ops a i.env).map (·.failed limit window banTime i.env.now) := by
  cases hCall : i.call with
  | isBanned =>
      rw [throttleMachine_isBanned hCall]
      exact .inl ⟨by simp [ThrottleInput.isFailureOf, ThrottleCall.success?, hCall],
        by simp [ThrottleInput.isSuccessOf, ThrottleCall.success?, hCall], .inl rfl⟩
  | record success limit window banTime =>
      have hStep : ((throttleMachine ops).step s i).2.zone =
          (throttleRecord ops (some s.zone) i.r success limit window banTime i.env).getD
            s.zone := by
        simp only [throttleMachine, hCall]
      rw [hStep]
      cases success with
      | true =>
          obtain ⟨sh', hRec, -, hEntry⟩ :=
            throttleRecord_success h i.r limit window banTime i.env
          rw [hRec, Option.getD_some, hEntry]
          by_cases ha : i.ip = a
          · refine .inr (.inl ⟨?_, ?_, if_pos ha.symm⟩)
            · simp [ThrottleInput.isSuccessOf, ThrottleCall.success?, hCall, ha]
            · simp [ThrottleInput.isFailureOf, ThrottleCall.success?, hCall]
          · refine .inl ⟨?_, ?_, .inl (if_neg (Ne.symm ha))⟩
            · simp [ThrottleInput.isFailureOf, ThrottleCall.success?, hCall]
            · simp [ThrottleInput.isSuccessOf, ha]
      | false =>
          by_cases ha : i.ip = a
          · have hOf : i.FailureOf a limit window banTime := ⟨ha, hCall⟩
            rw [← hStep]
            exact .inr (.inr ⟨limit, window, banTime, hOf, entry_of_failure h hOf⟩)
          · obtain ⟨sh', hRec, -, -, hOther⟩ :=
              throttleRecord_failure h i.r limit window banTime i.env
            rw [hRec, Option.getD_some]
            refine .inl ⟨?_, ?_, (hOther a (Ne.symm ha)).weaken (Nat.le_max_right _ _)⟩
            · simp [ThrottleInput.isFailureOf, ha]
            · simp [ThrottleInput.isSuccessOf, ha]

/-! ## Sample calls -/

/-- A request of which only the address matters. -/
def throttleClient (addr : ClientAddr) : Request where
  addr := addr
  userAgent := none
  cookie _ := none
  main := true
  post := true
  argsLen := 0
  arg _ := none
  contentLength := 500
  chunked := false
  uri := ascii "/"
  headerOnly := false

def addrA : ClientAddr := ⟨ascii "192.0.2.11", by decide +kernel⟩

def addrB : ClientAddr := ⟨ascii "192.0.2.12", by decide +kernel⟩

/-- Every address has the same hash. -/
def collidingShm : ShmOps ThrottleNode := ⟨fun _ => 7, .plain⟩

/-- A call at time `now`, with room in the zone. -/
def callAt (now : Nat) (addr : ClientAddr) (call : ThrottleCall) : ThrottleInput :=
  ⟨throttleClient addr, ⟨now, true, true⟩, call⟩

end PgpAuth
