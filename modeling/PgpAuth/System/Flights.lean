import Mathlib.Data.List.Perm.Basic
import PgpAuth.System.Access

/-!
# Requests in flight

A submission that goes to the thread pool leaves the worker, and comes back with an event.
The event, the task and the result lie in the memory of the request, so nginx must not close
the request in between; `r->main->blocked` is there for that. The same event has a watchdog
timer, and one handler for both: `verifyThreadDone` tells them apart by `ev->timedout`.

`flightMachine` is the system with these fields. Its steps beside those of `systemMachine`
are timers that expire and requests that nginx closes, at any moment it may. The result is
that a request is closed only when neither a thread nor a timer can reach it any more, that
no notification is lost or taken twice, and that the runs are runs of `systemMachine`, with
the other steps left out.
-/

namespace PgpAuth

open Lib

/-! ## The fields of a request -/

/-- What holds a request: its counters and flags, the timer of `task->event`, whether the
pool has notified, how often it was finalized, and whether its memory is gone. -/
structure Lifecycle where
  blocked : Int
  aio : Bool
  ctx : Bool
  timer : Option Nat
  timedout : Bool
  alerts : Nat
  notified : Bool
  finalized : Nat
  closed : Bool
  deriving DecidableEq, Repr

def Lifecycle.fresh : Lifecycle := ⟨0, false, false, none, false, 0, false, 0, false⟩

/-- What `ngx_http_pgp_auth_submit` does to the request. -/
def Lifecycle.submit (c : Lifecycle) (plcf : LocConf) (msec : Nat) : Submitted → Lifecycle
  | .posted _ =>
      { c with
        timer := some (msec + (plcf.gpgTimeout + 10000))
        blocked := c.blocked + 1
        aio := true
        ctx := true }
  | .answered _ => { c with finalized := c.finalized + 1 }

/-- What `ngx_http_pgp_verify_thread_done` does to it, and whether it goes on to the answer.
A watchdog that fired is only noted. -/
def Lifecycle.threadDone (c : Lifecycle) : Bool × Lifecycle :=
  if c.timedout then (false, { c with timedout := false, alerts := c.alerts + 1 })
  else
    (true, { c with
      timer := none
      blocked := c.blocked - 1
      aio := false
      finalized := c.finalized + 1 })

/-- The pool calls the handler of the event. -/
def Lifecycle.notify (c : Lifecycle) : Bool × Lifecycle :=
  { c with notified := true }.threadDone

/-- The timer expires, and nginx calls the same handler. -/
def Lifecycle.expire (c : Lifecycle) : Lifecycle :=
  { c with timer := none, timedout := true }.threadDone.2

/-! ## The system with these fields -/

/-- Requests are numbered as they come. The three lists go with those of the world. -/
structure Flights where
  world : World
  next : Nat
  reading : List Nat
  posted : List Nat
  finished : List Nat
  life : Nat → Lifecycle

def Flights.start (world : World) : Flights := ⟨world, 0, [], [], [], fun _ => .fresh⟩

/-- Requests of which a task may be running, or has run and was not taken yet. -/
def Flights.flying (s : Flights) : List Nat := s.posted ++ s.finished

inductive FlightStep where
  | request (worker loc : Nat) (r : Request) (env : HandlerEnv)
  | body (i : Nat) (env : SubmitEnv) (msec : Nat)
  | thread (i : Nat) (gpg : GpgEnv) (consume : ConsumeEnv)
  | notify (i : Nat) (post : PostEnv) (finalize : FinalizeEnv)
  | expire (id msec : Nat)
  | close (id : Nat)

/-- The step of the system that it is. -/
def FlightStep.step? : FlightStep → Option Step
  | .request worker loc r env => some (.request worker loc r env)
  | .body i env _ => some (.body i env)
  | .thread i gpg consume => some (.thread i gpg consume)
  | .notify i post finalize => some (.complete i post finalize)
  | .expire _ _ => none
  | .close _ => none

def Submitted.isPosted : Submitted → Bool
  | .posted _ => true
  | .answered _ => false

section Machine

variable (x : Externals) (locs : Nat → LocConf)

def Flights.request (s : Flights) (worker loc : Nat) (r : Request) (env : HandlerEnv) :
    Option Rc × Flights :=
  let h := authHandler x (locs loc) r env (s.world.stores worker loc)
  let out := s.world.request x locs worker loc r env
  (out.1,
    { s with
      world := out.2
      next := s.next + 1
      reading := if h.reading then s.reading ++ [s.next] else s.reading
      life := Function.update s.life s.next
        { Lifecycle.fresh with finalized := if h.answer.isSome then 1 else 0 } })

def Flights.body (s : Flights) (i : Nat) (env : SubmitEnv) (msec : Nat) : Flights :=
  match s.world.reading[i]?, s.reading[i]? with
  | some p, some id =>
      let out := authSubmit x (locs p.loc) p.r env (s.world.stores p.worker p.loc)
      { s with
        world := s.world.body x locs i env
        reading := s.reading.eraseIdx i
        posted := if out.isPosted then s.posted ++ [id] else s.posted
        life := Function.update s.life id ((s.life id).submit (locs p.loc) msec out) }
  | _, _ => s

def Flights.thread (s : Flights) (i : Nat) (gpg : GpgEnv) (consume : ConsumeEnv) : Flights :=
  match s.posted[i]? with
  | some id =>
      { s with
        world := s.world.thread x locs i gpg consume
        posted := s.posted.eraseIdx i
        finished := s.finished ++ [id] }
  | none => s

/-- Where the handler does not go on, the notification is spent all the same. -/
def Flights.notify (s : Flights) (i : Nat) (post : PostEnv) (finalize : FinalizeEnv) : Flights :=
  match s.finished[i]? with
  | some id =>
      let done := (s.life id).notify
      if done.1 then
        { s with
          world := s.world.complete x locs i post finalize
          finished := s.finished.eraseIdx i
          life := Function.update s.life id done.2 }
      else { s with life := Function.update s.life id done.2 }
  | none => s

def Flights.expire (s : Flights) (id : Nat) : Flights :=
  { s with life := Function.update s.life id (s.life id).expire }

def Flights.close (s : Flights) (id : Nat) : Flights :=
  { s with life := Function.update s.life id { s.life id with closed := true } }

/-- What nginx promises: it calls the body handler of a request that is there, notifies once
for a task, lets a timer expire that is armed and due, and closes no request that is
blocked. -/
def Flights.Allowed (s : Flights) : FlightStep → Prop
  | .request _ _ _ _ => True
  | .body i _ _ => ∀ id ∈ s.reading[i]?, (s.life id).closed = false
  | .thread _ _ _ => True
  | .notify i _ _ => ∀ id ∈ s.finished[i]?, (s.life id).notified = false
  | .expire id msec => ∃ due ∈ (s.life id).timer, due ≤ msec
  | .close id => id < s.next ∧ (s.life id).blocked = 0 ∧ (s.life id).closed = false

def flightMachine : Machine Flights FlightStep (Option Rc) where
  step s
    | .request worker loc r env => s.request x locs worker loc r env
    | .body i env msec => (none, s.body x locs i env msec)
    | .thread i gpg consume => (none, s.thread x locs i gpg consume)
    | .notify i post finalize => (none, s.notify x locs i post finalize)
    | .expire id _ => (none, s.expire id)
    | .close id => (none, s.close id)
  legal s i := s.Allowed i

end Machine

/-! ## The invariant -/

/-- No task of the request is in the pool, and no timer of it is armed. -/
structure Lifecycle.Idle (c : Lifecycle) : Prop where
  blocked : c.blocked = 0
  aio : c.aio = false
  timer : c.timer = none
  timedout : c.timedout = false

/-- A task of the request is in the pool: it is held, and not answered. -/
structure Lifecycle.Flying (c : Lifecycle) : Prop where
  blocked : c.blocked = 1
  aio : c.aio = true
  ctx : c.ctx = true
  timedout : c.timedout = false
  notified : c.notified = false
  finalized : c.finalized = 0
  closed : c.closed = false

/-- At most one answer, and one where the pool has notified. -/
structure Lifecycle.Settled (c : Lifecycle) : Prop where
  once : c.finalized ≤ 1
  answered : c.notified = true → c.finalized = 1

/-- The fields of a request that is, or is not, waiting for its body or in flight. -/
structure Lifecycle.Fits (c : Lifecycle) (waits flies : Prop) : Prop where
  waiting : waits → c.finalized = 0 ∧ c.notified = false
  flying : flies → c.Flying
  idle : ¬flies → c.Idle
  settled : c.Settled

theorem Lifecycle.Fits.of_iff {c : Lifecycle} {waits flies waits' flies' : Prop}
    (h : c.Fits waits flies) (hWaits : waits' → waits) (hFlies : flies' ↔ flies) :
    c.Fits waits' flies' where
  waiting hw := h.waiting (hWaits hw)
  flying hf := h.flying (hFlies.mp hf)
  idle hf := h.idle (hf ∘ hFlies.mpr)
  settled := h.settled

structure Flights.Kept (s : Flights) : Prop where
  reading : s.reading.length = s.world.reading.length
  posted : s.posted.length = s.world.posted.length
  finished : s.finished.length = s.world.finished.length
  nodup : (s.reading ++ s.flying).Nodup
  bound : ∀ id ∈ s.reading ++ s.flying, id < s.next
  life : ∀ id, (s.life id).Fits (id ∈ s.reading) (id ∈ s.flying)

theorem Lifecycle.fresh_fits {waits flies : Prop} (hWaits : ¬waits) (hFlies : ¬flies)
    (answered : Bool) :
    { Lifecycle.fresh with finalized := if answered then 1 else 0 }.Fits waits flies where
  waiting hw := absurd hw hWaits
  flying hf := absurd hf hFlies
  idle _ := ⟨rfl, rfl, rfl, rfl⟩
  settled := ⟨by cases answered <;> decide, nofun⟩

theorem kept_start (nonce : NonceState) (throttle : ThrottleSh) (revoc : Nat → Nat → RevocCache) :
    (Flights.start (.start nonce throttle revoc)).Kept where
  reading := rfl
  posted := rfl
  finished := rfl
  nodup := List.nodup_nil
  bound _ h := absurd h List.not_mem_nil
  life _ := Lifecycle.fresh_fits List.not_mem_nil List.not_mem_nil false

/-! ## One step -/

section Steps

variable {x : Externals} {locs : Nat → LocConf} {s : Flights}

theorem perm_cons_eraseIdx {l : List Nat} {i a : Nat} (h : l[i]? = some a) :
    l.Perm (a :: l.eraseIdx i) := by
  obtain ⟨hLt, hGet⟩ := List.getElem?_eq_some_iff.mp h
  have hPerm := List.getElem_cons_eraseIdx_perm hLt
  rw [hGet] at hPerm
  exact hPerm.symm

/-- One request changes. -/
theorem fits_update {life : Nat → Lifecycle} {id : Nat} {c : Lifecycle} {waits flies : Nat → Prop}
    (hId : c.Fits (waits id) (flies id))
    (hOther : ∀ k, k ≠ id → (life k).Fits (waits k) (flies k)) :
    ∀ k, (Function.update life id c k).Fits (waits k) (flies k) :=
  (Function.forall_update_iff life fun k c => Lifecycle.Fits c (waits k) (flies k)).mpr
    ⟨hId, hOther⟩

/-- The handler leaves the request open where its body is read. -/
theorem authHandler_reading {plcf : LocConf} {r : Request} {env : HandlerEnv} {st : Stores}
    (h : (authHandler x plcf r env st).reading = true) :
    (authHandler x plcf r env st).answer = none := by
  unfold authHandler at h ⊢
  dsimp only at h ⊢
  split_ifs at h ⊢
  all_goals rfl

theorem Flights.Kept.request (h : s.Kept) (worker loc : Nat) (r : Request) (env : HandlerEnv) :
    (s.request x locs worker loc r env).2.Kept := by
  have hNew : s.next ∉ s.reading ++ s.flying := fun hm => lt_irrefl _ (h.bound s.next hm)
  have hOut : s.next ∉ s.flying := fun hm => hNew (List.mem_append_right _ hm)
  have hAnswer := @authHandler_reading x (locs loc) r env (s.world.stores worker loc)
  have hWorld : (s.world.request x locs worker loc r env).2.reading =
      if (authHandler x (locs loc) r env (s.world.stores worker loc)).reading then
        s.world.reading ++ [⟨worker, loc, r⟩] else s.world.reading := rfl
  unfold Flights.request
  dsimp only
  generalize authHandler x (locs loc) r env (s.world.stores worker loc) = out at *
  cases hRead : out.reading with
  | false =>
      simp only [hRead, Bool.false_eq_true, if_false] at hWorld ⊢
      refine ⟨by rw [hWorld]; exact h.reading, h.posted, h.finished, h.nodup, ?_, ?_⟩
      · intro id hId
        exact Nat.lt_succ_of_lt (h.bound id hId)
      · refine fits_update ?_ fun id _ => h.life id
        exact Lifecycle.fresh_fits (fun hm => hNew (List.mem_append_left _ hm)) hOut _
  | true =>
      simp only [hRead, if_true, hAnswer hRead] at hWorld ⊢
      have hPerm : (s.reading ++ [s.next] ++ s.flying).Perm
          (s.next :: (s.reading ++ s.flying)) := by
        rw [List.append_assoc]
        exact List.perm_middle
      refine ⟨?_, h.posted, h.finished, ?_, ?_, ?_⟩
      · rw [hWorld]
        simp [h.reading]
      · exact hPerm.nodup_iff.mpr (List.nodup_cons.mpr ⟨hNew, h.nodup⟩)
      · intro id hId
        rcases List.mem_cons.mp (hPerm.mem_iff.mp hId) with rfl | hOld
        · exact Nat.lt_succ_self _
        · exact Nat.lt_succ_of_lt (h.bound id hOld)
      · refine fits_update ?_ fun id hNe => ?_
        · exact ⟨fun _ => ⟨rfl, rfl⟩, fun hf => absurd hf hOut, fun _ => ⟨rfl, rfl, rfl, rfl⟩,
            ⟨Nat.zero_le 1, nofun⟩⟩
        · refine (h.life id).of_iff ?_ Iff.rfl
          intro hm
          rcases List.mem_append.mp hm with hm | hm
          · exact hm
          · exact absurd (List.mem_singleton.mp hm) hNe

/-- What `authSubmit` leaves of a request whose body was read: in flight where a task is
posted, and answered where not. -/
theorem Lifecycle.submit_fits {c : Lifecycle} {plcf : LocConf} {msec : Nat} {out : Submitted}
    {waits flies : Prop} (hIdle : c.Idle) (hFinalized : c.finalized = 0)
    (hNotified : c.notified = false) (hClosed : c.closed = false) (hWaits : ¬waits)
    (hFlies : flies ↔ out.isPosted = true) : (c.submit plcf msec out).Fits waits flies := by
  cases out with
  | posted task =>
      refine ⟨fun hw => absurd hw hWaits, fun _ => ?_, fun hf => absurd (hFlies.mpr rfl) hf, ?_⟩
      · refine ⟨?_, rfl, rfl, hIdle.timedout, hNotified, hFinalized, hClosed⟩
        change c.blocked + 1 = 1
        rw [hIdle.blocked]
        rfl
      · refine ⟨hFinalized.trans_le (Nat.zero_le 1), fun hn => ?_⟩
        exact absurd (hNotified.symm.trans hn) Bool.false_ne_true
  | answered out =>
      have hNot : ¬flies := fun hf => Bool.false_ne_true (hFlies.mp hf)
      refine ⟨fun hw => absurd hw hWaits, fun hf => absurd hf hNot, fun _ => ?_, ?_⟩
      · exact ⟨hIdle.blocked, hIdle.aio, hIdle.timer, hIdle.timedout⟩
      · have hOnce : c.finalized + 1 = 1 := by rw [hFinalized]
        exact ⟨hOnce.le, fun _ => hOnce⟩

/-- The lists of a world whose reading request has been submitted. -/
theorem World.body_lists {w : World} {i : Nat} {env : SubmitEnv} {p : Reading}
    (h : w.reading[i]? = some p) :
    (w.body x locs i env).reading = w.reading.eraseIdx i ∧
      (w.body x locs i env).posted.length = w.posted.length +
        (if (authSubmit x (locs p.loc) p.r env (w.stores p.worker p.loc)).isPosted then 1 else 0) ∧
      (w.body x locs i env).finished = w.finished := by
  unfold World.body
  simp only [h]
  cases authSubmit x (locs p.loc) p.r env (w.stores p.worker p.loc) with
  | posted task => exact ⟨rfl, List.length_append, rfl⟩
  | answered out => exact ⟨rfl, rfl, rfl⟩

theorem Flights.Kept.body (h : s.Kept) {i : Nat} {env : SubmitEnv} {msec : Nat}
    (hOpen : ∀ id ∈ s.reading[i]?, (s.life id).closed = false) :
    (s.body x locs i env msec).Kept := by
  unfold Flights.body
  split
  · rename_i p id hp hId
    obtain ⟨hReading, hPosted, hFinished⟩ := @World.body_lists x locs s.world i env p hp
    have hPerm : (s.reading ++ s.flying).Perm (id :: (s.reading.eraseIdx i ++ s.flying)) :=
      (perm_cons_eraseIdx hId).append_right _
    obtain ⟨hGone, hNodup⟩ := List.nodup_cons.mp (hPerm.nodup_iff.mp h.nodup)
    have hNotReading : id ∉ s.reading.eraseIdx i := fun hm => hGone (List.mem_append_left _ hm)
    have hNotFlying : id ∉ s.flying := fun hm => hGone (List.mem_append_right _ hm)
    obtain ⟨hFinalized, hNotified⟩ := (h.life id).waiting (List.mem_of_getElem? hId)
    dsimp only
    generalize authSubmit x (locs p.loc) p.r env (s.world.stores p.worker p.loc) = out at *
    -- a posted task takes the request from the one list to the other, an answer takes it away
    have hAfter : (s.reading.eraseIdx i ++
        ((if out.isPosted then s.posted ++ [id] else s.posted) ++ s.finished)).Perm
        ((if out.isPosted then [id] else []) ++ (s.reading.eraseIdx i ++ s.flying)) := by
      cases out.isPosted with
      | false => exact .refl _
      | true =>
          simp only [if_true, Flights.flying, List.append_assoc, List.singleton_append]
          exact (List.perm_middle.append_left _).trans List.perm_middle
    have hFlies : ∀ k, k ∈ (if out.isPosted then s.posted ++ [id] else s.posted) ++ s.finished ↔
        k ∈ s.flying ∨ k = id ∧ out.isPosted = true := by
      intro k
      cases out.isPosted with
      | false => simp [Flights.flying]
      | true =>
          simp only [if_true, Flights.flying, List.mem_append, List.mem_singleton]
          tauto
    refine ⟨?_, ?_, ?_, ?_, ?_, ?_⟩
    · rw [hReading]
      simp [List.length_eraseIdx, h.reading]
    · rw [hPosted]
      cases out.isPosted with
      | false => exact h.posted
      | true => simp [h.posted]
    · rw [hFinished]
      exact h.finished
    · refine hAfter.nodup_iff.mpr ?_
      cases out.isPosted with
      | false => exact hNodup
      | true => exact List.nodup_cons.mpr ⟨hGone, hNodup⟩
    · intro k hk
      refine h.bound k (hPerm.mem_iff.mpr ?_)
      rcases List.mem_append.mp (hAfter.mem_iff.mp hk) with hk | hk
      · split at hk
        · rw [List.mem_singleton.mp hk]
          exact List.mem_cons_self
        · cases hk
      · exact List.mem_cons_of_mem _ hk
    · refine fits_update ?_ fun k hNe => ?_
      · refine Lifecycle.submit_fits ((h.life id).idle hNotFlying) hFinalized hNotified
          (hOpen id hId) hNotReading ((hFlies id).trans ?_)
        simp [hNotFlying]
      · refine (h.life k).of_iff List.mem_of_mem_eraseIdx ((hFlies k).trans ?_)
        simp [hNe]
  · exact h

theorem Flights.Kept.thread (h : s.Kept) (i : Nat) (gpg : GpgEnv) (consume : ConsumeEnv) :
    (s.thread x locs i gpg consume).Kept := by
  unfold Flights.thread
  split
  · rename_i id hId
    obtain ⟨hLt, -⟩ := List.getElem?_eq_some_iff.mp hId
    rw [h.posted] at hLt
    have hPerm : (s.posted.eraseIdx i ++ (s.finished ++ [id])).Perm s.flying := by
      refine List.Perm.trans ?_ ((perm_cons_eraseIdx hId).append_right _).symm
      rw [← List.append_assoc]
      exact List.perm_append_singleton id _
    have hAll := hPerm.append_left s.reading
    refine ⟨?_, ?_, ?_, hAll.nodup_iff.mpr h.nodup, ?_, ?_⟩
    · simp only [World.thread, List.getElem?_eq_getElem hLt]
      exact h.reading
    · simp [World.thread, List.getElem?_eq_getElem hLt, List.length_eraseIdx, h.posted]
    · simp [World.thread, List.getElem?_eq_getElem hLt, h.finished]
    · intro k hk
      exact h.bound k (hAll.mem_iff.mp hk)
    · intro k
      exact (h.life k).of_iff (fun hw => hw) hPerm.mem_iff
  · exact h

/-- A notification finds the timer not timed out, and the handler answers. -/
theorem Lifecycle.Flying.notify {c : Lifecycle} (h : c.Flying) :
    c.notify = (true, { c with
      notified := true, timer := none, blocked := 0, aio := false, finalized := 1 }) := by
  rw [Lifecycle.notify, Lifecycle.threadDone, if_neg (by rw [h.timedout]; exact Bool.false_ne_true)]
  simp [h.blocked, h.finalized]

theorem Flights.Kept.notify (h : s.Kept) (i : Nat) (post : PostEnv) (finalize : FinalizeEnv) :
    (s.notify x locs i post finalize).Kept := by
  unfold Flights.notify
  split
  · rename_i id hId
    obtain ⟨hLt, -⟩ := List.getElem?_eq_some_iff.mp hId
    rw [h.finished] at hLt
    have hMem : id ∈ s.flying := List.mem_append_right _ (List.mem_of_getElem? hId)
    have hPerm : s.flying.Perm (id :: (s.posted ++ s.finished.eraseIdx i)) :=
      ((perm_cons_eraseIdx hId).append_left _).trans List.perm_middle
    have hAll : (s.reading ++ s.flying).Perm
        (id :: (s.reading ++ (s.posted ++ s.finished.eraseIdx i))) :=
      (hPerm.append_left _).trans List.perm_middle
    obtain ⟨hGone, hNodup⟩ := List.nodup_cons.mp (hAll.nodup_iff.mp h.nodup)
    have hFlying := (h.life id).flying hMem
    simp only [hFlying.notify, if_true]
    refine ⟨?_, ?_, ?_, hNodup, ?_, ?_⟩
    · simp only [World.complete, List.getElem?_eq_getElem hLt]
      exact h.reading
    · simp only [World.complete, List.getElem?_eq_getElem hLt]
      exact h.posted
    · simp only [World.complete, List.getElem?_eq_getElem hLt]
      change (s.finished.eraseIdx i).length = (s.world.finished.eraseIdx i).length
      simp [List.length_eraseIdx, h.finished]
    · intro k hk
      exact h.bound k (hAll.mem_iff.mpr (List.mem_cons_of_mem _ hk))
    · refine fits_update ?_ fun k hNe => ?_
      · refine ⟨fun hw => ?_, fun hf => ?_, fun _ => ⟨rfl, rfl, rfl, hFlying.timedout⟩,
          ⟨le_refl 1, fun _ => rfl⟩⟩
        · exact absurd (List.mem_append_left _ hw) hGone
        · exact absurd (List.mem_append_right _ hf) hGone
      · refine (h.life k).of_iff (fun hw => hw) (Iff.symm (hPerm.mem_iff.trans ?_))
        exact List.mem_cons.trans (or_iff_right hNe)
  · exact h

/-- Only a request in flight has a timer to expire; it stays in flight. -/
theorem Flights.Kept.expire (h : s.Kept) {id due : Nat} (hTimer : (s.life id).timer = some due) :
    (s.expire id).Kept := by
  have hMem : id ∈ s.flying := by
    by_contra hNot
    have hNone := ((h.life id).idle hNot).timer
    rw [hTimer] at hNone
    cases hNone
  refine ⟨h.reading, h.posted, h.finished, h.nodup, h.bound, ?_⟩
  refine fits_update ?_ fun k _ => h.life k
  obtain ⟨hWaiting, hFlying, -, hSettled⟩ := h.life id
  have hNow := hFlying hMem
  exact ⟨hWaiting, fun _ => ⟨hNow.blocked, hNow.aio, hNow.ctx, rfl, hNow.notified, hNow.finalized,
    hNow.closed⟩, fun hf => absurd hMem hf, ⟨hSettled.once, hSettled.answered⟩⟩

/-- A request that is not blocked is not in flight. -/
theorem Flights.Kept.close (h : s.Kept) {id : Nat} (hBlocked : (s.life id).blocked = 0) :
    (s.close id).Kept := by
  have hNot : id ∉ s.flying := by
    intro hMem
    have hOne := ((h.life id).flying hMem).blocked
    rw [hBlocked] at hOne
    cases hOne
  refine ⟨h.reading, h.posted, h.finished, h.nodup, h.bound, ?_⟩
  refine fits_update ?_ fun k _ => h.life k
  obtain ⟨hWaiting, -, hIdle, hSettled⟩ := h.life id
  have hNow := hIdle hNot
  exact ⟨hWaiting, fun hf => absurd hf hNot,
    fun _ => ⟨hNow.blocked, hNow.aio, hNow.timer, hNow.timedout⟩,
    ⟨hSettled.once, hSettled.answered⟩⟩

theorem flightMachine_kept {i : FlightStep} (hLegal : (flightMachine x locs).legal s i)
    (h : s.Kept) : ((flightMachine x locs).step s i).2.Kept := by
  cases i with
  | request worker loc r env => exact h.request worker loc r env
  | body i env msec => exact h.body hLegal
  | thread i gpg consume => exact h.thread i gpg consume
  | notify i post finalize => exact h.notify i post finalize
  | expire id msec =>
      obtain ⟨due, hTimer, -⟩ := hLegal
      exact h.expire hTimer
  | close id => exact h.close hLegal.2.1

/-! ## The steps of the system -/

theorem getElem?_eq_none_of_length {α : Type} {l : List Nat} {l' : List α} {i : Nat}
    (h : l.length = l'.length) (hNone : l[i]? = none) : l'[i]? = none := by
  rw [List.getElem?_eq_none_iff] at hNone ⊢
  exact h ▸ hNone

/-- A step of the system is taken by the world as it is. -/
theorem flightMachine_seen {i : FlightStep} {k : Step} (h : s.Kept) (hi : i.step? = some k) :
    ((flightMachine x locs).step s i).2.world = ((systemMachine x locs).step s.world k).2 := by
  cases i with
  | request worker loc r env =>
      cases hi
      rfl
  | body i env msec =>
      cases hi
      change (s.body x locs i env msec).world = s.world.body x locs i env
      unfold Flights.body
      split
      · rfl
      · rename_i hNone
        cases hWorld : s.world.reading[i]? with
        | none => simp only [World.body, hWorld]
        | some p =>
            cases hId : s.reading[i]? with
            | none => cases hWorld.symm.trans (getElem?_eq_none_of_length h.reading hId)
            | some id => exact absurd hId (hNone p id hWorld)
  | thread i gpg consume =>
      cases hi
      change (s.thread x locs i gpg consume).world = s.world.thread x locs i gpg consume
      unfold Flights.thread
      split
      · rfl
      · rename_i hNone
        simp only [World.thread, getElem?_eq_none_of_length h.posted hNone]
  | notify i post finalize =>
      cases hi
      change (s.notify x locs i post finalize).world = s.world.complete x locs i post finalize
      unfold Flights.notify
      split
      · rename_i id hId
        have hMem : id ∈ s.flying := List.mem_append_right _ (List.mem_of_getElem? hId)
        simp only [((h.life id).flying hMem).notify, if_true]
      · rename_i hNone
        simp only [World.complete, getElem?_eq_none_of_length h.finished hNone]
  | expire id msec => cases hi
  | close id => cases hi

theorem flightMachine_unseen {i : FlightStep} (hi : i.step? = none) :
    ((flightMachine x locs).step s i).2.world = s.world := by
  cases i with
  | request worker loc r env => cases hi
  | body i env msec => cases hi
  | thread i gpg consume => cases hi
  | notify i post finalize => cases hi
  | expire id msec => rfl
  | close id => rfl

end Steps

/-- In every run, timers expiring and nginx closing requests whenever it may: a request of
which a task is in the pool is held, unanswered and its memory there; any other request is
free of the pool, with no timer armed. None is answered twice, and one that the pool has
notified is answered. The world is that of a run of `systemMachine`, which is a legal one
just when each of its steps is legal where the flights take it. -/
theorem flights_held (x : Externals) (locs : Nat → LocConf) (nonce : NonceState)
    (throttle : ThrottleSh) (revoc : Nat → Nat → RevocCache) (run : List FlightStep)
    (hRun : (flightMachine x locs).LegalRun (.start (.start nonce throttle revoc)) run) :
    let s := (flightMachine x locs).final (.start (.start nonce throttle revoc)) run
    (∀ id ∈ s.flying, (s.life id).Flying) ∧ (∀ id ∉ s.flying, (s.life id).Idle) ∧
      (∀ id, (s.life id).Settled) ∧
      s.world = (systemMachine x locs).final (.start nonce throttle revoc)
        (run.filterMap FlightStep.step?) ∧
      ((systemMachine x locs).LegalRun (.start nonce throttle revoc)
          (run.filterMap FlightStep.step?) ↔
        ((flightMachine x locs).restrict fun s i =>
          ∀ k ∈ i.step?, (systemMachine x locs).legal s.world k).LegalRun
            (.start (.start nonce throttle revoc)) run) := by
  have hStart := kept_start nonce throttle revoc
  have hKept := Machine.final_invariant (fun s i hLegal h => flightMachine_kept hLegal h) hRun
    hStart
  have hWorld := Machine.final_filterMap (systemMachine x locs) Flights.world FlightStep.step?
    (fun s i hLegal h => flightMachine_kept hLegal h)
    (fun s i k _ h hi => flightMachine_seen h hi)
    (fun s i _ _ hi => flightMachine_unseen hi) hRun hStart
  exact ⟨fun id => (hKept.life id).flying, fun id => (hKept.life id).idle,
    fun id => (hKept.life id).settled, hWorld⟩

/-! ## A slow thread -/

instance (s : Flights) : ∀ i : FlightStep, Decidable (s.Allowed i)
  | .request _ _ _ _ => isTrue trivial
  | .body _ _ _ => inferInstanceAs (Decidable (∀ id ∈ s.reading[_]?, _))
  | .thread _ _ _ => isTrue trivial
  | .notify _ _ _ => inferInstanceAs (Decidable (∀ id ∈ s.finished[_]?, _))
  | .expire id msec => inferInstanceAs (Decidable (∃ due ∈ (s.life id).timer, due ≤ msec))
  | .close _ => inferInstanceAs (Decidable (_ ∧ _ ∧ _))

instance (x : Externals) (locs : Nat → LocConf) (s : Flights) (i : FlightStep) :
    Decidable ((flightMachine x locs).legal s i) :=
  inferInstanceAs (Decidable (s.Allowed i))

/-- The sample login, with a thread that takes longer than the watchdog allows. The page's
request and, in the end, the submission are closed. -/
def slowRun : List FlightStep :=
  [.request 0 0 { sampleRequest with post := false } (loginHandler 880), .close 0,
    .request 0 0 sampleRequest (loginHandler 990),
    .body 0 ⟨[.memory clearSignedTag], true, true, true, true,
      ⟨sampleSigned, calmPost 990 [], calmFinalize 990⟩⟩ 50000,
    .expire 1 62000, .thread 0 sampleSigned (calmPost 990 []).consume,
    .notify 0 (calmPost 1000 []) (calmFinalize 1000), .close 1]

/-- The watchdog is noted, the submission answered once, and its memory gone after that. -/
theorem slowRun_held :
    ((flightMachine loginExternals fun _ => sampleConf).final
      (.start (.start .empty .empty fun _ _ => .empty)) slowRun).life 1 =
        ⟨0, false, true, none, false, 1, true, 1, true⟩ ∧
      (∀ id, (((flightMachine loginExternals fun _ => sampleConf).final
        (.start (.start .empty .empty fun _ _ => .empty)) slowRun).life id).Settled) :=
  ⟨by decide +kernel, (flights_held loginExternals (fun _ => sampleConf) .empty .empty
    (fun _ _ => .empty) slowRun (by decide +kernel)).2.2.1⟩

end PgpAuth
