import PgpAuth.Throttle.Calls

/-!
# What the throttle is for

`addressAutomaton` is the throttle of a single address with no zone behind it: a window
start, a count and the end of a ban, nothing at first and nothing after a success. The
zone answers every address as this automaton does on the calls of that address alone
(`throttle_answers_eq`), whatever the other addresses do and however the hash collides.

Eviction drops an entry only when it is stale. The automaton still holds a tally then, but
one that no window of up to an hour can tell from an absent one: its ban is over, and the
next failure starts a new window (`Tracks`).
-/

namespace PgpAuth

open Lib

structure Tally where
  windowStart : Nat
  count : Nat
  banEnd : Nat
  deriving DecidableEq, Repr

/-- One more failure: within the window it is counted, else it opens a new one. -/
def Tally.counted (window now : Nat) : Option Tally → Tally
  | none => ⟨now, 1, 0⟩
  | some t =>
      if now < t.windowStart + window then { t with count := t.count + 1 }
      else { t with windowStart := now, count := 1 }

/-- At the limit a failure sets the ban. -/
def Tally.afterFailure (limit window banTime now : Nat) (o : Option Tally) : Tally :=
  let t := Tally.counted window now o
  if limit ≤ t.count then { t with banEnd := now + banTime } else t

section

variable {limit window banTime now : Nat}

theorem Tally.counted_within {t : Tally} (h : now < t.windowStart + window) :
    Tally.counted window now (some t) = { t with count := t.count + 1 } := if_pos h

theorem Tally.counted_reopened {t : Tally} (h : ¬now < t.windowStart + window) :
    Tally.counted window now (some t) = { t with windowStart := now, count := 1 } := if_neg h

theorem Tally.afterFailure_windowStart (o : Option Tally) :
    (Tally.afterFailure limit window banTime now o).windowStart =
      (Tally.counted window now o).windowStart := by
  unfold Tally.afterFailure
  dsimp only
  split <;> rfl

theorem Tally.afterFailure_count (o : Option Tally) :
    (Tally.afterFailure limit window banTime now o).count =
      (Tally.counted window now o).count := by
  unfold Tally.afterFailure
  dsimp only
  split <;> rfl

theorem Tally.afterFailure_banEnd (o : Option Tally) :
    (Tally.afterFailure limit window banTime now o).banEnd =
      if limit ≤ (Tally.counted window now o).count then now + banTime
      else (Tally.counted window now o).banEnd := by
  unfold Tally.afterFailure
  dsimp only
  split <;> rfl

end

def Tally.Banned (now : Nat) (o : Option Tally) : Prop := ∃ t ∈ o, now < t.banEnd

instance (now : Nat) (o : Option Tally) : Decidable (Tally.Banned now o) :=
  match o with
  | none => isFalse (by simp [Tally.Banned])
  | some t => decidable_of_iff (now < t.banEnd) (by simp [Tally.Banned])

def addressAutomaton : Machine (Option Tally) ThrottleInput ThrottleAnswer where
  step o i :=
    match i.call with
    | .isBanned => (.rc (if Tally.Banned i.env.now o then .declined else .ok), o)
    | .record true _ _ _ => (.notice none, none)
    | .record false limit window banTime =>
        let t := Tally.afterFailure limit window banTime i.env.now o
        (.notice (if limit ≤ t.count then some (.triggered t.count banTime) else none), some t)
  legal _ _ := True

/-- Ban times as merging leaves them, and every failure gets its node. -/
def WithRoom (_ : ThrottleWorld) (i : ThrottleInput) : Prop :=
  match i.call with
  | .isBanned => True
  | .record _ _ _ banTime =>
      1 ≤ banTime ∧ banTime ≤ 86400 ∧ (i.env.first = true ∨ i.env.second = true)

instance (s : ThrottleWorld) (i : ThrottleInput) : Decidable (WithRoom s i) :=
  match hCall : i.call with
  | .isBanned => isTrue (by simp only [WithRoom, hCall])
  | .record _ _ _ banTime =>
      decidable_of_iff (1 ≤ banTime ∧ banTime ≤ 86400 ∧
        (i.env.first = true ∨ i.env.second = true)) (by simp only [WithRoom, hCall])

/-- The entry and the tally of one address at time `now`. -/
def Tracks (now : Nat) : Option ThrottleNode → Option Tally → Prop
  | none, none => True
  | none, some t => t.banEnd ≤ now ∧ t.windowStart + 3600 ≤ now
  | some _, none => False
  | some n, some t => n.windowStart = t.windowStart ∧ n.count = t.count ∧
      (n.bannedUntil = t.banEnd ∨ n.bannedUntil ≤ now ∧ t.banEnd ≤ now)

namespace Tracks

variable {now now' : Nat} {o o' : Option ThrottleNode} {t : Option Tally}

theorem mono (h : Tracks now o t) (hLe : now ≤ now') : Tracks now' o t := by
  cases o with
  | none =>
      cases t with
      | none => trivial
      | some t =>
          obtain ⟨hBan, hWindow⟩ := h
          exact ⟨by omega, by omega⟩
  | some n =>
      cases t with
      | none => exact h
      | some t =>
          obtain ⟨hStart, hCount, hBan⟩ := h
          exact ⟨hStart, hCount, by omega⟩

/-- Dropping a stale node is not seen by the automaton. -/
theorem fades (h : Tracks now o t) (hFades : Fades now 3600 o o') : Tracks now o' t := by
  rcases hFades with rfl | ⟨rfl, n, rfl, hStale, hWindow⟩
  · exact h
  · cases t with
    | none => exact h.elim
    | some t =>
        obtain ⟨hStart, -, hBan⟩ := h
        exact ⟨by omega, by omega⟩

theorem banned_iff (h : Tracks now o t) :
    (∃ n ∈ o, now < n.bannedUntil) ↔ Tally.Banned now t := by
  unfold Tally.Banned
  cases o with
  | none =>
      cases t with
      | none => simp
      | some t =>
          obtain ⟨hBan, -⟩ := h
          simpa using hBan
  | some n =>
      cases t with
      | none => exact h.elim
      | some t =>
          obtain ⟨-, -, hBan⟩ := h
          simp only [Option.mem_some_iff, exists_eq_left']
          omega

/-- Counting alone. On a dropped entry the automaton starts a new window, because no window
outlasts the hour. -/
theorem counted (h : Tracks now o t) (limit banTime : Nat) {window : Nat} (hWindow : 1 ≤ window)
    (hHour : window ≤ 3600) {n : ThrottleNode}
    (hn : CountedOn o now n) :
    (n.failed limit window banTime now).windowStart = (Tally.counted window now t).windowStart ∧
      (n.failed limit window banTime now).count = (Tally.counted window now t).count ∧
      (n.bannedUntil = (Tally.counted window now t).banEnd ∨
        n.bannedUntil ≤ now ∧ (Tally.counted window now t).banEnd ≤ now) := by
  rw [n.failed_windowStart, n.failed_count]
  rcases hn with rfl | ⟨rfl, hStart, hCount, hBan⟩
  · cases t with
    | none => exact h.elim
    | some t =>
        obtain ⟨hSame, hCounts, hBans⟩ := h
        by_cases hOut : n.windowStart + window ≤ now
        · rw [if_pos hOut, if_pos hOut, Tally.counted_reopened (by omega)]
          exact ⟨rfl, rfl, hBans⟩
        · rw [if_neg hOut, if_neg hOut, Tally.counted_within (by omega)]
          exact ⟨hSame, congrArg (· + 1) hCounts, hBans⟩
  · have hIn : ¬n.windowStart + window ≤ now := by omega
    rw [if_neg hIn, if_neg hIn, hCount]
    cases t with
    | none => exact ⟨hStart, rfl, .inl hBan⟩
    | some t =>
        obtain ⟨hOver, hOld⟩ := h
        rw [Tally.counted_reopened (by omega)]
        exact ⟨hStart, rfl, .inr ⟨by omega, hOver⟩⟩

/-- A failure is counted alike on both sides, and sets the same ban. -/
theorem failed (h : Tracks now o t) (limit banTime : Nat) {window : Nat} (hWindow : 1 ≤ window)
    (hHour : window ≤ 3600) {n : ThrottleNode}
    (hn : CountedOn o now n) :
    Tracks now (some (n.failed limit window banTime now))
      (some (Tally.afterFailure limit window banTime now t)) := by
  obtain ⟨hStart, hCount, hBan⟩ := h.counted limit banTime hWindow hHour hn
  refine ⟨hStart.trans (Tally.afterFailure_windowStart t).symm,
    hCount.trans (Tally.afterFailure_count t).symm, ?_⟩
  rw [n.failed_bannedUntil, Tally.afterFailure_banEnd, hCount]
  split
  · exact .inl rfl
  · exact hBan

end Tracks

variable {ops : ShmOps ThrottleNode}

/-- The zone and the tally of the address `a`. -/
def Follows (ops : ShmOps ThrottleNode) (a : Bytes) (s : ThrottleWorld) (t : Option Tally) :
    Prop :=
  s.zone.Wf ops ∧ Tracks s.clock (s.zone.entry ops a) t

/-- Calls for other addresses. -/
theorem follows_other {a : Bytes} {s : ThrottleWorld} {t : Option Tally} {i : ThrottleInput}
    (hLegal : (throttleMachine ops).legal s i) (h : Follows ops a s t) (hOther : i.ip ≠ a) :
    Follows ops a ((throttleMachine ops).step s i).2 t := by
  obtain ⟨hwf, hTracks⟩ := h
  refine ⟨throttleMachine_wf hwf, ?_⟩
  rw [throttleMachine_clock]
  rcases entry_step hwf i a with ⟨-, -, hFades⟩ | ⟨hSucc, -⟩ | ⟨_, _, _, hFail, -⟩
  · exact (hTracks.mono hLegal.1).fades hFades
  · simp [ThrottleInput.isSuccessOf, hOther] at hSucc
  · exact absurd hFail.1 hOther

/-- Calls for the address itself. -/
theorem follows_mine {s : ThrottleWorld} {t : Option Tally} {i : ThrottleInput}
    (hLegal : ((throttleMachine ops).restrict WithRoom).legal s i) (h : Follows ops i.ip s t) :
    ((throttleMachine ops).step s i).1 = (addressAutomaton.step t i).1 ∧
      Follows ops i.ip ((throttleMachine ops).step s i).2 (addressAutomaton.step t i).2 := by
  obtain ⟨hwf, hTracks⟩ := h
  obtain ⟨⟨hClock, hBounded⟩, hRoom⟩ := hLegal
  have hNow := hTracks.mono hClock
  unfold Follows
  rw [throttleMachine_clock]
  refine and_left_comm.mp ⟨throttleMachine_wf hwf, ?_⟩
  cases hCall : i.call with
  | isBanned =>
      simp only [throttleMachine, addressAutomaton, hCall, throttleIsBanned_eq]
      refine ⟨?_, hNow⟩
      have hIff := hNow.banned_iff
      simp only [ThrottleInput.ip, throttleClientIp] at hIff
      simp only [hIff]
  | record success limit window banTime =>
      simp only [ThrottleCall.Bounded, hCall] at hBounded
      simp only [WithRoom, hCall] at hRoom
      cases success with
      | true =>
          obtain ⟨sh', hRec, -, hEntry⟩ :=
            throttleRecord_success hwf i.r limit window banTime i.env
          simp only [throttleMachine, addressAutomaton, hCall, throttleRecordNotice_success,
            hRec, Option.getD_some, hEntry]
          exact ⟨trivial, by simp [ThrottleInput.ip, throttleClientIp, Tracks]⟩
      | false =>
          obtain ⟨sh', hRec, -, hEntry, -⟩ :=
            throttleRecord_failure hwf i.r limit window banTime i.env
          obtain ⟨n, hNode⟩ := exists_nodeAt_of_room ops s.zone i.ip hRoom.2.2
          have hFailed := hNow.failed limit banTime hBounded.2.1 hBounded.2.2
            (countedOn_of_nodeAt hNode)
          have hip : i.r.addr.val = i.ip := rfl
          simp only [throttleMachine, addressAutomaton, hCall, throttleRecordNotice_failure hwf,
            hRec, Option.getD_some, hip, hNode]
          rw [hip, hNode] at hEntry
          rw [hEntry, hFailed.2.1]
          exact ⟨rfl, hFailed⟩

/-- Every address is answered as by an automaton of its own, whatever the other addresses
do: evictions and hash collisions change no answer. -/
theorem throttle_answers_eq (ops : ShmOps ThrottleNode) (a : Bytes) {is : List ThrottleInput}
    (hRun : ((throttleMachine ops).restrict WithRoom).LegalRun .start is) :
    ((throttleMachine ops).answers .start is).filter (fun x => x.1.ip = a) =
      addressAutomaton.answers none (is.filter fun i => i.ip = a) := by
  rw [← Machine.answers_restrict WithRoom]
  refine Machine.filter_answers_eq (fun i => decide (i.ip = a)) (Follows ops a) ?_ ?_ hRun
    ⟨.empty, ?_⟩
  · intro s t i hLegal h hi
    obtain rfl := of_decide_eq_true hi
    exact follows_mine hLegal h
  · intro s t i hLegal h hi
    exact follows_other hLegal.1 h (of_decide_eq_false hi)
  · trivial

/-- Two addresses with one hash. The entry of the first is dropped an hour later, when the
second fails; the two failures after that are counted from one again. -/
def collidingRun : List ThrottleInput :=
  [callAt 10 addrA (.record false 3 60 300), callAt 11 addrA (.record false 3 60 300),
    callAt 4000 addrB (.record false 1 3600 5), callAt 4001 addrA .isBanned,
    callAt 4002 addrA (.record false 2 3600 300), callAt 4003 addrA (.record false 2 3600 300),
    callAt 4003 addrA .isBanned]

theorem collidingRun_answers :
    ((throttleMachine collidingShm).restrict WithRoom).LegalRun .start collidingRun ∧
      (((throttleMachine collidingShm).answers .start collidingRun).filter
        (fun x => x.1.ip = addrA.val)).map Prod.snd =
        [.notice none, .notice none, .rc .ok, .notice none, .notice (some (.triggered 2 300)),
          .rc .declined] := by
  have hRun : ((throttleMachine collidingShm).restrict WithRoom).LegalRun .start collidingRun := by
    decide +kernel
  refine ⟨hRun, ?_⟩
  rw [throttle_answers_eq collidingShm addrA.val hRun]
  decide +kernel

end PgpAuth
