import PgpAuth.Throttle.Ban

/-!
# What the counter knows of the failures

The zone keeps a window start and a count, not the times of the failures. Read against the
history of calls, the count is a number of failures made since the window start and since
the last success, so no ban comes too early (`ban_has_failures`).

The other direction fails. Windows do not slide: they start at a failure and the next one
starts at the first failure after their end, which forgets the failures just before it.
A burst that straddles this point goes unpunished (`burst_missed`); `burstsBanned_iff` says
exactly which bursts are caught.
-/

namespace PgpAuth

open Lib

abbrev ThrottleHistory := List (ThrottleInput × ThrottleAnswer)

/-- Times of the failures recorded for `a` since its last success, latest first. A failure
that met a full zone is not recorded. -/
def failureTimes (a : Bytes) (past : ThrottleHistory) : List Nat :=
  ((past.takeWhile fun x => !x.1.isSuccessOf a).filter fun x =>
    x.1.isFailureOf a && x.2 != .notice (some .zoneFull)).map fun x => x.1.env.now

section FailureTimes

variable {a : Bytes} {i : ThrottleInput} (ans : ThrottleAnswer) (past : ThrottleHistory)

theorem failureTimes_other (hFail : i.isFailureOf a = false) (hSucc : i.isSuccessOf a = false) :
    failureTimes a ((i, ans) :: past) = failureTimes a past := by
  simp [failureTimes, hFail, hSucc]

theorem failureTimes_success (hSucc : i.isSuccessOf a = true) :
    failureTimes a ((i, ans) :: past) = [] := by
  simp [failureTimes, hSucc]

theorem exists_failureOf (hFail : i.isFailureOf a = true) :
    ∃ limit window banTime, i.FailureOf a limit window banTime := by
  obtain ⟨hip, hFlag⟩ := of_decide_eq_true hFail
  cases hCall : i.call with
  | isBanned =>
      rw [hCall] at hFlag
      cases hFlag
  | record success limit window banTime =>
      rw [hCall] at hFlag
      obtain rfl : success = false := Option.some.inj hFlag
      exact ⟨limit, window, banTime, hip, hCall⟩

theorem isFailureOf_of_failureOf {limit window banTime : Nat}
    (hOf : i.FailureOf a limit window banTime) :
    i.isFailureOf a = true ∧ i.isSuccessOf a = false := by
  simp [ThrottleInput.isFailureOf, ThrottleInput.isSuccessOf, ThrottleCall.success?, hOf.1, hOf.2]

theorem failureTimes_failure {limit window banTime : Nat}
    (hOf : i.FailureOf a limit window banTime) (hAns : ans ≠ .notice (some .zoneFull)) :
    failureTimes a ((i, ans) :: past) = i.env.now :: failureTimes a past := by
  obtain ⟨hFail, hSucc⟩ := isFailureOf_of_failureOf hOf
  simp [failureTimes, hFail, hSucc, hAns]

end FailureTimes

variable {ops : ShmOps ThrottleNode} {s : ThrottleWorld} {i : ThrottleInput} {a : Bytes}

/-- The answer to a failure, by the node it is counted on. -/
theorem answer_of_failure (hwf : s.zone.Wf ops) {limit window banTime : Nat}
    (hOf : i.FailureOf a limit window banTime) :
    ((throttleMachine ops).step s i).1 = .notice
      (match s.zone.nodeAt ops a i.env with
      | none => some .zoneFull
      | some n =>
          if limit ≤ n.countAt window i.env.now then
            some (.triggered (n.countAt window i.env.now) banTime)
          else none) := by
  obtain ⟨rfl, hCall⟩ := hOf
  have hip : i.r.addr.val = i.ip := rfl
  simp only [throttleMachine, hCall, throttleRecordNotice_failure hwf, hip]
  cases s.zone.nodeAt ops i.ip i.env with
  | none => rfl
  | some n =>
      dsimp only
      rw [n.failed_countAt]

/-! ## No ban too early -/

/-- The count of `a` is covered by failures made since its window start. -/
def CountCovered (ops : ShmOps ThrottleNode) (a : Bytes) (past : ThrottleHistory)
    (s : ThrottleWorld) : Prop :=
  s.zone.Wf ops ∧ ∀ n, s.zone.entry ops a = some n →
    n.windowStart ≤ s.clock ∧ n.count ≤ (failureTimes a past).countP (n.windowStart ≤ ·)

/-- Counting one more failure, where the old count was covered. -/
theorem countAt_le_countP {n : ThrottleNode} {now window clock : Nat} {ts : List Nat}
    (hClock : clock ≤ now)
    (h : n.windowStart ≤ clock ∧ n.count ≤ ts.countP (n.windowStart ≤ ·) ∨
      n.windowStart = now ∧ n.count = 0) :
    (if n.windowStart + window ≤ now then now else n.windowStart) ≤ now ∧
      n.countAt window now ≤
        (now :: ts).countP ((if n.windowStart + window ≤ now then now else n.windowStart) ≤ ·) := by
  unfold ThrottleNode.countAt
  have hStart : n.windowStart ≤ now := by omega
  split
  · exact ⟨Nat.le_refl _, by simp⟩
  · refine ⟨hStart, ?_⟩
    simp only [List.countP_cons, hStart, decide_true, if_true]
    omega

theorem CountCovered.step {past : ThrottleHistory} (hLegal : (throttleMachine ops).legal s i)
    (h : CountCovered ops a past s) :
    CountCovered ops a ((i, ((throttleMachine ops).step s i).1) :: past)
      ((throttleMachine ops).step s i).2 := by
  obtain ⟨hwf, hCount⟩ := h
  refine ⟨throttleMachine_wf hwf, ?_⟩
  intro n' hn'
  rw [throttleMachine_clock]
  rcases entry_step hwf i a with ⟨hFail, hSucc, hFades⟩ | ⟨-, -, hNone⟩ |
      ⟨limit, window, banTime, hOf, hEntry⟩
  · rw [failureTimes_other _ _ hFail hSucc]
    rcases hFades with hSame | ⟨hNone, -⟩
    · obtain ⟨hStart, hLe⟩ := hCount n' (hSame.symm.trans hn')
      exact ⟨Nat.le_trans hStart hLegal.1, hLe⟩
    · rw [hNone] at hn'
      cases hn'
  · rw [hNone] at hn'
    cases hn'
  · rw [hEntry] at hn'
    obtain ⟨n, hn, rfl⟩ := Option.map_eq_some_iff.mp hn'
    have hAns : ((throttleMachine ops).step s i).1 ≠ .notice (some .zoneFull) := by
      rw [answer_of_failure hwf hOf, hn]
      dsimp only
      split <;> simp
    rw [failureTimes_failure _ _ hOf hAns, n.failed_windowStart, n.failed_countAt]
    refine countAt_le_countP hLegal.1 ?_
    rcases countedOn_of_nodeAt hn with hOld | ⟨-, hStart, hZero, -⟩
    · exact .inl (hCount n hOld)
    · exact .inr ⟨hStart, hZero⟩

/-- A call sets or renews the ban of `a`: another end is stored after it than before, or it
logs that it wrote the one that is stored. -/
def WritesBan (ops : ShmOps ThrottleNode) (s : ThrottleWorld) (i : ThrottleInput) (a : Bytes) :
    Prop :=
  ((throttleMachine ops).step s i).2.banEnd ops a ≠ s.banEnd ops a ∨
    ∃ failures banSeconds, ((throttleMachine ops).step s i).1 =
      .notice (some (.triggered failures banSeconds))

/-- The ban is written exactly where the failure brings its node to the limit. -/
theorem writesBan_iff (hwf : s.zone.Wf ops) {limit window banTime : Nat}
    (hOf : i.FailureOf a limit window banTime) :
    WritesBan ops s i a ↔
      ∃ n, s.zone.nodeAt ops a i.env = some n ∧ limit ≤ n.countAt window i.env.now := by
  unfold WritesBan
  rw [answer_of_failure hwf hOf]
  cases hn : s.zone.nodeAt ops a i.env with
  | none =>
      have hOld : s.zone.entry ops a = none := by
        by_contra hSome
        obtain ⟨n, hEntry⟩ := Option.ne_none_iff_exists'.mp hSome
        rw [nodeAt_of_entry hEntry] at hn
        cases hn
      have hNew := entry_of_failure hwf hOf
      rw [hn, Option.map_none] at hNew
      simp [ThrottleWorld.banEnd, hOld, hNew]
  | some n =>
      rw [banEnd_of_failure hn (entry_of_failure hwf hOf)]
      by_cases hLimit : limit ≤ n.countAt window i.env.now
      · simp [hLimit]
      · simp [hLimit]

/-- A failure that sets or renews a ban is the last of at least `limit` failures of its
address, all recorded later than `window` seconds ago and after the last success. -/
theorem ban_has_failures (ops : ShmOps ThrottleNode) {is : List ThrottleInput}
    {i : ThrottleInput} {a : Bytes} {limit window banTime : Nat}
    (hRun : (throttleMachine ops).LegalRun .start (is ++ [i]))
    (hOf : i.FailureOf a limit window banTime)
    (hBan : WritesBan ops ((throttleMachine ops).final .start is) i a) :
    limit ≤ (failureTimes a ((throttleMachine ops).answers .start (is ++ [i])).reverse).countP
      (fun t => i.env.now < t + window) := by
  obtain ⟨hBefore, hLast⟩ := Machine.legalRun_append.mp hRun
  have hwf := wf_final hBefore
  have hWindow : 1 ≤ window := by
    have hBounded := hLast.1.2
    rw [hOf.2] at hBounded
    exact hBounded.2.1
  have hInv := Machine.history_invariant (CountCovered ops a) (fun _ _ _ hLegal h => h.step hLegal)
    hRun ⟨.empty, fun n hn => by cases hn⟩
  obtain ⟨-, hCount⟩ := hInv
  generalize (failureTimes a ((throttleMachine ops).answers .start (is ++ [i])).reverse) = ts at *
  rw [Machine.final_append] at hCount
  generalize (throttleMachine ops).final .start is = s at *
  obtain ⟨n, hn, hLimit⟩ := (writesBan_iff hwf hOf).mp hBan
  have hEntry := entry_of_failure hwf hOf
  rw [hn] at hEntry
  have hCovered := (hCount _ hEntry).2
  rw [n.failed_windowStart, n.failed_countAt] at hCovered
  refine Nat.le_trans hLimit (Nat.le_trans hCovered (List.countP_mono_left ?_))
  intro t _ ht
  simp only [decide_eq_true_eq] at ht ⊢
  split at ht
  · omega
  · omega

/-- The second of two failures bans; both lie in the window. -/
theorem two_failures_ban :
    2 ≤ (failureTimes addrA.val ((throttleMachine collidingShm).answers .start
      ([callAt 10 addrA (.record false 3 3600 5)] ++
        [callAt 20 addrA (.record false 2 60 300)])).reverse).countP (fun t => 20 < t + 60) :=
  ban_has_failures collidingShm (i := callAt 20 addrA (.record false 2 60 300))
    (by decide +kernel) ⟨rfl, rfl⟩ (.inl (by decide +kernel))

/-! ## Bursts -/

/-- The window a failure at time `now` is counted in. -/
def ThrottleWorld.openWindow (ops : ShmOps ThrottleNode) (s : ThrottleWorld) (a : Bytes)
    (window now : Nat) : Nat :=
  match s.zone.entry ops a with
  | none => now
  | some n => if n.windowStart + window ≤ now then now else n.windowStart

/-- All calls have the same parameters, within bounds, and every failure gets its node. -/
def Uniform (limit window banTime : Nat) (_ : ThrottleWorld) (i : ThrottleInput) : Prop :=
  match i.call with
  | .isBanned => True
  | .record _ limit' window' banTime' =>
      limit' = limit ∧ window' = window ∧ banTime' = banTime ∧ 1 ≤ banTime ∧ banTime ≤ 86400 ∧
        (i.env.first = true ∨ i.env.second = true)

instance (limit window banTime : Nat) (s : ThrottleWorld) (i : ThrottleInput) :
    Decidable (Uniform limit window banTime s i) :=
  match hCall : i.call with
  | .isBanned => isTrue (by simp only [Uniform, hCall])
  | .record _ limit' window' banTime' =>
      decidable_of_iff (limit' = limit ∧ window' = window ∧ banTime' = banTime ∧ 1 ≤ banTime ∧
        banTime ≤ 86400 ∧ (i.env.first = true ∨ i.env.second = true))
        (by simp only [Uniform, hCall])

/-- The time of the earliest of the `limit` latest failures of `a` since its last success. -/
def burstStart (ops : ShmOps ThrottleNode) (a : Bytes) (limit : Nat) (is : List ThrottleInput) :
    Option Nat :=
  (failureTimes a ((throttleMachine ops).answers .start is).reverse)[limit - 1]?

/-- Whenever the `limit` latest failures of an address lie within `window` seconds, with no
success between them, the address is banned right after the last of them. -/
def BurstsBanned (ops : ShmOps ThrottleNode) (limit window : Nat) (is : List ThrottleInput) :
    Prop :=
  ∀ a before i after, is = before ++ i :: after → i.isFailureOf a = true →
    ∀ first ∈ burstStart ops a limit (before ++ [i]), i.env.now < first + window →
      throttleIsBanned ops (some ((throttleMachine ops).final .start (before ++ [i])).zone) i.r
        i.env.now = .declined

/-- At the last failure of such a burst an earlier ban still runs, or the window in which
the failure is counted began no later than the burst. -/
def BurstsCovered (ops : ShmOps ThrottleNode) (limit window : Nat) (is : List ThrottleInput) :
    Prop :=
  ∀ a before i after, is = before ++ i :: after → i.isFailureOf a = true →
    ∀ first ∈ burstStart ops a limit (before ++ [i]), i.env.now < first + window →
      i.env.now < ((throttleMachine ops).final .start before).banEnd ops a ∨
        ((throttleMachine ops).final .start before).openWindow ops a window i.env.now ≤ first

/-- An address with a failure is the one the failing call is about. -/
theorem burstsCovered_iff {ops : ShmOps ThrottleNode} {limit window : Nat}
    {is : List ThrottleInput} :
    BurstsCovered ops limit window is ↔
      ∀ k, (h : k < is.length) → is[k].isFailureOf is[k].ip = true →
        ∀ first ∈ burstStart ops is[k].ip limit (is.take k ++ [is[k]]),
          is[k].env.now < first + window →
            is[k].env.now <
                ((throttleMachine ops).final .start (is.take k)).banEnd ops is[k].ip ∨
              ((throttleMachine ops).final .start (is.take k)).openWindow ops is[k].ip window
                is[k].env.now ≤ first := by
  rw [← Machine.forall_split_iff (P := fun before i _ => i.isFailureOf i.ip = true →
    ∀ first ∈ burstStart ops i.ip limit (before ++ [i]), i.env.now < first + window →
      i.env.now < ((throttleMachine ops).final .start before).banEnd ops i.ip ∨
        ((throttleMachine ops).final .start before).openWindow ops i.ip window i.env.now ≤ first)]
  constructor
  · intro h before i after hSplit
    exact h i.ip before i after hSplit
  · intro h a before i after hSplit hFail
    obtain ⟨rfl, -⟩ := of_decide_eq_true hFail
    exact h before i after hSplit hFail

instance (ops : ShmOps ThrottleNode) (limit window : Nat) (is : List ThrottleInput) :
    Decidable (BurstsCovered ops limit window is) :=
  decidable_of_iff _ burstsCovered_iff.symm

/-- With one window for all, the count of `a` is exactly the number of failures since the
window start. An entry that was dropped leaves only failures of earlier seconds. -/
structure CountExact (ops : ShmOps ThrottleNode) (a : Bytes) (window : Nat)
    (past : ThrottleHistory) (s : ThrottleWorld) : Prop where
  wf : s.zone.Wf ops
  sorted : (failureTimes a past).Pairwise (· ≥ ·)
  le_clock : ∀ t ∈ failureTimes a past, t ≤ s.clock
  dropped : s.zone.entry ops a = none → ∀ t ∈ failureTimes a past, t < s.clock
  counted : ∀ n, s.zone.entry ops a = some n → n.windowStart ≤ s.clock ∧
    n.count = (failureTimes a past).countP (n.windowStart ≤ ·) ∧
    ∀ t ∈ failureTimes a past, t < n.windowStart + window

/-- Among times in descending order, the one at index `k` is no earlier than `w` exactly
when more than `k` of them are. -/
theorem lt_countP_iff {ts : List Nat} (hSorted : ts.Pairwise (· ≥ ·)) {k t w : Nat}
    (ht : ts[k]? = some t) : k < ts.countP (w ≤ ·) ↔ w ≤ t := by
  induction ts generalizing k with
  | nil => simp at ht
  | cons y ts ih =>
      obtain ⟨hHead, hTail⟩ := List.pairwise_cons.mp hSorted
      rw [List.countP_cons]
      by_cases hy : w ≤ y
      · simp only [hy, decide_true, if_true]
        cases k with
        | zero =>
            obtain rfl : y = t := by simpa using ht
            exact ⟨fun _ => hy, fun _ => Nat.succ_pos _⟩
        | succ k =>
            rw [← ih hTail (by simpa using ht)]
            omega
      · have hNone : ts.countP (w ≤ ·) = 0 := by
          rw [List.countP_eq_zero]
          intro x hx
          have := hHead x hx
          simp only [decide_eq_true_eq]
          omega
        have hle : t ≤ y := by
          rcases List.mem_cons.mp (List.mem_of_getElem? ht) with rfl | hMem
          · exact Nat.le_refl _
          · exact hHead t hMem
        simp only [hNone, hy, decide_false]
        constructor
        · intro hk
          simp at hk
        · intro hw
          omega

/-- A failure that opens a window is the only one counted in it. -/
theorem counted_fresh {window now : Nat} {ts : List Nat} (hWindow : 1 ≤ window)
    (hBefore : ∀ t ∈ ts, t < now) :
    now ≤ now ∧ 0 + 1 = (now :: ts).countP (now ≤ ·) ∧ ∀ t ∈ now :: ts, t < now + window := by
  have hNone : ts.countP (now ≤ ·) = 0 := by
    rw [List.countP_eq_zero]
    intro t ht
    have := hBefore t ht
    simp only [decide_eq_true_eq]
    omega
  refine ⟨Nat.le_refl _, ?_, ?_⟩
  · rw [List.countP_cons, hNone]
    simp
  · intro t ht
    rcases List.mem_cons.mp ht with rfl | ht
    · omega
    · have := hBefore t ht
      omega

/-- A failure in an open window is counted on top of those in it. -/
theorem counted_joined {window now start count : Nat} {ts : List Nat} (hNow : start ≤ now)
    (hOpen : now < start + window) (hCount : count = ts.countP (start ≤ ·))
    (hBound : ∀ t ∈ ts, t < start + window) :
    start ≤ now ∧ count + 1 = (now :: ts).countP (start ≤ ·) ∧
      ∀ t ∈ now :: ts, t < start + window := by
  refine ⟨hNow, ?_, ?_⟩
  · rw [List.countP_cons, ← hCount]
    simp [hNow]
  · intro t ht
    rcases List.mem_cons.mp ht with rfl | ht
    · exact hOpen
    · exact hBound t ht

/-- The node of a failure once it is counted, against the failure times `ts` before it. -/
theorem failed_exact {n : ThrottleNode} (limit banTime : Nat) {window now clock : Nat}
    {ts : List Nat} (hClock : clock ≤ now) (hWindow : 1 ≤ window)
    (h : (n.windowStart ≤ clock ∧ n.count = ts.countP (n.windowStart ≤ ·) ∧
        ∀ t ∈ ts, t < n.windowStart + window) ∨
      (n.windowStart = now ∧ n.count = 0 ∧ ∀ t ∈ ts, t < clock)) :
    (n.failed limit window banTime now).windowStart ≤ now ∧
      (n.failed limit window banTime now).count =
        (now :: ts).countP ((n.failed limit window banTime now).windowStart ≤ ·) ∧
      ∀ t ∈ now :: ts, t < (n.failed limit window banTime now).windowStart + window := by
  rw [n.failed_windowStart, n.failed_count]
  split
  · -- the window of the node is over
    rename_i hOver
    apply counted_fresh hWindow
    intro t ht
    rcases h with ⟨-, -, hIn⟩ | ⟨hStart, -⟩
    · have := hIn t ht
      omega
    · omega
  · rename_i hIn
    rcases h with ⟨hStart, hCount, hBound⟩ | ⟨hStart, hCount, hBefore⟩
    · exact counted_joined (by omega) (by omega) hCount hBound
    · -- a node made for this failure
      rw [hStart, hCount]
      apply counted_fresh hWindow
      intro t ht
      have := hBefore t ht
      omega

section CountExact

variable {window : Nat} {past : ThrottleHistory} (h : CountExact ops a window past s)

include h

/-- Calls that do not record for `a` leave its failures alone. They may drop its entry only
once the window is over. -/
theorem CountExact.step_other (hClock : s.clock ≤ i.env.now) (hHour : window ≤ 3600)
    (hFail : i.isFailureOf a = false) (hSucc : i.isSuccessOf a = false)
    (hFades : Fades i.env.now 3600 (s.zone.entry ops a)
      (((throttleMachine ops).step s i).2.zone.entry ops a)) :
    CountExact ops a window ((i, ((throttleMachine ops).step s i).1) :: past)
      ((throttleMachine ops).step s i).2 := by
  have hSame : failureTimes a ((i, ((throttleMachine ops).step s i).1) :: past) =
      failureTimes a past := failureTimes_other _ _ hFail hSucc
  refine ⟨throttleMachine_wf h.wf, ?_, ?_, ?_, ?_⟩
  · rw [hSame]
    exact h.sorted
  · rw [hSame, throttleMachine_clock]
    intro t ht
    exact Nat.le_trans (h.le_clock t ht) hClock
  · rw [hSame, throttleMachine_clock]
    intro hGone t ht
    rcases hFades with hKept | ⟨-, n, hn, -, hStale⟩
    · exact Nat.lt_of_lt_of_le (h.dropped (hKept.symm.trans hGone) t ht) hClock
    · have := (h.counted n hn).2.2 t ht
      omega
  · rw [hSame, throttleMachine_clock]
    intro n hn
    rcases hFades with hKept | ⟨hGone, -⟩
    · obtain ⟨hStart, hRest⟩ := h.counted n (hKept.symm.trans hn)
      exact ⟨Nat.le_trans hStart hClock, hRest⟩
    · rw [hGone] at hn
      cases hn

theorem CountExact.step_success (hSucc : i.isSuccessOf a = true)
    (hNone : ((throttleMachine ops).step s i).2.zone.entry ops a = none) :
    CountExact ops a window ((i, ((throttleMachine ops).step s i).1) :: past)
      ((throttleMachine ops).step s i).2 := by
  have hNil : failureTimes a ((i, ((throttleMachine ops).step s i).1) :: past) = [] :=
    failureTimes_success _ _ hSucc
  refine ⟨throttleMachine_wf h.wf, ?_, ?_, ?_, ?_⟩
  · rw [hNil]
    exact .nil
  · simp [hNil]
  · simp [hNil]
  · intro n hn
    rw [hNone] at hn
    cases hn

theorem CountExact.step_failure {limit banTime : Nat} (hClock : s.clock ≤ i.env.now)
    (hWindow : 1 ≤ window) (hRoom : i.env.first = true ∨ i.env.second = true)
    (hOf : i.FailureOf a limit window banTime)
    (hEntry : ((throttleMachine ops).step s i).2.zone.entry ops a =
      (s.zone.nodeAt ops a i.env).map (·.failed limit window banTime i.env.now)) :
    CountExact ops a window ((i, ((throttleMachine ops).step s i).1) :: past)
      ((throttleMachine ops).step s i).2 := by
  obtain ⟨n, hn⟩ := exists_nodeAt_of_room ops s.zone a hRoom
  rw [hn, Option.map_some] at hEntry
  have hAns : ((throttleMachine ops).step s i).1 ≠ .notice (some .zoneFull) := by
    rw [answer_of_failure h.wf hOf, hn]
    dsimp only
    split <;> simp
  have hTimes : failureTimes a ((i, ((throttleMachine ops).step s i).1) :: past) =
      i.env.now :: failureTimes a past := failureTimes_failure _ _ hOf hAns
  have hExact := failed_exact limit banTime hClock hWindow
    ((countedOn_of_nodeAt hn).imp (fun hOld => h.counted n hOld)
      fun ⟨hGone, hStart, hCount, _⟩ => ⟨hStart, hCount, h.dropped hGone⟩)
  have hEarlier : ∀ t ∈ failureTimes a past, t ≤ i.env.now := by
    intro t ht
    exact Nat.le_trans (h.le_clock t ht) hClock
  refine ⟨throttleMachine_wf h.wf, ?_, ?_, ?_, ?_⟩
  · rw [hTimes]
    exact List.pairwise_cons.mpr ⟨hEarlier, h.sorted⟩
  · rw [hTimes, throttleMachine_clock]
    intro t ht
    rcases List.mem_cons.mp ht with rfl | ht
    · exact Nat.le_refl _
    · exact hEarlier t ht
  · intro hGone
    rw [hEntry] at hGone
    cases hGone
  · rw [hTimes, throttleMachine_clock]
    intro n' hn'
    rw [hEntry] at hn'
    cases hn'
    exact hExact

end CountExact

theorem CountExact.step {limit window banTime : Nat} {past : ThrottleHistory}
    (hLegal : ((throttleMachine ops).restrict (Uniform limit window banTime)).legal s i)
    (hHour : window ≤ 3600) (h : CountExact ops a window past s) :
    CountExact ops a window ((i, ((throttleMachine ops).step s i).1) :: past)
      ((throttleMachine ops).step s i).2 := by
  obtain ⟨⟨hClock, hBounded⟩, hUniform⟩ := hLegal
  rcases entry_step h.wf i a with ⟨hFail, hSucc, hFades⟩ | ⟨hSucc, -, hNone⟩ |
      ⟨limit', window', banTime', hOf, hEntry⟩
  · exact h.step_other hClock hHour hFail hSucc hFades
  · exact h.step_success hSucc hNone
  · simp only [Uniform, hOf.2] at hUniform
    obtain ⟨rfl, rfl, rfl, -, -, hRoom⟩ := hUniform
    rw [hOf.2] at hBounded
    exact h.step_failure hClock hBounded.2.1 hRoom hOf hEntry

theorem openWindow_eq {n : ThrottleNode} {window : Nat} (limit banTime : Nat) {now : Nat}
    (hn : CountedOn (s.zone.entry ops a) now n) :
    s.openWindow ops a window now = (n.failed limit window banTime now).windowStart := by
  rw [n.failed_windowStart]
  unfold ThrottleWorld.openWindow
  rcases hn with hn | ⟨hNone, hStart, -⟩
  · rw [hn]
  · simp only [hNone, hStart, ite_self]

/-- At the last failure of a burst: banned exactly where the burst is covered. -/
theorem declined_iff_covered {limit window banTime first : Nat} {is : List ThrottleInput}
    (hRun : ((throttleMachine ops).restrict (Uniform limit window banTime)).LegalRun .start
      (is ++ [i]))
    (hFail : i.isFailureOf a = true) (hFirst : first ∈ burstStart ops a limit (is ++ [i])) :
    throttleIsBanned ops (some ((throttleMachine ops).final .start (is ++ [i])).zone) i.r
        i.env.now = .declined ↔
      i.env.now < ((throttleMachine ops).final .start is).banEnd ops a ∨
        ((throttleMachine ops).final .start is).openWindow ops a window i.env.now ≤ first := by
  obtain ⟨limit', window', banTime', hOf⟩ := exists_failureOf hFail
  obtain ⟨hBefore, hLast⟩ := Machine.legalRun_append.mp hRun
  rw [Machine.final_restrict] at hLast
  obtain ⟨⟨hClock, hBounded⟩, hUniform⟩ := hLast.1
  simp only [Uniform, hOf.2] at hUniform
  obtain ⟨rfl, rfl, rfl, hBan, -, hRoom⟩ := hUniform
  rw [hOf.2] at hBounded
  have hExact := Machine.history_invariant
    (m := (throttleMachine ops).restrict (Uniform limit' window' banTime'))
    (CountExact ops a window') (fun _ _ _ hLegal h => h.step hLegal hBounded.2.2) hRun
    ⟨.empty, .nil, by simp [failureTimes], by simp [failureTimes], fun n hn => by cases hn⟩
  rw [Machine.answers_restrict, Machine.final_restrict] at hExact
  have hwf := wf_final (Machine.legalRun_restrict_iff.mp hBefore).1
  unfold burstStart at hFirst
  rw [Machine.final_append] at hExact ⊢
  generalize (throttleMachine ops).final .start is = s at *
  obtain ⟨n, hn⟩ := exists_nodeAt_of_room ops s.zone a hRoom
  have hEntry := entry_of_failure hwf hOf
  have hCount : limit' ≤ n.countAt window' i.env.now ↔
      s.openWindow ops a window' i.env.now ≤ first := by
    obtain ⟨-, hEq, -⟩ := hExact.counted (n.failed limit' window' banTime' i.env.now)
      (by rw [Machine.final, Machine.final, hEntry, hn, Option.map_some])
    rw [openWindow_eq limit' banTime' (countedOn_of_nodeAt hn), ← lt_countP_iff hExact.sorted hFirst,
      ← hEq, n.failed_countAt]
    have hPos : 0 < limit' := hBounded.1
    omega
  rw [throttleIsBanned_declined_iff, hOf.1, Machine.final, Machine.final,
    banEnd_of_failure hn hEntry, ← hCount]
  split
  · rename_i hLimit
    exact ⟨fun _ => .inr hLimit, fun _ => by omega⟩
  · rename_i hLimit
    exact ⟨.inl, fun h => h.resolve_right hLimit⟩

/-- Every burst is banned exactly in the runs where every burst is covered. -/
theorem burstsBanned_iff (ops : ShmOps ThrottleNode) {limit window banTime : Nat}
    {is : List ThrottleInput}
    (hRun : ((throttleMachine ops).restrict (Uniform limit window banTime)).LegalRun .start is) :
    BurstsBanned ops limit window is ↔ BurstsCovered ops limit window is := by
  have hIff : ∀ a before i after, is = before ++ i :: after → i.isFailureOf a = true →
      ∀ first ∈ burstStart ops a limit (before ++ [i]),
        throttleIsBanned ops (some ((throttleMachine ops).final .start (before ++ [i])).zone) i.r
            i.env.now = .declined ↔
          i.env.now < ((throttleMachine ops).final .start before).banEnd ops a ∨
            ((throttleMachine ops).final .start before).openWindow ops a window i.env.now ≤
              first := by
    intro a before i after hSplit hFail first hFirst
    rw [hSplit, List.append_cons] at hRun
    exact declined_iff_covered (Machine.legalRun_append.mp hRun).1 hFail hFirst
  constructor
  · intro h a before i after hSplit hFail first hFirst hIn
    exact (hIff a before i after hSplit hFail first hFirst).mp
      (h a before i after hSplit hFail first hFirst hIn)
  · intro h a before i after hSplit hFail first hFirst hIn
    exact (hIff a before i after hSplit hFail first hFirst).mpr
      (h a before i after hSplit hFail first hFirst hIn)

/-- Three failures within 13 seconds at a limit of three a minute; a window that an older
failure opened ends between the first and the second of them. -/
def straddlingRun : List ThrottleInput :=
  [callAt 100 addrA (.record false 3 60 300), callAt 150 addrA (.record false 3 60 300),
    callAt 161 addrA (.record false 3 60 300), callAt 162 addrA (.record false 3 60 300)]

theorem burst_missed :
    ((throttleMachine collidingShm).restrict (Uniform 3 60 300)).LegalRun .start straddlingRun ∧
      ¬BurstsBanned collidingShm 3 60 straddlingRun := by
  refine ⟨by decide +kernel, ?_⟩
  intro hBanned
  have hLast := hBanned addrA.val
    [callAt 100 addrA (.record false 3 60 300), callAt 150 addrA (.record false 3 60 300),
      callAt 161 addrA (.record false 3 60 300)] (callAt 162 addrA (.record false 3 60 300)) [] rfl
    (by decide +kernel) 150 (by decide +kernel) (by decide +kernel)
  revert hLast
  decide +kernel

/-- Three failures in one window. -/
def oneWindowRun : List ThrottleInput :=
  [callAt 100 addrA (.record false 3 60 300), callAt 110 addrA (.record false 3 60 300),
    callAt 120 addrA (.record false 3 60 300)]

theorem oneWindowRun_banned :
    ((throttleMachine collidingShm).restrict (Uniform 3 60 300)).LegalRun .start oneWindowRun ∧
      BurstsBanned collidingShm 3 60 oneWindowRun := by
  have hRun : ((throttleMachine collidingShm).restrict (Uniform 3 60 300)).LegalRun .start
      oneWindowRun := by
    decide +kernel
  exact ⟨hRun, (burstsBanned_iff collidingShm hRun).mpr (by decide +kernel)⟩

end PgpAuth
