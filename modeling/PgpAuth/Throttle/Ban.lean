import PgpAuth.Throttle.Calls

/-!
# How long a ban lasts

A failure that reaches its limit writes the end of the ban over the one that stands. The
locations that share the zone have ban times of their own, so a failure recorded at one
with a short ban time can cut a long ban from another (`ban_cut_short`). In a run where no
failure does that, a ban lasts to its end unless a success lifts it, and these are the
only such runs (`bansKept_iff`). Evictions and allocation failures play no part.
-/

namespace PgpAuth

open Lib

/-- The end of the ban stored for an address; 0 where there is none. -/
def ThrottleWorld.banEnd (ops : ShmOps ThrottleNode) (s : ThrottleWorld) (a : Bytes) : Nat :=
  match s.zone.entry ops a with
  | none => 0
  | some n => n.bannedUntil

/-- The count that a failure at time `now` brings a node to. -/
def ThrottleNode.countAt (n : ThrottleNode) (window now : Nat) : Nat :=
  (if n.windowStart + window ≤ now then 0 else n.count) + 1

theorem ThrottleNode.failed_countAt (n : ThrottleNode) (limit window banTime now : Nat) :
    (n.failed limit window banTime now).count = n.countAt window now :=
  n.failed_count limit window banTime now

/-- A failure that reaches its limit while a ban runs does not end it earlier. -/
def KeepsBan (ops : ShmOps ThrottleNode) (s : ThrottleWorld) (i : ThrottleInput) : Prop :=
  match i.call, s.zone.entry ops i.ip with
  | .record false limit window banTime, some n =>
      i.env.now < n.bannedUntil → limit ≤ n.countAt window i.env.now →
        n.bannedUntil ≤ i.env.now + banTime
  | _, _ => True

instance (ops : ShmOps ThrottleNode) (s : ThrottleWorld) (i : ThrottleInput) :
    Decidable (KeepsBan ops s i) :=
  match hCall : i.call, hEntry : s.zone.entry ops i.ip with
  | .isBanned, _ => isTrue (by simp only [KeepsBan, hCall])
  | .record true _ _ _, _ => isTrue (by simp only [KeepsBan, hCall])
  | .record false _ _ _, none => isTrue (by simp only [KeepsBan, hCall, hEntry])
  | .record false limit window banTime, some n =>
      decidable_of_iff (i.env.now < n.bannedUntil → limit ≤ n.countAt window i.env.now →
        n.bannedUntil ≤ i.env.now + banTime) (by simp only [KeepsBan, hCall, hEntry])

/-- Ban times as merging leaves them. -/
def BanBounded (_ : ThrottleWorld) (i : ThrottleInput) : Prop :=
  match i.call with
  | .isBanned => True
  | .record _ _ _ banTime => 1 ≤ banTime ∧ banTime ≤ 86400

instance (s : ThrottleWorld) (i : ThrottleInput) : Decidable (BanBounded s i) :=
  match hCall : i.call with
  | .isBanned => isTrue (by simp only [BanBounded, hCall])
  | .record _ _ _ banTime =>
      decidable_of_iff (1 ≤ banTime ∧ banTime ≤ 86400) (by simp only [BanBounded, hCall])

/-- Once a failure of `a` leaves a ban that ends at `B`, every query of `a` before `B` is
declined unless a success of `a` comes first; and a further failure never moves the end of
a running ban earlier. -/
def BansKept (ops : ShmOps ThrottleNode) (is : List ThrottleInput) : Prop :=
  (∀ a B before i between q after, is = before ++ i :: (between ++ q :: after) →
    i.isFailureOf a = true → ((throttleMachine ops).final .start (before ++ [i])).banEnd ops a = B →
    (∀ j ∈ between, j.isSuccessOf a = false) → q.ip = a → q.call = .isBanned → q.env.now < B →
    ((throttleMachine ops).step ((throttleMachine ops).final .start (before ++ i :: between)) q).1 =
      .rc .declined) ∧
  ∀ a before i after, is = before ++ i :: after → i.isFailureOf a = true →
    i.env.now < ((throttleMachine ops).final .start before).banEnd ops a →
    ((throttleMachine ops).final .start before).banEnd ops a ≤
      ((throttleMachine ops).final .start (before ++ [i])).banEnd ops a

variable {ops : ShmOps ThrottleNode} {s : ThrottleWorld} {i : ThrottleInput} {a : Bytes}

theorem throttleIsBanned_declined_iff :
    throttleIsBanned ops (some s.zone) i.r i.env.now = .declined ↔
      i.env.now < s.banEnd ops i.ip := by
  have hip : i.r.addr.val = i.ip := rfl
  rw [throttleIsBanned_eq, hip]
  unfold ThrottleWorld.banEnd
  cases s.zone.entry ops i.ip with
  | none => simp
  | some n => simp

/-- Where the ban of `a` runs, its entry is there. -/
theorem exists_entry_of_ban (hBan : i.env.now < s.banEnd ops a) :
    ∃ n, s.zone.entry ops a = some n ∧ s.banEnd ops a = n.bannedUntil := by
  unfold ThrottleWorld.banEnd at hBan ⊢
  cases hEntry : s.zone.entry ops a with
  | none =>
      rw [hEntry] at hBan
      exact absurd hBan (Nat.not_lt_zero _)
  | some n => exact ⟨n, rfl, rfl⟩

/-- A call that is no record for `a` leaves a running ban of `a` alone. -/
theorem banEnd_of_fades {s' : ThrottleWorld} {now : Nat} (hBan : now < s.banEnd ops a)
    (hFades : Fades now 3600 (s.zone.entry ops a) (s'.zone.entry ops a)) :
    s'.banEnd ops a = s.banEnd ops a := by
  unfold ThrottleWorld.banEnd at hBan ⊢
  rcases hFades with hSame | ⟨-, n, hn, hStale, -⟩
  · rw [hSame]
  · simp only [hn] at hBan
    omega

theorem banEnd_of_countedOn {n : ThrottleNode} {now : Nat}
    (hn : CountedOn (s.zone.entry ops a) now n) : s.banEnd ops a = n.bannedUntil := by
  unfold ThrottleWorld.banEnd
  rcases hn with hn | ⟨hNone, -, -, hZero⟩
  · rw [hn]
  · rw [hNone]
    exact hZero.symm

/-- What a failure does to the ban. -/
theorem banEnd_of_failure {s' : ThrottleWorld} {n : ThrottleNode} {limit window banTime : Nat}
    (hn : s.zone.nodeAt ops a i.env = some n)
    (hEntry : s'.zone.entry ops a =
      (s.zone.nodeAt ops a i.env).map (·.failed limit window banTime i.env.now)) :
    s'.banEnd ops a = if limit ≤ n.countAt window i.env.now then i.env.now + banTime
      else s.banEnd ops a := by
  rw [banEnd_of_countedOn (countedOn_of_nodeAt hn)]
  rw [hn, Option.map_some] at hEntry
  unfold ThrottleWorld.banEnd
  rw [hEntry]
  dsimp only
  rw [n.failed_bannedUntil, n.failed_countAt]

section Step

variable (hwf : s.zone.Wf ops)

include hwf

/-- A failure of `a` ends no running ban of `a` earlier exactly when it meets `KeepsBan`. -/
theorem banEnd_le_iff_keepsBan (hFail : i.isFailureOf a = true)
    (hBan : i.env.now < s.banEnd ops a) :
    s.banEnd ops a ≤ ((throttleMachine ops).step s i).2.banEnd ops a ↔ KeepsBan ops s i := by
  obtain ⟨n, hn, hEnd⟩ := exists_entry_of_ban hBan
  rcases entry_step hwf i a with ⟨hNot, -⟩ | ⟨-, hNot, -⟩ | ⟨limit, window, banTime, hOf, hEntry⟩
  · rw [hNot] at hFail
    cases hFail
  · rw [hNot] at hFail
    cases hFail
  · obtain ⟨rfl, hCall⟩ := hOf
    rw [banEnd_of_failure (nodeAt_of_entry hn) hEntry, hEnd]
    rw [hEnd] at hBan
    simp only [KeepsBan, hCall, hn]
    split
    · rename_i hLimit
      simp [hBan, hLimit]
    · rename_i hLimit
      simp [hLimit]

/-- A ban of `a` that runs is not cut by any call but a success of `a`. -/
theorem banEnd_step (hKeeps : KeepsBan ops s i) (hNot : i.isSuccessOf a = false)
    (hBan : i.env.now < s.banEnd ops a) :
    s.banEnd ops a ≤ ((throttleMachine ops).step s i).2.banEnd ops a := by
  rcases entry_step hwf i a with ⟨-, -, hFades⟩ | ⟨hSucc, -⟩ | ⟨limit, window, banTime, hOf, -⟩
  · exact Nat.le_of_eq (banEnd_of_fades hBan hFades).symm
  · rw [hNot] at hSucc
    cases hSucc
  · have hFail : i.isFailureOf a = true := by
      simp [ThrottleInput.isFailureOf, ThrottleCall.success?, hOf.1, hOf.2]
    exact (banEnd_le_iff_keepsBan hwf hFail hBan).mpr hKeeps

end Step

/-- Until `B` the ban of `a` ends no earlier than `B`. -/
def LastsTo (ops : ShmOps ThrottleNode) (a : Bytes) (B : Nat) (s : ThrottleWorld) : Prop :=
  s.zone.Wf ops ∧ (s.clock < B → B ≤ s.banEnd ops a)

theorem LastsTo.step {B : Nat} (h : LastsTo ops a B s) (hClock : s.clock ≤ i.env.now)
    (hKeeps : KeepsBan ops s i) (hNot : i.isSuccessOf a = false) :
    LastsTo ops a B ((throttleMachine ops).step s i).2 := by
  refine ⟨throttleMachine_wf h.1, ?_⟩
  rw [throttleMachine_clock]
  intro hNow
  have hEnd := h.2 (Nat.lt_of_le_of_lt hClock hNow)
  exact Nat.le_trans hEnd (banEnd_step h.1 hKeeps hNot (by omega))

theorem LastsTo.final {B : Nat} {is : List ThrottleInput} (h : LastsTo ops a B s)
    (hRun : ((throttleMachine ops).restrict (KeepsBan ops)).LegalRun s is)
    (hNot : ∀ j ∈ is, j.isSuccessOf a = false) :
    LastsTo ops a B ((throttleMachine ops).final s is) := by
  induction is generalizing s with
  | nil => exact h
  | cons i is ih =>
      obtain ⟨⟨hLegal, hKeeps⟩, hRest⟩ := hRun
      have hNext := h.step hLegal.1 hKeeps (hNot i List.mem_cons_self)
      exact ih hNext hRest fun j hj => hNot j (List.mem_cons_of_mem i hj)

/-- Where a failure ends no running ban earlier, it meets `KeepsBan`. -/
theorem keepsBan_of_banEnd_le (hwf : s.zone.Wf ops)
    (hLater : i.isFailureOf i.ip = true → i.env.now < s.banEnd ops i.ip →
      s.banEnd ops i.ip ≤ ((throttleMachine ops).step s i).2.banEnd ops i.ip) :
    KeepsBan ops s i := by
  by_cases hFail : i.isFailureOf i.ip = true
  · by_cases hBan : i.env.now < s.banEnd ops i.ip
    · exact (banEnd_le_iff_keepsBan hwf hFail hBan).mp (hLater hFail hBan)
    · unfold KeepsBan
      split
      · rename_i limit window banTime n hCall hn
        intro hRuns
        rw [banEnd_of_countedOn (.inl hn : CountedOn _ i.env.now _)] at hBan
        exact absurd hRuns hBan
      · trivial
  · unfold KeepsBan
    split
    · rename_i limit window banTime n hCall hn
      simp [ThrottleInput.isFailureOf, ThrottleCall.success?, hCall] at hFail
    · trivial

theorem bansKept_of_keepsBan {is : List ThrottleInput}
    (hRun : ((throttleMachine ops).restrict (KeepsBan ops)).LegalRun .start is) :
    BansKept ops is := by
  constructor
  · intro a B before i between q after hSplit hFail hEnd hNot hip hCall hBefore
    rw [hSplit, List.append_cons] at hRun
    obtain ⟨hFirst, hRest⟩ := Machine.legalRun_append.mp hRun
    rw [Machine.final_restrict] at hRest
    obtain ⟨hBetween, hq, -⟩ := Machine.legalRun_append.mp hRest
    rw [Machine.final_restrict] at hq
    have hwf := wf_final (Machine.legalRun_restrict_iff.mp hFirst).1
    have hLasts : LastsTo ops a B ((throttleMachine ops).final .start (before ++ [i])) :=
      ⟨hwf, fun _ => Nat.le_of_eq hEnd.symm⟩
    have hLater := hLasts.final hBetween hNot
    have hB := hLater.2 (Nat.lt_of_le_of_lt hq.1.1 hBefore)
    rw [List.append_cons, Machine.final_append, throttleMachine_isBanned hCall]
    rw [throttleIsBanned_declined_iff.mpr (by rw [hip]; omega)]
  · intro a before i after hSplit hFail hBan
    rw [hSplit, Machine.legalRun_append, Machine.final_restrict] at hRun
    obtain ⟨hBefore, hi, -⟩ := hRun
    have hwf := wf_final (Machine.legalRun_restrict_iff.mp hBefore).1
    rw [Machine.final_append]
    exact (banEnd_le_iff_keepsBan hwf hFail hBan).mpr hi.2

/-- Bans last to their end, successes apart, exactly in the runs where every failure meets
`KeepsBan`. -/
theorem bansKept_iff (ops : ShmOps ThrottleNode) {is : List ThrottleInput}
    (hRun : ((throttleMachine ops).restrict BanBounded).LegalRun .start is) :
    BansKept ops is ↔ ((throttleMachine ops).restrict (KeepsBan ops)).LegalRun .start is := by
  have hPlain := (Machine.legalRun_restrict_iff.mp hRun).1
  refine ⟨?_, bansKept_of_keepsBan⟩
  rintro ⟨-, hLater⟩
  refine Machine.legalRun_restrict_iff.mpr ⟨hPlain, ?_⟩
  intro before i after hSplit
  have hStep := hLater i.ip before i after hSplit
  rw [hSplit, Machine.legalRun_append] at hPlain
  rw [Machine.final_append] at hStep
  exact keepsBan_of_banEnd_le (wf_final hPlain.1) hStep

/-- A location with a ban time of 300 s bans an address at time 1; at time 2 a login of the
same address fails at a location with a ban time of 5 s. -/
def cutShortRun : List ThrottleInput :=
  [callAt 1 addrA (.record false 1 60 300), callAt 2 addrA (.record false 1 60 5),
    callAt 10 addrA .isBanned]

theorem ban_cut_short :
    ((throttleMachine collidingShm).restrict BanBounded).LegalRun .start cutShortRun ∧
      ¬BansKept collidingShm cutShortRun := by
  refine ⟨by decide +kernel, ?_⟩
  intro hKept
  have hq := hKept.1 addrA.val 301 [] (callAt 1 addrA (.record false 1 60 300))
    [callAt 2 addrA (.record false 1 60 5)] (callAt 10 addrA .isBanned) [] rfl
    (by decide +kernel) (by decide +kernel) (by decide +kernel) rfl rfl (by decide +kernel)
  revert hq
  decide +kernel

/-- The same with the longer ban time second. -/
theorem bansKept_of_longer :
    BansKept collidingShm
      [callAt 1 addrA (.record false 1 60 5), callAt 2 addrA (.record false 1 60 300),
        callAt 10 addrA .isBanned] :=
  (bansKept_iff collidingShm (by decide +kernel)).mpr (by decide +kernel)

end PgpAuth
