import PgpAuth.Lib.Run
import PgpAuth.Nonce.Memory

/-!
# One step of the `memory` nonce store

`nonceMachine` takes calls of `nonceMemory` in any order, with any expiries, clocks and
allocation outcomes. `nonceMemory_storeStep` says what a call does in any state it can
reach: which nodes stay, when it declines and what it adds.

With a zone for a fixed number of nodes the outcomes of the allocations follow from the
number of nodes held (`WithCapacity`). The log line of a denied login says that nothing
expired could be reclaimed, but the eviction stops at a tail node that has not expired, and
nodes of a shorter challenge timeout may have expired in front of it (`expired_not_reclaimed`).
`deniedOnlyWhenLive_iff` is the exact condition.
-/

namespace PgpAuth

open Lib

structure NonceCall where
  vr : VerifyResult
  nonce : Bytes
  exp : Int
  now : Nat
  slab : Slab
  deriving DecidableEq, Repr

def NonceCall.run (ops : ShmOps NonceNode) (c : NonceCall) (sh : NonceSh) :
    Rc × VerifyResult × Option NonceSh :=
  nonceMemory ops c.vr (some sh) c.nonce c.exp c.now c.slab

def nonceMachine (ops : ShmOps NonceNode) : Machine NonceSh NonceCall Rc where
  step sh c := ((c.run ops sh).1, (c.run ops sh).2.2.getD sh)
  legal _ _ := True

/-- The queue without the expired nodes at its end, at most `max` of them. -/
def dropExpired (now max : Nat) (queue : List NonceNode) : List NonceNode :=
  ((queue.reverse.take max).dropWhile (fun n => decide (n.expire ≤ (now : Int))) ++
    queue.reverse.drop max).reverse

theorem nonceEvictExpired_queue (ops : ShmOps NonceNode) (now max : Nat) (sh : NonceSh) :
    (nonceEvictExpired ops now max sh).queue = dropExpired now max sh.queue := by
  induction max generalizing sh with
  | zero => simp [nonceEvictExpired, dropExpired]
  | succ max ih =>
      rw [nonceEvictExpired]
      cases hLast : sh.queue.getLast? with
      | none =>
          rw [List.getLast?_eq_none_iff] at hLast
          simp [dropExpired, hLast]
      | some n =>
          obtain ⟨q, hq⟩ := List.getLast?_eq_some_iff.mp hLast
          dsimp only
          split
          · rename_i hLive
            have hNot : ¬n.expire ≤ (now : Int) := by omega
            simp [dropExpired, hq, hNot]
          · rename_i hOver
            have hExpired : n.expire ≤ (now : Int) := by omega
            rw [ih]
            simp [dropExpired, hq, hExpired]

/-- Eviction leaves a queue alone whose last node has not expired. -/
theorem nonceEvictExpired_of_live (ops : ShmOps NonceNode) {now : Nat} {sh : NonceSh}
    {n : NonceNode} (hLast : sh.queue.getLast? = some n) (hLive : (now : Int) < n.expire)
    (max : Nat) : nonceEvictExpired ops now max sh = sh := by
  cases max with
  | zero => rfl
  | succ max =>
      rw [nonceEvictExpired, hLast]
      exact if_pos hLive

variable {ops : ShmOps NonceNode} {sh : NonceSh} {c : NonceCall}

/-! ## The step -/

/-- What holds of every reachable store. -/
structure NonceSh.Sound (ops : ShmOps NonceNode) (sh : NonceSh) : Prop where
  wf : sh.Wf ops
  short : ∀ n ∈ sh.queue, n.data.length ≤ 65535

/-- A call reaches the zone, unless the nonce is too long for it. -/
theorem NonceCall.run_cases (ops : ShmOps NonceNode) (c : NonceCall) (sh : NonceSh) :
    (c.nonce.length ≤ 65535 ∧
      (c.run ops sh).1 = (nonceMemoryLocked ops sh c.nonce c.exp c.now c.slab).1 ∧
      (c.run ops sh).2.2 = some (nonceMemoryLocked ops sh c.nonce c.exp c.now c.slab).2) ∨
    (65535 < c.nonce.length ∧ (c.run ops sh).1 = .error ∧ (c.run ops sh).2.2 = some sh) := by
  unfold NonceCall.run nonceMemory
  dsimp only
  split
  · rename_i hLong
    exact .inr ⟨hLong, rfl, rfl⟩
  · rename_i hShort
    exact .inl ⟨by omega, rfl, rfl⟩

theorem nonceMemoryLocked_declined_iff (h : sh.Wf ops) (nonce : Bytes) (exp : Int) (now : Nat)
    (slab : Slab) :
    (nonceMemoryLocked ops sh nonce exp now slab).1 = .declined ↔
      ∃ n ∈ dropExpired now 8 sh.queue, n.data = nonce := by
  have hwf := (nonceEvictExpired_spec now 8 h).1
  rw [← nonceEvictExpired_queue ops, ← hwf.lookup_isSome]
  unfold nonceMemoryLocked
  dsimp only
  split
  · rename_i hFound
    simp [hFound]
  · rename_i hMissing
    simp only [hMissing]
    split
    · simp
    · split <;> simp

/-- Everything a call does to the store. -/
structure StoreStep (ops : ShmOps NonceNode) (c : NonceCall) (sh sh' : NonceSh) (rc : Rc) :
    Prop where
  /-- Tree and queue hold the same nodes, before and after, and no nonce twice. -/
  coupled : sh.rbtree.toList.Perm sh.queue ∧ sh'.rbtree.toList.Perm sh'.queue
  distinct : (sh.queue.map NonceNode.data).Nodup ∧ (sh'.queue.map NonceNode.data).Nodup
  kept : ∀ n ∈ sh.queue, (c.now : Int) < n.expire → n ∈ sh'.queue
  code : rc = .ok ∨ rc = .declined ∨ rc = .error
  declined : rc = .declined ↔ ∃ n ∈ dropExpired c.now 8 sh.queue, n.data = c.nonce
  /-- Apart from the new node the queue holds what it held, less a tail. -/
  added : rc = .ok → ∃ rest, rest <+: sh.queue ∧
    sh'.queue = ⟨ops.crc32 c.nonce, c.exp, c.nonce⟩ :: rest
  nothing : rc ≠ .ok → sh'.queue <+: sh.queue

theorem mem_of_mem_dropExpired {now max : Nat} {queue : List NonceNode} {n : NonceNode}
    (hn : n ∈ dropExpired now max queue) : n ∈ queue := by
  unfold dropExpired at hn
  rw [List.mem_reverse, List.mem_append] at hn
  rcases hn with hn | hn
  · exact List.mem_reverse.mp (List.mem_of_mem_take ((List.dropWhile_sublist _).mem hn))
  · exact List.mem_reverse.mp (List.mem_of_mem_drop hn)

theorem storeStep_of_sound (h : sh.Sound ops) (c : NonceCall) :
    ∃ sh', (c.run ops sh).2.2 = some sh' ∧ sh'.Sound ops ∧
      StoreStep ops c sh sh' (c.run ops sh).1 := by
  rcases c.run_cases ops sh with ⟨hShort, hrc, hsh⟩ | ⟨hLong, hrc, hsh⟩
  · rw [hrc, hsh]
    have hDeclined := nonceMemoryLocked_declined_iff h.wf c.nonce c.exp c.now c.slab
    obtain ⟨⟨rc, sh'⟩, hRun⟩ : ∃ out, nonceMemoryLocked ops sh c.nonce c.exp c.now c.slab = out :=
      ⟨_, rfl⟩
    rw [hRun] at hDeclined ⊢
    obtain ⟨hwf, kept, gone, hq, hgone, hcase⟩ :=
      nonceMemoryLocked_cases h.wf c.nonce c.exp c.now c.slab hRun
    have hPrefix : kept <+: sh.queue := ⟨gone, hq.symm⟩
    have hLive : ∀ n ∈ sh.queue, (c.now : Int) < n.expire → n ∈ sh'.queue :=
      fun n hn hlive => mem_queue_of_live h.wf hRun hn hlive
    refine ⟨sh', rfl, ⟨hwf, ?_⟩, ⟨h.wf.perm, hwf.perm⟩, ⟨h.wf.nodup, hwf.nodup⟩, hLive, ?_,
      hDeclined, ?_, ?_⟩
    · intro n hn
      rcases hcase with ⟨-, hq', -⟩ | ⟨-, hq', -⟩ | ⟨-, hq', -⟩
      · exact h.short n (hPrefix.subset (hq' ▸ hn))
      · rw [hq'] at hn
        rcases List.mem_cons.mp hn with rfl | hn
        · exact hShort
        · exact h.short n (hPrefix.subset hn)
      · exact h.short n (hPrefix.subset (hq' ▸ hn))
    · rcases hcase with ⟨hrc, -⟩ | ⟨hrc, -⟩ | ⟨hrc, -⟩ <;> simp [hrc]
    · intro hOk
      rcases hcase with ⟨hrc, -⟩ | ⟨-, hq', -⟩ | ⟨hrc, -⟩
      · cases hOk.symm.trans hrc
      · exact ⟨kept, hPrefix, hq'⟩
      · cases hOk.symm.trans hrc
    · intro hNot
      rcases hcase with ⟨-, hq', -⟩ | ⟨hrc, -⟩ | ⟨-, hq', -⟩
      · exact hq' ▸ hPrefix
      · exact absurd hrc hNot
      · exact hq' ▸ hPrefix
  · rw [hrc, hsh]
    refine ⟨sh, rfl, h, ⟨h.wf.perm, h.wf.perm⟩, ⟨h.wf.nodup, h.wf.nodup⟩, fun n hn _ => hn,
      .inr (.inr rfl), ?_, by simp, fun _ => List.prefix_rfl⟩
    -- no stored nonce is as long as this one
    constructor
    · intro hAbs
      cases hAbs
    · rintro ⟨n, hn, hd⟩
      have := h.short n (mem_of_mem_dropExpired hn)
      rw [hd] at this
      omega

theorem sound_final (ops : ShmOps NonceNode) (cs : List NonceCall) :
    ((nonceMachine ops).final .empty cs).Sound ops := by
  refine @Machine.final_invariant _ _ _ (nonceMachine ops) (NonceSh.Sound ops) ?_ _ _
    (Machine.legalRun_of_forall (fun _ _ => trivial) _ cs) ⟨.empty, ?_⟩
  · intro sh c _ h
    obtain ⟨sh', hsh, hSound, -⟩ := storeStep_of_sound h c
    simpa [nonceMachine, hsh] using hSound
  · simp [NonceSh.empty]

/-- Every call in every reachable state of the store. -/
theorem nonceMemory_storeStep (ops : ShmOps NonceNode) (cs : List NonceCall) (c : NonceCall) :
    ∃ sh', (c.run ops ((nonceMachine ops).final .empty cs)).2.2 = some sh' ∧
      StoreStep ops c ((nonceMachine ops).final .empty cs) sh'
        (c.run ops ((nonceMachine ops).final .empty cs)).1 := by
  obtain ⟨sh', hsh, -, hStep⟩ := storeStep_of_sound (sound_final ops cs) c
  exact ⟨sh', hsh, hStep⟩

/-! ## A zone for `capacity` nodes -/

/-- The outcomes of the two allocations of a call, by the number of nodes held then. -/
def slabOf (ops : ShmOps NonceNode) (capacity : Nat) (sh : NonceSh) (now : Nat) : Slab where
  first := decide ((nonceEvictExpired ops now 8 sh).queue.length < capacity)
  second := decide ((nonceEvictExpired ops now 512 (nonceEvictExpired ops now 8 sh)).queue.length <
    capacity)

def WithCapacity (ops : ShmOps NonceNode) (capacity : Nat) (sh : NonceSh) (c : NonceCall) : Prop :=
  c.nonce.length ≤ 65535 ∧ c.slab = slabOf ops capacity sh c.now

instance (ops : ShmOps NonceNode) (capacity : Nat) (sh : NonceSh) (c : NonceCall) :
    Decidable (WithCapacity ops capacity sh c) := inferInstanceAs (Decidable (_ ∧ _))

instance (ops : ShmOps NonceNode) (sh : NonceSh) (c : NonceCall) :
    Decidable ((nonceMachine ops).legal sh c) := inferInstanceAs (Decidable True)

/-- A call that fails for want of memory leaves no expired node in the store. -/
def DeniedOnlyWhenLive (ops : ShmOps NonceNode) (sh : NonceSh) (c : NonceCall) : Prop :=
  (c.run ops sh).1 = .error →
    ∀ n ∈ ((nonceMachine ops).step sh c).2.queue, (c.now : Int) < n.expire

/-- The zone is full without the nonce, and its oldest node has not expired, but another
has. -/
def ExpiredBehindLive (capacity : Nat) (sh : NonceSh) (c : NonceCall) : Prop :=
  sh.queue.length = capacity ∧ (∀ n ∈ sh.queue, n.data ≠ c.nonce) ∧
    (∃ n ∈ sh.queue.getLast?, (c.now : Int) < n.expire) ∧ ∃ n ∈ sh.queue, n.expire ≤ c.now

theorem length_nonceEvictExpired_le (ops : ShmOps NonceNode) (now max : Nat) (sh : NonceSh) :
    (nonceEvictExpired ops now max sh).queue.length ≤ sh.queue.length := by
  induction max generalizing sh with
  | zero => exact Nat.le_refl _
  | succ max ih =>
      rw [nonceEvictExpired]
      split
      · exact Nat.le_refl _
      · split
        · exact Nat.le_refl _
        · refine Nat.le_trans (ih _) ?_
          simp

/-- An eviction pass that frees nothing met a node at the tail that has not expired. -/
theorem live_of_length_nonceEvictExpired {now max : Nat} {n : NonceNode}
    (hLast : sh.queue.getLast? = some n)
    (hLen : sh.queue.length ≤ (nonceEvictExpired ops now (max + 1) sh).queue.length) :
    (now : Int) < n.expire := by
  by_contra hOver
  rw [nonceEvictExpired, hLast] at hLen
  dsimp only at hLen
  rw [if_neg hOver] at hLen
  have hLe := length_nonceEvictExpired_le ops now max
    ⟨ops.rbtree.delete sh.rbtree n, sh.queue.dropLast⟩
  have hPos : 0 < sh.queue.length := by
    rw [List.length_pos_iff]
    rintro hNil
    simp [hNil] at hLast
  simp only [List.length_dropLast] at hLe
  omega

theorem length_step_le {capacity : Nat} (hCap : WithCapacity ops capacity sh c)
    (hLen : sh.queue.length ≤ capacity) :
    ((nonceMachine ops).step sh c).2.queue.length ≤ capacity := by
  obtain ⟨hShort, hSlab⟩ := hCap
  rcases c.run_cases ops sh with ⟨-, -, hsh⟩ | ⟨hLong, -⟩
  · simp only [nonceMachine, hsh, Option.getD_some]
    have h8 := length_nonceEvictExpired_le ops c.now 8 sh
    have h512 := length_nonceEvictExpired_le ops c.now 512 (nonceEvictExpired ops c.now 8 sh)
    unfold nonceMemoryLocked
    rw [hSlab, slabOf]
    dsimp only
    split
    · exact Nat.le_trans h8 hLen
    · split
      · rename_i hRoom
        have := of_decide_eq_true hRoom
        simp only [nonceAdd, List.length_cons]
        omega
      · split
        · rename_i hRoom
          have := of_decide_eq_true hRoom
          simp only [nonceAdd, List.length_cons]
          omega
        · exact Nat.le_trans h512 (Nat.le_trans h8 hLen)
  · omega

/-- A call that fails for want of memory evicted nothing. -/
theorem unchanged_of_error {capacity : Nat} (h : sh.Wf ops) (hCap : WithCapacity ops capacity sh c)
    (hLen : sh.queue.length ≤ capacity) (hError : (c.run ops sh).1 = .error) :
    sh.queue.length = capacity ∧ (∀ n ∈ sh.queue, n.data ≠ c.nonce) ∧
      sh.queue.length ≤ (nonceEvictExpired ops c.now 8 sh).queue.length := by
  obtain ⟨hShort, hSlab⟩ := hCap
  rcases c.run_cases ops sh with ⟨-, hrc, -⟩ | ⟨hLong, -⟩
  · rw [hrc] at hError
    have h8 := length_nonceEvictExpired_le ops c.now 8 sh
    have h512 := length_nonceEvictExpired_le ops c.now 512 (nonceEvictExpired ops c.now 8 sh)
    obtain ⟨hwf, gone, hq, -, -⟩ := nonceEvictExpired_spec c.now 8 h
    unfold nonceMemoryLocked at hError
    rw [hSlab, slabOf] at hError
    dsimp only at hError
    split at hError
    · cases hError
    · rename_i hMissing
      rw [hwf.lookup_isSome] at hMissing
      split at hError
      · cases hError
      · split at hError
        · cases hError
        · rename_i hFull
          have hFull := of_decide_eq_false (Bool.not_eq_true _ ▸ hFull)
          have hGone : gone = [] := by
            have hSum := congrArg List.length hq
            rw [List.length_append] at hSum
            exact List.length_eq_zero_iff.mp (by omega)
          rw [hGone, List.append_nil] at hq
          refine ⟨by omega, ?_, by omega⟩
          intro n hn hd
          exact hMissing ⟨n, hq ▸ hn, hd⟩
  · omega

/-- Where the tail is live and the zone is full, the call fails and changes nothing. -/
theorem error_of_expiredBehindLive {capacity : Nat} (h : sh.Wf ops)
    (hCap : WithCapacity ops capacity sh c) (hBlocked : ExpiredBehindLive capacity sh c) :
    (c.run ops sh).1 = .error ∧ ((nonceMachine ops).step sh c).2 = sh := by
  obtain ⟨hFull, hFresh, ⟨n, hLast, hLive⟩, -⟩ := hBlocked
  obtain ⟨hShort, hSlab⟩ := hCap
  have hEvict := nonceEvictExpired_of_live ops hLast hLive
  have hMissing : ¬(nonceLookup sh (ops.crc32 c.nonce) c.nonce).isSome = true := by
    rw [h.lookup_isSome]
    rintro ⟨m, hm, hd⟩
    exact hFresh m hm hd
  have hLocked : nonceMemoryLocked ops sh c.nonce c.exp c.now c.slab = (.error, sh) := by
    unfold nonceMemoryLocked
    rw [hSlab, slabOf]
    simp only [hEvict, hMissing, hFull, Nat.lt_irrefl, decide_false, Bool.false_eq_true, if_false]
  rcases c.run_cases ops sh with ⟨-, hrc, hsh⟩ | ⟨hLong, -⟩
  · rw [hLocked] at hrc hsh
    exact ⟨hrc, by simp only [nonceMachine, hsh, Option.getD_some]⟩
  · omega

/-- In every reachable state of a zone for `capacity` nodes: a call is denied only when
nothing has expired, unless an expired node stands before a live tail of a full zone. -/
theorem deniedOnlyWhenLive_iff (ops : ShmOps NonceNode) (capacity : Nat) {cs : List NonceCall}
    {c : NonceCall}
    (hRun : ((nonceMachine ops).restrict (WithCapacity ops capacity)).LegalRun .empty (cs ++ [c])) :
    DeniedOnlyWhenLive ops ((nonceMachine ops).final .empty cs) c ↔
      ¬ExpiredBehindLive capacity ((nonceMachine ops).final .empty cs) c := by
  have hSound := sound_final ops cs
  obtain ⟨hBefore, hLast⟩ := Machine.legalRun_append.mp hRun
  have hLen := @Machine.final_invariant _ _ _ ((nonceMachine ops).restrict (WithCapacity ops capacity))
    (fun sh => sh.queue.length ≤ capacity) (fun _ _ hLegal h => length_step_le hLegal.2 h) _ _
    hBefore (Nat.zero_le _)
  rw [Machine.final_restrict] at hLast
  simp only [Machine.final_restrict] at hLen
  have hCap : WithCapacity ops capacity ((nonceMachine ops).final .empty cs) c := hLast.1.2
  generalize (nonceMachine ops).final .empty cs = sh at *
  constructor
  · intro hDenied hBlocked
    obtain ⟨hError, hSame⟩ := error_of_expiredBehindLive hSound.wf hCap hBlocked
    obtain ⟨-, -, -, n, hn, hExpired⟩ := hBlocked
    have := hDenied hError n (by rw [hSame]; exact hn)
    omega
  · intro hOpen hError n hn
    by_contra hExpired
    obtain ⟨sh', hsh, -, hStep⟩ := storeStep_of_sound hSound c
    have hMem : n ∈ sh.queue := by
      have hNot : (c.run ops sh).1 ≠ .ok := by simp [hError]
      refine (hStep.nothing hNot).subset ?_
      simpa [nonceMachine, hsh] using hn
    obtain ⟨hFull, hFresh, hKept⟩ := unchanged_of_error hSound.wf hCap hLen hError
    obtain ⟨last, hTail⟩ : ∃ last, sh.queue.getLast? = some last :=
      Option.isSome_iff_exists.mp (by
        rw [List.getLast?_isSome]
        exact List.ne_nil_of_mem hMem)
    exact hOpen ⟨hFull, hFresh, ⟨last, hTail, live_of_length_nonceEvictExpired hTail hKept⟩, n, hMem,
      by omega⟩

/-- A verification without a diagnostic. -/
def blankResult : VerifyResult := ⟨true, [], [], none, false, .ok, none⟩

/-- A nonce of 32 hex digits. -/
def nonceOf (digit : Char) : Bytes := List.replicate 32 (charByte digit)

/-- A call in a zone for two nodes that is full or not. -/
def callInTwo (full : Bool) (digit : Char) (exp : Int) (now : Nat) : NonceCall :=
  ⟨blankResult, nonceOf digit, exp, now, ⟨!full, !full⟩⟩

def plainNonceShm : ShmOps NonceNode := ⟨fun _ => 7, .plain⟩

/-- At time 0 a nonce of a one-hour challenge and then one of a five-second challenge are
used; at time 10 a login is denied though the second of them has expired. -/
theorem expired_not_reclaimed :
    ((nonceMachine plainNonceShm).restrict (WithCapacity plainNonceShm 2)).LegalRun .empty
        ([callInTwo false 'a' 3600 0, callInTwo false 'b' 5 0] ++
          [callInTwo true 'c' 130 10]) ∧
      ¬DeniedOnlyWhenLive plainNonceShm
        ((nonceMachine plainNonceShm).final .empty
          [callInTwo false 'a' 3600 0, callInTwo false 'b' 5 0])
        (callInTwo true 'c' 130 10) := by
  refine ⟨by decide +kernel, ?_⟩
  intro hDenied
  have hLive := hDenied (by decide +kernel) ⟨7, 5, nonceOf 'b'⟩ (by decide +kernel)
  revert hLive
  decide +kernel

/-- The other way round the expired nonce is at the tail and gives way. -/
theorem expired_at_tail_reclaimed :
    DeniedOnlyWhenLive plainNonceShm
      ((nonceMachine plainNonceShm).final .empty
        [callInTwo false 'b' 5 0, callInTwo false 'a' 3600 0])
      (callInTwo false 'c' 130 10) := by
  refine (deniedOnlyWhenLive_iff plainNonceShm 2 (by decide +kernel)).mpr ?_
  rintro ⟨-, -, ⟨n, hLast, hLive⟩, -⟩
  revert hLive
  obtain rfl : n = ⟨7, 5, nonceOf 'b'⟩ := by
    have hTail : ((nonceMachine plainNonceShm).final .empty
        [callInTwo false 'b' 5 0, callInTwo false 'a' 3600 0]).queue.getLast? =
          some ⟨7, 5, nonceOf 'b'⟩ := by decide +kernel
    exact Option.some.inj (hLast.symm.trans hTail)
  decide +kernel

end PgpAuth
