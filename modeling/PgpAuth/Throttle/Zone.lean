import Mathlib.Data.List.Nodup
import PgpAuth.Throttle

/-!
# The throttle zone as a map from addresses

`ThrottleSh.Wf` couples tree and queue as in the nonce store. Of a well-formed zone only
the node that a lookup finds for each address matters, `ThrottleSh.entry`; every operation
is described by what it does to that map.

* `throttleRecord_success`: the entry of the client goes, nothing else changes.
* `throttleRecord_failure`: the failure is counted on `ThrottleSh.nodeAt`, and the entries
  of other addresses stay or, once stale, may be dropped (`Fades`).
-/

namespace PgpAuth

open Lib

variable (ops : ShmOps ThrottleNode)

structure ThrottleSh.Wf (sh : ThrottleSh) : Prop where
  inOrder : InOrder throttleView sh.rbtree
  hashed : ∀ n ∈ sh.queue, n.key = ops.crc32 n.data
  perm : sh.rbtree.toList.Perm sh.queue
  nodup : (sh.queue.map ThrottleNode.data).Nodup

/-- The node of an address. -/
def ThrottleSh.entry (sh : ThrottleSh) (ip : Bytes) : Option ThrottleNode :=
  throttleLookup sh (ops.crc32 ip) ip

/-- The node a failure of `ip` is counted on: its entry, or a fresh node where one of the
allocations succeeds. -/
def ThrottleSh.nodeAt (sh : ThrottleSh) (ip : Bytes) (env : ThrottleEnv) : Option ThrottleNode :=
  match sh.entry ops ip with
  | some n => some n
  | none =>
      if env.first = false ∧ env.second = false then none
      else some ⟨ops.crc32 ip, env.now, 0, 0, ip⟩

/-- `n` is the entry, or it is new at time `now` and there was none. -/
def CountedOn (o : Option ThrottleNode) (now : Nat) (n : ThrottleNode) : Prop :=
  o = some n ∨ o = none ∧ n.windowStart = now ∧ n.count = 0 ∧ n.bannedUntil = 0

/-- What makes a node evictable. -/
def ThrottleNode.Stale (n : ThrottleNode) (now staleAfter : Nat) : Prop :=
  n.bannedUntil ≤ now ∧ n.windowStart + staleAfter ≤ now

/-- What eviction does to one entry: nothing, unless the node is stale. -/
def Fades (now staleAfter : Nat) (o o' : Option ThrottleNode) : Prop :=
  o' = o ∨ o' = none ∧ ∃ n, o = some n ∧ n.Stale now staleAfter

theorem Fades.trans {now staleAfter : Nat} {o o' o'' : Option ThrottleNode}
    (h : Fades now staleAfter o o') (h' : Fades now staleAfter o' o'') :
    Fades now staleAfter o o'' := by
  rcases h with rfl | ⟨rfl, hStale⟩
  · exact h'
  · rcases h' with rfl | ⟨rfl, -⟩
    · exact .inr ⟨rfl, hStale⟩
    · exact .inr ⟨rfl, hStale⟩

variable {ops} {sh : ThrottleSh}

theorem nodeAt_of_entry {ip : Bytes} {env : ThrottleEnv} {n : ThrottleNode}
    (hn : sh.entry ops ip = some n) : sh.nodeAt ops ip env = some n := by
  unfold ThrottleSh.nodeAt
  rw [hn]

theorem countedOn_of_nodeAt {ip : Bytes} {env : ThrottleEnv} {n : ThrottleNode}
    (hn : sh.nodeAt ops ip env = some n) : CountedOn (sh.entry ops ip) env.now n := by
  unfold ThrottleSh.nodeAt at hn
  cases hEntry : sh.entry ops ip with
  | some m =>
      rw [hEntry] at hn
      exact .inl hn
  | none =>
      rw [hEntry] at hn
      dsimp only at hn
      split at hn
      · cases hn
      · cases hn
        exact .inr ⟨rfl, rfl, rfl, rfl⟩

theorem exists_nodeAt_of_room (ops : ShmOps ThrottleNode) (sh : ThrottleSh) (ip : Bytes)
    {env : ThrottleEnv} (hRoom : env.first = true ∨ env.second = true) :
    ∃ n, sh.nodeAt ops ip env = some n := by
  unfold ThrottleSh.nodeAt
  cases sh.entry ops ip with
  | some n => exact ⟨n, rfl⟩
  | none =>
      refine ⟨_, if_neg ?_⟩
      rintro ⟨hFirst, hSecond⟩
      simp [hFirst, hSecond] at hRoom

namespace ThrottleSh.Wf

theorem empty : ThrottleSh.Wf ops .empty :=
  ⟨BinTree.ordered_nil, by simp [ThrottleSh.empty], .refl _, .nil⟩

theorem entry_eq_some (h : sh.Wf ops) {ip : Bytes} {n : ThrottleNode} :
    sh.entry ops ip = some n ↔ n ∈ sh.queue ∧ n.data = ip := by
  have hHash : ∀ x ∈ sh.rbtree.toList, throttleView.key x = ops.crc32 (throttleView.data x) :=
    fun x hx => h.hashed x (h.perm.mem_iff.mp hx)
  rw [← h.perm.mem_iff]
  exact findBy_lookupSide h.inOrder hHash

/-- A node is found under one address only. -/
theorem entry_inj (h : sh.Wf ops) {a b : Bytes} {n : ThrottleNode}
    (ha : sh.entry ops a = some n) (hb : sh.entry ops b = some n) : a = b :=
  (h.entry_eq_some.mp ha).2.symm.trans (h.entry_eq_some.mp hb).2

theorem entry_eq_none (h : sh.Wf ops) {ip : Bytes} :
    sh.entry ops ip = none ↔ ∀ n ∈ sh.queue, n.data ≠ ip := by
  rw [Option.eq_none_iff_forall_ne_some]
  constructor
  · intro hNone n hn hd
    exact hNone n (h.entry_eq_some.mpr ⟨hn, hd⟩)
  · intro hFresh n hn
    obtain ⟨hm, hd⟩ := h.entry_eq_some.mp hn
    exact hFresh n hm hd

theorem unlink (h : sh.Wf ops) (n : ThrottleNode) : (sh.unlink ops n).Wf ops := by
  refine ⟨h.inOrder.delete _ n, ?_, ?_, ?_⟩
  · intro x hx
    exact h.hashed x (List.mem_of_mem_erase hx)
  · rw [ThrottleSh.unlink, ops.rbtree.toList_delete]
    exact h.perm.erase n
  · exact h.nodup.sublist (List.Sublist.map _ List.erase_sublist)

/-- Unlinking a node empties the entry it was found under. -/
theorem entry_unlink (h : sh.Wf ops) (n : ThrottleNode) (ip : Bytes) :
    (sh.unlink ops n).entry ops ip =
      if sh.entry ops ip = some n then none else sh.entry ops ip := by
  have hNodup : sh.queue.Nodup := List.Nodup.of_map _ h.nodup
  apply Option.ext
  intro x
  rw [(h.unlink n).entry_eq_some, ThrottleSh.unlink, hNodup.mem_erase_iff, and_assoc,
    ← h.entry_eq_some]
  split
  · rename_i hn
    simp only [hn, Option.some.injEq, reduceCtorEq, iff_false, not_and]
    exact fun hne he => hne he.symm
  · rename_i hn
    constructor
    · exact fun hx => hx.2
    · intro hx
      refine ⟨?_, hx⟩
      rintro rfl
      exact hn hx

/-- Moving a node to the head of the queue. -/
theorem toHead (h : sh.Wf ops) {n : ThrottleNode} (hn : n ∈ sh.queue) :
    ThrottleSh.Wf ops ⟨sh.rbtree, n :: sh.queue.erase n⟩ := by
  have hPerm : sh.queue.Perm (n :: sh.queue.erase n) := List.perm_cons_erase hn
  refine ⟨h.inOrder, ?_, h.perm.trans hPerm, ?_⟩
  · intro x hx
    exact h.hashed x (hPerm.mem_iff.mpr hx)
  · exact (hPerm.map ThrottleNode.data).nodup_iff.mp h.nodup

/-- Linking a fresh node. -/
theorem link (h : sh.Wf ops) {n : ThrottleNode} (hKey : n.key = ops.crc32 n.data)
    (hFresh : sh.entry ops n.data = none) :
    ThrottleSh.Wf ops
      ⟨rbtreeInsert ops.rbtree throttleRbtreeInsert sh.rbtree n, n :: sh.queue⟩ := by
  rw [h.entry_eq_none] at hFresh
  refine ⟨?_, ?_, ?_, ?_⟩
  · exact h.inOrder.rbtreeInsert _ fun x hx => hFresh x (h.perm.mem_iff.mp hx)
  · intro x hx
    rcases List.mem_cons.mp hx with rfl | hx
    · exact hKey
    · exact h.hashed x hx
  · exact (rbtreeInsert_perm (v := throttleView) ops.rbtree).trans (h.perm.cons _)
  · simp only [List.map_cons, List.nodup_cons, List.mem_map, not_exists, not_and]
    exact ⟨fun x hx => hFresh x hx, h.nodup⟩

theorem entry_link (h : sh.Wf ops) {n : ThrottleNode} (hKey : n.key = ops.crc32 n.data)
    (hFresh : sh.entry ops n.data = none) (ip : Bytes) :
    ThrottleSh.entry ops
        ⟨rbtreeInsert ops.rbtree throttleRbtreeInsert sh.rbtree n, n :: sh.queue⟩ ip =
      if ip = n.data then some n else sh.entry ops ip := by
  apply Option.ext
  intro x
  rw [(h.link hKey hFresh).entry_eq_some]
  simp only [List.mem_cons]
  split
  · rename_i hip
    subst hip
    rw [h.entry_eq_none] at hFresh
    constructor
    · rintro ⟨rfl | hx, hd⟩
      · rfl
      · exact absurd hd (hFresh x hx)
    · intro hx
      cases hx
      exact ⟨.inl rfl, rfl⟩
  · rename_i hip
    rw [h.entry_eq_some]
    constructor
    · rintro ⟨rfl | hx, hd⟩
      · exact absurd hd.symm hip
      · exact ⟨hx, hd⟩
    · exact fun hx => ⟨.inr hx.1, hx.2⟩

section SetNode

variable {n n' : ThrottleNode} (hKey : n'.key = n.key) (hData : n'.data = n.data)

include hKey hData

/-- A change in place that leaves hash and bytes alone. -/
theorem setNode (h : sh.Wf ops) : (sh.setNode n n').Wf ops := by
  have hView : ∀ x : ThrottleNode, throttleView.nodeKey (if x = n then n' else x) =
      throttleView.nodeKey x := by
    intro x
    split
    · rename_i hx
      subst hx
      simp [NodeView.nodeKey, throttleView, hKey, hData]
    · rfl
  refine ⟨?_, ?_, ?_, ?_⟩
  · have hOrder := h.inOrder
    unfold InOrder BinTree.Ordered at hOrder ⊢
    rw [ThrottleSh.setNode, BinTree.toList_map, List.pairwise_map]
    simpa only [hView] using hOrder
  · intro x hx
    obtain ⟨y, hy, rfl⟩ := List.mem_map.mp hx
    have hyKey := h.hashed y hy
    split
    · rename_i hyn
      subst hyn
      rw [hKey, hData, hyKey]
    · exact hyKey
  · rw [ThrottleSh.setNode, BinTree.toList_map]
    exact h.perm.map _
  · have hSame : (sh.setNode n n').queue.map ThrottleNode.data =
        sh.queue.map ThrottleNode.data := by
      rw [ThrottleSh.setNode, List.map_map]
      exact List.map_congr_left fun x _ => congrArg (·.2.2) (hView x)
    rw [hSame]
    exact h.nodup

theorem entry_setNode (h : sh.Wf ops) (ip : Bytes) :
    (sh.setNode n n').entry ops ip =
      if sh.entry ops ip = some n then some n' else sh.entry ops ip := by
  cases hEntry : sh.entry ops ip with
  | none =>
      simp only [reduceCtorEq, if_false]
      rw [(h.setNode hKey hData).entry_eq_none]
      intro x hx
      obtain ⟨y, hy, rfl⟩ := List.mem_map.mp hx
      have hyData := h.entry_eq_none.mp hEntry y hy
      split
      · rename_i hyn
        subst hyn
        rwa [hData]
      · exact hyData
  | some x =>
      obtain ⟨hx, hd⟩ := h.entry_eq_some.mp hEntry
      have hMem : (if x = n then n' else x) ∈ (sh.setNode n n').queue :=
        List.mem_map.mpr ⟨x, hx, rfl⟩
      have hBytes : (if x = n then n' else x).data = ip := by
        split
        · rename_i hxn
          subst hxn
          rwa [hData]
        · exact hd
      rw [(h.setNode hKey hData).entry_eq_some.mpr ⟨hMem, hBytes⟩]
      simp only [Option.some.injEq]
      split <;> rfl

end SetNode

end ThrottleSh.Wf

/-! ## Eviction and counting -/

theorem throttleEvictFrom_spec (now staleAfter max : Nat) (nodes : List ThrottleNode)
    (h : sh.Wf ops) :
    (throttleEvictFrom ops now staleAfter max nodes sh).Wf ops ∧ ∀ ip,
      Fades now staleAfter (sh.entry ops ip)
        ((throttleEvictFrom ops now staleAfter max nodes sh).entry ops ip) := by
  induction nodes generalizing max sh with
  | nil => cases max <;> exact ⟨h, fun ip => .inl rfl⟩
  | cons n nodes ih =>
      cases max with
      | zero => exact ⟨h, fun ip => .inl rfl⟩
      | succ max =>
          rw [throttleEvictFrom]
          split
          · rename_i hStale
            obtain ⟨hwf, hFades⟩ := ih max (h.unlink n)
            refine ⟨hwf, fun ip => Fades.trans ?_ (hFades ip)⟩
            rw [h.entry_unlink]
            split
            · rename_i hn
              exact .inr ⟨rfl, n, hn, hStale⟩
            · exact .inl rfl
          · exact ih max h

theorem throttleEvictStale_spec (now window max : Nat) (h : sh.Wf ops) :
    (throttleEvictStale ops now window max sh).Wf ops ∧ ∀ ip,
      Fades now (Nat.max window 3600) (sh.entry ops ip)
        ((throttleEvictStale ops now window max sh).entry ops ip) :=
  throttleEvictFrom_spec now _ max _ h

/-- An empty entry stays empty. -/
theorem Fades.eq_none {now staleAfter : Nat} {o : Option ThrottleNode}
    (h : Fades now staleAfter none o) : o = none := by
  rcases h with h | ⟨h, -⟩
  · exact h
  · exact h

/-- The node found or made, and what became of the entries meanwhile. -/
theorem throttleNodeFor_spec (h : sh.Wf ops) (ip : Bytes) (window : Nat) (env : ThrottleEnv) :
    (throttleNodeFor ops sh ip window env).2 = sh.nodeAt ops ip env ∧
      (throttleNodeFor ops sh ip window env).1.Wf ops ∧
      (throttleNodeFor ops sh ip window env).1.entry ops ip = sh.nodeAt ops ip env ∧
      ∀ a ≠ ip, Fades env.now (Nat.max window 3600) (sh.entry ops a)
        ((throttleNodeFor ops sh ip window env).1.entry ops a) := by
  unfold throttleNodeFor ThrottleSh.nodeAt
  rw [← ThrottleSh.entry]
  cases hEntry : sh.entry ops ip with
  | some n =>
      have hn := (h.entry_eq_some.mp hEntry).1
      exact ⟨rfl, h.toHead hn, hEntry, fun a _ => .inl rfl⟩
  | none =>
      dsimp only
      -- both passes together
      obtain ⟨sh', hsh'⟩ : ∃ sh', sh' =
          (if env.first then throttleEvictStale ops env.now window 8 sh
            else throttleEvictStale ops env.now window 512
              (throttleEvictStale ops env.now window 8 sh)) := ⟨_, rfl⟩
      have hSpec : sh'.Wf ops ∧ ∀ a, Fades env.now (Nat.max window 3600) (sh.entry ops a)
          (sh'.entry ops a) := by
        obtain ⟨hwf₁, hFades₁⟩ := throttleEvictStale_spec env.now window 8 h
        obtain ⟨hwf₂, hFades₂⟩ := throttleEvictStale_spec env.now window 512 hwf₁
        rw [hsh']
        split
        · exact ⟨hwf₁, hFades₁⟩
        · exact ⟨hwf₂, fun a => (hFades₁ a).trans (hFades₂ a)⟩
      rw [← hsh']
      obtain ⟨hwf, hFades⟩ := hSpec
      have hNone : sh'.entry ops ip = none := by
        have := hFades ip
        rw [hEntry] at this
        exact this.eq_none
      split
      · exact ⟨rfl, hwf, hNone, fun a _ => hFades a⟩
      · have hLink := hwf.entry_link (n := ⟨ops.crc32 ip, env.now, 0, 0, ip⟩) rfl hNone
        refine ⟨rfl, hwf.link rfl hNone, ?_, ?_⟩
        · rw [hLink, if_pos rfl]
        · intro a ha
          rw [hLink, if_neg ha]
          exact hFades a

/-! ## Calls -/

theorem throttleClientIp_keyable (r : Request) :
    ¬((throttleClientIp r).length = 0 ∨ 65535 < (throttleClientIp r).length) := by
  have hlen := r.addr.property.length_le
  have hpos : 0 < r.addr.val.length := List.length_pos_iff.mpr r.addr.property.ne_nil
  rw [throttleClientIp]
  omega

theorem throttleIsBanned_eq (sh : ThrottleSh) (r : Request) (now : Nat) :
    throttleIsBanned ops (some sh) r now =
      if ∃ n ∈ sh.entry ops r.addr.val, now < n.bannedUntil then .declined else .ok := by
  unfold throttleIsBanned throttleIsBannedCall
  dsimp only
  rw [if_neg (throttleClientIp_keyable r), throttleClientIp, ← ThrottleSh.entry]
  cases sh.entry ops r.addr.val with
  | none => simp
  | some n =>
      by_cases hBan : now < n.bannedUntil
      · simp [hBan]
      · simp [hBan]

/-- The line about a banned client tells how long its ban still runs. -/
theorem throttleIsBannedNotice_eq_some {zone : Option ThrottleSh} {r : Request} {now : Nat}
    {notice : ThrottleNotice} (h : throttleIsBannedNotice ops zone r now = some notice) :
    ∃ sh n, zone = some sh ∧ sh.entry ops r.addr.val = some n ∧ now < n.bannedUntil ∧
      notice = .throttled (n.bannedUntil - now) := by
  unfold throttleIsBannedNotice throttleIsBannedCall at h
  cases zone with
  | none => cases h
  | some sh =>
      dsimp only at h
      rw [if_neg (throttleClientIp_keyable r), throttleClientIp, ← ThrottleSh.entry] at h
      cases hEntry : sh.entry ops r.addr.val with
      | none =>
          rw [hEntry] at h
          cases h
      | some n =>
          simp only [hEntry] at h
          split_ifs at h with hBan
          · cases h
            exact ⟨sh, n, rfl, hEntry, hBan, rfl⟩

theorem throttleRecord_success (h : sh.Wf ops) (r : Request) (limit window banTime : Nat)
    (env : ThrottleEnv) :
    ∃ sh', throttleRecord ops (some sh) r true limit window banTime env = some sh' ∧ sh'.Wf ops ∧
      ∀ a, sh'.entry ops a = if a = r.addr.val then none else sh.entry ops a := by
  unfold throttleRecord throttleRecordCall
  dsimp only
  rw [if_neg (throttleClientIp_keyable r), if_pos rfl, throttleClientIp, ← ThrottleSh.entry]
  cases hEntry : sh.entry ops r.addr.val with
  | none =>
      refine ⟨sh, rfl, h, fun a => ?_⟩
      split
      · rename_i ha
        rw [ha, hEntry]
      · rfl
  | some n =>
      refine ⟨_, rfl, h.unlink n, fun a => ?_⟩
      rw [h.entry_unlink]
      by_cases ha : a = r.addr.val
      · rw [if_pos ha, ha, if_pos hEntry]
      · rw [if_neg ha, if_neg fun hn => ha (h.entry_inj hn hEntry)]

@[simp] theorem ThrottleNode.failed_key (n : ThrottleNode) (limit window banTime now : Nat) :
    (n.failed limit window banTime now).key = n.key := by
  unfold ThrottleNode.failed ThrottleNode.fail
  dsimp only
  split <;> split <;> rfl

@[simp] theorem ThrottleNode.failed_data (n : ThrottleNode) (limit window banTime now : Nat) :
    (n.failed limit window banTime now).data = n.data := by
  unfold ThrottleNode.failed ThrottleNode.fail
  dsimp only
  split <;> split <;> rfl

theorem ThrottleNode.failed_windowStart (n : ThrottleNode) (limit window banTime now : Nat) :
    (n.failed limit window banTime now).windowStart =
      if n.windowStart + window ≤ now then now else n.windowStart := by
  unfold ThrottleNode.failed ThrottleNode.fail
  dsimp only
  split <;> split <;> rfl

theorem ThrottleNode.failed_count (n : ThrottleNode) (limit window banTime now : Nat) :
    (n.failed limit window banTime now).count =
      (if n.windowStart + window ≤ now then 0 else n.count) + 1 := by
  unfold ThrottleNode.failed ThrottleNode.fail
  dsimp only
  split <;> split <;> rfl

theorem ThrottleNode.failed_bannedUntil (n : ThrottleNode) (limit window banTime now : Nat) :
    (n.failed limit window banTime now).bannedUntil =
      if limit ≤ (n.failed limit window banTime now).count then now + banTime
      else n.bannedUntil := by
  unfold ThrottleNode.failed ThrottleNode.fail
  dsimp only
  split <;> split <;> rfl

/-- A failure is logged exactly where it sets the ban. -/
theorem ThrottleNode.fail_notice (n : ThrottleNode) (limit window banTime now : Nat) :
    (n.fail limit window banTime now).2 =
      if limit ≤ (n.failed limit window banTime now).count then
        some (.triggered (n.failed limit window banTime now).count banTime)
      else none := by
  rw [ThrottleNode.failed_count]
  unfold ThrottleNode.fail
  dsimp only
  split <;> split <;> rfl

theorem throttleRecord_failure (h : sh.Wf ops) (r : Request) (limit window banTime : Nat)
    (env : ThrottleEnv) :
    ∃ sh', throttleRecord ops (some sh) r false limit window banTime env = some sh' ∧
      sh'.Wf ops ∧
      sh'.entry ops r.addr.val =
        (sh.nodeAt ops r.addr.val env).map (·.failed limit window banTime env.now) ∧
      ∀ a ≠ r.addr.val,
        Fades env.now (Nat.max window 3600) (sh.entry ops a) (sh'.entry ops a) := by
  obtain ⟨hNode, hwf, hEntry, hFades⟩ := throttleNodeFor_spec h r.addr.val window env
  unfold throttleRecord throttleRecordCall
  dsimp only
  rw [if_neg (throttleClientIp_keyable r), if_neg Bool.false_ne_true, throttleClientIp]
  obtain ⟨⟨sh₁, o⟩, hCall⟩ : ∃ p, throttleNodeFor ops sh r.addr.val window env = p := ⟨_, rfl⟩
  rw [hCall] at hNode hwf hEntry hFades ⊢
  dsimp only at hNode hwf hEntry hFades
  subst hNode
  cases hn : sh.nodeAt ops r.addr.val env with
  | none => exact ⟨sh₁, rfl, hwf, hEntry.trans hn, hFades⟩
  | some n =>
      rw [hn] at hEntry
      have hSet := hwf.entry_setNode (n.failed_key limit window banTime env.now)
        (n.failed_data limit window banTime env.now)
      rw [ThrottleNode.failed] at hSet
      refine ⟨_, rfl, hwf.setNode (n.failed_key ..) (n.failed_data ..), ?_, ?_⟩
      · rw [hSet, if_pos hEntry, Option.map_some, ThrottleNode.failed]
      · intro a ha
        rw [hSet, if_neg fun hn => ha (hwf.entry_inj hn hEntry)]
        exact hFades a ha

/-- The notice of a failure is about the node it is counted on. -/
theorem throttleRecordNotice_failure (h : sh.Wf ops) (r : Request) (limit window banTime : Nat)
    (env : ThrottleEnv) :
    throttleRecordNotice ops (some sh) r false limit window banTime env =
      match sh.nodeAt ops r.addr.val env with
      | none => some .zoneFull
      | some n =>
          if limit ≤ (n.failed limit window banTime env.now).count then
            some (.triggered (n.failed limit window banTime env.now).count banTime)
          else none := by
  unfold throttleRecordNotice throttleRecordCall
  dsimp only
  rw [if_neg (throttleClientIp_keyable r), if_neg Bool.false_ne_true, throttleClientIp]
  have hNode := (throttleNodeFor_spec h r.addr.val window env).1
  obtain ⟨⟨sh₁, o⟩, hCall⟩ : ∃ p, throttleNodeFor ops sh r.addr.val window env = p := ⟨_, rfl⟩
  rw [hCall] at hNode ⊢
  subst hNode
  cases sh.nodeAt ops r.addr.val env with
  | none => rfl
  | some n => exact n.fail_notice limit window banTime env.now

theorem throttleRecordNotice_success (sh : ThrottleSh) (r : Request)
    (limit window banTime : Nat) (env : ThrottleEnv) :
    throttleRecordNotice ops (some sh) r true limit window banTime env = none := by
  unfold throttleRecordNotice throttleRecordCall
  dsimp only
  rw [if_neg (throttleClientIp_keyable r), if_pos rfl]
  split <;> rfl

/-- What a record logs: the zone is full, or a failure has reached the limit. -/
theorem throttleRecordCall_notice {zone : Option ThrottleSh} {r : Request} {success : Bool}
    {limit window banTime : Nat} {env : ThrottleEnv} {notice : ThrottleNotice}
    (h : (throttleRecordCall ops zone r success limit window banTime env).2 = some notice) :
    notice = .zoneFull ∨ zone ≠ none ∧ success = false ∧
      ∃ failures, limit ≤ failures ∧ notice = .triggered failures banTime := by
  unfold throttleRecordCall at h
  cases zone with
  | none => cases h
  | some sh =>
      dsimp only at h
      rw [if_neg (throttleClientIp_keyable r)] at h
      cases success with
      | true =>
          rw [if_pos rfl] at h
          split at h <;> cases h
      | false =>
          rw [if_neg Bool.false_ne_true] at h
          split at h
          · exact .inl (Option.some.inj h).symm
          · rename_i n _
            rw [n.fail_notice] at h
            split_ifs at h with hLimit
            · exact .inr ⟨nofun, rfl, _, hLimit, (Option.some.inj h).symm⟩

end PgpAuth
