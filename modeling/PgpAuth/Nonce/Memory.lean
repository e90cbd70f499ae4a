import Mathlib.Data.List.Nodup
import PgpAuth.Shm

/-!
# The `memory` nonce store

A shared zone holds every used nonce until its challenge expires, in a keyed tree for
lookup and in a queue, newest at the head, for eviction. `nonceMemoryLocked` is the part
of `ngx_http_pgp_nonce_memory` under the zone mutex; `Slab` gives the outcomes of its two
allocations.

`NonceSh.Wf` couples the two structures: same nodes, no byte string twice, every node
with the hash of its bytes, tree in order. `nonceMemoryLocked_cases` says everything a
call can do to a well-formed store: it drops expired nodes from the tail, and then finds
the nonce, adds it, or fails.
-/

namespace PgpAuth

open Lib

structure NonceNode where
  key : UInt32
  expire : Int
  data : Bytes
  deriving DecidableEq, Repr

/-- `ngx_http_pgp_nonce_sh_t`; the queue from head (newest) to tail. -/
structure NonceSh where
  rbtree : BinTree NonceNode
  queue : List NonceNode
  deriving DecidableEq, Repr

def NonceSh.empty : NonceSh := ⟨.nil, []⟩

/-- Outcomes of the two slab allocations of one call. -/
structure Slab where
  first : Bool
  second : Bool
  deriving DecidableEq, Repr

def nonceView : NodeView NonceNode := ⟨NonceNode.key, NonceNode.data⟩

def nonceRbtreeInsert : BinTree NonceNode → NonceNode → BinTree NonceNode := rbtreeDescend nonceView

def nonceLookup (sh : NonceSh) (hash : UInt32) (nonce : Bytes) : Option NonceNode :=
  sh.rbtree.findBy (lookupSide nonceView hash nonce)

variable (ops : ShmOps NonceNode)

def nonceEvictExpired (now : Nat) : Nat → NonceSh → NonceSh
  | 0, sh => sh
  | max + 1, sh =>
      match sh.queue.getLast? with
      | none => sh
      | some n =>
          if (now : Int) < n.expire then sh
          else
            nonceEvictExpired now max
              { rbtree := ops.rbtree.delete sh.rbtree n, queue := sh.queue.dropLast }

/-- Fill in the allocated node and link it into both structures. -/
def nonceAdd (sh : NonceSh) (nonce : Bytes) (exp : Int) : NonceSh :=
  let n : NonceNode := { key := ops.crc32 nonce, expire := exp, data := nonce }
  { rbtree := rbtreeInsert ops.rbtree nonceRbtreeInsert sh.rbtree n, queue := n :: sh.queue }

def nonceMemoryLocked (sh : NonceSh) (nonce : Bytes) (exp : Int) (now : Nat) (slab : Slab) :
    Rc × NonceSh :=
  let sh := nonceEvictExpired ops now 8 sh
  if (nonceLookup sh (ops.crc32 nonce) nonce).isSome then (.declined, sh)
  else if slab.first then (.ok, nonceAdd ops sh nonce exp)
  else
    let sh := nonceEvictExpired ops now 512 sh
    if slab.second then (.ok, nonceAdd ops sh nonce exp) else (.error, sh)

def nonceZoneFull : String :=
  "pgp_auth: nonce zone full with no expired entries to reclaim; denying login " ++
    "(raise pgp_auth_nonce_zone_size, or use pgp_auth_nonce_storage redis)"

def nonceMemory (vr : VerifyResult) (zone : Option NonceSh) (nonce : Bytes) (exp : Int)
    (now : Nat) (slab : Slab) : Rc × VerifyResult × Option NonceSh :=
  match zone with
  | none => (.error, vr, none)
  | some sh =>
      if 65535 < nonce.length then (.error, vr, some sh)
      else
        let out := nonceMemoryLocked ops sh nonce exp now slab
        (out.1, if out.1 = .error then deferDiag vr .err nonceZoneFull [] else vr, some out.2)

/-! ## Well-formed stores -/

structure NonceSh.Wf (sh : NonceSh) : Prop where
  inOrder : InOrder nonceView sh.rbtree
  hashed : ∀ n ∈ sh.queue, n.key = ops.crc32 n.data
  perm : sh.rbtree.toList.Perm sh.queue
  nodup : (sh.queue.map NonceNode.data).Nodup

variable {ops}

namespace NonceSh.Wf

theorem empty : NonceSh.Wf ops .empty := ⟨BinTree.ordered_nil, by simp [NonceSh.empty], .refl _, .nil⟩

theorem mem_rbtree {sh : NonceSh} (h : sh.Wf ops) {n : NonceNode} :
    n ∈ sh.rbtree.toList ↔ n ∈ sh.queue := h.perm.mem_iff

/-- Lookup answers for the queue: it finds a nonce exactly when some node holds it. -/
theorem lookup_isSome {sh : NonceSh} (h : sh.Wf ops) (nonce : Bytes) :
    (nonceLookup sh (ops.crc32 nonce) nonce).isSome = true ↔ ∃ n ∈ sh.queue, n.data = nonce := by
  have hHash : ∀ x ∈ sh.rbtree.toList, nonceView.key x = ops.crc32 (nonceView.data x) :=
    fun x hx => h.hashed x (h.mem_rbtree.mp hx)
  have hFind := fun x => findBy_lookupSide h.inOrder hHash (s := nonce) (x := x)
  rw [Option.isSome_iff_exists]
  constructor
  · rintro ⟨n, hn⟩
    obtain ⟨hm, hd⟩ := (hFind n).mp hn
    exact ⟨n, h.mem_rbtree.mp hm, hd⟩
  · rintro ⟨n, hm, hd⟩
    exact ⟨n, (hFind n).mpr ⟨h.mem_rbtree.mpr hm, hd⟩⟩

/-- Dropping the tail node from both structures. -/
theorem dropLast {sh : NonceSh} (h : sh.Wf ops) {n : NonceNode}
    (hn : sh.queue.getLast? = some n) :
    NonceSh.Wf ops ⟨ops.rbtree.delete sh.rbtree n, sh.queue.dropLast⟩ := by
  obtain ⟨q, hq⟩ := List.getLast?_eq_some_iff.mp hn
  have hnd : (q ++ [n]).Nodup := by
    rw [← hq]
    exact List.Nodup.of_map _ h.nodup
  have hErase : sh.queue.erase n = q := by
    have hnq : n ∉ q := fun hm => (List.nodup_append.mp hnd).2.2 n hm n (by simp) rfl
    rw [hq, List.erase_append_right _ hnq]
    simp
  have hDrop : sh.queue.dropLast = q := by simp [hq]
  refine ⟨h.inOrder.delete _ n, ?_, ?_, ?_⟩
  · intro x hx
    rw [hDrop] at hx
    exact h.hashed x (by simp [hq, hx])
  · rw [ops.rbtree.toList_delete, hDrop, ← hErase]
    exact h.perm.erase n
  · rw [hDrop]
    have := h.nodup
    rw [hq, List.map_append] at this
    exact List.Nodup.of_append_left this

theorem add {sh : NonceSh} (h : sh.Wf ops) {nonce : Bytes} (exp : Int)
    (hFresh : ∀ n ∈ sh.queue, n.data ≠ nonce) : NonceSh.Wf ops (nonceAdd ops sh nonce exp) := by
  refine ⟨?_, ?_, ?_, ?_⟩
  · exact h.inOrder.rbtreeInsert _ fun x hx => hFresh x (h.mem_rbtree.mp hx)
  · intro n hn
    rcases List.mem_cons.mp hn with rfl | hn
    · rfl
    · exact h.hashed n hn
  · exact (rbtreeInsert_perm (v := nonceView) ops.rbtree).trans (h.perm.cons _)
  · simp only [nonceAdd, List.map_cons, List.nodup_cons, List.mem_map, not_exists, not_and]
    exact ⟨fun n hn => hFresh n hn, h.nodup⟩

end NonceSh.Wf

/-- Eviction drops expired nodes from the tail, at most `max` of them, and nothing else. -/
theorem nonceEvictExpired_spec (now max : Nat) {sh : NonceSh} (h : sh.Wf ops) :
    (nonceEvictExpired ops now max sh).Wf ops ∧
      ∃ gone, sh.queue = (nonceEvictExpired ops now max sh).queue ++ gone ∧
        gone.length ≤ max ∧ ∀ n ∈ gone, n.expire ≤ now := by
  induction max generalizing sh with
  | zero => exact ⟨h, [], by simp [nonceEvictExpired], by simp, by simp⟩
  | succ max ih =>
      rw [nonceEvictExpired]
      cases hl : sh.queue.getLast? with
      | none => exact ⟨h, [], by simp, by simp, by simp⟩
      | some n =>
          dsimp only
          split
          · exact ⟨h, [], by simp, by simp, by simp⟩
          · rename_i hlive
            obtain ⟨hwf, gone, hq, hlen, hgone⟩ := ih (h.dropLast hl)
            refine ⟨hwf, gone ++ [n], ?_, by simp; omega, ?_⟩
            · obtain ⟨q, hsq⟩ := List.getLast?_eq_some_iff.mp hl
              have hDrop : sh.queue.dropLast = q := by simp [hsq]
              rw [← List.append_assoc, ← hq, hDrop, hsq]
            · intro x hx
              rcases List.mem_append.mp hx with hx | hx
              · exact hgone x hx
              · rw [List.mem_singleton.mp hx]
                omega

/-- What one call does to a well-formed store. A list `gone` of expired nodes is dropped
from the tail; then the nonce is found among the kept nodes, or it is not there and is
added at the head, or both allocations fail. -/
theorem nonceMemoryLocked_cases {sh : NonceSh} (h : sh.Wf ops) (nonce : Bytes) (exp : Int)
    (now : Nat) (slab : Slab) {rc : Rc} {sh' : NonceSh}
    (hRun : nonceMemoryLocked ops sh nonce exp now slab = (rc, sh')) :
    sh'.Wf ops ∧ ∃ kept gone, sh.queue = kept ++ gone ∧ (∀ n ∈ gone, n.expire ≤ now) ∧
      ((rc = .declined ∧ sh'.queue = kept ∧ gone.length ≤ 8 ∧ ∃ n ∈ kept, n.data = nonce) ∨
        (rc = .ok ∧ sh'.queue = ⟨ops.crc32 nonce, exp, nonce⟩ :: kept ∧
          (slab.first = true ∨ slab.second = true) ∧ ∀ n ∈ kept, n.data ≠ nonce) ∨
        (rc = .error ∧ sh'.queue = kept ∧ slab = ⟨false, false⟩ ∧
          ∀ n ∈ kept, n.data ≠ nonce)) := by
  obtain ⟨hwf₁, gone₁, hq₁, hlen₁, hgone₁⟩ := nonceEvictExpired_spec now 8 h
  obtain ⟨hwf₂, gone₂, hq₂, -, hgone₂⟩ := nonceEvictExpired_spec now 512 hwf₁
  unfold nonceMemoryLocked at hRun
  dsimp only at hRun
  generalize nonceEvictExpired ops now 8 sh = sh₁ at *
  split at hRun
  · rename_i hFound
    cases hRun
    have hMem := (hwf₁.lookup_isSome nonce).mp hFound
    exact ⟨hwf₁, _, gone₁, hq₁, hgone₁, .inl ⟨rfl, rfl, hlen₁, hMem⟩⟩
  · rename_i hMissing
    rw [hwf₁.lookup_isSome] at hMissing
    have hFresh₁ : ∀ n ∈ sh₁.queue, n.data ≠ nonce := fun n hn he => hMissing ⟨n, hn, he⟩
    split at hRun
    · rename_i hFirst
      cases hRun
      exact ⟨hwf₁.add exp hFresh₁, _, gone₁, hq₁, hgone₁,
        .inr (.inl ⟨rfl, rfl, .inl hFirst, hFresh₁⟩)⟩
    · rename_i hFirst
      generalize nonceEvictExpired ops now 512 sh₁ = sh₂ at *
      have hFresh₂ : ∀ n ∈ sh₂.queue, n.data ≠ nonce :=
        fun n hn => hFresh₁ n (by simp [hq₂, hn])
      have hq : sh.queue = sh₂.queue ++ (gone₂ ++ gone₁) := by
        rw [hq₁, hq₂, List.append_assoc]
      have hgone : ∀ n ∈ gone₂ ++ gone₁, n.expire ≤ now := fun n hn =>
        (List.mem_append.mp hn).elim (hgone₂ n) (hgone₁ n)
      split at hRun
      · rename_i hSecond
        cases hRun
        exact ⟨hwf₂.add exp hFresh₂, _, _, hq, hgone,
          .inr (.inl ⟨rfl, rfl, .inr hSecond, hFresh₂⟩)⟩
      · rename_i hSecond
        cases hRun
        refine ⟨hwf₂, _, _, hq, hgone, .inr (.inr ⟨rfl, rfl, ?_, hFresh₂⟩)⟩
        cases slab
        simp_all

section Step

variable {sh sh' : NonceSh} {nonce : Bytes} {exp : Int} {now : Nat} {slab : Slab} {rc : Rc}

theorem nonceMemoryLocked_wf (h : sh.Wf ops) :
    (nonceMemoryLocked ops sh nonce exp now slab).2.Wf ops :=
  (nonceMemoryLocked_cases h nonce exp now slab rfl).1

/-- Among dropped and kept nodes, one that has not expired is kept. -/
private theorem mem_kept_of_live {queue kept gone : List NonceNode} {now : Nat} {n : NonceNode}
    (hq : queue = kept ++ gone) (hgone : ∀ n ∈ gone, n.expire ≤ now) (hn : n ∈ queue)
    (hlive : now < n.expire) : n ∈ kept := by
  rw [hq] at hn
  refine (List.mem_append.mp hn).resolve_right fun hg => ?_
  have := hgone n hg
  omega

/-- A node that has not expired survives every call. -/
theorem mem_queue_of_live (h : sh.Wf ops)
    (hRun : nonceMemoryLocked ops sh nonce exp now slab = (rc, sh')) {n : NonceNode}
    (hn : n ∈ sh.queue) (hlive : now < n.expire) : n ∈ sh'.queue := by
  obtain ⟨-, kept, gone, hq, hgone, hcase⟩ := nonceMemoryLocked_cases h nonce exp now slab hRun
  have hkept := mem_kept_of_live hq hgone hn hlive
  rcases hcase with ⟨-, hq', -⟩ | ⟨-, hq', -⟩ | ⟨-, hq', -⟩ <;> simp [hq', hkept]

/-- An accepted nonce is recorded with its expiry. -/
theorem mem_queue_of_ok (h : sh.Wf ops)
    (hRun : nonceMemoryLocked ops sh nonce exp now slab = (.ok, sh')) :
    ⟨ops.crc32 nonce, exp, nonce⟩ ∈ sh'.queue := by
  obtain ⟨-, kept, gone, -, -, hcase⟩ := nonceMemoryLocked_cases h nonce exp now slab hRun
  rcases hcase with ⟨hrc, -⟩ | ⟨-, hq', -⟩ | ⟨hrc, -⟩
  · cases hrc
  · simp [hq']
  · cases hrc

/-- A nonce held by a node that has not expired is turned down. -/
theorem declined_of_live (h : sh.Wf ops)
    (hRun : nonceMemoryLocked ops sh nonce exp now slab = (rc, sh')) {n : NonceNode}
    (hn : n ∈ sh.queue) (hlive : now < n.expire) (hd : n.data = nonce) : rc = .declined := by
  obtain ⟨-, kept, gone, hq, hgone, hcase⟩ := nonceMemoryLocked_cases h nonce exp now slab hRun
  have hkept := mem_kept_of_live hq hgone hn hlive
  rcases hcase with ⟨hrc, -⟩ | ⟨-, -, -, hFresh⟩ | ⟨-, -, -, hFresh⟩
  · exact hrc
  · exact absurd hd (hFresh n hkept)
  · exact absurd hd (hFresh n hkept)

/-- With room in the zone a call that does not find the nonce records it. -/
theorem ok_or_declined_of_room (h : sh.Wf ops) (hRoom : slab.first = true ∨ slab.second = true)
    (hRun : nonceMemoryLocked ops sh nonce exp now slab = (rc, sh')) :
    rc = .ok ∨ rc = .declined := by
  obtain ⟨-, kept, gone, -, -, hcase⟩ := nonceMemoryLocked_cases h nonce exp now slab hRun
  rcases hcase with ⟨hrc, -⟩ | ⟨hrc, -⟩ | ⟨-, -, rfl, -⟩
  · exact .inr hrc
  · exact .inl hrc
  · simp at hRoom

end Step

end PgpAuth
