import PgpAuth.Base
import PgpAuth.Lib.SearchTree

/-!
# Keyed trees of the shared zones

The nonce store and the failure throttle keep their nodes in a red-black tree keyed by
`crc32` of a byte string, ties broken by length and then by the bytes. Insertion and
lookup descend by two separately written comparisons, `insertLeft` and `lookupSide`;
both follow the one order `nodeCmp` (`insertLeft_iff`, `lookupSide_eq`), for any hash.

`ShmOps` holds what the zones take from nginx: the hash and the rebalancing.
-/

namespace PgpAuth

open Lib

/-- The hash and the red-black operations of nginx. -/
structure ShmOps (α : Type) [DecidableEq α] where
  crc32 : Bytes → UInt32
  rbtree : Balancer α

/-- What the descents read of a node: the hash stored with it and its byte string. -/
structure NodeView (α : Type) where
  key : α → UInt32
  data : α → Bytes

/-- `ngx_memcmp` of two strings of one length. -/
def memcmp (a b : Bytes) : Ordering := compare a b

section Descent

variable {α : Type} (v : NodeView α)

/-- Where `*_rbtree_insert` turns left at `nt`. -/
def insertLeft (n nt : α) : Bool :=
  if v.key n < v.key nt then true
  else if v.key nt < v.key n then false
  else if (v.data n).length ≠ (v.data nt).length then
    (v.data n).length < (v.data nt).length
  else memcmp (v.data n) (v.data nt) == .lt

/-- Where `*_lookup` goes at `n`; `eq` means found. -/
def lookupSide (hash : UInt32) (s : Bytes) (n : α) : Ordering :=
  if hash < v.key n then .lt
  else if v.key n < hash then .gt
  else if s.length ≠ (v.data n).length then
    if s.length < (v.data n).length then .lt else .gt
  else memcmp s (v.data n)

/-- The descent of `*_rbtree_insert`. -/
def rbtreeDescend (t : BinTree α) (n : α) : BinTree α := t.insertBy (insertLeft v) n

end Descent

/-- `ngx_rbtree_insert` with the insert function the tree was set up with. -/
def rbtreeInsert {α : Type} [DecidableEq α] (rb : Balancer α)
    (insert : BinTree α → α → BinTree α) (t : BinTree α) (n : α) : BinTree α :=
  rb.rebalance (insert t n)

/-! ## The order of both descents -/

/-- Hash, length, bytes. -/
abbrev NodeKey := UInt32 × Nat × Bytes

def nodeCmp : NodeKey → NodeKey → Ordering :=
  compareLex (compareOn (·.1)) (compareLex (compareOn (·.2.1)) (compareOn (·.2.2)))

instance : Std.TransCmp nodeCmp := inferInstanceAs (Std.TransCmp (compareLex _ _))

theorem nodeCmp_eq_eq {a b : NodeKey} : nodeCmp a b = .eq ↔ a = b := by
  obtain ⟨a₁, a₂, a₃⟩ := a
  obtain ⟨b₁, b₂, b₃⟩ := b
  simp [nodeCmp, compareLex, compareOn, Ordering.then_eq_eq]

variable {α : Type} {v : NodeView α}

def NodeView.nodeKey (v : NodeView α) (n : α) : NodeKey :=
  (v.key n, (v.data n).length, v.data n)

theorem lookupSide_eq (hash : UInt32) (s : Bytes) (n : α) :
    lookupSide v hash s n = nodeCmp (hash, s.length, s) (v.nodeKey n) := by
  simp only [lookupSide, nodeCmp, compareLex, compareOn, NodeView.nodeKey, memcmp]
  cases hk : compare hash (v.key n) with
  | lt => simp [Std.compare_eq_lt.mp hk, Ordering.then]
  | gt =>
      have hgt := Std.compare_eq_gt.mp hk
      simp [hgt, Std.not_lt.mpr (Std.le_of_lt hgt), Ordering.then]
  | eq =>
      obtain rfl : hash = v.key n := by simpa using hk
      cases hl : compare s.length (v.data n).length with
      | lt =>
          have := Nat.compare_eq_lt.mp hl
          simp [this, Nat.ne_of_lt this, Ordering.then]
      | gt =>
          have := Nat.compare_eq_gt.mp hl
          simp [Nat.not_lt.mpr (Nat.le_of_lt this), Nat.ne_of_gt this, Ordering.then]
      | eq =>
          have := Nat.compare_eq_eq.mp hl
          simp [this, Ordering.then]

theorem insertLeft_eq (n nt : α) :
    insertLeft v n nt = (lookupSide v (v.key n) (v.data n) nt == .lt) := by
  simp only [insertLeft, lookupSide]
  split
  · rfl
  · split
    · rfl
    · split
      · split <;> simp_all
      · rfl

theorem insertLeft_iff {n nt : α} :
    insertLeft v n nt = true ↔ nodeCmp (v.nodeKey n) (v.nodeKey nt) = .lt := by
  rw [insertLeft_eq, lookupSide_eq]
  simp [NodeView.nodeKey]

/-! ## Trees under this order -/

/-- The tree of a zone is in order. -/
abbrev InOrder (v : NodeView α) (t : BinTree α) : Prop := t.Ordered v.nodeKey nodeCmp

section BinTree

variable [DecidableEq α] (rb : Balancer α)

/-- Inserting a byte string that is not in the tree keeps the tree in order. -/
theorem InOrder.rbtreeInsert {t : BinTree α} (h : InOrder v t) {n : α}
    (hFresh : ∀ x ∈ t.toList, v.data x ≠ v.data n) :
    InOrder v (rbtreeInsert rb (rbtreeDescend v) t n) := by
  have hs : InOrder v (rbtreeDescend v t n) := by
    refine BinTree.ordered_insertBy (fun b => insertLeft_iff) (fun b hb he => ?_) h
    exact hFresh b hb (congrArg (·.2.2) (nodeCmp_eq_eq.mp he)).symm
  unfold InOrder BinTree.Ordered PgpAuth.rbtreeInsert
  rw [rb.toList_rebalance]
  exact hs

theorem InOrder.delete {t : BinTree α} (h : InOrder v t) (n : α) : InOrder v (rb.delete t n) := by
  unfold InOrder BinTree.Ordered
  rw [rb.toList_delete]
  exact List.Pairwise.erase n h

theorem rbtreeInsert_perm {t : BinTree α} {n : α} :
    (rbtreeInsert rb (rbtreeDescend v) t n).toList.Perm (n :: t.toList) := by
  rw [PgpAuth.rbtreeInsert, rb.toList_rebalance]
  exact BinTree.toList_insertBy_perm _ _ _

end BinTree

/-- Lookup by hash and bytes finds exactly the node with these bytes, provided every
stored node carries the hash of its bytes. -/
theorem findBy_lookupSide {crc32 : Bytes → UInt32} {t : BinTree α} (h : InOrder v t)
    (hHash : ∀ x ∈ t.toList, v.key x = crc32 (v.data x)) {s : Bytes} {x : α} :
    t.findBy (lookupSide v (crc32 s) s) = some x ↔ x ∈ t.toList ∧ v.data x = s := by
  rw [BinTree.findBy_eq_some (lookupSide_eq (crc32 s) s) h, nodeCmp_eq_eq]
  constructor
  · rintro ⟨hx, he⟩
    exact ⟨hx, (congrArg (·.2.2) he).symm⟩
  · rintro ⟨hx, rfl⟩
    exact ⟨hx, by rw [NodeView.nodeKey, hHash x hx]⟩

end PgpAuth
