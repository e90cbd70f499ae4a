import PgpAuth.Lib.Run
import PgpAuth.Nonce.Memory
import PgpAuth.Throttle

/-!
# Keyed lookup over whole histories

Nodes are linked into a tree by `*_rbtree_insert` and taken out by deletion. `treeMachine`
runs any sequence of the two, with the hash and the rebalancing left open; the one thing
asked of an insertion is what both callers check before it, that the byte string is not in
the tree and fits the 16-bit length of a node.

`KeyedTree` relates the tree to that sequence: it is in order, and lookup answers for the
nodes inserted and not deleted since (`Linked`). `keyedTree_final` carries it along every
run; the nonce tree and the throttle tree are its two instances.
-/

namespace PgpAuth

open Lib

inductive TreeOp (α : Type) where
  | insert (n : α)
  | delete (n : α)
  deriving DecidableEq, Repr

section Machine

variable {α : Type} [DecidableEq α] (v : NodeView α) (ops : ShmOps α)

/-- `n` carries the hash of its bytes and no node of the tree holds the same bytes. -/
def Insertable (t : BinTree α) (n : α) : Prop :=
  v.key n = ops.crc32 (v.data n) ∧ (v.data n).length ≤ 65535 ∧
    ∀ x ∈ t.toList, v.data x ≠ v.data n

instance (t : BinTree α) (n : α) : Decidable (Insertable v ops t n) :=
  inferInstanceAs (Decidable (_ ∧ _ ∧ ∀ x ∈ t.toList, _))

def treeMachine : Machine (BinTree α) (TreeOp α) Unit where
  step t
    | .insert n => ((), rbtreeInsert ops.rbtree (rbtreeDescend v) t n)
    | .delete n => ((), ops.rbtree.delete t n)
  legal t
    | .insert n => Insertable v ops t n
    | .delete n => n ∈ t.toList

instance (t : BinTree α) : ∀ i : TreeOp α, Decidable ((treeMachine v ops).legal t i)
  | .insert n => inferInstanceAs (Decidable (Insertable v ops t n))
  | .delete n => inferInstanceAs (Decidable (n ∈ t.toList))

end Machine

section History

variable {α : Type}

/-- `n` was inserted and has not been deleted since. -/
def Linked (is : List (TreeOp α)) (n : α) : Prop :=
  ∃ before after, is = before ++ .insert n :: after ∧ .delete n ∉ after

theorem not_linked_nil (n : α) : ¬ Linked [] n := by
  rintro ⟨before, after, hSplit, -⟩
  simp at hSplit

theorem linked_concat {is : List (TreeOp α)} {i : TreeOp α} {n : α} :
    Linked (is ++ [i]) n ↔ i = .insert n ∨ Linked is n ∧ i ≠ .delete n := by
  constructor
  · rintro ⟨before, after, hSplit, hKept⟩
    rcases List.eq_nil_or_concat after with rfl | ⟨after, j, rfl⟩
    · obtain ⟨-, hLast⟩ := List.append_inj' hSplit rfl
      simp only [List.cons.injEq, and_true] at hLast
      exact .inl hLast
    · rw [List.concat_eq_append, ← List.cons_append, ← List.append_assoc] at hSplit
      obtain ⟨rfl, hLast⟩ := List.append_inj' hSplit rfl
      obtain rfl : i = j := by simpa using hLast
      refine .inr ⟨⟨before, after, rfl, ?_⟩, ?_⟩
      · exact fun hIn => hKept (by simp [hIn])
      · rintro rfl
        exact hKept (by simp)
  · rintro (rfl | ⟨⟨before, after, rfl, hKept⟩, hNe⟩)
    · exact ⟨is, [], rfl, by simp⟩
    · refine ⟨before, after ++ [i], by simp, ?_⟩
      simp only [List.mem_append, List.mem_singleton, not_or]
      exact ⟨hKept, hNe.symm⟩

end History

section Exact

variable {α : Type} [DecidableEq α] {v : NodeView α} {ops : ShmOps α}

/-- The tree `t` after the operations `is`. -/
structure KeyedTree (v : NodeView α) (ops : ShmOps α) (is : List (TreeOp α)) (t : BinTree α) :
    Prop where
  inOrder : InOrder v t
  hashed : ∀ x ∈ t.toList, v.key x = ops.crc32 (v.data x)
  linked : ∀ n, n ∈ t.toList ↔ Linked is n

namespace KeyedTree

variable {is : List (TreeOp α)} {t : BinTree α}

theorem nodup (h : KeyedTree v ops is t) : t.toList.Nodup := by
  refine List.Pairwise.imp ?_ h.inOrder
  rintro a b hLt rfl
  rw [nodeCmp_eq_eq.mpr rfl] at hLt
  cases hLt

theorem insert (h : KeyedTree v ops is t) {n : α} (hNew : Insertable v ops t n) :
    KeyedTree v ops (is ++ [.insert n]) (rbtreeInsert ops.rbtree (rbtreeDescend v) t n) := by
  obtain ⟨hHash, -, hFresh⟩ := hNew
  have hMem : ∀ x, x ∈ (rbtreeInsert ops.rbtree (rbtreeDescend v) t n).toList ↔
      x = n ∨ x ∈ t.toList := by
    intro x
    rw [(rbtreeInsert_perm (v := v) ops.rbtree).mem_iff, List.mem_cons]
  refine ⟨h.inOrder.rbtreeInsert _ hFresh, ?_, ?_⟩
  · intro x hx
    rcases (hMem x).mp hx with rfl | hx
    · exact hHash
    · exact h.hashed x hx
  · intro x
    rw [hMem, h.linked, linked_concat]
    simp [eq_comm]

theorem delete (h : KeyedTree v ops is t) (n : α) :
    KeyedTree v ops (is ++ [.delete n]) (ops.rbtree.delete t n) := by
  refine ⟨h.inOrder.delete _ n, ?_, ?_⟩
  · intro x hx
    rw [ops.rbtree.toList_delete] at hx
    exact h.hashed x (List.mem_of_mem_erase hx)
  · intro x
    rw [ops.rbtree.toList_delete, h.nodup.mem_erase_iff, h.linked, linked_concat]
    simp [and_comm, eq_comm]

/-- Lookup answers for the history: it finds the node inserted with these bytes and not
deleted since. -/
theorem lookup (h : KeyedTree v ops is t) (s : Bytes) (n : α) :
    t.findBy (lookupSide v (ops.crc32 s) s) = some n ↔ v.data n = s ∧ Linked is n := by
  rw [findBy_lookupSide h.inOrder h.hashed, h.linked, and_comm]

end KeyedTree

theorem keyedTree_final {is : List (TreeOp α)} (hRun : (treeMachine v ops).LegalRun .nil is) :
    KeyedTree v ops is ((treeMachine v ops).final .nil is) := by
  apply Machine.final_induction (P := KeyedTree v ops) _ _ hRun
  · exact ⟨BinTree.ordered_nil, by simp, fun n => by simp [not_linked_nil]⟩
  · intro is i _ hLegal h
    cases i with
    | insert n => exact h.insert hLegal
    | delete n => exact h.delete n

end Exact

/-- Both trees under any hash: after any sequence of insertions of absent byte strings and
of deletions, the nodes stay strictly ordered by hash, length and bytes, and lookup finds
exactly the nodes inserted and not deleted since. The insertion turns left where the lookup
of the same bytes does, and both follow `nodeCmp`. -/
theorem keyed_lookup_exact :
    (∀ (ops : ShmOps NonceNode) (is : List (TreeOp NonceNode)),
      (treeMachine nonceView ops).LegalRun .nil is →
        KeyedTree nonceView ops is ((treeMachine nonceView ops).final .nil is) ∧
        ∀ queue s n,
          nonceLookup ⟨(treeMachine nonceView ops).final .nil is, queue⟩ (ops.crc32 s) s = some n ↔
            n.data = s ∧ Linked is n) ∧
    (∀ (ops : ShmOps ThrottleNode) (is : List (TreeOp ThrottleNode)),
      (treeMachine throttleView ops).LegalRun .nil is →
        KeyedTree throttleView ops is ((treeMachine throttleView ops).final .nil is) ∧
        ∀ queue s n,
          throttleLookup ⟨(treeMachine throttleView ops).final .nil is, queue⟩ (ops.crc32 s) s =
              some n ↔
            n.data = s ∧ Linked is n) ∧
    ∀ (α : Type) (v : NodeView α) (n nt : α),
      insertLeft v n nt = (lookupSide v (v.key n) (v.data n) nt == .lt) ∧
        ∀ hash s, lookupSide v hash s nt = nodeCmp (hash, s.length, s) (v.nodeKey nt) := by
  refine ⟨?_, ?_, ?_⟩
  · intro ops is hRun
    have h := keyedTree_final hRun
    exact ⟨h, fun _ s n => h.lookup s n⟩
  · intro ops is hRun
    have h := keyedTree_final hRun
    exact ⟨h, fun _ s n => h.lookup s n⟩
  · intro α v n nt
    exact ⟨insertLeft_eq n nt, fun hash s => lookupSide_eq hash s nt⟩

/-- Every string hashes to zero. -/
def collidingOps (α : Type) [DecidableEq α] : ShmOps α := ⟨fun _ => 0, .plain⟩

def collidingNonces : List (TreeOp NonceNode) :=
  [.insert ⟨0, 100, ascii "b"⟩, .insert ⟨0, 200, ascii "a"⟩, .insert ⟨0, 300, ascii "aa"⟩,
    .delete ⟨0, 100, ascii "b"⟩]

def collidingClients : List (TreeOp ThrottleNode) :=
  [.insert ⟨0, 10, 0, 1, ascii "198.51.100.7"⟩, .insert ⟨0, 20, 50, 5, ascii "203.0.113.9"⟩,
    .delete ⟨0, 10, 0, 1, ascii "198.51.100.7"⟩]

theorem keyed_lookup_colliding :
    Linked collidingNonces ⟨0, 200, ascii "a"⟩ ∧ ¬ Linked collidingNonces ⟨0, 100, ascii "b"⟩ ∧
      Linked collidingClients ⟨0, 20, 50, 5, ascii "203.0.113.9"⟩ := by
  have hNonce := (keyed_lookup_exact.1 (collidingOps _) collidingNonces (by decide +kernel)).2 []
  have hClient :=
    (keyed_lookup_exact.2.1 (collidingOps _) collidingClients (by decide +kernel)).2 []
  refine ⟨?_, ?_, ?_⟩
  · exact ((hNonce (ascii "a") _).mp (by decide +kernel)).2
  · intro h
    have := (hNonce (ascii "b") _).mpr ⟨rfl, h⟩
    revert this
    decide +kernel
  · exact ((hClient (ascii "203.0.113.9") _).mp (by decide +kernel)).2

end PgpAuth
