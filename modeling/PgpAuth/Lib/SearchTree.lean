import Mathlib.Data.List.Basic
import Mathlib.Data.List.Perm.Basic

/-!
# Search trees known by their in-order sequence

A tree is searched and extended by descent: `insertBy` turns left where its test says
so, `findBy` follows a three-way comparison. The shape of the tree is of no interest;
every statement is about the in-order sequence `toList`.

* `Ordered`: the keys increase strictly along the in-order sequence.
* `ordered_insertBy`: a descent that turns left exactly below smaller keys keeps the
  order, when no stored key compares equal to the new one.
* `findBy_eq_some`: a descent along the same order finds exactly the stored items whose
  key compares equal.
* `Balancer`: rebalancing and deletion as a library supplies them, specified by the
  in-order sequence alone, so that no result depends on how the tree is kept balanced.
-/

namespace PgpAuth.Lib

open Std (TransCmp OrientedCmp LawfulEqCmp)

inductive BinTree (α : Type) where
  | nil
  | node (left : BinTree α) (item : α) (right : BinTree α)
  deriving DecidableEq, Repr

namespace BinTree

variable {α κ : Type}

def toList : BinTree α → List α
  | nil => []
  | node l a r => l.toList ++ a :: r.toList

@[simp] theorem toList_nil : (nil : BinTree α).toList = [] := rfl

@[simp] theorem toList_node (l r : BinTree α) (a : α) :
    (node l a r).toList = l.toList ++ a :: r.toList := rfl

/-- Hang `a` below the last node of its descent, which turns left where `left` says so. -/
def insertBy (left : α → α → Bool) (a : α) : BinTree α → BinTree α
  | nil => node nil a nil
  | node l b r =>
      if left a b then node (l.insertBy left a) b r else node l b (r.insertBy left a)

/-- Descend by the comparison of the wanted key with the item met. -/
def findBy (side : α → Ordering) : BinTree α → Option α
  | nil => none
  | node l b r =>
      match side b with
      | .lt => l.findBy side
      | .gt => r.findBy side
      | .eq => some b

/-- Change every item in place. -/
def map (f : α → α) : BinTree α → BinTree α
  | nil => nil
  | node l a r => node (l.map f) (f a) (r.map f)

@[simp] theorem toList_map (f : α → α) (t : BinTree α) : (t.map f).toList = t.toList.map f := by
  induction t with
  | nil => rfl
  | node l a r ihl ihr => simp [map, ihl, ihr]

/-- A tree with a given in-order sequence. -/
def ofList : List α → BinTree α
  | [] => nil
  | a :: as => node nil a (ofList as)

@[simp] theorem toList_ofList (as : List α) : (ofList as).toList = as := by
  induction as with
  | nil => rfl
  | cons a as ih => simp [ofList, ih]

theorem toList_insertBy_perm (left : α → α → Bool) (a : α) (t : BinTree α) :
    (t.insertBy left a).toList.Perm (a :: t.toList) := by
  induction t with
  | nil => exact .refl _
  | node l b r ihl ihr =>
      rw [insertBy]
      split
      · exact ihl.append_right _
      · have hr : (b :: (r.insertBy left a).toList).Perm (a :: b :: r.toList) :=
          (ihr.cons b).trans (.swap a b _)
        exact (hr.append_left _).trans List.perm_middle

theorem mem_toList_insertBy {left : α → α → Bool} {a x : α} {t : BinTree α} :
    x ∈ (t.insertBy left a).toList ↔ x = a ∨ x ∈ t.toList := by
  rw [(toList_insertBy_perm left a t).mem_iff, List.mem_cons]

section Order

variable (key : α → κ) (cmp : κ → κ → Ordering)

/-- Keys increase strictly along the in-order sequence. -/
def Ordered (t : BinTree α) : Prop :=
  t.toList.Pairwise (fun a b => cmp (key a) (key b) = .lt)

variable {key cmp}

theorem ordered_nil : Ordered key cmp (nil : BinTree α) := List.Pairwise.nil

theorem ordered_node {l r : BinTree α} {b : α} :
    Ordered key cmp (node l b r) ↔
      Ordered key cmp l ∧ Ordered key cmp r ∧
        (∀ x ∈ l.toList, cmp (key x) (key b) = .lt) ∧
        (∀ x ∈ r.toList, cmp (key b) (key x) = .lt) ∧
        ∀ x ∈ l.toList, ∀ y ∈ r.toList, cmp (key x) (key y) = .lt := by
  simp only [Ordered, toList_node, List.pairwise_append, List.pairwise_cons,
    List.forall_mem_cons]
  constructor
  · rintro ⟨hl, ⟨hbr, hr⟩, hlr⟩
    exact ⟨hl, hr, fun x hx => (hlr x hx).1, hbr, fun x hx => (hlr x hx).2⟩
  · rintro ⟨hl, hr, hlb, hbr, hlr⟩
    exact ⟨hl, ⟨hbr, hr⟩, fun x hx => ⟨hlb x hx, hlr x hx⟩⟩

variable [TransCmp cmp]

theorem ordered_insertBy {left : α → α → Bool} {a : α}
    (hLeft : ∀ b, left a b = true ↔ cmp (key a) (key b) = .lt) {t : BinTree α}
    (hFresh : ∀ b ∈ t.toList, cmp (key a) (key b) ≠ .eq) (h : Ordered key cmp t) :
    Ordered key cmp (t.insertBy left a) := by
  induction t with
  | nil => simp [insertBy, Ordered]
  | node l b r ihl ihr =>
      obtain ⟨hl, hr, hlb, hbr, hlr⟩ := ordered_node.mp h
      have hFreshL : ∀ x ∈ l.toList, cmp (key a) (key x) ≠ .eq :=
        fun x hx => hFresh x (by simp [hx])
      have hFreshR : ∀ x ∈ r.toList, cmp (key a) (key x) ≠ .eq :=
        fun x hx => hFresh x (by simp [hx])
      rw [insertBy]
      split
      · rename_i hab
        have hlt := (hLeft b).mp hab
        refine ordered_node.mpr ⟨ihl hFreshL hl, hr, ?_, hbr, ?_⟩
        · intro x hx
          rcases mem_toList_insertBy.mp hx with rfl | hx
          · exact hlt
          · exact hlb x hx
        · intro x hx y hy
          rcases mem_toList_insertBy.mp hx with rfl | hx
          · exact TransCmp.lt_trans hlt (hbr y hy)
          · exact hlr x hx y hy
      · rename_i hab
        have hgt : cmp (key b) (key a) = .lt := by
          have hne := hFresh b (by simp)
          have hnl : cmp (key a) (key b) ≠ .lt := fun h => hab ((hLeft b).mpr h)
          rw [← OrientedCmp.gt_iff_lt]
          cases hc : cmp (key a) (key b) <;> simp_all
        refine ordered_node.mpr ⟨hl, ihr hFreshR hr, hlb, ?_, ?_⟩
        · intro x hx
          rcases mem_toList_insertBy.mp hx with rfl | hx
          · exact hgt
          · exact hbr x hx
        · intro x hx y hy
          rcases mem_toList_insertBy.mp hy with rfl | hy
          · exact TransCmp.lt_trans (hlb x hx) hgt
          · exact hlr x hx y hy

/-- Along the order of the tree the descent misses nothing: it stops at the items whose
key compares equal to the wanted one. -/
theorem findBy_eq_some {k : κ} {side : α → Ordering} (hSide : ∀ b, side b = cmp k (key b))
    {t : BinTree α} (h : Ordered key cmp t) {b : α} :
    t.findBy side = some b ↔ b ∈ t.toList ∧ cmp k (key b) = .eq := by
  induction t with
  | nil => simp [findBy]
  | node l c r ihl ihr =>
      obtain ⟨hl, hr, hlc, hcr, hlr⟩ := ordered_node.mp h
      rw [findBy, hSide]
      cases hc : cmp k (key c) with
      | lt =>
          simp only [ihl hl, toList_node, List.mem_append, List.mem_cons]
          constructor
          · exact fun hb => ⟨.inl hb.1, hb.2⟩
          · rintro ⟨hb | rfl | hb, he⟩
            · exact ⟨hb, he⟩
            · simp [hc] at he
            · rw [TransCmp.lt_trans hc (hcr b hb)] at he
              cases he
      | eq =>
          simp only [Option.some.injEq, toList_node, List.mem_append, List.mem_cons]
          constructor
          · rintro rfl
            exact ⟨.inr (.inl rfl), hc⟩
          · rintro ⟨hb | rfl | hb, he⟩
            · have := TransCmp.lt_of_lt_of_eq (hlc b hb) (OrientedCmp.eq_symm hc)
              rw [← OrientedCmp.gt_iff_lt, he] at this
              cases this
            · rfl
            · rw [TransCmp.lt_of_eq_of_lt hc (hcr b hb)] at he
              cases he
      | gt =>
          have hck : cmp (key c) k = .lt := OrientedCmp.lt_of_gt hc
          simp only [ihr hr, toList_node, List.mem_append, List.mem_cons]
          constructor
          · exact fun hb => ⟨.inr (.inr hb.1), hb.2⟩
          · rintro ⟨hb | rfl | hb, he⟩
            · have := TransCmp.lt_trans (hlc b hb) hck
              rw [← OrientedCmp.gt_iff_lt, he] at this
              cases this
            · simp [hc] at he
            · exact ⟨hb, he⟩

end Order

end BinTree

/-- Rebalancing after an insertion and deletion of a node, as a balanced-tree library
supplies them: known only by the in-order sequence they leave. -/
structure Balancer (α : Type) [DecidableEq α] where
  rebalance : BinTree α → BinTree α
  delete : BinTree α → α → BinTree α
  toList_rebalance : ∀ t, (rebalance t).toList = t.toList
  toList_delete : ∀ t a, (delete t a).toList = t.toList.erase a

namespace Balancer

variable {α : Type} [DecidableEq α]

/-- No rebalancing at all; deletion rebuilds the tree. -/
def plain : Balancer α where
  rebalance := id
  delete t a := .ofList (t.toList.erase a)
  toList_rebalance _ := rfl
  toList_delete _ _ := BinTree.toList_ofList _

end Balancer

end PgpAuth.Lib
