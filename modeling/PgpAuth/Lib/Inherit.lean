import Mathlib.Data.List.Basic

/-!
# Settings inherited through nested blocks

A chain of blocks is given from the inside out. `settled merge outer blocks` merges it from
the outside in, each block into what its surroundings were merged to, and fails with the
first block that does. `nearest d` is the law such a chain is meant to follow: the innermost
written value, or the default.

* `settled_invariant`: what holds of the outermost block and is kept by every merge.
* `settled_nearest`: the rule for one field. A merge may store another value than the one
  it inherits, as long as `f` does not tell them apart; then `f` sees the nearest value.
-/

namespace PgpAuth.Lib

variable {α β γ σ ε : Type}

/-- The first written value, or the default. -/
def nearest (d : α) (values : List (Option α)) : α := (values.findSome? id).getD d

@[simp] theorem nearest_nil (d : α) : nearest d [] = d := rfl

@[simp] theorem nearest_cons (d : α) (o : Option α) (values : List (Option α)) :
    nearest d (o :: values) = o.getD (nearest d values) := by
  cases o <;> rfl

theorem nearest_of_findSome {d v : α} {values : List (Option α)}
    (h : values.findSome? id = some v) : nearest d values = v := by
  rw [nearest, h, Option.getD_some]

theorem getD_congr {f : α → γ} {x y : α} (o : Option α) (h : f x = f y) :
    f (o.getD x) = f (o.getD y) := by
  cases o with
  | none => exact h
  | some v => rfl

theorem bind_eq_ok {x : Except ε α} {f : α → Except ε γ} {c : γ} :
    (x >>= f) = .ok c ↔ ∃ a, x = .ok a ∧ f a = .ok c := by
  cases x with
  | error e => simp [Bind.bind, Except.bind]
  | ok a => simp [Bind.bind, Except.bind]

theorem map_eq_ok {x : Except ε α} {f : α → γ} {c : γ} :
    x.map f = .ok c ↔ ∃ a, x = .ok a ∧ f a = c := by
  cases x with
  | error e => simp [Except.map]
  | ok a => simp [Except.map]

section Settled

variable (merge : β → σ → Except ε σ) (outer : σ)

/-- Every block merged into its surroundings; the innermost block comes first. -/
def settled : List β → Except ε σ
  | [] => .ok outer
  | b :: blocks => settled blocks >>= merge b

variable {merge outer}

theorem settled_cons_ok {b : β} {blocks : List β} {s : σ} :
    settled merge outer (b :: blocks) = .ok s ↔
      ∃ prev, settled merge outer blocks = .ok prev ∧ merge b prev = .ok s :=
  bind_eq_ok

theorem settled_invariant (Inv : List β → σ → Prop) (h0 : Inv [] outer)
    (hStep : ∀ b blocks prev s, Inv blocks prev → merge b prev = .ok s → Inv (b :: blocks) s) :
    ∀ {blocks : List β} {s : σ}, settled merge outer blocks = .ok s → Inv blocks s := by
  intro blocks
  induction blocks with
  | nil =>
      intro s hs
      cases hs
      exact h0
  | cons b blocks ih =>
      intro s hs
      obtain ⟨prev, hPrev, hMerge⟩ := settled_cons_ok.mp hs
      exact hStep b blocks prev s (ih hPrev) hMerge

theorem settled_nearest (field : σ → Option α) (written : β → Option α) (d : α) (f : α → γ)
    (hStep : ∀ b prev s, merge b prev = .ok s →
      f ((field s).getD d) = f ((written b).getD ((field prev).getD d)))
    {blocks : List β} {s : σ} (hs : settled merge outer blocks = .ok s) :
    f ((field s).getD d) = f (nearest d (blocks.map written ++ [field outer])) := by
  refine settled_invariant (fun blocks s =>
    f ((field s).getD d) = f (nearest d (blocks.map written ++ [field outer]))) ?_ ?_ hs
  · simp
  · intro b blocks prev s ih hMerge
    rw [hStep b prev s hMerge, List.map_cons, List.cons_append, nearest_cons]
    exact getD_congr (written b) ih

end Settled

end PgpAuth.Lib
