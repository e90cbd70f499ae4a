import Mathlib.Data.Finset.Basic

/-!
# Accounting for resources along a trace of calls

A `Traced` computation has a result and the calls it made. Each call stands for some
operations on resources: it takes one, uses one that is held, or gives one back. `settle`
replays the operations from the set of resources held before; it fails where a resource is
taken twice, used while it is not held, or given back twice, and otherwise gives what is
held in the end.

`Settles` is the triple that goes with it: from `held`, the computation stays within its
rights and ends holding `Q` of its result. `settles_pure`, `settles_call` and
`settles_bind` follow the program text. `Shows` is the same for what an observer sees of
the calls.
-/

namespace PgpAuth.Lib

structure Traced (κ α : Type) where
  val : α
  calls : List κ
  deriving DecidableEq, Repr

namespace Traced

variable {κ α β : Type}

instance : Monad (Traced κ) where
  pure a := ⟨a, []⟩
  bind x f := ⟨(f x.val).val, x.calls ++ (f x.val).calls⟩

def call (c : κ) : Traced κ Unit := ⟨(), [c]⟩

@[simp] theorem val_pure (a : α) : (pure a : Traced κ α).val = a := rfl

@[simp] theorem calls_pure (a : α) : (pure a : Traced κ α).calls = [] := rfl

@[simp] theorem val_bind (x : Traced κ α) (f : α → Traced κ β) :
    (x >>= f).val = (f x.val).val := rfl

@[simp] theorem calls_bind (x : Traced κ α) (f : α → Traced κ β) :
    (x >>= f).calls = x.calls ++ (f x.val).calls := rfl

@[simp] theorem val_call (c : κ) : (call c).val = () := rfl

@[simp] theorem calls_call (c : κ) : (call c).calls = [c] := rfl

end Traced

inductive Op (ρ : Type) where
  | acquire (r : ρ)
  | use (r : ρ)
  | release (r : ρ)
  deriving DecidableEq, Repr

section Settle

variable {ρ : Type} [DecidableEq ρ]

def settle (held : Finset ρ) : List (Op ρ) → Option (Finset ρ)
  | [] => some held
  | .acquire r :: ops => if r ∈ held then none else settle (insert r held) ops
  | .use r :: ops => if r ∈ held then settle held ops else none
  | .release r :: ops => if r ∈ held then settle (held.erase r) ops else none

theorem settle_acquire {held : Finset ρ} {r : ρ} (h : r ∉ held) (ops : List (Op ρ)) :
    settle held (.acquire r :: ops) = settle (insert r held) ops := by
  rw [settle, if_neg h]

theorem settle_use {held : Finset ρ} {r : ρ} (h : r ∈ held) (ops : List (Op ρ)) :
    settle held (.use r :: ops) = settle held ops := by
  rw [settle, if_pos h]

/-- What was taken can be given back. -/
theorem settle_release {held : Finset ρ} {r : ρ} (h : r ∉ held) (ops : List (Op ρ)) :
    settle (insert r held) (.release r :: ops) = settle held ops := by
  rw [settle, if_pos (Finset.mem_insert_self r held), Finset.erase_insert h]

theorem settle_append (held : Finset ρ) (ops ops' : List (Op ρ)) :
    settle held (ops ++ ops') = (settle held ops).bind (settle · ops') := by
  induction ops generalizing held with
  | nil => rfl
  | cons o ops ih =>
      cases o with
      | acquire r | use r | release r =>
          simp only [List.cons_append, settle, ih]
          split <;> rfl

end Settle

namespace Traced

section Settles

variable {κ ρ α β : Type} [DecidableEq ρ] (ops : κ → List (Op ρ))

/-- What the calls of `x` do to the resources. -/
def Settles (held : Finset ρ) (x : Traced κ α) (Q : α → Finset ρ) : Prop :=
  settle held (x.calls.flatMap ops) = some (Q x.val)

variable {ops} {held : Finset ρ}

theorem settles_pure {a : α} {Q : α → Finset ρ} (h : Q a = held) :
    Settles ops held (pure a) Q := by
  rw [Settles, val_pure, h]
  rfl

theorem settles_call {c : κ} {Q : Unit → Finset ρ} (h : settle held (ops c) = some (Q ())) :
    Settles ops held (call c) Q := by
  rw [Settles, calls_call, List.flatMap_singleton]
  exact h

theorem settles_bind {x : Traced κ α} {f : α → Traced κ β} {Q : α → Finset ρ} {R : β → Finset ρ}
    (hx : Settles ops held x Q) (hf : Settles ops (Q x.val) (f x.val) R) :
    Settles ops held (x >>= f) R := by
  rw [Settles, calls_bind, List.flatMap_append, settle_append, hx]
  exact hf

/-- One call, then the rest. -/
theorem settles_call_bind {c : κ} {f : Unit → Traced κ β} {held' : Finset ρ} {R : β → Finset ρ}
    (hc : settle held (ops c) = some held') (hf : Settles ops held' (f ()) R) :
    Settles ops held (call c >>= f) R :=
  settles_bind (Q := fun _ => held') (settles_call hc) hf

end Settles

section Shows

variable {κ γ α β : Type} (obs : κ → List γ)

/-- What there is to see of the calls, as the result tells it. -/
def Shows (x : Traced κ α) (L : α → List γ) : Prop := x.calls.flatMap obs = L x.val

variable {obs}

theorem shows_pure {a : α} {L : α → List γ} (h : L a = []) : Shows obs (pure a) L := h.symm

theorem shows_bind {x : Traced κ α} {f : α → Traced κ β} {L : α → List γ} {M : β → List γ}
    (hx : Shows obs x L) (hf : Shows obs (f x.val) M) :
    Shows obs (x >>= f) (fun b => L x.val ++ M b) := by
  rw [Shows, calls_bind, List.flatMap_append, hx, hf]
  rfl

/-- Nothing to see at first. -/
theorem shows_of_silent {x : Traced κ α} {f : α → Traced κ β} {M : β → List γ}
    (hx : Shows obs x (fun _ => [])) (hf : Shows obs (f x.val) M) : Shows obs (x >>= f) M :=
  shows_bind hx hf

/-- Nothing to see afterwards. -/
theorem shows_then_silent {x : Traced κ α} {f : α → Traced κ β} {L : α → List γ}
    {M : β → List γ} (hx : Shows obs x L) (hf : Shows obs (f x.val) (fun _ => []))
    (h : L x.val = M (f x.val).val) : Shows obs (x >>= f) M := by
  have hAll := shows_bind hx hf
  rw [Shows, List.append_nil, h] at hAll
  exact hAll

theorem shows_call {c : κ} {L : Unit → List γ} (h : obs c = L ()) : Shows obs (call c) L := by
  rw [Shows, calls_call, List.flatMap_singleton]
  exact h

/-- A call that shows nothing, then the rest. -/
theorem shows_call_bind {c : κ} {f : Unit → Traced κ β} {M : β → List γ} (hc : obs c = [])
    (hf : Shows obs (f ()) M) : Shows obs (call c >>= f) M :=
  shows_of_silent (shows_call hc) hf

end Shows

end Traced

end PgpAuth.Lib
