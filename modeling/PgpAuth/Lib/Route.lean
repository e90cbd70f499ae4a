import Mathlib.Algebra.BigOperators.Group.Finset.Piecewise
import Mathlib.Algebra.Order.BigOperators.Group.Finset
import PgpAuth.Lib.Run

/-!
# Machines made of components

A machine may hand an input on to one of several components that are machines themselves;
which one can depend on its state. `Routing` says how: a routed input is a legal step of its
component, is answered as the component answers it and changes no other component, and the
remaining inputs change none.

* `answersOf_eq`, `legalRun_inputsOf`: seen from a component, a run of the whole is a run of
  its own.
* `countP_handled_le_card`: where every component grants something at most once, the whole
  grants it at most once for each component.
-/

namespace PgpAuth.Lib

structure Routing {S I W σ ι ω : Type} (M : Machine S I W) (m : Machine σ ι ω) (κ : Type) where
  route : S → I → Option (κ × ι)
  part : S → κ → σ
  read : W → Option ω
  mine : ∀ {s i k x}, M.legal s i → route s i = some (k, x) →
    m.legal (part s k) x ∧ read (M.step s i).1 = some (m.step (part s k) x).1 ∧
      part (M.step s i).2 k = (m.step (part s k) x).2
  other : ∀ {s i k}, M.legal s i → (∀ x, route s i ≠ some (k, x)) →
    part (M.step s i).2 k = part s k

namespace Routing

variable {S I W σ ι ω κ : Type} {M : Machine S I W} {m : Machine σ ι ω}
  (R : Routing M m κ)

/-- The component an input goes to, the input as it gets there, and the answer. -/
def handles (s : S) (i : I) : Option (κ × ι × ω) :=
  match R.route s i, R.read (M.step s i).1 with
  | some (k, x), some w => some (k, x, w)
  | _, _ => none

/-- All that is handed on in a run. -/
def handled : S → List I → List (κ × ι × ω)
  | _, [] => []
  | s, i :: is => (R.handles s i).toList ++ handled (M.step s i).2 is

def answersOf [DecidableEq κ] (k : κ) (s : S) (is : List I) : List (ι × ω) :=
  (R.handled s is).filterMap fun a => if a.1 = k then some a.2 else none

def inputsOf [DecidableEq κ] (k : κ) (s : S) (is : List I) : List ι :=
  (R.answersOf k s is).map Prod.fst

variable {R} {s : S} {i : I} {is : List I} {k : κ}

theorem handles_of_route {x : ι} (hLegal : M.legal s i) (hRoute : R.route s i = some (k, x)) :
    R.handles s i = some (k, x, (m.step (R.part s k) x).1) := by
  rw [handles, hRoute, (R.mine hLegal hRoute).2.1]

theorem handles_of_not_route (hRoute : R.route s i = none) : R.handles s i = none := by
  rw [handles, hRoute]

variable [DecidableEq κ]

theorem answersOf_cons :
    R.answersOf k s (i :: is) =
      ((R.handles s i).toList.filterMap fun a => if a.1 = k then some a.2 else none) ++
        R.answersOf k (M.step s i).2 is := by
  rw [answersOf, handled, List.filterMap_append]
  rfl

/-- The first input of a run, seen from a component: it is handed on to it, or it is not
noticed. -/
theorem answersOf_cons_cases (hLegal : M.legal s i) :
    (∃ x, m.legal (R.part s k) x ∧ R.part (M.step s i).2 k = (m.step (R.part s k) x).2 ∧
      R.answersOf k s (i :: is) =
        (x, (m.step (R.part s k) x).1) :: R.answersOf k (M.step s i).2 is) ∨
    R.part (M.step s i).2 k = R.part s k ∧
      R.answersOf k s (i :: is) = R.answersOf k (M.step s i).2 is := by
  rw [answersOf_cons]
  cases hRoute : R.route s i with
  | none =>
      refine .inr ⟨R.other hLegal fun x => by simp [hRoute], ?_⟩
      rw [handles_of_not_route hRoute]
      rfl
  | some a =>
      obtain ⟨k', x⟩ := a
      rw [handles_of_route hLegal hRoute]
      by_cases hk : k' = k
      · subst hk
        obtain ⟨hx, -, hPart⟩ := R.mine hLegal hRoute
        refine .inl ⟨x, hx, hPart, ?_⟩
        simp
      · refine .inr ⟨R.other hLegal fun x' => ?_, ?_⟩
        · rw [hRoute]
          simp [hk]
        · simp [hk]

/-- Seen from a component, a run of the whole is a run of its own. -/
theorem answersOf_eq (hRun : M.LegalRun s is) :
    R.answersOf k s is = m.answers (R.part s k) (R.inputsOf k s is) := by
  induction is generalizing s with
  | nil => rfl
  | cons i is ih =>
      have hRest := ih hRun.2
      rw [inputsOf] at hRest ⊢
      obtain ⟨x, -, hPart, hAns⟩ | ⟨hPart, hAns⟩ :=
        answersOf_cons_cases (R := R) (k := k) hRun.1
      · rw [hAns, List.map_cons, Machine.answers, ← hPart, ← hRest]
      · rw [hAns, ← hPart, ← hRest]

theorem legalRun_inputsOf (hRun : M.LegalRun s is) :
    m.LegalRun (R.part s k) (R.inputsOf k s is) := by
  induction is generalizing s with
  | nil => trivial
  | cons i is ih =>
      have hRest := ih hRun.2
      rw [inputsOf] at hRest ⊢
      obtain ⟨x, hx, hPart, hAns⟩ | ⟨hPart, hAns⟩ :=
        answersOf_cons_cases (R := R) (k := k) hRun.1
      · rw [hAns]
        exact ⟨hx, by rwa [← hPart]⟩
      · rwa [hAns, ← hPart]

/-- A run that uses one component only. -/
theorem answersOf_of_only (h : ∀ a ∈ R.handled s is, a.1 = k) :
    R.answersOf k s is = (R.handled s is).map Prod.snd := by
  rw [answersOf, ← List.filterMap_eq_map]
  refine List.filterMap_congr fun a ha => ?_
  rw [if_pos (h a ha)]
  rfl

/-- Counting by component. -/
theorem countP_eq_sum {α : Type} (grants : α → Bool) (ks : Finset κ) (as : List (κ × α))
    (h : ∀ a ∈ as, a.1 ∈ ks) :
    as.countP (fun a => grants a.2) =
      ∑ k ∈ ks, (as.filterMap fun a => if a.1 = k then some a.2 else none).countP grants := by
  induction as with
  | nil => simp
  | cons a as ih =>
      have hRest := ih fun b hb => h b (List.mem_cons_of_mem a hb)
      have hMine (k : κ) : ((a :: as).filterMap fun b => if b.1 = k then some b.2 else none).countP
          grants = (if a.1 = k then (if grants a.2 then 1 else 0) else 0) +
            (as.filterMap fun b => if b.1 = k then some b.2 else none).countP grants := by
        by_cases hk : a.1 = k
        · simp [hk, List.countP_cons, Nat.add_comm]
        · simp [hk]
      rw [List.countP_cons, hRest, Finset.sum_congr rfl fun k _ => hMine k,
        Finset.sum_add_distrib, Finset.sum_ite_eq, if_pos (h a List.mem_cons_self), Nat.add_comm]

theorem countP_handled_le_card (grants : ι × ω → Bool) (ks : Finset κ)
    (hKeys : ∀ a ∈ R.handled s is, a.1 ∈ ks) (hRun : M.LegalRun s is)
    (hOnce : ∀ k ∈ ks, ∀ xs, m.LegalRun (R.part s k) xs →
      (m.answers (R.part s k) xs).countP grants ≤ 1) :
    (R.handled s is).countP (fun a => grants a.2) ≤ ks.card := by
  rw [countP_eq_sum grants ks _ hKeys]
  calc
    ∑ k ∈ ks, (R.answersOf k s is).countP grants ≤ ∑ _k ∈ ks, 1 := by
      refine Finset.sum_le_sum fun k hk => ?_
      rw [answersOf_eq hRun]
      exact hOnce k hk _ (legalRun_inputsOf hRun)
    _ = ks.card := (Finset.card_eq_sum_ones ks).symm

end Routing

end PgpAuth.Lib
