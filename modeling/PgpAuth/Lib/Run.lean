import Mathlib.Data.List.Count
import Mathlib.Data.List.Induction

/-!
# Runs of a machine that answers its inputs

A `Machine` answers each input and moves on; `legal` says which inputs the environment
may present in a state, so a claim about all runs under some assumption is a claim about
the legal runs. A condition on single steps is added with `restrict`.

* `final_invariant`: what every legal step preserves holds at the end of every legal run.
* `history_invariant`: the same for a relation between the state and the inputs and
  answers that led to it.
* `final_induction`: the same with the inputs alone, in the order they came.
* `filter_answers_eq`: the rule for a part of a machine. Where one part takes some of the
  inputs and the others do not disturb it, it answers them as a machine of its own.
* `final_filterMap`: the rule for a finer machine. Where each of its steps is a step of the
  coarser one or goes unnoticed there, so is every run, and it is legal there where its
  steps are.
* `countP_answers_le_one`: the rule for single-use resources. A granting answer leaves a
  mark, the mark outlives every legal step and rules out a second grant.
-/

namespace PgpAuth.Lib

structure Machine (σ ι ω : Type) where
  step : σ → ι → ω × σ
  legal : σ → ι → Prop

namespace Machine

variable {σ ι ω : Type} (m : Machine σ ι ω)

/-- The inputs of a run, each beside the answer it got. -/
def answers : σ → List ι → List (ι × ω)
  | _, [] => []
  | s, i :: is => (i, (m.step s i).1) :: answers (m.step s i).2 is

def final : σ → List ι → σ
  | s, [] => s
  | s, i :: is => final (m.step s i).2 is

/-- Every input is legal in the state it meets. -/
def LegalRun : σ → List ι → Prop
  | _, [] => True
  | s, i :: is => m.legal s i ∧ LegalRun (m.step s i).2 is

instance decidableLegalRun [∀ s i, Decidable (m.legal s i)] :
    ∀ s is, Decidable (m.LegalRun s is)
  | _, [] => isTrue trivial
  | s, i :: is =>
      have := decidableLegalRun (m.step s i).2 is
      inferInstanceAs (Decidable (_ ∧ _))

/-- The same machine, with a further condition on every step. -/
def restrict (P : σ → ι → Prop) : Machine σ ι ω where
  step := m.step
  legal s i := m.legal s i ∧ P s i

instance decidableRestrict (P : σ → ι → Prop) [∀ s i, Decidable (m.legal s i)]
    [∀ s i, Decidable (P s i)] (s : σ) (i : ι) : Decidable ((m.restrict P).legal s i) :=
  inferInstanceAs (Decidable (_ ∧ _))

variable {m}

@[simp] theorem restrict_step (P : σ → ι → Prop) : (m.restrict P).step = m.step := rfl

theorem final_restrict (P : σ → ι → Prop) (s : σ) (is : List ι) :
    (m.restrict P).final s is = m.final s is := by
  induction is generalizing s with
  | nil => rfl
  | cons i is ih => simp only [final, restrict_step, ih]

theorem answers_restrict (P : σ → ι → Prop) (s : σ) (is : List ι) :
    (m.restrict P).answers s is = m.answers s is := by
  induction is generalizing s with
  | nil => rfl
  | cons i is ih => simp only [answers, restrict_step, ih]

theorem final_append (s : σ) (is js : List ι) :
    m.final s (is ++ js) = m.final (m.final s is) js := by
  induction is generalizing s with
  | nil => rfl
  | cons i is ih => simp only [List.cons_append, final, ih]

theorem legalRun_append {s : σ} {is js : List ι} :
    m.LegalRun s (is ++ js) ↔ m.LegalRun s is ∧ m.LegalRun (m.final s is) js := by
  induction is generalizing s with
  | nil => simp [LegalRun, final]
  | cons i is ih => simp only [List.cons_append, LegalRun, final, ih, and_assoc]

theorem legalRun_of_forall (h : ∀ s i, m.legal s i) (s : σ) (is : List ι) : m.LegalRun s is := by
  induction is generalizing s with
  | nil => trivial
  | cons i is ih => exact ⟨h s i, ih _⟩

/-- The further condition holds at every step of a legal run. -/
theorem legalRun_restrict_iff {P : σ → ι → Prop} {s : σ} {is : List ι} :
    (m.restrict P).LegalRun s is ↔
      m.LegalRun s is ∧ ∀ before i after, is = before ++ i :: after → P (m.final s before) i := by
  induction is generalizing s with
  | nil => simp [LegalRun]
  | cons i is ih =>
      simp only [LegalRun, restrict_step, ih]
      constructor
      · rintro ⟨⟨hLegal, hP⟩, hRun, hRest⟩
        refine ⟨⟨hLegal, hRun⟩, ?_⟩
        intro before j after hSplit
        cases before with
        | nil =>
            obtain ⟨rfl, -⟩ := List.cons.inj hSplit
            exact hP
        | cons k before =>
            obtain ⟨rfl, hTail⟩ := List.cons.inj hSplit
            exact hRest before j after hTail
      · rintro ⟨⟨hLegal, hRun⟩, hAll⟩
        refine ⟨⟨hLegal, hAll [] i is rfl⟩, hRun, ?_⟩
        intro before j after hSplit
        exact hAll (i :: before) j after (by rw [hSplit, List.cons_append])

/-- Every way to point at one input of a run is a position in it. -/
theorem forall_split_iff {P : List ι → ι → List ι → Prop} {is : List ι} :
    (∀ before i after, is = before ++ i :: after → P before i after) ↔
      ∀ k, (h : k < is.length) → P (is.take k) is[k] (is.drop (k + 1)) := by
  constructor
  · intro hAll k hk
    apply hAll
    rw [← List.drop_eq_getElem_cons hk, List.take_append_drop]
  · rintro hAll before i after rfl
    have hAt := hAll before.length (by simp)
    simpa using hAt

theorem final_invariant {Inv : σ → Prop}
    (hStep : ∀ s i, m.legal s i → Inv s → Inv (m.step s i).2)
    {s : σ} {is : List ι} (hRun : m.LegalRun s is) (h : Inv s) : Inv (m.final s is) := by
  induction is generalizing s with
  | nil => exact h
  | cons i is ih => exact ih hRun.2 (hStep s i hRun.1 h)

/-- What every step preserves, legal or not. -/
theorem final_of_step {Inv : σ → Prop} (hStep : ∀ s i, Inv s → Inv (m.step s i).2) {s : σ}
    (h : Inv s) (is : List ι) : Inv (m.final s is) := by
  induction is generalizing s with
  | nil => exact h
  | cons i is ih => exact ih (hStep s i h)

/-- Induction along a run: a relation between the inputs so far and the state they led to. -/
theorem final_induction {P : List ι → σ → Prop} {s : σ} (hNil : P [] s)
    (hStep : ∀ is i, m.LegalRun s is → m.legal (m.final s is) i → P is (m.final s is) →
      P (is ++ [i]) (m.step (m.final s is) i).2)
    {is : List ι} (hRun : m.LegalRun s is) : P is (m.final s is) := by
  induction is using List.reverseRecOn with
  | nil => exact hNil
  | append_singleton is i ih =>
      obtain ⟨hBefore, hLegal, -⟩ := legalRun_append.mp hRun
      rw [final_append]
      exact hStep is i hBefore hLegal (ih hBefore)

section History

variable (Inv : List (ι × ω) → σ → Prop)
  (hStep : ∀ past s i, m.legal s i → Inv past s →
    Inv ((i, (m.step s i).1) :: past) (m.step s i).2)

include hStep

theorem history_invariant_from {s : σ} {is : List ι} (hRun : m.LegalRun s is)
    {past : List (ι × ω)} (h : Inv past s) :
    Inv ((m.answers s is).reverse ++ past) (m.final s is) := by
  induction is generalizing s past with
  | nil => simpa [answers, final] using h
  | cons i is ih =>
      have hRest := ih hRun.2 (hStep past s i hRun.1 h)
      simpa [answers, final] using hRest

/-- A relation between the state and its history, latest first. -/
theorem history_invariant {s : σ} {is : List ι} (hRun : m.LegalRun s is) (h : Inv [] s) :
    Inv (m.answers s is).reverse (m.final s is) := by
  have := history_invariant_from Inv hStep hRun h
  rwa [List.append_nil] at this

end History

/-- Simulation of a part: inputs in `mine` are answered alike by both machines, and the
others do not disturb the relation. -/
theorem filter_answers_eq {τ : Type} {m' : Machine τ ι ω} (mine : ι → Bool) (R : σ → τ → Prop)
    (hMine : ∀ s t i, m.legal s i → R s t → mine i = true →
      (m.step s i).1 = (m'.step t i).1 ∧ R (m.step s i).2 (m'.step t i).2)
    (hOther : ∀ s t i, m.legal s i → R s t → mine i = false → R (m.step s i).2 t)
    {s : σ} {t : τ} {is : List ι} (hRun : m.LegalRun s is) (h : R s t) :
    (m.answers s is).filter (fun a => mine a.1) = m'.answers t (is.filter mine) := by
  induction is generalizing s t with
  | nil => rfl
  | cons i is ih =>
      rw [answers]
      cases hi : mine i with
      | true =>
          obtain ⟨hAns, hNext⟩ := hMine s t i hRun.1 h hi
          simp only [List.filter_cons, hi, if_true, answers, hAns, ih hRun.2 hNext]
      | false =>
          have hNext := hOther s t i hRun.1 h hi
          simpa [List.filter_cons, hi] using ih hRun.2 hNext

/-- Simulation with steps left out: an input stands for one of the other machine, or changes
nothing that the other machine sees. -/
theorem final_filterMap {τ κ ν : Type} {Inv : σ → Prop} (m' : Machine τ κ ν) (view : σ → τ)
    (input : ι → Option κ)
    (hStep : ∀ s i, m.legal s i → Inv s → Inv (m.step s i).2)
    (hSeen : ∀ s i k, m.legal s i → Inv s → input i = some k →
      view (m.step s i).2 = (m'.step (view s) k).2)
    (hUnseen : ∀ s i, m.legal s i → Inv s → input i = none → view (m.step s i).2 = view s)
    {s : σ} {is : List ι} (hRun : m.LegalRun s is) (h : Inv s) :
    view (m.final s is) = m'.final (view s) (is.filterMap input) ∧
      (m'.LegalRun (view s) (is.filterMap input) ↔
        (m.restrict fun s i => ∀ k ∈ input i, m'.legal (view s) k).LegalRun s is) := by
  induction is generalizing s with
  | nil => exact ⟨rfl, Iff.rfl⟩
  | cons i is ih =>
      obtain ⟨hFinal, hLegal⟩ := ih hRun.2 (hStep s i hRun.1 h)
      cases hi : input i with
      | none =>
          have hView := hUnseen s i hRun.1 h hi
          rw [List.filterMap_cons_none hi, ← hView]
          have hNone : ∀ k ∈ input i, m'.legal (view s) k := by simp [hi]
          exact ⟨hFinal, hLegal.trans ⟨fun hRest => ⟨⟨hRun.1, hNone⟩, hRest⟩, fun hAll => hAll.2⟩⟩
      | some k =>
          have hView := hSeen s i k hRun.1 h hi
          rw [List.filterMap_cons_some hi]
          refine ⟨by rw [final, final, ← hView, hFinal], ?_⟩
          rw [LegalRun, ← hView, hLegal]
          constructor
          · rintro ⟨hk, hRest⟩
            have hOne : ∀ k ∈ input i, m'.legal (view s) k := by simpa [hi] using hk
            exact ⟨⟨hRun.1, hOne⟩, hRest⟩
          · rintro ⟨⟨-, hAll⟩, hRest⟩
            exact ⟨hAll k hi, hRest⟩

section SingleUse

variable {Inv Mark : σ → Prop} {grants : ι × ω → Bool}
  (hStep : ∀ s i, m.legal s i → Inv s → Inv (m.step s i).2)
  (hKeep : ∀ s i, m.legal s i → Inv s → Mark s → Mark (m.step s i).2)
  (hBlock : ∀ s i, m.legal s i → Inv s → Mark s → grants (i, (m.step s i).1) = false)

include hStep hKeep hBlock

/-- Once the mark is set, no later step of a legal run grants. -/
theorem countP_answers_eq_zero {s : σ} {is : List ι} (hRun : m.LegalRun s is) (h : Inv s)
    (hMark : Mark s) : (m.answers s is).countP grants = 0 := by
  induction is generalizing s with
  | nil => rfl
  | cons i is ih =>
      rw [answers, List.countP_cons, hBlock s i hRun.1 h hMark]
      simpa using ih hRun.2 (hStep s i hRun.1 h) (hKeep s i hRun.1 h hMark)

theorem countP_answers_le_one
    (hGrant : ∀ s i, m.legal s i → Inv s → grants (i, (m.step s i).1) = true →
      Mark (m.step s i).2)
    {s : σ} {is : List ι} (hRun : m.LegalRun s is) (h : Inv s) :
    (m.answers s is).countP grants ≤ 1 := by
  induction is generalizing s with
  | nil => simp [answers]
  | cons i is ih =>
      have hNext := hStep s i hRun.1 h
      rw [answers, List.countP_cons]
      cases hg : grants (i, (m.step s i).1) with
      | true =>
          have hRest := countP_answers_eq_zero hStep hKeep hBlock hRun.2 hNext
            (hGrant s i hRun.1 h hg)
          simp [hRest]
      | false => simpa using ih hRun.2 hNext

end SingleUse

end Machine

end PgpAuth.Lib
