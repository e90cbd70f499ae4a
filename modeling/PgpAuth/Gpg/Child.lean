import Mathlib.Logic.Function.Basic
import PgpAuth.Gpg.Process

/-!
# The child before `execve`

Between `fork` and `execve` the child puts the status pipe on descriptor 1 and `/dev/null`
on 2, and closes what it has inherited from the worker: all descriptors from 3 on with
`close_range`, or one by one below the limit that `sysconf` reports where that call is not
there or fails.

`childTable_isolated_iff` says exactly when gpg starts with these two and nothing above. The
table has no close-on-exec flags: it shows what the child's own calls leave open.
-/

namespace PgpAuth

/-- What a descriptor of the child refers to: the write end of the status pipe,
`/dev/null`, or what the worker has open as `n`. -/
inductive FdObj where
  | status
  | devNull
  | worker (n : Nat)
  deriving DecidableEq, Repr

abbrev FdTable : Type := Nat → Option FdObj

def dup2 (fds : FdTable) (old new : Nat) : FdTable :=
  match fds old with
  | none => fds
  | some o => Function.update fds new (some o)

/-- Answers of the system to the child: the descriptor of `/dev/null`, whether
`close_range` does its work, and `sysconf(_SC_OPEN_MAX)`. -/
structure ChildSys where
  devNull : Option Nat
  closeRange : Bool
  openMax : Int
  deriving DecidableEq, Repr

/-- `max_fd` -/
def ChildSys.maxFd (sys : ChildSys) : Nat :=
  if sys.openMax ≤ 0 ∨ 1000000 < sys.openMax then 1024 else sys.openMax.toNat

/-- `/dev/null` on descriptor 2, where it can be opened. -/
def dupNull (fds : FdTable) : Option Nat → FdTable
  | none => fds
  | some d => dup2 (Function.update fds d (some .devNull)) d 2

def closeEach (fds : FdTable) (list : List Nat) : FdTable :=
  list.foldl (fun fds n => Function.update fds n none) fds

/-- The descriptors gpg starts with; `w` is the write end of the pipe. -/
def childTable (fds : FdTable) (w : Nat) (sys : ChildSys) : FdTable :=
  let fds := dupNull (dup2 fds w 1) sys.devNull
  if sys.closeRange then fun n => if 3 ≤ n then none else fds n
  else closeEach fds (List.range' 3 (sys.maxFd - 3))

theorem closeEach_apply (fds : FdTable) (list : List Nat) (n : Nat) :
    closeEach fds list n = if n ∈ list then none else fds n := by
  induction list generalizing fds with
  | nil => simp [closeEach]
  | cons m list ih =>
      have hStep := ih (Function.update fds m none)
      rw [closeEach] at hStep ⊢
      rw [List.foldl_cons, hStep]
      by_cases hEq : n = m
      · simp [hEq]
      · simp [hEq]

theorem childTable_apply (fds : FdTable) (w : Nat) (sys : ChildSys) (n : Nat) :
    childTable fds w sys n =
      if 3 ≤ n ∧ (sys.closeRange = true ∨ n < sys.maxFd) then none
      else dupNull (dup2 fds w 1) sys.devNull n := by
  rw [childTable]
  cases sys.closeRange with
  | true => simp
  | false =>
      simp only [Bool.false_eq_true, if_false, closeEach_apply, List.mem_range'_1, false_or]
      exact if_congr (by omega) rfl rfl

section Table

variable {fds : FdTable} {w : Nat} {sys : ChildSys} (hPipe : fds w = some .status)
  (hFree : ∀ d, sys.devNull = some d → dup2 fds w 1 d = none)

include hPipe

theorem dup2_status : dup2 fds w 1 = Function.update fds 1 (some .status) := by
  rw [dup2, hPipe]

include hFree

/-- The table before anything is closed. -/
theorem dupNull_apply (n : Nat) :
    dupNull (dup2 fds w 1) sys.devNull n =
      if n = 1 then some .status
      else if sys.devNull.isSome ∧ n = 2 ∨ sys.devNull = some n then some .devNull
      else fds n := by
  rw [dup2_status hPipe] at *
  cases hNull : sys.devNull with
  | none =>
      simp only [dupNull, Option.isSome_none, Bool.false_eq_true, false_and, reduceCtorEq,
        or_self, if_false]
      by_cases h1 : n = 1
      · rw [if_pos h1, h1, Function.update_self]
      · rw [if_neg h1, Function.update_of_ne h1]
  | some d =>
      have hd : d ≠ 1 := by
        rintro rfl
        have := hFree 1 hNull
        rw [Function.update_self] at this
        cases this
      simp only [dupNull, dup2, Function.update_self, Option.isSome_some, true_and,
        Option.some.injEq]
      by_cases h1 : n = 1
      · rw [if_pos h1, h1, Function.update_of_ne (by decide), Function.update_of_ne hd.symm,
          Function.update_self]
      · rw [if_neg h1]
        by_cases h2 : n = 2
        · rw [if_pos (.inl h2), h2, Function.update_self]
        · rw [Function.update_of_ne h2]
          by_cases hn : n = d
          · rw [if_pos (.inr hn.symm), hn, Function.update_self]
          · rw [if_neg (by rintro (h | h); exacts [h2 h, hn h.symm]), Function.update_of_ne hn,
              Function.update_of_ne h1]

/-- gpg's status goes to the pipe and its other output to `/dev/null`, where that can be
opened. -/
theorem childTable_standard :
    childTable fds w sys 1 = some .status ∧
      childTable fds w sys 2 = (if sys.devNull.isSome then some .devNull else fds 2) ∧
      childTable fds w sys 0 = (if sys.devNull = some 0 then some .devNull else fds 0) := by
  have hLow {n : Nat} (h : n < 3) : childTable fds w sys n = dupNull (dup2 fds w 1) sys.devNull n := by
    rw [childTable_apply, if_neg (fun hn => Nat.not_lt.mpr hn.1 h)]
  refine ⟨?_, ?_, ?_⟩
  · rw [hLow (by decide), dupNull_apply hPipe hFree, if_pos rfl]
  · rw [hLow (by decide), dupNull_apply hPipe hFree, if_neg (by decide)]
    cases hNull : sys.devNull with
    | none => simp
    | some d => simp
  · rw [hLow (by decide), dupNull_apply hPipe hFree, if_neg (by decide)]
    simp

/-- gpg holds nothing of the worker above 2 exactly where `close_range` works or everything
the worker has open lies below the limit the loop uses. -/
theorem childTable_closed_iff :
    (∀ n, 3 ≤ n → childTable fds w sys n = none) ↔
      sys.closeRange = true ∨
        ∀ n, 3 ≤ n → sys.maxFd ≤ n → fds n = none ∧ sys.devNull ≠ some n := by
  have hHigh {n : Nat} (h3 : 3 ≤ n) :
      dupNull (dup2 fds w 1) sys.devNull n = none ↔ fds n = none ∧ sys.devNull ≠ some n := by
    rw [dupNull_apply hPipe hFree, if_neg (by omega)]
    by_cases hNull : sys.devNull = some n
    · simp [hNull]
    · simp [hNull, show n ≠ 2 by omega]
  constructor
  · intro hAll
    by_cases hRange : sys.closeRange = true
    · exact .inl hRange
    · refine .inr fun n h3 hMax => ?_
      have hn := hAll n h3
      rw [childTable_apply, if_neg (by rintro ⟨-, h | h⟩; exacts [hRange h, by omega])] at hn
      exact (hHigh h3).mp hn
  · intro hCase n h3
    rw [childTable_apply]
    split_ifs with hClosed
    · rfl
    · rcases hCase with hRange | hAbove
      · exact absurd ⟨h3, .inl hRange⟩ hClosed
      · refine (hHigh h3).mpr (hAbove n h3 ?_)
        by_contra hLt
        exact hClosed ⟨h3, .inr (by omega)⟩

/-- What the child is meant to start with. -/
def Isolated (fds : FdTable) : Prop :=
  fds 1 = some .status ∧ fds 2 = some .devNull ∧ ∀ n, 3 ≤ n → fds n = none

/-- When it does. -/
theorem childTable_isolated_iff :
    Isolated (childTable fds w sys) ↔
      (sys.devNull.isSome = true ∨ fds 2 = some .devNull) ∧
        (sys.closeRange = true ∨
          ∀ n, 3 ≤ n → sys.maxFd ≤ n → fds n = none ∧ sys.devNull ≠ some n) := by
  obtain ⟨h1, h2, -⟩ := childTable_standard hPipe hFree
  rw [Isolated, childTable_closed_iff hPipe hFree, h2]
  simp only [h1, true_and]
  refine and_congr_left fun _ => ?_
  cases sys.devNull with
  | none => simp
  | some d => simp

end Table

/-- A worker with ten descriptors open; the status pipe is 8 and 9. -/
def workerTable : FdTable := fun n =>
  if n = 9 then some .status else if n < 9 then some (.worker n) else none

theorem workerTable_isolated : Isolated (childTable workerTable 9 ⟨some 10, false, 4096⟩) := by
  refine (childTable_isolated_iff rfl ?_).mpr ⟨.inl rfl, .inr ?_⟩
  · rintro d ⟨⟩
    rfl
  · intro n _ hMax
    have hn : 4096 ≤ n := hMax
    refine ⟨?_, ?_⟩
    · rw [workerTable, if_neg (by omega), if_neg (by omega)]
    · rintro ⟨⟩
      omega

end PgpAuth
