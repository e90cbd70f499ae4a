import Mathlib.Data.List.Basic
import Mathlib.Data.List.TakeWhile

/-!
# Cutting sequences at a separator

`cut d xs` splits at the first `d`, as a scan for a delimiter does. A sequence joined
with separators is read back uniquely exactly as far as its fields are free of the
separator; `append_cons_eq_append_cons` says what else can happen, which is what a
reader of unescaped fields has to face. `mem_splitOn_append` says which pieces of a text
are still pieces when the text goes on.

`tokens d xs` are the pieces between separators as a tokenizer finds them, empty ones
skipped; `tokens_eq_cons` is one step of such a scan.
-/

namespace PgpAuth.Lib

variable {α : Type} [DecidableEq α]

/-- What stands before the first `d`, and what stands after it. -/
def cut (d : α) : List α → Option (List α × List α)
  | [] => none
  | x :: xs => if x = d then some ([], xs) else (cut d xs).map fun p => (x :: p.1, p.2)

theorem cut_eq_some {d : α} {xs a b : List α} :
    cut d xs = some (a, b) ↔ xs = a ++ d :: b ∧ d ∉ a := by
  induction xs generalizing a with
  | nil => simp [cut]
  | cons x xs ih =>
      rw [cut]
      split
      · rename_i hx
        subst hx
        cases a with
        | nil => simp [eq_comm]
        | cons y a =>
            simp only [Option.some.injEq, Prod.mk.injEq, List.cons_append, List.cons.injEq,
              List.mem_cons, not_or, reduceCtorEq, false_and, false_iff, not_and]
            rintro ⟨rfl, -⟩ hne
            exact absurd rfl hne
      · rename_i hx
        cases a with
        | nil => simp [hx]
        | cons y a =>
            simp only [Option.map_eq_some_iff, Prod.exists, Prod.mk.injEq, List.cons.injEq,
              List.cons_append, List.mem_cons, not_or]
            constructor
            · rintro ⟨a', b', hc, ⟨rfl, rfl⟩, rfl⟩
              obtain ⟨rfl, hd⟩ := ih.mp hc
              exact ⟨⟨rfl, rfl⟩, Ne.symm hx, hd⟩
            · rintro ⟨⟨rfl, rfl⟩, -, hd⟩
              exact ⟨a, b, ih.mpr ⟨rfl, hd⟩, ⟨rfl, rfl⟩, rfl⟩

theorem cut_eq_none {d : α} {xs : List α} : cut d xs = none ↔ d ∉ xs := by
  induction xs with
  | nil => simp [cut]
  | cons x xs ih =>
      rw [cut]
      split
      · rename_i hx
        simp [hx]
      · rename_i hx
        simp [ih, Ne.symm hx]

theorem cut_append {d : α} {a b : List α} (h : d ∉ a) : cut d (a ++ d :: b) = some (a, b) :=
  cut_eq_some.mpr ⟨rfl, h⟩

/-- Both fields before the separator are free of it: one reading only. -/
theorem append_cons_inj {d : α} {a a' b b' : List α} (ha : d ∉ a) (ha' : d ∉ a')
    (h : a ++ d :: b = a' ++ d :: b') : a = a' ∧ b = b' := by
  have hc := cut_append (b := b) ha
  rw [h, cut_append ha'] at hc
  simp only [Option.some.injEq, Prod.mk.injEq] at hc
  exact ⟨hc.1.symm, hc.2.symm⟩

/-- One field before the separator is free of it: the other is the same, or runs on past
the separator into what follows. -/
theorem append_cons_eq_append_cons {d : α} {a a' b b' : List α} (ha : d ∉ a)
    (h : a' ++ d :: b' = a ++ d :: b) :
    (a' = a ∧ b' = b) ∨ ∃ w, a' = a ++ d :: w ∧ w ++ d :: b' = b := by
  cases hc : cut d a' with
  | none => exact .inl (append_cons_inj (cut_eq_none.mp hc) ha h)
  | some p =>
      obtain ⟨u, w⟩ := p
      obtain ⟨rfl, hu⟩ := cut_eq_some.mp hc
      rw [List.append_assoc, List.cons_append] at h
      obtain ⟨rfl, hw⟩ := append_cons_inj hu ha h
      exact .inr ⟨w, rfl, hw⟩

/-- A piece that a separator ends is a piece of any longer text too. -/
theorem mem_splitOn_append {d : α} {xs ys piece : List α} (h : piece ∈ (xs.splitOn d).dropLast) :
    piece ∈ (xs ++ ys).splitOn d := by
  induction hn : xs.length using Nat.strong_induction_on generalizing xs with
  | _ n ih =>
      cases hc : cut d xs with
      | none =>
          rw [List.splitOn_eq_singleton (cut_eq_none.mp hc)] at h
          cases h
      | some p =>
          obtain ⟨a, b⟩ := p
          obtain ⟨rfl, ha⟩ := cut_eq_some.mp hc
          have hb : b.splitOn d ≠ [] := List.splitOn_ne_nil _ _
          rw [List.splitOn_append_cons_self_of_not_mem ha, List.dropLast_cons_of_ne_nil hb] at h
          rw [List.append_assoc, List.cons_append, List.splitOn_append_cons_self_of_not_mem ha]
          rcases List.mem_cons.mp h with rfl | hTail
          · exact List.mem_cons_self
          · refine List.mem_cons_of_mem _ (ih b.length ?_ hTail rfl)
            simp only [List.length_append, List.length_cons] at hn
            omega

/-- The pieces between separators that are not empty. -/
def tokens (d : α) (xs : List α) : List (List α) := (xs.splitOn d).filter (· != [])

@[simp] theorem tokens_nil (d : α) : tokens d [] = [] := rfl

theorem tokens_cons_self (d : α) (xs : List α) : tokens d (d :: xs) = tokens d xs := by
  have h : (d :: xs).splitOn d = [] :: xs.splitOn d :=
    List.splitOn_append_cons_self_of_not_mem (List.not_mem_nil) xs
  rw [tokens, h, List.filter_cons_of_neg (by simp), tokens]

theorem tokens_dropWhile (d : α) (xs : List α) :
    tokens d (xs.dropWhile (· == d)) = tokens d xs := by
  induction xs with
  | nil => rfl
  | cons x xs ih =>
      by_cases hx : x = d
      · subst hx
        simp [tokens_cons_self, ih]
      · simp [hx]

/-- A scan that skips separators and reads up to the next one finds the first token. -/
theorem tokens_eq_cons {d : α} {xs : List α} (h : xs.dropWhile (· == d) ≠ []) :
    tokens d xs = (xs.dropWhile (· == d)).takeWhile (· != d) ::
      tokens d ((xs.dropWhile (· == d)).dropWhile (· != d)) := by
  rw [← tokens_dropWhile]
  obtain ⟨x, ys, hys⟩ := List.exists_cons_of_ne_nil h
  have hx : (x != d) = true := by
    have := List.head_dropWhile_not (· == d) h
    simpa [hys] using this
  rw [hys]
  have hSplit : (x :: ys).takeWhile (· != d) ++ (x :: ys).dropWhile (· != d) = x :: ys :=
    List.takeWhile_append_dropWhile
  have hTok : (x :: ys).takeWhile (· != d) ≠ [] := by simp [hx]
  have hFree : d ∉ (x :: ys).takeWhile (· != d) := by
    intro hd
    simpa using List.mem_takeWhile_imp hd
  generalize (x :: ys).takeWhile (· != d) = tok at *
  cases hRest : (x :: ys).dropWhile (· != d) with
  | nil =>
      rw [hRest, List.append_nil] at hSplit
      rw [← hSplit, tokens, List.splitOn_eq_singleton hFree]
      simp [hTok]
  | cons y rest =>
      have hSome : (x :: ys).dropWhile (· != d) ≠ [] := by simp [hRest]
      have hy : y = d := by
        have := List.head_dropWhile_not (· != d) hSome
        simpa [hRest] using this
      subst hy
      rw [← hSplit, hRest, tokens_cons_self, tokens, List.splitOn_append_cons_self_of_not_mem hFree,
        List.filter_cons_of_pos (by simpa using hTok)]
      rfl

theorem tokens_eq_nil {d : α} {xs : List α} (h : xs.dropWhile (· == d) = []) :
    tokens d xs = [] := by
  rw [← tokens_dropWhile, h, tokens_nil]

end PgpAuth.Lib
