import Mathlib.Data.List.TakeDrop
import Mathlib.Tactic.Common

/-!
# Memory written from its start

A `Buffer` is an allocation of fixed size with what has been written to it so far. `copy` and
`format` write without looking at the size and have no result where they would run past the
end; `print` stops there and drops the rest.
-/

namespace PgpAuth.Lib

variable {α : Type}

/-- Memory of `cap` cells, written from its start. -/
structure Buffer (α : Type) (cap : Nat) where
  written : List α
  fits : written.length ≤ cap

namespace Buffer

variable {cap : Nat}

def empty (cap : Nat) : Buffer α cap := ⟨[], Nat.zero_le cap⟩

/-- Cells left. -/
def room (b : Buffer α cap) : Nat := cap - b.written.length

/-- An unbounded copy. -/
def copy (b : Buffer α cap) (xs : List α) : Option (Buffer α cap) :=
  if h : (b.written ++ xs).length ≤ cap then some ⟨b.written ++ xs, h⟩ else none

/-- Unbounded formatted output, piece by piece. -/
def format (b : Buffer α cap) (pieces : List (List α)) : Option (Buffer α cap) :=
  pieces.foldlM copy b

/-- A copy cut off at the end of the memory. -/
def write (b : Buffer α cap) (xs : List α) : Buffer α cap :=
  ⟨b.written ++ xs.take b.room, by
    have hFits := b.fits
    rw [List.length_append, List.length_take, room]
    omega⟩

/-- Bounded formatted output. -/
def print (b : Buffer α cap) (pieces : List (List α)) : Buffer α cap := pieces.foldl write b

@[simp] theorem written_empty : (empty cap : Buffer α cap).written = [] := rfl

theorem copy_of_fits (b : Buffer α cap) (xs : List α) (h : (b.written ++ xs).length ≤ cap) :
    ∃ b', b.copy xs = some b' ∧ b'.written = b.written ++ xs :=
  ⟨⟨b.written ++ xs, h⟩, dif_pos h, rfl⟩

theorem format_of_fits {b : Buffer α cap} {pieces : List (List α)}
    (h : (b.written ++ pieces.flatten).length ≤ cap) :
    ∃ b', b.format pieces = some b' ∧ b'.written = b.written ++ pieces.flatten := by
  induction pieces generalizing b with
  | nil => exact ⟨b, rfl, by simp⟩
  | cons xs pieces ih =>
      rw [List.flatten_cons, ← List.append_assoc] at h
      obtain ⟨b', hCopy, hWritten⟩ := copy_of_fits b xs (by
        rw [List.length_append] at h
        omega)
      rw [← hWritten] at h
      obtain ⟨b'', hFormat, hWritten'⟩ := ih h
      refine ⟨b'', ?_, by rw [hWritten', hWritten, List.flatten_cons, List.append_assoc]⟩
      rw [format, List.foldlM_cons, hCopy]
      exact hFormat

theorem written_print (b : Buffer α cap) (pieces : List (List α)) :
    (b.print pieces).written = b.written ++ pieces.flatten.take b.room := by
  induction pieces generalizing b with
  | nil => simp [print]
  | cons xs pieces ih =>
      have hRest := ih (b.write xs)
      rw [print] at hRest ⊢
      rw [List.foldl_cons, hRest]
      simp only [write, room, List.flatten_cons, List.take_append, List.length_append,
        List.length_take, List.append_assoc]
      congr 3
      omega

/-- Where everything fits, nothing is dropped. -/
theorem written_print_of_fits {b : Buffer α cap} {pieces : List (List α)}
    (h : pieces.flatten.length ≤ b.room) :
    (b.print pieces).written = b.written ++ pieces.flatten := by
  rw [written_print, List.take_of_length_le h]

end Buffer

end PgpAuth.Lib
