import Mathlib.Data.List.TakeDrop
import PgpAuth.Lib.Digits
import PgpAuth.Lib.Split

/-!
# Arrays of bulk strings

A request in RESP is an array of bulk strings, each with its length in front of it.
`respParse max` reads exactly one array and nothing after it; a length is written without
leading zeros and is at most `max`. It accepts what `respEncode` prints and nothing else
(`respParse_eq_some`), so a request that is cut off is no request (`respParse_take`).
-/

namespace PgpAuth.Lib

/-- `tag`, a length, and the end of the line. -/
def lengthLine (tag : UInt8) (n : Nat) : List UInt8 := tag :: (decimal n ++ [13, 10])

def bulkString (s : List UInt8) : List UInt8 := lengthLine 36 s.length ++ s ++ [13, 10]

def respEncode (args : List (List UInt8)) : List UInt8 :=
  lengthLine 42 args.length ++ args.flatMap bulkString

/-- A length after `tag`, and what follows its line. -/
def readLength (max : Nat) (tag : UInt8) : List UInt8 → Option (Nat × List UInt8)
  | [] => none
  | b :: bs =>
      if b = tag then
        match cut 13 bs with
        | some (digits, 10 :: rest) =>
            (readDecimal max digits).bind fun n =>
              if decimal n = digits then some (n, rest) else none
        | _ => none
      else none

def readBulk (max : Nat) (bs : List UInt8) : Option (List UInt8 × List UInt8) :=
  match readLength max 36 bs with
  | none => none
  | some (n, text) =>
      match text.drop n with
      | 13 :: 10 :: rest => some (text.take n, rest)
      | _ => none

def readBulks (max : Nat) : Nat → List UInt8 → Option (List (List UInt8) × List UInt8)
  | 0, bs => some ([], bs)
  | n + 1, bs =>
      (readBulk max bs).bind fun first =>
        (readBulks max n first.2).map fun more => (first.1 :: more.1, more.2)

/-- One array, and nothing after it. -/
def respParse (max : Nat) (bs : List UInt8) : Option (List (List UInt8)) :=
  match readLength max 42 bs with
  | none => none
  | some (n, text) =>
      match readBulks max n text with
      | some (args, []) => some args
      | _ => none

theorem cr_not_mem_decimal (n : Nat) : 13 ∉ decimal n := by
  intro h
  have hDigit := isDecDigit_of_mem_decimal h
  revert hDigit
  decide

variable {max : Nat} {bs rest : List UInt8}

theorem readLength_eq_some {tag : UInt8} {n : Nat} :
    readLength max tag bs = some (n, rest) ↔ n ≤ max ∧ bs = lengthLine tag n ++ rest := by
  constructor
  · intro h
    cases bs with
    | nil => cases h
    | cons b bs =>
        rw [readLength] at h
        split at h
        · rename_i hTag
          split at h
          · rename_i digits text hCut
            obtain ⟨rfl, -⟩ := cut_eq_some.mp hCut
            obtain ⟨m, hRead, hm⟩ := Option.bind_eq_some_iff.mp h
            split at hm
            · rename_i hDigits
              cases hm
              rw [← hDigits, readDecimal_decimal] at hRead
              refine ⟨?_, ?_⟩
              · by_contra hMax
                simp [hMax] at hRead
              · simp [lengthLine, hTag, hDigits]
            · cases hm
          · cases h
        · cases h
  · rintro ⟨hn, rfl⟩
    have hCut : cut 13 (decimal n ++ 13 :: 10 :: rest) = some (decimal n, 10 :: rest) :=
      cut_append (cr_not_mem_decimal n)
    simp [readLength, lengthLine, hCut, readDecimal_decimal, hn]

theorem readBulk_eq_some {s : List UInt8} :
    readBulk max bs = some (s, rest) ↔ s.length ≤ max ∧ bs = bulkString s ++ rest := by
  constructor
  · intro h
    unfold readBulk at h
    split at h
    · cases h
    · rename_i n text hLength
      obtain ⟨hn, rfl⟩ := readLength_eq_some.mp hLength
      split at h
      · rename_i tail hDrop
        cases h
        have hText : text = text.take n ++ 13 :: 10 :: rest := by
          rw [← hDrop, List.take_append_drop]
        have hTake : (text.take n).length = n := by
          have := congrArg List.length hDrop
          simp only [List.length_drop, List.length_cons] at this
          rw [List.length_take]
          omega
        refine ⟨by omega, ?_⟩
        rw [bulkString, hTake]
        nth_rewrite 1 [hText]
        simp
      · cases h
  · rintro ⟨hs, rfl⟩
    have hLength : readLength max 36 (bulkString s ++ rest) =
        some (s.length, s ++ 13 :: 10 :: rest) :=
      readLength_eq_some.mpr ⟨hs, by simp [bulkString]⟩
    simp [readBulk, hLength]

theorem readBulks_eq_some {n : Nat} {args : List (List UInt8)} :
    readBulks max n bs = some (args, rest) ↔
      args.length = n ∧ (∀ s ∈ args, s.length ≤ max) ∧
        bs = args.flatMap bulkString ++ rest := by
  induction n generalizing bs args with
  | zero =>
      simp only [readBulks, Option.some.injEq, Prod.mk.injEq, List.length_eq_zero_iff]
      constructor
      · rintro ⟨rfl, rfl⟩
        simp
      · rintro ⟨rfl, -, rfl⟩
        simp
  | succ n ih =>
      simp only [readBulks, Option.bind_eq_some_iff, Option.map_eq_some_iff, Prod.exists]
      constructor
      · rintro ⟨s, text, hFirst, more, tail, hMore, hEq⟩
        cases hEq
        obtain ⟨hs, rfl⟩ := readBulk_eq_some.mp hFirst
        obtain ⟨rfl, hArgs, rfl⟩ := ih.mp hMore
        exact ⟨rfl, List.forall_mem_cons.mpr ⟨hs, hArgs⟩, by simp⟩
      · rintro ⟨hn, hArgs, rfl⟩
        cases args with
        | nil => cases hn
        | cons s args =>
            obtain ⟨hs, hArgs⟩ := List.forall_mem_cons.mp hArgs
            refine ⟨s, args.flatMap bulkString ++ rest, ?_, args, rest, ?_, rfl⟩
            · exact readBulk_eq_some.mpr ⟨hs, by simp⟩
            · exact ih.mpr ⟨Nat.succ.inj hn, hArgs, rfl⟩

/-- The arrays that a reader with this limit takes. -/
def Readable (max : Nat) (args : List (List UInt8)) : Prop :=
  args.length ≤ max ∧ ∀ s ∈ args, s.length ≤ max

theorem respParse_eq_some {args : List (List UInt8)} :
    respParse max bs = some args ↔ Readable max args ∧ bs = respEncode args := by
  constructor
  · intro h
    unfold respParse at h
    split at h
    · cases h
    · rename_i n text hLength
      obtain ⟨hn, rfl⟩ := readLength_eq_some.mp hLength
      split at h
      · rename_i hBulks
        cases h
        obtain ⟨rfl, hArgs, rfl⟩ := readBulks_eq_some.mp hBulks
        exact ⟨⟨hn, hArgs⟩, by simp [respEncode]⟩
      · cases h
  · rintro ⟨⟨hn, hArgs⟩, rfl⟩
    have hLength : readLength max 42 (respEncode args) =
        some (args.length, args.flatMap bulkString) :=
      readLength_eq_some.mpr ⟨hn, rfl⟩
    have hBulks : readBulks max args.length (args.flatMap bulkString) = some (args, []) :=
      readBulks_eq_some.mpr ⟨rfl, hArgs, by simp⟩
    simp [respParse, hLength, hBulks]

theorem length_bulkString (s : List UInt8) :
    (bulkString s).length = (decimal s.length).length + s.length + 5 := by
  simp only [bulkString, lengthLine, List.length_append, List.length_cons, List.length_nil]
  omega

theorem length_flatMap_bulkString (args : List (List UInt8)) :
    args.length ≤ (args.flatMap bulkString).length ∧
      ∀ s ∈ args, s.length ≤ (args.flatMap bulkString).length := by
  induction args with
  | nil => simp
  | cons a args ih =>
      obtain ⟨hCount, hEach⟩ := ih
      have hFirst := length_bulkString a
      simp only [List.flatMap_cons, List.length_append, List.length_cons, List.forall_mem_cons]
      refine ⟨by omega, by omega, ?_⟩
      intro s hs
      have := hEach s hs
      omega

/-- A request survives a buffer exactly if it fits. -/
theorem respParse_take {args : List (List UInt8)} {k : Nat} (hk : k ≤ max) :
    respParse max ((respEncode args).take k) = some args ↔ (respEncode args).length ≤ k := by
  rw [respParse_eq_some]
  constructor
  · rintro ⟨-, hTake⟩
    exact (List.take_eq_self_iff _).mp hTake
  · intro hFits
    obtain ⟨hCount, hEach⟩ := length_flatMap_bulkString args
    have hBody : (args.flatMap bulkString).length ≤ max := by
      rw [respEncode, List.length_append] at hFits
      omega
    refine ⟨⟨by omega, ?_⟩, List.take_of_length_le hFits⟩
    intro s hs
    exact (hEach s hs).trans hBody

end PgpAuth.Lib
