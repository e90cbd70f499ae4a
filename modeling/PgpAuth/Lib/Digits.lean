import Mathlib.Data.Nat.Digits.Defs

/-!
# Decimal and hexadecimal text

`decimal` prints a number as bytes, `hexDump` prints each byte as two hexadecimal digits.
`readDecimal max` reads decimal digits and refuses any other byte and any number
beyond `max`; `readDecimal_decimal` is its round trip with `decimal`.
-/

namespace PgpAuth.Lib

def charByte (c : Char) : UInt8 := UInt8.ofNat c.toNat

def isDecDigit (b : UInt8) : Bool := 48 ≤ b && b ≤ 57

def isHexDigit (b : UInt8) : Bool :=
  (48 ≤ b && b ≤ 57) || (97 ≤ b && b ≤ 102) || (65 ≤ b && b ≤ 70)

def decimal (n : Nat) : List UInt8 := (Nat.toDigits 10 n).map charByte

def hexDigit (n : Nat) : UInt8 := charByte n.digitChar

/-- Two lowercase digits for each byte. -/
def hexDump (bs : List UInt8) : List UInt8 :=
  bs.flatMap fun b => [hexDigit (b.toNat / 16), hexDigit (b.toNat % 16)]

def digitStep (max value : Nat) (b : UInt8) : Option Nat :=
  if isDecDigit b then
    let next := value * 10 + (b.toNat - 48)
    if next ≤ max then some next else none
  else none

def readDecimal (max : Nat) (bs : List UInt8) : Option Nat :=
  if bs = [] then none else bs.foldlM (digitStep max) 0

theorem decimal_eq (n : Nat) :
    decimal n = if n < 10 then [hexDigit n] else decimal (n / 10) ++ [hexDigit (n % 10)] := by
  rw [decimal, Nat.toDigits_eq_if (by decide)]
  split <;> simp [decimal, hexDigit]

theorem decimal_ne_nil (n : Nat) : decimal n ≠ [] := by
  simp [decimal, Nat.toDigits_ne_nil]

theorem length_decimal_le_iff {n k : Nat} (hk : 0 < k) : (decimal n).length ≤ k ↔ n < 10 ^ k := by
  rw [decimal, List.length_map]
  exact Nat.length_toDigits_le_iff (by decide) hk

private theorem hexDigit_facts : ∀ d : Fin 16,
    isHexDigit (hexDigit d) = true ∧
      (d.val < 10 → isDecDigit (hexDigit d) = true ∧ (hexDigit d).toNat - 48 = d.val) := by
  decide

theorem isHexDigit_hexDigit {d : Nat} (h : d < 16) : isHexDigit (hexDigit d) = true :=
  (hexDigit_facts ⟨d, h⟩).1

theorem isDecDigit_hexDigit {d : Nat} (h : d < 10) : isDecDigit (hexDigit d) = true :=
  ((hexDigit_facts ⟨d, by omega⟩).2 h).1

theorem hexDigit_toNat {d : Nat} (h : d < 10) : (hexDigit d).toNat - 48 = d :=
  ((hexDigit_facts ⟨d, by omega⟩).2 h).2

theorem isHexDigit_of_isDecDigit {b : UInt8} (h : isDecDigit b = true) : isHexDigit b = true := by
  simp only [isHexDigit, isDecDigit] at h ⊢
  simp [h]

theorem isDecDigit_of_mem_decimal {n : Nat} {b : UInt8} (h : b ∈ decimal n) :
    isDecDigit b = true := by
  induction n using Nat.strong_induction_on with
  | _ n ih =>
      rw [decimal_eq] at h
      split at h
      · rename_i hn
        rw [List.mem_singleton.mp h]
        exact isDecDigit_hexDigit hn
      · rcases List.mem_append.mp h with h | h
        · exact ih (n / 10) (by omega) h
        · rw [List.mem_singleton.mp h]
          exact isDecDigit_hexDigit (Nat.mod_lt _ (by decide))

theorem isHexDigit_of_mem_hexDump {bs : List UInt8} {b : UInt8} (h : b ∈ hexDump bs) :
    isHexDigit b = true := by
  obtain ⟨a, -, hb⟩ := List.mem_flatMap.mp h
  have ha : a.toNat < 256 := a.toNat_lt
  simp only [List.mem_cons, List.not_mem_nil, or_false] at hb
  rcases hb with rfl | rfl <;> exact isHexDigit_hexDigit (by omega)

theorem length_hexDump (bs : List UInt8) : (hexDump bs).length = 2 * bs.length := by
  induction bs with
  | nil => rfl
  | cons b bs ih =>
      simp only [hexDump, List.flatMap_cons, List.length_append, List.length_cons, List.length_nil]
        at ih ⊢
      omega

private theorem foldlM_decimal (max n : Nat) :
    (decimal n).foldlM (digitStep max) 0 = if n ≤ max then some n else none := by
  induction n using Nat.strong_induction_on with
  | _ n ih =>
      rw [decimal_eq]
      split
      · rename_i hn
        simp [digitStep, isDecDigit_hexDigit hn, hexDigit_toNat hn]
      · have hm : n % 10 < 10 := Nat.mod_lt _ (by decide)
        rw [List.foldlM_append, ih (n / 10) (by omega)]
        by_cases hd : n / 10 ≤ max
        · have hn : n / 10 * 10 + n % 10 = n := by omega
          simp [hd, digitStep, isDecDigit_hexDigit hm, hexDigit_toNat hm, hn]
        · have hn : ¬ n ≤ max := by omega
          simp [hd, hn]

theorem readDecimal_decimal (max n : Nat) :
    readDecimal max (decimal n) = if n ≤ max then some n else none := by
  rw [readDecimal, if_neg (decimal_ne_nil n), foldlM_decimal]

end PgpAuth.Lib
