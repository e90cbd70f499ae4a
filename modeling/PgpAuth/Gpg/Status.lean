import Mathlib.Data.List.Induction
import PgpAuth.Base

/-!
# The status stream of gpg

`statusParse` reads what was captured from `--status-fd` as a C string, line by line.
Three pieces of state are updated on the way: a usable `VALIDSIG` line sets `good`, a
rejection marker sets `bad`, and every `VALIDSIG` line sets `fpr`.

`statusParse_good`, `statusParse_bad` and `statusParse_fpr` say what each of them ends
with, in terms of the lines alone.
-/

namespace PgpAuth

open Lib

/-- `sizeof(res->fpr) - 1` -/
def fprRoom : Nat := 79

/-- The lines `strtok_r` finds: the pieces between newlines that are not empty. -/
def strtokLines (text : Bytes) : List Bytes := (text.splitOn 10).filter (· != [])

/-- `ngx_http_pgp_fpr_is_hex` -/
def fprIsHex (s : Bytes) : Bool := 32 ≤ s.length && s.all isHexDigit

def statusTag : Bytes := ascii "[GNUPG:] "

def validsigTag : Bytes := ascii "VALIDSIG "

def rejectionMarkers : List Bytes :=
  [ascii "REVKEYSIG", ascii "EXPKEYSIG", ascii "EXPSIG", ascii "BADSIG", ascii "ERRSIG"]

/-- The last token after `VALIDSIG `; the empty text where there is none. -/
def lastField (args : Bytes) : Bytes :=
  ((args.splitOn 32).filter (· != [])).getLast?.getD []

/-- What stands right after `VALIDSIG `. -/
def firstField (args : Bytes) : Bytes := args.takeWhile (· != 32)

/-- The fingerprint a `VALIDSIG` line gives: its last field, else its first, each cut to
the room in `res->fpr`. -/
def identity (args : Bytes) : Option Bytes :=
  if fprIsHex ((lastField args).take fprRoom) then some ((lastField args).take fprRoom)
  else if fprIsHex ((firstField args).take fprRoom) then some ((firstField args).take fprRoom)
  else none

structure StatusState where
  good : Bool
  bad : Bool
  fpr : Bytes
  deriving DecidableEq, Repr

def statusStep (s : StatusState) (line : Bytes) : StatusState :=
  if statusTag.isPrefixOf line then
    let p := line.drop statusTag.length
    if validsigTag.isPrefixOf p then
      match identity (p.drop validsigTag.length) with
      | some fpr => { s with good := true, fpr := fpr }
      | none => { s with fpr := [] }
    else if rejectionMarkers.any (·.isPrefixOf p) then { s with bad := true }
    else s
  else s

def statusParse (out : Bytes) : StatusState :=
  (strtokLines (cString out)).foldl statusStep ⟨false, false, []⟩

/-! ## What the lines say -/

/-- The arguments of a `VALIDSIG` line. -/
def validsigArgs (line : Bytes) : Option Bytes :=
  if statusTag.isPrefixOf line ∧ validsigTag.isPrefixOf (line.drop statusTag.length) then
    some ((line.drop statusTag.length).drop validsigTag.length)
  else none

/-- A line with one of the rejection markers. -/
def rejects (line : Bytes) : Bool :=
  statusTag.isPrefixOf line &&
    rejectionMarkers.any (·.isPrefixOf (line.drop statusTag.length))

/-- Some `VALIDSIG` line is usable and no line rejects. -/
def LooksGood (text : Bytes) : Prop :=
  (∃ line ∈ strtokLines text, ((validsigArgs line).bind identity).isSome = true) ∧
    ∀ line ∈ strtokLines text, rejects line = false

instance : DecidablePred LooksGood := fun _ => inferInstanceAs (Decidable (_ ∧ _))

/-- The markers do not start like `VALIDSIG `. -/
theorem not_marker_of_validsig {p : Bytes} (h : validsigTag.isPrefixOf p = true) :
    rejectionMarkers.any (·.isPrefixOf p) = false := by
  obtain ⟨rest, rfl⟩ := List.isPrefixOf_iff_prefix.mp h
  rfl

theorem statusStep_eq (s : StatusState) (line : Bytes) :
    statusStep s line =
      { good := s.good || ((validsigArgs line).bind identity).isSome
        bad := s.bad || rejects line
        fpr :=
          match validsigArgs line with
          | none => s.fpr
          | some args => (identity args).getD [] } := by
  unfold statusStep validsigArgs rejects
  by_cases hTag : statusTag.isPrefixOf line = true
  · by_cases hSig : validsigTag.isPrefixOf (line.drop statusTag.length) = true
    · simp only [hTag, hSig, not_marker_of_validsig hSig, and_self, if_true, Option.bind_some,
        Bool.and_false, Bool.or_false]
      cases identity ((line.drop statusTag.length).drop validsigTag.length) <;> simp
    · rw [Bool.not_eq_true] at hSig
      simp only [hTag, hSig, if_true, Bool.true_and, Bool.false_eq_true, if_false, and_false,
        Option.bind_none, Option.isSome_none, Bool.or_false]
      cases rejectionMarkers.any fun m => m.isPrefixOf (line.drop statusTag.length) <;> simp
  · simp [hTag]

theorem statusParse_good (out : Bytes) :
    (statusParse out).good = true ↔
      ∃ line ∈ strtokLines (cString out), ((validsigArgs line).bind identity).isSome = true := by
  unfold statusParse
  generalize strtokLines (cString out) = lines
  induction lines using List.reverseRecOn with
  | nil => simp
  | append_singleton lines line ih =>
      rw [List.foldl_append, List.foldl_cons, List.foldl_nil, statusStep_eq, Bool.or_eq_true, ih]
      simp [or_and_right, exists_or]

theorem statusParse_bad (out : Bytes) :
    (statusParse out).bad = false ↔ ∀ line ∈ strtokLines (cString out), rejects line = false := by
  unfold statusParse
  generalize strtokLines (cString out) = lines
  induction lines using List.reverseRecOn with
  | nil => simp
  | append_singleton lines line ih =>
      rw [List.foldl_append, List.foldl_cons, List.foldl_nil, statusStep_eq,
        Bool.or_eq_false_iff, ih]
      simp [or_imp, forall_and]

/-- The last `VALIDSIG` line decides the fingerprint, usable or not. -/
theorem statusParse_fpr (out : Bytes) :
    (statusParse out).fpr =
      match ((strtokLines (cString out)).filterMap validsigArgs).getLast? with
      | none => []
      | some args => (identity args).getD [] := by
  unfold statusParse
  generalize strtokLines (cString out) = lines
  induction lines using List.reverseRecOn with
  | nil => rfl
  | append_singleton lines line ih =>
      rw [List.foldl_append, List.foldl_cons, List.foldl_nil, statusStep_eq,
        List.filterMap_append]
      cases hArgs : validsigArgs line with
      | none => simpa [hArgs] using ih
      | some args => simp [hArgs]

theorem looksGood_iff (out : Bytes) :
    LooksGood (cString out) ↔ (statusParse out).good = true ∧ (statusParse out).bad = false := by
  rw [statusParse_good, statusParse_bad, LooksGood]

end PgpAuth
