import Mathlib.Data.List.TakeWhile
import PgpAuth.Gpg.Verify

/-!
# What a valid verdict rests on

Two properties one wants of `res->valid = 1`: the whole stream was read and no line of it
rejects the signature (`CompleteVerdict`), and the fingerprint is a whole field of a
`VALIDSIG` line (`CarriesIdentity`). Neither holds for every run. A deadline or an error
in the read loop does not void a `VALIDSIG` line that came before it, a NUL byte hides
what follows it, the last `VALIDSIG` line replaces the fingerprint even where it has no
usable one, and a field that is too long, or whose line a NUL byte ends, is taken cut. The
theorems say exactly when the two properties hold.
-/

namespace PgpAuth

open Lib

/-- The verdict of a run as `gpgVerify` gives it. -/
theorem gpgVerify_valid (gpgPath keyring msg : Bytes) (env : GpgEnv) :
    (gpgVerify gpgPath keyring msg env).2.valid = true ↔
      env.Starts gpgPath keyring ∧ (env.run keyring msg).Trusted env.turns := by
  rcases gpgVerify_cases gpgPath keyring msg env with ⟨hs, hv⟩ | ⟨hs, -, hv⟩
  · have h := gpgResult_verdict keyring (env.run keyring msg) env.turns .cleared
    rw [hv]
    simp only [VerifyResult.verdict, Prod.mk.injEq] at h
    simp [h.1, hs]
  · simp [hs, hv]

theorem gpgVerify_fpr {gpgPath keyring msg : Bytes} {env : GpgEnv}
    (hs : env.Starts gpgPath keyring) (ht : (env.run keyring msg).Trusted env.turns) :
    (gpgVerify gpgPath keyring msg env).2.fpr =
      (statusParse (captured (env.run keyring msg).stream env.turns)).fpr := by
  rcases gpgVerify_cases gpgPath keyring msg env with ⟨-, hv⟩ | ⟨hn, -⟩
  · have h := gpgResult_verdict keyring (env.run keyring msg) env.turns .cleared
    rw [hv]
    simp only [VerifyResult.verdict, Prod.mk.injEq] at h
    simp [h.2.1, ht]
  · exact absurd hs hn

theorem gpgVerify_plaintext {gpgPath keyring msg : Bytes} {env : GpgEnv}
    (hs : env.Starts gpgPath keyring) :
    (gpgVerify gpgPath keyring msg env).2.plaintext =
      ((env.run keyring msg).plain.getD []).take plaintextMax := by
  rcases gpgVerify_cases gpgPath keyring msg env with ⟨-, hv⟩ | ⟨hn, -⟩
  · have h := gpgResult_verdict keyring (env.run keyring msg) env.turns .cleared
    rw [hv]
    simp only [VerifyResult.verdict, Prod.mk.injEq] at h
    exact h.2.2
  · exact absurd hs hn

/-! ## The whole stream -/

/-- A valid verdict comes from a stream that was read to its end and rejects nowhere. -/
def CompleteVerdict (gpgPath keyring msg : Bytes) (env : GpgEnv) : Prop :=
  let stream := (env.run keyring msg).stream
  (gpgVerify gpgPath keyring msg env).2.valid = true →
    statusRead stream env.turns 0 = (stream.length, .eof) ∧
      ∀ line ∈ stream.splitOn 10, rejects line = false

/-- The loop is broken off by a deadline or an error when what it has looks good. -/
def BrokenOffGood (stream : Bytes) (turns : List Turn) : Prop :=
  ¬ReadsToEnd stream turns ∧ ¬Overflows stream turns ∧
    LooksGood (cString (stream.take (asked turns).sum))

/-- A rejection stands behind a NUL byte before which the stream looks good. -/
def HiddenRejection (stream : Bytes) (turns : List Turn) : Prop :=
  ReadsToEnd stream turns ∧ 0 ∈ stream ∧ LooksGood (cString stream) ∧
    ∃ line ∈ stream.splitOn 10, rejects line = true

theorem cString_of_notMem {buf : Bytes} (h : 0 ∉ buf) : cString buf = buf := by
  unfold cString
  rw [List.takeWhile_eq_self_iff]
  intro b hb
  simp only [bne_iff_ne, ne_eq]
  rintro rfl
  exact h hb

/-- An empty line carries no marker, so `strtok_r` skips none that does. -/
theorem mem_strtokLines_of_rejects {text line : Bytes} (hm : line ∈ text.splitOn 10)
    (hr : rejects line = true) : line ∈ strtokLines text := by
  refine List.mem_filter.mpr ⟨hm, ?_⟩
  cases line with
  | nil => exact absurd hr (by decide)
  | cons b bs => rfl

theorem completeVerdict_iff (gpgPath keyring msg : Bytes) (env : GpgEnv) :
    CompleteVerdict gpgPath keyring msg env ↔
      ¬(env.Starts gpgPath keyring ∧ (env.run keyring msg).PlainFits ∧
        (BrokenOffGood (env.run keyring msg).stream env.turns ∨
          HiddenRejection (env.run keyring msg).stream env.turns)) := by
  unfold CompleteVerdict
  simp only [gpgVerify_valid]
  generalize env.run keyring msg = run
  generalize env.turns = turns
  constructor
  · rintro hc ⟨hs, hp, ⟨hEnd, hFull, hGood⟩ | ⟨hEnd, -, hGood, line, hm, hr⟩⟩
    · have hTrust : run.Trusted turns := ⟨hFull, hp, by rwa [captured, if_neg hEnd]⟩
      have hRead := (hc ⟨hs, hTrust⟩).1
      exact hEnd ((statusRead_eof run.stream turns).mp (by rw [hRead]))
    · have hFull : ¬Overflows run.stream turns := fun h => absurd hEnd.1 (Nat.not_lt.mpr h.1)
      have hTrust : run.Trusted turns := ⟨hFull, hp, by rwa [captured, if_pos hEnd]⟩
      rw [(hc ⟨hs, hTrust⟩).2 line hm] at hr
      cases hr
  · rintro hno ⟨hs, hFull, hp, hGood⟩
    by_cases hEnd : ReadsToEnd run.stream turns
    · rw [captured, if_pos hEnd] at hGood
      refine ⟨by rw [statusRead_spec, if_pos hEnd], fun line hm => ?_⟩
      by_contra hr
      rw [Bool.not_eq_false] at hr
      by_cases hNul : (0 : UInt8) ∈ run.stream
      · exact hno ⟨hs, hp, .inr ⟨hEnd, hNul, hGood, line, hm, hr⟩⟩
      · rw [cString_of_notMem hNul] at hGood
        rw [hGood.2 line (mem_strtokLines_of_rejects hm hr)] at hr
        cases hr
    · rw [captured, if_neg hEnd] at hGood
      exact absurd ⟨hs, hp, .inl ⟨hEnd, hFull, hGood⟩⟩ hno

/-- A process that writes `stream` and leaves `plain`, under reads that go as `turns` say;
everything else succeeds. -/
def gpgWrites (stream plain : Bytes) (turns : List Turn) : GpgEnv where
  mkdtemp := .ok (ascii "/tmp/ngx_pgp_aaaaaa")
  openMsg := none
  written := true
  pipe := none
  fork := none
  gpg := fun _ _ => some ⟨stream, some plain, some 0⟩
  turns := turns

def sampleFpr : Bytes := ascii "0123456789ABCDEF0123456789ABCDEF01234567"

/-- gpg reports the signature, the deadline passes, and the rejection that follows is
never read. -/
theorem not_completeVerdict :
    ¬CompleteVerdict (ascii "/usr/bin/gpg") (ascii "/etc/keys.gpg") []
      (gpgWrites (statusTag ++ validsigTag ++ sampleFpr ++ ascii "\n[GNUPG:] REVKEYSIG")
        (ascii "hello") [.ready 58, .pollTimeout]) := by
  intro h
  have hEnd := (h (by decide +kernel)).1
  exact absurd hEnd (by decide +kernel)

/-! ## The fingerprint -/

/-- The identity of a `VALIDSIG` line by whole fields: the last one, else the first. -/
def wholeIdentity (args : Bytes) : Option Bytes :=
  if fprIsHex (lastField args) then some (lastField args)
  else if fprIsHex (firstField args) then some (firstField args)
  else none

/-- `fpr` is the identity of a `VALIDSIG` line of the stream. -/
def CarriesIdentity (stream fpr : Bytes) : Prop :=
  ∃ line ∈ stream.splitOn 10, (validsigArgs line).bind wholeIdentity = some fpr

instance (stream fpr : Bytes) : Decidable (CarriesIdentity stream fpr) :=
  inferInstanceAs (Decidable (∃ _ ∈ _, _))

/-- Arguments of the last `VALIDSIG` line of a buffer read as a C string. -/
def lastValidsig (out : Bytes) : Option Bytes :=
  ((strtokLines (cString out)).filterMap validsigArgs).getLast?

/-- The field a `VALIDSIG` line's fingerprint is copied from, uncut: the last one, else the
first. Only as much of a field is tested as there is room for. -/
def usedField (args : Bytes) : Option Bytes :=
  if fprIsHex ((lastField args).take fprRoom) then some (lastField args)
  else if fprIsHex ((firstField args).take fprRoom) then some (firstField args)
  else none

/-- Neither field of the last `VALIDSIG` line starts like a fingerprint. -/
def LastUnusable (out : Bytes) : Prop := (lastValidsig out).bind usedField = none

/-- A NUL byte, not a newline, ends the last line that is read, a `VALIDSIG` line. -/
def EndedByNul (out : Bytes) : Prop :=
  0 ∈ out ∧ (((cString out).splitOn 10).getLast?.bind validsigArgs).isSome = true

/-- Some `VALIDSIG` line of the stream has exactly these bytes as its last field, or as its
first where the last is no fingerprint. -/
def StandsWhole (out bytes : Bytes) : Prop :=
  ∃ line ∈ out.splitOn 10, ∃ args ∈ validsigArgs line,
    lastField args = bytes ∨ fprIsHex (lastField args) = false ∧ firstField args = bytes

/-- The last `VALIDSIG` line has a usable field, but one of 80 bytes or more, or a NUL byte
hides the end of the line, and the bytes left of it do not, by coincidence, stand in the
stream as a field of their own. -/
def LastShortened (out : Bytes) : Prop :=
  ∃ field, (lastValidsig out).bind usedField = some field ∧
    (fprRoom < field.length ∨ EndedByNul out) ∧ ¬StandsWhole out (field.take fprRoom)

theorem identity_eq (args : Bytes) : identity args = (usedField args).map (·.take fprRoom) := by
  unfold identity usedField
  split
  · rfl
  · split <;> rfl

theorem bind_identity (out : Bytes) :
    (lastValidsig out).bind identity =
      ((lastValidsig out).bind usedField).map (·.take fprRoom) := by
  cases lastValidsig out with
  | none => rfl
  | some args => exact identity_eq args

theorem fprIsHex_take {field : Bytes} (h : fprIsHex field = true) :
    fprIsHex (field.take fprRoom) = true := by
  simp only [fprIsHex, Bool.and_eq_true, decide_eq_true_eq, List.all_eq_true] at h ⊢
  refine ⟨?_, fun b hb => h.2 b (List.mem_of_mem_take hb)⟩
  rw [List.length_take, fprRoom]
  omega

theorem usedField_hex {args field : Bytes} (h : usedField args = some field) :
    fprIsHex (field.take fprRoom) = true := by
  unfold usedField at h
  split at h
  · rename_i hHex
    rwa [Option.some.inj h] at hHex
  · split at h
    · rename_i hHex
      rwa [Option.some.inj h] at hHex
    · cases h

/-- A used field that fits is the line's identity by whole fields. -/
theorem wholeIdentity_of_usedField {args field : Bytes} (h : usedField args = some field)
    (hFits : field.length ≤ fprRoom) : wholeIdentity args = some field := by
  have hWhole := usedField_hex h
  rw [List.take_of_length_le hFits] at hWhole
  unfold usedField at h
  unfold wholeIdentity
  split at h
  · rw [Option.some.inj h, if_pos hWhole]
  · rename_i hLast
    have hNot : ¬fprIsHex (lastField args) = true := fun hHex => hLast (fprIsHex_take hHex)
    split at h
    · rw [if_neg hNot, Option.some.inj h, if_pos hWhole]
    · cases h

theorem wholeIdentity_eq_some {args fpr : Bytes} (hHex : fprIsHex fpr = true) :
    wholeIdentity args = some fpr ↔
      lastField args = fpr ∨ fprIsHex (lastField args) = false ∧ firstField args = fpr := by
  unfold wholeIdentity
  constructor
  · intro h
    split at h
    · exact .inl (Option.some.inj h)
    · rename_i hLast
      split at h
      · exact .inr ⟨Bool.not_eq_true _ ▸ hLast, Option.some.inj h⟩
      · cases h
  · rintro (rfl | ⟨hLast, rfl⟩)
    · rw [if_pos hHex]
    · rw [hLast, if_neg Bool.false_ne_true, if_pos hHex]

theorem carriesIdentity_iff_standsWhole {out fpr : Bytes} (hHex : fprIsHex fpr = true) :
    CarriesIdentity out fpr ↔ StandsWhole out fpr := by
  unfold CarriesIdentity StandsWhole
  simp only [Option.bind_eq_some_iff, wholeIdentity_eq_some hHex, Option.mem_def]

/-- The last `VALIDSIG` line of what is read is one of the stream's own lines, unless a NUL
byte ends it. -/
theorem exists_line_of_lastValidsig {out args : Bytes} (h : lastValidsig out = some args)
    (hNul : ¬EndedByNul out) : ∃ line ∈ out.splitOn 10, validsigArgs line = some args := by
  obtain ⟨line, hLine, hArgs⟩ := List.mem_filterMap.mp (List.mem_of_getLast? h)
  have hMem : line ∈ (cString out).splitOn 10 := (List.mem_filter.mp hLine).1
  refine ⟨line, ?_, hArgs⟩
  by_cases h0 : (0 : UInt8) ∈ out
  · -- the piece up to the NUL byte is no `VALIDSIG` line, so `line` stands before it
    have hne : (cString out).splitOn 10 ≠ [] := List.splitOn_ne_nil _ _
    rw [← List.dropLast_append_getLast hne, List.mem_append, List.mem_singleton] at hMem
    rcases hMem with hInit | rfl
    · obtain ⟨rest, hRest⟩ : cString out <+: out := List.takeWhile_prefix _
      rw [← hRest]
      exact mem_splitOn_append hInit
    · refine absurd ⟨h0, ?_⟩ hNul
      rw [List.getLast?_eq_some_getLast hne, Option.bind_some, hArgs, Option.isSome_some]
  · rwa [cString_of_notMem h0] at hMem

/-- Bytes alone decide whether the fingerprint taken from the last `VALIDSIG` line is a whole
field of the stream. -/
theorem carriesIdentity_taken_iff {out field : Bytes}
    (h : (lastValidsig out).bind usedField = some field) :
    CarriesIdentity out (field.take fprRoom) ↔
      ¬((fprRoom < field.length ∨ EndedByNul out) ∧ ¬StandsWhole out (field.take fprRoom)) := by
  obtain ⟨args, hArgs, hUsed⟩ := Option.bind_eq_some_iff.mp h
  constructor
  · rintro hc ⟨-, hWhole⟩
    exact hWhole ((carriesIdentity_iff_standsWhole (usedField_hex hUsed)).mp hc)
  · intro hno
    by_cases hWhole : StandsWhole out (field.take fprRoom)
    · exact (carriesIdentity_iff_standsWhole (usedField_hex hUsed)).mpr hWhole
    · have hFits : field.length ≤ fprRoom := by
        by_contra hLong
        exact hno ⟨.inl (by omega), hWhole⟩
      have hNul : ¬EndedByNul out := fun hEnd => hno ⟨.inr hEnd, hWhole⟩
      obtain ⟨line, hLine, hValid⟩ := exists_line_of_lastValidsig hArgs hNul
      refine ⟨line, hLine, ?_⟩
      rw [hValid, Option.bind_some, wholeIdentity_of_usedField hUsed hFits,
        List.take_of_length_le hFits]

theorem statusParse_fpr_eq (out : Bytes) :
    (statusParse out).fpr = ((lastValidsig out).bind identity).getD [] := by
  rw [statusParse_fpr, lastValidsig]
  cases ((strtokLines (cString out)).filterMap validsigArgs).getLast? <;> rfl

theorem isHexDigit_of_identity {args fpr : Bytes} (h : identity args = some fpr) :
    ∀ b ∈ fpr, isHexDigit b = true := by
  rw [identity_eq, Option.map_eq_some_iff] at h
  obtain ⟨field, hUsed, rfl⟩ := h
  have hHex := usedField_hex hUsed
  simp only [fprIsHex, Bool.and_eq_true, List.all_eq_true] at hHex
  exact hHex.2

/-- Whatever gpg wrote, the fingerprint of a valid verdict is hexadecimal. -/
theorem gpgVerify_fpr_hex {gpgPath keyring msg : Bytes} {env : GpgEnv}
    (h : (gpgVerify gpgPath keyring msg env).2.valid = true) :
    ∀ b ∈ (gpgVerify gpgPath keyring msg env).2.fpr, isHexDigit b = true := by
  obtain ⟨hs, ht⟩ := (gpgVerify_valid gpgPath keyring msg env).mp h
  rw [gpgVerify_fpr hs ht, statusParse_fpr_eq]
  cases hLast : (lastValidsig (captured (env.run keyring msg).stream env.turns)).bind identity with
  | none => simp
  | some fpr =>
      obtain ⟨args, -, hId⟩ := Option.bind_eq_some_iff.mp hLast
      exact isHexDigit_of_identity hId

theorem not_carriesIdentity_nil (stream : Bytes) : ¬CarriesIdentity stream [] := by
  rintro ⟨line, -, h⟩
  obtain ⟨args, -, h⟩ := Option.bind_eq_some_iff.mp h
  unfold wholeIdentity at h
  split at h
  · rename_i hHex
    rw [Option.some.inj h] at hHex
    exact absurd hHex (by decide)
  · split at h
    · rename_i hHex
      rw [Option.some.inj h] at hHex
      exact absurd hHex (by decide)
    · cases h

theorem valid_carriesIdentity_iff (gpgPath keyring msg : Bytes) (env : GpgEnv) :
    ((gpgVerify gpgPath keyring msg env).2.valid = true →
      CarriesIdentity (captured (env.run keyring msg).stream env.turns)
        (gpgVerify gpgPath keyring msg env).2.fpr) ↔
      ¬(env.Starts gpgPath keyring ∧ (env.run keyring msg).Trusted env.turns ∧
        (LastUnusable (captured (env.run keyring msg).stream env.turns) ∨
          LastShortened (captured (env.run keyring msg).stream env.turns))) := by
  rw [gpgVerify_valid]
  constructor
  · rintro hc ⟨hs, ht, hLast⟩
    have hId := hc ⟨hs, ht⟩
    rw [gpgVerify_fpr hs ht, statusParse_fpr_eq, bind_identity] at hId
    rcases hLast with hNone | ⟨field, hSome, hShort⟩
    · rw [hNone] at hId
      exact not_carriesIdentity_nil _ hId
    · rw [hSome] at hId
      exact (carriesIdentity_taken_iff hSome).mp hId hShort
  · rintro hno ⟨hs, ht⟩
    rw [gpgVerify_fpr hs ht, statusParse_fpr_eq, bind_identity]
    cases hLast : (lastValidsig (captured (env.run keyring msg).stream env.turns)).bind usedField with
    | none => exact absurd ⟨hs, ht, .inl hLast⟩ hno
    | some field =>
        exact (carriesIdentity_taken_iff hLast).mpr fun hShort =>
          hno ⟨hs, ht, .inr ⟨field, hLast, hShort⟩⟩

/-- A second `VALIDSIG` line without a fingerprint leaves the verdict valid and the
fingerprint empty. -/
theorem valid_without_fpr :
    let env := gpgWrites (statusTag ++ validsigTag ++ sampleFpr ++ ascii "\n[GNUPG:] VALIDSIG -")
      (ascii "hello") [.ready 200, .ready 0]
    let vr := (gpgVerify (ascii "/usr/bin/gpg") (ascii "/etc/keys.gpg") [] env).2
    ¬(vr.valid = true → CarriesIdentity
      (captured (env.run (ascii "/etc/keys.gpg") []).stream env.turns) vr.fpr) := by
  decide +kernel

end PgpAuth
