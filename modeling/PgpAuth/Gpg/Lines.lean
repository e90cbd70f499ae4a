import PgpAuth.Gpg.Trust
import PgpAuth.Lib.Split

/-!
# The status verdict, line by line

The parse of gpg's status text is a `strtok_r` loop; for a `VALIDSIG` line it walks a
pointer to the last token and copies from there, byte by byte, into a buffer of fixed size.
`statusLoop` has these loops as they are written: a pointer into the text is the rest of it,
and the text ends where the pointer is at the empty rest. `statusLoop_eq` is the parse of
`PgpAuth.Gpg.Status`.

`StatusValid` says what the lines must be for a valid verdict, with no order among them.
-/

namespace PgpAuth

open Lib

/-! ## The loops -/

/-- Successive `strtok_r(.., "\n", ..)`: skip newlines, read up to the next one. -/
def strtokR : Nat → Bytes → List Bytes
  | 0, _ => []
  | fuel + 1, s =>
      let s := s.dropWhile (· == 10)
      if s = [] then [] else s.takeWhile (· != 10) :: strtokR fuel (s.dropWhile (· != 10))

/-- The walk of `q` along the arguments; `tok` is the start of the last token passed. -/
def lastToken : Nat → Bytes → Bytes → Bytes
  | 0, tok, _ => tok
  | fuel + 1, tok, q =>
      let q := q.dropWhile (· == 32)
      if q = [] then tok else lastToken fuel q (q.dropWhile (· != 32))

/-- The copy into `res->fpr`, up to a space, the end or the room left. -/
def copyFpr : Nat → Bytes → Bytes
  | 0, _ => []
  | _ + 1, [] => []
  | room + 1, b :: tok => if b = 32 then [] else b :: copyFpr room tok

/-- The body of the loop on one line. -/
def statusLine (s : StatusState) (line : Bytes) : StatusState :=
  if statusTag.isPrefixOf line then
    let p := line.drop statusTag.length
    if validsigTag.isPrefixOf p then
      let p := p.drop validsigTag.length
      let fpr := copyFpr fprRoom (lastToken p.length p p)
      if fprIsHex fpr then { s with good := true, fpr := fpr }
      else
        let fpr := copyFpr fprRoom p
        if fprIsHex fpr then { s with good := true, fpr := fpr } else { s with fpr := [] }
    else if rejectionMarkers.any (·.isPrefixOf p) then { s with bad := true }
    else s
  else s

def statusLoop (out : Bytes) : StatusState :=
  (strtokR (cString out).length (cString out)).foldl statusLine ⟨false, false, []⟩

/-! ## The loops and the fields they find -/

theorem length_dropWhile_dropWhile {d : UInt8} {s : Bytes} (h : s.dropWhile (· == d) ≠ []) :
    ((s.dropWhile (· == d)).dropWhile (· != d)).length < s.length := by
  obtain ⟨b, rest, hRest⟩ := List.exists_cons_of_ne_nil h
  have hb : (b != d) = true := by
    have := List.head_dropWhile_not (· == d) h
    simpa [hRest] using this
  have hLe : (s.dropWhile (· == d)).length ≤ s.length := (List.dropWhile_suffix _).length_le
  have hDrop : (rest.dropWhile (· != d)).length ≤ rest.length := (List.dropWhile_suffix _).length_le
  rw [hRest] at hLe ⊢
  rw [List.dropWhile_cons, if_pos hb]
  simp only [List.length_cons] at hLe
  omega

theorem strtokR_eq {fuel : Nat} {s : Bytes} (hFuel : s.length ≤ fuel) :
    strtokR fuel s = strtokLines s := by
  induction fuel generalizing s with
  | zero =>
      obtain rfl : s = [] := List.length_eq_zero_iff.mp (by omega)
      rfl
  | succ fuel ih =>
      rw [strtokR]
      by_cases hEnd : s.dropWhile (· == 10) = []
      · rw [if_pos hEnd]
        exact (tokens_eq_nil hEnd).symm
      · have hLen := length_dropWhile_dropWhile hEnd
        rw [if_neg hEnd, ih (by omega)]
        exact (tokens_eq_cons hEnd).symm

/-- The walk ends at the last token, or stays where it began when there is none. -/
theorem takeWhile_lastToken {fuel : Nat} {q : Bytes} (hFuel : q.length ≤ fuel) (tok : Bytes) :
    (lastToken fuel tok q).takeWhile (· != 32) =
      (tokens 32 q).getLast?.getD (tok.takeWhile (· != 32)) := by
  induction fuel generalizing q tok with
  | zero =>
      obtain rfl : q = [] := List.length_eq_zero_iff.mp (by omega)
      rfl
  | succ fuel ih =>
      rw [lastToken]
      by_cases hEnd : q.dropWhile (· == 32) = []
      · rw [if_pos hEnd, tokens_eq_nil hEnd]
        rfl
      · have hLen := length_dropWhile_dropWhile hEnd
        rw [if_neg hEnd, ih (by omega), tokens_eq_cons hEnd, List.getLast?_cons]
        rfl

theorem copyFpr_eq (room : Nat) (tok : Bytes) :
    copyFpr room tok = (tok.takeWhile (· != 32)).take room := by
  induction room generalizing tok with
  | zero => rfl
  | succ room ih =>
      cases tok with
      | nil => rfl
      | cons b tok =>
          by_cases hb : b = 32
          · simp [copyFpr, hb]
          · simp [copyFpr, hb, ih]

theorem takeWhile_eq_nil_of_tokens {d : UInt8} {p : Bytes} (h : tokens d p = []) :
    p.takeWhile (· != d) = [] := by
  cases p with
  | nil => rfl
  | cons b p =>
      by_cases hb : b = d
      · simp [hb]
      · have hNe : (b :: p).dropWhile (· == d) ≠ [] := by simp [hb]
        rw [tokens_eq_cons hNe] at h
        cases h

/-- Walk and copy give the last field. -/
theorem copyFpr_lastToken (p : Bytes) :
    copyFpr fprRoom (lastToken p.length p p) = (lastField p).take fprRoom := by
  rw [copyFpr_eq, takeWhile_lastToken (Nat.le_refl _)]
  change ((tokens 32 p).getLast?.getD _).take _ = ((tokens 32 p).getLast?.getD []).take _
  cases hTokens : (tokens 32 p).getLast? with
  | some field => rfl
  | none =>
      rw [Option.getD_none, takeWhile_eq_nil_of_tokens (List.getLast?_eq_none_iff.mp hTokens)]
      rfl

theorem statusLine_eq (s : StatusState) (line : Bytes) : statusLine s line = statusStep s line := by
  unfold statusLine statusStep identity
  dsimp only
  rw [copyFpr_lastToken, copyFpr_eq, ← firstField]
  split
  · split
    · split
      · rfl
      · split <;> rfl
    · rfl
  · rfl

theorem statusLoop_eq (out : Bytes) : statusLoop out = statusParse out := by
  unfold statusLoop statusParse
  rw [strtokR_eq (Nat.le_refl _)]
  congr 1
  funext s line
  exact statusLine_eq s line

/-! ## The verdict -/

/-- The first 79 bytes are at least 32 hexadecimal digits and nothing else. -/
def UsableField (field : Bytes) : Prop :=
  32 ≤ (field.take fprRoom).length ∧ ∀ b ∈ field.take fprRoom, isHexDigit b = true

/-- A `VALIDSIG` line with a usable last field, or else a usable first one. -/
def UsableSignature (line : Bytes) : Prop :=
  ∃ args, line = statusTag ++ validsigTag ++ args ∧
    (UsableField (lastField args) ∨ UsableField (firstField args))

def Rejection (line : Bytes) : Prop :=
  ∃ marker ∈ rejectionMarkers, ∃ rest, line = statusTag ++ marker ++ rest

/-- Some line is a usable signature and none a rejection. -/
def StatusValid (lines : List Bytes) : Prop :=
  (∃ line ∈ lines, UsableSignature line) ∧ ∀ line ∈ lines, ¬ Rejection line

theorem usableField_iff (field : Bytes) :
    UsableField field ↔ fprIsHex (field.take fprRoom) = true := by
  simp [UsableField, fprIsHex]

theorem identity_isSome (args : Bytes) :
    (identity args).isSome = true ↔
      UsableField (lastField args) ∨ UsableField (firstField args) := by
  rw [usableField_iff, usableField_iff]
  unfold identity
  split
  · rename_i hLast
    simp [hLast]
  · rename_i hLast
    split
    · rename_i hFirst
      simp [hFirst]
    · rename_i hFirst
      simp [hLast, hFirst]

theorem drop_of_isPrefixOf {tag line : Bytes} (h : tag.isPrefixOf line = true) :
    line = tag ++ line.drop tag.length := by
  obtain ⟨rest, rfl⟩ := List.isPrefixOf_iff_prefix.mp h
  rw [List.drop_left]

theorem isPrefixOf_append (tag rest : Bytes) : tag.isPrefixOf (tag ++ rest) = true :=
  List.isPrefixOf_iff_prefix.mpr (List.prefix_append tag rest)

theorem usableSignature_iff (line : Bytes) :
    UsableSignature line ↔ ((validsigArgs line).bind identity).isSome = true := by
  constructor
  · rintro ⟨args, rfl, hField⟩
    have hArgs : validsigArgs (statusTag ++ validsigTag ++ args) = some args := by
      rw [List.append_assoc, validsigArgs, List.drop_left, List.drop_left,
        if_pos ⟨isPrefixOf_append _ _, isPrefixOf_append _ _⟩]
    rw [hArgs]
    exact (identity_isSome args).mpr hField
  · intro hSome
    cases hArgs : validsigArgs line with
    | none => simp [hArgs] at hSome
    | some args =>
        rw [hArgs, Option.bind_some] at hSome
        unfold validsigArgs at hArgs
        split at hArgs
        · rename_i hTags
          refine ⟨args, ?_, (identity_isSome args).mp hSome⟩
          rw [← Option.some.inj hArgs, List.append_assoc, ← drop_of_isPrefixOf hTags.2]
          exact drop_of_isPrefixOf hTags.1
        · cases hArgs

theorem rejection_iff (line : Bytes) : Rejection line ↔ rejects line = true := by
  unfold rejects
  rw [Bool.and_eq_true, List.any_eq_true]
  constructor
  · rintro ⟨marker, hMarker, rest, rfl⟩
    rw [List.append_assoc, List.drop_left]
    exact ⟨isPrefixOf_append _ _, marker, hMarker, isPrefixOf_append _ _⟩
  · rintro ⟨hTag, marker, hMarker, hPrefix⟩
    refine ⟨marker, hMarker, (line.drop statusTag.length).drop marker.length, ?_⟩
    rw [List.append_assoc, ← drop_of_isPrefixOf hPrefix]
    exact drop_of_isPrefixOf hTag

/-- A line that says anything starts with the tag. -/
theorem tagged_of_signature_or_rejection {line : Bytes}
    (h : UsableSignature line ∨ Rejection line) :
    statusTag.isPrefixOf line = true := by
  rcases h with ⟨args, rfl, -⟩ | ⟨marker, -, rest, rfl⟩
  · rw [List.append_assoc]
    exact isPrefixOf_append _ _
  · rw [List.append_assoc]
    exact isPrefixOf_append _ _

/-- Only the tagged lines count, in any order. -/
theorem StatusValid.of_tagged {lines lines' : List Bytes}
    (hSame : ∀ line, statusTag.isPrefixOf line = true → (line ∈ lines ↔ line ∈ lines'))
    (h : StatusValid lines) : StatusValid lines' := by
  obtain ⟨⟨line, hLine, hSig⟩, hClean⟩ := h
  refine ⟨⟨line, (hSame line (tagged_of_signature_or_rejection (.inl hSig))).mp hLine, hSig⟩, ?_⟩
  intro line hLine hRej
  exact hClean line ((hSame line (tagged_of_signature_or_rejection (.inr hRej))).mpr hLine) hRej

theorem statusValid_congr {lines lines' : List Bytes}
    (hSame : ∀ line, statusTag.isPrefixOf line = true → (line ∈ lines ↔ line ∈ lines')) :
    StatusValid lines ↔ StatusValid lines' :=
  ⟨.of_tagged hSame, .of_tagged fun line hTag => (hSame line hTag).symm⟩

theorem looksGood_iff_statusValid (text : Bytes) :
    LooksGood text ↔ StatusValid (text.splitOn 10) := by
  have hLines : StatusValid (strtokLines text) ↔ StatusValid (text.splitOn 10) := by
    refine statusValid_congr fun line hTag => ?_
    rw [strtokLines, List.mem_filter, and_iff_left_iff_imp]
    rintro -
    cases line with
    | nil => cases hTag
    | cons b line => rfl
  rw [← hLines]
  simp only [LooksGood, StatusValid, usableSignature_iff, rejection_iff, Bool.not_eq_true]

/-- The status text of a run, free of NUL bytes, fits the buffer and was read to its end. -/
structure ReadInFull (keyring msg : Bytes) (env : GpgEnv) : Prop where
  readsToEnd : ReadsToEnd (env.run keyring msg).stream env.turns
  noNul : 0 ∉ (env.run keyring msg).stream

/-- Nothing but the status text can stand against a valid verdict. -/
def GpgEnv.Completes (env : GpgEnv) (gpgPath keyring msg : Bytes) : Prop :=
  env.Starts gpgPath keyring ∧ (env.run keyring msg).PlainFits

/-- The status lines of a run. -/
def GpgEnv.lines (env : GpgEnv) (keyring msg : Bytes) : List Bytes :=
  (env.run keyring msg).stream.splitOn 10

theorem gpgVerify_valid_of_readInFull {gpgPath keyring msg : Bytes} {env : GpgEnv}
    (h : ReadInFull keyring msg env) :
    (gpgVerify gpgPath keyring msg env).2.valid = true ↔
      env.Completes gpgPath keyring msg ∧ StatusValid (env.lines keyring msg) := by
  have hFits : ¬ Overflows (env.run keyring msg).stream env.turns :=
    fun hFull => absurd h.readsToEnd.1 (Nat.not_lt.mpr hFull.1)
  have hText : cString (captured (env.run keyring msg).stream env.turns) =
      (env.run keyring msg).stream := by
    rw [captured, if_pos h.readsToEnd, cString_of_notMem h.noNul]
  rw [gpgVerify_valid, GpgRun.Trusted, hText, looksGood_iff_statusValid, GpgEnv.lines]
  constructor
  · rintro ⟨hStarts, -, hPlain, hValid⟩
    exact ⟨⟨hStarts, hPlain⟩, hValid⟩
  · rintro ⟨⟨hStarts, hPlain⟩, hValid⟩
    exact ⟨hStarts, hFits, hPlain, hValid⟩

/-- `new` are the lines of `old` in another order, or with lines inserted that do not carry
the tag. -/
def Rearranged (old new : List Bytes) : Prop :=
  new.Perm old ∨
    ∃ before extra after, old = before ++ after ∧ new = before ++ extra ++ after ∧
      ∀ line ∈ extra, statusTag.isPrefixOf line = false

theorem Rearranged.statusValid {old new : List Bytes} (h : Rearranged old new) :
    StatusValid new ↔ StatusValid old := by
  apply statusValid_congr
  intro line hTag
  rcases h with hPerm | ⟨before, extra, after, rfl, rfl, hExtra⟩
  · exact hPerm.mem_iff
  · have hNot : line ∉ extra := by
      intro hIn
      rw [hExtra line hIn] at hTag
      cases hTag
    simp [hNot]

/-- A status text read in full is valid exactly by what its lines are; the loops of the
source decide so, and neither another order of the lines nor further lines without the tag
make a difference. -/
theorem status_verdict_order_independent (gpgPath keyring msg : Bytes) (env : GpgEnv)
    (h : ReadInFull keyring msg env) :
    ((gpgVerify gpgPath keyring msg env).2.valid = true ↔
        env.Completes gpgPath keyring msg ∧ StatusValid (env.lines keyring msg)) ∧
      ((statusLoop (env.run keyring msg).stream).good = true ∧
          (statusLoop (env.run keyring msg).stream).bad = false ↔
        StatusValid (env.lines keyring msg)) ∧
      ∀ env' : GpgEnv, ReadInFull keyring msg env' →
        (env'.Completes gpgPath keyring msg ↔ env.Completes gpgPath keyring msg) →
        Rearranged (env.lines keyring msg) (env'.lines keyring msg) →
          (gpgVerify gpgPath keyring msg env').2.valid =
            (gpgVerify gpgPath keyring msg env).2.valid := by
  refine ⟨gpgVerify_valid_of_readInFull h, ?_, ?_⟩
  · rw [statusLoop_eq, ← looksGood_iff, cString_of_notMem h.noNul, looksGood_iff_statusValid,
      GpgEnv.lines]
  · intro env' h' hCompletes hLines
    rw [Bool.eq_iff_iff, gpgVerify_valid_of_readInFull h', gpgVerify_valid_of_readInFull h,
      hCompletes, hLines.statusValid]

/-- A rejection in front of the signature, with and without a line of another kind. -/
def rejectedText : Bytes := ascii "[GNUPG:] EXPKEYSIG x\n[GNUPG:] VALIDSIG " ++ sampleFpr

def rejectedRun (before : Bytes) : GpgEnv :=
  gpgWrites (before ++ rejectedText) (ascii "hello") [.ready 8190, .ready 0]

theorem status_verdict_rejected :
    (gpgVerify (ascii "/usr/bin/gpg") (ascii "/etc/keys.gpg") []
        (rejectedRun (ascii "gpg: note\n"))).2.valid =
      (gpgVerify (ascii "/usr/bin/gpg") (ascii "/etc/keys.gpg") [] (rejectedRun [])).2.valid := by
  have hOld : ReadInFull (ascii "/etc/keys.gpg") [] (rejectedRun []) :=
    ⟨by decide +kernel, by decide +kernel⟩
  have hNew : ReadInFull (ascii "/etc/keys.gpg") [] (rejectedRun (ascii "gpg: note\n")) :=
    ⟨by decide +kernel, by decide +kernel⟩
  have h := status_verdict_order_independent (ascii "/usr/bin/gpg") _ _ (rejectedRun []) hOld
  exact h.2.2 _ hNew Iff.rfl (.inr ⟨[], [ascii "gpg: note"],
    (rejectedRun []).lines (ascii "/etc/keys.gpg") [], by decide +kernel, by decide +kernel,
    by decide +kernel⟩)

end PgpAuth
