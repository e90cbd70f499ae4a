import PgpAuth.Gpg.Status

/-!
# Running gpg

`gpgVerify` writes the message to a fresh directory, forks gpg and reads its status pipe
until end of file, a deadline, a full buffer or an error. What the system does is in
`GpgEnv`: the outcome of each call, the process gpg itself, and one `Turn` for each round
of the read loop. A read that succeeds gives at least one byte unless the stream is at
its end.

`statusRead_spec` solves the read loop: how it ends and how much it captured, from the
sizes asked for. `gpgVerify_valid` is the verdict in those terms.
-/

namespace PgpAuth

open Lib

/-- One round of the read loop; `ready more` reads up to `more + 1` bytes. -/
inductive Turn where
  | deadline
  | pollTimeout
  | pollIntr
  | pollError
  | readIntr
  | readError
  | ready (more : Nat)
  deriving DecidableEq, Repr

inductive ReadEnd where
  | timedOut
  | pollFailed
  | overflow
  | eof
  | readFailed
  deriving DecidableEq, Repr

/-- `sizeof(out) - 1` -/
def statusRoom : Nat := 8191

/-- `NGX_HTTP_PGP_PLAINTEXT_MAX` -/
def plaintextMax : Nat := 8192

/-- The read loop, from `off` bytes of the stream on: where it stops, and why. The
deadline passes at the latest when the turns are used up. -/
def statusRead (stream : Bytes) : List Turn → Nat → Nat × ReadEnd
  | [], off => (off, .timedOut)
  | .deadline :: _, off => (off, .timedOut)
  | .pollTimeout :: _, off => (off, .timedOut)
  | .pollError :: _, off => (off, .pollFailed)
  | .readError :: _, off => (off, .readFailed)
  | .pollIntr :: ts, off => statusRead stream ts off
  | .readIntr :: ts, off => statusRead stream ts off
  | .ready more :: ts, off =>
      let n := min (more + 1) (min (statusRoom - off) (stream.length - off))
      if n = 0 then (off, .eof)
      else if statusRoom ≤ off + n then (off + n, .overflow)
      else statusRead stream ts (off + n)

/-- What gpg does: the bytes it writes to the status pipe, the plaintext file where it
leaves one, and its exit code unless a signal ends it. -/
structure GpgRun where
  stream : Bytes
  plain : Option Bytes
  exit : Option Nat
  deriving DecidableEq, Repr

/-- Outcomes met by one call of `ngx_http_pgp_gpg_verify`; failed system calls come with
`errno`. `gpg` takes the keyring and the message, and is `none` where `execve` fails. -/
structure GpgEnv where
  mkdtemp : Except Nat Bytes
  openMsg : Option Nat
  written : Bool
  pipe : Option Nat
  fork : Option Nat
  gpg : Bytes → Bytes → Option GpgRun
  turns : List Turn

/-- After a failed `execve` the child leaves with 127 and has written nothing. -/
def GpgEnv.run (env : GpgEnv) (keyring msg : Bytes) : GpgRun :=
  (env.gpg keyring msg).getD ⟨[], none, some 127⟩

def VerifyResult.cleared : VerifyResult := ⟨false, [], [], none, false, .error, none⟩

/-- How gpg's own text is made safe for the log. -/
def printable (b : UInt8) : UInt8 :=
  if b = 10 ∨ b = 13 then 32 else if b < 0x20 ∨ b = 0x7f then charByte '?' else b

def exitText : Option Nat → Bytes
  | some code => decimal code
  | none => ascii "-1"

/-- From the captured output on: the parse and its diagnostics. -/
def gpgJudge (keyring out : Bytes) (ended : ReadEnd) (plain : Option Bytes) (exit : Option Nat)
    (vr : VerifyResult) : VerifyResult :=
  let vr :=
    if ended = .timedOut then deferDiag vr .err "pgp_auth: gpg verify timed out, killed" []
    else vr
  let plain := plain.getD []
  let truncated := ended == .overflow || plaintextMax ≤ plain.length
  let s := statusParse out
  let vr :=
    if truncated then deferDiag vr .err "pgp_auth: gpg output truncated; rejecting" [] else vr
  let valid := s.good && !s.bad && !truncated
  let vr :=
    { vr with
      valid := valid, fpr := if valid then s.fpr else [], plaintext := plain.take plaintextMax }
  if valid then vr
  else
    let shown := (cString out).map printable
    deferDiag vr .warn
      "pgp_auth: gpg verify produced no valid signature (keyring \"%V\", exit %d): %s"
      [keyring, exitText exit, if shown = [] then ascii "(no output)" else shown]

/-- The parent, from the read loop on. -/
def gpgResult (keyring : Bytes) (run : GpgRun) (turns : List Turn) (vr : VerifyResult) :
    VerifyResult :=
  let read := statusRead run.stream turns 0
  gpgJudge keyring (run.stream.take read.1) read.2 run.plain run.exit vr

/-- `PATH_MAX` -/
def pathMax : Nat := 4096

def gpgVerify (gpgPath keyring msg : Bytes) (env : GpgEnv) : Rc × VerifyResult :=
  let vr := VerifyResult.cleared
  if keyring.length = 0 ∨ pathMax ≤ keyring.length then
    (.error, deferDiag vr .err "pgp_auth: invalid keyring path" [])
  else if gpgPath.length = 0 ∨ pathMax ≤ gpgPath.length ∨ gpgPath.head? ≠ some (charByte '/') then
    (.error, deferDiag vr .err "pgp_auth: invalid gpg binary path" [])
  else
    match env.mkdtemp with
    | .error e => (.error, deferDiag vr .err "pgp_auth: mkdtemp() failed (errno %d)" [decimal e])
    | .ok home =>
        match env.openMsg with
        | some e =>
            (.error, deferDiag vr .err "pgp_auth: open(%s) failed (errno %d)"
              [home ++ ascii "/m", decimal e])
        | none =>
            if env.written = false then (.error, vr)
            else
              match env.pipe, env.fork with
              | some e, _ =>
                  (.error, deferDiag vr .err "pgp_auth: pipe() failed (errno %d)" [decimal e])
              | none, some e =>
                  (.error, deferDiag vr .err "pgp_auth: fork() failed (errno %d)" [decimal e])
              | none, none => (.ok, gpgResult keyring (env.run keyring msg) env.turns vr)

/-! ## The read loop -/

/-- Sizes asked for by the reads up to the turn that breaks the loop off. -/
def asked : List Turn → List Nat
  | .ready more :: ts => (more + 1) :: asked ts
  | .pollIntr :: ts => asked ts
  | .readIntr :: ts => asked ts
  | _ => []

/-- Why the loop is broken off, where neither end of file nor a full buffer stops it. -/
def brokenOff : List Turn → ReadEnd
  | .ready _ :: ts => brokenOff ts
  | .pollIntr :: ts => brokenOff ts
  | .readIntr :: ts => brokenOff ts
  | .pollError :: _ => .pollFailed
  | .readError :: _ => .readFailed
  | _ => .timedOut

/-- Some read comes after the whole stream has been read, and the buffer has not filled
up before. -/
def ReadsToEnd (stream : Bytes) (turns : List Turn) : Prop :=
  stream.length < statusRoom ∧ asked turns ≠ [] ∧ stream.length ≤ (asked turns).dropLast.sum

/-- The reads fill the buffer. -/
def Overflows (stream : Bytes) (turns : List Turn) : Prop :=
  statusRoom ≤ stream.length ∧ statusRoom ≤ (asked turns).sum

instance (stream : Bytes) (turns : List Turn) : Decidable (ReadsToEnd stream turns) :=
  inferInstanceAs (Decidable (_ ∧ _))

instance (stream : Bytes) (turns : List Turn) : Decidable (Overflows stream turns) :=
  inferInstanceAs (Decidable (_ ∧ _))

theorem sum_dropLast_cons (a : Nat) (as : List Nat) :
    as = [] ∧ (a :: as).dropLast.sum = 0 ∨
      as ≠ [] ∧ (a :: as).dropLast.sum = a + as.dropLast.sum := by
  cases as with
  | nil => exact .inl ⟨rfl, rfl⟩
  | cons b bs => exact .inr ⟨by simp, by simp⟩

/-- The loop from the middle of the stream on; `off` bytes have been read. -/
theorem statusRead_from (stream : Bytes) (ts : List Turn) (off : Nat) (hRoom : off < statusRoom)
    (hOff : off ≤ stream.length) :
    (stream.length < statusRoom → asked ts ≠ [] →
        stream.length ≤ off + (asked ts).dropLast.sum →
        statusRead stream ts off = (stream.length, .eof)) ∧
      (statusRoom ≤ stream.length → statusRoom ≤ off + (asked ts).sum →
        statusRead stream ts off = (statusRoom, .overflow)) ∧
      (stream.length < statusRoom ∨ off + (asked ts).sum < statusRoom →
        statusRoom ≤ stream.length ∨ asked ts = [] ∨
          off + (asked ts).dropLast.sum < stream.length →
        statusRead stream ts off = (min stream.length (off + (asked ts).sum), brokenOff ts)) := by
  induction ts generalizing off with
  | nil =>
      refine ⟨fun _ h => absurd rfl h, fun _ h => ?_, fun _ _ => ?_⟩
      · simp only [asked, List.sum_nil] at h
        omega
      · simp [statusRead, asked, brokenOff, hOff]
  | cons t ts ih =>
      cases t with
      | pollIntr => exact ih off hRoom hOff
      | readIntr => exact ih off hRoom hOff
      | deadline | pollTimeout | pollError | readError =>
          refine ⟨fun _ h => absurd rfl h, fun _ h => ?_, fun _ _ => ?_⟩
          · simp only [asked, List.sum_nil] at h
            omega
          · simp [statusRead, asked, brokenOff, hOff]
      | ready more =>
          have hDrop := sum_dropLast_cons (more + 1) (asked ts)
          simp only [statusRead, asked, brokenOff, List.sum_cons]
          obtain ⟨n, hn⟩ :
            ∃ n, min (more + 1) (min (statusRoom - off) (stream.length - off)) = n := ⟨_, rfl⟩
          rw [hn]
          by_cases hEnd : n = 0
          · rw [if_pos hEnd]
            refine ⟨fun _ _ _ => by rw [show off = stream.length by omega], by omega, ?_⟩
            rintro - (h | h | h)
            · omega
            · cases h
            · omega
          · rw [if_neg hEnd]
            by_cases hFull : statusRoom ≤ off + n
            · rw [if_pos hFull]
              exact ⟨by omega, fun _ _ => by rw [show off + n = statusRoom by omega], by omega⟩
            · rw [if_neg hFull]
              obtain ⟨hEof, hOver, hBroken⟩ := ih (off + n) (by omega) (by omega)
              -- the new offset is `off + more + 1`, or the end of the stream
              have hNew : n = more + 1 ∨ n < more + 1 ∧ off + n = stream.length := by omega
              have hLe : off + n ≤ stream.length := by omega
              clear hn ih
              rcases hDrop with ⟨hNil, hSum⟩ | ⟨hNil, hSum⟩
              · rw [hSum]
                rw [hNil, List.sum_nil] at hBroken ⊢
                refine ⟨by omega, by omega, fun h _ => ?_⟩
                rw [hBroken (by omega) (.inr (.inl rfl)),
                  show min stream.length (off + n + 0) = min stream.length (off + (more + 1 + 0))
                    by omega]
              · rw [hSum]
                refine ⟨fun h _ h' => hEof h hNil (by omega), fun h h' => hOver h (by omega),
                  fun h h' => ?_⟩
                rw [hBroken (by omega) (by simp at h'; omega),
                  show min stream.length (off + n + (asked ts).sum) =
                    min stream.length (off + (more + 1 + (asked ts).sum)) by omega]

/-- How the read loop ends, and how many bytes it has by then. -/
theorem statusRead_spec (stream : Bytes) (turns : List Turn) :
    statusRead stream turns 0 =
      if ReadsToEnd stream turns then (stream.length, .eof)
      else if Overflows stream turns then (statusRoom, .overflow)
      else (min stream.length (asked turns).sum, brokenOff turns) := by
  obtain ⟨hEof, hOver, hBroken⟩ :=
    statusRead_from stream turns 0 (by decide) (Nat.zero_le _)
  simp only [Nat.zero_add] at hEof hOver hBroken
  split
  · rename_i h
    exact hEof h.1 h.2.1 h.2.2
  · rename_i hEnd
    split
    · rename_i h
      exact hOver h.1 h.2
    · rename_i hFull
      unfold ReadsToEnd at hEnd
      unfold Overflows at hFull
      refine hBroken (by omega) ?_
      by_cases hNil : asked turns = []
      · exact .inr (.inl hNil)
      · simp only [ne_eq, hNil, not_false_eq_true, true_and] at hEnd
        omega

/-! ## The verdict -/

/-- What the loop hands to the parser. -/
def captured (stream : Bytes) (turns : List Turn) : Bytes :=
  if ReadsToEnd stream turns then stream else stream.take (asked turns).sum

/-- gpg's run counts: every call up to `fork` succeeds. -/
def GpgEnv.Starts (env : GpgEnv) (gpgPath keyring : Bytes) : Prop :=
  ¬(keyring.length = 0 ∨ pathMax ≤ keyring.length) ∧
    ¬(gpgPath.length = 0 ∨ pathMax ≤ gpgPath.length ∨ gpgPath.head? ≠ some (charByte '/')) ∧
    env.mkdtemp.isOk = true ∧ env.openMsg = none ∧ env.written = true ∧ env.pipe = none ∧
    env.fork = none

/-- The plaintext gpg leaves fits into `res->plaintext`. -/
def GpgRun.PlainFits (run : GpgRun) : Prop := (run.plain.getD []).length < plaintextMax

instance (run : GpgRun) : Decidable run.PlainFits := inferInstanceAs (Decidable (_ < _))

/-- gpg's run is believed: the stream looks good as far as it was captured and read as a C
string, and neither buffer filled up. -/
def GpgRun.Trusted (run : GpgRun) (turns : List Turn) : Prop :=
  ¬Overflows run.stream turns ∧ run.PlainFits ∧ LooksGood (cString (captured run.stream turns))

instance (run : GpgRun) (turns : List Turn) : Decidable (run.Trusted turns) :=
  inferInstanceAs (Decidable (_ ∧ _))

/-- Unless the buffer fills up, the loop stops with `captured` in it. -/
theorem take_statusRead {stream : Bytes} {turns : List Turn} (h : ¬Overflows stream turns) :
    stream.take (statusRead stream turns 0).1 = captured stream turns := by
  rw [statusRead_spec, captured]
  by_cases hEnd : ReadsToEnd stream turns
  · simp [hEnd]
  · simp [hEnd, h, List.take_eq_take_iff, Nat.min_comm]

theorem brokenOff_ne (turns : List Turn) : brokenOff turns ≠ .overflow ∧ brokenOff turns ≠ .eof := by
  fun_induction brokenOff turns <;> simp_all

theorem statusRead_overflow (stream : Bytes) (turns : List Turn) :
    (statusRead stream turns 0).2 = .overflow ↔ Overflows stream turns := by
  rw [statusRead_spec]
  by_cases hEnd : ReadsToEnd stream turns
  · have hNot : ¬Overflows stream turns := fun h => absurd hEnd.1 (Nat.not_lt.mpr h.1)
    simp [hEnd, hNot]
  · by_cases hFull : Overflows stream turns
    · simp [hEnd, hFull]
    · simp [hEnd, hFull, (brokenOff_ne turns).1]

theorem statusRead_eof (stream : Bytes) (turns : List Turn) :
    (statusRead stream turns 0).2 = .eof ↔ ReadsToEnd stream turns := by
  rw [statusRead_spec]
  by_cases hEnd : ReadsToEnd stream turns
  · simp [hEnd]
  · by_cases hFull : Overflows stream turns
    · simp [hEnd, hFull]
    · simp [hEnd, hFull, (brokenOff_ne turns).2]

theorem trusted_iff (run : GpgRun) (turns : List Turn) :
    run.Trusted turns ↔
      ((statusParse (run.stream.take (statusRead run.stream turns 0).1)).good &&
        !(statusParse (run.stream.take (statusRead run.stream turns 0).1)).bad &&
        !((statusRead run.stream turns 0).2 == .overflow ||
          plaintextMax ≤ (run.plain.getD []).length)) = true := by
  by_cases hFull : Overflows run.stream turns
  · simp [GpgRun.Trusted, hFull, (statusRead_overflow run.stream turns).mpr hFull]
  · have hEnd : (statusRead run.stream turns 0).2 ≠ .overflow :=
      fun h => hFull ((statusRead_overflow run.stream turns).mp h)
    rw [take_statusRead hFull]
    simp only [GpgRun.Trusted, GpgRun.PlainFits, hFull, not_false_eq_true, true_and,
      looksGood_iff, Bool.and_eq_true, Bool.not_eq_true', Bool.or_eq_false_iff, beq_eq_false_iff_ne,
      ne_eq, hEnd, decide_eq_false_iff_not, not_le]
    exact and_comm

theorem gpgResult_verdict (keyring : Bytes) (run : GpgRun) (turns : List Turn)
    (vr : VerifyResult) :
    (gpgResult keyring run turns vr).verdict =
      (decide (run.Trusted turns),
        if run.Trusted turns then (statusParse (captured run.stream turns)).fpr else [],
        (run.plain.getD []).take plaintextMax) := by
  have hTrust := trusted_iff run turns
  have hTake := @take_statusRead run.stream turns
  unfold gpgResult gpgJudge
  dsimp only
  generalize statusRead run.stream turns 0 = read at *
  generalize hv : ((statusParse (run.stream.take read.1)).good &&
    !(statusParse (run.stream.take read.1)).bad &&
    !(read.2 == .overflow || plaintextMax ≤ (run.plain.getD []).length)) = valid at *
  cases valid with
  | false =>
      simp only [Bool.false_eq_true, iff_false] at hTrust
      simp only [Bool.false_eq_true, if_false, deferDiag_verdict, hTrust, decide_false]
      rfl
  | true =>
      simp only [iff_true] at hTrust
      simp only [hTrust, if_true, decide_true, ← hTake hTrust.1]
      rfl

theorem gpgVerify_cases (gpgPath keyring msg : Bytes) (env : GpgEnv) :
    (env.Starts gpgPath keyring ∧ gpgVerify gpgPath keyring msg env =
      (.ok, gpgResult keyring (env.run keyring msg) env.turns .cleared)) ∨
    (¬env.Starts gpgPath keyring ∧ (gpgVerify gpgPath keyring msg env).1 = .error ∧
      (gpgVerify gpgPath keyring msg env).2.valid = false) := by
  unfold gpgVerify GpgEnv.Starts
  dsimp only
  split
  · rename_i h
    refine .inr ⟨fun hs => hs.1 h, rfl, rfl⟩
  · rename_i hKeyring
    split
    · rename_i h
      exact .inr ⟨fun hs => hs.2.1 h, rfl, rfl⟩
    · rename_i hPath
      cases hDir : env.mkdtemp with
      | error e => exact .inr ⟨by simp [Except.isOk, Except.toBool], rfl, rfl⟩
      | ok home =>
          cases hOpen : env.openMsg with
          | some e => exact .inr ⟨by simp, rfl, rfl⟩
          | none =>
              dsimp only
              cases hWritten : env.written with
              | false => exact .inr ⟨by simp, rfl, rfl⟩
              | true =>
                  cases hPipe : env.pipe with
                  | some e => exact .inr ⟨by simp, rfl, rfl⟩
                  | none =>
                      cases hFork : env.fork with
                      | some e => exact .inr ⟨by simp, rfl, rfl⟩
                      | none =>
                          exact .inl ⟨⟨hKeyring, hPath, rfl, rfl, rfl, rfl, rfl⟩, rfl⟩

theorem gpgResult_chalDone (keyring : Bytes) (run : GpgRun) (turns : List Turn)
    (vr : VerifyResult) : (gpgResult keyring run turns vr).chalDone = vr.chalDone := by
  unfold gpgResult gpgJudge
  dsimp only
  split_ifs <;> simp only [deferDiag_chalDone]

/-- The challenge is left to the caller. -/
theorem gpgVerify_chalDone {gpgPath keyring msg : Bytes} {env : GpgEnv}
    (h : (gpgVerify gpgPath keyring msg env).1 = .ok) :
    (gpgVerify gpgPath keyring msg env).2.chalDone = false := by
  rcases gpgVerify_cases gpgPath keyring msg env with ⟨-, hv⟩ | ⟨-, hrc, -⟩
  · rw [hv]
    exact gpgResult_chalDone _ _ _ _
  · rw [hrc] at h
    cases h

end PgpAuth
