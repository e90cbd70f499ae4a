import PgpAuth.Gpg.Verify
import PgpAuth.Lib.Ledger

/-!
# gpg as a process: the system calls of a verification

`gpgVerify` takes the outcomes of the system calls as they are summed up in `GpgEnv`.
Here the same function is followed call by call: the home directory under `TMPDIR`, the
write loop, the pipe, the signal mask, the child, the reads with their deadline, the wait,
the plaintext, and the clean-up on every path out.

`gpgVerifyCalls_val`: the calls come to the result `gpgVerify` has, so what is said about
the one holds of the other.
-/

namespace PgpAuth

open Lib Lib.Traced

/-! ## What the system does -/

/-- One `read`; `upTo more` gives at most `more + 1` bytes, none at the end of the stream. -/
inductive ReadTurn where
  | intr
  | error
  | upTo (more : Nat)
  deriving DecidableEq, Repr

inductive PollEnd where
  | timeout
  | intr
  | error
  | ready
  deriving DecidableEq, Repr

/-- A round of the status loop: the clock, in milliseconds, and what `poll` and then `read`
answer where they are reached. -/
structure Round where
  now : Int
  poll : PollEnd
  read : ReadTurn
  deriving DecidableEq, Repr

/-- An entry of a directory other than `.` and `..`. -/
structure DirEntry where
  name : Bytes
  isDir : Bool
  proper : name ≠ ascii "." ∧ name ≠ ascii ".."
  deriving DecidableEq, Repr

/-- A gpg process: its status stream, the text in the file `p` where it can be opened, its
exit code unless a signal ends it, and what it leaves in its home directory. -/
structure GpgProc where
  stream : Bytes
  plain : Option Bytes
  exit : Option Nat
  leaves : List DirEntry
  deriving DecidableEq, Repr

/-- Answers of the system to one verification; a call that fails has its `errno`. A write
takes `n + 1` bytes, or fails. `waits` calls of `waitpid` are interrupted before one
returns; where that one finds no child, `stale` is what `status` happens to hold. -/
structure GpgSys where
  tmpdir : Option Bytes
  mkdtemp : Bytes → Except Nat Bytes
  openMsg : Except Nat Nat
  writes : List (Option Nat)
  pipe : Except Nat (Nat × Nat)
  fork : Except Nat Nat
  gpg : List Bytes → Bytes → Option GpgProc
  start : Int
  rounds : List Round
  waits : Nat
  reaped : Bool
  stale : Option Nat
  openPlain : Nat
  plainReads : List ReadTurn
  opendir : Option Nat

/-- System calls as they are made, with the handles they return. -/
inductive Call where
  | mkdtemp (home : Bytes)
  | openFile (home name : Bytes) (fd : Nat)
  | write (fd : Nat) (accepted : Bytes)
  | close (fd : Nat)
  | pipe (r w : Nat)
  | blockSigchld
  | restoreMask
  | fork (pid : Nat)
  | poll (fd : Nat) (ms : Int)
  | read (fd room : Nat)
  | kill (pid : Nat)
  | waitIntr (pid : Nat)
  | waitpid (pid : Nat)
  | unlink (home name : Bytes)
  | opendir (home : Bytes) (fd : Nat)
  | readdir (fd : Nat)
  | closedir (fd : Nat)
  | rmdir (home : Bytes) (removed : Bool)
  deriving DecidableEq, Repr

/-! ## The calls -/

/-- `TMPDIR` where it is an absolute path that leaves room for the template. -/
def gpgTmpdir (tmpdir : Option Bytes) : Bytes :=
  match tmpdir with
  | none => ascii "/tmp"
  | some t =>
      if t.head? ≠ some (charByte '/') ∨ pathMax - 16 < t.length then ascii "/tmp" else t

/-- What `mkdtemp` is given. -/
def homeTemplate (tmpdir : Option Bytes) : Bytes :=
  gpgTmpdir tmpdir ++ ascii "/ngx_pgp_XXXXXX"

def msgName : Bytes := ascii "m"

def plainName : Bytes := ascii "p"

def inHome (home name : Bytes) : Bytes := home ++ ascii "/" ++ name

/-- The path fits a buffer of `PATH_MAX` bytes with its NUL. Where it does not, `ngx_snprintf`
cuts it and leaves the NUL out, and what `unlink` gets is taken to name nothing. -/
def FitsPath (home name : Bytes) : Prop := (inHome home name).length < pathMax

instance (home name : Bytes) : Decidable (FitsPath home name) := inferInstanceAs (Decidable (_ < _))

/-- `argv` of the child. -/
def gpgArgv (gpgPath keyring home : Bytes) : List Bytes :=
  [gpgPath, ascii "--homedir", home, ascii "--no-default-keyring", ascii "--keyring", keyring,
    ascii "--status-fd", ascii "1", ascii "--output", inHome home plainName,
    ascii "--max-output", decimal plaintextMax, ascii "--batch", ascii "--no-tty",
    ascii "--yes", ascii "--no-autostart", ascii "--decrypt", inHome home msgName]

/-- The write loop: whether it comes to its end, and what is in the file by then. Once the
answers are used up the rest is written whole. -/
def writeMsg (fd : Nat) : List (Option Nat) → Bytes → Bytes → Traced Call (Bool × Bytes)
  | _, [], file => pure (true, file)
  | [], b :: bs, file => do
      call (.write fd (b :: bs))
      pure (true, file ++ b :: bs)
  | none :: _, _ :: _, file => do
      call (.write fd [])
      pure (false, file)
  | some n :: ws, b :: bs, file => do
      call (.write fd ((b :: bs).take (n + 1)))
      writeMsg fd ws ((b :: bs).drop (n + 1)) (file ++ (b :: bs).take (n + 1))

/-- The status loop. The deadline passes at the latest when the rounds are used up. -/
def readStatus (fd pid : Nat) (stream : Bytes) (deadline : Int) :
    List Round → Nat → Traced Call (Nat × ReadEnd)
  | [], off => do
      call (.kill pid)
      pure (off, .timedOut)
  | r :: rs, off =>
      let left := deadline - r.now
      if left ≤ 0 then do
        call (.kill pid)
        pure (off, .timedOut)
      else do
        -- `(int) left`
        call (.poll fd (left.bmod (2 ^ 32)))
        match r.poll with
        | .timeout => do
            call (.kill pid)
            pure (off, .timedOut)
        | .intr => readStatus fd pid stream deadline rs off
        | .error => do
            call (.kill pid)
            pure (off, .pollFailed)
        | .ready => do
            call (.read fd (statusRoom - off))
            match r.read with
            | .intr => readStatus fd pid stream deadline rs off
            | .error => pure (off, .readFailed)
            | .upTo more =>
                let n := min (more + 1) (min (statusRoom - off) (stream.length - off))
                if n = 0 then pure (off, .eof)
                else if statusRoom ≤ off + n then do
                  call (.kill pid)
                  pure (off + n, .overflow)
                else readStatus fd pid stream deadline rs (off + n)

def waitGpg (pid : Nat) : Nat → Traced Call Unit
  | 0 => call (.waitpid pid)
  | n + 1 => do
      call (.waitIntr pid)
      waitGpg pid n

/-- The loop that reads the plaintext file, from `off` on: how much of it is kept. Once
the answers are used up, reads give all there is room for. -/
def readPlain (fd : Nat) (text : Bytes) : List ReadTurn → Nat → Traced Call Nat
  | [], off => do
      call (.read fd (plaintextMax - off))
      if plaintextMax ≤ text.length then pure plaintextMax
      else do
        call (.read fd (plaintextMax - text.length))
        pure text.length
  | .intr :: ts, off => do
      call (.read fd (plaintextMax - off))
      readPlain fd text ts off
  | .error :: _, off => do
      call (.read fd (plaintextMax - off))
      pure off
  | .upTo more :: ts, off => do
      call (.read fd (plaintextMax - off))
      let n := min (more + 1) (min (plaintextMax - off) (text.length - off))
      if n = 0 then pure off
      else if plaintextMax ≤ off + n then pure (off + n)
      else readPlain fd text ts (off + n)

/-- What is kept of the plaintext, where there is a file to open. -/
def capturePlain (home : Bytes) (plain : Option Bytes) (sys : GpgSys) :
    Traced Call (Option Bytes) :=
  match plain with
  | none => pure none
  | some text => do
      call (.openFile home plainName sys.openPlain)
      let off ← readPlain sys.openPlain text sys.plainReads 0
      call (.close sys.openPlain)
      pure (some (text.take off))

/-- `unlink` of a name in the directory; it does nothing to a directory. -/
def unlinkEntry (name : Bytes) (content : List DirEntry) : List DirEntry :=
  content.filter fun e => e.isDir || e.name != name

/-- The loop over the entries that `readdir` returns. -/
def unlinkEach (home : Bytes) (fd : Nat) :
    List Bytes → List DirEntry → Traced Call (List DirEntry)
  | [], content => do
      call (.readdir fd)
      pure content
  | name :: names, content => do
      call (.readdir fd)
      if name = ascii "." ∨ name = ascii ".." then unlinkEach home fd names content
      else do
        call (.unlink home name)
        unlinkEach home fd names
          (if FitsPath home name then unlinkEntry name content else content)

/-- `unlink(msgpath)`, where there is one. -/
def unlinkMsg (home : Bytes) (msg : Bool) (content : List DirEntry) :
    Traced Call (List DirEntry) :=
  if msg then do
    call (.unlink home msgName)
    pure (unlinkEntry msgName content)
  else pure content

/-- Everything else, where the directory can be read. -/
def unlinkRest (home : Bytes) (opendir : Option Nat) (content : List DirEntry) :
    Traced Call (List DirEntry) :=
  match opendir with
  | none => pure content
  | some fd => do
      call (.opendir home fd)
      let left ← unlinkEach home fd (ascii "." :: ascii ".." :: content.map (·.name)) content
      call (.closedir fd)
      pure left

/-- `ngx_http_pgp_gpg_cleanup`, over the directory's content: what it leaves. -/
def gpgCleanup (home : Bytes) (msg : Bool) (opendir : Option Nat) (content : List DirEntry) :
    Traced Call (List DirEntry) := do
  let content ← unlinkMsg home msg content
  let left ← unlinkRest home opendir content
  call (.rmdir home (left == []))
  pure left

theorem msgName_proper : msgName ≠ ascii "." ∧ msgName ≠ ascii ".." := by decide

def msgEntry : DirEntry := ⟨msgName, false, msgName_proper⟩

/-- What the home directory holds after gpg has run. -/
def GpgProc.content (proc : GpgProc) : List DirEntry := msgEntry :: proc.leaves

/-- After a failed `execve` the child leaves with 127. -/
def GpgSys.proc (sys : GpgSys) (gpgPath keyring home msg : Bytes) : GpgProc :=
  (sys.gpg (gpgArgv gpgPath keyring home) msg).getD ⟨[], none, some 127, []⟩

def GpgSys.status (sys : GpgSys) (proc : GpgProc) : Option Nat :=
  if sys.reaped then proc.exit else sys.stale

/-- The parent after `fork`. -/
def gpgParent (keyring home : Bytes) (proc : GpgProc) (r w pid timeout : Nat) (sys : GpgSys) :
    Traced Call VerifyResult := do
  call (.close w)
  let read ← readStatus r pid proc.stream (sys.start + timeout) sys.rounds 0
  call (.close r)
  waitGpg pid sys.waits
  call .restoreMask
  let plain ← capturePlain home proc.plain sys
  let _ ← gpgCleanup home true sys.opendir proc.content
  pure (gpgJudge keyring (proc.stream.take read.1) read.2 plain (sys.status proc) .cleared)

/-- From the message file on. -/
def gpgRunIn (gpgPath keyring msg home : Bytes) (fd timeout : Nat) (sys : GpgSys) :
    Traced Call (Rc × VerifyResult) := do
  call (.openFile home msgName fd)
  let file ← writeMsg fd sys.writes msg []
  call (.close fd)
  if file.1 = false then do
    let _ ← gpgCleanup home true sys.opendir [msgEntry]
    pure (.error, .cleared)
  else
    match sys.pipe with
    | .error e => do
        let _ ← gpgCleanup home true sys.opendir [msgEntry]
        pure (.error, deferDiag .cleared .err "pgp_auth: pipe() failed (errno %d)" [decimal e])
    | .ok (r, w) => do
        call (.pipe r w)
        call .blockSigchld
        match sys.fork with
        | .error e => do
            call .restoreMask
            call (.close r)
            call (.close w)
            let _ ← gpgCleanup home true sys.opendir [msgEntry]
            pure (.error, deferDiag .cleared .err "pgp_auth: fork() failed (errno %d)" [decimal e])
        | .ok pid => do
            call (.fork pid)
            let proc := sys.proc gpgPath keyring home file.2
            let vr ← gpgParent keyring home proc r w pid timeout sys
            pure (.ok, vr)

/-- `ngx_http_pgp_gpg_verify`, with its calls. -/
def gpgVerifyCalls (gpgPath keyring msg : Bytes) (timeout : Nat) (sys : GpgSys) :
    Traced Call (Rc × VerifyResult) :=
  if keyring.length = 0 ∨ pathMax ≤ keyring.length then
    pure (.error, deferDiag .cleared .err "pgp_auth: invalid keyring path" [])
  else if gpgPath.length = 0 ∨ pathMax ≤ gpgPath.length ∨ gpgPath.head? ≠ some (charByte '/') then
    pure (.error, deferDiag .cleared .err "pgp_auth: invalid gpg binary path" [])
  else
    match sys.mkdtemp (homeTemplate sys.tmpdir) with
    | .error e =>
        pure (.error, deferDiag .cleared .err "pgp_auth: mkdtemp() failed (errno %d)" [decimal e])
    | .ok home => do
        call (.mkdtemp home)
        match sys.openMsg with
        | .error e => do
            let _ ← gpgCleanup home false sys.opendir []
            pure (.error, deferDiag .cleared .err "pgp_auth: open(%s) failed (errno %d)"
              [inHome home msgName, decimal e])
        | .ok fd => gpgRunIn gpgPath keyring msg home fd timeout sys

/-! ## The calls summed up -/

def Round.turn (deadline : Int) (r : Round) : Turn :=
  if deadline - r.now ≤ 0 then .deadline
  else
    match r.poll, r.read with
    | .timeout, _ => .pollTimeout
    | .intr, _ => .pollIntr
    | .error, _ => .pollError
    | .ready, .intr => .readIntr
    | .ready, .error => .readError
    | .ready, .upTo more => .ready more

/-- A process as `gpgVerify` knows it: with the plaintext as far as it is read. -/
def GpgSys.run (sys : GpgSys) (proc : GpgProc) : GpgRun where
  stream := proc.stream
  plain := (capturePlain [] proc.plain sys).val
  exit := sys.status proc

/-- `errno` of a call that fails. -/
def errnoOf {α : Type} : Except Nat α → Option Nat
  | .error e => some e
  | .ok _ => none

def GpgSys.toEnv (sys : GpgSys) (gpgPath msg : Bytes) (timeout : Nat) : GpgEnv where
  mkdtemp := sys.mkdtemp (homeTemplate sys.tmpdir)
  openMsg := errnoOf sys.openMsg
  written := (writeMsg 0 sys.writes msg []).val.1
  pipe := errnoOf sys.pipe
  fork := errnoOf sys.fork
  gpg := fun keyring msg =>
    match sys.mkdtemp (homeTemplate sys.tmpdir) with
    | .error _ => none
    | .ok home => some (sys.run (sys.proc gpgPath keyring home msg))
  turns := sys.rounds.map (Round.turn (sys.start + timeout))

theorem readStatus_val (fd pid : Nat) (stream : Bytes) (deadline : Int) (rounds : List Round)
    (off : Nat) :
    (readStatus fd pid stream deadline rounds off).val =
      statusRead stream (rounds.map (Round.turn deadline)) off := by
  induction rounds generalizing off with
  | nil => rfl
  | cons r rs ih =>
      obtain ⟨now, poll, read⟩ := r
      rw [readStatus, List.map_cons, Round.turn]
      dsimp only
      by_cases hLate : deadline - now ≤ 0
      · rw [if_pos hLate, if_pos hLate]
        rfl
      · rw [if_neg hLate, if_neg hLate]
        cases poll with
        | timeout | error => rfl
        | intr => simp only [val_bind, statusRead, ih]
        | ready =>
            cases read with
            | error => rfl
            | intr => simp only [val_bind, statusRead, ih]
            | upTo more =>
                simp only [val_bind, statusRead]
                split_ifs
                · rfl
                · rfl
                · exact ih _

/-- The descriptor plays no part in how much is written. -/
theorem writeMsg_val_eq (fd fd' : Nat) (writes : List (Option Nat)) (left file : Bytes) :
    (writeMsg fd writes left file).val = (writeMsg fd' writes left file).val := by
  induction writes generalizing left file with
  | nil => cases left <;> rfl
  | cons w ws ih =>
      cases left with
      | nil => cases w <;> rfl
      | cons b bs =>
          cases w with
          | none => rfl
          | some n => simp only [writeMsg, val_bind, ih]

/-- A write loop that comes to its end has written the whole message. -/
theorem writeMsg_file {fd : Nat} {writes : List (Option Nat)} {left file : Bytes}
    (h : (writeMsg fd writes left file).val.1 = true) :
    (writeMsg fd writes left file).val.2 = file ++ left := by
  induction writes generalizing left file with
  | nil => cases left <;> simp [writeMsg]
  | cons w ws ih =>
      cases left with
      | nil => simp [writeMsg]
      | cons b bs =>
          cases w with
          | none => simp [writeMsg] at h
          | some n =>
              simp only [writeMsg, val_bind] at h ⊢
              rw [ih h, List.append_assoc, List.take_append_drop]

theorem capturePlain_val (home : Bytes) (plain : Option Bytes) (sys : GpgSys) :
    (capturePlain home plain sys).val = (capturePlain [] plain sys).val := by
  cases plain <;> rfl

theorem gpgParent_val (keyring home : Bytes) (proc : GpgProc) (r w pid timeout : Nat)
    (sys : GpgSys) :
    (gpgParent keyring home proc r w pid timeout sys).val =
      gpgResult keyring (sys.run proc) (sys.rounds.map (Round.turn (sys.start + timeout)))
        .cleared := by
  simp only [gpgParent, val_bind, val_pure, readStatus_val, capturePlain_val home]
  rfl

theorem inHome_msgName (home : Bytes) : inHome home msgName = home ++ ascii "/m" := by
  rw [inHome, List.append_assoc]
  rfl

/-- The calls come to the result of `gpgVerify`. -/
theorem gpgVerifyCalls_val (gpgPath keyring msg : Bytes) (timeout : Nat) (sys : GpgSys) :
    (gpgVerifyCalls gpgPath keyring msg timeout sys).val =
      gpgVerify gpgPath keyring msg (sys.toEnv gpgPath msg timeout) := by
  rw [gpgVerifyCalls, gpgVerify]
  by_cases hKeyring : keyring.length = 0 ∨ pathMax ≤ keyring.length
  · rw [if_pos hKeyring, if_pos hKeyring, val_pure]
  rw [if_neg hKeyring, if_neg hKeyring]
  by_cases hPath : gpgPath.length = 0 ∨ pathMax ≤ gpgPath.length ∨
      gpgPath.head? ≠ some (charByte '/')
  · rw [if_pos hPath, if_pos hPath, val_pure]
  · rw [if_neg hPath, if_neg hPath]
    simp only [GpgSys.toEnv, GpgEnv.run]
    cases hDir : sys.mkdtemp (homeTemplate sys.tmpdir) with
    | error e => rfl
    | ok home =>
        cases hOpen : sys.openMsg with
        | error e => simp only [val_bind, val_pure, errnoOf, inHome_msgName]
        | ok fd =>
            have hFd := congrArg Prod.fst (writeMsg_val_eq fd 0 sys.writes msg [])
            simp only [val_bind, gpgRunIn, errnoOf, hFd]
            rcases Bool.eq_false_or_eq_true (writeMsg 0 sys.writes msg []).val.1 with hAll | hShort
            · have hFile := writeMsg_file (hFd.trans hAll)
              simp only [hAll, Bool.true_eq_false, if_false, hFile, List.nil_append]
              cases hPipe : sys.pipe with
              | error e => rfl
              | ok ends =>
                  cases hFork : sys.fork with
                  | error e => rfl
                  | ok pid => simp only [val_bind, val_pure, gpgParent_val, Option.getD_some]
            · simp only [hShort, if_true, val_bind, val_pure]

end PgpAuth
