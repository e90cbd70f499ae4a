import PgpAuth.Gpg.Process

/-!
# What a verification takes and gives back

Every path through `gpgVerifyCalls` is replayed against a ledger of descriptors, the child,
the signal mask and the home directory.

* `gpgVerifyCalls_settles`: all are given back, and so is the directory unless gpg leaves in
  it what `unlink` cannot remove.
* `gpgVerifyCalls_kills`: when the child is killed.
-/

namespace PgpAuth

open Lib Lib.Traced

/-- What a verification takes from the system. -/
inductive Res where
  | fd (n : Nat)
  | child (pid : Nat)
  | sigchldBlocked
  | dir (home : Bytes)
  deriving DecidableEq, Repr

/-- What a call does to these. The child exists only while `SIGCHLD` is blocked by this call. -/
def Call.ops : Call → List (Op Res)
  | .mkdtemp home => [.acquire (.dir home)]
  | .openFile home _ fd => [.use (.dir home), .acquire (.fd fd)]
  | .write fd _ => [.use (.fd fd)]
  | .close fd => [.release (.fd fd)]
  | .pipe r w => [.acquire (.fd r), .acquire (.fd w)]
  | .blockSigchld => [.acquire .sigchldBlocked]
  | .restoreMask => [.release .sigchldBlocked]
  | .fork pid => [.use .sigchldBlocked, .acquire (.child pid)]
  | .poll fd _ => [.use (.fd fd)]
  | .read fd _ => [.use (.fd fd)]
  | .kill pid => [.use (.child pid)]
  | .waitIntr pid => [.use .sigchldBlocked, .use (.child pid)]
  | .waitpid pid => [.use .sigchldBlocked, .release (.child pid)]
  | .unlink home _ => [.use (.dir home)]
  | .opendir home fd => [.use (.dir home), .acquire (.fd fd)]
  | .readdir fd => [.use (.fd fd)]
  | .closedir fd => [.release (.fd fd)]
  | .rmdir home removed => if removed then [.release (.dir home)] else [.use (.dir home)]

/-- The kernel hands out nothing that is in use. `sigchldBlocked` stands for the mask that this
call saves and restores; in a thread of the pool `SIGCHLD` may be blocked in it already. -/
structure GpgSys.Fresh (sys : GpgSys) (held : Finset Res) : Prop where
  dir : ∀ home, sys.mkdtemp (homeTemplate sys.tmpdir) = .ok home → .dir home ∉ held
  msg : ∀ fd, sys.openMsg = .ok fd → .fd fd ∉ held
  pipe : ∀ r w, sys.pipe = .ok (r, w) → .fd r ∉ held ∧ .fd w ∉ held ∧ r ≠ w
  child : ∀ pid, sys.fork = .ok pid → .child pid ∉ held
  mask : .sigchldBlocked ∉ held
  plain : .fd sys.openPlain ∉ held
  opendir : ∀ fd, sys.opendir = some fd → .fd fd ∉ held

theorem mem_unlinkEntry {name : Bytes} {content : List DirEntry} {e : DirEntry} :
    e ∈ unlinkEntry name content ↔ e ∈ content ∧ (e.isDir = true ∨ e.name ≠ name) := by
  simp [unlinkEntry]

/-- Directories stay, and so does what `readdir` does not name and what has no path. -/
theorem mem_unlinkEach {home : Bytes} {fd : Nat} {names : List Bytes} {content : List DirEntry}
    {e : DirEntry} :
    e ∈ (unlinkEach home fd names content).val ↔
      e ∈ content ∧ (e.isDir = true ∨ e.name ∉ names ∨ ¬FitsPath home e.name) := by
  induction names generalizing content with
  | nil => simp [unlinkEach]
  | cons name names ih =>
      by_cases hDot : name = ascii "." ∨ name = ascii ".."
      · have hNe : e.name ≠ name := by
          rcases hDot with rfl | rfl
          · exact e.proper.1
          · exact e.proper.2
        simp only [unlinkEach, val_bind, if_pos hDot, ih, List.mem_cons, hNe, false_or]
      · simp only [unlinkEach, val_bind, if_neg hDot, ih, List.mem_cons]
        by_cases hName : e.name = name
        · subst hName
          split_ifs with hFits
          · simp only [mem_unlinkEntry, hFits, true_or, not_true, or_false]
            tauto
          · simp [hFits]
        · split_ifs
          · simp [mem_unlinkEntry, hName]
          · simp [hName]

/-- When the directory goes: nothing in it is a directory itself, every name but that of the
message, which has been created by its path, fits into a path, and where the directory cannot
be read, the message is all there is. -/
def Removable (home : Bytes) (opendir : Option Nat) (content : List DirEntry) : Prop :=
  ∀ e ∈ content, e.isDir = false ∧ (e.name ≠ msgName → FitsPath home e.name) ∧
    (opendir = none → e.name = msgName)

instance (home : Bytes) (opendir : Option Nat) (content : List DirEntry) :
    Decidable (Removable home opendir content) :=
  inferInstanceAs (Decidable (∀ e ∈ content, _))

theorem gpgCleanup_val (home : Bytes) (opendir : Option Nat) (content : List DirEntry) :
    (gpgCleanup home true opendir content).val = [] ↔ Removable home opendir content := by
  simp only [List.eq_nil_iff_forall_not_mem, Removable]
  refine forall_congr' fun e => ?_
  cases opendir with
  | none =>
      by_cases hName : e.name = msgName
      · simp [gpgCleanup, unlinkMsg, unlinkRest, mem_unlinkEntry, hName]
      · simp [gpgCleanup, unlinkMsg, unlinkRest, mem_unlinkEntry, hName]
  | some fd =>
      have hNames : e ∈ unlinkEntry msgName content →
          e.name ∈ (unlinkEntry msgName content).map (·.name) := List.mem_map_of_mem
      simp only [gpgCleanup, unlinkMsg, unlinkRest, if_true, val_bind, val_pure, mem_unlinkEach,
        List.mem_cons, e.proper.1, e.proper.2, false_or]
      simp only [mem_unlinkEntry] at hNames ⊢
      cases hd : e.isDir <;> simp_all

section Settles

variable {held : Finset Res} {home : Bytes}

theorem unlinkEach_settles {fd : Nat} (names : List Bytes) (content : List DirEntry)
    (hDir : .dir home ∈ held) (hFd : .fd fd ∈ held) :
    Settles Call.ops held (unlinkEach home fd names content) (fun _ => held) := by
  induction names generalizing content with
  | nil => exact settles_call_bind (settle_use hFd _) (settles_pure rfl)
  | cons name names ih =>
      refine settles_call_bind (settle_use hFd _) ?_
      split
      · exact ih content
      · exact settles_call_bind (settle_use hDir _) (ih _)

theorem gpgCleanup_settles (msg : Bool) {opendir : Option Nat} (content : List DirEntry)
    (hDir : .dir home ∉ held) (hOpen : ∀ fd, opendir = some fd → .fd fd ∉ held) :
    Settles Call.ops (insert (.dir home) held) (gpgCleanup home msg opendir content)
      (fun left => if left = [] then held else insert (.dir home) held) := by
  have hIn : Res.dir home ∈ insert (.dir home) held := Finset.mem_insert_self _ _
  refine settles_bind (Q := fun _ => insert (.dir home) held) ?_
    (settles_bind (Q := fun _ => insert (.dir home) held) ?_ ?_)
  · cases msg with
    | false => exact settles_pure rfl
    | true => exact settles_call_bind (settle_use hIn _) (settles_pure rfl)
  · cases opendir with
    | none => exact settles_pure rfl
    | some fd =>
        have hFd : Res.fd fd ∉ insert (.dir home) held := by simp [hOpen fd rfl]
        refine settles_call_bind ((settle_use hIn _).trans (settle_acquire hFd _)) ?_
        refine settles_bind (unlinkEach_settles _ _ (Finset.mem_insert_of_mem hIn)
          (Finset.mem_insert_self _ _)) ?_
        exact settles_call_bind (settle_release hFd _) (settles_pure rfl)
  · generalize (Traced.val _ : List DirEntry) = left
    cases left with
    | nil => exact settles_call_bind (settle_release hDir _) (settles_pure rfl)
    | cons e left => exact settles_call_bind (settle_use hIn _) (settles_pure rfl)

theorem writeMsg_settles {fd : Nat} (hFd : .fd fd ∈ held) (writes : List (Option Nat))
    (left file : Bytes) :
    Settles Call.ops held (writeMsg fd writes left file) (fun _ => held) := by
  induction writes generalizing left file with
  | nil =>
      cases left with
      | nil => exact settles_pure rfl
      | cons b bs => exact settles_call_bind (settle_use hFd _) (settles_pure rfl)
  | cons w ws ih =>
      cases left with
      | nil => exact settles_pure rfl
      | cons b bs =>
          cases w with
          | none => exact settles_call_bind (settle_use hFd _) (settles_pure rfl)
          | some n => exact settles_call_bind (settle_use hFd _) (ih _ _)

theorem readStatus_settles {fd pid : Nat} (hFd : .fd fd ∈ held) (hPid : .child pid ∈ held)
    (stream : Bytes) (deadline : Int) (rounds : List Round) (off : Nat) :
    Settles Call.ops held (readStatus fd pid stream deadline rounds off) (fun _ => held) := by
  have hKill (res : Nat × ReadEnd) : Settles Call.ops held
      (call (.kill pid) >>= fun _ => pure res) (fun _ => held) :=
    settles_call_bind (settle_use hPid _) (settles_pure rfl)
  induction rounds generalizing off with
  | nil => exact hKill _
  | cons r rs ih =>
      obtain ⟨now, poll, read⟩ := r
      rw [readStatus]
      dsimp only
      split_ifs with hLate
      · exact hKill _
      · refine settles_call_bind (settle_use hFd _) ?_
        cases poll with
        | timeout => exact hKill _
        | intr => exact ih off
        | error => exact hKill _
        | ready =>
            refine settles_call_bind (settle_use hFd _) ?_
            cases read with
            | intr => exact ih off
            | error => exact settles_pure rfl
            | upTo more =>
                dsimp only
                split_ifs
                · exact settles_pure rfl
                · exact hKill _
                · exact ih _

theorem waitGpg_settles {pid : Nat} (hMask : .sigchldBlocked ∈ held) (hPid : .child pid ∉ held)
    (waits : Nat) :
    Settles Call.ops (insert (.child pid) held) (waitGpg pid waits) (fun _ => held) := by
  have hMask' : Res.sigchldBlocked ∈ insert (.child pid) held := Finset.mem_insert_of_mem hMask
  induction waits with
  | zero => exact settles_call ((settle_use hMask' _).trans (settle_release hPid _))
  | succ n ih =>
      exact settles_call_bind
        ((settle_use hMask' _).trans (settle_use (Finset.mem_insert_self _ _) _)) ih

theorem readPlain_settles {fd : Nat} (hFd : .fd fd ∈ held) (text : Bytes)
    (reads : List ReadTurn) (off : Nat) :
    Settles Call.ops held (readPlain fd text reads off) (fun _ => held) := by
  induction reads generalizing off with
  | nil =>
      refine settles_call_bind (settle_use hFd _) ?_
      split_ifs
      · exact settles_pure rfl
      · exact settles_call_bind (settle_use hFd _) (settles_pure rfl)
  | cons t ts ih =>
      cases t with
      | intr => exact settles_call_bind (settle_use hFd _) (ih off)
      | error => exact settles_call_bind (settle_use hFd _) (settles_pure rfl)
      | upTo more =>
          refine settles_call_bind (settle_use hFd _) ?_
          dsimp only
          split_ifs
          · exact settles_pure rfl
          · exact settles_pure rfl
          · exact ih _

theorem capturePlain_settles {sys : GpgSys} (plain : Option Bytes) (hDir : .dir home ∈ held)
    (hFd : .fd sys.openPlain ∉ held) :
    Settles Call.ops held (capturePlain home plain sys) (fun _ => held) := by
  cases plain with
  | none => exact settles_pure rfl
  | some text =>
      refine settles_call_bind ((settle_use hDir _).trans (settle_acquire hFd _)) ?_
      refine settles_bind (readPlain_settles (Finset.mem_insert_self _ _) _ _ _) ?_
      exact settles_call_bind (settle_release hFd _) (settles_pure rfl)

/-- What is held after gpg has run: the directory, where it cannot be removed. -/
def remains (held : Finset Res) (home : Bytes) (opendir : Option Nat) (proc : GpgProc) :
    Finset Res :=
  if Removable home opendir proc.content then held else insert (.dir home) held

variable {sys : GpgSys} {timeout : Nat}

theorem gpgParent_settles (hFresh : sys.Fresh held) (hDir : .dir home ∉ held) (keyring : Bytes)
    (proc : GpgProc) {r w pid : Nat} (hPipe : sys.pipe = .ok (r, w)) (hFork : sys.fork = .ok pid) :
    Settles Call.ops
      (insert (.fd w) (insert (.fd r) (insert (.child pid) (insert .sigchldBlocked
        (insert (.dir home) held)))))
      (gpgParent keyring home proc r w pid timeout sys)
      (fun _ => remains held home sys.opendir proc) := by
  obtain ⟨hr, hw, hrw⟩ := hFresh.pipe r w hPipe
  have hPid := hFresh.child pid hFork
  have hMask := hFresh.mask
  refine settles_call_bind (settle_release (by simp [hw, hrw.symm]) _) ?_
  refine settles_bind (readStatus_settles (by simp) (by simp) _ _ _ _) ?_
  refine settles_call_bind (settle_release (by simp [hr]) _) ?_
  refine settles_bind (waitGpg_settles (by simp) (by simp [hPid]) _) ?_
  refine settles_call_bind (settle_release (by simp [hMask]) _) ?_
  refine settles_bind (capturePlain_settles _ (by simp) (by simp [hFresh.plain])) ?_
  refine settles_bind (gpgCleanup_settles true proc.content hDir hFresh.opendir) ?_
  refine settles_pure ?_
  simp only [remains, gpgCleanup_val]

/-- The clean-up before gpg has run leaves nothing. -/
theorem gpgCleanup_early_settles (hFresh : sys.Fresh held) (hDir : .dir home ∉ held) :
    Settles Call.ops (insert (.dir home) held) (gpgCleanup home true sys.opendir [msgEntry])
      (fun _ => held) := by
  have hGone : (gpgCleanup home true sys.opendir [msgEntry]).val = [] :=
    (gpgCleanup_val _ _ _).mpr (by simp [Removable, msgEntry])
  have hAll := gpgCleanup_settles true [msgEntry] hDir hFresh.opendir
  rw [Settles, hGone, if_pos rfl] at hAll
  exact hAll

theorem gpgRunIn_settles (hFresh : sys.Fresh held) (hDir : .dir home ∉ held)
    (gpgPath keyring msg : Bytes) {fd : Nat} (hOpen : sys.openMsg = .ok fd) :
    Settles Call.ops (insert (.dir home) held)
      (gpgRunIn gpgPath keyring msg home fd timeout sys)
      (fun res => if res.1 = .ok then
        remains held home sys.opendir (sys.proc gpgPath keyring home msg) else held) := by
  have hFd := hFresh.msg fd hOpen
  have hIn : Res.dir home ∈ insert (.dir home) held := Finset.mem_insert_self _ _
  have hEarly := gpgCleanup_early_settles hFresh hDir
  refine settles_call_bind ((settle_use hIn _).trans (settle_acquire (by simp [hFd]) _)) ?_
  refine settles_bind (writeMsg_settles (Finset.mem_insert_self _ _) _ _ _) ?_
  refine settles_call_bind (settle_release (by simp [hFd]) _) ?_
  split_ifs with hShort
  · exact settles_bind hEarly (settles_pure rfl)
  have hFile := writeMsg_file (Bool.eq_true_of_not_eq_false hShort)
  cases hPipe : sys.pipe with
  | error e => exact settles_bind hEarly (settles_pure rfl)
  | ok ends =>
      obtain ⟨r, w⟩ := ends
      obtain ⟨hr, hw, hrw⟩ := hFresh.pipe r w hPipe
      refine settles_call_bind ((settle_acquire (by simp [hr]) _).trans
        (settle_acquire (by simp [hw, hrw.symm]) _)) ?_
      refine settles_call_bind (settle_acquire (by simp [hFresh.mask]) _) ?_
      cases hFork : sys.fork with
      | error e =>
          refine settles_call_bind (settle_release (by simp [hFresh.mask]) _) ?_
          rw [Finset.insert_comm]
          refine settles_call_bind (settle_release (by simp [hr, hrw]) _) ?_
          refine settles_call_bind (settle_release (by simp [hw]) _) ?_
          exact settles_bind hEarly (settles_pure rfl)
      | ok pid =>
          refine settles_call_bind ((settle_use (Finset.mem_insert_self _ _) _).trans
            (settle_acquire (by simp [hFresh.child pid hFork]) _)) ?_
          have hOrder : insert (.child pid) (insert .sigchldBlocked (insert (.fd w)
              (insert (.fd r) (insert (.dir home) held)))) =
              insert (Res.fd w) (insert (.fd r) (insert (.child pid) (insert .sigchldBlocked
                (insert (.dir home) held)))) := by
            ext x
            simp only [Finset.mem_insert]
            tauto
          rw [hOrder]
          refine settles_bind (gpgParent_settles hFresh hDir keyring _ hPipe hFork) ?_
          refine settles_pure ?_
          rw [if_pos rfl, hFile, List.nil_append]

/-- Descriptors, the child and the signal mask are given back on every path, each once and
none used afterwards. The directory stays exactly where gpg ran and left something in it
that cannot be removed. -/
theorem gpgVerifyCalls_settles (hFresh : sys.Fresh held) (gpgPath keyring msg : Bytes)
    (timeout : Nat) :
    Settles Call.ops held (gpgVerifyCalls gpgPath keyring msg timeout sys) fun res =>
      match sys.mkdtemp (homeTemplate sys.tmpdir) with
      | .error _ => held
      | .ok home =>
          if res.1 = .ok then
            remains held home sys.opendir (sys.proc gpgPath keyring home msg)
          else held := by
  rw [gpgVerifyCalls]
  cases hMk : sys.mkdtemp (homeTemplate sys.tmpdir) with
  | error e =>
      split_ifs
      all_goals exact settles_pure rfl
  | ok home =>
      have hDir := hFresh.dir home hMk
      split_ifs
      · exact settles_pure rfl
      · exact settles_pure rfl
      · refine settles_call_bind (settle_acquire hDir _) ?_
        cases hOpen : sys.openMsg with
        | error e =>
            have hAll := gpgCleanup_settles false [] hDir hFresh.opendir
            refine settles_bind hAll (settles_pure ?_)
            cases sys.opendir <;> rfl
        | ok fd => exact gpgRunIn_settles hFresh hDir gpgPath keyring msg hOpen

end Settles

/-- A worker that has its log and a listening socket open; gpg answers and exits. -/
def quietSys : GpgSys where
  tmpdir := none
  mkdtemp := fun _ => .ok (ascii "/tmp/ngx_pgp_a1B2c3")
  openMsg := .ok 5
  writes := [some 1]
  pipe := .ok (5, 6)
  fork := .ok 4711
  gpg := fun _ _ => some ⟨ascii "[GNUPG:] NODATA 1", none, some 2, []⟩
  start := 1000
  rounds := [⟨1000, .intr, .intr⟩, ⟨1001, .ready, .upTo 100⟩, ⟨1002, .ready, .upTo 100⟩]
  waits := 1
  reaped := true
  stale := none
  openPlain := 5
  plainReads := []
  opendir := some 5

theorem quietSys_fresh : quietSys.Fresh {.fd 3, .fd 4} where
  dir := by simp
  msg := by simp [quietSys]
  pipe := by simp [quietSys]
  child := by simp
  mask := by simp
  plain := by simp [quietSys]
  opendir := by simp [quietSys]

theorem quietSys_settles :
    Settles Call.ops {.fd 3, .fd 4}
      (gpgVerifyCalls (ascii "/usr/bin/gpg") (ascii "/etc/k.gpg") (ascii "abcd") 2000 quietSys)
      fun _ => {.fd 3, .fd 4} := by
  have hAll := gpgVerifyCalls_settles quietSys_fresh (ascii "/usr/bin/gpg")
    (ascii "/etc/k.gpg") (ascii "abcd") 2000
  rw [Settles] at hAll ⊢
  rw [hAll]
  decide +kernel

/-! ## Killing the child -/

/-- The child a call kills. -/
def Call.kills : Call → List Nat
  | .kill pid => [pid]
  | _ => []

/-- Ends of the status loop after which gpg may still be running. -/
def ReadEnd.kills : ReadEnd → Bool
  | .timedOut => true
  | .pollFailed => true
  | .overflow => true
  | .eof => false
  | .readFailed => false

theorem readStatus_kills (fd pid : Nat) (stream : Bytes) (deadline : Int) (rounds : List Round)
    (off : Nat) :
    Shows Call.kills (readStatus fd pid stream deadline rounds off)
      (fun res => if res.2.kills then [pid] else []) := by
  have hKill (off : Nat) (e : ReadEnd) (h : e.kills = true) : Shows Call.kills
      (call (.kill pid) >>= fun _ => pure (off, e))
      (fun res : Nat × ReadEnd => if res.2.kills then [pid] else []) := by
    rw [Shows]
    simp [h, Call.kills]
  induction rounds generalizing off with
  | nil => exact hKill off .timedOut rfl
  | cons r rs ih =>
      obtain ⟨now, poll, read⟩ := r
      rw [readStatus]
      dsimp only
      split_ifs with hLate
      · exact hKill off .timedOut rfl
      · refine shows_call_bind rfl ?_
        cases poll with
        | timeout => exact hKill off .timedOut rfl
        | intr => exact ih off
        | error => exact hKill off .pollFailed rfl
        | ready =>
            refine shows_call_bind rfl ?_
            cases read with
            | intr => exact ih off
            | error => exact shows_pure rfl
            | upTo more =>
                dsimp only
                split_ifs
                · exact shows_pure rfl
                · exact hKill _ .overflow rfl
                · exact ih _

theorem writeMsg_kills (fd : Nat) (writes : List (Option Nat)) (left file : Bytes) :
    Shows Call.kills (writeMsg fd writes left file) (fun _ => []) := by
  induction writes generalizing left file with
  | nil =>
      cases left with
      | nil => exact shows_pure rfl
      | cons b bs => exact shows_call_bind rfl (shows_pure rfl)
  | cons w ws ih =>
      cases left with
      | nil => exact shows_pure rfl
      | cons b bs =>
          cases w with
          | none => exact shows_call_bind rfl (shows_pure rfl)
          | some n => exact shows_call_bind rfl (ih _ _)

theorem waitGpg_kills (pid waits : Nat) :
    Shows Call.kills (waitGpg pid waits) (fun _ => []) := by
  induction waits with
  | zero => exact shows_call rfl
  | succ n ih => exact shows_call_bind rfl ih

theorem readPlain_kills (fd : Nat) (text : Bytes) (reads : List ReadTurn) (off : Nat) :
    Shows Call.kills (readPlain fd text reads off) (fun _ => []) := by
  induction reads generalizing off with
  | nil =>
      refine shows_call_bind rfl ?_
      split_ifs
      · exact shows_pure rfl
      · exact shows_call_bind rfl (shows_pure rfl)
  | cons t ts ih =>
      cases t with
      | intr => exact shows_call_bind rfl (ih off)
      | error => exact shows_call_bind rfl (shows_pure rfl)
      | upTo more =>
          refine shows_call_bind rfl ?_
          dsimp only
          split_ifs
          · exact shows_pure rfl
          · exact shows_pure rfl
          · exact ih _

theorem capturePlain_kills (home : Bytes) (plain : Option Bytes) (sys : GpgSys) :
    Shows Call.kills (capturePlain home plain sys) (fun _ => []) := by
  cases plain with
  | none => exact shows_pure rfl
  | some text =>
      refine shows_call_bind rfl (shows_of_silent (readPlain_kills _ _ _ _) ?_)
      exact shows_call_bind rfl (shows_pure rfl)

theorem unlinkEach_kills (home : Bytes) (fd : Nat) (names : List Bytes)
    (content : List DirEntry) :
    Shows Call.kills (unlinkEach home fd names content) (fun _ => []) := by
  induction names generalizing content with
  | nil => exact shows_call_bind rfl (shows_pure rfl)
  | cons name names ih =>
      refine shows_call_bind rfl ?_
      split
      · exact ih content
      · exact shows_call_bind rfl (ih _)

theorem gpgCleanup_kills (home : Bytes) (msg : Bool) (opendir : Option Nat)
    (content : List DirEntry) :
    Shows Call.kills (gpgCleanup home msg opendir content) (fun _ => []) := by
  refine shows_of_silent ?_ (shows_of_silent ?_ (shows_call_bind rfl (shows_pure rfl)))
  · cases msg with
    | false => exact shows_pure rfl
    | true => exact shows_call_bind rfl (shows_pure rfl)
  · cases opendir with
    | none => exact shows_pure rfl
    | some fd =>
        refine shows_call_bind rfl (shows_of_silent (unlinkEach_kills _ _ _ _) ?_)
        exact shows_call_bind rfl (shows_pure rfl)

/-- The child is killed where the buffer fills up, and where the loop is broken off before
the end of the stream by the deadline or by `poll`; a failed `read` does not kill it. -/
def MustKill (stream : Bytes) (turns : List Turn) : Prop :=
  Overflows stream turns ∨ ¬ReadsToEnd stream turns ∧ brokenOff turns ≠ .readFailed

instance (stream : Bytes) (turns : List Turn) : Decidable (MustKill stream turns) :=
  inferInstanceAs (Decidable (_ ∨ _ ∧ _))

theorem kills_iff (stream : Bytes) (turns : List Turn) :
    (statusRead stream turns 0).2.kills = true ↔ MustKill stream turns := by
  rw [MustKill, statusRead_spec]
  by_cases hEnd : ReadsToEnd stream turns
  · have hNot : ¬Overflows stream turns := fun h => absurd hEnd.1 (Nat.not_lt.mpr h.1)
    simp [hEnd, hNot, ReadEnd.kills]
  · by_cases hFull : Overflows stream turns
    · simp [hEnd, hFull, ReadEnd.kills]
    · have hNe := brokenOff_ne turns
      cases hOff : brokenOff turns <;> simp_all [ReadEnd.kills]

theorem gpgParent_kills (keyring home : Bytes) (proc : GpgProc) (r w pid timeout : Nat)
    (sys : GpgSys) :
    Shows Call.kills (gpgParent keyring home proc r w pid timeout sys)
      (fun _ => if MustKill proc.stream (sys.rounds.map (Round.turn (sys.start + timeout)))
        then [pid] else []) := by
  refine shows_call_bind rfl (shows_then_silent (readStatus_kills _ _ _ _ _ _) ?_ ?_)
  · refine shows_call_bind rfl (shows_of_silent (waitGpg_kills _ _) ?_)
    refine shows_call_bind rfl (shows_of_silent (capturePlain_kills _ _ _) ?_)
    exact shows_of_silent (gpgCleanup_kills _ _ _ _) (shows_pure rfl)
  · simp only [readStatus_val, kills_iff]

/-- Who is killed in a verification that returns `rc`. -/
def GpgSys.toKill (sys : GpgSys) (stream : Bytes) (timeout : Nat) (rc : Rc) : List Nat :=
  match sys.fork with
  | .error _ => []
  | .ok pid =>
      if rc = .ok ∧ MustKill stream (sys.rounds.map (Round.turn (sys.start + timeout))) then [pid]
      else []

theorem toKill_error (sys : GpgSys) (stream : Bytes) (timeout : Nat) :
    sys.toKill stream timeout .error = [] := by
  unfold GpgSys.toKill
  cases sys.fork <;> rfl

theorem gpgRunIn_kills (gpgPath keyring msg home : Bytes) (fd timeout : Nat) (sys : GpgSys) :
    Shows Call.kills (gpgRunIn gpgPath keyring msg home fd timeout sys)
      (fun res => sys.toKill (sys.proc gpgPath keyring home msg).stream timeout res.1) := by
  refine shows_call_bind rfl (shows_of_silent (writeMsg_kills _ _ _ _) (shows_call_bind rfl ?_))
  have hEarly := gpgCleanup_kills home true sys.opendir [msgEntry]
  split_ifs with hShort
  · exact shows_of_silent hEarly (shows_pure (toKill_error _ _ _))
  have hFile := writeMsg_file (Bool.eq_true_of_not_eq_false hShort)
  cases sys.pipe with
  | error e => exact shows_of_silent hEarly (shows_pure (toKill_error _ _ _))
  | ok ends =>
      refine shows_call_bind rfl (shows_call_bind rfl ?_)
      cases hFork : sys.fork with
      | error e =>
          refine shows_call_bind rfl (shows_call_bind rfl (shows_call_bind rfl ?_))
          exact shows_of_silent hEarly (shows_pure (toKill_error _ _ _))
      | ok pid =>
          refine shows_call_bind rfl (shows_then_silent (gpgParent_kills _ _ _ _ _ _ _ _)
            (shows_pure rfl) ?_)
          simp only [GpgSys.toKill, hFork, hFile, List.nil_append, val_pure, true_and]

/-- A verification kills at most its own child, once, and exactly where it must. -/
theorem gpgVerifyCalls_kills (gpgPath keyring msg : Bytes) (timeout : Nat) (sys : GpgSys) :
    Shows Call.kills (gpgVerifyCalls gpgPath keyring msg timeout sys) fun res =>
      match sys.mkdtemp (homeTemplate sys.tmpdir) with
      | .error _ => []
      | .ok home => sys.toKill (sys.proc gpgPath keyring home msg).stream timeout res.1 := by
  rw [gpgVerifyCalls]
  cases sys.mkdtemp (homeTemplate sys.tmpdir) with
  | error e =>
      split_ifs
      all_goals exact shows_pure rfl
  | ok home =>
      split_ifs
      · exact shows_pure (toKill_error _ _ _)
      · exact shows_pure (toKill_error _ _ _)
      · refine shows_call_bind rfl ?_
        cases sys.openMsg with
        | error e =>
            exact shows_of_silent (gpgCleanup_kills _ _ _ _) (shows_pure (toKill_error _ _ _))
        | ok fd => exact gpgRunIn_kills _ _ _ _ _ _ _

end PgpAuth
