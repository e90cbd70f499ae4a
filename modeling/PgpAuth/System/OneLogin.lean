import Mathlib.Data.List.Perm.Basic
import PgpAuth.System.Access
import PgpAuth.Token.SingleUse

/-!
# One challenge, one login

With the `memory` store a step of the system presents at most one token to the zone: the
submission on the worker, or the thread of a posted one. In between, an accepted token
belongs to a task that waits for its completion handler, and is granted, or not, by a later
step of the worker.

`timedMachine` is the system with the times at which steps hold the zone's lock. What is
granted for a token, or may still be, is covered by what the zone accepted
(`World.pending`), and the zone accepts it once.
-/

namespace PgpAuth

open Lib

section Definitions

variable (x : Externals) (locs : Nat → LocConf)

/-- What a submission verified on the worker presents to the store. -/
def presentsInline (plcf : LocConf) (r : Request) (env : SubmitEnv) (cache : RevocCache)
    (lockedAt : Nat) : Option Presentation :=
  if BodyUnusable plcf env.bufs ∨ env.bodyAlloc = false ∨ verifyPre (submittedMsg env.bufs) ≠ .ok ∨
      env.vrAlloc = false ∨ (plcf.threadPool ∧ env.taskAlloc ∧ env.taskPost) then none
  else
    let out := gpgVerify plcf.gpgPath plcf.keyring (submittedMsg env.bufs) env.verify.gpg
    if out.1 = .ok ∧ out.2.valid ∧
        (isRevoked plcf env.verify.post.revoc cache out.2.fpr).1 = false then
      some ⟨plcf, (binding plcf r).1, (binding plcf r).2, out.2, env.verify.post.consume, lockedAt⟩
    else none

/-- What a thread presents to it. -/
def presentsThread (plcf : LocConf) (task : ThreadTask) (gpg : GpgEnv) (consume : ConsumeEnv)
    (lockedAt : Nat) : Option Presentation :=
  let out := gpgVerify plcf.gpgPath plcf.keyring task.msg gpg
  if out.1 = .ok ∧ out.2.valid then some ⟨plcf, task.ip, task.ua, out.2, consume, lockedAt⟩
  else none

/-- What a step presents to it. -/
def World.presents (s : World) (lockedAt : Nat) : Step → Option Presentation
  | .body i env =>
      s.reading[i]?.bind fun p =>
        presentsInline (locs p.loc) p.r env (s.revoc p.worker p.loc) lockedAt
  | .thread i gpg consume =>
      s.posted[i]?.bind fun t => presentsThread (locs t.loc) t.task gpg consume lockedAt
  | .request _ _ _ _ => none
  | .complete _ _ _ => none

/-- The thread had a token accepted. -/
def ThreadResult.accepted (res : ThreadResult) : Bool :=
  res.gpgRc == .ok && res.vr.chalDone && res.vr.chalRc == .ok

/-- The token in the text that was signed. -/
def Verification.token (v : Verification) : Option ChallengeToken :=
  challengeOf (v.verdict locs).2.plaintext

/-- The submission was granted for `t`. -/
def Login.isFor (t : ChallengeToken) (g : Login) : Bool := g.check.token locs == some t

/-- The task has had `t` accepted and may be granted for it. -/
def Finished.holds (t : ChallengeToken) (f : Finished) : Bool :=
  f.res.accepted && f.check.token locs == some t

/-- What was granted for `t`, and what may still be. -/
def World.pending (t : ChallengeToken) (s : World) : Nat :=
  s.granted.countP (Login.isFor locs t) + s.finished.countP (Finished.holds locs t)

/-- The system with the zone's clock and the tokens that the zone has accepted. -/
structure Timed where
  world : World
  clock : Nat
  accepted : List ChallengeToken

def Timed.zone (s : Timed) : ZoneHistory := ⟨s.world.nonce, s.clock, s.accepted⟩

/-- The zone after a step. -/
def Timed.zoneAfter (s : Timed) (lockedAt : Nat) (i : Step) : ZoneHistory :=
  match s.world.presents locs lockedAt i with
  | none => s.zone
  | some p => ((zoneMachine x.hmac x.nonceShm).step s.zone p).2

/-- Steps with the time at which they hold the zone's lock. All locations keep their nonces
there, and no accepted token comes again in the second it expires. -/
def timedMachine : Machine Timed (Step × Nat) (Option Rc) where
  step s i :=
    let out := (systemMachine x locs).step s.world i.1
    (out.1, ⟨out.2, (s.zoneAfter x locs i.2 i.1).clock, (s.zoneAfter x locs i.2 i.1).accepted⟩)
  legal s i :=
    ∀ p ∈ s.world.presents locs i.2 i.1,
      ((zoneMachine x.hmac x.nonceShm).restrict NotInLastSecond).legal s.zone p

end Definitions

/-! ## What a step does to the store -/

section Store

variable {x : Externals} {plcf : LocConf} {r : Request}

/-- The code and the store of a presentation. -/
def Presentation.consume (x : Externals) (p : Presentation) (st : NonceState) : Rc × NonceState :=
  let out := validateConsume x.hmac p.plcf p.ip p.ua x.nonceShm p.env p.vr st
  (out.1, out.2.2)

/-- A step on the store: nothing is presented and nothing granted, or the presentation
decides, and where something is granted it was accepted. -/
def Effect (x : Externals) (p? : Option Presentation) (st st' : NonceState) (granted : Bool) :
    Prop :=
  match p? with
  | none => st' = st ∧ granted = false
  | some p => st' = (p.consume x st).2 ∧ (granted = true → (p.consume x st).1 = .ok)

theorem verifyInline_effect (msg : Bytes) (env : VerifyEnv) (st : Stores) (lockedAt : Nat) :
    let out := gpgVerify plcf.gpgPath plcf.keyring msg env.gpg
    Effect x
      (if out.1 = .ok ∧ out.2.valid ∧
          (isRevoked plcf env.post.revoc st.revoc out.2.fpr).1 = false then
        some ⟨plcf, (binding plcf r).1, (binding plcf r).2, out.2, env.post.consume, lockedAt⟩
      else none)
      st.nonce (verifyInline x plcf r msg env st).stores.nonce
      (verifyInline x plcf r msg env st).granted := by
  have hDone := @gpgVerify_chalDone plcf.gpgPath plcf.keyring msg env.gpg
  unfold verifyInline
  dsimp only
  generalize gpgVerify plcf.gpgPath plcf.keyring msg env.gpg = out at *
  by_cases hOk : out.1 = .ok
  · have hChal : challengeVerdict x plcf r env.post.consume out.2 st.nonce =
        validateConsume x.hmac plcf (binding plcf r).1 (binding plcf r).2 x.nonceShm
          env.post.consume out.2 st.nonce := by
      rw [challengeVerdict, hDone hOk, if_neg Bool.false_ne_true]
    simp only [hOk, ne_eq, not_true_eq_false, if_false, true_and]
    by_cases hPasses : out.2.valid = true ∧
        (isRevoked plcf env.post.revoc st.revoc out.2.fpr).1 = false
    · rw [if_pos hPasses]
      constructor
      · simp only [finish, verifyPost, hPasses, hChal, Bool.true_eq_false, if_false,
          Bool.false_eq_true]
        split <;> rfl
      · intro hGranted
        have hEvent : (verifyPost x plcf r env.post out.2 st).event.result = .granted := by
          simpa [Outcome.granted, finish] using hGranted
        have hVerdict := (verifyPost_granted hEvent).2.2
        rw [hChal] at hVerdict
        exact hVerdict
    · rw [if_neg hPasses]
      by_cases hValid : out.2.valid = true
      · have hRevoked : (isRevoked plcf env.post.revoc st.revoc out.2.fpr).1 = true := by
          simpa [hValid] using hPasses
        simp [Effect, finish, verifyPost, hValid, hRevoked, Outcome.granted, logEvent]
      · simp [Effect, finish, verifyPost, hValid, Outcome.granted, logEvent]
  · simp [Effect, hOk, Outcome.granted, finish]

/-- A submission answered on the worker. -/
theorem authSubmit_effect {env : SubmitEnv} {st : Stores} {out : Outcome} (lockedAt : Nat)
    (h : authSubmit x plcf r env st = .answered out) :
    Effect x (presentsInline plcf r env st.revoc lockedAt) st.nonce out.stores.nonce
      out.granted := by
  have hRefused : ∀ rc result reason, result ≠ EventResult.granted →
      (finish x plcf r rc .none [logEvent r result reason []] none env.verify.finalize st).granted
        = false := by
    intro rc result reason hResult
    simpa [Outcome.granted, finish, logEvent] using hResult
  unfold authSubmit at h
  rw [readBody_eq] at h
  unfold presentsInline
  by_cases hBody : BodyUnusable plcf env.bufs
  · simp only [hBody, if_true, reduceCtorEq, if_false, Submitted.answered.injEq, true_or] at h ⊢
    subst h
    exact ⟨rfl, hRefused _ _ _ (by decide)⟩
  cases hAlloc : env.bodyAlloc with
  | false =>
      simp only [hBody, hAlloc, if_false, if_true, Submitted.answered.injEq, true_or,
        or_true] at h ⊢
      subst h
      exact ⟨rfl, hRefused _ _ _ (by decide)⟩
  | true =>
      simp only [hBody, hAlloc, if_false, Bool.true_eq_false, false_or] at h ⊢
      rw [← submittedMsg] at h
      by_cases hPre : verifyPre (submittedMsg env.bufs) = .ok
      · cases hVr : env.vrAlloc with
        | false =>
            simp only [hPre, hVr, ne_eq, not_true_eq_false, if_false, if_true,
              Submitted.answered.injEq, true_or, false_or] at h ⊢
            subst h
            exact ⟨rfl, rfl⟩
        | true =>
            simp only [hPre, hVr, ne_eq, not_true_eq_false, if_false, Bool.true_eq_false,
              false_or] at h ⊢
            by_cases hPool : plcf.threadPool = true ∧ env.taskAlloc = true ∧ env.taskPost = true
            · rw [if_pos hPool] at h
              cases h
            · rw [if_neg hPool, Submitted.answered.injEq] at h
              rw [if_neg hPool]
              subst h
              exact verifyInline_effect _ _ _ _
      · simp only [hPre, ne_eq, not_false_eq_true, if_true, Submitted.answered.injEq,
          true_or] at h ⊢
        subst h
        exact ⟨rfl, hRefused _ _ _ (by decide)⟩

theorem gpgThread_effect (task : ThreadTask) (gpg : GpgEnv) (consume : ConsumeEnv) (st : NonceState)
    (lockedAt : Nat) :
    Effect x (presentsThread plcf task gpg consume lockedAt) st
      (gpgThread x plcf task gpg consume st).2
      (gpgThread x plcf task gpg consume st).1.accepted := by
  have hDone := @gpgVerify_chalDone plcf.gpgPath plcf.keyring task.msg gpg
  unfold gpgThread presentsThread
  dsimp only
  generalize gpgVerify plcf.gpgPath plcf.keyring task.msg gpg = out at *
  by_cases hPasses : out.1 = .ok ∧ out.2.valid = true
  · rw [if_pos hPasses, if_pos hPasses]
    refine ⟨rfl, fun hAccepted => ?_⟩
    have hRc : (validateConsume x.hmac plcf task.ip task.ua x.nonceShm consume out.2 st).1 =
        .ok := by
      simpa [ThreadResult.accepted, hPasses.1] using hAccepted
    exact hRc
  · rw [if_neg hPasses, if_neg hPasses]
    refine ⟨rfl, ?_⟩
    by_cases hOk : out.1 = .ok
    · simp [ThreadResult.accepted, hOk, hDone hOk]
    · simp [ThreadResult.accepted, hOk]

/-- The completion handler leaves the store alone, and grants what its thread had accepted. -/
theorem verifyThreadDone_effect (x : Externals) (plcf : LocConf) (r : Request) (task : ThreadTask)
    (gpg : GpgEnv) (consume : ConsumeEnv) (nonce : NonceState) (post : PostEnv)
    (finalize : FinalizeEnv) (st : Stores) :
    let res := (gpgThread x plcf task gpg consume nonce).1
    (verifyThreadDone x plcf r res post finalize st).stores.nonce = st.nonce ∧
      ((verifyThreadDone x plcf r res post finalize st).granted = true → res.accepted = true) := by
  unfold gpgThread
  dsimp only
  generalize gpgVerify plcf.gpgPath plcf.keyring task.msg gpg = out
  by_cases hPasses : out.1 = .ok ∧ out.2.valid = true
  · have hVerdict := validateConsume_verdict x.hmac plcf task.ip task.ua consume x.nonceShm out.2
      nonce
    simp only [VerifyResult.verdict, Prod.mk.injEq] at hVerdict
    simp only [hPasses, and_self, if_true]
    constructor
    · simp only [verifyThreadDone, finish, verifyPost, challengeVerdict, hVerdict.1, hPasses.2,
        ne_eq, not_true_eq_false, if_false, Bool.true_eq_false, if_true]
      split_ifs <;> rfl
    · intro hGranted
      have hChal := (verifyPost_granted (verifyThreadDone_granted hGranted).2).2.2
      simpa [ThreadResult.accepted, challengeVerdict] using hChal
  · rw [if_neg hPasses]
    by_cases hOk : out.1 = .ok
    · have hValid : out.2.valid = false := by simpa [hOk] using hPasses
      simp [verifyThreadDone, finish, verifyPost, hOk, hValid, Outcome.granted, logEvent]
    · simp [verifyThreadDone, finish, hOk, Outcome.granted]

theorem presentsInline_vr {env : SubmitEnv} {cache : RevocCache} {lockedAt : Nat} {p : Presentation}
    (h : presentsInline plcf r env cache lockedAt = some p) :
    p.vr = (gpgVerify plcf.gpgPath plcf.keyring (submittedMsg env.bufs) env.verify.gpg).2 := by
  unfold presentsInline at h
  split at h
  · cases h
  · dsimp only at h
    split at h
    · rw [← Option.some.inj h]
    · cases h

theorem presentsThread_vr {task : ThreadTask} {gpg : GpgEnv} {consume : ConsumeEnv} {lockedAt : Nat}
    {p : Presentation} (h : presentsThread plcf task gpg consume lockedAt = some p) :
    p.vr = (gpgVerify plcf.gpgPath plcf.keyring task.msg gpg).2 := by
  unfold presentsThread at h
  dsimp only at h
  split at h
  · rw [← Option.some.inj h]
  · cases h

end Store

/-! ## What a step does to the tokens -/

section Tokens

variable {x : Externals} {locs : Nat → LocConf} {s : World}

/-- A step presents a token or not; what is granted for a token, or may be, grows by its
acceptance only. -/
def Stepped (x : Externals) (locs : Nat → LocConf) (p? : Option Presentation) (s s' : World) :
    Prop :=
  match p? with
  | none => s'.nonce = s.nonce ∧ ∀ t, s'.pending locs t ≤ s.pending locs t
  | some p =>
      s'.nonce = (p.consume x s.nonce).2 ∧
        ∀ t, s'.pending locs t ≤
          s.pending locs t + if accepts t (p, (p.consume x s.nonce).1) then 1 else 0

theorem presentsInline_of_posted {plcf : LocConf} {r : Request} {env : SubmitEnv} {st : Stores}
    {task : ThreadTask} (h : authSubmit x plcf r env st = .posted task) (cache : RevocCache)
    (lockedAt : Nat) : presentsInline plcf r env cache lockedAt = none := by
  have hPool : plcf.threadPool = true ∧ env.taskAlloc = true ∧ env.taskPost = true := by
    by_contra hNot
    unfold authSubmit at h
    simp only [hNot, if_false] at h
    split at h
    · split at h <;> cases h
    · split_ifs at h
  rw [presentsInline, if_pos (.inr (.inr (.inr (.inr hPool))))]

/-- A grant counts for the token that was signed, and for no other. -/
theorem countP_granted (t : ChallengeToken) (granted : List Login) (login : Login) (b : Bool) :
    (if b then granted ++ [login] else granted).countP (Login.isFor locs t) =
      granted.countP (Login.isFor locs t) + if b && login.isFor locs t then 1 else 0 := by
  cases b with
  | false => simp
  | true => simp [List.countP_append, List.countP_cons]

/-- A step that grants, or lets a task hope for, what its presentation had accepted. -/
theorem stepped_of_effect {p? : Option Presentation} {s' : World} {granted : Bool}
    (token : Option ChallengeToken) (hEffect : Effect x p? s.nonce s'.nonce granted)
    (hToken : ∀ p ∈ p?, p.token = token)
    (hPending : ∀ t, s'.pending locs t ≤
      s.pending locs t + if granted && token == some t then 1 else 0) :
    Stepped x locs p? s s' := by
  cases p? with
  | none =>
      refine ⟨hEffect.1, fun t => ?_⟩
      have hLe := hPending t
      rw [hEffect.2] at hLe
      simpa using hLe
  | some p =>
      refine ⟨hEffect.1, fun t => Nat.le_trans (hPending t) (Nat.add_le_add_left ?_ _)⟩
      cases granted with
      | false => simp
      | true => simp [accepts, hToken p rfl, hEffect.2 rfl]

theorem World.stepped_body (s : World) (i : Nat) (env : SubmitEnv) (lockedAt : Nat) :
    Stepped x locs (s.presents locs lockedAt (.body i env)) s (s.body x locs i env) := by
  rw [World.body, World.presents]
  cases hRead : s.reading[i]? with
  | none => exact ⟨rfl, fun t => Nat.le_refl _⟩
  | some p =>
      rw [Option.bind_some]
      dsimp only
      cases hSubmit : authSubmit x (locs p.loc) p.r env (s.stores p.worker p.loc) with
      | posted task =>
          rw [presentsInline_of_posted hSubmit]
          exact ⟨rfl, fun t => Nat.le_refl _⟩
      | answered out =>
          refine stepped_of_effect ((s.submitted p env).check.token locs)
            (authSubmit_effect lockedAt hSubmit) ?_ ?_
          · intro q hq
            rw [Presentation.token, presentsInline_vr hq]
            rfl
          · intro t
            unfold World.pending
            rw [Nat.add_right_comm, ← Login.isFor, ← countP_granted]
            exact Nat.le_refl _

theorem World.stepped_thread (s : World) (i : Nat) (gpg : GpgEnv) (consume : ConsumeEnv)
    (lockedAt : Nat) :
    Stepped x locs (s.presents locs lockedAt (.thread i gpg consume)) s
      (s.thread x locs i gpg consume) := by
  rw [World.thread, World.presents]
  cases hPost : s.posted[i]? with
  | none => exact ⟨rfl, fun t => Nat.le_refl _⟩
  | some task =>
      rw [Option.bind_some]
      dsimp only
      refine stepped_of_effect
        (challengeOf (gpgVerify (locs task.loc).gpgPath (locs task.loc).keyring task.task.msg
          gpg).2.plaintext)
        (gpgThread_effect task.task gpg consume s.nonce lockedAt) ?_ ?_
      · intro q hq
        rw [Presentation.token, presentsThread_vr hq]
      · intro t
        unfold World.pending
        rw [List.countP_append, List.countP_singleton, ← Nat.add_assoc]
        exact Nat.le_refl _

/-- A task that is completed hands its token over to the grant. -/
theorem World.stepped_complete (hTasks : s.Tasks x locs) (i : Nat) (post : PostEnv)
    (finalize : FinalizeEnv) : Stepped x locs none s (s.complete x locs i post finalize) := by
  rw [World.complete]
  cases hDone : s.finished[i]? with
  | none => exact ⟨rfl, fun t => Nat.le_refl _⟩
  | some f =>
      have hRes := hTasks.finished f (List.mem_of_getElem? hDone)
      obtain ⟨hNonce, hGranted⟩ := verifyThreadDone_effect x (locs f.check.loc) f.check.r
        (f.check.task locs) f.check.gpg f.check.consume f.check.nonce post finalize
        (s.stores f.worker f.check.loc)
      rw [← hRes] at hNonce hGranted
      refine ⟨hNonce, fun t => ?_⟩
      obtain ⟨hLt, hGet⟩ := List.getElem?_eq_some_iff.mp hDone
      have hCount : s.finished.countP (Finished.holds locs t) =
          (s.finished.eraseIdx i).countP (Finished.holds locs t) +
            if f.holds locs t then 1 else 0 := by
        rw [← (List.getElem_cons_eraseIdx_perm hLt).countP_eq, List.countP_cons, hGet]
      have hLe : (if (verifyThreadDone x (locs f.check.loc) f.check.r f.res post finalize
          (s.stores f.worker f.check.loc)).granted && f.check.token locs == some t then 1 else 0) ≤
          if f.holds locs t then 1 else 0 := by
        cases hOut : (verifyThreadDone x (locs f.check.loc) f.check.r f.res post finalize
          (s.stores f.worker f.check.loc)).granted with
        | false => simp
        | true => simp [Finished.holds, hGranted hOut]
      calc
        (({ s with finished := s.finished.eraseIdx i }.answered locs f.worker
            ⟨f.check, post.revoc, s.revoc f.worker f.check.loc⟩ post.grant finalize.challenge
            (verifyThreadDone x (locs f.check.loc) f.check.r f.res post finalize
              (s.stores f.worker f.check.loc))).pending locs t) =
            s.granted.countP (Login.isFor locs t) +
              (if (verifyThreadDone x (locs f.check.loc) f.check.r f.res post finalize
                (s.stores f.worker f.check.loc)).granted && f.check.token locs == some t
                then 1 else 0) +
              (s.finished.eraseIdx i).countP (Finished.holds locs t) :=
          congrArg (· + _) (countP_granted t s.granted _ _)
        _ ≤ s.pending locs t := by
          rw [World.pending, hCount]
          omega

end Tokens

/-! ## Along a run -/

section Runs

variable {x : Externals} {locs : Nat → LocConf}

theorem World.stepped {s : World} (hTasks : s.Tasks x locs) (lockedAt : Nat) (i : Step) :
    Stepped x locs (s.presents locs lockedAt i) s ((systemMachine x locs).step s i).2 := by
  cases i with
  | request worker loc r env => exact ⟨rfl, fun t => Nat.le_refl _⟩
  | body i env => exact s.stepped_body i env lockedAt
  | thread i gpg consume => exact s.stepped_thread i gpg consume lockedAt
  | complete i post finalize => exact World.stepped_complete hTasks i post finalize

/-- What is granted or may be is covered by what the zone has accepted, once for each token. -/
structure Timed.Covered (x : Externals) (locs : Nat → LocConf) (s : Timed) : Prop where
  tasks : s.world.Tasks x locs
  wf : s.world.nonce.zone.Wf x.nonceShm
  pending : ∀ t, s.world.pending locs t ≤ s.accepted.count t
  once : ∀ t, s.accepted.count t ≤ 1
  spent : ∀ t ∈ s.accepted, Spent t s.zone

theorem count_accepted_step (hmac : Hmac) (ops : ShmOps NonceNode) (z : ZoneHistory)
    (p : Presentation) (t : ChallengeToken) :
    (((zoneMachine hmac ops).step z p).2.accepted).count t =
      z.accepted.count t + if accepts t (p, ((zoneMachine hmac ops).step z p).1) then 1 else 0 := by
  change List.count t (if ((zoneMachine hmac ops).step z p).1 = .ok then
    p.token.toList ++ z.accepted else z.accepted) = _
  by_cases hOk : ((zoneMachine hmac ops).step z p).1 = .ok
  · rw [if_pos hOk, hOk]
    cases hToken : p.token with
    | none => simp [accepts, hToken]
    | some u => simp [accepts, hToken, List.count_cons]
  · simp [hOk, accepts]

theorem Timed.Covered.step {s : Timed} {i : Step × Nat} (hLegal : (timedMachine x locs).legal s i)
    (h : s.Covered x locs) : ((timedMachine x locs).step s i).2.Covered x locs := by
  obtain ⟨i, lockedAt⟩ := i
  have hZone : ∀ p ∈ s.world.presents locs lockedAt i,
    ((zoneMachine x.hmac x.nonceShm).restrict NotInLastSecond).legal s.zone p := hLegal
  have hTasks := tasks_step h.tasks i
  have hStepped := World.stepped h.tasks lockedAt i
  unfold timedMachine Timed.zoneAfter
  dsimp only
  cases hp : s.world.presents locs lockedAt i with
  | none =>
      rw [hp] at hStepped
      obtain ⟨hNonce, hPending⟩ := hStepped
      dsimp only
      refine ⟨hTasks, ?_, fun t => Nat.le_trans (hPending t) (h.pending t), h.once, ?_⟩
      · rw [hNonce]
        exact h.wf
      · intro t ht
        have hSpent := h.spent t ht
        unfold Timed.zone Spent at hSpent ⊢
        rw [hNonce]
        exact hSpent
  | some p =>
      rw [hp] at hStepped hZone
      obtain ⟨hNonce, hPending⟩ := hStepped
      obtain ⟨hLegal, hLast⟩ := hZone p rfl
      have hCount := count_accepted_step x.hmac x.nonceShm s.zone p
      dsimp only
      refine ⟨hTasks, ?_, ?_, ?_, ?_⟩
      · rw [hNonce]
        exact zoneMachine_wf hLegal h.wf
      · intro t
        rw [hCount t]
        exact Nat.le_trans (hPending t) (Nat.add_le_add_right (h.pending t) _)
      · intro t
        rw [hCount t]
        by_cases ht : t ∈ s.accepted
        · have hNot := not_accepts_of_spent hLegal hLast h.wf (h.spent t ht)
          rw [hNot]
          exact h.once t
        · have hZero : s.zone.accepted.count t = 0 := List.count_eq_zero_of_not_mem ht
          rw [hZero]
          split <;> omega
      · intro t ht
        have hSpent : Spent t ((zoneMachine x.hmac x.nonceShm).step s.zone p).2 := by
          by_cases hOld : t ∈ s.accepted
          · exact spent_step hLegal h.wf (h.spent t hOld)
          · refine spent_of_accepts hLegal h.wf ?_
            have hPos := List.count_pos_iff.mpr ht
            have hZero : s.zone.accepted.count t = 0 := List.count_eq_zero_of_not_mem hOld
            rw [hCount t, hZero] at hPos
            by_contra hNot
            rw [if_neg hNot] at hPos
            exact Nat.lt_irrefl 0 hPos
        unfold Timed.zone
        rw [hNonce]
        exact hSpent

/-- In every interleaving, and in either mode of verification, at most one submission is
granted for a token. -/
theorem one_login_per_challenge {nonce : NonceState} (hWf : nonce.zone.Wf x.nonceShm)
    (throttle : ThrottleSh) (revoc : Nat → Nat → RevocCache) {run : List (Step × Nat)}
    (hRun : (timedMachine x locs).LegalRun ⟨.start nonce throttle revoc, 0, []⟩ run)
    (t : ChallengeToken) :
    ((timedMachine x locs).final ⟨.start nonce throttle revoc, 0, []⟩ run).world.granted.countP
      (Login.isFor locs t) ≤ 1 := by
  have hStart : Timed.Covered x locs ⟨.start nonce throttle revoc, 0, []⟩ :=
    ⟨tasks_start nonce throttle revoc, hWf, fun t => Nat.le_refl _, fun t => Nat.zero_le _,
      fun t ht => absurd ht List.not_mem_nil⟩
  have hEnd := Machine.final_invariant (fun s i hLegal h => Timed.Covered.step hLegal h) hRun hStart
  exact Nat.le_trans (Nat.le_add_right _ _) (Nat.le_trans (hEnd.pending t) (hEnd.once t))

end Runs

/-! ## A replay in numbers -/

instance (x : Externals) (locs : Nat → LocConf) (s : Timed) (i : Step × Nat) :
    Decidable ((timedMachine x locs).legal s i) :=
  inferInstanceAs (Decidable (∀ _ ∈ _, _))

def replayedBody : SubmitEnv :=
  ⟨[.memory clearSignedTag], true, true, true, true,
    ⟨sampleSigned, calmPost 990 [], calmFinalize 990⟩⟩

/-- The sample client sends its signed challenge to two workers at once; the threads finish
in the other order. -/
def replayRun : List (Step × Nat) :=
  [(.request 0 0 { sampleRequest with post := false } (loginHandler 880), 880),
    (.request 0 0 sampleRequest (loginHandler 990), 990),
    (.request 1 0 sampleRequest (loginHandler 990), 990),
    (.body 0 replayedBody, 990), (.body 0 replayedBody, 990),
    (.thread 1 sampleSigned (calmPost 990 []).consume, 990),
    (.thread 0 sampleSigned (calmPost 990 []).consume, 990),
    (.complete 0 (calmPost 999 []) (calmFinalize 999), 999),
    (.complete 0 (calmPost 999 []) (calmFinalize 999), 999)]

theorem replay_granted_once :
    let final := (timedMachine loginExternals fun _ => sampleConf).final
      ⟨.start .empty .empty fun _ _ => .empty, 0, []⟩ replayRun
    final.world.granted.length = 1 ∧
      ∀ t, final.world.granted.countP (Login.isFor (fun _ => sampleConf) t) ≤ 1 :=
  ⟨by decide +kernel, one_login_per_challenge NonceSh.Wf.empty .empty (fun _ _ => .empty)
    (by decide +kernel)⟩

end PgpAuth
