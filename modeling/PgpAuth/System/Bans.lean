import PgpAuth.Config.Bounds
import PgpAuth.System.Access

/-!
# A banned client in the system

The throttle is asked by the handler and told by the step that answers a submission, which
for a posted one is a later step of the worker. In between a client may be banned by other
submissions of its own. `watchedMachine` is the system with the clock of the throttle's zone;
its steps make at most one call each (`World.throttleCall`). With settings as merging leaves
them, the calls of its runs are those that the results about the throttle are for
(`throttle_calls_legal`).

`bansKept_iff` says in which runs of calls a ban lasts. In the system they are those of a
configuration in which all throttled locations have one ban time: there a client that is
banned gets neither a page nor has its body read, at any of these locations and from any
worker, until the ban ends or a login of it is granted.
-/

namespace PgpAuth

open Lib

section Calls

variable (x : Externals) (locs : Nat → LocConf)

/-- What `throttle_record` is called with where a submission is answered. -/
def LocConf.recordCall (plcf : LocConf) (r : Request) (env : ThrottleEnv) (out : Outcome) :
    Option ThrottleInput :=
  if plcf.failureZone then
    out.records.head?.map fun success =>
      ⟨r, env, .record success plcf.failureLimit plcf.failureWindow plcf.failureBanTime⟩
  else none

/-- The handler gets to its question of the throttle. -/
def LocConf.Asks (plcf : LocConf) (r : Request) (env : SessionEnv) (cache : RevocCache) : Prop :=
  plcf.enable = true ∧ (checkSession x.hmac plcf r env cache).1 ≠ .ok ∧ r.main = true ∧
    plcf.failureZone = true

instance (plcf : LocConf) (r : Request) (env : SessionEnv) (cache : RevocCache) :
    Decidable (plcf.Asks x r env cache) := inferInstanceAs (Decidable (_ ∧ _ ∧ _ ∧ _))

/-- The call of the throttle that a step makes. -/
def World.throttleCall (s : World) : Step → Option ThrottleInput
  | .request worker loc r env =>
      if (locs loc).Asks x r env.session (s.revoc worker loc) then
        some ⟨r, ⟨env.now, true, true⟩, .isBanned⟩
      else none
  | .body i env =>
      s.reading[i]?.bind fun p =>
        match authSubmit x (locs p.loc) p.r env (s.stores p.worker p.loc) with
        | .posted _ => none
        | .answered out => (locs p.loc).recordCall p.r env.verify.finalize.throttle out
  | .thread _ _ _ => none
  | .complete i post finalize =>
      s.finished[i]?.bind fun f =>
        (locs f.check.loc).recordCall f.check.r finalize.throttle
          (verifyThreadDone x (locs f.check.loc) f.check.r f.res post finalize
            (s.stores f.worker f.check.loc))

/-- The system with the clock that the throttle has read last. -/
structure Watched where
  world : World
  clock : Nat

def Watched.zone (s : Watched) : ThrottleWorld := ⟨s.world.throttle, s.clock⟩

/-- Nothing is counted yet. -/
def Watched.start (nonce : NonceState) (revoc : Nat → Nat → RevocCache) : Watched :=
  ⟨.start nonce .empty revoc, 0⟩

/-- The zone after a step. -/
def Watched.zoneAfter (s : Watched) (i : Step) : ThrottleWorld :=
  match s.world.throttleCall x locs i with
  | none => s.zone
  | some c => ((throttleMachine x.throttleShm).step s.zone c).2

def watchedMachine : Machine Watched Step (Option Rc) where
  step s i :=
    let out := (systemMachine x locs).step s.world i
    (out.1, ⟨out.2, (s.zoneAfter x locs i).clock⟩)
  legal s i := ∀ c ∈ s.world.throttleCall x locs i, s.clock ≤ c.env.now

/-- The calls that the steps of a run make. -/
def Watched.calls : Watched → List Step → List ThrottleInput
  | _, [] => []
  | s, i :: is =>
      (s.world.throttleCall x locs i).toList ++ calls ((watchedMachine x locs).step s i).2 is

/-- The step grants no login from the address. -/
def NoLoginOf (a : Bytes) (s : Watched) (i : Step) : Prop :=
  ∀ c ∈ s.world.throttleCall x locs i, c.isSuccessOf a = false

/-- All throttled locations have this ban time. -/
def OneBanTime (banTime : Nat) : Prop :=
  ∀ loc, (locs loc).failureZone = true → (locs loc).failureBanTime = banTime

end Calls

/-! ## What a step does to the zone -/

section Zone

variable {x : Externals} {plcf : LocConf} {r : Request}

/-- An answered submission has made the call that its records tell of, and no other. -/
def Recorded (x : Externals) (plcf : LocConf) (r : Request) (env : ThrottleEnv) (sh : ThrottleSh)
    (out : Outcome) : Prop :=
  (out.stores.throttle, out.notice) =
    match out.records.head? with
    | none => (sh, none)
    | some success => recordFailure x plcf r success env sh

theorem finish_recorded (rc : Rc) (headers : Headers) (events : List Event) (diag : Option Diag)
    (env : FinalizeEnv) (st : Stores) :
    Recorded x plcf r env.throttle st.throttle
      (finish x plcf r rc headers events diag env st) := by
  unfold Recorded finish verifyFinalize
  dsimp only
  split_ifs
  all_goals rfl

theorem verifyPost_throttle (env : PostEnv) (vr : VerifyResult) (st : Stores) :
    (verifyPost x plcf r env vr st).stores.throttle = st.throttle := by
  unfold verifyPost
  dsimp only
  split_ifs
  all_goals rfl

theorem verifyInline_recorded (msg : Bytes) (env : VerifyEnv) (st : Stores) :
    Recorded x plcf r env.finalize.throttle st.throttle (verifyInline x plcf r msg env st) := by
  unfold verifyInline
  dsimp only
  split_ifs
  · exact finish_recorded _ _ _ _ _ _
  · rw [← verifyPost_throttle (x := x) (r := r) env.post
      (gpgVerify plcf.gpgPath plcf.keyring msg env.gpg).2 st]
    exact finish_recorded _ _ _ _ _ _

theorem verifyThreadDone_recorded (res : ThreadResult) (post : PostEnv) (finalize : FinalizeEnv)
    (st : Stores) :
    Recorded x plcf r finalize.throttle st.throttle
      (verifyThreadDone x plcf r res post finalize st) := by
  unfold verifyThreadDone
  dsimp only
  split_ifs
  · exact finish_recorded _ _ _ _ _ _
  · rw [← verifyPost_throttle (x := x) (r := r) post { res.vr with diag := none } st]
    exact finish_recorded _ _ _ _ _ _

theorem authSubmit_recorded {env : SubmitEnv} {st : Stores} {out : Outcome}
    (h : authSubmit x plcf r env st = .answered out) :
    Recorded x plcf r env.verify.finalize.throttle st.throttle out := by
  unfold authSubmit at h
  split at h
  · split_ifs at h
    all_goals
      cases h
      exact finish_recorded _ _ _ _ _ _
  · dsimp only at h
    split_ifs at h
    · cases h
      exact finish_recorded _ _ _ _ _ _
    · cases h
      rfl
    · cases h
      exact verifyInline_recorded _ _ _

/-- The call changes the zone as the records of the answer say. -/
theorem Recorded.throttle {env : ThrottleEnv} {sh : ThrottleSh} {out : Outcome}
    (h : Recorded x plcf r env sh out) (clock : Nat) :
    out.stores.throttle =
      match plcf.recordCall r env out with
      | none => sh
      | some c => ((throttleMachine x.throttleShm).step ⟨sh, clock⟩ c).2.zone := by
  rw [show out.stores.throttle = _ from congrArg Prod.fst h]
  unfold LocConf.recordCall
  cases hZone : plcf.failureZone with
  | false =>
      cases out.records.head? with
      | none => rfl
      | some success =>
          simp [recordFailure, LocConf.throttleZone?, hZone, throttleRecordCall]
  | true =>
      cases out.records.head? with
      | none => rfl
      | some success =>
          simp [recordFailure, LocConf.throttleZone?, hZone, throttleMachine, throttleRecord]

end Zone

section Step

variable {x : Externals} {locs : Nat → LocConf} {s : Watched}

/-- The zone changes with the call of the step and not otherwise. -/
theorem watchedMachine_zone (i : Step) :
    ((watchedMachine x locs).step s i).2.zone = s.zoneAfter x locs i := by
  have hZone : ((systemMachine x locs).step s.world i).2.throttle =
      (s.zoneAfter x locs i).zone := by
    unfold Watched.zoneAfter
    cases i with
    | request worker loc r env =>
        simp only [World.throttleCall]
        split_ifs
        · rfl
        · rfl
    | body i env =>
        change (s.world.body x locs i env).throttle = _
        unfold World.body
        simp only [World.throttleCall]
        cases hRead : s.world.reading[i]? with
        | none => rfl
        | some p =>
            simp only [Option.bind_some]
            cases hSubmit : authSubmit x (locs p.loc) p.r env
                (s.world.stores p.worker p.loc) with
            | posted task => rfl
            | answered out =>
                dsimp only
                change out.stores.throttle = _
                rw [(authSubmit_recorded hSubmit).throttle s.clock]
                generalize (locs p.loc).recordCall p.r env.verify.finalize.throttle out = c
                cases c <;> rfl
    | thread i gpg consume =>
        change (s.world.thread x locs i gpg consume).throttle = s.world.throttle
        unfold World.thread
        split
        · rfl
        · rfl
    | complete i post finalize =>
        change (s.world.complete x locs i post finalize).throttle = _
        unfold World.complete
        simp only [World.throttleCall]
        cases hDone : s.world.finished[i]? with
        | none => rfl
        | some f =>
            simp only [Option.bind_some]
            change (verifyThreadDone x (locs f.check.loc) f.check.r f.res post finalize
              (s.world.stores f.worker f.check.loc)).stores.throttle = _
            rw [(verifyThreadDone_recorded f.res post finalize _).throttle s.clock]
            generalize (locs f.check.loc).recordCall f.check.r finalize.throttle _ = c
            cases c <;> rfl
  change ThrottleWorld.mk ((systemMachine x locs).step s.world i).2.throttle _ = _
  rw [hZone]
  rfl

/-- A record comes from a throttled location, with its parameters. -/
theorem throttleCall_cases {i : Step} {c : ThrottleInput}
    (hc : c ∈ s.world.throttleCall x locs i) :
    c.call = .isBanned ∨ ∃ loc success, (locs loc).failureZone = true ∧
      c.call = .record success (locs loc).failureLimit (locs loc).failureWindow
        (locs loc).failureBanTime := by
  have hRecord : ∀ loc r env out, (locs loc).recordCall r env out = some c →
      ∃ loc success, (locs loc).failureZone = true ∧
        c.call = .record success (locs loc).failureLimit (locs loc).failureWindow
          (locs loc).failureBanTime := by
    intro loc r env out h
    unfold LocConf.recordCall at h
    split_ifs at h with hZone
    obtain ⟨success, -, rfl⟩ := Option.map_eq_some_iff.mp h
    exact ⟨loc, success, hZone, rfl⟩
  cases i with
  | request worker loc r env =>
      simp only [World.throttleCall] at hc
      split_ifs at hc
      · cases hc
        exact .inl rfl
      · cases hc
  | body i env =>
      obtain ⟨p, -, hp⟩ := Option.bind_eq_some_iff.mp hc
      split at hp
      · cases hp
      · exact .inr (hRecord _ _ _ _ hp)
  | thread i gpg consume => cases hc
  | complete i post finalize =>
      obtain ⟨f, -, hf⟩ := Option.bind_eq_some_iff.mp hc
      exact .inr (hRecord _ _ _ _ hf)

theorem banTime_of_throttleCall {banTime : Nat} (hTime : OneBanTime locs banTime) {i : Step}
    {c : ThrottleInput} (hc : c ∈ s.world.throttleCall x locs i) {success : Bool}
    {limit window t : Nat} (hCall : c.call = .record success limit window t) : t = banTime := by
  rcases throttleCall_cases hc with hAsk | ⟨loc, b, hZone, hRecord⟩
  · cases hAsk.symm.trans hCall
  · cases hRecord.symm.trans hCall
    exact hTime loc hZone

/-- Merging bounds what the throttle is called with. -/
theorem bounded_of_throttleCall
    (hMerged : ∀ loc, (locs loc).failureZone = true → (locs loc).Merged) {i : Step}
    {c : ThrottleInput} (hc : c ∈ s.world.throttleCall x locs i) (w : ThrottleWorld) :
    c.call.Bounded ∧ BanBounded w c := by
  rcases throttleCall_cases hc with hAsk | ⟨loc, success, hZone, hRecord⟩
  · simp only [BanBounded, hAsk, ThrottleCall.Bounded, and_self]
  · exact throttles_bounded (hMerged loc hZone).settled hZone success w c hRecord

end Step

/-! ## One ban time -/

section OneTime

variable {ops : ShmOps ThrottleNode} {w : ThrottleWorld} {c : ThrottleInput} {banTime : Nat}

/-- No ban ends later than one that begins now. -/
structure BansWithin (ops : ShmOps ThrottleNode) (banTime : Nat) (w : ThrottleWorld) : Prop where
  wf : w.zone.Wf ops
  ends : ∀ a, w.banEnd ops a ≤ w.clock + banTime

theorem BansWithin.step (h : BansWithin ops banTime w) (hClock : w.clock ≤ c.env.now)
    (hTime : ∀ success limit window t, c.call = .record success limit window t → t = banTime) :
    BansWithin ops banTime ((throttleMachine ops).step w c).2 := by
  refine ⟨throttleMachine_wf h.wf, fun a => ?_⟩
  have hEnds := h.ends a
  rw [throttleMachine_clock]
  rcases entry_step h.wf c a with ⟨-, -, hFades⟩ | ⟨-, -, hNone⟩ |
      ⟨limit, window, t, hOf, hEntry⟩
  · rcases hFades with hSame | ⟨hNone, -⟩
    · have hEnd : ((throttleMachine ops).step w c).2.banEnd ops a = w.banEnd ops a := by
        rw [ThrottleWorld.banEnd, hSame]
        rfl
      omega
    · rw [ThrottleWorld.banEnd, hNone]
      exact Nat.zero_le _
  · rw [ThrottleWorld.banEnd, hNone]
    exact Nat.zero_le _
  · cases hNode : w.zone.nodeAt ops a c.env with
    | none =>
        rw [ThrottleWorld.banEnd, hEntry, hNode]
        exact Nat.zero_le _
    | some n =>
        rw [banEnd_of_failure hNode hEntry, hTime _ _ _ _ hOf.2]
        split_ifs
        · exact le_refl _
        · omega

/-- A failure counted now cannot end a ban earlier. -/
theorem BansWithin.keepsBan (h : BansWithin ops banTime w) (hClock : w.clock ≤ c.env.now)
    (hTime : ∀ success limit window t, c.call = .record success limit window t → t = banTime) :
    KeepsBan ops w c := by
  unfold KeepsBan
  split
  · rename_i limit window t n hCall hEntry
    intro _ _
    have hEnds := h.ends c.ip
    rw [ThrottleWorld.banEnd, hEntry] at hEnds
    rw [hTime _ _ _ _ hCall]
    dsimp only at hEnds
    omega
  · trivial

end OneTime

section Runs

variable {x : Externals} {locs : Nat → LocConf} {s : Watched} {banTime : Nat}

theorem bansWithin_step (hTime : OneBanTime locs banTime) {i : Step}
    (hLegal : (watchedMachine x locs).legal s i) (h : BansWithin x.throttleShm banTime s.zone) :
    BansWithin x.throttleShm banTime ((watchedMachine x locs).step s i).2.zone := by
  rw [watchedMachine_zone, Watched.zoneAfter]
  split
  · exact h
  · rename_i c hc
    exact h.step (hLegal c hc) fun _ _ _ _ hCall => banTime_of_throttleCall hTime hc hCall

/-- A ban of `a` outlasts every step that grants no login of `a`. -/
theorem lastsTo_step (hTime : OneBanTime locs banTime) {a : Bytes} {B : Nat} {i : Step}
    (hLegal : (watchedMachine x locs).legal s i) (hNot : NoLoginOf x locs a s i)
    (hWithin : BansWithin x.throttleShm banTime s.zone) (h : LastsTo x.throttleShm a B s.zone) :
    LastsTo x.throttleShm a B ((watchedMachine x locs).step s i).2.zone := by
  rw [watchedMachine_zone, Watched.zoneAfter]
  split
  · exact h
  · rename_i c hc
    have hCalls := fun success limit window t => @banTime_of_throttleCall x locs s banTime hTime i c
      hc success limit window t
    exact h.step (hLegal c hc) (hWithin.keepsBan (hLegal c hc) hCalls) (hNot c hc)

/-- A ban as it stands is carried through every run that grants no login of `a`. -/
theorem lastsTo_final (hTime : OneBanTime locs banTime) {a : Bytes} {run : List Step}
    (hWithin : BansWithin x.throttleShm banTime s.zone)
    (hRun : ((watchedMachine x locs).restrict (NoLoginOf x locs a)).LegalRun s run) :
    LastsTo x.throttleShm a (s.zone.banEnd x.throttleShm a)
      ((watchedMachine x locs).final s run).zone := by
  have hKept := @Machine.final_invariant _ _ _
    ((watchedMachine x locs).restrict (NoLoginOf x locs a))
    (fun s' => BansWithin x.throttleShm banTime s'.zone ∧
      LastsTo x.throttleShm a (s.zone.banEnd x.throttleShm a) s'.zone)
    (fun _ _ hLegal h => ⟨bansWithin_step hTime hLegal.1 h.1,
      lastsTo_step hTime hLegal.1 hLegal.2 h.1 h.2⟩)
    s run hRun ⟨hWithin, hWithin.wf, fun _ => le_refl _⟩
  rw [Machine.final_restrict] at hKept
  exact hKept.2

theorem bansWithin_start (ops : ShmOps ThrottleNode) (banTime : Nat) (nonce : NonceState)
    (revoc : Nat → Nat → RevocCache) : BansWithin ops banTime (Watched.start nonce revoc).zone where
  wf := .empty
  ends _ := Nat.zero_le _

/-- The handler turns a banned client away before anything else. -/
theorem authHandler_banned {plcf : LocConf} {r : Request} {env : HandlerEnv} {st : Stores}
    (hAsks : plcf.Asks x r env.session st.revoc)
    (hBan : env.now < ThrottleWorld.banEnd x.throttleShm ⟨st.throttle, 0⟩ r.addr.val) :
    (authHandler x plcf r env st).rc = .http 429 ∧
      (authHandler x plcf r env st).answer = none ∧
      (authHandler x plcf r env st).reading = false := by
  obtain ⟨hEnable, hSession, hMain, hZone⟩ := hAsks
  have hDeclined := (@throttleIsBanned_declined_iff x.throttleShm ⟨st.throttle, 0⟩
    ⟨r, ⟨env.now, true, true⟩, .isBanned⟩).mpr hBan
  simp [authHandler, hEnable, hSession, hMain, LocConf.throttleZone?, hZone, hDeclined]

end Runs

/-- Where all throttled locations have one ban time: whatever the steps of other requests do,
a client that is banned is answered 429 at every one of them until its ban ends, unless a
login of it is granted in between. It gets no challenge, and its body is not read. -/
theorem banned_until_end (x : Externals) (locs : Nat → LocConf) {banTime : Nat}
    (hTime : OneBanTime locs banTime) (nonce : NonceState) (revoc : Nat → Nat → RevocCache)
    (before between : List Step) (worker loc : Nat) (r : Request) (env : HandlerEnv)
    (hBefore : (watchedMachine x locs).LegalRun (.start nonce revoc) before)
    (hBetween : ((watchedMachine x locs).restrict (NoLoginOf x locs r.addr.val)).LegalRun
      ((watchedMachine x locs).final (.start nonce revoc) before) between)
    (hLast : (watchedMachine x locs).legal
      ((watchedMachine x locs).final (.start nonce revoc) (before ++ between))
      (.request worker loc r env))
    (hAsks : (locs loc).Asks x r env.session
      (((watchedMachine x locs).final (.start nonce revoc) (before ++ between)).world.revoc
        worker loc))
    (hBan : env.now < ((watchedMachine x locs).final (.start nonce revoc) before).zone.banEnd
      x.throttleShm r.addr.val) :
    let s := (watchedMachine x locs).final (.start nonce revoc) (before ++ between)
    let out := (watchedMachine x locs).step s (.request worker loc r env)
    out.1 = some (.http 429) ∧ out.2.world.reading = s.world.reading ∧
      out.2.world.challenges = s.world.challenges := by
  have hWithin := Machine.final_invariant (fun s i hLegal h => bansWithin_step hTime hLegal h)
    hBefore (bansWithin_start x.throttleShm banTime nonce revoc)
  rw [Machine.final_append] at hLast hAsks ⊢
  generalize (watchedMachine x locs).final (.start nonce revoc) before = start at *
  have hKept := lastsTo_final hTime hWithin hBetween
  generalize (watchedMachine x locs).final start between = s at *
  have hCall : s.world.throttleCall x locs (.request worker loc r env) =
      some ⟨r, ⟨env.now, true, true⟩, .isBanned⟩ := if_pos hAsks
  have hClock : s.clock ≤ env.now := hLast _ hCall
  have hRuns := hKept.2 (Nat.lt_of_le_of_lt hClock hBan)
  obtain ⟨hRc, hAnswer, hReading⟩ := @authHandler_banned x (locs loc) r env
    (s.world.stores worker loc) hAsks (Nat.lt_of_lt_of_le hBan hRuns)
  refine ⟨congrArg some hRc, ?_, ?_⟩
  · change (if (authHandler x (locs loc) r env (s.world.stores worker loc)).reading then _
      else s.world.reading) = s.world.reading
    rw [hReading]
    rfl
  · change s.world.challenges ++ (authHandler x (locs loc) r env
      (s.world.stores worker loc)).answer.elim [] _ = s.world.challenges
    rw [hAnswer]
    exact List.append_nil _

/-! ## The calls of a run -/

/-- In every run of the system, where its throttled locations come from merging and the clock
does not go back, the throttle gets a run of calls as its results assume them, and holds what
this run leaves. -/
theorem throttle_calls_legal (x : Externals) (locs : Nat → LocConf)
    (hMerged : ∀ loc, (locs loc).failureZone = true → (locs loc).Merged) (s : Watched)
    {run : List Step} (hRun : (watchedMachine x locs).LegalRun s run) :
    ((throttleMachine x.throttleShm).restrict BanBounded).LegalRun s.zone (s.calls x locs run) ∧
      ((watchedMachine x locs).final s run).zone =
        (throttleMachine x.throttleShm).final s.zone (s.calls x locs run) := by
  induction run generalizing s with
  | nil => exact ⟨trivial, rfl⟩
  | cons i run ih =>
      obtain ⟨hLegal, hFinal⟩ := ih _ hRun.2
      rw [watchedMachine_zone, Watched.zoneAfter] at hLegal hFinal
      rw [Watched.calls, Machine.final]
      cases hc : s.world.throttleCall x locs i with
      | none =>
          rw [hc] at hLegal hFinal
          exact ⟨hLegal, hFinal⟩
      | some c =>
          rw [hc] at hLegal hFinal
          obtain ⟨hBounded, hBan⟩ := bounded_of_throttleCall hMerged hc s.zone
          exact ⟨⟨⟨⟨hRun.1 c hc, hBounded⟩, hBan⟩, hLegal⟩, hFinal⟩

/-! ## A ban in numbers -/

instance (x : Externals) (locs : Nat → LocConf) (s : Watched) (i : Step) :
    Decidable ((watchedMachine x locs).legal s i) :=
  inferInstanceAs (Decidable (∀ c ∈ s.world.throttleCall x locs i, _))

instance (x : Externals) (locs : Nat → LocConf) (a : Bytes) (s : Watched) (i : Step) :
    Decidable (NoLoginOf x locs a s i) :=
  inferInstanceAs (Decidable (∀ c ∈ s.world.throttleCall x locs i, _))

/-- One failure is enough for a ban of 300 seconds. -/
def strictConf : LocConf := { sampleConf with failureZone := true, failureLimit := 1 }

def strictLevel : Level :=
  ⟨{ enable := some true
     secretFile := some (ascii "session.key")
     failureLimit := some 1 }, sampleCalls⟩

theorem strictConf_merged : strictConf.Merged := by
  have hConf : (confOf
      { sampleEnv with files := fun _ => some (SecretFile.ofBytes sampleConf.secret) } {}
      [strictLevel]).map RawLocConf.toLocConf = .ok strictConf := by decide +kernel
  obtain ⟨conf, hOk, hLoc⟩ := exists_of_map_toLocConf hConf
  refine ⟨_, _, _, _, conf, hOk, ?_, hLoc⟩
  change conf.toLocConf.enable = true
  rw [hLoc]
  rfl

/-- The sample client has two submissions under way. The first is not clear-signed, and the
client is banned at 990. -/
def bannedRun : List Step :=
  [.request 0 0 sampleRequest (loginHandler 980), .request 1 7 sampleRequest (loginHandler 981),
    .body 0 ⟨[.memory (ascii "hello")], true, true, true, true,
      ⟨sampleSigned, calmPost 990 [], calmFinalize 990⟩⟩]

/-- The throttle is asked twice and told once. -/
theorem bannedRun_calls_legal :
    let calls := (Watched.start .empty fun _ _ => .empty).calls sampleExternals
      (fun _ => strictConf) bannedRun
    calls.length = 3 ∧
      ((throttleMachine sampleExternals.throttleShm).restrict BanBounded).LegalRun .start calls :=
  ⟨by decide +kernel, (throttle_calls_legal sampleExternals (fun _ => strictConf)
    (fun _ _ => strictConf_merged) (.start .empty fun _ _ => .empty) (by decide +kernel)).1⟩

/-- It asks for another page, and the second submission comes without a body. -/
def stillBannedRun : List Step :=
  [.request 1 7 { sampleRequest with post := false } (loginHandler 1000),
    .body 0 ⟨[], true, true, true, true,
      ⟨sampleSigned, calmPost 1002 [], calmFinalize 1002⟩⟩]

/-- In the last second of the ban it is still turned away. -/
theorem bannedRun_turned_away :
    ((watchedMachine sampleExternals fun _ => strictConf).step
      ((watchedMachine sampleExternals fun _ => strictConf).final
        (.start .empty fun _ _ => .empty) (bannedRun ++ stillBannedRun))
      (.request 0 3 sampleRequest (loginHandler 1289))).1 = some (.http 429) :=
  (banned_until_end sampleExternals (fun _ => strictConf) (fun _ _ => rfl) .empty
    (fun _ _ => .empty) bannedRun stillBannedRun 0 3 sampleRequest (loginHandler 1289)
    (by decide +kernel) (by decide +kernel) (by decide +kernel) (by decide +kernel)
    (by decide +kernel)).1

end PgpAuth
