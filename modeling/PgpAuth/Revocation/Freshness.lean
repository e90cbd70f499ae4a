import PgpAuth.Lib.Run
import PgpAuth.Revocation

/-!
# When a change of the revocation list is seen

An operator rewrites the list while a worker serves requests. The worker reads the file
again when its mtime differs from that of its copy, and mtimes are whole seconds. A rewrite
in the second whose mtime the worker has already loaded leaves the copy in use for good:
the key it revokes keeps its access (`revocation_missed`).

`revocFresh_iff` says exactly when every answer follows the list as last rewritten.
-/

namespace PgpAuth

open Lib

inductive RevocEvent where
  | rewrite (now : Nat) (content : Bytes)
  | call (now : Nat) (fpr : Bytes)
  deriving DecidableEq, Repr

/-- The file, the time and the copy of one worker. -/
structure RevocWorld where
  content : Bytes
  mtime : Nat
  clock : Nat
  cache : RevocCache
  deriving DecidableEq, Repr

/-- A worker that has read nothing yet. -/
def RevocWorld.start (content : Bytes) (mtime : Nat) : RevocWorld := ⟨content, mtime, mtime, .empty⟩

/-- Every file operation succeeds. -/
def RevocWorld.env (s : RevocWorld) : RevocEnv :=
  ⟨some ⟨s.mtime, s.content.length⟩, true, true, some s.content⟩

/-- Within `pgp_revocation_list_max_size`. -/
def FitsLimit (plcf : LocConf) (content : Bytes) : Prop :=
  plcf.revocMaxSize = 0 ∨ content.length ≤ plcf.revocMaxSize

instance (plcf : LocConf) (content : Bytes) : Decidable (FitsLimit plcf content) :=
  inferInstanceAs (Decidable (_ ∨ _))

def revocMachine (plcf : LocConf) : Machine RevocWorld RevocEvent (Option Bool) where
  step s
    | .rewrite now content => (none, { s with content := content, mtime := now, clock := now })
    | .call now fpr =>
        let out := isRevoked plcf s.env s.cache fpr
        (some out.1, { s with clock := now, cache := out.2 })
  legal s
    | .rewrite now content => s.clock ≤ now ∧ FitsLimit plcf content
    | .call now fpr => s.clock ≤ now ∧ fpr ≠ []

instance (plcf : LocConf) (s : RevocWorld) (e : RevocEvent) :
    Decidable ((revocMachine plcf).legal s e) := by
  cases e <;> exact inferInstanceAs (Decidable (_ ∧ _))

/-- The content as of the last rewrite. -/
def latestContent (content : Bytes) : List RevocEvent → Bytes
  | [] => content
  | .rewrite _ content' :: es => latestContent content' es
  | .call _ _ :: es => latestContent content es

def RevocEvent.isCall : RevocEvent → Bool
  | .rewrite _ _ => false
  | .call _ _ => true

/-- Every answer is the scan of the list as last rewritten. -/
def RevocFresh (plcf : LocConf) (content : Bytes) (mtime : Nat) (es : List RevocEvent) : Prop :=
  ∀ before now fpr after, es = before ++ .call now fpr :: after →
    ((revocMachine plcf).step ((revocMachine plcf).final (.start content mtime) before)
      (.call now fpr)).1 = some (revocScan (latestContent content before) fpr)

/-- No rewrite comes in the second whose mtime the worker has loaded, unless it makes no
difference to the fingerprints asked for until the next rewrite. -/
def RewritesSeen (plcf : LocConf) (content : Bytes) (mtime : Nat) (es : List RevocEvent) : Prop :=
  ∀ before (now : Nat) content' calls now' fpr after,
    es = before ++ .rewrite now content' :: (calls ++ .call now' fpr :: after) →
    (∀ e ∈ calls, e.isCall = true) →
    ∀ copy, ((revocMachine plcf).final (.start content mtime) before).cache.data = some copy →
      ((revocMachine plcf).final (.start content mtime) before).cache.mtime = now →
        revocScan copy fpr = revocScan content' fpr

variable {plcf : LocConf} {s : RevocWorld}

theorem final_content (plcf : LocConf) (s : RevocWorld) (es : List RevocEvent) :
    ((revocMachine plcf).final s es).content = latestContent s.content es := by
  induction es generalizing s with
  | nil => rfl
  | cons e es ih => cases e <;> exact ih _

/-- The copy a call uses. -/
def RevocWorld.copy (s : RevocWorld) : RevocCache :=
  if s.cache.data = none ∨ (s.mtime : Int) ≠ s.cache.mtime then ⟨some s.content, s.mtime⟩
  else s.cache

theorem isRevoked_env (hList : plcf.revocationList ≠ []) (hFits : FitsLimit plcf s.content)
    {fpr : Bytes} (hFpr : fpr ≠ []) :
    isRevoked plcf s.env s.cache fpr = (revocScan (s.copy.data.getD []) fpr, s.copy) := by
  have hSize : ¬(plcf.revocMaxSize ≠ 0 ∧ plcf.revocMaxSize < s.content.length) := by
    unfold FitsLimit at hFits
    omega
  have hLoad : revocLoad plcf s.env s.cache = some s.copy := by
    unfold revocLoad RevocWorld.env RevocWorld.copy
    dsimp only
    rw [if_neg hSize]
    split
    · simp
    · rfl
  unfold isRevoked
  rw [if_neg (by simp [hList, hFpr]), hLoad]

/-- The list fits, in every state of a legal run. -/
theorem fitsLimit_final {es : List RevocEvent} (hRun : (revocMachine plcf).LegalRun s es)
    (hFits : FitsLimit plcf s.content) :
    FitsLimit plcf ((revocMachine plcf).final s es).content :=
  @Machine.final_invariant _ _ _ (revocMachine plcf) (fun s => FitsLimit plcf s.content)
    (fun s e hLegal h => by
      cases e with
      | rewrite now content => exact hLegal.2
      | call now fpr => exact h)
    _ _ hRun hFits

/-! ## Calls between two rewrites -/

/-- The copy is that of the present file, if it counts as current at all. -/
def RevocWorld.Current (s : RevocWorld) : Prop :=
  ∀ copy, s.cache.data = some copy → s.cache.mtime = s.mtime → copy = s.content

theorem RevocWorld.Current.copy_eq (h : s.Current) : s.copy.data = some s.content := by
  unfold RevocWorld.copy
  split
  · rfl
  · rename_i hKeep
    rw [not_or, not_not] at hKeep
    obtain ⟨copy, hCopy⟩ := Option.ne_none_iff_exists'.mp hKeep.1
    rw [hCopy, h copy hCopy hKeep.2.symm]

/-- An outdated copy that counts as current. -/
def RevocWorld.Holds (s : RevocWorld) (copy : Bytes) : Prop :=
  s.cache.data = some copy ∧ s.cache.mtime = s.mtime

theorem RevocWorld.Holds.copy_eq {copy : Bytes} (h : s.Holds copy) : s.copy = s.cache := by
  unfold RevocWorld.copy
  rw [if_neg]
  simp [h.1, h.2]

section Calls

variable (hList : plcf.revocationList ≠ [])

include hList

/-- A call leaves the file alone and keeps the copy it used. -/
theorem call_step (hFits : FitsLimit plcf s.content) {now : Nat} {fpr : Bytes} (hFpr : fpr ≠ []) :
    (revocMachine plcf).step s (.call now fpr) =
      (some (revocScan (s.copy.data.getD []) fpr), { s with clock := now, cache := s.copy }) := by
  simp only [revocMachine, isRevoked_env hList hFits hFpr]

/-- What one call keeps, a run of calls keeps. -/
theorem calls_invariant {P : RevocWorld → Prop}
    (hStep : ∀ s now, P s → P { s with clock := now, cache := s.copy }) {es : List RevocEvent}
    (hRun : (revocMachine plcf).LegalRun s es) (hFits : FitsLimit plcf s.content)
    (hCalls : ∀ e ∈ es, e.isCall = true) (h : P s) : P ((revocMachine plcf).final s es) := by
  induction es generalizing s with
  | nil => exact h
  | cons e es ih =>
      cases e with
      | rewrite now content => cases hCalls (.rewrite now content) List.mem_cons_self
      | call now fpr =>
          obtain ⟨⟨-, hFpr⟩, hRest⟩ := hRun
          rw [Machine.final]
          rw [call_step hList hFits hFpr] at hRest ⊢
          exact ih hRest hFits (fun e he => hCalls e (List.mem_cons_of_mem _ he)) (hStep s now h)

theorem current_calls {es : List RevocEvent} (hRun : (revocMachine plcf).LegalRun s es)
    (hFits : FitsLimit plcf s.content) (hCalls : ∀ e ∈ es, e.isCall = true) (h : s.Current) :
    ((revocMachine plcf).final s es).Current := by
  refine calls_invariant hList ?_ hRun hFits hCalls h
  intro s now hCurrent copy hCopy _
  exact Option.some.inj (hCopy.symm.trans hCurrent.copy_eq)

theorem holds_calls {es : List RevocEvent} (hRun : (revocMachine plcf).LegalRun s es)
    (hFits : FitsLimit plcf s.content) (hCalls : ∀ e ∈ es, e.isCall = true) {copy : Bytes}
    (h : s.Holds copy) : ((revocMachine plcf).final s es).Holds copy := by
  refine calls_invariant (P := (·.Holds copy)) hList ?_ hRun hFits hCalls h
  intro s now hHolds
  rw [hHolds.copy_eq]
  exact hHolds

end Calls

/-- The last rewrite of a history, and the calls since. -/
theorem split_at_last_rewrite (es : List RevocEvent) :
    (∀ e ∈ es, e.isCall = true) ∨ ∃ before now content calls,
      es = before ++ .rewrite now content :: calls ∧ ∀ e ∈ calls, e.isCall = true := by
  induction es with
  | nil => exact .inl (by simp)
  | cons e es ih =>
      rcases ih with hCalls | ⟨before, now, content, calls, rfl, hCalls⟩
      · cases e with
        | rewrite now content => exact .inr ⟨[], now, content, es, rfl, hCalls⟩
        | call now fpr =>
            refine .inl fun e he => ?_
            rcases List.mem_cons.mp he with rfl | he
            · rfl
            · exact hCalls e he
      · exact .inr ⟨e :: before, now, content, calls, rfl, hCalls⟩

theorem latestContent_calls {content : Bytes} {es : List RevocEvent}
    (hCalls : ∀ e ∈ es, e.isCall = true) : latestContent content es = content := by
  induction es with
  | nil => rfl
  | cons e es ih =>
      cases e with
      | rewrite now content' => cases hCalls (.rewrite now content') List.mem_cons_self
      | call now fpr => exact ih fun e he => hCalls e (List.mem_cons_of_mem _ he)

/-- The answers between a rewrite and the next: right for every fingerprint, or those of the
copy that was loaded in the same second. -/
theorem answer_after_rewrite (hList : plcf.revocationList ≠ []) {now now' : Nat} {content : Bytes}
    {calls : List RevocEvent} {fpr : Bytes}
    (hRun : (revocMachine plcf).LegalRun s (.rewrite now content :: (calls ++ [.call now' fpr])))
    (hCalls : ∀ e ∈ calls, e.isCall = true) :
    ((revocMachine plcf).step ((revocMachine plcf).final s (.rewrite now content :: calls))
        (.call now' fpr)).1 = some (revocScan content fpr) ↔
      ∀ copy, s.cache.data = some copy → s.cache.mtime = now →
        revocScan copy fpr = revocScan content fpr := by
  obtain ⟨⟨-, hFits⟩, hRest⟩ := hRun
  obtain ⟨hMiddle, hLast⟩ := Machine.legalRun_append.mp hRest
  have hFpr : fpr ≠ [] := hLast.1.2
  rw [Machine.final]
  have hNow := fitsLimit_final hMiddle hFits
  rw [call_step hList hNow hFpr]
  have hContent := final_content plcf ((revocMachine plcf).step s (.rewrite now content)).2 calls
  rw [latestContent_calls hCalls] at hContent
  by_cases hSame : ∃ copy, s.cache.data = some copy ∧ s.cache.mtime = now
  · obtain ⟨copy, hCopy, hSecond⟩ := hSame
    have hStart : ((revocMachine plcf).step s (.rewrite now content)).2.Holds copy :=
      ⟨hCopy, hSecond⟩
    have hHolds := holds_calls hList hMiddle hFits hCalls hStart
    rw [hHolds.copy_eq, hHolds.1, Option.getD_some, Option.some.injEq]
    constructor
    · intro hScan copy' hCopy' _
      obtain rfl := Option.some.inj (hCopy.symm.trans hCopy')
      exact hScan
    · exact fun h => h copy hCopy hSecond
  · have hCurrent : ((revocMachine plcf).step s (.rewrite now content)).2.Current :=
      fun copy hCopy hSecond => absurd ⟨copy, hCopy, hSecond⟩ hSame
    have hFinal := current_calls hList hMiddle hFits hCalls hCurrent
    rw [hFinal.copy_eq, hContent, Option.getD_some]
    exact ⟨fun _ copy hCopy hSecond => absurd ⟨copy, hCopy, hSecond⟩ hSame, fun _ => rfl⟩

theorem latestContent_append (content : Bytes) (es es' : List RevocEvent) :
    latestContent content (es ++ es') = latestContent (latestContent content es) es' := by
  induction es generalizing content with
  | nil => rfl
  | cons e es ih =>
      cases e with
      | rewrite now content' => exact ih content'
      | call now fpr => exact ih content

theorem latestContent_rewrite {content content' : Bytes} {now : Nat}
    {before calls : List RevocEvent} (hCalls : ∀ e ∈ calls, e.isCall = true) :
    latestContent content (before ++ .rewrite now content' :: calls) = content' := by
  rw [latestContent_append, latestContent, latestContent_calls hCalls]

/-- Before the first rewrite a worker that started with no copy answers right. -/
theorem answer_before_rewrite (hList : plcf.revocationList ≠ []) {content : Bytes} {mtime now : Nat}
    {calls : List RevocEvent} {fpr : Bytes} (hFits : FitsLimit plcf content)
    (hRun : (revocMachine plcf).LegalRun (.start content mtime) (calls ++ [.call now fpr]))
    (hCalls : ∀ e ∈ calls, e.isCall = true) :
    ((revocMachine plcf).step ((revocMachine plcf).final (.start content mtime) calls)
      (.call now fpr)).1 = some (revocScan content fpr) := by
  obtain ⟨hBefore, hLast⟩ := Machine.legalRun_append.mp hRun
  have hStart : (RevocWorld.start content mtime).Current := by
    intro copy hCopy
    cases hCopy
  have hCurrent := current_calls hList hBefore hFits hCalls hStart
  have hContent := final_content plcf (.start content mtime) calls
  rw [latestContent_calls hCalls] at hContent
  rw [call_step hList (fitsLimit_final hBefore hFits) hLast.1.2, hCurrent.copy_eq, hContent]
  rfl

/-- Every answer follows the list as last rewritten exactly when no rewrite that matters
falls into a second the worker has already loaded. -/
theorem revocFresh_iff (hList : plcf.revocationList ≠ []) {content : Bytes} (mtime : Nat)
    (hFits : FitsLimit plcf content) {es : List RevocEvent}
    (hRun : (revocMachine plcf).LegalRun (.start content mtime) es) :
    RevocFresh plcf content mtime es ↔ RewritesSeen plcf content mtime es := by
  -- a history up to one call, cut before its last rewrite
  have hCut : ∀ before now content' calls now' fpr after,
      es = before ++ .rewrite now content' :: (calls ++ .call now' fpr :: after) →
      (revocMachine plcf).LegalRun ((revocMachine plcf).final (.start content mtime) before)
        (.rewrite now content' :: (calls ++ [.call now' fpr])) := by
    intro before now content' calls now' fpr after hSplit
    have hEq : es = before ++ ((.rewrite now content' :: (calls ++ [.call now' fpr])) ++ after) := by
      rw [hSplit]
      simp
    rw [hEq] at hRun
    exact (Machine.legalRun_append.mp (Machine.legalRun_append.mp hRun).2).1
  constructor
  · intro hFresh before now content' calls now' fpr after hSplit hCalls
    have hAnswer := hFresh (before ++ .rewrite now content' :: calls) now' fpr after
      (by rw [hSplit, List.append_assoc, List.cons_append])
    rw [latestContent_rewrite hCalls, Machine.final_append] at hAnswer
    exact (answer_after_rewrite hList (hCut _ _ _ _ _ _ _ hSplit) hCalls).mp hAnswer
  · intro hSeen before now fpr after hSplit
    rcases split_at_last_rewrite before with hCalls | ⟨first, now₀, content', calls, rfl, hCalls⟩
    · rw [latestContent_calls hCalls]
      rw [hSplit, List.append_cons] at hRun
      exact answer_before_rewrite hList hFits (Machine.legalRun_append.mp hRun).1 hCalls
    · rw [List.append_assoc, List.cons_append] at hSplit
      rw [latestContent_rewrite hCalls, Machine.final_append]
      exact (answer_after_rewrite hList (hCut _ _ _ _ _ _ _ hSplit) hCalls).mpr
        (hSeen first now₀ content' calls now fpr after hSplit hCalls)

/-- A rewrite comes in a second other than the one whose mtime the worker has loaded. -/
def NewSecond (s : RevocWorld) : RevocEvent → Prop
  | .rewrite now _ => s.cache.data = none ∨ s.cache.mtime ≠ now
  | .call _ _ => True

instance (s : RevocWorld) (e : RevocEvent) : Decidable (NewSecond s e) := by
  cases e <;> unfold NewSecond <;> infer_instance

theorem rewritesSeen_of_newSecond {content : Bytes} {mtime : Nat} {es : List RevocEvent}
    (hRun : ((revocMachine plcf).restrict NewSecond).LegalRun (.start content mtime) es) :
    RewritesSeen plcf content mtime es := by
  intro before now content' calls now' fpr after hSplit _ copy hCopy hSecond
  have hNew := (Machine.legalRun_restrict_iff.mp hRun).2 before (.rewrite now content') _ hSplit
  rcases hNew with hNone | hOther
  · rw [hNone] at hCopy
    cases hCopy
  · exact absurd hSecond hOther

/-- A location with a revocation list. -/
def revocConf : LocConf :=
  { LocConf.defaults (ascii "s3cret") with revocationList := ascii "/etc/nginx/revoked" }

def revokedFpr : Bytes := List.replicate 40 (charByte 'A')

/-- At time 100 the list is emptied, read by a request, and rewritten with the key on it. -/
def sameSecond : List RevocEvent :=
  [.rewrite 100 [], .call 100 revokedFpr, .rewrite 100 revokedFpr, .call 200 revokedFpr]

theorem revocation_missed :
    (revocMachine revocConf).LegalRun (.start [] 0) sameSecond ∧
      ¬RevocFresh revocConf [] 0 sameSecond := by
  refine ⟨by decide +kernel, ?_⟩
  intro hFresh
  have hLast := hFresh [.rewrite 100 [], .call 100 revokedFpr, .rewrite 100 revokedFpr] 200 revokedFpr
    [] rfl
  revert hLast
  decide +kernel

/-- The rewrite comes one second later. -/
def nextSecond : List RevocEvent :=
  [.rewrite 100 [], .call 100 revokedFpr, .rewrite 101 revokedFpr, .call 200 revokedFpr]

theorem revocation_seen :
    (revocMachine revocConf).LegalRun (.start [] 0) nextSecond ∧
      RevocFresh revocConf [] 0 nextSecond := by
  have hRun : (revocMachine revocConf).LegalRun (.start [] 0) nextSecond := by decide +kernel
  refine ⟨hRun, (revocFresh_iff (by decide +kernel) 0 (by decide +kernel) hRun).mpr ?_⟩
  exact rewritesSeen_of_newSecond (by decide +kernel)

end PgpAuth
