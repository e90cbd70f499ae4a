import Mathlib.Data.List.Infix
import PgpAuth.Lib.Run
import PgpAuth.Nonce.Redis

/-!
# A fleet with one Redis

Nodes call `nonceCheckAndSet` for one nonce while time passes: a call starts and reads the
clock, Redis executes its `SET … NX EX` at some later time, and the call finishes with
those of the reply bytes that reach it. The key lives exactly `ttl` seconds from the
execution on.

The `ttl` is computed from the clock reading at the start, so the first key lives at least
until the expiry of the challenge. A `SET` that is still under way then may find the key
gone (`fleet_accepts_twice`). In runs in which no further `SET` is executed once the
challenge has expired, at most one call of the fleet is accepted
(`fleet_accepts_at_most_once`).
-/

namespace PgpAuth

open Lib

/-- A node's call: its configuration, what its zone and its connection do, and what Redis
answers to `AUTH`. -/
structure Attempt where
  nc : LocConf
  vr : VerifyResult
  env : NonceEnv
  st : NonceState
  auth : Bytes
  deriving DecidableEq, Repr

/-- No answer without a password; else `+OK` or an error. -/
def Attempt.AuthAnswered (a : Attempt) : Prop :=
  (a.nc.noncePassword = [] ∧ a.auth = []) ∨
    (a.nc.noncePassword ≠ [] ∧ (a.auth = okReply ∨ a.auth.head? = some (charByte '-')))

instance (a : Attempt) : Decidable a.AuthAnswered := inferInstanceAs (Decidable (_ ∨ _))

/-- A call under way, with Redis's answer to `SET` once it is executed. -/
structure Flight extends Attempt where
  readAt : Nat
  reply : Option Bytes
  deriving DecidableEq, Repr

structure Fleet where
  clock : Nat
  keyUntil : Option Nat
  wasSet : Bool
  calls : Nat → Option Flight

def Fleet.empty : Fleet := ⟨0, none, false, fun _ => none⟩

inductive FleetEvent where
  | tick (clock : Nat)
  | start (id : Nat) (a : Attempt)
  | execute (id : Nat)
  | finish (id : Nat) (inbox : List Bytes)
  deriving DecidableEq, Repr

section

variable (ops : ShmOps NonceNode) (keyPrefix nonce : Bytes) (exp : Int)

/-- What the call returns when these pieces of the replies reach it. -/
def Flight.result (f : Flight) (inbox : List Bytes) : Rc :=
  let redis := { f.env.redis with now := f.readAt, inbox := inbox }
  (nonceCheckAndSet ops f.nc f.vr nonce exp { f.env with redis := redis } f.st).1

/-- Redis executes `SET … NX EX ttl` now. -/
def Fleet.execute (s : Fleet) (id : Nat) (f : Flight) : Fleet :=
  if s.keyUntil.any (s.clock < ·) then
    { s with calls := Function.update s.calls id (some { f with reply := some nilReply }) }
  else
    { clock := s.clock
      keyUntil := some (s.clock + (exp - f.readAt).toNat)
      wasSet := true
      calls := Function.update s.calls id (some { f with reply := some okReply }) }

def fleetMachine : Machine Fleet FleetEvent (Option Rc) where
  step s
    | .tick clock => (none, { s with clock := clock })
    | .start id a => (none, { s with calls := Function.update s.calls id (some ⟨a, s.clock, none⟩) })
    | .execute id =>
        match s.calls id with
        | none => (none, s)
        | some f => (none, s.execute exp id f)
    | .finish id inbox =>
        match s.calls id with
        | none => (none, s)
        | some f =>
            (some (f.result ops nonce exp inbox),
              { s with calls := Function.update s.calls id none })
  legal s
    | .tick clock => s.clock ≤ clock
    | .start id a =>
        (s.calls id).isNone = true ∧ a.nc.nonceStorage = .redis ∧
          a.nc.nonceKeyPrefix = keyPrefix ∧ a.AuthAnswered
    | .execute id => ∃ f ∈ s.calls id, f.reply = none ∧ f.readAt < exp
    | .finish id inbox => ∃ f ∈ s.calls id, inbox.flatten <+: f.auth ++ f.reply.getD []

instance (s : Fleet) (e : FleetEvent) : Decidable ((fleetMachine ops keyPrefix nonce exp).legal s e) :=
  match e with
  | .tick clock => inferInstanceAs (Decidable (s.clock ≤ clock))
  | .start _ _ => inferInstanceAs (Decidable (_ ∧ _))
  | .execute _ => inferInstanceAs (Decidable (∃ _ ∈ _, _))
  | .finish _ _ => inferInstanceAs (Decidable (∃ _ ∈ _, _))

/-- Once the key has been set, no further `SET` is executed at or after the expiry. -/
def SetsInTime (s : Fleet) (e : FleetEvent) : Prop :=
  ∀ id, e = .execute id → s.wasSet = true → s.clock < exp

instance (s : Fleet) (e : FleetEvent) : Decidable (SetsInTime exp s e) :=
  match e with
  | .execute id => decidable_of_iff (s.wasSet = true → s.clock < exp)
      ⟨fun h _ _ => h, fun h => h id rfl⟩
  | .tick _ => isTrue fun _ h => nomatch h
  | .start _ _ => isTrue fun _ h => nomatch h
  | .finish _ _ => isTrue fun _ h => nomatch h

end

def fleetAccepts (a : FleetEvent × Option Rc) : Bool := a.2 == some .ok

/-! ## What an accepted call has read -/

theorem head_of_roundtrip {written : Bool} {inbox : List Bytes} {reply : Bytes}
    (h : (nonceRedisRoundtrip written inbox).1 = some reply)
    (hPlus : startsWith '+' reply = true) :
    ∃ bs inbox', inbox = (charByte '+' :: bs) :: inbox' ∧
      (bs.length < 127 → (nonceRedisRoundtrip written inbox).2 = inbox') := by
  unfold nonceRedisRoundtrip at h ⊢
  split at h
  · rename_i b bs inbox'
    cases h
    obtain rfl : b = charByte '+' := by simpa [startsWith] using hPlus
    refine ⟨bs, inbox', rfl, fun hLen => ?_⟩
    exact if_pos (List.drop_eq_nil_of_le hLen)
  · cases h

theorem redisVerdict_ok {vr : VerifyResult} {reply : Option Bytes}
    (h : (redisVerdict vr reply).1 = .ok) : ∃ r, reply = some r ∧ startsWith '+' r = true := by
  rw [redisVerdict_rc, rcOfByte_eq_ok] at h
  obtain ⟨r, rfl, hHead⟩ := Option.bind_eq_some_iff.mp h
  exact ⟨r, rfl, beq_iff_eq.mpr hHead⟩

/-- Past its first byte, the answer to `AUTH` and `SET` has a plus only where `SET`
succeeded. -/
theorem plus_at {set : Bytes} (hSet : set = [] ∨ set = okReply ∨ set = nilReply) {i : Nat}
    (hi : 0 < i) (h : (okReply ++ set)[i]? = some (charByte '+')) : set = okReply := by
  have hLt : i < 10 := by
    have hLen := (List.getElem?_eq_some_iff.mp h).1
    rcases hSet with rfl | rfl | rfl <;> simp [okReply, nilReply, ascii, crlf] at hLen <;> omega
  rcases hSet with rfl | rfl | rfl
  · have hNone : ∀ j < 10, 0 < j → (okReply ++ [])[j]? ≠ some (charByte '+') := by decide
    exact absurd h (hNone i hLt hi)
  · rfl
  · have hNone : ∀ j < 10, 0 < j → (okReply ++ nilReply)[j]? ≠ some (charByte '+') := by decide
    exact absurd h (hNone i hLt hi)

/-- An accepting exchange has read the answer of a `SET` that set the key. -/
theorem reply_of_redisExchange_ok {a : Attempt} {vr : VerifyResult} {nonce : Bytes} {ttl : Nat}
    {env : RedisEnv} {set : Bytes} (hAuth : a.AuthAnswered)
    (hSet : set = [] ∨ set = okReply ∨ set = nilReply) (hIn : env.inbox.flatten <+: a.auth ++ set)
    (h : (redisExchange a.nc vr nonce ttl env).1 = .ok) : set = okReply := by
  unfold redisExchange at h
  dsimp only at h
  split at h
  · rename_i hPass
    rcases hAuth with ⟨-, hNil⟩ | ⟨hPass', -⟩
    · obtain ⟨reply, hReply, hPlus⟩ := redisVerdict_ok h
      obtain ⟨bs, inbox', hInbox, -⟩ := head_of_roundtrip hReply hPlus
      rw [hNil, hInbox] at hIn
      rcases hSet with rfl | rfl | rfl
      · simp at hIn
      · rfl
      · simp [nilReply, ascii, crlf, charByte] at hIn
    · exact absurd hPass hPass'
  · rename_i hPass
    rcases hAuth with ⟨hPass', -⟩ | ⟨-, hAuth⟩
    · exact absurd hPass' hPass
    · split at h
      · rename_i hFirst
        obtain ⟨first, hTrip, hPlus⟩ := (Option.any_eq_true _ _).mp hFirst
        obtain ⟨bs, inbox', hInbox, hRest⟩ := head_of_roundtrip hTrip hPlus
        rw [hInbox, List.flatten_cons] at hIn
        rcases hAuth with hOk | hErr
        · rw [hOk] at hIn
          have hShort : bs.length < 127 := by
            have hLen := hIn.length_le
            rcases hSet with rfl | rfl | rfl <;> simp [okReply, nilReply, ascii, crlf] at hLen <;>
              omega
          rw [hRest hShort] at h
          obtain ⟨reply, hReply, hPlus'⟩ := redisVerdict_ok h
          obtain ⟨cs, inbox'', rfl, -⟩ := head_of_roundtrip hReply hPlus'
          obtain ⟨tail, hTail⟩ := hIn
          refine plus_at hSet (Nat.succ_pos bs.length) ?_
          rw [← hTail]
          simp
        · obtain ⟨tail, hTail⟩ := hIn
          obtain ⟨rest, hAuth⟩ : ∃ rest, a.auth = charByte '-' :: rest :=
            List.head?_eq_some_iff.mp hErr
          rw [hAuth] at hTail
          simp [charByte] at hTail
      · cases h

/-- A call that is accepted has read that its `SET` set the key. -/
theorem Flight.reply_of_result_ok {ops : ShmOps NonceNode} {nonce : Bytes} {exp : Int}
    {f : Flight} {inbox : List Bytes} (hStorage : f.nc.nonceStorage = .redis)
    (hAuth : f.AuthAnswered)
    (hReply : f.reply = none ∨ f.reply = some okReply ∨ f.reply = some nilReply)
    (hIn : inbox.flatten <+: f.auth ++ f.reply.getD [])
    (h : f.result ops nonce exp inbox = .ok) : f.reply = some okReply := by
  have hFleet : ∀ vr st, (nonceFleet f.nc vr nonce exp
      { f.env.redis with now := f.readAt, inbox := inbox } st).1 = .ok →
      f.reply = some okReply := by
    intro vr st hOk
    have hSet : f.reply.getD [] = [] ∨ f.reply.getD [] = okReply ∨ f.reply.getD [] = nilReply := by
      rcases hReply with hr | hr | hr <;> simp [hr]
    have hGot := reply_of_redisExchange_ok hAuth hSet hIn (nonceRedis_ok (nonceFleet_ok hOk)).2
    rcases hReply with hr | hr | hr
    · rw [hr] at hGot
      exact absurd hGot (by decide)
    · exact hr
    · rw [hr] at hGot
      exact absurd hGot (by decide)
  simp only [Flight.result, nonceCheckAndSet, hStorage] at h
  split at h
  · split at h
    · rename_i hDeclined
      rw [hDeclined] at h
      cases h
    · exact hFleet _ _ h
  · exact hFleet _ _ h

/-! ## The invariant -/

structure FleetInv (exp : Int) (s : Fleet) : Prop where
  storage : ∀ id f, s.calls id = some f → f.nc.nonceStorage = .redis ∧ f.AuthAnswered
  read : ∀ id f, s.calls id = some f → f.readAt ≤ s.clock
  reply : ∀ id f, s.calls id = some f →
    f.reply = none ∨ f.reply = some okReply ∨ f.reply = some nilReply
  /-- Only a `SET` that set the key is answered `+OK`. -/
  unset : s.wasSet = false →
    s.keyUntil = none ∧ ∀ id f, s.calls id = some f → f.reply ≠ some okReply
  /-- The first key lives at least until the challenge expires. -/
  kept : s.wasSet = true → ∃ k : Nat, s.keyUntil = some k ∧ exp ≤ k
  unique : ∀ id id' f f', s.calls id = some f → s.calls id' = some f' →
    f.reply = some okReply → f'.reply = some okReply → id = id'

/-- The key was set, and no call is left that was told so. -/
def Decided (s : Fleet) : Prop :=
  s.wasSet = true ∧ ∀ id f, s.calls id = some f → f.reply ≠ some okReply

section Steps

variable {ops : ShmOps NonceNode} {keyPrefix nonce : Bytes} {exp : Int} {s : Fleet}

/-- The calls after one of them is replaced. -/
theorem update_eq_some {calls : Nat → Option Flight} {id id' : Nat} {g : Option Flight}
    {f : Flight} (h : Function.update calls id g id' = some f) :
    id' = id ∧ g = some f ∨ id' ≠ id ∧ calls id' = some f := by
  by_cases hId : id' = id
  · subst hId
    exact .inl ⟨rfl, by simpa using h⟩
  · exact .inr ⟨hId, by simpa [Function.update_of_ne hId] using h⟩

/-- While the key is needed it is there: a `SET` in time is refused. -/
theorem execute_refused (hInv : FleetInv exp s) (hSet : s.wasSet = true) (hTime : s.clock < exp)
    (id : Nat) (f : Flight) :
    s.execute exp id f =
      { s with calls := Function.update s.calls id (some { f with reply := some nilReply }) } := by
  obtain ⟨k, hk, hLate⟩ := hInv.kept hSet
  unfold Fleet.execute
  rw [if_pos]
  simp only [hk, Option.any_some, decide_eq_true_eq]
  omega

/-- Before the first key, a `SET` sets one that lives until the challenge has expired. -/
theorem execute_first (hKey : s.keyUntil = none) (id : Nat) (f : Flight) :
    s.execute exp id f =
      { clock := s.clock
        keyUntil := some (s.clock + (exp - f.readAt).toNat)
        wasSet := true
        calls := Function.update s.calls id (some { f with reply := some okReply }) } := by
  simp [Fleet.execute, hKey]

/-- Replacing a call by one that was not told `+OK`, or by none, changes nothing. -/
theorem FleetInv.replace (hInv : FleetInv exp s) (id : Nat) {g : Option Flight}
    (hg : ∀ f, g = some f → (f.nc.nonceStorage = .redis ∧ f.AuthAnswered) ∧ f.readAt ≤ s.clock ∧
      (f.reply = none ∨ f.reply = some nilReply)) :
    FleetInv exp { s with calls := Function.update s.calls id g } := by
  have hNot : ∀ f, g = some f → f.reply ≠ some okReply := by
    intro f hf hr
    rcases (hg f hf).2.2 with h | h <;> rw [h] at hr <;> exact absurd hr (by decide)
  refine ⟨?_, ?_, ?_, ?_, hInv.kept, ?_⟩
  · intro id' f h
    rcases update_eq_some h with ⟨-, hf⟩ | ⟨-, hf⟩
    · exact (hg f hf).1
    · exact hInv.storage id' f hf
  · intro id' f h
    rcases update_eq_some h with ⟨-, hf⟩ | ⟨-, hf⟩
    · exact (hg f hf).2.1
    · exact hInv.read id' f hf
  · intro id' f h
    rcases update_eq_some h with ⟨-, hf⟩ | ⟨-, hf⟩
    · exact (hg f hf).2.2.imp_right .inr
    · exact hInv.reply id' f hf
  · refine fun hUnset => ⟨(hInv.unset hUnset).1, fun id' f h => ?_⟩
    rcases update_eq_some h with ⟨-, hf⟩ | ⟨-, hf⟩
    · exact hNot f hf
    · exact (hInv.unset hUnset).2 id' f hf
  · intro id₁ id₂ f₁ f₂ h₁ h₂ hr₁ hr₂
    rcases update_eq_some h₁ with ⟨-, hf₁⟩ | ⟨-, hf₁⟩
    · exact absurd hr₁ (hNot f₁ hf₁)
    · rcases update_eq_some h₂ with ⟨-, hf₂⟩ | ⟨-, hf₂⟩
      · exact absurd hr₂ (hNot f₂ hf₂)
      · exact hInv.unique id₁ id₂ f₁ f₂ hf₁ hf₂ hr₁ hr₂

/-- The first `SET` gives the one call that is told `+OK`. -/
theorem FleetInv.first (hInv : FleetInv exp s) (hUnset : s.wasSet = false) {id : Nat} {f : Flight}
    (hf : s.calls id = some f) : FleetInv exp (s.execute exp id f) := by
  obtain ⟨hKey, hNot⟩ := hInv.unset hUnset
  rw [execute_first hKey]
  have hRead := hInv.read id f hf
  refine ⟨?_, ?_, ?_, by simp, fun _ => ⟨_, rfl, by omega⟩, ?_⟩
  · intro id' g h
    rcases update_eq_some h with ⟨-, hg⟩ | ⟨-, hg⟩
    · cases hg
      exact hInv.storage id f hf
    · exact hInv.storage id' g hg
  · intro id' g h
    rcases update_eq_some h with ⟨-, hg⟩ | ⟨-, hg⟩
    · cases hg
      exact hRead
    · exact hInv.read id' g hg
  · intro id' g h
    rcases update_eq_some h with ⟨-, hg⟩ | ⟨-, hg⟩
    · cases hg
      exact .inr (.inl rfl)
    · exact hInv.reply id' g hg
  · intro id₁ id₂ f₁ f₂ h₁ h₂ hr₁ hr₂
    rcases update_eq_some h₁ with ⟨he₁, -⟩ | ⟨-, hf₁⟩
    · rcases update_eq_some h₂ with ⟨he₂, -⟩ | ⟨-, hf₂⟩
      · rw [he₁, he₂]
      · exact absurd hr₂ (hNot id₂ f₂ hf₂)
    · exact absurd hr₁ (hNot id₁ f₁ hf₁)

theorem FleetInv.empty : FleetInv exp .empty := by
  refine ⟨?_, ?_, ?_, fun _ => ⟨rfl, ?_⟩, by simp [Fleet.empty], ?_⟩ <;> simp [Fleet.empty]

theorem fleetMachine_inv {e : FleetEvent} (hLegal : (fleetMachine ops keyPrefix nonce exp).legal s e)
    (hTime : SetsInTime exp s e) (hInv : FleetInv exp s) :
    FleetInv exp ((fleetMachine ops keyPrefix nonce exp).step s e).2 := by
  cases e with
  | tick clock =>
      have hLe : s.clock ≤ clock := hLegal
      exact ⟨hInv.storage, fun id f h => (hInv.read id f h).trans hLe, hInv.reply, hInv.unset,
        hInv.kept, hInv.unique⟩
  | start id a =>
      obtain ⟨-, hStorage, -, hAuth⟩ := hLegal
      refine hInv.replace id fun f hf => ?_
      cases hf
      exact ⟨⟨hStorage, hAuth⟩, le_rfl, .inl rfl⟩
  | execute id =>
      obtain ⟨f, hf, -, -⟩ := hLegal
      have hf : s.calls id = some f := hf
      simp only [fleetMachine, hf]
      cases hSet : s.wasSet with
      | false => exact hInv.first hSet hf
      | true =>
          rw [execute_refused hInv hSet (hTime id rfl hSet)]
          refine hInv.replace id fun g hg => ?_
          cases hg
          exact ⟨hInv.storage id f hf, hInv.read id f hf, .inr rfl⟩
  | finish id inbox =>
      obtain ⟨f, hf, -⟩ := hLegal
      have hf : s.calls id = some f := hf
      simp only [fleetMachine, hf]
      exact hInv.replace id fun g hg => by cases hg

/-- A call that is accepted was the one told `+OK`. -/
theorem of_fleetAccepts {e : FleetEvent} (hLegal : (fleetMachine ops keyPrefix nonce exp).legal s e)
    (hInv : FleetInv exp s)
    (hAcc : fleetAccepts (e, ((fleetMachine ops keyPrefix nonce exp).step s e).1) = true) :
    ∃ id inbox f, e = .finish id inbox ∧ s.calls id = some f ∧ f.reply = some okReply := by
  rw [fleetAccepts, beq_iff_eq] at hAcc
  cases e with
  | tick clock => cases hAcc
  | start id a => cases hAcc
  | execute id =>
      obtain ⟨f, hf, -, -⟩ := hLegal
      have hf : s.calls id = some f := hf
      simp [fleetMachine, hf] at hAcc
  | finish id inbox =>
      obtain ⟨f, hf, hIn⟩ := hLegal
      have hf : s.calls id = some f := hf
      refine ⟨id, inbox, f, rfl, hf, ?_⟩
      simp only [fleetMachine, hf, Option.some.injEq] at hAcc
      obtain ⟨hStorage, hAuth⟩ := hInv.storage id f hf
      exact f.reply_of_result_ok hStorage hAuth (hInv.reply id f hf) hIn hAcc

theorem decided_of_fleetAccepts {e : FleetEvent}
    (hLegal : (fleetMachine ops keyPrefix nonce exp).legal s e) (hInv : FleetInv exp s)
    (hAcc : fleetAccepts (e, ((fleetMachine ops keyPrefix nonce exp).step s e).1) = true) :
    Decided ((fleetMachine ops keyPrefix nonce exp).step s e).2 := by
  obtain ⟨id, inbox, f, rfl, hf, hr⟩ := of_fleetAccepts hLegal hInv hAcc
  simp only [fleetMachine, hf]
  constructor
  · by_contra hUnset
    exact (hInv.unset (by simpa using hUnset)).2 id f hf hr
  · intro id' f' h hr'
    rcases update_eq_some h with ⟨-, hNone⟩ | ⟨hNe, hf'⟩
    · cases hNone
    · exact hNe (hInv.unique id' id f' f hf' hf hr' hr)

theorem decided_step {e : FleetEvent} (hLegal : (fleetMachine ops keyPrefix nonce exp).legal s e)
    (hTime : SetsInTime exp s e) (hInv : FleetInv exp s) (hDone : Decided s) :
    Decided ((fleetMachine ops keyPrefix nonce exp).step s e).2 := by
  obtain ⟨hSet, hNot⟩ := hDone
  cases e with
  | tick clock => exact ⟨hSet, hNot⟩
  | start id a =>
      refine ⟨hSet, fun id' f h hr => ?_⟩
      rcases update_eq_some h with ⟨-, hf⟩ | ⟨-, hf⟩
      · cases hf
        cases hr
      · exact hNot id' f hf hr
  | execute id =>
      obtain ⟨f, hf, -, -⟩ := hLegal
      have hf : s.calls id = some f := hf
      simp only [fleetMachine, hf]
      rw [execute_refused hInv hSet (hTime id rfl hSet)]
      refine ⟨hSet, fun id' g h hr => ?_⟩
      rcases update_eq_some h with ⟨-, hg⟩ | ⟨-, hg⟩
      · cases hg
        have hNil : some nilReply = some okReply := hr
        exact absurd hNil (by decide)
      · exact hNot id' g hg hr
  | finish id inbox =>
      obtain ⟨f, hf, -⟩ := hLegal
      have hf : s.calls id = some f := hf
      simp only [fleetMachine, hf]
      refine ⟨hSet, fun id' g h hr => ?_⟩
      rcases update_eq_some h with ⟨-, hg⟩ | ⟨-, hg⟩
      · cases hg
      · exact hNot id' g hg hr

end Steps

/-- In every run in which no further `SET` is executed once the challenge has expired, at
most one call of the whole fleet is accepted. -/
theorem fleet_accepts_at_most_once (ops : ShmOps NonceNode) (keyPrefix nonce : Bytes) (exp : Int)
    (run : List FleetEvent)
    (hRun : ((fleetMachine ops keyPrefix nonce exp).restrict (SetsInTime exp)).LegalRun .empty run) :
    ((fleetMachine ops keyPrefix nonce exp).answers .empty run).countP fleetAccepts ≤ 1 := by
  rw [← Machine.answers_restrict (SetsInTime exp)]
  refine Machine.countP_answers_le_one
    (m := (fleetMachine ops keyPrefix nonce exp).restrict (SetsInTime exp))
    (fun s e hLegal (hInv : FleetInv exp s) => fleetMachine_inv hLegal.1 hLegal.2 hInv)
    (fun s e hLegal hInv (hDone : Decided s) => decided_step hLegal.1 hLegal.2 hInv hDone)
    ?_ (fun s e hLegal hInv hAcc => decided_of_fleetAccepts hLegal.1 hInv hAcc) hRun
    FleetInv.empty
  intro s e hLegal hInv hDone
  by_contra hAcc
  obtain ⟨id, inbox, f, -, hf, hr⟩ := of_fleetAccepts hLegal.1 hInv (by simpa using hAcc)
  exact hDone.2 id f hf hr

/-- A call with the default configuration and room in its zone. -/
def sampleAttempt : Attempt where
  nc := { LocConf.defaults [] with nonceStorage := .redis, nonceAddr := ascii "10.0.0.9:6379" }
  vr := ⟨true, [], [], none, false, .error, none⟩
  env := ⟨9, ⟨true, true⟩, 9, true, true, true, true, true, []⟩
  st := .empty
  auth := []

def fleetZone : ShmOps NonceNode := ⟨fun _ => 2013832146, .plain⟩

/-- Two nodes start at 9 a call for a challenge that expires at 10; Redis executes both
`SET`s, the second at time `late`, and both replies arrive. -/
def twoNodes (late : Nat) : List FleetEvent :=
  [.tick 9, .start 1 sampleAttempt, .start 2 sampleAttempt, .execute 1, .tick late, .execute 2,
    .finish 1 [okReply], .finish 2 [if late < 10 then nilReply else okReply]]

/-- Executed in time, the second `SET` finds the key. -/
theorem fleet_accepts_once_in_time :
    ((fleetMachine fleetZone (ascii "pgp:") (ascii "n") 10).restrict (SetsInTime 10)).LegalRun
        .empty (twoNodes 9) ∧
      ((fleetMachine fleetZone (ascii "pgp:") (ascii "n") 10).answers .empty
        (twoNodes 9)).countP fleetAccepts ≤ 1 :=
  have hRun : ((fleetMachine fleetZone (ascii "pgp:") (ascii "n") 10).restrict
      (SetsInTime 10)).LegalRun .empty (twoNodes 9) := by decide +kernel
  ⟨hRun, fleet_accepts_at_most_once fleetZone (ascii "pgp:") (ascii "n") 10 _ hRun⟩

/-- Executed one second later, it does not, and both calls are accepted. -/
theorem fleet_accepts_twice :
    (fleetMachine fleetZone (ascii "pgp:") (ascii "n") 10).LegalRun .empty (twoNodes 10) ∧
      ¬((fleetMachine fleetZone (ascii "pgp:") (ascii "n") 10).answers .empty
        (twoNodes 10)).countP fleetAccepts ≤ 1 := by
  decide +kernel

end PgpAuth
