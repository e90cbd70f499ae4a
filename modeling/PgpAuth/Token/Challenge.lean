import PgpAuth.Nonce.Redis
import PgpAuth.Token.Session

/-!
# Challenges

`challenge = v1|<exp>|<nonce>|<mac>` with the MAC over `v1|<exp>|<nonce>`. `sendChallenge`
issues one inside the login page. `validateConsume` looks for one in the signed plaintext
and uses up its nonce; `challengeCheck` is its part before the nonce store.

The page itself is reduced to its status and the challenge in it.
-/

namespace PgpAuth

open Lib

/-! ## Issuing -/

/-- Outcomes met by one call of `ngx_http_pgp_send_challenge`. -/
structure ChallengeEnv where
  random : Option { n : Bytes // n.length = 16 }
  now : Nat
  payloadAlloc : Bool
  hmac : HmacEnv
  challengeAlloc : Bool
  bodyAlloc : Bool
  pushHeaders : Bool
  sendHeader : Rc
  bufAlloc : Bool
  outputFilter : Rc
  deriving DecidableEq

/-- What of the login page goes out: its status and, with the body, the challenge. -/
structure Page where
  status : Nat
  challenge : Option Bytes
  deriving DecidableEq, Repr

/-- `"v1|%T|%*s"` of the expiry and the nonce. -/
def challengePayload (exp : Nat) (nonce : Bytes) : Bytes :=
  ascii "v1" ++ pipe :: (decimal exp ++ pipe :: nonce)

def challengeText (payload mac : Bytes) : Bytes := payload ++ pipe :: mac

/-- The code returned, and what was sent before. -/
def sendChallenge (hmac : Hmac) (plcf : LocConf) (r : Request) (failed : Bool)
    (env : ChallengeEnv) : Rc × Option Page :=
  match env.random with
  | none => (.http 500, none)
  | some nonce =>
      if env.payloadAlloc = false then (.http 500, none)
      else
        let payload := challengePayload (env.now + plcf.challengeTimeout) (hexDump nonce.val)
        match hmacHex hmac env.hmac plcf r .chal payload with
        | none => (.http 500, none)
        | some mac =>
            if env.challengeAlloc = false ∨ env.bodyAlloc = false ∨ env.pushHeaders = false then
              (.http 500, none)
            else
              let status := if failed then 403 else 200
              if env.sendHeader = .error ∨ 0 < env.sendHeader.code then (env.sendHeader, none)
              else if r.headerOnly then (env.sendHeader, some ⟨status, none⟩)
              else if env.bufAlloc = false then (.http 500, some ⟨status, none⟩)
              else (env.outputFilter, some ⟨status, some (challengeText payload mac)⟩)

/-- The challenge in a page: nonce and expiry of this call, and the MAC over them. -/
theorem sendChallenge_text {hmac : Hmac} {plcf : LocConf} {r : Request} {failed : Bool}
    {env : ChallengeEnv} {page : Page} {text : Bytes}
    (h : (sendChallenge hmac plcf r failed env).2 = some page)
    (hText : page.challenge = some text) :
    ∃ nonce, env.random = some nonce ∧
      text = challengeText (challengePayload (env.now + plcf.challengeTimeout) (hexDump nonce.val))
        (macHex hmac plcf.secret (tokenInput plcf (binding plcf r).1 (binding plcf r).2 .chal
          (challengePayload (env.now + plcf.challengeTimeout) (hexDump nonce.val)))) := by
  unfold sendChallenge at h
  split at h
  · cases h
  · rename_i nonce hRandom
    refine ⟨nonce, hRandom, ?_⟩
    split at h
    · cases h
    · dsimp only at h
      split at h
      · cases h
      · rename_i mac hMac
        obtain ⟨-, rfl⟩ := hmacHex_eq_some.mp hMac
        split_ifs at h
        all_goals
          cases h
          cases hText
        all_goals rfl

/-! ## Validation -/

structure ChallengeToken where
  version : Bytes
  exp : Bytes
  nonce : Bytes
  mac : Bytes
  deriving DecidableEq, Repr

/-- The signed part, `v1|exp|nonce`. -/
def ChallengeToken.payload (t : ChallengeToken) : Bytes :=
  t.version ++ pipe :: (t.exp ++ pipe :: t.nonce)

/-- The text from the first `v1|` on. -/
def locateChallenge : Bytes → Option Bytes
  | [] => none
  | b :: bs => if (ascii "v1|").isPrefixOf (b :: bs) then some (b :: bs) else locateChallenge bs

/-- Up to the line feed, less one carriage return before it. -/
def challengeLine (p : Bytes) : Bytes :=
  let line := p.takeWhile (· != 10)
  if line.getLast? = some 13 then line.dropLast else line

/-- The three delimiter searches of `ngx_http_pgp_validate_consume`. -/
def parseChallenge (line : Bytes) : Option ChallengeToken :=
  match cut pipe line with
  | none => none
  | some (version, rest) =>
      match cut pipe rest with
      | none => none
      | some (exp, rest) =>
          match cut pipe rest with
          | none => none
          | some (nonce, mac) => some ⟨version, exp, nonce, mac⟩

/-- The challenge of a signed plaintext. -/
def challengeOf (plaintext : Bytes) : Option ChallengeToken :=
  (locateChallenge plaintext).bind fun p => parseChallenge (challengeLine p)

/-- Outcomes met by one call of `ngx_http_pgp_validate_consume`. -/
structure ConsumeEnv where
  hmac : Bool
  hmacPrevious : Bool
  now : Nat
  nonce : NonceEnv
  deriving DecidableEq, Repr

/-- Why a challenge is not taken to the store: the code, `chal_reason`, and the
diagnostic where one is deferred. -/
structure Refusal where
  rc : Rc
  reason : Reason
  diag : Option String
  deriving DecidableEq, Repr

section Validate

variable (hmac : Hmac) (plcf : LocConf) (ip ua : Bytes)

/-- MAC and expiry. -/
def challengeCheck (env : ConsumeEnv) (plaintext : Bytes) :
    Except Refusal (ChallengeToken × Int) :=
  match locateChallenge plaintext with
  | none =>
      .error ⟨.declined, .noChallengeInPlaintext,
        some "pgp_auth: no challenge inside the signed content"⟩
  | some p =>
      match parseChallenge (challengeLine p) with
      | none => .error ⟨.declined, .malformedChallenge, none⟩
      | some t =>
          match hmacRaw hmac env.hmac plcf.secret .chal plcf.keyring ip ua t.payload with
          | none => .error ⟨.error, .hmacComputationFailed, none⟩
          | some want =>
              if !ctEq t.mac want &&
                  !matchedPrevious hmac plcf env.hmacPrevious .chal ip ua t.payload t.mac then
                .error ⟨.declined, .challengeMacMismatch, some "pgp_auth: challenge MAC mismatch"⟩
              else
                let exp := ngxAtotm t.exp
                if exp = -1 ∨ exp < env.now then
                  .error ⟨.declined, .challengeExpired, some "pgp_auth: challenge expired"⟩
                else .ok (t, exp)

/-- Defer the diagnostic, if any, and set `chal_reason`. -/
def VerifyResult.note (vr : VerifyResult) (level : LogLevel) (diag : Option String)
    (reason : Reason) : VerifyResult :=
  match diag with
  | none => { vr with chalReason := some reason }
  | some format => { deferDiag vr level format [] with chalReason := some reason }

variable (ops : ShmOps NonceNode)

def validateConsume (env : ConsumeEnv) (vr : VerifyResult) (st : NonceState) :
    Rc × VerifyResult × NonceState :=
  match challengeCheck hmac plcf ip ua env vr.plaintext with
  | .error e => (e.rc, vr.note .info e.diag e.reason, st)
  | .ok (t, exp) =>
      let out := nonceCheckAndSet ops plcf vr t.nonce exp env.nonce st
      if out.1 = .declined then
        (.declined,
          out.2.1.note .info (some "pgp_auth: challenge already used (replay)") .replay, out.2.2)
      else if out.1 ≠ .ok then
        (.abort,
          out.2.1.note .err (some "pgp_auth: nonce store error; rejecting") .nonceStoreError,
          out.2.2)
      else (.ok, out.2.1.note .info none .validSignature, out.2.2)

end Validate

theorem parseChallenge_eq_some {line : Bytes} {t : ChallengeToken} :
    parseChallenge line = some t ↔
      line = challengeText t.payload t.mac ∧ pipe ∉ t.version ∧ pipe ∉ t.exp ∧ pipe ∉ t.nonce := by
  obtain ⟨version, exp, nonce, mac⟩ := t
  simp only [challengeText, ChallengeToken.payload, List.append_assoc, List.cons_append]
  constructor
  · intro h
    unfold parseChallenge at h
    split at h
    · cases h
    · rename_i hc₁
      split at h
      · cases h
      · rename_i hc₂
        split at h
        · cases h
        · rename_i hc₃
          cases h
          obtain ⟨rfl, h₁⟩ := cut_eq_some.mp hc₁
          obtain ⟨rfl, h₂⟩ := cut_eq_some.mp hc₂
          obtain ⟨rfl, h₃⟩ := cut_eq_some.mp hc₃
          exact ⟨rfl, h₁, h₂, h₃⟩
  · rintro ⟨rfl, h₁, h₂, h₃⟩
    simp only [parseChallenge, cut_append h₁, cut_append h₂, cut_append h₃]

/-! ## Finding the challenge -/

/-- What may follow a challenge in the text: nothing, or the end of its line. -/
def LineEnd (after : Bytes) : Prop :=
  after = [] ∨ ∃ rest, after = 10 :: rest ∨ after = 13 :: 10 :: rest

/-- The first `v1|` cannot reach from the text before into the challenge. -/
theorem locateChallenge_append {before text : Bytes} (hBefore : ¬ ascii "v1|" <:+: before) :
    locateChallenge (before ++ (ascii "v1|" ++ text)) = some (ascii "v1|" ++ text) := by
  induction before with
  | nil => rfl
  | cons b before ih =>
      have hNot : ¬ (ascii "v1|").isPrefixOf (b :: (before ++ (ascii "v1|" ++ text))) = true := by
        intro hPrefix
        obtain ⟨rest, hRest⟩ := List.isPrefixOf_iff_prefix.mp hPrefix
        have hBytes : ascii "v1|" = [118, 49, 124] := rfl
        rw [hBytes] at hRest hBefore
        match before with
        | [] => simp at hRest
        | [c] => simp at hRest
        | c :: d :: before =>
            simp only [List.cons_append, List.nil_append, List.cons.injEq] at hRest
            obtain ⟨rfl, rfl, rfl, -⟩ := hRest
            exact hBefore ⟨[], before, rfl⟩
      rw [List.cons_append, locateChallenge, if_neg hNot]
      exact ih fun hIn => hBefore (hIn.trans (List.suffix_cons b before).isInfix)

theorem challengeLine_append {line after : Bytes} (hLine : ∀ b ∈ line, isHeaderByte b = true)
    (hAfter : LineEnd after) : challengeLine (line ++ after) = line := by
  have hPlain : ∀ b ∈ line, (b != 10) = true := by
    intro b hb
    have := hLine b hb
    simp only [isHeaderByte, Bool.and_eq_true] at this
    exact this.1.2
  have hLast : line.getLast? ≠ some 13 := by
    intro h
    have := hLine 13 (List.mem_of_getLast? h)
    exact absurd this (by decide)
  unfold challengeLine
  rw [List.takeWhile_append_of_pos hPlain]
  rcases hAfter with rfl | ⟨rest, rfl | rfl⟩
  · simp [hLast]
  · simp [hLast]
  · simp

/-- A challenge is found whole behind any text without `v1|`, at the end of its line. -/
theorem challengeOf_framed {t : ChallengeToken} (hVersion : t.version = ascii "v1")
    (hExp : pipe ∉ t.exp) (hNonce : pipe ∉ t.nonce)
    (hLine : ∀ b ∈ challengeText t.payload t.mac, isHeaderByte b = true)
    {before after : Bytes} (hBefore : ¬ ascii "v1|" <:+: before) (hAfter : LineEnd after) :
    challengeOf (before ++ challengeText t.payload t.mac ++ after) = some t := by
  obtain ⟨text, hText⟩ : ∃ text, challengeText t.payload t.mac = ascii "v1|" ++ text := by
    rw [challengeText, ChallengeToken.payload, hVersion]
    exact ⟨t.exp ++ pipe :: t.nonce ++ pipe :: t.mac, by simp [ascii, charByte, pipe]⟩
  have hLocate : locateChallenge (before ++ challengeText t.payload t.mac ++ after) =
      some (challengeText t.payload t.mac ++ after) := by
    rw [List.append_assoc, hText, List.append_assoc, locateChallenge_append hBefore]
  rw [challengeOf, hLocate, Option.bind_some, challengeLine_append hLine hAfter]
  exact parseChallenge_eq_some.mpr ⟨rfl, by rw [hVersion]; decide, hExp, hNonce⟩

/-! ## What the codes mean -/

section Spec

variable (hmac : Hmac) (plcf : LocConf) (ip ua : Bytes) (env : ConsumeEnv)

/-- Everything `challengeCheck` can do, in the order of its tests. -/
theorem challengeCheck_cases (plaintext : Bytes) :
    (challengeOf plaintext = none ∧
      ∃ e, challengeCheck hmac plcf ip ua env plaintext = .error e ∧ e.rc = .declined) ∨
    ∃ t, challengeOf plaintext = some t ∧
      ((env.hmac = false ∧
          ∃ e, challengeCheck hmac plcf ip ua env plaintext = .error e ∧ e.rc = .error) ∨
        (env.hmac = true ∧
          ¬MacAccepted hmac plcf env.hmacPrevious .chal ip ua t.payload t.mac ∧
          ∃ e, challengeCheck hmac plcf ip ua env plaintext = .error e ∧ e.rc = .declined) ∨
        (env.hmac = true ∧ MacAccepted hmac plcf env.hmacPrevious .chal ip ua t.payload t.mac ∧
          (ngxAtotm t.exp = -1 ∨ ngxAtotm t.exp < env.now) ∧
          ∃ e, challengeCheck hmac plcf ip ua env plaintext = .error e ∧ e.rc = .declined) ∨
        (env.hmac = true ∧ MacAccepted hmac plcf env.hmacPrevious .chal ip ua t.payload t.mac ∧
          ¬(ngxAtotm t.exp = -1 ∨ ngxAtotm t.exp < env.now) ∧
          challengeCheck hmac plcf ip ua env plaintext = .ok (t, ngxAtotm t.exp))) := by
  unfold challengeCheck challengeOf
  cases locateChallenge plaintext with
  | none => exact .inl ⟨rfl, _, rfl, rfl⟩
  | some p =>
      simp only [Option.bind_some]
      cases parseChallenge (challengeLine p) with
      | none => exact .inl ⟨rfl, _, rfl, rfl⟩
      | some t =>
          refine .inr ⟨t, rfl, ?_⟩
          cases env.hmac with
          | false => exact .inl ⟨rfl, _, rfl, rfl⟩
          | true =>
              simp only [hmacRaw, if_true]
              split
              · rename_i hno
                exact .inr (.inl ⟨trivial, fun h => macAccepted_iff.mp h hno, _, rfl, rfl⟩)
              · rename_i hyes
                have hm := macAccepted_iff.mpr hyes
                split
                · rename_i hexp
                  exact .inr (.inr (.inl ⟨trivial, hm, hexp, _, rfl, rfl⟩))
                · rename_i hexp
                  exact .inr (.inr (.inr ⟨trivial, hm, hexp, rfl⟩))

variable {hmac plcf ip ua env}

/-- A challenge that reaches the store: well formed, signed under either secret, not
expired. -/
theorem challengeCheck_ok {plaintext : Bytes} {t : ChallengeToken} {exp : Int}
    (h : challengeCheck hmac plcf ip ua env plaintext = .ok (t, exp)) :
    challengeOf plaintext = some t ∧
      MacAccepted hmac plcf env.hmacPrevious .chal ip ua t.payload t.mac ∧
      exp = ngxAtotm t.exp ∧ exp ≠ -1 ∧ env.now ≤ exp := by
  rcases challengeCheck_cases hmac plcf ip ua env plaintext with ⟨-, e, he, -⟩ | ⟨u, hu, hcase⟩
  · rw [he] at h
    cases h
  · rcases hcase with ⟨-, e, he, -⟩ | ⟨-, -, e, he, -⟩ | ⟨-, -, -, e, he, -⟩ | ⟨-, hm, hexp, hok⟩
    · rw [he] at h
      cases h
    · rw [he] at h
      cases h
    · rw [he] at h
      cases h
    · rw [hok] at h
      cases h
      exact ⟨hu, hm, rfl, by omega, by omega⟩

/-- The other way round, for a call in which the computation succeeds. -/
theorem challengeCheck_of {plaintext : Bytes} {t : ChallengeToken}
    (hToken : challengeOf plaintext = some t) (hEnv : env.hmac = true)
    (hMac : MacAccepted hmac plcf env.hmacPrevious .chal ip ua t.payload t.mac)
    (hExp : ¬(ngxAtotm t.exp = -1 ∨ ngxAtotm t.exp < env.now)) :
    challengeCheck hmac plcf ip ua env plaintext = .ok (t, ngxAtotm t.exp) := by
  rcases challengeCheck_cases hmac plcf ip ua env plaintext with ⟨hNone, -⟩ | ⟨u, hu, hcase⟩
  · rw [hToken] at hNone
    cases hNone
  · cases hu.symm.trans hToken
    rcases hcase with ⟨hNo, -⟩ | ⟨-, hNo, -⟩ | ⟨-, -, hNo, -⟩ | ⟨-, -, -, hok⟩
    · rw [hEnv] at hNo
      cases hNo
    · exact absurd hMac hNo
    · exact absurd hNo hExp
    · exact hok

/-- A refusal before the store is never an acceptance. -/
theorem challengeCheck_error {plaintext : Bytes} {e : Refusal}
    (h : challengeCheck hmac plcf ip ua env plaintext = .error e) :
    e.rc = .declined ∨ e.rc = .error := by
  rcases challengeCheck_cases hmac plcf ip ua env plaintext with ⟨-, f, hf, hrc⟩ | ⟨u, -, hcase⟩
  · rw [hf] at h
    cases h
    exact .inl hrc
  · rcases hcase with ⟨-, f, hf, hrc⟩ | ⟨-, -, f, hf, hrc⟩ | ⟨-, -, -, f, hf, hrc⟩ | ⟨-, -, -, hok⟩
    · rw [hf] at h
      cases h
      exact .inr hrc
    · rw [hf] at h
      cases h
      exact .inl hrc
    · rw [hf] at h
      cases h
      exact .inl hrc
    · rw [hok] at h
      cases h

variable (hmac plcf ip ua env) (ops : ShmOps NonceNode) (vr : VerifyResult) (st : NonceState)

/-- How the answer of the nonce store is passed on. -/
def storeVerdict : Rc → Rc
  | .ok => .ok
  | .declined => .declined
  | _ => .abort

/-- Past the checks, code and store are those of the nonce store. -/
theorem validateConsume_of_ok {t : ChallengeToken} {exp : Int}
    (h : challengeCheck hmac plcf ip ua env vr.plaintext = .ok (t, exp)) :
    (validateConsume hmac plcf ip ua ops env vr st).1 =
        storeVerdict (nonceCheckAndSet ops plcf vr t.nonce exp env.nonce st).1 ∧
      (validateConsume hmac plcf ip ua ops env vr st).2.2 =
        (nonceCheckAndSet ops plcf vr t.nonce exp env.nonce st).2.2 := by
  simp only [validateConsume, h]
  generalize nonceCheckAndSet ops plcf vr t.nonce exp env.nonce st = out
  obtain ⟨rc, vr', st'⟩ := out
  cases rc <;> simp [storeVerdict]

theorem validateConsume_of_error {e : Refusal}
    (h : challengeCheck hmac plcf ip ua env vr.plaintext = .error e) :
    (validateConsume hmac plcf ip ua ops env vr st).1 = e.rc ∧
      (validateConsume hmac plcf ip ua ops env vr st).2.2 = st := by
  simp only [validateConsume, h, and_self]

theorem note_verdict (level : LogLevel) (diag : Option String) (reason : Reason) :
    (vr.note level diag reason).verdict = vr.verdict := by
  cases diag with
  | none => rfl
  | some format => exact deferDiag_verdict vr level format []

theorem validateConsume_verdict :
    (validateConsume hmac plcf ip ua ops env vr st).2.1.verdict = vr.verdict := by
  unfold validateConsume
  cases challengeCheck hmac plcf ip ua env vr.plaintext with
  | error e => exact note_verdict _ _ _ _
  | ok p =>
      dsimp only
      split_ifs <;> rw [note_verdict, nonceCheckAndSet_verdict]

variable {hmac plcf ip ua env ops vr st}

theorem storeVerdict_eq_ok {rc : Rc} : storeVerdict rc = .ok ↔ rc = .ok := by
  cases rc <;> simp [storeVerdict]

theorem validateConsume_ok (h : (validateConsume hmac plcf ip ua ops env vr st).1 = .ok) :
    ∃ t exp, challengeCheck hmac plcf ip ua env vr.plaintext = .ok (t, exp) ∧
      (nonceCheckAndSet ops plcf vr t.nonce exp env.nonce st).1 = .ok := by
  cases hc : challengeCheck hmac plcf ip ua env vr.plaintext with
  | error e =>
      rw [(validateConsume_of_error hmac plcf ip ua env ops vr st hc).1] at h
      rcases challengeCheck_error hc with he | he <;> rw [he] at h <;> cases h
  | ok p =>
      rw [(validateConsume_of_ok hmac plcf ip ua env ops vr st hc).1] at h
      exact ⟨p.1, p.2, rfl, storeVerdict_eq_ok.mp h⟩

end Spec

/-! ## A challenge in numbers -/

/-- HMAC known at one point, and zero elsewhere. -/
def knownHmac (secret input : Bytes) (digest : Digest) : Hmac := fun s m =>
  if s = secret ∧ m = input then digest else ⟨List.replicate 32 0, rfl⟩

def sampleConf : LocConf := .defaults (ascii "0123456789abcdef0123456789abcdef")

def sampleRequest : Request where
  addr := ⟨ascii "192.0.2.1", by decide +kernel⟩
  userAgent := some ⟨ascii "curl", by decide +kernel⟩
  cookie := fun _ => none
  main := true
  post := true
  argsLen := 12
  arg := fun _ => some (ascii "1")
  contentLength := 500
  chunked := false
  uri := ascii "/"
  headerOnly := false

def sampleNonce : Bytes := ascii "00112233445566778899aabbccddeeff"

/-- HMAC-SHA256 where the challenge of `sampleNonce` that expires at 1000 needs it. -/
def sampleHmac : Hmac :=
  knownHmac sampleConf.secret
    (tokenInput sampleConf (ascii "192.0.2.1") (ascii "curl") .chal
      (challengePayload 1000 sampleNonce))
    ⟨[123, 231, 104, 177, 85, 189, 106, 67, 79, 65, 192, 178, 145, 231, 172, 9, 118, 28, 135, 106,
      202, 77, 231, 105, 136, 10, 207, 95, 204, 185, 123, 225], rfl⟩

def sampleChallenge : Bytes :=
  challengeText (challengePayload 1000 sampleNonce)
    (ascii "7be768b155bd6a434f41c0b291e7ac09761c876aca4de769880acf5fccb97be1")

def calmChallenge (random : Option { n : Bytes // n.length = 16 }) (now : Nat) : ChallengeEnv where
  random := random
  now := now
  payloadAlloc := true
  hmac := ⟨true, true⟩
  challengeAlloc := true
  bodyAlloc := true
  pushHeaders := true
  sendHeader := .ok
  bufAlloc := true
  outputFilter := .ok

/-- The bytes that `sampleNonce` prints. -/
def sampleRandom : Bytes :=
  [0x00, 0x11, 0x22, 0x33, 0x44, 0x55, 0x66, 0x77, 0x88, 0x99, 0xaa, 0xbb, 0xcc, 0xdd, 0xee, 0xff]

theorem length_sampleRandom : sampleRandom.length = 16 := rfl

/-- The call that sends the sample challenge, 120 seconds before it expires. -/
def samplePage : ChallengeEnv := calmChallenge (some ⟨sampleRandom, length_sampleRandom⟩) 880

example : (sendChallenge sampleHmac sampleConf sampleRequest false samplePage).2 =
    some ⟨200, some sampleChallenge⟩ := by
  decide +kernel

end PgpAuth
