import PgpAuth.Token.RoundTrip

/-!
# Rotating the secret

While a location has a current and a previous secret, both validators try the current one
and fall back on the previous one. The retry is written twice, before the expiry, the
revocation check and the nonce store; these come out alike whichever secret has matched.
A location with both secrets accepts what a location with either secret alone accepts
(`checkSession_rotated`, `validateConsume_rotated`), and issues under the current one.
-/

namespace PgpAuth

open Lib

/-- The location with these secrets. -/
def LocConf.withSecrets (plcf : LocConf) (secret previous : Bytes) : LocConf :=
  { plcf with secret := secret, secretPrevious := previous }

/-- The location with this secret alone. -/
abbrev LocConf.withSecret (plcf : LocConf) (secret : Bytes) : LocConf := plcf.withSecrets secret []

variable {hmac : Hmac} {plcf : LocConf} {s s' : Bytes}

/-! ## Sessions -/

theorem macAccepted_withSecret {ok : Bool} {kind : TokenKind} {ip ua data mac : Bytes} :
    MacAccepted hmac (plcf.withSecret s) ok kind ip ua data mac ↔
      mac = macHex hmac s (tokenInput plcf ip ua kind data) := by
  unfold MacAccepted
  rw [matchedPrevious_iff]
  constructor
  · rintro (h | ⟨hNil, -⟩)
    · exact h
    · exact absurd rfl hNil
  · exact .inl

/-- The two comparisons together are those of the two secrets alone. -/
theorem macAccepted_withSecrets {kind : TokenKind} {ip ua data mac : Bytes} (hPrev : s' ≠ []) :
    MacAccepted hmac (plcf.withSecrets s s') true kind ip ua data mac ↔
      mac = macHex hmac s (tokenInput plcf ip ua kind data) ∨
        mac = macHex hmac s' (tokenInput plcf ip ua kind data) := by
  unfold MacAccepted
  rw [matchedPrevious_iff]
  constructor
  · rintro (h | ⟨-, -, h⟩)
    · exact .inl h
    · exact .inr h
  · rintro (h | h)
    · exact .inl h
    · exact .inr ⟨hPrev, rfl, h⟩

/-- Acceptance of a session, with its three conditions in one place. -/
def SessionAccepted (plcf : LocConf) (r : Request) (env : SessionEnv) (cache : RevocCache)
    (accepted : SessionToken → Prop) : Prop :=
  ∃ cookie t, r.cookie (cookieName plcf) = some cookie ∧ parseSession cookie.val = some t ∧
    accepted t ∧ (ngxAtotm t.exp = 0 ∨ env.now ≤ ngxAtotm t.exp) ∧
    (isRevoked plcf env.revoc cache t.fpr).1 = false

theorem checkSession_ok_iff {plcf : LocConf} {r : Request} {env : SessionEnv} {cache : RevocCache}
    (hEnv : env.hmac = ⟨true, true⟩) :
    (checkSession hmac plcf r env cache).1 = .ok ↔
      SessionAccepted plcf r env cache fun t =>
        MacAccepted hmac plcf env.hmacPrevious .sess (binding plcf r).1 (binding plcf r).2
          t.payload t.mac := by
  constructor
  · exact checkSession_ok
  · rintro ⟨cookie, t, hCookie, hToken, hMac, hExp, hRevoked⟩
    exact checkSession_of hCookie hToken hEnv hMac hExp hRevoked

/-- What does not look at the secrets distributes over the two of them. -/
theorem sessionAccepted_or {plcf : LocConf} {r : Request} {env : SessionEnv} {cache : RevocCache}
    {p q : SessionToken → Prop} :
    SessionAccepted plcf r env cache (fun t => p t ∨ q t) ↔
      SessionAccepted plcf r env cache p ∨ SessionAccepted plcf r env cache q := by
  constructor
  · rintro ⟨cookie, t, hCookie, hToken, hp | hq, hRest⟩
    · exact .inl ⟨cookie, t, hCookie, hToken, hp, hRest⟩
    · exact .inr ⟨cookie, t, hCookie, hToken, hq, hRest⟩
  · rintro (⟨cookie, t, hCookie, hToken, hp, hRest⟩ | ⟨cookie, t, hCookie, hToken, hq, hRest⟩)
    · exact ⟨cookie, t, hCookie, hToken, .inl hp, hRest⟩
    · exact ⟨cookie, t, hCookie, hToken, .inr hq, hRest⟩

theorem checkSession_rotated {r : Request} {env : SessionEnv} {cache : RevocCache} (hPrev : s' ≠ [])
    (hEnv : env.hmac = ⟨true, true⟩) (hRetry : env.hmacPrevious = true) :
    (checkSession hmac (plcf.withSecrets s s') r env cache).1 = .ok ↔
      (checkSession hmac (plcf.withSecret s) r env cache).1 = .ok ∨
        (checkSession hmac (plcf.withSecret s') r env cache).1 = .ok := by
  rw [checkSession_ok_iff hEnv, checkSession_ok_iff hEnv, checkSession_ok_iff hEnv, hRetry]
  simp only [macAccepted_withSecrets hPrev, macAccepted_withSecret]
  exact sessionAccepted_or

/-! ## Challenges -/

section Challenges

variable {ip ua : Bytes} {env : ConsumeEnv}

/-- Of the secrets, the checks before the store see only whether the MAC is accepted. -/
theorem challengeCheck_congr {plcf' : LocConf} (hEnv : env.hmac = true) {plaintext : Bytes}
    (hSame : ∀ t, challengeOf plaintext = some t →
      (MacAccepted hmac plcf env.hmacPrevious .chal ip ua t.payload t.mac ↔
        MacAccepted hmac plcf' env.hmacPrevious .chal ip ua t.payload t.mac)) :
    challengeCheck hmac plcf ip ua env plaintext =
      challengeCheck hmac plcf' ip ua env plaintext := by
  unfold challengeOf at hSame
  unfold challengeCheck
  cases hLocate : locateChallenge plaintext with
  | none => rfl
  | some p =>
      rw [hLocate, Option.bind_some] at hSame
      cases hParse : parseChallenge (challengeLine p) with
      | none => simp only [hParse]
      | some t =>
          have hAccepted := hSame t hParse
          rw [macAccepted_iff, macAccepted_iff, not_iff_not] at hAccepted
          simp only [hParse, hEnv, hmacRaw, if_true]
          exact if_congr hAccepted rfl rfl

/-- The challenge in the text carries the MAC of this secret. -/
def MatchesUnder (hmac : Hmac) (plcf : LocConf) (secret ip ua plaintext : Bytes) : Prop :=
  ∃ t, challengeOf plaintext = some t ∧
    t.mac = macHex hmac secret (tokenInput plcf ip ua .chal t.payload)

/-- With the MAC of the current secret the previous one makes no difference, and without it
the current one makes none. -/
theorem validateConsume_rotated {ops : ShmOps NonceNode} {vr : VerifyResult} {st : NonceState}
    (hPrev : s' ≠ []) (hEnv : env.hmac = true) (hRetry : env.hmacPrevious = true) :
    (MatchesUnder hmac plcf s ip ua vr.plaintext →
      validateConsume hmac (plcf.withSecrets s s') ip ua ops env vr st =
        validateConsume hmac (plcf.withSecret s) ip ua ops env vr st) ∧
    (¬ MatchesUnder hmac plcf s ip ua vr.plaintext →
      validateConsume hmac (plcf.withSecrets s s') ip ua ops env vr st =
        validateConsume hmac (plcf.withSecret s') ip ua ops env vr st) := by
  constructor
  · rintro ⟨t, hToken, hMac⟩
    have hCheck : challengeCheck hmac (plcf.withSecrets s s') ip ua env vr.plaintext =
        challengeCheck hmac (plcf.withSecret s) ip ua env vr.plaintext := by
      refine challengeCheck_congr hEnv fun u hu => ?_
      obtain rfl := Option.some.inj (hToken.symm.trans hu)
      rw [hRetry, macAccepted_withSecrets hPrev, macAccepted_withSecret]
      exact ⟨fun _ => hMac, .inl⟩
    unfold validateConsume
    rw [hCheck]
    rfl
  · intro hNot
    have hCheck : challengeCheck hmac (plcf.withSecrets s s') ip ua env vr.plaintext =
        challengeCheck hmac (plcf.withSecret s') ip ua env vr.plaintext := by
      refine challengeCheck_congr hEnv fun u hu => ?_
      rw [hRetry, macAccepted_withSecrets hPrev, macAccepted_withSecret]
      exact ⟨fun h => h.resolve_left fun hMac => hNot ⟨u, hu, hMac⟩, .inr⟩
    unfold validateConsume
    rw [hCheck]
    rfl

end Challenges

/-- A location with a current and a previous secret accepts the sessions of both, treats a
challenge as the location of the secret it was made with does, and issues as the location
of the current secret does. -/
theorem secret_rotation_union (hmac : Hmac) (plcf : LocConf) (s s' : Bytes) (hPrev : s' ≠ []) :
    (∀ (r : Request) (env : SessionEnv) (cache : RevocCache), env.hmac = ⟨true, true⟩ →
      env.hmacPrevious = true →
        ((checkSession hmac (plcf.withSecrets s s') r env cache).1 = .ok ↔
          (checkSession hmac (plcf.withSecret s) r env cache).1 = .ok ∨
            (checkSession hmac (plcf.withSecret s') r env cache).1 = .ok)) ∧
    (∀ (ip ua : Bytes) (ops : ShmOps NonceNode) (env : ConsumeEnv) (vr : VerifyResult)
      (st : NonceState), env.hmac = true → env.hmacPrevious = true →
        (MatchesUnder hmac plcf s ip ua vr.plaintext →
          validateConsume hmac (plcf.withSecrets s s') ip ua ops env vr st =
            validateConsume hmac (plcf.withSecret s) ip ua ops env vr st) ∧
        (¬ MatchesUnder hmac plcf s ip ua vr.plaintext →
          validateConsume hmac (plcf.withSecrets s s') ip ua ops env vr st =
            validateConsume hmac (plcf.withSecret s') ip ua ops env vr st)) ∧
    (∀ (r : Request) (failed : Bool) (env : ChallengeEnv),
      sendChallenge hmac (plcf.withSecrets s s') r failed env =
        sendChallenge hmac (plcf.withSecret s) r failed env) ∧
    ∀ (r : Request) (fpr : Bytes) (env : GrantEnv),
      grant hmac (plcf.withSecrets s s') r fpr env = grant hmac (plcf.withSecret s) r fpr env :=
  ⟨fun _ _ _ hEnv hRetry => checkSession_rotated hPrev hEnv hRetry,
    fun _ _ _ _ _ _ hEnv hRetry => validateConsume_rotated hPrev hEnv hRetry,
    fun _ _ _ => rfl, fun _ _ _ => rfl⟩

def rotatedSecret : Bytes := ascii "fedcba9876543210fedcba9876543210"

/-- HMAC-SHA256 where the sample session needs it under the new secret, too. -/
def rotatedHmac : Hmac := fun s m =>
  if s = rotatedSecret ∧
      m = issuedInput sampleConf sampleRequest .sess (sessionPayload 4600 sampleFpr) then
    ⟨[240, 114, 89, 0, 221, 33, 154, 29, 147, 17, 176, 160, 229, 79, 27, 4, 238, 198, 101, 102,
      14, 52, 249, 153, 143, 36, 30, 124, 33, 189, 232, 134], rfl⟩
  else sampleHmacs s m

/-- The sample session survives the rotation of the secret it was granted under. -/
theorem returningRequest_rotated :
    (checkSession rotatedHmac (sampleConf.withSecrets rotatedSecret sampleConf.secret)
      returningRequest (calmSession 4600) .empty).1 = .ok :=
  ((secret_rotation_union rotatedHmac sampleConf rotatedSecret sampleConf.secret
    (by decide +kernel)).1 returningRequest (calmSession 4600) .empty rfl rfl).mpr
      (.inr (by decide +kernel))

end PgpAuth
