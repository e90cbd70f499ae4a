import PgpAuth.Token.RoundTrip

/-!
# A challenge from the login page back to the store

The client signs a text that holds the challenge of its login page: anything without `v1|`
before it, and behind it the end of the text or of a line. `challenge_round_trip` follows the
challenge through `validateConsume`: it is found and split as it was issued, its MAC is
accepted wherever the secret is current or previous, and until it expires the nonce store is
asked about its nonce and expiry.
-/

namespace PgpAuth

open Lib

/-- The token in a challenge that `sendChallenge` writes. -/
def issuedChallenge (hmac : Hmac) (plcf : LocConf) (r : Request) (nonce : Bytes) (now : Nat) :
    ChallengeToken where
  version := ascii "v1"
  exp := decimal (now + plcf.challengeTimeout)
  nonce := hexDump nonce
  mac := macHex hmac plcf.secret
    (issuedInput plcf r .chal (challengePayload (now + plcf.challengeTimeout) (hexDump nonce)))

/-- It has no byte that ends a line. -/
theorem issuedChallenge_line (hmac : Hmac) (plcf : LocConf) (r : Request) (nonce : Bytes)
    (now : Nat) :
    let t := issuedChallenge hmac plcf r nonce now
    ∀ b ∈ challengeText t.payload t.mac, isHeaderByte b = true := by
  intro t b hb
  have hHex : ∀ c, isHexDigit c = true → isHeaderByte c = true := by
    intro c hc
    have h0 := ne_of_isHexDigit hc (show isHexDigit 0 = false by decide)
    have h10 := ne_of_isHexDigit hc (show isHexDigit 10 = false by decide)
    have h13 := ne_of_isHexDigit hc (show isHexDigit 13 = false by decide)
    simp [isHeaderByte, h0, h10, h13]
  have hV1 : ∀ c ∈ ascii "v1", isHeaderByte c = true := by decide +kernel
  simp only [t, issuedChallenge, challengeText, ChallengeToken.payload, List.mem_append,
    List.mem_cons] at hb
  rcases hb with (hb | rfl | hb | rfl | hb) | rfl | hb
  · exact hV1 b hb
  · decide
  · exact hHex b (hex_of_decimal b hb)
  · decide
  · exact hHex b (isHexDigit_of_mem_hexDump hb)
  · decide
  · exact hHex b (isHexDigit_of_mem_hexDump hb)

/-- In the signed text it is found and split as it was issued. -/
theorem challengeOf_issued (hmac : Hmac) (plcf : LocConf) (r : Request) (nonce : Bytes) (now : Nat)
    {before after : Bytes} (hBefore : ¬ ascii "v1|" <:+: before) (hAfter : LineEnd after) :
    let t := issuedChallenge hmac plcf r nonce now
    challengeOf (before ++ challengeText t.payload t.mac ++ after) = some t :=
  challengeOf_framed rfl (notMem_of_hex hex_of_decimal (by decide))
    (notMem_of_hex (fun _ hb => isHexDigit_of_mem_hexDump hb) (by decide))
    (issuedChallenge_line hmac plcf r nonce now) hBefore hAfter

/-- What `validateConsume` makes of a text with an issued challenge in it. -/
structure ReadBack (hmac : Hmac) (plcf : LocConf) (ip ua : Bytes) (ops : ShmOps NonceNode)
    (env : ConsumeEnv) (vr : VerifyResult) (st : NonceState) (t : ChallengeToken) (exp : Nat) :
    Prop where
  token : challengeOf vr.plaintext = some t
  mac : MacAccepted hmac plcf env.hmacPrevious .chal ip ua t.payload t.mac
  expiry : ngxAtotm t.exp = exp
  /-- In time, the store decides about this nonce and this expiry. -/
  inTime : env.now ≤ exp →
    (validateConsume hmac plcf ip ua ops env vr st).1 =
        storeVerdict (nonceCheckAndSet ops plcf vr t.nonce exp env.nonce st).1 ∧
      (validateConsume hmac plcf ip ua ops env vr st).2.2 =
        (nonceCheckAndSet ops plcf vr t.nonce exp env.nonce st).2.2
  /-- Later, the store is not asked. -/
  late : exp < env.now →
    (validateConsume hmac plcf ip ua ops env vr st).1 = .declined ∧
      (validateConsume hmac plcf ip ua ops env vr st).2.1.chalReason = some .challengeExpired ∧
      (validateConsume hmac plcf ip ua ops env vr st).2.2 = st

theorem note_chalReason (vr : VerifyResult) (level : LogLevel) (diag : Option String)
    (reason : Reason) : (vr.note level diag reason).chalReason = some reason := by
  cases diag <;> rfl

/-- A challenge with a good MAC that has expired is refused as such. -/
theorem challengeCheck_late {hmac : Hmac} {plcf : LocConf} {ip ua : Bytes} {env : ConsumeEnv}
    {plaintext : Bytes} {t : ChallengeToken} (hToken : challengeOf plaintext = some t)
    (hEnv : env.hmac = true)
    (hMac : MacAccepted hmac plcf env.hmacPrevious .chal ip ua t.payload t.mac)
    (hExp : ngxAtotm t.exp < env.now) :
    challengeCheck hmac plcf ip ua env plaintext =
      .error ⟨.declined, .challengeExpired, some "pgp_auth: challenge expired"⟩ := by
  obtain ⟨p, hLocate, hParse⟩ := Option.bind_eq_some_iff.mp hToken
  simp only [challengeCheck, hLocate, hParse, hEnv, hmacRaw, if_true]
  rw [← tokenInput, if_neg (macAccepted_iff.mp hMac), if_pos (.inr hExp)]

/-- The challenge of a login page, in a text as a client signs it, is read back as issued,
wherever its secret is current or previous and for the same client. -/
theorem challenge_round_trip (hmac : Hmac) (plcf plcf' : LocConf) (r r' : Request) (failed : Bool)
    (chalEnv : ChallengeEnv) (page : Page) (challenge before after : Bytes)
    (ops : ShmOps NonceNode) (env : ConsumeEnv) (vr : VerifyResult) (st : NonceState)
    (hPage : (sendChallenge hmac plcf r failed chalEnv).2 = some page)
    (hChallenge : page.challenge = some challenge)
    (hBefore : ¬ ascii "v1|" <:+: before) (hAfter : LineEnd after)
    (hText : vr.plaintext = before ++ challenge ++ after)
    (hTime : chalEnv.now + plcf.challengeTimeout ≤ maxTime) (hSecret : plcf.secret ≠ [])
    (hShares : Shares plcf plcf') (hBinding : binding plcf' r' = binding plcf r)
    (hMacs : env.hmac = true ∧ env.hmacPrevious = true) :
    ∃ nonce mac, chalEnv.random = some nonce ∧ (hexDump nonce.val).length = 32 ∧
      challenge = challengeText
        (challengePayload (chalEnv.now + plcf.challengeTimeout) (hexDump nonce.val)) mac ∧
      ReadBack hmac plcf' (binding plcf' r').1 (binding plcf' r').2 ops env vr st
        ⟨ascii "v1", decimal (chalEnv.now + plcf.challengeTimeout), hexDump nonce.val, mac⟩
        (chalEnv.now + plcf.challengeTimeout) := by
  obtain ⟨nonce, hRandom, rfl⟩ := sendChallenge_text hPage hChallenge
  refine ⟨nonce, (issuedChallenge hmac plcf r nonce.val chalEnv.now).mac, hRandom,
    by rw [length_hexDump, nonce.2], rfl, ?_⟩
  have hToken : challengeOf vr.plaintext =
      some (issuedChallenge hmac plcf r nonce.val chalEnv.now) := by
    rw [hText]
    exact challengeOf_issued hmac plcf r nonce.val chalEnv.now hBefore hAfter
  have hMac : MacAccepted hmac plcf' env.hmacPrevious .chal (binding plcf' r').1
      (binding plcf' r').2 (issuedChallenge hmac plcf r nonce.val chalEnv.now).payload
      (issuedChallenge hmac plcf r nonce.val chalEnv.now).mac := by
    rw [hMacs.2]
    exact macAccepted_issued hmac .chal _ hShares hSecret hBinding
  have hExp : ngxAtotm (decimal (chalEnv.now + plcf.challengeTimeout)) =
      ((chalEnv.now + plcf.challengeTimeout : Nat) : Int) := by
    rw [ngxAtotm_decimal, if_pos hTime]
  refine ⟨hToken, hMac, hExp, ?_, ?_⟩
  · intro hNow
    have hOk := challengeCheck_of hToken hMacs.1 hMac (by
      change ¬(ngxAtotm (decimal _) = -1 ∨ ngxAtotm (decimal _) < _)
      rw [hExp]
      omega)
    have hConsume := validateConsume_of_ok hmac plcf' (binding plcf' r').1 (binding plcf' r').2 env
      ops vr st hOk
    rw [show ngxAtotm (issuedChallenge hmac plcf r nonce.val chalEnv.now).exp = _ from hExp]
      at hConsume
    exact hConsume
  · intro hLate
    have hRefused := challengeCheck_late hToken hMacs.1 hMac (by
      change ngxAtotm (decimal _) < _
      rw [hExp]
      exact_mod_cast hLate)
    simp only [validateConsume, hRefused, note_chalReason, and_self]

/-- The sample challenge, signed behind a greeting in a text with CRLF line ends. -/
def greetedResult : VerifyResult :=
  { VerifyResult.cleared with
    plaintext := ascii "Logging in.\r\n" ++ sampleChallenge ++ ascii "\r\n-- \r\nme" }

/-- Validation at time `now` with everything at hand. -/
def calmConsume (now : Nat) : ConsumeEnv :=
  ⟨true, true, now, now, ⟨true, true⟩, now, true, true, true, true, true, []⟩

theorem greetedChallenge_read :
    ∃ nonce mac, ReadBack sampleHmac sampleConf (binding sampleConf sampleRequest).1
      (binding sampleConf sampleRequest).2 ⟨fun _ => 0, .plain⟩ (calmConsume 1000) greetedResult
      .empty ⟨ascii "v1", decimal 1000, hexDump nonce, mac⟩ 1000 := by
  obtain ⟨nonce, mac, -, -, -, hRead⟩ := challenge_round_trip sampleHmac sampleConf sampleConf
    sampleRequest sampleRequest false samplePage ⟨200, some sampleChallenge⟩ sampleChallenge
    (ascii "Logging in.\r\n") (ascii "\r\n-- \r\nme") ⟨fun _ => 0, .plain⟩ (calmConsume 1000)
    greetedResult .empty (by decide +kernel) rfl (by decide +kernel)
    (.inr ⟨ascii "-- \r\nme", .inr rfl⟩) rfl (by decide +kernel) (by decide +kernel)
    ⟨.inl rfl, rfl, rfl, rfl⟩ rfl ⟨rfl, rfl⟩
  exact ⟨nonce.val, mac, hRead⟩

end PgpAuth
