import PgpAuth.Token.Binding

/-!
# A session from the cookie header back to the request

The browser keeps what stands between the first `=` and the first `;` of the header that
`grant` writes, and sends it back. `session_round_trip` follows this value through
`checkSession`: it is read back as issued, and it is good until its expiry for as long as
the key is not revoked, in every location that shares the secret and for the same client.
-/

namespace PgpAuth

open Lib

/-- What the browser keeps of a `Set-Cookie` header. -/
def cookieValueOf (header : Bytes) : Option Bytes :=
  match cut (charByte '=') header with
  | none => none
  | some (_, rest) => (cut (charByte ';') rest).map Prod.fst

theorem equals_notMem_cookieName (plcf : LocConf) : charByte '=' ∉ cookieName plcf := by
  unfold cookieName
  split <;> decide

theorem cookieValueOf_cookieText (plcf : LocConf) {payload mac : Bytes}
    (hPayload : charByte ';' ∉ payload) (hMac : charByte ';' ∉ mac) :
    cookieValueOf (cookieText plcf payload mac) = some (payload ++ pipe :: mac) := by
  obtain ⟨attributes, hText⟩ : ∃ attributes, cookieText plcf payload mac =
      cookieName plcf ++ charByte '=' ::
        ((payload ++ pipe :: mac) ++ charByte ';' :: attributes) := by
    refine ⟨ascii " Path=/; HttpOnly; SameSite=" ++ plcf.cookieSamesite.text ++
      (if plcf.cookieSecure then ascii "; Secure" else []), ?_⟩
    have hEquals : ascii "=" = [charByte '='] := rfl
    have hPipe : ascii "|" = [pipe] := by decide
    have hSemi : ascii "; Path=/; HttpOnly; SameSite=" =
        charByte ';' :: ascii " Path=/; HttpOnly; SameSite=" := rfl
    simp [cookieText, hEquals, hPipe, hSemi]
  have hValue : charByte ';' ∉ payload ++ pipe :: mac := by
    simp only [List.mem_append, List.mem_cons, not_or]
    exact ⟨hPayload, by decide, hMac⟩
  rw [hText, cookieValueOf, cut_append (equals_notMem_cookieName plcf)]
  dsimp only
  rw [cut_append hValue, Option.map_some]

/-- The token in a cookie that `grant` writes. -/
def issuedSession (hmac : Hmac) (plcf : LocConf) (r : Request) (fpr : Bytes) (now : Nat) :
    SessionToken where
  exp := decimal (sessionExp plcf now)
  fpr := fpr
  mac := macHex hmac plcf.secret
    (issuedInput plcf r .sess (sessionPayload (sessionExp plcf now) fpr))

section

variable {fpr : Bytes} (hFpr : ∀ b ∈ fpr, isHexDigit b = true)

include hFpr

theorem parseSession_issued (hmac : Hmac) (plcf : LocConf) (r : Request) (now : Nat) :
    parseSession (sessionPayload (sessionExp plcf now) fpr ++
      pipe :: (issuedSession hmac plcf r fpr now).mac) = some (issuedSession hmac plcf r fpr now) :=
  parseSession_eq_some.mpr
    ⟨rfl, notMem_of_hex hex_of_decimal (by decide), notMem_of_hex hFpr (by decide)⟩

/-- The value of an issued cookie. -/
theorem cookieValueOf_grant {hmac : Hmac} {plcf : LocConf} {r : Request} {env : GrantEnv}
    {header : Bytes} (hGrant : (grant hmac plcf r fpr env).2.setCookie = some (.text header)) :
    cookieValueOf header = some (sessionPayload (sessionExp plcf env.now) fpr ++
      pipe :: (issuedSession hmac plcf r fpr env.now).mac) := by
  obtain ⟨-, rfl⟩ := grant_setCookie hGrant
  refine cookieValueOf_cookieText plcf ?_ ?_
  · simp only [sessionPayload, List.mem_append, List.mem_cons, not_or]
    exact ⟨notMem_of_hex hex_of_decimal (by decide), by decide, notMem_of_hex hFpr (by decide)⟩
  · exact notMem_of_hex (fun b hb => isHexDigit_of_mem_hexDump hb) (by decide)

end

/-- The same client in a location with the same flags has the same binding. -/
theorem binding_eq {plcf plcf' : LocConf} {r r' : Request} (hShares : Shares plcf plcf')
    (hAddr : r'.addr = r.addr) (hUa : r'.userAgent = r.userAgent) :
    binding plcf' r' = binding plcf r := by
  unfold binding
  rw [hShares.bindIp, hShares.bindUa, hAddr, hUa]

/-- The MAC of an issued token is accepted where the secret is shared. -/
theorem macAccepted_issued (hmac : Hmac) {plcf plcf' : LocConf} {r r' : Request} (kind : TokenKind)
    (data : Bytes) (hShares : Shares plcf plcf') (hSecret : plcf.secret ≠ [])
    (hBinding : binding plcf' r' = binding plcf r) :
    MacAccepted hmac plcf' true kind (binding plcf' r').1 (binding plcf' r').2 data
      (macHex hmac plcf.secret (issuedInput plcf r kind data)) := by
  have hInput : tokenInput plcf' (binding plcf' r').1 (binding plcf' r').2 kind data =
      issuedInput plcf r kind data := by
    rw [hBinding, issuedInput, tokenInput, tokenInput, hShares.keyring]
  unfold MacAccepted
  rw [matchedPrevious_iff, hInput]
  rcases hShares.secret with hCurrent | hPrevious
  · exact .inl (by rw [hCurrent])
  · rw [hPrevious]
    exact .inr ⟨hSecret, rfl, rfl⟩

/-- Zero stands for no expiry, and nothing else is printed as zero. -/
theorem expiry_issued {plcf : LocConf} {now : Nat} (later : Nat)
    (hTime : now + plcf.sessionTimeout ≤ maxTime) :
    ngxAtotm (decimal (sessionExp plcf now)) = sessionExp plcf now ∧
      ((sessionExp plcf now : Int) = 0 ∨ (later : Int) ≤ sessionExp plcf now ↔
        plcf.sessionTimeout = 0 ∨ later ≤ now + plcf.sessionTimeout) := by
  unfold sessionExp
  split
  · rename_i hZero
    exact ⟨by rw [ngxAtotm_decimal, if_pos (Nat.zero_le _)], by simp [hZero]⟩
  · rename_i hPos
    refine ⟨by rw [ngxAtotm_decimal, if_pos hTime], ?_⟩
    omega

/-- The value of an issued cookie is read back as issued. Presented by the same client where
the secret is current or previous, it is accepted exactly until it expires, as long as the
key is not revoked. -/
theorem session_round_trip {hmac : Hmac} {plcf plcf' : LocConf} {r r' : Request}
    {fpr header : Bytes} {grantEnv : GrantEnv} {env : SessionEnv} {cache : RevocCache}
    (hFpr : ∀ b ∈ fpr, isHexDigit b = true) (hSecret : plcf.secret ≠ [])
    (hTime : grantEnv.now + plcf.sessionTimeout ≤ maxTime)
    (hGrant : (grant hmac plcf r fpr grantEnv).2.setCookie = some (.text header))
    (hShares : Shares plcf plcf') (hAddr : r'.addr = r.addr) (hUa : r'.userAgent = r.userAgent)
    (hCookie : (r'.cookie (cookieName plcf')).map Subtype.val = cookieValueOf header)
    (hMacs : env.hmac = ⟨true, true⟩ ∧ env.hmacPrevious = true) :
    ∃ value t, cookieValueOf header = some value ∧ parseSession value = some t ∧
      ngxAtotm t.exp = sessionExp plcf grantEnv.now ∧ t.fpr = fpr ∧
      ((checkSession hmac plcf' r' env cache).1 = .ok ↔
        (plcf.sessionTimeout = 0 ∨ env.now ≤ grantEnv.now + plcf.sessionTimeout) ∧
          (isRevoked plcf' env.revoc cache fpr).1 = false) := by
  have hValue := cookieValueOf_grant hFpr hGrant
  have hParse := parseSession_issued hFpr hmac plcf r grantEnv.now
  obtain ⟨hExp, hUntil⟩ := expiry_issued env.now hTime
  refine ⟨_, _, hValue, hParse, hExp, rfl, ?_⟩
  rw [hValue] at hCookie
  obtain ⟨cookie, hLookup, hText⟩ := Option.map_eq_some_iff.mp hCookie
  rw [← hText] at hParse
  constructor
  · intro hOk
    obtain ⟨cookie', t, hLookup', hParse', -, hAlive, hRevoked⟩ := checkSession_ok hOk
    obtain rfl := Option.some.inj (hLookup.symm.trans hLookup')
    obtain rfl := Option.some.inj (hParse.symm.trans hParse')
    rw [issuedSession] at hAlive
    dsimp only at hAlive
    rw [hExp] at hAlive
    exact ⟨hUntil.mp hAlive, hRevoked⟩
  · rintro ⟨hAlive, hRevoked⟩
    have hMac := macAccepted_issued hmac .sess (sessionPayload (sessionExp plcf grantEnv.now) fpr)
      hShares hSecret (binding_eq hShares hAddr hUa)
    refine checkSession_of hLookup hParse hMacs.1 ?_ ?_ hRevoked
    · rw [hMacs.2]
      exact hMac
    · rw [issuedSession]
      dsimp only
      rw [hExp]
      exact hUntil.mpr hAlive

/-- The sample client comes back with the session it was granted at 1000. -/
def returningRequest : Request :=
  { sampleRequest with
    cookie := fun _ => some ⟨ascii ("4600|0123456789ABCDEF0123456789ABCDEF01234567|" ++
      "7816d28fd796e6b43388395c1655ae8027e48df821701fc9a7125c2385fbf259"), by
        rw [ascii_append, ascii_ofList, ascii_ofList]
        decide +kernel⟩ }

/-- A request at time `now` in which both MACs are computed and no list is read. -/
def calmSession (now : Nat) : SessionEnv := ⟨⟨true, true⟩, true, now, ⟨none, true, true, none⟩⟩

/-- It is good up to 4600, also in a location with another session timeout. -/
theorem returningRequest_accepted :
    (checkSession sampleHmacs { sampleConf with sessionTimeout := 60 } returningRequest
      (calmSession 4600) .empty).1 = .ok := by
  obtain ⟨value, t, -, -, -, -, hIff⟩ := @session_round_trip sampleHmacs sampleConf
    { sampleConf with sessionTimeout := 60 } sampleRequest returningRequest sampleFpr _
    ⟨1000, true, ⟨true, true⟩, true, true, true, true⟩ (calmSession 4600) .empty
    (by decide +kernel) (by decide +kernel) (by decide +kernel) rfl ⟨.inl rfl, rfl, rfl, rfl⟩ rfl rfl
    (by
      simp only [returningRequest, Option.map_some, ascii_append]
      repeat rw [ascii_ofList]
      decide +kernel) ⟨rfl, rfl⟩
  exact hIff.mpr ⟨by decide +kernel, by decide +kernel⟩

end PgpAuth
