import PgpAuth.Revocation
import PgpAuth.Token.Mac

/-!
# Session cookies

`cookie = <exp>|<fpr>|<mac>` with the MAC over `<exp>|<fpr>`. `grant` issues one,
`checkSession` accepts one that is signed under the current or the previous secret, has
not expired and carries no revoked fingerprint.

`checkSession_ok` collects what acceptance means, for the results that follow.
-/

namespace PgpAuth

open Lib

/-- `|` -/
def pipe : UInt8 := 0x7c

structure SessionToken where
  exp : Bytes
  fpr : Bytes
  mac : Bytes
  deriving DecidableEq, Repr

/-- The signed part, `exp|fpr`. -/
def SessionToken.payload (t : SessionToken) : Bytes := t.exp ++ pipe :: t.fpr

/-- The two delimiter searches of `ngx_http_pgp_check_session`. -/
def parseSession (cookie : Bytes) : Option SessionToken :=
  match cut pipe cookie with
  | none => none
  | some (exp, rest) =>
      match cut pipe rest with
      | none => none
      | some (fpr, mac) => some ⟨exp, fpr, mac⟩

def cookieName (plcf : LocConf) : Bytes :=
  if plcf.cookieHostPrefix && plcf.cookieSecure then ascii "__Host-pgp_session"
  else ascii "pgp_session"

/-- Outcomes met by one call of `ngx_http_pgp_check_session`. -/
structure SessionEnv where
  hmac : HmacEnv
  hmacPrevious : Bool
  now : Nat
  revoc : RevocEnv
  deriving DecidableEq, Repr

/-- The retry against the previous secret. -/
def matchedPrevious (hmac : Hmac) (plcf : LocConf) (ok : Bool) (kind : TokenKind)
    (ip ua data mac : Bytes) : Bool :=
  plcf.secretPrevious != [] &&
    match hmacRaw hmac ok plcf.secretPrevious kind plcf.keyring ip ua data with
    | none => false
    | some want => ctEq mac want

def checkSession (hmac : Hmac) (plcf : LocConf) (r : Request) (env : SessionEnv)
    (cache : RevocCache) : Rc × RevocCache :=
  match r.cookie (cookieName plcf) with
  | none => (.declined, cache)
  | some cookie =>
      match parseSession cookie.val with
      | none => (.declined, cache)
      | some t =>
          match hmacHex hmac env.hmac plcf r .sess t.payload with
          | none => (.declined, cache)
          | some want =>
              if !ctEq t.mac want && !matchedPrevious hmac plcf env.hmacPrevious .sess
                  (binding plcf r).1 (binding plcf r).2 t.payload t.mac then (.declined, cache)
              else
                let exp := ngxAtotm t.exp
                if exp ≠ 0 ∧ exp < env.now then (.declined, cache)
                else
                  let revoked := isRevoked plcf env.revoc cache t.fpr
                  (if revoked.1 then .declined else .ok, revoked.2)

/-! ## Issuing -/

/-- Outcomes met by one call of `ngx_http_pgp_grant`. -/
structure GrantEnv where
  now : Nat
  payloadAlloc : Bool
  hmac : HmacEnv
  pushCookie : Bool
  cookieAlloc : Bool
  pushCache : Bool
  pushLocation : Bool
  deriving DecidableEq, Repr

def sessionExp (plcf : LocConf) (now : Nat) : Nat :=
  if plcf.sessionTimeout = 0 then 0 else now + plcf.sessionTimeout

/-- `"%T|%V"` of the expiry and the fingerprint. -/
def sessionPayload (exp : Nat) (fpr : Bytes) : Bytes := decimal exp ++ pipe :: fpr

def SameSite.text : SameSite → Bytes
  | lax => ascii "Lax"
  | strict => ascii "Strict"
  | none => ascii "None"

/-- Bytes allocated for the cookie value. -/
def cookieSize (plcf : LocConf) (payload mac : Bytes) : Nat :=
  (cookieName plcf).length + 1 + payload.length + 1 + mac.length +
    (ascii "; Path=/; HttpOnly; SameSite=").length + (ascii "Strict").length +
    (ascii "; Secure").length + 32

def cookieText (plcf : LocConf) (payload mac : Bytes) : Bytes :=
  cookieName plcf ++ ascii "=" ++ payload ++ ascii "|" ++ mac ++
    ascii "; Path=/; HttpOnly; SameSite=" ++ plcf.cookieSamesite.text ++
    if plcf.cookieSecure then ascii "; Secure" else []

/-- The value of a `Set-Cookie` element: the text, or, where that found no memory, a pointer
that is `NULL` and a length that was never set. -/
inductive SetCookie where
  | text (cookie : Bytes)
  | unset
  deriving DecidableEq, Repr

/-- The headers a request has collected for its answer. -/
structure Headers where
  setCookie : Option SetCookie
  cacheControl : Option Bytes
  location : Option Bytes
  deriving DecidableEq, Repr

def Headers.none : Headers := ⟨Option.none, Option.none, Option.none⟩

/-- Result code and headers. The cookie is among the headers as soon as its element is pushed,
even where a later allocation fails. -/
def grant (hmac : Hmac) (plcf : LocConf) (r : Request) (fpr : Bytes) (env : GrantEnv) :
    Rc × Headers :=
  let payload := sessionPayload (sessionExp plcf env.now) fpr
  if env.payloadAlloc = false then (.error, .none)
  else
    match hmacHex hmac env.hmac plcf r .sess payload with
    | none => (.error, .none)
    | some mac =>
        if env.pushCookie = false then (.error, .none)
        else if env.cookieAlloc = false then (.error, ⟨some .unset, Option.none, Option.none⟩)
        else
          let cookie := (cookieText plcf payload mac).take (cookieSize plcf payload mac)
          if env.pushCache = false then (.error, ⟨some (.text cookie), Option.none, Option.none⟩)
          else if env.pushLocation = false then
            (.error, ⟨some (.text cookie), some (ascii "no-store"), Option.none⟩)
          else (.http 303, ⟨some (.text cookie), some (ascii "no-store"), some r.uri⟩)

/-! ## What is issued -/

theorem length_cookieText_le (plcf : LocConf) (payload mac : Bytes) :
    (cookieText plcf payload mac).length ≤ cookieSize plcf payload mac := by
  have hSite : plcf.cookieSamesite.text.length ≤ (ascii "Strict").length := by
    cases plcf.cookieSamesite <;> decide
  have hSecure : (if plcf.cookieSecure then ascii "; Secure" else []).length ≤
      (ascii "; Secure").length := by
    cases plcf.cookieSecure <;> decide
  have hOne : (ascii "=").length = 1 ∧ (ascii "|").length = 1 := by decide
  simp only [cookieText, cookieSize, List.length_append]
  omega

/-- A cookie that is written holds the payload and its MAC, uncut. -/
theorem grant_setCookie {hmac : Hmac} {plcf : LocConf} {r : Request} {fpr : Bytes} {env : GrantEnv}
    {cookie : Bytes} (h : (grant hmac plcf r fpr env).2.setCookie = some (.text cookie)) :
    env.hmac = ⟨true, true⟩ ∧
      cookie = cookieText plcf (sessionPayload (sessionExp plcf env.now) fpr)
        (macHex hmac plcf.secret (tokenInput plcf (binding plcf r).1 (binding plcf r).2 .sess
          (sessionPayload (sessionExp plcf env.now) fpr))) := by
  unfold grant at h
  dsimp only at h
  split at h
  · cases h
  · split at h
    · cases h
    · rename_i mac hMac
      obtain ⟨hEnv, rfl⟩ := hmacHex_eq_some.mp hMac
      refine ⟨hEnv, ?_⟩
      rw [List.take_of_length_le (length_cookieText_le plcf _ _)] at h
      split_ifs at h
      all_goals
        cases h
      all_goals rfl

/-! ## What acceptance means -/

theorem parseSession_eq_some {cookie : Bytes} {t : SessionToken} :
    parseSession cookie = some t ↔
      cookie = t.payload ++ pipe :: t.mac ∧ pipe ∉ t.exp ∧ pipe ∉ t.fpr := by
  obtain ⟨exp, fpr, mac⟩ := t
  simp only [SessionToken.payload, List.append_assoc, List.cons_append]
  constructor
  · intro h
    unfold parseSession at h
    split at h
    · cases h
    · rename_i hc₁
      split at h
      · cases h
      · rename_i hc₂
        cases h
        obtain ⟨rfl, h₁⟩ := cut_eq_some.mp hc₁
        obtain ⟨rfl, h₂⟩ := cut_eq_some.mp hc₂
        exact ⟨rfl, h₁, h₂⟩
  · rintro ⟨rfl, h₁, h₂⟩
    simp only [parseSession, cut_append h₁, cut_append h₂]

/-- One comparison of a presented MAC: the secret, the MAC input, the bytes presented. -/
structure MacCheck where
  secret : Bytes
  input : Bytes
  presented : Bytes
  deriving DecidableEq, Repr

def MacCheck.Verifies (hmac : Hmac) (c : MacCheck) : Prop :=
  c.presented = macHex hmac c.secret c.input

/-- The comparisons a location makes for a token: current secret, then the previous one
where it is set. -/
def macChecks (plcf : LocConf) (ip ua : Bytes) (kind : TokenKind) (data mac : Bytes) :
    List MacCheck :=
  ⟨plcf.secret, tokenInput plcf ip ua kind data, mac⟩ ::
    if plcf.secretPrevious = [] then []
    else [⟨plcf.secretPrevious, tokenInput plcf ip ua kind data, mac⟩]

theorem matchedPrevious_iff {hmac : Hmac} {plcf : LocConf} {ok : Bool} {kind : TokenKind}
    {ip ua data mac : Bytes} :
    matchedPrevious hmac plcf ok kind ip ua data mac = true ↔
      plcf.secretPrevious ≠ [] ∧ ok = true ∧
        mac = macHex hmac plcf.secretPrevious (tokenInput plcf ip ua kind data) := by
  cases ok <;> simp [matchedPrevious, hmacRaw, tokenInput]

/-- The MAC matches under the current secret, or under the previous one on the retry. -/
def MacAccepted (hmac : Hmac) (plcf : LocConf) (ok : Bool) (kind : TokenKind)
    (ip ua data mac : Bytes) : Prop :=
  mac = macHex hmac plcf.secret (tokenInput plcf ip ua kind data) ∨
    matchedPrevious hmac plcf ok kind ip ua data mac = true

/-- The test both validators make once the MAC under the current secret is computed. -/
theorem macAccepted_iff {hmac : Hmac} {plcf : LocConf} {ok : Bool} {kind : TokenKind}
    {ip ua data mac : Bytes} :
    MacAccepted hmac plcf ok kind ip ua data mac ↔
      ¬(!ctEq mac (macHex hmac plcf.secret (tokenInput plcf ip ua kind data)) &&
        !matchedPrevious hmac plcf ok kind ip ua data mac) = true := by
  unfold MacAccepted
  rw [← ctEq_iff (a := mac)]
  generalize ctEq mac _ = x
  generalize matchedPrevious hmac plcf ok kind ip ua data mac = y
  cases x <;> cases y <;> decide

/-- A match under either secret is one of the location's comparisons. -/
theorem exists_verifies_of_match {hmac : Hmac} {plcf : LocConf} {ok : Bool} {kind : TokenKind}
    {ip ua data mac : Bytes} (h : MacAccepted hmac plcf ok kind ip ua data mac) :
    ∃ c ∈ macChecks plcf ip ua kind data mac, c.Verifies hmac := by
  rcases h with h | h
  · exact ⟨_, List.mem_cons_self, h⟩
  · obtain ⟨hp, -, hm⟩ := matchedPrevious_iff.mp h
    refine ⟨⟨plcf.secretPrevious, tokenInput plcf ip ua kind data, mac⟩, ?_, hm⟩
    simp [macChecks, hp]

/-- The comparisons `checkSession` makes for the cookie of a request. -/
def sessionChecks (plcf : LocConf) (r : Request) : List MacCheck :=
  match (r.cookie (cookieName plcf)).bind fun c => parseSession c.val with
  | none => []
  | some t => macChecks plcf (binding plcf r).1 (binding plcf r).2 .sess t.payload t.mac

theorem checkSession_ok {hmac : Hmac} {plcf : LocConf} {r : Request} {env : SessionEnv}
    {cache : RevocCache} (h : (checkSession hmac plcf r env cache).1 = .ok) :
    ∃ cookie t, r.cookie (cookieName plcf) = some cookie ∧ parseSession cookie.val = some t ∧
      MacAccepted hmac plcf env.hmacPrevious .sess (binding plcf r).1 (binding plcf r).2
        t.payload t.mac ∧
      (ngxAtotm t.exp = 0 ∨ env.now ≤ ngxAtotm t.exp) ∧
      (isRevoked plcf env.revoc cache t.fpr).1 = false := by
  unfold checkSession at h
  split at h
  · cases h
  · rename_i cookie hc
    split at h
    · cases h
    · rename_i t ht
      split at h
      · cases h
      · rename_i want hw
        obtain ⟨-, rfl⟩ := hmacHex_eq_some.mp hw
        split at h
        · cases h
        · rename_i hmatch
          dsimp only at h
          split at h
          · cases h
          · rename_i hexp
            refine ⟨cookie, t, hc, ht, macAccepted_iff.mpr hmatch, by omega, ?_⟩
            by_contra hr
            simp [hr] at h

/-- The other way round, for a call in which both computations succeed. -/
theorem checkSession_of {hmac : Hmac} {plcf : LocConf} {r : Request} {env : SessionEnv}
    {cache : RevocCache} {cookie : CookieValue} {t : SessionToken}
    (hCookie : r.cookie (cookieName plcf) = some cookie) (hToken : parseSession cookie.val = some t)
    (hEnv : env.hmac = ⟨true, true⟩)
    (hMac : MacAccepted hmac plcf env.hmacPrevious .sess (binding plcf r).1 (binding plcf r).2
      t.payload t.mac)
    (hExp : ngxAtotm t.exp = 0 ∨ env.now ≤ ngxAtotm t.exp)
    (hRevoked : (isRevoked plcf env.revoc cache t.fpr).1 = false) :
    (checkSession hmac plcf r env cache).1 = .ok := by
  have hWant : hmacHex hmac env.hmac plcf r .sess t.payload = some (macHex hmac plcf.secret
      (tokenInput plcf (binding plcf r).1 (binding plcf r).2 .sess t.payload)) :=
    hmacHex_eq_some.mpr ⟨hEnv, rfl⟩
  have hExp' : ¬(ngxAtotm t.exp ≠ 0 ∧ ngxAtotm t.exp < env.now) := by omega
  simp only [checkSession, hCookie, hToken, hWant]
  rw [if_neg (macAccepted_iff.mp hMac), if_neg hExp']
  simp [hRevoked]

theorem exists_verifies_of_checkSession {hmac : Hmac} {plcf : LocConf} {r : Request}
    {env : SessionEnv} {cache : RevocCache} (h : (checkSession hmac plcf r env cache).1 = .ok) :
    ∃ c ∈ sessionChecks plcf r, c.Verifies hmac := by
  obtain ⟨cookie, t, hc, ht, hm, -⟩ := checkSession_ok h
  simpa [sessionChecks, hc, ht] using exists_verifies_of_match hm

end PgpAuth
