import PgpAuth.Login.Handler
import PgpAuth.System.Access

/-!
# What can get into the session cookie

The fingerprint in the cookie of a granted login is copied from gpg's status text, which is
not trusted. Every copy is bounded and checked to be hexadecimal before it counts, so
whatever gpg writes the cookie is `<name>=<exp>|<hex>|<mac>` and the attributes
(`CookieShape`), and the two buffers it is built in are large enough.

`submission_cookie` follows a cookie from the answer of a submission, in either mode, back to
the grant and the verdict of gpg it rests on.
-/

namespace PgpAuth

open Lib

/-- `NGX_TIME_T_LEN` for a 64-bit `time_t` -/
def timeTLen : Nat := 20

def isLowerHexDigit (b : UInt8) : Bool := (48 ≤ b && b ≤ 57) || (97 ≤ b && b ≤ 102)

def cookieAttributes (plcf : LocConf) : Bytes :=
  ascii "; Path=/; HttpOnly; SameSite=" ++ plcf.cookieSamesite.text ++
    if plcf.cookieSecure then ascii "; Secure" else []

/-- The cookie granted at `now`, for some fingerprint and MAC. -/
structure CookieShape (plcf : LocConf) (now : Nat) (fpr mac cookie : Bytes) : Prop where
  value : cookie = cookieName plcf ++ ascii "=" ++ decimal (sessionExp plcf now) ++ ascii "|" ++
    fpr ++ ascii "|" ++ mac ++ cookieAttributes plcf
  fprLength : fpr.length ≤ fprRoom
  fprHex : ∀ b ∈ fpr, isHexDigit b = true
  macLength : mac.length = 64
  macHex : ∀ b ∈ mac, isLowerHexDigit b = true
  payloadFits : (sessionPayload (sessionExp plcf now) fpr).length ≤ timeTLen + 1 + fpr.length
  cookieFits : cookie.length ≤ cookieSize plcf (sessionPayload (sessionExp plcf now) fpr) mac

/-! ## The parts -/

theorem identity_length {args fpr : Bytes} (h : identity args = some fpr) :
    fpr.length ≤ fprRoom := by
  unfold identity at h
  split at h
  · rw [← Option.some.inj h]
    exact List.length_take_le _ _
  · split at h
    · rw [← Option.some.inj h]
      exact List.length_take_le _ _
    · cases h

/-- Whatever gpg wrote, the fingerprint of a valid verdict fits its buffer. -/
theorem gpgVerify_fpr_length {gpgPath keyring msg : Bytes} {env : GpgEnv}
    (h : (gpgVerify gpgPath keyring msg env).2.valid = true) :
    (gpgVerify gpgPath keyring msg env).2.fpr.length ≤ fprRoom := by
  obtain ⟨hStarts, hTrusted⟩ := (gpgVerify_valid gpgPath keyring msg env).mp h
  rw [gpgVerify_fpr hStarts hTrusted, statusParse_fpr_eq]
  cases hLast : (lastValidsig (captured (env.run keyring msg).stream env.turns)).bind identity with
  | none => exact Nat.zero_le _
  | some fpr =>
      obtain ⟨args, -, hId⟩ := Option.bind_eq_some_iff.mp hLast
      exact identity_length hId

private theorem isLowerHexDigit_hexDigit : ∀ d : Fin 16, isLowerHexDigit (hexDigit d) = true := by
  decide

theorem macHex_shape (hmac : Hmac) (secret input : Bytes) :
    (macHex hmac secret input).length = 64 ∧
      ∀ b ∈ macHex hmac secret input, isLowerHexDigit b = true := by
  constructor
  · rw [macHex, length_hexDump, (hmac secret input).2]
  · intro b hb
    obtain ⟨a, -, hb⟩ := List.mem_flatMap.mp hb
    have ha : a.toNat < 256 := a.toNat_lt
    simp only [List.mem_cons, List.not_mem_nil, or_false] at hb
    rcases hb with rfl | rfl
    · exact isLowerHexDigit_hexDigit ⟨a.toNat / 16, by omega⟩
    · exact isLowerHexDigit_hexDigit ⟨a.toNat % 16, by omega⟩

/-- Both terms of the expiry are `time_t` values, so it prints within `NGX_TIME_T_LEN`. -/
theorem length_sessionPayload_le {plcf : LocConf} {now : Nat} (hNow : now ≤ maxTime)
    (hTimeout : plcf.sessionTimeout ≤ maxTime) (fpr : Bytes) :
    (sessionPayload (sessionExp plcf now) fpr).length ≤ timeTLen + 1 + fpr.length := by
  have hExp : sessionExp plcf now < 10 ^ timeTLen := by
    unfold sessionExp timeTLen
    unfold maxTime at hNow hTimeout
    split <;> omega
  have hDigits := (length_decimal_le_iff (by decide)).mpr hExp
  simp only [sessionPayload, List.length_append, List.length_cons]
  omega

/-! ## From the answer back to the grant -/

section Submission

variable {x : Externals} {plcf : LocConf} {r : Request} {cookie : Bytes}

/-- The cookie `grant` writes for a fingerprint. -/
def grantedCookie (x : Externals) (plcf : LocConf) (r : Request) (now : Nat) (fpr : Bytes) :
    Bytes :=
  let payload := sessionPayload (sessionExp plcf now) fpr
  cookieText plcf payload (macHex x.hmac plcf.secret
    (tokenInput plcf (binding plcf r).1 (binding plcf r).2 .sess payload))

theorem verifyPost_setCookie {env : PostEnv} {vr : VerifyResult} {st : Stores}
    (h : (verifyPost x plcf r env vr st).headers.setCookie = some (.text cookie)) :
    vr.valid = true ∧ cookie = grantedCookie x plcf r env.grant.now vr.fpr := by
  obtain ⟨-, hNone⟩ | hGranted := verifyPost_cases x plcf r env vr st
  · rw [hNone] at h
    cases h
  · rw [hGranted.headers] at h
    exact ⟨hGranted.valid, (grant_setCookie h).2⟩

theorem verifyInline_setCookie {msg : Bytes} {env : VerifyEnv} {st : Stores}
    (h : (verifyInline x plcf r msg env st).answer.setCookie = some (.text cookie)) :
    (gpgVerify plcf.gpgPath plcf.keyring msg env.gpg).2.valid = true ∧
      cookie = grantedCookie x plcf r env.post.grant.now
        (gpgVerify plcf.gpgPath plcf.keyring msg env.gpg).2.fpr := by
  unfold verifyInline at h
  dsimp only at h
  split at h
  · cases finish_setCookie h
  · exact verifyPost_setCookie (finish_setCookie h)

/-- The thread leaves gpg's verdict as it is. -/
theorem gpgThread_verdict (x : Externals) (plcf : LocConf) (task : ThreadTask) (gpg : GpgEnv)
    (consume : ConsumeEnv) (st : NonceState) :
    (gpgThread x plcf task gpg consume st).1.vr.verdict =
      (gpgVerify plcf.gpgPath plcf.keyring task.msg gpg).2.verdict := by
  unfold gpgThread
  dsimp only
  split
  · exact validateConsume_verdict x.hmac plcf task.ip task.ua consume x.nonceShm _ st
  · rfl

theorem verifyThreadDone_setCookie {res : ThreadResult} {post : PostEnv} {finalize : FinalizeEnv}
    {st : Stores}
    (h : (verifyThreadDone x plcf r res post finalize st).answer.setCookie = some (.text cookie)) :
    res.vr.valid = true ∧ cookie = grantedCookie x plcf r post.grant.now res.vr.fpr := by
  unfold verifyThreadDone at h
  dsimp only at h
  split at h
  · cases finish_setCookie h
  · have hPost := verifyPost_setCookie (finish_setCookie h)
    exact hPost

/-- A cookie rests on a valid verdict of gpg and carries its fingerprint. -/
theorem submission_cookie {env : SubmitEnv} {st : Stores} {mid : Interim}
    (h : (submission x plcf r env st mid).answer.setCookie = some (.text cookie)) :
    ∃ msg, (gpgVerify plcf.gpgPath plcf.keyring msg env.verify.gpg).2.valid = true ∧
      cookie = grantedCookie x plcf r env.verify.post.grant.now
        (gpgVerify plcf.gpgPath plcf.keyring msg env.verify.gpg).2.fpr := by
  refine ⟨signedMsg (env.bufs.flatMap BodyBuf.bytes), ?_⟩
  unfold submission at h
  rcases authSubmit_cases env st with ⟨out, hOut, -, hNone⟩ | hPosted | hInline
  · rw [hOut] at h
    cases hNone.symm.trans h
  · rw [hPosted] at h
    have hVerdict := gpgThread_verdict x plcf ⟨signedMsg (env.bufs.flatMap BodyBuf.bytes),
      (binding plcf r).1, (binding plcf r).2⟩ env.verify.gpg env.verify.post.consume mid.nonce
    simp only [VerifyResult.verdict, Prod.mk.injEq] at hVerdict
    rw [← hVerdict.1, ← hVerdict.2.1]
    exact verifyThreadDone_setCookie h
  · rw [hInline] at h
    exact verifyInline_setCookie h

/-! ## From the grant to the answer -/

theorem finalizeRequest_answered {rc : Rc} {page : Option Page} {headers : Headers}
    (h : (finalizeRequest rc page headers).status ≠ none) :
    (finalizeRequest rc page headers).setCookie = headers.setCookie := by
  cases page with
  | some page => rfl
  | none =>
      cases rc with
      | http status => rfl
      | ok | error | again | busy | done | declined | abort => exact absurd rfl h

/-- A redirect after a successful grant has its cookie. -/
theorem finish_redirect {rc : Rc} {headers : Headers} {events : List Event} {diag : Option Diag}
    {env : FinalizeEnv} {st : Stores}
    (hGrant : rc = .error ∨ ∃ cookie, headers.setCookie = some (.text cookie))
    (h : (finish x plcf r rc headers events diag env st).answer.status = some 303) :
    ∃ cookie, (finish x plcf r rc headers events diag env st).answer.setCookie =
      some (.text cookie) := by
  have hAnswered : ∀ rc' page, (finalizeRequest rc' page headers).status = some 303 → rc ≠ .error →
      ∃ cookie, (finalizeRequest rc' page headers).setCookie = some (.text cookie) := by
    intro rc' page hStatus hRc
    rw [finalizeRequest_answered (by rw [hStatus]; exact Option.some_ne_none 303)]
    exact hGrant.resolve_left hRc
  unfold finish verifyFinalize at h ⊢
  dsimp only at h ⊢
  split at h
  · cases h
  · rename_i hAbort
    rw [if_neg hAbort]
    split at h
    · cases h
    · rename_i hError
      rw [if_neg hError]
      split at h
      · rename_i hRedirect
        rw [if_pos hRedirect]
        split at h
        · rename_i hSend
          rw [if_pos hSend]
          exact hAnswered _ _ h hError
        · rename_i hSend
          rw [if_neg hSend]
          exact hGrant.resolve_left hError
      · rename_i hRedirect
        rw [if_neg hRedirect]
        exact hAnswered _ _ h hError

theorem grant_cookie (hmac : Hmac) (plcf : LocConf) (r : Request) (fpr : Bytes) (env : GrantEnv) :
    (grant hmac plcf r fpr env).1 = .error ∨
      ∃ cookie, (grant hmac plcf r fpr env).2.setCookie = some (.text cookie) := by
  unfold grant
  dsimp only
  split
  · exact .inl rfl
  · split
    · exact .inl rfl
    · split_ifs
      · exact .inl rfl
      · exact .inl rfl
      · exact .inl rfl
      · exact .inl rfl
      · exact .inr ⟨_, rfl⟩

theorem verifyPost_cookie {env : PostEnv} {vr : VerifyResult} {st : Stores}
    (h : (verifyPost x plcf r env vr st).event.result = .granted) :
    (verifyPost x plcf r env vr st).rc = .error ∨
      ∃ cookie, (verifyPost x plcf r env vr st).headers.setCookie = some (.text cookie) := by
  obtain ⟨hNot, -⟩ | hGranted := verifyPost_cases x plcf r env vr st
  · exact absurd h hNot
  · rw [hGranted.rc, hGranted.headers]
    exact grant_cookie _ _ _ _ _

theorem verifyInline_redirect {msg : Bytes} {env : VerifyEnv} {st : Stores}
    (hGranted : (verifyInline x plcf r msg env st).granted = true)
    (h : (verifyInline x plcf r msg env st).answer.status = some 303) :
    ∃ cookie, (verifyInline x plcf r msg env st).answer.setCookie = some (.text cookie) := by
  unfold verifyInline at hGranted h ⊢
  dsimp only at hGranted h ⊢
  split at hGranted
  · simp [Outcome.granted, finish] at hGranted
  · rename_i hOk
    rw [if_neg hOk] at h ⊢
    exact finish_redirect (verifyPost_cookie (by simpa [Outcome.granted, finish] using hGranted)) h

/-- A granted login that is redirected has a cookie. -/
theorem submission_redirect {env : SubmitEnv} {st : Stores} {mid : Interim}
    (hGranted : (submission x plcf r env st mid).granted = true)
    (h : (submission x plcf r env st mid).answer.status = some 303) :
    ∃ cookie, (submission x plcf r env st mid).answer.setCookie = some (.text cookie) := by
  unfold submission at hGranted h ⊢
  rcases authSubmit_cases env st with ⟨out, hOut, hNot, -⟩ | hPosted | hInline
  · rw [hOut] at hGranted
    cases hNot.symm.trans hGranted
  · rw [hPosted] at hGranted h ⊢
    obtain ⟨hOk, hEvent⟩ := verifyThreadDone_granted hGranted
    unfold verifyThreadDone at h ⊢
    dsimp only at h ⊢
    rw [if_neg (by simpa using hOk)] at h ⊢
    exact finish_redirect (verifyPost_cookie hEvent) h
  · rw [hInline] at hGranted h ⊢
    exact verifyInline_redirect hGranted h

end Submission

theorem cookieShape_grantedCookie (x : Externals) (plcf : LocConf) (r : Request) {now : Nat}
    {fpr : Bytes} (hNow : now ≤ maxTime) (hTimeout : plcf.sessionTimeout ≤ maxTime)
    (hLength : fpr.length ≤ fprRoom) (hHex : ∀ b ∈ fpr, isHexDigit b = true) :
    ∃ mac, CookieShape plcf now fpr mac (grantedCookie x plcf r now fpr) := by
  refine ⟨macHex x.hmac plcf.secret (tokenInput plcf (binding plcf r).1 (binding plcf r).2 .sess
    (sessionPayload (sessionExp plcf now) fpr)), ?_⟩
  obtain ⟨hMacLength, hMacHex⟩ := macHex_shape x.hmac plcf.secret (tokenInput plcf
    (binding plcf r).1 (binding plcf r).2 .sess (sessionPayload (sessionExp plcf now) fpr))
  refine ⟨?_, hLength, hHex, hMacLength, hMacHex, length_sessionPayload_le hNow hTimeout fpr,
    length_cookieText_le _ _ _⟩
  have hPipe : ascii "|" = [pipe] := by decide
  simp [grantedCookie, cookieText, cookieAttributes, sessionPayload, hPipe]

/-- Whatever gpg writes, a granted login sets a cookie of the one shape, complete and
within its buffers; neither buffer is too small for any fingerprint. Only a grant that finds no
memory for the cookie pushes an element without a text, and no redirect has that. -/
theorem subprocess_cannot_shape_cookie (x : Externals) (plcf : LocConf) (r : Request)
    (env : SubmitEnv) (st : Stores) (mid : Interim)
    (hNow : env.verify.post.grant.now ≤ maxTime) (hTimeout : plcf.sessionTimeout ≤ maxTime) :
    ((submission x plcf r env st mid).granted = true →
        (submission x plcf r env st mid).answer.status = some 303 →
          ∃ cookie, (submission x plcf r env st mid).answer.setCookie = some (.text cookie)) ∧
      (∀ cookie, (submission x plcf r env st mid).answer.setCookie = some (.text cookie) →
        ∃ fpr mac, CookieShape plcf env.verify.post.grant.now fpr mac cookie) ∧
      ∀ fpr mac payload,
        payload = sessionPayload (sessionExp plcf env.verify.post.grant.now) fpr →
          payload.length ≤ timeTLen + 1 + fpr.length ∧
            (cookieText plcf payload mac).length ≤ cookieSize plcf payload mac := by
  refine ⟨submission_redirect, ?_, ?_⟩
  · intro cookie hCookie
    obtain ⟨msg, hValid, rfl⟩ := submission_cookie hCookie
    exact ⟨_, cookieShape_grantedCookie x plcf r hNow hTimeout (gpgVerify_fpr_length hValid)
      (gpgVerify_fpr_hex hValid)⟩
  · rintro fpr mac _ rfl
    exact ⟨length_sessionPayload_le hNow hTimeout fpr, length_cookieText_le _ _ _⟩

/-- The sample key signs the sample challenge in its last second. -/
def lastSecond : SubmitEnv where
  bufs := [.memory clearSignedTag]
  bodyAlloc := true
  vrAlloc := true
  taskAlloc := true
  taskPost := true
  verify := ⟨sampleSigned, calmPost 1000 [], calmFinalize 1000⟩

def lastSecondCookie : Bytes :=
  ascii ("__Host-pgp_session=4600|0123456789ABCDEF0123456789ABCDEF01234567|" ++
    "7816d28fd796e6b43388395c1655ae8027e48df821701fc9a7125c2385fbf259" ++
    "; Path=/; HttpOnly; SameSite=Lax; Secure")

theorem lastSecond_cookie_shape :
    ∃ fpr mac, CookieShape sampleConf 1000 fpr mac lastSecondCookie :=
  (subprocess_cannot_shape_cookie { sampleExternals with hmac := sampleHmacs } sampleConf
    sampleRequest lastSecond .empty ⟨.empty, .empty⟩ (by decide) (by decide)).2.1 lastSecondCookie
      (by
        rw [lastSecondCookie, ascii_append, ascii_append]
        repeat rw [ascii_ofList]
        decide +kernel)

end PgpAuth
