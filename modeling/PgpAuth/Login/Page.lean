import PgpAuth.Lib.Buffer
import PgpAuth.Login.Handler
import PgpAuth.Token.RoundTrip

/-!
# The login page, byte by byte

`sendChallenge` keeps of the page its status and its challenge. Here
`ngx_http_pgp_send_challenge` writes into the memory it allocates: `ngx_sprintf` and
`ngx_cpymem` do not look at the size, so an allocation that is too small has no result, and
`ngx_snprintf` cuts off what does not fit.

`sendChallengeBytes_reads`: the allocations are large enough for every time and every token,
nothing is cut off, and who reads the challenge out of the page reads the one of
`sendChallenge`.
-/

namespace PgpAuth

open Lib

/-! ## The texts -/

/-- `ngx_http_pgp_page_head` -/
def pageHead : Bytes :=
  ascii "<!DOCTYPE html><html><head><meta charset=\"utf-8\">" ++
  ascii "<meta name=\"viewport\" content=\"width=device-width, initial-scale=1\">" ++
  ascii "<title>PGP authentication</title><style>" ++
  ascii "body\x7bfont-family:system-ui,sans-serif;max-width:640px;margin:40px auto;" ++
  ascii "padding:0 16px;color:#222\x7dtextarea\x7bwidth:100%;box-sizing:border-box;" ++
  ascii "font-family:monospace;font-size:13px\x7dcode\x7bbackground:#f4f4f4;padding:2px 4px\x7d" ++
  ascii ".err\x7bcolor:#b00;font-weight:bold\x7d" ++
  ascii ".box\x7bbackground:#f7f7f7;border:1px solid #ddd;" ++
  ascii "padding:8px;border-radius:6px\x7d</style></head><body>" ++
  ascii "<h2>PGP authentication required</h2>"

def pageNotice : Bytes :=
  ascii "<p class=\"err\">Verification failed. " ++
  ascii "Please sign a fresh challenge below.</p>"

/-- The template up to the challenge. -/
def pageSteps : Bytes :=
  ascii "<ol><li>Copy the challenge below.</li>" ++
  ascii "<li>Sign it with your key (e.g. Kleopatra &rarr; Notepad &rarr; " ++
  ascii "Sign).</li>" ++
  ascii "<li>Paste the signed block back and submit.</li></ol>" ++
  ascii "<p><b>Challenge:</b></p>" ++
  ascii "<textarea class=\"box\" rows=\"2\" readonly " ++
  ascii "onclick=\"this.select()\">"

/-- `NGX_HTTP_PGP_FIELD` -/
def fieldName : Bytes := ascii "signed"

/-- The template behind the challenge, with its two other arguments. -/
def pageForm : List Bytes :=
  [ascii "</textarea>" ++ ascii "<form method=\"POST\" action=\"?",
    authArg,
    ascii "=1\">" ++ ascii "<p><b>Signed message:</b></p>" ++ ascii "<textarea name=\"",
    fieldName,
    ascii "\" rows=\"14\" " ++
      ascii "placeholder=\"-----BEGIN PGP SIGNED MESSAGE-----\" required></textarea>" ++
      ascii "<p><button type=\"submit\">Authenticate</button></p>" ++
      ascii "</form></body></html>"]

/-- `sec_headers` -/
def secHeaders : List (Bytes × Bytes) :=
  [(ascii "X-Frame-Options", ascii "DENY"),
    (ascii "X-Content-Type-Options", ascii "nosniff"),
    (ascii "Content-Security-Policy",
      ascii "default-src 'none'; style-src 'unsafe-inline'; " ++ ascii "frame-ancestors 'none'"),
    (ascii "Cache-Control", ascii "no-store"),
    (ascii "Referrer-Policy", ascii "no-referrer")]

/-- The whole page for a challenge. -/
def pageText (failed : Bool) (challenge : Bytes) : Bytes :=
  pageHead ++ (if failed then pageNotice else []) ++ pageSteps ++ challenge ++ pageForm.flatten

/-! ## Writing it -/

/-- `NGX_TIME_T_LEN` where `time_t` has 64 bits. -/
def timeLen : Nat := 20

/-- The slack of the page's allocation. -/
def pageSlack : Nat := 2048

/-- `"v1|%T|%*s"`, into memory for the longest `time_t`. -/
def payloadBuffer (exp : Nat) (nonceHex : Bytes) :
    Option (Buffer UInt8 ((ascii "v1|").length + timeLen + 1 + 32)) :=
  (Buffer.empty _).format [ascii "v1|", decimal exp, [pipe], nonceHex]

/-- `"%*s|%V"` -/
def challengeBuffer (payload mac : Bytes) :
    Option (Buffer UInt8 (payload.length + 1 + mac.length)) :=
  (Buffer.empty _).format [payload, [pipe], mac]

/-- Head, notice and template. The notice is left out where it does not fit. -/
def bodyBuffer (failed : Bool) (challenge : Bytes) :
    Option (Buffer UInt8 (pageHead.length + challenge.length + pageSlack)) := do
  let page ← (Buffer.empty _).copy pageHead
  let page ← if failed ∧ pageNotice.length < page.room then page.copy pageNotice else some page
  return page.print (pageSteps :: challenge :: pageForm)

/-- A response as it goes out; no body for a header-only request or where its buffer
cannot be had. -/
structure SentPage where
  status : Nat
  contentLength : Nat
  contentType : Bytes
  headers : List (Bytes × Bytes)
  body : Option Bytes
  deriving DecidableEq, Repr

/-- Headers, and the body where one goes out. -/
def sendPage (r : Request) (failed : Bool) (env : ChallengeEnv) (body : Bytes) :
    Rc × Option SentPage :=
  let sent (b : Option Bytes) : SentPage :=
    ⟨if failed then 403 else 200, body.length, ascii "text/html", secHeaders, b⟩
  if env.pushHeaders = false then (.http 500, none)
  else if env.sendHeader = .error ∨ 0 < env.sendHeader.code then (env.sendHeader, none)
  else if r.headerOnly then (env.sendHeader, some (sent none))
  else if env.bufAlloc = false then (.http 500, some (sent none))
  else (env.outputFilter, some (sent (some body)))

/-- `ngx_http_pgp_send_challenge` with its memory. The outer `none` is a write past the end
of an allocation. -/
def sendChallengeBytes (hmac : Hmac) (plcf : LocConf) (r : Request) (failed : Bool)
    (env : ChallengeEnv) : Option (Rc × Option SentPage) :=
  match env.random with
  | none => some (.http 500, none)
  | some nonce =>
      if env.payloadAlloc = false then some (.http 500, none)
      else do
        let payload ← payloadBuffer (env.now + plcf.challengeTimeout) (hexDump nonce.val)
        match hmacHex hmac env.hmac plcf r .chal payload.written with
        | none => some (.http 500, none)
        | some mac =>
            if env.challengeAlloc = false then some (.http 500, none)
            else do
              let challenge ← challengeBuffer payload.written mac
              if env.bodyAlloc = false then some (.http 500, none)
              else do
                let body ← bodyBuffer failed challenge.written
                return sendPage r failed env body.written

/-! ## Reading it -/

/-- What follows the first `needle`. -/
def afterFirst (needle : Bytes) : Bytes → Option Bytes
  | [] => if needle = [] then some [] else none
  | b :: bs =>
      if needle.isPrefixOf (b :: bs) then some ((b :: bs).drop needle.length)
      else afterFirst needle bs

/-- The text of the first `<textarea>`. One with a character reference is not read. -/
def boxText (page : Bytes) : Option Bytes := do
  let rest ← afterFirst (ascii "<textarea") page
  let (_, rest) ← cut (charByte '>') rest
  let text := rest.takeWhile (· != charByte '<')
  if charByte '&' ∈ text then none else some text

/-- The status, and the challenge read out of the body. -/
def SentPage.page (p : SentPage) : Page := ⟨p.status, p.body.bind boxText⟩

/-! ## Everything fits -/

theorem payloadBuffer_written {exp : Nat} {nonceHex : Bytes} (hExp : exp ≤ maxTime)
    (hNonce : nonceHex.length = 32) :
    ∃ b, payloadBuffer exp nonceHex = some b ∧ b.written = challengePayload exp nonceHex := by
  have hDigits : (decimal exp).length ≤ timeLen := by
    refine (length_decimal_le_iff (by decide)).mpr (Nat.lt_of_le_of_lt hExp ?_)
    decide
  have hText : [ascii "v1|", decimal exp, [pipe], nonceHex].flatten =
      challengePayload exp nonceHex := by
    have hTag : ascii "v1|" = ascii "v1" ++ [pipe] := by decide +kernel
    simp [challengePayload, hTag]
  rw [← hText]
  refine Buffer.format_of_fits ?_
  simp only [Buffer.written_empty, List.nil_append, List.flatten_cons, List.flatten_nil,
    List.append_nil, List.length_append, List.length_cons, List.length_nil]
  omega

theorem challengeBuffer_written (payload mac : Bytes) :
    ∃ b, challengeBuffer payload mac = some b ∧ b.written = challengeText payload mac := by
  have hText : [payload, [pipe], mac].flatten = challengeText payload mac := by
    simp [challengeText]
  rw [← hText]
  refine Buffer.format_of_fits ?_
  rw [hText, challengeText, Buffer.written_empty, List.nil_append, List.length_append,
    List.length_cons]
  omega

theorem length_pageNotice : pageNotice.length = 76 := by
  rw [pageNotice]
  repeat rw [ascii_ofList]
  decide +kernel

theorem length_pageSteps : pageSteps.length = 254 := by
  rw [pageSteps]
  repeat rw [ascii_ofList]
  decide +kernel

theorem length_pageForm : pageForm.flatten.length = 257 := by
  rw [pageForm, authArg, fieldName]
  repeat rw [ascii_ofList]
  decide +kernel

theorem bodyBuffer_written (failed : Bool) (challenge : Bytes) :
    ∃ b, bodyBuffer failed challenge = some b ∧ b.written = pageText failed challenge := by
  have hNotice := length_pageNotice
  have hSteps := length_pageSteps
  have hForm := length_pageForm
  have hSlack : pageSlack = 2048 := rfl
  have hPrint : ∀ b : Buffer UInt8 (pageHead.length + challenge.length + pageSlack),
      b.written.length ≤ pageHead.length + pageNotice.length →
      (b.print (pageSteps :: challenge :: pageForm)).written =
        b.written ++ pageSteps ++ challenge ++ pageForm.flatten := by
    intro b hb
    rw [Buffer.written_print_of_fits]
    · simp only [List.flatten_cons, List.append_assoc]
    · simp only [List.flatten_cons, List.length_append, Buffer.room]
      omega
  obtain ⟨b, hCopy, hHead⟩ := Buffer.copy_of_fits
    (Buffer.empty (pageHead.length + challenge.length + pageSlack)) pageHead (by
      rw [Buffer.written_empty, List.nil_append]
      omega)
  rw [Buffer.written_empty, List.nil_append] at hHead
  rw [bodyBuffer, hCopy, Option.bind_eq_bind, Option.bind_some]
  cases failed with
  | false =>
      refine ⟨_, rfl, ?_⟩
      rw [hPrint b (by rw [hHead]; omega), hHead, pageText]
      simp only [Bool.false_eq_true, if_false, List.append_nil]
  | true =>
      have hRoom : pageNotice.length < b.room := by
        rw [Buffer.room, hHead]
        omega
      obtain ⟨b', hCopy', hBoth⟩ := Buffer.copy_of_fits b pageNotice (by
        rw [hHead, List.length_append]
        omega)
      rw [hHead] at hBoth
      rw [if_pos ⟨rfl, hRoom⟩, hCopy']
      refine ⟨_, rfl, ?_⟩
      rw [hPrint b' (by rw [hBoth, List.length_append]), hBoth, pageText, if_pos rfl]

/-! ## The challenge is read back -/

theorem length_le_of_afterFirst {needle xs rest : Bytes} (h : afterFirst needle xs = some rest) :
    needle.length ≤ xs.length := by
  induction xs with
  | nil =>
      rw [afterFirst] at h
      split at h
      · simp_all
      · cases h
  | cons b bs ih =>
      rw [afterFirst] at h
      split at h
      · rename_i hPrefix
        exact (List.isPrefixOf_iff_prefix.mp hPrefix).length_le
      · exact Nat.le_succ_of_le (ih h)

/-- What is found stays found when more follows. -/
theorem afterFirst_append {needle xs rest : Bytes} (h : afterFirst needle xs = some rest)
    (more : Bytes) : afterFirst needle (xs ++ more) = some (rest ++ more) := by
  induction xs with
  | nil =>
      rw [afterFirst] at h
      split at h
      · rename_i hNil
        cases h
        subst hNil
        cases more <;> rfl
      · cases h
  | cons b bs ih =>
      have hLen := length_le_of_afterFirst h
      rw [afterFirst] at h
      rw [List.cons_append, afterFirst]
      simp only [List.isPrefixOf_iff_prefix] at h ⊢
      split at h
      · rename_i hPrefix
        cases h
        rw [← List.cons_append, if_pos (hPrefix.trans (List.prefix_append _ _)),
          List.drop_append_of_le_length hLen]
      · rename_i hNot
        have hNot' : ¬needle <+: b :: (bs ++ more) := fun hPrefix =>
          hNot (List.prefix_of_prefix_length_le hPrefix (List.prefix_append (b :: bs) more) hLen)
        rw [if_neg hNot']
        exact ih h

/-- The first text area of the page is the one for the challenge. -/
theorem afterFirst_pageText (failed : Bool) (challenge : Bytes) :
    afterFirst (ascii "<textarea") (pageText failed challenge) =
      some (ascii " class=\"box\" rows=\"2\" readonly onclick=\"this.select()\"" ++ charByte '>' ::
        (challenge ++ pageForm.flatten)) := by
  have hFound : afterFirst (ascii "<textarea")
      (pageHead ++ (if failed then pageNotice else []) ++ pageSteps) =
        some (ascii " class=\"box\" rows=\"2\" readonly onclick=\"this.select()\"" ++
          [charByte '>']) := by
    simp only [pageHead, pageNotice, pageSteps, List.append_assoc]
    repeat rw [ascii_ofList]
    cases failed <;> decide +kernel
  rw [pageText, List.append_assoc _ challenge, afterFirst_append hFound]
  simp

/-- The bytes of a token are safe in HTML. -/
def isTokenByte (b : UInt8) : Bool := isHexDigit b || b == charByte 'v' || b == pipe

theorem boxText_pageText (failed : Bool) {challenge : Bytes}
    (h : ∀ b ∈ challenge, isTokenByte b = true) :
    boxText (pageText failed challenge) = some challenge := by
  have hAttrs : charByte '>' ∉
      ascii " class=\"box\" rows=\"2\" readonly onclick=\"this.select()\"" := by decide +kernel
  have hLt : ∀ b ∈ challenge, (b != charByte '<') = true := by
    intro b hb
    rw [bne_iff_ne]
    rintro rfl
    exact absurd (h _ hb) (by decide)
  have hAmp : charByte '&' ∉ challenge := fun hb => absurd (h _ hb) (by decide)
  obtain ⟨rest, hForm⟩ : ∃ rest, pageForm.flatten = charByte '<' :: rest := by
    have hClose : ascii "</textarea>" = charByte '<' :: ascii "/textarea>" := by decide +kernel
    exact ⟨_, by rw [pageForm, hClose]; rfl⟩
  have hText : (challenge ++ pageForm.flatten).takeWhile (· != charByte '<') = challenge := by
    rw [hForm, List.takeWhile_append_of_pos hLt]
    simp
  simp only [boxText, afterFirst_pageText, Option.bind_eq_bind, Option.bind_some,
    cut_append hAttrs, hText, if_neg hAmp]

theorem isTokenByte_challenge (exp : Nat) (nonce : Bytes) (hmac : Hmac) (secret input : Bytes) :
    ∀ b ∈ challengeText (challengePayload exp (hexDump nonce)) (macHex hmac secret input),
      isTokenByte b = true := by
  intro b hb
  have hHex : isHexDigit b = true → isTokenByte b = true := fun h => by simp [isTokenByte, h]
  have hTag : ∀ c ∈ ascii "v1", isTokenByte c = true := by decide +kernel
  simp only [challengeText, challengePayload, macHex, List.mem_append, List.mem_cons] at hb
  rcases hb with (hb | rfl | hb | rfl | hb) | rfl | hb
  · exact hTag b hb
  · decide
  · exact hHex (hex_of_decimal b hb)
  · decide
  · exact hHex (isHexDigit_of_mem_hexDump hb)
  · decide
  · exact hHex (isHexDigit_of_mem_hexDump hb)

/-! ## The page that goes out -/

/-- A page as it should be: the length and the headers are right, and the body is the whole
text around a challenge that needs no escaping. -/
structure SentPage.Complete (failed : Bool) (p : SentPage) : Prop where
  status : p.status = if failed then 403 else 200
  headers : p.headers = secHeaders ∧ p.contentType = ascii "text/html"
  body : ∀ body, p.body = some body →
    p.contentLength = body.length ∧
      ∃ challenge, body = pageText failed challenge ∧ ∀ b ∈ challenge, isTokenByte b = true

theorem sendPage_complete (r : Request) (failed : Bool) (env : ChallengeEnv) {challenge : Bytes}
    (h : ∀ b ∈ challenge, isTokenByte b = true) :
    ∀ p ∈ (sendPage r failed env (pageText failed challenge)).2, p.Complete failed := by
  have hBare : SentPage.Complete failed ⟨if failed then 403 else 200,
      (pageText failed challenge).length, ascii "text/html", secHeaders, none⟩ :=
    ⟨rfl, ⟨rfl, rfl⟩, by simp⟩
  intro p hp
  unfold sendPage at hp
  dsimp only at hp
  by_cases hPush : env.pushHeaders = false
  · simp [hPush] at hp
  by_cases hHeader : env.sendHeader = .error ∨ 0 < env.sendHeader.code
  · simp [hPush, hHeader] at hp
  rw [if_neg hPush, if_neg hHeader] at hp
  by_cases hOnly : r.headerOnly = true
  · rw [if_pos hOnly] at hp
    cases hp
    exact hBare
  by_cases hBuf : env.bufAlloc = false
  · rw [if_neg hOnly, if_pos hBuf] at hp
    cases hp
    exact hBare
  · rw [if_neg hOnly, if_neg hBuf] at hp
    cases hp
    refine ⟨rfl, ⟨rfl, rfl⟩, ?_⟩
    rintro body ⟨⟩
    exact ⟨rfl, challenge, rfl, h⟩

/-- Read by a client, it is the page of `sendChallenge`. -/
theorem sendPage_read (r : Request) (failed : Bool) (env : ChallengeEnv) {body challenge : Bytes}
    (hRead : boxText body = some challenge) :
    let out := sendPage r failed env body
    (out.1, out.2.map SentPage.page) =
      if env.pushHeaders = false then (.http 500, none)
      else
        let status := if failed then 403 else 200
        if env.sendHeader = .error ∨ 0 < env.sendHeader.code then (env.sendHeader, none)
        else if r.headerOnly then (env.sendHeader, some ⟨status, none⟩)
        else if env.bufAlloc = false then (.http 500, some ⟨status, none⟩)
        else (env.outputFilter, some ⟨status, some challenge⟩) := by
  unfold sendPage
  by_cases hPush : env.pushHeaders = false
  · simp only [if_pos hPush, Option.map_none]
  by_cases hHeader : env.sendHeader = .error ∨ 0 < env.sendHeader.code
  · simp only [if_neg hPush, if_pos hHeader, Option.map_none]
  by_cases hOnly : r.headerOnly = true
  · simp only [if_neg hPush, if_neg hHeader, if_pos hOnly, Option.map_some, SentPage.page,
      Option.bind_none]
  by_cases hBuf : env.bufAlloc = false
  · simp only [if_neg hPush, if_neg hHeader, if_neg hOnly, if_pos hBuf, Option.map_some,
      SentPage.page, Option.bind_none]
  · simp only [if_neg hPush, if_neg hHeader, if_neg hOnly, if_neg hBuf, Option.map_some,
      SentPage.page, Option.bind_some, hRead]

/-- `sendChallengeBytes` where all memory is large enough. -/
def challengePage (hmac : Hmac) (plcf : LocConf) (r : Request) (failed : Bool)
    (env : ChallengeEnv) : Rc × Option SentPage :=
  match env.random with
  | none => (.http 500, none)
  | some nonce =>
      if env.payloadAlloc = false then (.http 500, none)
      else
        let payload := challengePayload (env.now + plcf.challengeTimeout) (hexDump nonce.val)
        match hmacHex hmac env.hmac plcf r .chal payload with
        | none => (.http 500, none)
        | some mac =>
            if env.challengeAlloc = false ∨ env.bodyAlloc = false then (.http 500, none)
            else sendPage r failed env (pageText failed (challengeText payload mac))

section

variable (hmac : Hmac) (plcf : LocConf) (r : Request) (failed : Bool) (env : ChallengeEnv)

theorem sendChallengeBytes_eq (hTime : env.now + plcf.challengeTimeout ≤ maxTime) :
    sendChallengeBytes hmac plcf r failed env = some (challengePage hmac plcf r failed env) := by
  unfold sendChallengeBytes challengePage
  cases env.random with
  | none => rfl
  | some nonce =>
      dsimp only
      by_cases hPayload : env.payloadAlloc = false
      · rw [if_pos hPayload, if_pos hPayload]
      rw [if_neg hPayload, if_neg hPayload]
      obtain ⟨payload, hFormat, hWritten⟩ := payloadBuffer_written hTime
        (show (hexDump nonce.val).length = 32 by rw [length_hexDump, nonce.2])
      rw [hFormat, Option.bind_eq_bind, Option.bind_some, hWritten]
      cases hmacHex hmac env.hmac plcf r .chal
          (challengePayload (env.now + plcf.challengeTimeout) (hexDump nonce.val)) with
      | none => rfl
      | some mac =>
          obtain ⟨challenge, hChallenge, hText⟩ := challengeBuffer_written
            (challengePayload (env.now + plcf.challengeTimeout) (hexDump nonce.val)) mac
          obtain ⟨body, hBody, hPage⟩ := bodyBuffer_written failed challenge.written
          replace hPage := hPage.trans (congrArg (pageText failed) hText)
          simp only [hChallenge, Option.bind_eq_bind, Option.bind_some, hBody, hPage]
          cases env.challengeAlloc <;> cases env.bodyAlloc <;> rfl

/-- The challenge in a page is a token. -/
theorem challengePage_cases :
    challengePage hmac plcf r failed env = (.http 500, none) ∧
        sendChallenge hmac plcf r failed env = (.http 500, none) ∨
      ∃ challenge, (∀ b ∈ challenge, isTokenByte b = true) ∧
        challengePage hmac plcf r failed env =
          sendPage r failed env (pageText failed challenge) ∧
        sendChallenge hmac plcf r failed env =
          if env.pushHeaders = false then (.http 500, none)
          else
            let status := if failed then 403 else 200
            if env.sendHeader = .error ∨ 0 < env.sendHeader.code then (env.sendHeader, none)
            else if r.headerOnly then (env.sendHeader, some ⟨status, none⟩)
            else if env.bufAlloc = false then (.http 500, some ⟨status, none⟩)
            else (env.outputFilter, some ⟨status, some challenge⟩) := by
  unfold challengePage sendChallenge
  cases env.random with
  | none => exact .inl ⟨rfl, rfl⟩
  | some nonce =>
      dsimp only
      by_cases hPayload : env.payloadAlloc = false
      · rw [if_pos hPayload, if_pos hPayload]
        exact .inl ⟨rfl, rfl⟩
      rw [if_neg hPayload, if_neg hPayload]
      cases hMac : hmacHex hmac env.hmac plcf r .chal
          (challengePayload (env.now + plcf.challengeTimeout) (hexDump nonce.val)) with
      | none => exact .inl ⟨rfl, rfl⟩
      | some mac =>
          obtain ⟨-, rfl⟩ := hmacHex_eq_some.mp hMac
          dsimp only
          cases env.challengeAlloc <;> cases env.bodyAlloc
          case true.true =>
            refine .inr ⟨_, isTokenByte_challenge _ _ _ _ _, if_neg (by simp), ?_⟩
            simp only [Bool.true_eq_false, false_or]
          all_goals exact .inl ⟨by simp, by simp⟩

/-- Read by a client, it is the page of `sendChallenge`. -/
theorem challengePage_read :
    ((challengePage hmac plcf r failed env).1,
        (challengePage hmac plcf r failed env).2.map SentPage.page) =
      sendChallenge hmac plcf r failed env := by
  rcases challengePage_cases hmac plcf r failed env with ⟨hPage, hSend⟩ | ⟨challenge, hToken,
    hPage, hSend⟩
  · rw [hPage, hSend]
    rfl
  · rw [hPage, hSend]
    exact sendPage_read r failed env (boxText_pageText failed hToken)

/-- No write runs past its memory. The answer is that of `sendChallenge`, with the page
complete and the challenge in it for the client to read. -/
theorem sendChallengeBytes_reads (hTime : env.now + plcf.challengeTimeout ≤ maxTime) :
    ∃ sent, sendChallengeBytes hmac plcf r failed env =
        some ((sendChallenge hmac plcf r failed env).1, sent) ∧
      sent.map SentPage.page = (sendChallenge hmac plcf r failed env).2 ∧
      ∀ p ∈ sent, p.Complete failed := by
  refine ⟨(challengePage hmac plcf r failed env).2, ?_, ?_, ?_⟩
  · rw [sendChallengeBytes_eq hmac plcf r failed env hTime, ← challengePage_read]
  · rw [← challengePage_read]
  · rcases challengePage_cases hmac plcf r failed env with ⟨hPage, -⟩ | ⟨challenge, hToken,
      hPage, -⟩
    · rw [hPage]
      simp
    · rw [hPage]
      exact sendPage_complete r failed env hToken

end

/-- The sample page carries the sample challenge. -/
theorem samplePage_reads :
    ∃ sent, sendChallengeBytes sampleHmac sampleConf sampleRequest false samplePage =
        some (.ok, sent) ∧
      sent.map SentPage.page = some ⟨200, some sampleChallenge⟩ := by
  obtain ⟨sent, hSent, hRead, -⟩ := sendChallengeBytes_reads sampleHmac sampleConf sampleRequest
    false samplePage (by decide +kernel)
  have hPage : sendChallenge sampleHmac sampleConf sampleRequest false samplePage =
      (.ok, some ⟨200, some sampleChallenge⟩) := by decide +kernel
  rw [hPage] at hSent hRead
  exact ⟨sent, hSent, hRead⟩

end PgpAuth
