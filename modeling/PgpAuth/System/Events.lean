import PgpAuth.System.Bans
import PgpAuth.System.Cookie

/-!
# The event log

The module writes `pgp_auth_event:` lines for a reader that goes by this mark and takes the
fields behind it: one for each decision about a request (`ngx_http_pgp_log_event`), and those
of the throttle, when it turns a client away and when it sets a ban. nginx ends a line in
texts of the client, such as the request line. `readEvent` is such a reader; it stops behind
the last field.

Of the fields, the address is nginx's and the fingerprint is what gpg's verdict carries,
which may come by way of a thread. The lines that any run writes are read back as what was
logged, whatever text of the client follows, and what a line tells has happened: a login in
that step, a refusal with 429, a failure that reached its limit.
-/

namespace PgpAuth

open Lib

/-! ## Lines -/

def EventResult.text : EventResult → String
  | denied => "denied"
  | error => "error"
  | granted => "granted"

/-- The line of an event, from the format of `ngx_http_pgp_log_event`. -/
def Event.line (e : Event) : Bytes :=
  ascii "pgp_auth_event: result=\"" ++ ascii e.result.text ++ ascii "\" reason=\"" ++
    ascii e.reason.text ++ ascii "\" fpr=\"" ++ (if e.fpr = [] then ascii "-" else e.fpr) ++
    ascii "\" ip=\"" ++ e.ip ++ ascii "\""

/-- `"` -/
def quote : UInt8 := 0x22

def EventResult.all : List EventResult := [.denied, .error, .granted]

def Reason.all : List Reason :=
  [.unauthenticatedSubrequest, .bodyAllocFailed, .unreadableBody, .notClearSigned,
    .unknownOrInvalidSignature, .revokedKey, .noChallengeInPlaintext, .malformedChallenge,
    .hmacComputationFailed, .challengeMacMismatch, .challengeExpired, .replay, .nonceStoreError,
    .validSignature, .unknown]

/-- The value that stands behind `label`, up to the quote, and what follows that. -/
def readField (label text : Bytes) : Option (Bytes × Bytes) :=
  if label.isPrefixOf text then cut quote (text.drop label.length) else none

/-- The number that stands behind `label`, up to the first byte that is no digit. -/
def readNumber (label text : Bytes) : Option (Nat × Bytes) :=
  if label.isPrefixOf text then
    let text := text.drop label.length
    let digits := text.takeWhile isDecDigit
    (readDecimal (10 ^ digits.length) digits).map fun n => (n, text.dropWhile isDecDigit)
  else none

/-- A line of the log: a decision, a client turned away, or a ban set. -/
inductive EventLine where
  | decision (e : Event)
  | throttled (ip : Bytes) (bannedFor : Nat)
  | triggered (ip : Bytes) (failures banSeconds : Nat)
  deriving DecidableEq, Repr

/-- The bytes of a line, from the formats of the three calls of `ngx_log_error`. -/
def EventLine.text : EventLine → Bytes
  | decision e => e.line
  | throttled ip bannedFor =>
      ascii "pgp_auth_event: result=\"denied\" reason=\"throttled\" ip=\"" ++ ip ++
        ascii "\" banned_for=" ++ decimal bannedFor
  | triggered ip failures banSeconds =>
      ascii "pgp_auth_event: result=\"throttle_triggered\" ip=\"" ++ ip ++
        ascii "\" failures=" ++ decimal failures ++ ascii " ban_seconds=" ++ decimal banSeconds

/-- The event at the start of a text, and what follows it. -/
def readEvent (text : Bytes) : Option (EventLine × Bytes) := do
  let (result, text) ← readField (ascii "pgp_auth_event: result=\"") text
  if result = ascii "throttle_triggered" then
    let (ip, text) ← readField (ascii " ip=\"") text
    let (failures, text) ← readNumber (ascii " failures=") text
    let (banSeconds, text) ← readNumber (ascii " ban_seconds=") text
    some (.triggered ip failures banSeconds, text)
  else
    let (reason, text) ← readField (ascii " reason=\"") text
    if reason = ascii "throttled" then
      let (ip, text) ← readField (ascii " ip=\"") text
      let (bannedFor, text) ← readNumber (ascii " banned_for=") text
      some (.throttled ip bannedFor, text)
    else
      let (fpr, text) ← readField (ascii " fpr=\"") text
      let (ip, text) ← readField (ascii " ip=\"") text
      let result ← EventResult.all.find? fun r => ascii r.text == result
      let reason ← Reason.all.find? fun r => ascii r.text == reason
      some (.decision ⟨result, reason, if fpr = ascii "-" then [] else fpr, ip⟩, text)

/-- The fields that come from outside have the alphabets and lengths they should have. -/
structure Event.Clean (e : Event) : Prop where
  fpr : ∀ b ∈ e.fpr, isHexDigit b = true
  room : e.fpr.length ≤ fprRoom
  ip : IsAddr e.ip

def EventLine.Clean : EventLine → Prop
  | decision e => e.Clean
  | throttled ip _ => IsAddr ip
  | triggered ip _ _ => IsAddr ip

/-- What may follow on the line: anything, but no further digit where it ends in a number. -/
def EventLine.EndsAt (l : EventLine) (rest : Bytes) : Prop :=
  match l with
  | decision _ => True
  | throttled _ _ | triggered _ _ _ => ∀ b ∈ rest.head?, isDecDigit b = false

/-- Its numbers are in the range of the 64-bit fields they come from. -/
def EventLine.Fits : EventLine → Prop
  | decision _ => True
  | throttled _ bannedFor => bannedFor < 2 ^ 64
  | triggered _ failures banSeconds => failures < 2 ^ 64 ∧ banSeconds < 2 ^ 64

theorem readField_append {label value : Bytes} (hValue : quote ∉ value) (rest : Bytes) :
    readField label (label ++ (value ++ quote :: rest)) = some (value, rest) := by
  rw [readField, if_pos (List.isPrefixOf_iff_prefix.mpr (List.prefix_append _ _)),
    List.drop_left, cut_append hValue]

theorem readNumber_append {label rest : Bytes} (n : Nat)
    (hRest : ∀ b ∈ rest.head?, isDecDigit b = false) :
    readNumber label (label ++ (decimal n ++ rest)) = some (n, rest) := by
  have hDigits : ∀ b ∈ decimal n, isDecDigit b = true := fun b hb => isDecDigit_of_mem_decimal hb
  have hStop : rest.takeWhile isDecDigit = [] ∧ rest.dropWhile isDecDigit = rest := by
    cases rest with
    | nil => exact ⟨rfl, rfl⟩
    | cons b rest => simp [hRest b rfl]
  have hLength : n < 10 ^ (decimal n).length :=
    (length_decimal_le_iff (List.length_pos_iff.mpr (decimal_ne_nil n))).mp (le_refl _)
  rw [readNumber, if_pos (List.isPrefixOf_iff_prefix.mpr (List.prefix_append _ _)),
    List.drop_left]
  dsimp only
  rw [List.takeWhile_append_of_pos hDigits, List.dropWhile_append_of_pos hDigits, hStop.1, hStop.2,
    List.append_nil, readDecimal_decimal, if_pos (Nat.le_of_lt hLength), Option.map_some]

/-- Among different values, each is found by itself. -/
theorem find?_of_nodup_map {α : Type} {f : α → Bytes} {l : List α} (hNodup : (l.map f).Nodup)
    {a : α} (ha : a ∈ l) : l.find? (fun b => f b == f a) = some a := by
  cases hFind : l.find? (fun b => f b == f a) with
  | none =>
      have hNot := List.find?_eq_none.mp hFind a ha
      simp at hNot
  | some b =>
      have hSame : f b = f a := by simpa using List.find?_some hFind
      have hMem := List.mem_of_find?_eq_some hFind
      exact congrArg some (List.inj_on_of_nodup_map hNodup hMem ha hSame)

/-- Bytes that a line holds: printable, and no control character among them. -/
def isPrint (b : UInt8) : Bool := 32 ≤ b && b < 127

theorem isPrint_of_isInetByte {b : UInt8} (h : isInetByte b = true) : isPrint b = true := by
  simp only [isInetByte, isHexDigit, isPrint, Bool.or_eq_true, Bool.and_eq_true, beq_iff_eq,
    decide_eq_true_eq, UInt8.le_iff_toNat_le, UInt8.lt_iff_toNat_lt, ← UInt8.toNat_inj,
    UInt8.reduceToNat] at h ⊢
  omega

theorem isPrint_of_isHexDigit {b : UInt8} (h : isHexDigit b = true) : isPrint b = true :=
  isPrint_of_isInetByte (by simp [isInetByte, h])

theorem IsAddr.isPrint {ip : Bytes} (h : IsAddr ip) : ∀ b ∈ ip, isPrint b = true := by
  rcases h with rfl | ⟨-, -, hInet⟩
  · rw [ascii_ofList]
    simp [PgpAuth.isPrint, charByte]
  · exact fun b hb => isPrint_of_isInetByte (hInet b hb)

theorem IsAddr.quote_notMem {ip : Bytes} (h : IsAddr ip) : quote ∉ ip := by
  have hQuote : isAddrByte quote = false := by
    rw [isAddrByte, ascii_ofList]
    simp [isInetByte, isHexDigit, quote, charByte]
  exact fun hm => ne_of_isAddrByte (h.bytes quote hm) hQuote rfl

/-- The texts of one field: different, printable, without a quote, and at most this long. Other
words that may stand there are none of them. -/
def Words (texts : List Bytes) (other : Bytes) (most : Nat) : Prop :=
  texts.Nodup ∧ ∀ text ∈ texts, quote ∉ text ∧ text ≠ other ∧ (∀ b ∈ text, isPrint b = true) ∧
    text.length ≤ most

theorem EventResult.mem_all (r : EventResult) : r ∈ EventResult.all := by
  cases r <;> simp [EventResult.all]

theorem Reason.mem_all (r : Reason) : r ∈ Reason.all := by
  cases r <;> simp [Reason.all]

theorem EventResult.words :
    Words (EventResult.all.map fun r => ascii r.text) (ascii "throttle_triggered") 7 := by
  simp only [Words, EventResult.all, List.map_cons, List.map_nil, EventResult.text]
  repeat rw [ascii_ofList]
  decide +kernel

theorem Reason.words : Words (Reason.all.map fun r => ascii r.text) (ascii "throttled") 28 := by
  simp only [Words, Reason.all, List.map_cons, List.map_nil, Reason.text]
  repeat rw [ascii_ofList]
  decide +kernel

theorem EventResult.text_spec (r : EventResult) :
    quote ∉ ascii r.text ∧ ascii r.text ≠ ascii "throttle_triggered" ∧
      (∀ b ∈ ascii r.text, isPrint b = true) ∧ (ascii r.text).length ≤ 7 :=
  EventResult.words.2 _ (List.mem_map_of_mem r.mem_all)

theorem Reason.text_spec (r : Reason) :
    quote ∉ ascii r.text ∧ ascii r.text ≠ ascii "throttled" ∧
      (∀ b ∈ ascii r.text, isPrint b = true) ∧ (ascii r.text).length ≤ 28 :=
  Reason.words.2 _ (List.mem_map_of_mem r.mem_all)

theorem EventResult.find_text (r : EventResult) :
    EventResult.all.find? (fun r' => ascii r'.text == ascii r.text) = some r :=
  find?_of_nodup_map EventResult.words.1 r.mem_all

theorem Reason.find_text (r : Reason) :
    Reason.all.find? (fun r' => ascii r'.text == ascii r.text) = some r :=
  find?_of_nodup_map Reason.words.1 r.mem_all

/-- What stands between the fields of a line. -/
def lineLabels : List String :=
  ["pgp_auth_event: result=\"", "\" reason=\"", "\" fpr=\"", "\" ip=\"", "\"",
    "pgp_auth_event: result=\"denied\" reason=\"throttled\" ip=\"", "\" banned_for=",
    "pgp_auth_event: result=\"throttle_triggered\" ip=\"", "\" failures=", " ban_seconds="]

theorem lineLabels_spec :
    lineLabels.map (fun label => (ascii label).length) = [24, 10, 7, 6, 1, 55, 13, 48, 11, 13] ∧
      ∀ label ∈ lineLabels, ∀ b ∈ ascii label, isPrint b = true := by
  simp only [lineLabels, List.map_cons, List.map_nil, List.forall_mem_cons]
  repeat rw [ascii_ofList]
  decide +kernel

theorem isPrint_of_mem_label {label : String} (hLabel : label ∈ lineLabels) {b : UInt8}
    (hb : b ∈ ascii label) : isPrint b = true :=
  lineLabels_spec.2 label hLabel b hb

section Line

variable {e : Event} (h : e.Clean)

include h

theorem Event.Clean.shown :
    let shown := if e.fpr = [] then ascii "-" else e.fpr
    quote ∉ shown ∧ (∀ b ∈ shown, isPrint b = true) ∧ shown.length ≤ fprRoom ∧
      (if shown = ascii "-" then [] else shown) = e.fpr := by
  by_cases hFpr : e.fpr = []
  · rw [hFpr, if_pos rfl, ascii_ofList]
    simp [quote, isPrint, charByte, fprRoom]
  · have hDash : e.fpr ≠ ascii "-" := by
      intro hEq
      have hHex := h.fpr (charByte '-') (by rw [hEq, ascii_ofList]; decide)
      exact absurd hHex (by decide)
    simp only [hFpr, if_false, hDash, and_true]
    exact ⟨notMem_of_hex h.fpr (by decide), fun b hb => isPrint_of_isHexDigit (h.fpr b hb), h.room⟩

/-- A decision is read back, whatever follows. -/
theorem Event.Clean.read (rest : Bytes) :
    readEvent (e.line ++ rest) = some (.decision e, rest) := by
  obtain ⟨hFpr, -, -, hBack⟩ := h.shown
  have hLine : e.line ++ rest =
      ascii "pgp_auth_event: result=\"" ++ (ascii e.result.text ++ quote ::
        (ascii " reason=\"" ++ (ascii e.reason.text ++ quote ::
          (ascii " fpr=\"" ++ ((if e.fpr = [] then ascii "-" else e.fpr) ++ quote ::
            (ascii " ip=\"" ++ (e.ip ++ quote :: rest))))))) := by
    simp only [Event.line, List.append_assoc]
    rfl
  simp only [readEvent, hLine, readField_append e.result.text_spec.1,
    readField_append e.reason.text_spec.1, readField_append hFpr,
    readField_append h.ip.quote_notMem, e.result.text_spec.2.1, e.reason.text_spec.2.1, if_false,
    EventResult.find_text, Reason.find_text, Option.bind_eq_bind, Option.bind_some, hBack]

/-- It is one line, and short enough for the buffer of `ngx_log_error`. -/
theorem Event.Clean.oneLine : (∀ b ∈ e.line, isPrint b = true) ∧ e.line.length ≤ 256 := by
  obtain ⟨-, hFpr, hRoom, -⟩ := h.shown
  obtain ⟨-, -, hResult, hResultLength⟩ := e.result.text_spec
  obtain ⟨-, -, hReason, hReasonLength⟩ := e.reason.text_spec
  have hLabels := lineLabels_spec.1
  simp only [lineLabels, List.map_cons, List.cons.injEq] at hLabels
  have hShort := h.ip.length_le
  constructor
  · intro b hb
    simp only [Event.line, List.mem_append] at hb
    rcases hb with (((((((hb | hb) | hb) | hb) | hb) | hb) | hb) | hb) | hb
    · exact isPrint_of_mem_label (by simp [lineLabels]) hb
    · exact hResult b hb
    · exact isPrint_of_mem_label (by simp [lineLabels]) hb
    · exact hReason b hb
    · exact isPrint_of_mem_label (by simp [lineLabels]) hb
    · exact hFpr b hb
    · exact isPrint_of_mem_label (by simp [lineLabels]) hb
    · exact h.ip.isPrint b hb
    · exact isPrint_of_mem_label (by simp [lineLabels]) hb
  · simp only [Event.line, List.length_append, hLabels]
    simp only [fprRoom] at hRoom
    omega

end Line

section Throttle

variable {ip : Bytes} (h : IsAddr ip)

theorem isPrint_of_mem_decimal {n : Nat} {b : UInt8} (hb : b ∈ decimal n) : isPrint b = true :=
  isPrint_of_isHexDigit (hex_of_decimal b hb)

theorem length_decimal_of_fits {n : Nat} (hn : n < 2 ^ 64) : (decimal n).length ≤ 20 :=
  (length_decimal_le_iff (by decide)).mpr (by omega)

include h

theorem throttled_read (bannedFor : Nat) {rest : Bytes}
    (hRest : ∀ b ∈ rest.head?, isDecDigit b = false) :
    readEvent ((EventLine.throttled ip bannedFor).text ++ rest) =
      some (.throttled ip bannedFor, rest) := by
  have hFirst : ascii "pgp_auth_event: result=\"denied\" reason=\"throttled\" ip=\"" =
      ascii "pgp_auth_event: result=\"" ++
        (ascii "denied" ++ (ascii "\" reason=\"" ++ (ascii "throttled" ++ ascii "\" ip=\""))) := by
    repeat rw [ascii_ofList]
    rfl
  have hLine : (EventLine.throttled ip bannedFor).text ++ rest =
      ascii "pgp_auth_event: result=\"" ++ (ascii "denied" ++ quote ::
        (ascii " reason=\"" ++ (ascii "throttled" ++ quote ::
          (ascii " ip=\"" ++ (ip ++ quote ::
            (ascii " banned_for=" ++ (decimal bannedFor ++ rest))))))) := by
    rw [EventLine.text, hFirst]
    simp only [List.append_assoc]
    rfl
  have hDenied := EventResult.denied.text_spec
  simp only [EventResult.text] at hDenied
  have hReason : quote ∉ ascii "throttled" := by
    rw [ascii_ofList]
    simp [quote, charByte]
  simp only [readEvent, hLine, readField_append hDenied.1, readField_append hReason, hDenied.2.1,
    readField_append h.quote_notMem, readNumber_append bannedFor hRest, if_true, if_false,
    Option.bind_eq_bind, Option.bind_some]

theorem triggered_read (failures banSeconds : Nat) {rest : Bytes}
    (hRest : ∀ b ∈ rest.head?, isDecDigit b = false) :
    readEvent ((EventLine.triggered ip failures banSeconds).text ++ rest) =
      some (.triggered ip failures banSeconds, rest) := by
  have hFirst : ascii "pgp_auth_event: result=\"throttle_triggered\" ip=\"" =
      ascii "pgp_auth_event: result=\"" ++ (ascii "throttle_triggered" ++ ascii "\" ip=\"") := by
    repeat rw [ascii_ofList]
    rfl
  have hLine : (EventLine.triggered ip failures banSeconds).text ++ rest =
      ascii "pgp_auth_event: result=\"" ++ (ascii "throttle_triggered" ++ quote ::
        (ascii " ip=\"" ++ (ip ++ quote ::
          (ascii " failures=" ++ (decimal failures ++
            (ascii " ban_seconds=" ++ (decimal banSeconds ++ rest))))))) := by
    rw [EventLine.text, hFirst]
    simp only [List.append_assoc]
    rfl
  have hResult : quote ∉ ascii "throttle_triggered" := by
    rw [ascii_ofList]
    simp [quote, charByte]
  -- the first number ends at the blank of the next label
  have hBlank : ∀ b ∈ (ascii " ban_seconds=" ++ (decimal banSeconds ++ rest)).head?,
      isDecDigit b = false := by
    intro b hb
    cases hb
    rfl
  simp only [readEvent, hLine, readField_append hResult, readField_append h.quote_notMem,
    readNumber_append failures hBlank, readNumber_append banSeconds hRest, if_true,
    Option.bind_eq_bind, Option.bind_some]

theorem throttled_oneLine (bannedFor : Nat) :
    (∀ b ∈ (EventLine.throttled ip bannedFor).text, isPrint b = true) ∧
      (bannedFor < 2 ^ 64 → (EventLine.throttled ip bannedFor).text.length ≤ 256) := by
  have hLabels := lineLabels_spec.1
  simp only [lineLabels, List.map_cons, List.cons.injEq] at hLabels
  have hShort := h.length_le
  constructor
  · intro b hb
    simp only [EventLine.text, List.mem_append] at hb
    rcases hb with ((hb | hb) | hb) | hb
    · exact isPrint_of_mem_label (by simp [lineLabels]) hb
    · exact h.isPrint b hb
    · exact isPrint_of_mem_label (by simp [lineLabels]) hb
    · exact isPrint_of_mem_decimal hb
  · intro hFits
    have hDigits := length_decimal_of_fits hFits
    simp only [EventLine.text, List.length_append, hLabels]
    omega

theorem triggered_oneLine (failures banSeconds : Nat) :
    (∀ b ∈ (EventLine.triggered ip failures banSeconds).text, isPrint b = true) ∧
      (failures < 2 ^ 64 ∧ banSeconds < 2 ^ 64 →
        (EventLine.triggered ip failures banSeconds).text.length ≤ 256) := by
  have hLabels := lineLabels_spec.1
  simp only [lineLabels, List.map_cons, List.cons.injEq] at hLabels
  have hShort := h.length_le
  constructor
  · intro b hb
    simp only [EventLine.text, List.mem_append] at hb
    rcases hb with ((((hb | hb) | hb) | hb) | hb) | hb
    · exact isPrint_of_mem_label (by simp [lineLabels]) hb
    · exact h.isPrint b hb
    · exact isPrint_of_mem_label (by simp [lineLabels]) hb
    · exact isPrint_of_mem_decimal hb
    · exact isPrint_of_mem_label (by simp [lineLabels]) hb
    · exact isPrint_of_mem_decimal hb
  · rintro ⟨hFailures, hSeconds⟩
    have hDigits := length_decimal_of_fits hFailures
    have hDigits' := length_decimal_of_fits hSeconds
    simp only [EventLine.text, List.length_append, hLabels]
    omega

end Throttle

/-- A line is read back as what was logged. -/
theorem EventLine.Clean.read {l : EventLine} (h : l.Clean) {rest : Bytes} (hRest : l.EndsAt rest) :
    readEvent (l.text ++ rest) = some (l, rest) := by
  cases l with
  | decision e => exact Event.Clean.read h rest
  | throttled ip bannedFor => exact throttled_read h bannedFor hRest
  | triggered ip failures banSeconds => exact triggered_read h failures banSeconds hRest

theorem EventLine.Clean.oneLine {l : EventLine} (h : l.Clean) :
    (∀ b ∈ l.text, isPrint b = true) ∧ (l.Fits → l.text.length ≤ 256) := by
  cases l with
  | decision e =>
      obtain ⟨hPrint, hLength⟩ := Event.Clean.oneLine h
      exact ⟨hPrint, fun _ => hLength⟩
  | throttled ip bannedFor => exact throttled_oneLine h bannedFor
  | triggered ip failures banSeconds => exact triggered_oneLine h failures banSeconds

/-! ## What a step logs -/

/-- The line of a notice; that the zone is full is told outside the event log. -/
def ThrottleNotice.line? (ip : Bytes) : ThrottleNotice → Option EventLine
  | zoneFull => none
  | triggered failures banSeconds => some (.triggered ip failures banSeconds)
  | throttled bannedFor => some (.throttled ip bannedFor)

/-- The lines about a request, those of the throttle last. -/
def eventLines (r : Request) (events : List Event) (notice : Option ThrottleNotice) :
    List EventLine :=
  events.map .decision ++ (notice.bind (·.line? (throttleClientIp r))).toList

/-- The lines of a step. -/
def World.events (x : Externals) (locs : Nat → LocConf) (s : World) : Step → List EventLine
  | .request worker loc r env =>
      let h := authHandler x (locs loc) r env (s.stores worker loc)
      eventLines r h.events h.notice
  | .body i env =>
      match s.reading[i]? with
      | none => []
      | some p =>
          match authSubmit x (locs p.loc) p.r env (s.stores p.worker p.loc) with
          | .posted _ => []
          | .answered out => eventLines p.r out.events out.notice
  | .thread _ _ _ => []
  | .complete i post finalize =>
      match s.finished[i]? with
      | none => []
      | some f =>
          let out := verifyThreadDone x (locs f.check.loc) f.check.r f.res post finalize
            (s.stores f.worker f.check.loc)
          eventLines f.check.r out.events out.notice

/-- An event of a request: its address, and no fingerprint or that of a valid verdict. A grant
has the fingerprint. -/
structure Event.Tells (e : Event) (r : Request) (vr : VerifyResult) : Prop where
  ip : e.ip = r.addr.val
  fpr : e.fpr = [] ∧ e.result ≠ .granted ∨ vr.valid = true ∧ e.fpr = vr.fpr

section Told

variable {x : Externals} {plcf : LocConf} {r : Request}

theorem tells_of_refused {result : EventResult} (hResult : result ≠ .granted) (reason : Reason)
    (vr : VerifyResult) : (logEvent r result reason []).Tells r vr :=
  ⟨rfl, .inl ⟨rfl, hResult⟩⟩

theorem verifyPost_tells (env : PostEnv) (vr : VerifyResult) (st : Stores) :
    (verifyPost x plcf r env vr st).event.Tells r vr := by
  have hFpr := challengeVerdict_fpr x plcf r env.consume vr st.nonce
  by_cases hValid : vr.valid = true
  · unfold verifyPost
    rw [if_neg (by rw [hValid]; exact Bool.true_eq_false.mp)]
    dsimp only
    split_ifs
    · exact ⟨rfl, .inr ⟨hValid, rfl⟩⟩
    · exact ⟨rfl, .inr ⟨hValid, rfl⟩⟩
    · exact ⟨rfl, .inr ⟨hValid, rfl⟩⟩
    · exact ⟨rfl, .inr ⟨hValid, hFpr⟩⟩
  · unfold verifyPost
    rw [if_pos (Bool.eq_false_iff.mpr hValid)]
    exact tells_of_refused (by decide) _ _

theorem authSubmit_tells {env : SubmitEnv} {st : Stores} {out : Outcome}
    (h : authSubmit x plcf r env st = .answered out) :
    ∀ e ∈ out.events, e.Tells r (gpgVerify plcf.gpgPath plcf.keyring
      (signedMsg (env.bufs.flatMap BodyBuf.bytes)) env.verify.gpg).2 := by
  unfold authSubmit at h
  rw [readBody_eq] at h
  intro e he
  by_cases hBody : BodyUnusable plcf env.bufs
  · simp only [hBody, if_true, reduceCtorEq, if_false, Submitted.answered.injEq] at h
    subst h
    rw [List.mem_singleton.mp he]
    exact tells_of_refused (by decide) _ _
  cases hAlloc : env.bodyAlloc with
  | false =>
      simp only [hBody, hAlloc, if_false, if_true, Submitted.answered.injEq] at h
      subst h
      rw [List.mem_singleton.mp he]
      exact tells_of_refused (by decide) _ _
  | true =>
      simp only [hBody, hAlloc, if_false, Bool.true_eq_false] at h
      split_ifs at h
      · cases h
        rw [List.mem_singleton.mp he]
        exact tells_of_refused (by decide) _ _
      · cases h
        cases he
      · cases h
        unfold verifyInline at he
        dsimp only at he
        split_ifs at he
        · cases he
        · rw [List.mem_singleton.mp he]
          exact verifyPost_tells _ _ _

theorem verifyThreadDone_tells {res : ThreadResult} {vr : VerifyResult}
    (hVerdict : res.vr.verdict = vr.verdict) (post : PostEnv) (finalize : FinalizeEnv)
    (st : Stores) :
    ∀ e ∈ (verifyThreadDone x plcf r res post finalize st).events, e.Tells r vr := by
  simp only [VerifyResult.verdict, Prod.mk.injEq] at hVerdict
  intro e he
  unfold verifyThreadDone at he
  dsimp only at he
  split_ifs at he
  · cases he
  · rw [List.mem_singleton.mp he]
    obtain ⟨hIp, hTold⟩ := @verifyPost_tells x plcf r post { res.vr with diag := none } st
    exact ⟨hIp, hTold.imp_right fun hv =>
      ⟨hVerdict.1 ▸ hv.1, hv.2.trans hVerdict.2.1⟩⟩

theorem authHandler_tells (env : HandlerEnv) (st : Stores) :
    ∀ e ∈ (authHandler x plcf r env st).events, e.ip = r.addr.val ∧ e.fpr = [] ∧
      e.result ≠ .granted := by
  intro e he
  unfold authHandler at he
  dsimp only at he
  split_ifs at he
  all_goals first
    | exact absurd he List.not_mem_nil
    | rw [List.mem_singleton.mp he]
      exact ⟨rfl, rfl, nofun⟩

/-- The handler tells of a ban where it turns the client away for it. -/
theorem authHandler_notice {env : HandlerEnv} {st : Stores} {notice : ThrottleNotice}
    (h : (authHandler x plcf r env st).notice = some notice) :
    (authHandler x plcf r env st).rc = .http 429 ∧
      ∃ n, st.throttle.entry x.throttleShm r.addr.val = some n ∧ env.now < n.bannedUntil ∧
        notice = .throttled (n.bannedUntil - env.now) := by
  unfold authHandler at h ⊢
  dsimp only at h ⊢
  split_ifs at h ⊢
  · refine ⟨rfl, ?_⟩
    obtain ⟨sh, n, hZone, hEntry, hBan, rfl⟩ := throttleIsBannedNotice_eq_some h
    unfold LocConf.throttleZone? at hZone
    split_ifs at hZone
    cases hZone
    exact ⟨n, hEntry, hBan, rfl⟩

/-- A submission tells of a ban where its failure, at a throttled location, has reached the
limit. -/
theorem Recorded.notice {env : ThrottleEnv} {sh : ThrottleSh} {out : Outcome}
    (h : Recorded x plcf r env sh out) {notice : ThrottleNotice}
    (hNotice : out.notice = some notice) {l : EventLine} {ip : Bytes} (hLine : notice.line? ip = some l) :
    ∃ failures, plcf.failureZone = true ∧ plcf.failureLimit ≤ failures ∧
      l = .triggered ip failures plcf.failureBanTime := by
  have hTold := congrArg Prod.snd h
  rw [hNotice] at hTold
  cases hHead : out.records.head? with
  | none =>
      rw [hHead] at hTold
      cases hTold
  | some success =>
      rw [hHead] at hTold
      change _ = (throttleRecordCall x.throttleShm (plcf.throttleZone? sh) r success
        plcf.failureLimit plcf.failureWindow plcf.failureBanTime env).2 at hTold
      rcases throttleRecordCall_notice hTold.symm with rfl | ⟨hZone, -, failures, hLimit, rfl⟩
      · cases hLine
      · cases hLine
        refine ⟨failures, ?_, hLimit, rfl⟩
        by_contra hOff
        exact hZone (if_neg hOff)

end Told

/-! ## Runs -/

section Runs

variable {x : Externals} {locs : Nat → LocConf} {s : World}

theorem granted_of_mem_events {out : Outcome} {e : Event} (he : e ∈ out.events)
    (hResult : e.result = .granted) : out.granted = true :=
  List.any_eq_true.mpr ⟨e, he, by rw [hResult]; rfl⟩

theorem mem_eventLines {r : Request} {events : List Event} {notice : Option ThrottleNotice}
    {l : EventLine} :
    l ∈ eventLines r events notice ↔
      (∃ e ∈ events, .decision e = l) ∨ ∃ n ∈ notice, n.line? r.addr.val = some l := by
  simp only [eventLines, throttleClientIp, List.mem_append, List.mem_map, Option.mem_toList,
    Option.mem_def, Option.bind_eq_some_iff]

theorem decision_mem_eventLines {r : Request} {events : List Event}
    {notice : Option ThrottleNotice} {e : Event} :
    .decision e ∈ eventLines r events notice ↔ e ∈ events := by
  rw [mem_eventLines]
  constructor
  · rintro (⟨e', he, hEq⟩ | ⟨n, -, hLine⟩)
    · cases hEq
      exact he
    · cases n <;> cases hLine
  · exact fun he => .inl ⟨e, he, rfl⟩

/-- Whose decision a line tells: that of the handler about a request, or that of a
submission, which the step adds to the granted ones where it says so. -/
theorem mem_events_cases (h : s.Tasks x locs) {i : Step} {e : Event}
    (he : .decision e ∈ s.events x locs i) :
    (∃ r : Request, e.ip = r.addr.val ∧ e.fpr = [] ∧ e.result ≠ .granted) ∨
      ∃ g : Login, e.Tells g.check.r (g.check.verdict locs).2 ∧
        (e.result = .granted →
          ((systemMachine x locs).step s i).2.granted = s.granted ++ [g]) := by
  cases i with
  | request worker loc r env =>
      exact .inl ⟨r, authHandler_tells env _ e (decision_mem_eventLines.mp he)⟩
  | body i env =>
      refine .inr ?_
      change ∃ g : Login, e.Tells g.check.r (g.check.verdict locs).2 ∧
        (e.result = .granted → (s.body x locs i env).granted = s.granted ++ [g])
      simp only [World.events] at he
      unfold World.body
      cases hRead : s.reading[i]? with
      | none =>
          rw [hRead] at he
          cases he
      | some p =>
          simp only [hRead] at he ⊢
          cases hSubmit : authSubmit x (locs p.loc) p.r env (s.stores p.worker p.loc) with
          | posted task =>
              rw [hSubmit] at he
              cases he
          | answered out =>
              simp only [hSubmit, decision_mem_eventLines] at he ⊢
              refine ⟨s.submitted p env, authSubmit_tells hSubmit e he, fun hResult => ?_⟩
              exact if_pos (granted_of_mem_events he hResult)
  | thread i gpg consume => cases he
  | complete i post finalize =>
      refine .inr ?_
      change ∃ g : Login, e.Tells g.check.r (g.check.verdict locs).2 ∧
        (e.result = .granted → (s.complete x locs i post finalize).granted = s.granted ++ [g])
      simp only [World.events] at he
      unfold World.complete
      cases hDone : s.finished[i]? with
      | none =>
          rw [hDone] at he
          cases he
      | some f =>
          simp only [hDone, decision_mem_eventLines] at he ⊢
          have hVerdict : f.res.vr.verdict = (f.check.verdict locs).2.verdict := by
            rw [h.finished f (List.mem_of_getElem? hDone)]
            exact gpgThread_verdict _ _ _ _ _ _
          refine ⟨⟨f.check, post.revoc, s.revoc f.worker f.check.loc⟩,
            verifyThreadDone_tells hVerdict post finalize _ e he, fun hResult => ?_⟩
          exact if_pos (granted_of_mem_events he hResult)

theorem clean_of_decision (h : s.Tasks x locs) {i : Step} {e : Event}
    (he : .decision e ∈ s.events x locs i) : e.Clean := by
  have hNone : e.fpr = [] → (∀ b ∈ e.fpr, isHexDigit b = true) ∧ e.fpr.length ≤ fprRoom := by
    intro hFpr
    rw [hFpr]
    exact ⟨nofun, Nat.zero_le _⟩
  rcases mem_events_cases h he with ⟨r, hIp, hFpr, -⟩ | ⟨g, ⟨hIp, hTold⟩, -⟩
  · exact ⟨(hNone hFpr).1, (hNone hFpr).2, hIp ▸ r.addr.property⟩
  · rcases hTold with ⟨hFpr, -⟩ | ⟨hValid, hFpr⟩
    · exact ⟨(hNone hFpr).1, (hNone hFpr).2, hIp ▸ g.check.r.addr.property⟩
    · refine ⟨?_, ?_, hIp ▸ g.check.r.addr.property⟩
      · rw [hFpr]
        exact gpgVerify_fpr_hex hValid
      · rw [hFpr]
        exact gpgVerify_fpr_length hValid

/-- Location and request of the submission that a step answers. -/
def World.submitter (s : World) : Step → Option (Nat × Request)
  | .body i _ => s.reading[i]?.map fun p => (p.loc, p.r)
  | .complete i _ _ => s.finished[i]?.map fun f => (f.check.loc, f.check.r)
  | _ => none

/-- What a line says has happened in the step. A grant adds a login of that signer and
address; a client turned away had a ban that runs that much longer; a ban that was set is as
long as its location says, for a submission from the address. -/
def World.Backs (x : Externals) (locs : Nat → LocConf) (s : World) (i : Step) : EventLine → Prop
  | .decision e =>
      e.result = .granted → ∃ g : Login,
        ((systemMachine x locs).step s i).2.granted = s.granted ++ [g] ∧
          e.fpr = (g.check.verdict locs).2.fpr ∧ e.ip = g.check.r.addr.val
  | .throttled ip bannedFor =>
      ((systemMachine x locs).step s i).1 = some (.http 429) ∧
        ∃ worker loc r env n, i = .request worker loc r env ∧ ip = r.addr.val ∧
          s.throttle.entry x.throttleShm ip = some n ∧ 0 < bannedFor ∧
            n.bannedUntil = env.now + bannedFor
  | .triggered ip failures banSeconds =>
      ∃ loc r, (loc, r) ∈ s.submitter i ∧ ip = r.addr.val ∧ (locs loc).failureZone = true ∧
        (locs loc).failureLimit ≤ failures ∧ banSeconds = (locs loc).failureBanTime

/-- A line of the throttle is about the client of the step, and what it says has happened. -/
theorem backs_of_notice {i : Step} {l : EventLine} (hl : l ∈ s.events x locs i)
    (hNot : ∀ e, .decision e ≠ l) : s.Backs x locs i l ∧ l.Clean := by
  have hNotice : ∀ {r : Request} {events notice}, l ∈ eventLines r events notice →
      ∃ n ∈ notice, n.line? r.addr.val = some l := by
    intro r events notice hMem
    rcases mem_eventLines.mp hMem with ⟨e, -, hEq⟩ | hFound
    · exact absurd hEq (hNot e)
    · exact hFound
  have hRecorded : ∀ {loc r env sh out}, Recorded x (locs loc) r env sh out →
      (loc, r) ∈ s.submitter i → l ∈ eventLines r out.events out.notice →
      s.Backs x locs i l ∧ l.Clean := by
    intro loc r env sh out hRec hSubmitter hMem
    obtain ⟨n, hn, hLine⟩ := hNotice hMem
    obtain ⟨failures, hZone, hLimit, rfl⟩ := hRec.notice hn hLine
    exact ⟨⟨loc, r, hSubmitter, rfl, hZone, hLimit, rfl⟩, r.addr.property⟩
  cases i with
  | request worker loc r env =>
      obtain ⟨n, hn, hLine⟩ := hNotice hl
      obtain ⟨hRc, node, hEntry, hBan, rfl⟩ := authHandler_notice hn
      cases hLine
      refine ⟨⟨congrArg some hRc, worker, loc, r, env, node, rfl, rfl, hEntry, ?_, ?_⟩,
        r.addr.property⟩
      · omega
      · omega
  | body i env =>
      simp only [World.events] at hl
      split at hl
      · cases hl
      · rename_i p hRead
        split at hl
        · cases hl
        · rename_i out hSubmit
          exact hRecorded (authSubmit_recorded hSubmit) (by simp [World.submitter, hRead]) hl
  | thread i gpg consume => cases hl
  | complete i post finalize =>
      simp only [World.events] at hl
      split at hl
      · cases hl
      · rename_i f hDone
        exact hRecorded (verifyThreadDone_recorded _ _ _ _) (by simp [World.submitter, hDone]) hl

theorem backs_of_mem_events (h : s.Tasks x locs) {i : Step} {l : EventLine}
    (hl : l ∈ s.events x locs i) : s.Backs x locs i l ∧ l.Clean := by
  cases l with
  | decision e =>
      refine ⟨fun hResult => ?_, clean_of_decision h hl⟩
      rcases mem_events_cases h hl with ⟨r, -, -, hNot⟩ | ⟨g, ⟨hIp, hTold⟩, hGranted⟩
      · exact absurd hResult hNot
      · rcases hTold with ⟨-, hNot⟩ | ⟨-, hFpr⟩
        · exact absurd hResult hNot
        · exact ⟨g, hGranted hResult, hFpr, hIp⟩
  | throttled ip bannedFor => exact backs_of_notice hl nofun
  | triggered ip failures banSeconds => exact backs_of_notice hl nofun

end Runs

/-- In every run, whatever its steps: what a step writes into the event log is one short line,
from which the event is read back whatever follows on the line (after a number: whatever does
not go on with a digit), and what it says has happened. -/
theorem event_lines_read (x : Externals) (locs : Nat → LocConf) (nonce : NonceState)
    (throttle : ThrottleSh) (revoc : Nat → Nat → RevocCache) (run : List Step) (i : Step) :
    let s := (systemMachine x locs).final (.start nonce throttle revoc) run
    ∀ l ∈ s.events x locs i,
      (∀ rest, l.EndsAt rest → readEvent (l.text ++ rest) = some (l, rest)) ∧
      (∀ b ∈ l.text, isPrint b = true) ∧ (l.Fits → l.text.length ≤ 256) ∧ s.Backs x locs i l := by
  intro s l hl
  have hStep : ∀ (s : World) (i : Step), s.Tasks x locs →
      ((systemMachine x locs).step s i).2.Tasks x locs :=
    fun _ i h => tasks_step h i
  have hTasks := Machine.final_of_step hStep (tasks_start nonce throttle revoc) run
  obtain ⟨hBacks, hClean⟩ := backs_of_mem_events hTasks hl
  exact ⟨fun _ hRest => hClean.read hRest, hClean.oneLine.1, hClean.oneLine.2, hBacks⟩

/-- In the last second of its ban the sample client sends a request whose first line goes on
like a line of the log. -/
theorem bannedRun_line_read :
    readEvent ((EventLine.throttled sampleRequest.addr.val 1).text ++
        ascii ", request: pgp_auth_event: result=") =
      some (.throttled sampleRequest.addr.val 1, ascii ", request: pgp_auth_event: result=") :=
  (event_lines_read sampleExternals (fun _ => strictConf) .empty .empty (fun _ _ => .empty)
    bannedRun (.request 0 3 sampleRequest (loginHandler 1289)) _ (by decide +kernel)).1 _
    fun b hb => by
      cases hb
      decide

end PgpAuth
