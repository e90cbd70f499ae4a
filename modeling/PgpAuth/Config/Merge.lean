import Mathlib.Data.List.DropRight
import PgpAuth.Base
import PgpAuth.Lib.Inherit

/-!
# Merging the configuration

nginx gives every `http`, `server` and `location` block a record of its own
(`createLocConf`), lets the parser write the block's directives into it, and merges it into
the record of the enclosing block, outermost first (`mergeLocConf`). The `http` record is
only ever the outer one: it is never merged itself, so its values reach the first merge as
they were written.

A merge has two parts. `mergeSettings` takes over what the block leaves unset and bounds the
lifetimes, in every block. `enableLocConf` runs in the blocks that are enabled: it checks the
settings, attaches the shared zones and the thread pool, and loads the credentials. In a
block that is not enabled the record holds no credential, whatever its surroundings loaded.

The log lines that do not end the merge are left out.
-/

namespace PgpAuth

open Lib

/-! ## Records -/

/-- The directives of one block; `none` is nginx's unset value. -/
structure Directives where
  enable : Option Bool := none
  keyring : Option Bytes := none
  challengeTimeout : Option Nat := none
  sessionTimeout : Option Nat := none
  cookieSecure : Option Bool := none
  cookieHostPrefix : Option Bool := none
  cookieSamesite : Option SameSite := none
  bindIp : Option Bool := none
  bindUa : Option Bool := none
  disableCoreDumps : Option Bool := none
  mlockRequired : Option Bool := none
  nonceStorage : Option NonceStorage := none
  nonceZoneSize : Option Nat := none
  failureLimit : Option Nat := none
  failureWindow : Option Nat := none
  failureBanTime : Option Nat := none
  failureZoneSize : Option Nat := none
  nonceAddr : Option Bytes := none
  nonceTls : Option Bool := none
  nonceTlsVerify : Option Bool := none
  nonceTlsCa : Option Bytes := none
  nonceTlsName : Option Bytes := none
  noncePassword : Option Bytes := none
  noncePasswordFile : Option Bytes := none
  revocationList : Option Bytes := none
  revocFailOpen : Option Bool := none
  revocMaxSize : Option Nat := none
  nonceKeyPrefix : Option Bytes := none
  gpgTimeout : Option Nat := none
  maxBodySize : Option Nat := none
  secretFile : Option Bytes := none
  secretPreviousFile : Option Bytes := none
  gpgPath : Option Bytes := none
  threadPoolName : Option Bytes := none

/-- `ngx_http_pgp_auth_loc_conf_t`: the directives, and what merging fills in. -/
structure RawLocConf extends Directives where
  nonceZone : Bool := false
  failureZone : Bool := false
  threadPool : Bool := false
  secret : Bytes := []
  secretPrevious : Bytes := []

/-- `ngx_http_pgp_auth_create_loc_conf`, after the parser has written the block's
directives. -/
def createLocConf (block : Directives) : RawLocConf := { block with }

/-- A secret file as it is found: the size that `ngx_fd_info` reports (`0` where it fails),
and the bytes that the read returns (none where it fails). -/
structure SecretFile where
  size : Nat
  bytes : Bytes
  bytes_le : bytes.length ≤ size

/-- What merging finds around it. `confPrefix`, the directory of the configuration file,
completes relative paths. -/
structure ConfEnv where
  threads : Bool
  confPrefix : Bytes
  files : Bytes → Option SecretFile

/-- Outcomes of the calls that one merge makes. -/
structure ConfCalls where
  threadPoolAdd : Bytes → Bool
  nonceAddZone : Nat → Bool
  throttleAddZone : Nat → Bool
  randBytes : Option { r : Bytes // r.length = 32 }
  mlock : Bytes → Bool

/-- A block inside `http`. -/
structure Level where
  block : Directives
  calls : ConfCalls

/-! ## Errors -/

inductive ConfError where
  | threadPool
  | gpgPath
  | passwordTooLong (len : Nat)
  | keyring
  | nonceZone
  | nonceAddress
  | failureZone
  | passwordTwice
  | cannotOpen (path : Bytes)
  | emptyFile (path : Bytes)
  | largeFile (path : Bytes) (size : Nat)
  | readFailed
  | noContent (path : Bytes)
  | randBytes
  | mlock
  deriving DecidableEq, Repr

/-- The format of the line that is logged; `none` where the module logs nothing itself. -/
def ConfError.format : ConfError → Option String
  | threadPool => none
  | gpgPath => some "pgp_auth: pgp_gpg_path must be an absolute path"
  | passwordTooLong _ =>
      some "pgp_auth: pgp_auth_nonce_storage_password is too long (%uz bytes, maximum 256)"
  | keyring => some "pgp_auth: pgp_keyring must be an absolute path"
  | nonceZone => none
  | nonceAddress => some "pgp_auth: pgp_auth_nonce_storage_address is required for redis"
  | failureZone => none
  | passwordTwice =>
      some ("pgp_auth: set only one of pgp_auth_nonce_storage_password or " ++
        "pgp_auth_nonce_storage_password_file, not both")
  | cannotOpen _ => some "pgp_auth: cannot open secret file \"%V\""
  | emptyFile _ => some "pgp_auth: secret file \"%V\" is empty"
  | largeFile _ _ =>
      some ("pgp_auth: secret file \"%V\" is %O bytes; a secret file must be " ++
        "at most 64k -- check the path")
  | readFailed => none
  | noContent _ => some "pgp_auth: secret file \"%V\" has no content"
  | randBytes => some "pgp_auth: RAND_bytes() failed"
  | mlock =>
      some ("pgp_auth: mlock() on the secret buffer failed; raise RLIMIT_MEMLOCK for the " ++
        "nginx user to enable this hardening, or set pgp_mlock_required off")

def ensure (p : Prop) [Decidable p] (e : ConfError) : Except ConfError Unit :=
  if p then .ok () else .error e

theorem ensure_eq_ok {p : Prop} [Decidable p] {e : ConfError} {u : Unit} :
    ensure p e = .ok u ↔ p := by
  unfold ensure
  split
  · rename_i h
    simp [h]
  · rename_i h
    simp [h]

/-! ## Inherited settings -/

/-- `ngx_conf_merge_value` and its siblings. -/
def mergeValue {α : Type} (conf prev : Option α) (default : α) : Option α :=
  some (conf.getD (prev.getD default))

/-- `t`, moved to the nearer end of the band. -/
def clampTo (lo hi t : Nat) : Nat := if t < lo then lo else if hi < t then hi else t

/-- `t`, replaced outside the band. -/
def fallbackTo (lo hi default t : Nat) : Nat := if t < lo ∨ hi < t then default else t

def boundChallengeTimeout : Nat → Nat := clampTo 5 3600

/-- `0` keeps its meaning, no expiry. -/
def boundSessionTimeout (t : Nat) : Nat := if 2592000 < t then 2592000 else t

def boundFailureWindow : Nat → Nat := fallbackTo 1 3600 60

def boundFailureBanTime : Nat → Nat := fallbackTo 1 86400 300

def boundGpgTimeout : Nat → Nat := clampTo 1000 60000

/-- The first part of `ngx_http_pgp_auth_merge_loc_conf`, up to the test of `enable`. The
files of the previous secret and of the password are not merged. -/
def mergeSettings (prev conf : RawLocConf) : RawLocConf :=
  let throttles := 0 < conf.failureLimit.getD (prev.failureLimit.getD 0)
  { conf with
    enable := mergeValue conf.enable prev.enable false
    keyring := mergeValue conf.keyring prev.keyring (ascii "/etc/nginx/pubkeys.gpg")
    challengeTimeout :=
      (mergeValue conf.challengeTimeout prev.challengeTimeout 120).map boundChallengeTimeout
    sessionTimeout :=
      (mergeValue conf.sessionTimeout prev.sessionTimeout 3600).map boundSessionTimeout
    cookieSecure := mergeValue conf.cookieSecure prev.cookieSecure true
    cookieHostPrefix := mergeValue conf.cookieHostPrefix prev.cookieHostPrefix true
    cookieSamesite := mergeValue conf.cookieSamesite prev.cookieSamesite .lax
    bindIp := mergeValue conf.bindIp prev.bindIp true
    bindUa := mergeValue conf.bindUa prev.bindUa true
    disableCoreDumps := mergeValue conf.disableCoreDumps prev.disableCoreDumps true
    mlockRequired := mergeValue conf.mlockRequired prev.mlockRequired false
    nonceStorage := mergeValue conf.nonceStorage prev.nonceStorage .memory
    nonceZoneSize := mergeValue conf.nonceZoneSize prev.nonceZoneSize (8 * 1024 * 1024)
    failureLimit := mergeValue conf.failureLimit prev.failureLimit 0
    failureWindow :=
      (mergeValue conf.failureWindow prev.failureWindow 60).map fun t =>
        if throttles then boundFailureWindow t else t
    failureBanTime :=
      (mergeValue conf.failureBanTime prev.failureBanTime 300).map fun t =>
        if throttles then boundFailureBanTime t else t
    failureZoneSize := mergeValue conf.failureZoneSize prev.failureZoneSize (1024 * 1024)
    nonceAddr := mergeValue conf.nonceAddr prev.nonceAddr []
    nonceTls := mergeValue conf.nonceTls prev.nonceTls false
    nonceTlsVerify := mergeValue conf.nonceTlsVerify prev.nonceTlsVerify true
    nonceTlsCa := mergeValue conf.nonceTlsCa prev.nonceTlsCa []
    nonceTlsName := mergeValue conf.nonceTlsName prev.nonceTlsName []
    noncePassword := mergeValue conf.noncePassword prev.noncePassword []
    revocationList := mergeValue conf.revocationList prev.revocationList []
    revocFailOpen := mergeValue conf.revocFailOpen prev.revocFailOpen false
    revocMaxSize := mergeValue conf.revocMaxSize prev.revocMaxSize (1024 * 1024)
    nonceKeyPrefix := mergeValue conf.nonceKeyPrefix prev.nonceKeyPrefix (ascii "pgp:")
    gpgTimeout := (mergeValue conf.gpgTimeout prev.gpgTimeout 2000).map boundGpgTimeout
    maxBodySize := mergeValue conf.maxBodySize prev.maxBodySize 16384
    secretFile := mergeValue conf.secretFile prev.secretFile []
    gpgPath := mergeValue conf.gpgPath prev.gpgPath (ascii "/usr/bin/gpg")
    threadPoolName := mergeValue conf.threadPoolName prev.threadPoolName (ascii "default") }

/-! ## Secret files -/

/-- The test for a full name in `ngx_conf_full_name`, and the module's own test of paths. -/
def IsAbsolute (path : Bytes) : Prop := path.head? = some 47

instance (path : Bytes) : Decidable (IsAbsolute path) := inferInstanceAs (Decidable (_ = _))

/-- `ngx_conf_full_name` -/
def fullName (env : ConfEnv) (path : Bytes) : Bytes :=
  if IsAbsolute path then path else env.confPrefix ++ path

def isTrailingSpace (b : UInt8) : Bool := b == 10 || b == 13 || b == 32 || b == 9

/-- `ngx_http_pgp_load_secret` -/
def loadSecret (env : ConfEnv) (path : Bytes) : Except ConfError Bytes :=
  match env.files (cString path) with
  | none => .error (.cannotOpen path)
  | some file =>
      if file.size = 0 then .error (.emptyFile path)
      else if 65536 < file.size then .error (.largeFile path file.size)
      else if file.bytes = [] then .error .readFailed
      else
        let secret := file.bytes.rdropWhile isTrailingSpace
        if secret = [] then .error (.noContent path) else .ok secret

/-- A file directive after merging, and what was loaded from it. -/
structure Loaded where
  file : Option Bytes
  content : Bytes

/-- Equal lengths, and equal under `ngx_strncmp`. -/
def SameFile (file prevFile : Bytes) : Prop :=
  file.length = prevFile.length ∧ cString file = cString prevFile

instance (file prevFile : Bytes) : Decidable (SameFile file prevFile) :=
  inferInstanceAs (Decidable (_ ∧ _))

/-- The shape shared by the three file directives: what the enclosing block loaded from the
same file, else the file, else what the directive means without one. -/
def inheritOrLoad (env : ConfEnv) (file prevFile : Option Bytes) (prevContent : Bytes)
    (unset : Except ConfError Bytes) : Except ConfError Loaded :=
  let path := file.getD []
  if SameFile path (prevFile.getD []) ∧ prevContent ≠ [] then .ok ⟨file, prevContent⟩
  else if path ≠ [] then do
    let content ← loadSecret env (fullName env path)
    .ok ⟨some (fullName env path), content⟩
  else do
    let content ← unset
    .ok ⟨file, content⟩

/-! ## Enabled blocks -/

def attachThreadPool (env : ConfEnv) (calls : ConfCalls) (conf : RawLocConf) :
    Except ConfError Bool :=
  let name := conf.threadPoolName.getD []
  if env.threads = false ∨ name = ascii "off" then .ok false
  else do
    ensure (calls.threadPoolAdd name = true) .threadPool
    .ok true

/-- For `redis` too: the zone is the node's own record of used nonces. -/
def attachNonceZone (calls : ConfCalls) (prev conf : RawLocConf) : Except ConfError Bool :=
  if conf.nonceStorage = some .memory ∨ conf.nonceStorage = some .redis then do
    ensure (prev.nonceZone = true ∨ calls.nonceAddZone (conf.nonceZoneSize.getD 0) = true)
      .nonceZone
    .ok true
  else .ok conf.nonceZone

def attachFailureZone (calls : ConfCalls) (prev conf : RawLocConf) : Except ConfError Bool :=
  if 0 < conf.failureLimit.getD 0 then do
    ensure (prev.failureZone = true ∨ calls.throttleAddZone (conf.failureZoneSize.getD 0) = true)
      .failureZone
    .ok true
  else .ok conf.failureZone

structure Attached where
  threadPool : Bool
  nonceZone : Bool
  failureZone : Bool

/-- The checks of an enabled block up to its credentials, in the order of the source. -/
def attachShared (env : ConfEnv) (calls : ConfCalls) (prev conf : RawLocConf) :
    Except ConfError Attached := do
  let threadPool ← attachThreadPool env calls conf
  ensure (IsAbsolute (conf.gpgPath.getD [])) .gpgPath
  ensure ((conf.noncePassword.getD []).length ≤ 256)
    (.passwordTooLong (conf.noncePassword.getD []).length)
  ensure (IsAbsolute (conf.keyring.getD [])) .keyring
  let nonceZone ← attachNonceZone calls prev conf
  ensure (conf.nonceStorage ≠ some .redis ∨ conf.nonceAddr.getD [] ≠ []) .nonceAddress
  let failureZone ← attachFailureZone calls prev conf
  .ok ⟨threadPool, nonceZone, failureZone⟩

/-- The `AUTH` password: the inline one, or the one in the file, not both. -/
def loadNoncePassword (env : ConfEnv) (prev conf : RawLocConf) : Except ConfError Loaded :=
  let password := conf.noncePassword.getD []
  if conf.noncePasswordFile.getD [] = [] then .ok ⟨conf.noncePasswordFile, password⟩
  else do
    ensure (password = []) .passwordTwice
    inheritOrLoad env conf.noncePasswordFile prev.noncePasswordFile
      (prev.noncePassword.getD []) (.ok [])

/-- Without a file the secret is random. -/
def loadSessionSecret (env : ConfEnv) (calls : ConfCalls) (prev conf : RawLocConf) :
    Except ConfError Loaded :=
  inheritOrLoad env conf.secretFile prev.secretFile prev.secret
    (match calls.randBytes with
      | some r => .ok r.val
      | none => .error .randBytes)

def loadSecretPrevious (env : ConfEnv) (prev conf : RawLocConf) : Except ConfError Loaded :=
  inheritOrLoad env conf.secretPreviousFile prev.secretPreviousFile prev.secretPrevious
    (.ok conf.secretPrevious)

/-- `ngx_http_pgp_mlock_secret` -/
def mlockSecret (calls : ConfCalls) (required : Bool) (secret : Bytes) :
    Except ConfError Unit :=
  ensure (secret = [] ∨ calls.mlock secret = true ∨ required = false) .mlock

def mlockSecrets (calls : ConfCalls) (required : Bool) (secret previous password : Bytes) :
    Except ConfError Unit := do
  mlockSecret calls required secret
  mlockSecret calls required previous
  mlockSecret calls required password

/-- The fields that an enabled block fills. -/
def RawLocConf.fill (conf : RawLocConf) (shared : Attached) (password secret previous : Loaded) :
    RawLocConf :=
  { conf with
    threadPool := shared.threadPool
    nonceZone := shared.nonceZone
    failureZone := shared.failureZone
    noncePasswordFile := password.file
    noncePassword := some password.content
    secretFile := secret.file
    secret := secret.content
    secretPreviousFile := previous.file
    secretPrevious := previous.content }

/-- The second part of `ngx_http_pgp_auth_merge_loc_conf`. -/
def enableLocConf (env : ConfEnv) (calls : ConfCalls) (prev conf : RawLocConf) :
    Except ConfError RawLocConf := do
  let shared ← attachShared env calls prev conf
  let password ← loadNoncePassword env prev conf
  let secret ← loadSessionSecret env calls prev conf
  let previous ← loadSecretPrevious env prev conf
  mlockSecrets calls (conf.mlockRequired.getD false) secret.content previous.content
    password.content
  .ok (conf.fill shared password secret previous)

/-- `conf->enable`, once merged. -/
def RawLocConf.enabled (conf : RawLocConf) : Bool := conf.enable.getD false

/-- The record of a block before the part that only enabled blocks run. -/
def Level.settings (level : Level) (prev : RawLocConf) : RawLocConf :=
  mergeSettings prev (createLocConf level.block)

/-- `ngx_http_pgp_auth_merge_loc_conf` -/
def mergeLocConf (env : ConfEnv) (level : Level) (prev : RawLocConf) :
    Except ConfError RawLocConf :=
  let conf := level.settings prev
  if conf.enabled then enableLocConf env level.calls prev conf else .ok conf

/-- The record of the innermost of these blocks; the innermost block comes first. -/
def confOf (env : ConfEnv) (http : Directives) (levels : List Level) :
    Except ConfError RawLocConf :=
  settled (mergeLocConf env) (createLocConf http) levels

/-- The part that requests read. -/
def RawLocConf.toLocConf (conf : RawLocConf) : LocConf where
  enable := conf.enabled
  keyring := conf.keyring.getD []
  challengeTimeout := conf.challengeTimeout.getD 0
  sessionTimeout := conf.sessionTimeout.getD 0
  cookieSecure := conf.cookieSecure.getD true
  cookieHostPrefix := conf.cookieHostPrefix.getD true
  cookieSamesite := conf.cookieSamesite.getD .lax
  bindIp := conf.bindIp.getD true
  bindUa := conf.bindUa.getD true
  nonceStorage := conf.nonceStorage.getD .memory
  nonceZone := conf.nonceZone
  failureZone := conf.failureZone
  failureLimit := conf.failureLimit.getD 0
  failureWindow := conf.failureWindow.getD 0
  failureBanTime := conf.failureBanTime.getD 0
  nonceAddr := conf.nonceAddr.getD []
  noncePassword := conf.noncePassword.getD []
  nonceKeyPrefix := conf.nonceKeyPrefix.getD []
  nonceTls := conf.nonceTls.getD false
  revocationList := conf.revocationList.getD []
  revocFailOpen := conf.revocFailOpen.getD false
  revocMaxSize := conf.revocMaxSize.getD 0
  gpgTimeout := conf.gpgTimeout.getD 0
  maxBodySize := conf.maxBodySize.getD 0
  gpgPath := conf.gpgPath.getD []
  secret := conf.secret
  secretPrevious := conf.secretPrevious
  threadPool := conf.threadPool

theorem exists_of_map_toLocConf {x : Except ConfError RawLocConf} {nc : LocConf}
    (h : x.map RawLocConf.toLocConf = .ok nc) : ∃ conf, x = .ok conf ∧ conf.toLocConf = nc := by
  cases x with
  | error e => cases h
  | ok conf => exact ⟨conf, rfl, Except.ok.inj h⟩

/-! ## What a merge does -/

variable {env : ConfEnv} {level : Level} {prev conf : RawLocConf}

/-- What an enabled block is merged to: every check passed, and these were loaded. -/
structure Enabled (env : ConfEnv) (calls : ConfCalls) (prev conf : RawLocConf)
    (shared : Attached) (password secret previous : Loaded) : Prop where
  attached : attachShared env calls prev conf = .ok shared
  password_ok : loadNoncePassword env prev conf = .ok password
  secret_ok : loadSessionSecret env calls prev conf = .ok secret
  previous_ok : loadSecretPrevious env prev conf = .ok previous
  locked : mlockSecrets calls (conf.mlockRequired.getD false) secret.content previous.content
    password.content = .ok ()

theorem enableLocConf_eq_ok {calls : ConfCalls} {c : RawLocConf} :
    enableLocConf env calls prev conf = .ok c ↔
      ∃ shared password secret previous,
        Enabled env calls prev conf shared password secret previous ∧
          c = conf.fill shared password secret previous := by
  simp only [enableLocConf, bind_eq_ok]
  constructor
  · rintro ⟨shared, hShared, password, hPassword, secret, hSecret, previous, hPrevious, u,
      hLocked, hc⟩
    cases hc
    exact ⟨shared, password, secret, previous,
      ⟨hShared, hPassword, hSecret, hPrevious, hLocked⟩, rfl⟩
  · rintro ⟨shared, password, secret, previous, h, rfl⟩
    exact ⟨shared, h.attached, password, h.password_ok, secret, h.secret_ok, previous,
      h.previous_ok, (), h.locked, rfl⟩

theorem mergeLocConf_of_disabled (h : (level.settings prev).enabled = false) :
    mergeLocConf env level prev = .ok (level.settings prev) := by
  simp [mergeLocConf, h]

theorem mergeLocConf_of_enabled (h : (level.settings prev).enabled = true) :
    mergeLocConf env level prev = enableLocConf env level.calls prev (level.settings prev) := by
  simp [mergeLocConf, h]

/-- Every way a merge can end without an error. -/
theorem mergeLocConf_cases (h : mergeLocConf env level prev = .ok conf) :
    ((level.settings prev).enabled = false ∧ conf = level.settings prev) ∨
      ((level.settings prev).enabled = true ∧ ∃ shared password secret previous,
        Enabled env level.calls prev (level.settings prev) shared password secret previous ∧
          conf = (level.settings prev).fill shared password secret previous) := by
  cases hOn : (level.settings prev).enabled with
  | false =>
      rw [mergeLocConf_of_disabled hOn] at h
      cases h
      exact .inl ⟨rfl, rfl⟩
  | true =>
      rw [mergeLocConf_of_enabled hOn, enableLocConf_eq_ok] at h
      exact .inr ⟨rfl, h⟩

theorem attachThreadPool_ok {calls : ConfCalls} {pool : Bool}
    (h : attachThreadPool env calls conf = .ok pool) :
    pool = (env.threads && conf.threadPoolName.getD [] != ascii "off") := by
  simp only [attachThreadPool] at h
  split at h
  · rename_i hOff
    cases h
    obtain hOff | hOff := hOff
    · simp [hOff]
    · simp [hOff]
  · rename_i hOn
    rw [not_or] at hOn
    obtain ⟨-, -, hPool⟩ := bind_eq_ok.mp h
    cases hPool
    simp [hOn.1, hOn.2]

theorem attachNonceZone_ok {calls : ConfCalls} {zone : Bool} (hNew : conf.nonceZone = false)
    (h : attachNonceZone calls prev conf = .ok zone) :
    zone = decide (conf.nonceStorage = some .memory ∨ conf.nonceStorage = some .redis) := by
  simp only [attachNonceZone] at h
  split at h
  · rename_i hStores
    obtain ⟨-, -, hZone⟩ := bind_eq_ok.mp h
    cases hZone
    simp only [hStores, decide_true]
  · rename_i hNone
    cases h
    simp only [hNew, hNone, decide_false]

theorem attachFailureZone_ok {calls : ConfCalls} {zone : Bool} (hNew : conf.failureZone = false)
    (h : attachFailureZone calls prev conf = .ok zone) :
    zone = decide (0 < conf.failureLimit.getD 0) := by
  simp only [attachFailureZone] at h
  split at h
  · rename_i hLimit
    obtain ⟨-, -, hZone⟩ := bind_eq_ok.mp h
    cases hZone
    simp only [hLimit, decide_true]
  · rename_i hOff
    cases h
    simp only [hNew, hOff, decide_false]

/-- What the checks of an enabled block establish. -/
structure Attached.Checked (env : ConfEnv) (conf : RawLocConf) (shared : Attached) : Prop where
  threadPool : shared.threadPool = (env.threads && conf.threadPoolName.getD [] != ascii "off")
  gpgPath : IsAbsolute (conf.gpgPath.getD [])
  noncePassword : (conf.noncePassword.getD []).length ≤ 256
  keyring : IsAbsolute (conf.keyring.getD [])
  nonceZone : shared.nonceZone =
    decide (conf.nonceStorage = some .memory ∨ conf.nonceStorage = some .redis)
  nonceAddr : conf.nonceStorage = some .redis → conf.nonceAddr.getD [] ≠ []
  failureZone : shared.failureZone = decide (0 < conf.failureLimit.getD 0)

theorem attachShared_ok {calls : ConfCalls} {shared : Attached} (hNonce : conf.nonceZone = false)
    (hFailure : conf.failureZone = false) (h : attachShared env calls prev conf = .ok shared) :
    shared.Checked env conf := by
  simp only [attachShared, bind_eq_ok, ensure_eq_ok] at h
  obtain ⟨pool, hPool, -, hGpg, -, hPassword, -, hKeyring, zone, hZone, -, hAddr, failures,
    hFailures, hShared⟩ := h
  cases hShared
  refine ⟨attachThreadPool_ok hPool, hGpg, hPassword, hKeyring, attachNonceZone_ok hNonce hZone,
    ?_, attachFailureZone_ok hFailure hFailures⟩
  intro hRedis
  exact hAddr.resolve_left (not_not_intro hRedis)

theorem loadSecret_ne_nil {path secret : Bytes} (h : loadSecret env path = .ok secret) :
    secret ≠ [] := by
  unfold loadSecret at h
  split at h
  · cases h
  · dsimp only at h
    split at h
    · cases h
    · split at h
      · cases h
      · split at h
        · cases h
        · split at h
          · cases h
          · rename_i hSome
            cases h
            exact hSome

/-- Every way a file directive can be settled. -/
theorem inheritOrLoad_cases {file prevFile : Option Bytes} {prevContent : Bytes}
    {unset : Except ConfError Bytes} {loaded : Loaded}
    (h : inheritOrLoad env file prevFile prevContent unset = .ok loaded) :
    (SameFile (file.getD []) (prevFile.getD []) ∧ prevContent ≠ [] ∧
        loaded = ⟨file, prevContent⟩) ∨
      (file.getD [] ≠ [] ∧ loadSecret env (fullName env (file.getD [])) = .ok loaded.content ∧
        loaded.file = some (fullName env (file.getD []))) ∨
      (file.getD [] = [] ∧ unset = .ok loaded.content ∧ loaded.file = file) := by
  simp only [inheritOrLoad] at h
  split at h
  · rename_i hSame
    cases h
    exact .inl ⟨hSame.1, hSame.2, rfl⟩
  · split at h
    · rename_i hPath
      obtain ⟨content, hLoad, hLoaded⟩ := bind_eq_ok.mp h
      cases hLoaded
      exact .inr (.inl ⟨hPath, hLoad, rfl⟩)
    · rename_i hPath
      obtain ⟨content, hUnset, hLoaded⟩ := bind_eq_ok.mp h
      cases hLoaded
      exact .inr (.inr ⟨not_not.mp hPath, hUnset, rfl⟩)

theorem loadSessionSecret_ne_nil {calls : ConfCalls} {loaded : Loaded}
    (h : loadSessionSecret env calls prev conf = .ok loaded) : loaded.content ≠ [] := by
  obtain ⟨-, hPrev, rfl⟩ | ⟨-, hLoad, -⟩ | ⟨-, hRand, -⟩ := inheritOrLoad_cases h
  · exact hPrev
  · exact loadSecret_ne_nil hLoad
  · split at hRand
    · rename_i r hSome
      have hLength := r.property
      rw [Except.ok.inj hRand] at hLength
      intro hNil
      simp [hNil] at hLength
    · cases hRand

/-- What a merge leaves in the record of an enabled block. -/
structure RawLocConf.Checked (env : ConfEnv) (conf : RawLocConf) : Prop where
  threadPool : conf.threadPool = (env.threads && conf.threadPoolName.getD [] != ascii "off")
  gpgPath : IsAbsolute (conf.gpgPath.getD [])
  keyring : IsAbsolute (conf.keyring.getD [])
  nonceZone : conf.nonceZone =
    decide (conf.nonceStorage = some .memory ∨ conf.nonceStorage = some .redis)
  nonceAddr : conf.nonceStorage = some .redis → conf.nonceAddr.getD [] ≠ []
  failureZone : conf.failureZone = decide (0 < conf.failureLimit.getD 0)
  secret : conf.secret ≠ []

theorem mergeLocConf_checked (h : mergeLocConf env level prev = .ok conf)
    (hOn : conf.enabled = true) : conf.Checked env := by
  obtain ⟨hOff, rfl⟩ | ⟨-, shared, password, secret, previous, hEnabled, rfl⟩ :=
    mergeLocConf_cases h
  · rw [hOff] at hOn
    cases hOn
  · have hShared := attachShared_ok rfl rfl hEnabled.attached
    exact ⟨hShared.threadPool, hShared.gpgPath, hShared.keyring, hShared.nonceZone,
      hShared.nonceAddr, hShared.failureZone, loadSessionSecret_ne_nil hEnabled.secret_ok⟩

/-- What `fill` leaves alone is settled by the first part of the merge. -/
theorem mergeLocConf_frame {α : Type} (g : RawLocConf → α)
    (hFill : ∀ conf shared password secret previous,
      g (conf.fill shared password secret previous) = g conf)
    (h : mergeLocConf env level prev = .ok conf) : g conf = g (level.settings prev) := by
  obtain ⟨-, rfl⟩ | ⟨-, shared, password, secret, previous, -, rfl⟩ := mergeLocConf_cases h
  · rfl
  · exact hFill _ _ _ _ _

/-- The values of one directive, block by block from the inside out. -/
def writtenIn {α : Type} (get : Directives → Option α) (http : Directives)
    (levels : List Level) : List (Option α) :=
  levels.map (fun level => get level.block) ++ [get http]

theorem confOf_cons_ok {http : Directives} {enclosing : List Level} :
    confOf env http (level :: enclosing) = .ok conf ↔
      ∃ prev, confOf env http enclosing = .ok prev ∧ mergeLocConf env level prev = .ok conf :=
  settled_cons_ok

/-- `enable` is inherited as it is. -/
theorem confOf_enabled {http : Directives} {levels : List Level}
    (h : confOf env http levels = .ok conf) :
    conf.enabled = nearest false (writtenIn (·.enable) http levels) := by
  refine settled_nearest (·.enable) (·.block.enable) false id ?_ h
  intro level prev c hMerge
  rw [mergeLocConf_frame (·.enable) (fun _ _ _ _ _ => rfl) hMerge]
  rfl

/-! ## A small installation -/

def SecretFile.ofBytes (bytes : Bytes) : SecretFile := ⟨bytes.length, bytes, le_refl _⟩

/-- Three secret files below `/etc/nginx`. -/
def sampleEnv : ConfEnv where
  threads := true
  confPrefix := ascii "/etc/nginx/"
  files path :=
    ([(ascii "/etc/nginx/session.key", ascii "0123456789abcdef\n"),
      (ascii "/etc/nginx/old.key", ascii "fedcba9876543210\n"),
      (ascii "/etc/nginx/redis.pw", ascii "hunter2\n")].lookup path).map SecretFile.ofBytes

/-- Every call succeeds. -/
def sampleCalls : ConfCalls where
  threadPoolAdd _ := true
  nonceAddZone _ := true
  throttleAddZone _ := true
  randBytes := some ⟨List.replicate 32 7, by decide⟩
  mlock _ := true

end PgpAuth
