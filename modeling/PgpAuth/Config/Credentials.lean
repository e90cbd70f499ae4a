import PgpAuth.Config.Merge

/-!
# Inherited credentials

The session secret, the previous secret and the `AUTH` password of the nonce store come from
four directives. An enabled block that leaves one of them unset should end up with the same
credentials as if it repeated what its surroundings say. It does so for `pgp_session_secret`:
the path is merged, and with an absolute prefix a path completed once stays as it is, so the
file loaded above is the file that would be loaded here (`SecretSettled`). The files of the
previous secret and of the password are not merged, so a block that leaves them unset has no
previous secret, and a block that repeats the password file meets the password its
surroundings loaded as if it were written inline.

`inheritsAsWritten_iff` says for each directive exactly when it is inherited.
-/

namespace PgpAuth

open Lib

inductive CredentialDirective where
  | sessionSecret
  | sessionSecretPrevious
  | noncePassword
  | noncePasswordFile
  deriving DecidableEq, Repr

namespace CredentialDirective

def get : CredentialDirective → Directives → Option Bytes
  | sessionSecret, block => block.secretFile
  | sessionSecretPrevious, block => block.secretPreviousFile
  | noncePassword, block => block.noncePassword
  | noncePasswordFile, block => block.noncePasswordFile

def set (v : Bytes) : CredentialDirective → Directives → Directives
  | sessionSecret, block => { block with secretFile := some v }
  | sessionSecretPrevious, block => { block with secretPreviousFile := some v }
  | noncePassword, block => { block with noncePassword := some v }
  | noncePasswordFile, block => { block with noncePasswordFile := some v }

end CredentialDirective

/-- The same block with the directive written in it. -/
def Level.write (level : Level) (d : CredentialDirective) (v : Bytes) : Level :=
  { level with block := d.set v level.block }

structure Credentials where
  secret : Bytes
  previous : Bytes
  password : Bytes
  deriving DecidableEq, Repr

def RawLocConf.credentials (conf : RawLocConf) : Credentials :=
  ⟨conf.secret, conf.secretPrevious, conf.noncePassword.getD []⟩

/-- What the innermost block ends its merge with. -/
def credentialsOf (env : ConfEnv) (http : Directives) (levels : List Level) :
    Except ConfError Credentials :=
  (confOf env http levels).map RawLocConf.credentials

/-- The block is accepted as it is and with `v` written in it, with the same credentials. -/
def InheritsAsWritten (env : ConfEnv) (http : Directives) (level : Level)
    (enclosing : List Level) (d : CredentialDirective) (v : Bytes) : Prop :=
  ∃ c, credentialsOf env http (level :: enclosing) = .ok c ∧
    credentialsOf env http (level.write d v :: enclosing) = .ok c

/-- From the inside out, an enabled block with a password file comes before the first block
that writes the password inline, or is that block. -/
def passwordFromFile (http : Directives) : List Level → Bool
  | [] => false
  | level :: enclosing =>
      if level.block.noncePasswordFile.getD [] ≠ [] ∧
          nearest false (writtenIn (·.enable) http (level :: enclosing)) = true then true
      else if level.block.noncePassword.isSome then false
      else passwordFromFile http enclosing

/-- The settings `v` that the enclosing blocks pass on. -/
def CredentialDirective.PassedOn (http : Directives) (enclosing : List Level) (v : Bytes) :
    CredentialDirective → Prop
  | sessionSecret => True
  | sessionSecretPrevious => v = []
  | noncePassword => passwordFromFile http enclosing = false
  | noncePasswordFile => v = []

/-! ## Paths -/

section Paths

variable {env : ConfEnv}

theorem isAbsolute_cString {path : Bytes} : IsAbsolute (cString path) ↔ IsAbsolute path := by
  cases path with
  | nil => rfl
  | cons b rest =>
      by_cases hNul : b = 0
      · simp [IsAbsolute, cString, hNul]
      · simp [IsAbsolute, cString, hNul]

theorem isAbsolute_fullName (hPrefix : IsAbsolute env.confPrefix) (path : Bytes) :
    IsAbsolute (fullName env path) := by
  unfold fullName
  split
  · assumption
  · rw [IsAbsolute] at hPrefix ⊢
    rw [List.head?_append, hPrefix]
    rfl

theorem fullName_of_isAbsolute {path : Bytes} (h : IsAbsolute path) : fullName env path = path :=
  if_pos h

theorem fullName_ne_nil {path : Bytes} (h : path ≠ []) : fullName env path ≠ [] := by
  unfold fullName
  split
  · exact h
  · simp [h]

/-- The file a path stands for; an empty path stands for none. -/
def resolve (env : ConfEnv) (path : Bytes) : Bytes := if path = [] then [] else fullName env path

theorem resolve_eq_nil {path : Bytes} : resolve env path = [] ↔ path = [] := by
  unfold resolve
  split
  · simp [*]
  · rename_i hPath
    simp [hPath, fullName_ne_nil hPath]

theorem resolve_of_ne_nil {path : Bytes} (h : path ≠ []) : resolve env path = fullName env path :=
  if_neg h

/-- A path is completed at most once. -/
theorem resolve_fullName (hPrefix : IsAbsolute env.confPrefix) {path : Bytes} (h : path ≠ []) :
    resolve env (fullName env path) = resolve env path := by
  rw [resolve_of_ne_nil h, resolve_of_ne_nil (fullName_ne_nil h),
    fullName_of_isAbsolute (isAbsolute_fullName hPrefix path)]

/-- Only the bytes before a NUL reach `open`. -/
theorem loadSecret_of_cString_eq {path other secret : Bytes} (hSame : cString path = cString other)
    (h : loadSecret env other = .ok secret) : loadSecret env path = .ok secret := by
  unfold loadSecret at h ⊢
  rw [hSame]
  cases hFile : env.files (cString other) with
  | none =>
      simp only [hFile] at h
      cases h
  | some file =>
      simp only [hFile] at h ⊢
      grind

end Paths

/-! ## The session secret -/

/-- The file is the one the nearest block names, and the loaded secret is its content. -/
structure SecretSettled (env : ConfEnv) (http : Directives) (levels : List Level)
    (conf : RawLocConf) : Prop where
  file : resolve env (conf.secretFile.getD []) =
    resolve env (nearest [] (writtenIn (·.secretFile) http levels))
  loaded : conf.secret ≠ [] → conf.secretFile.getD [] ≠ [] →
    IsAbsolute (conf.secretFile.getD []) ∧
      loadSecret env (conf.secretFile.getD []) = .ok conf.secret

section Invariants

variable {env : ConfEnv} {http : Directives} {level : Level} {levels : List Level}
  {prev conf : RawLocConf}

theorem mergeLocConf_secretFile (hPrefix : IsAbsolute env.confPrefix)
    (h : mergeLocConf env level prev = .ok conf) :
    resolve env (conf.secretFile.getD []) =
      resolve env (level.block.secretFile.getD (prev.secretFile.getD [])) := by
  obtain ⟨-, rfl⟩ | ⟨-, shared, password, secret, previous, hEnabled, rfl⟩ := mergeLocConf_cases h
  · rfl
  · obtain ⟨-, -, rfl⟩ | ⟨hPath, -, hFile⟩ | ⟨-, -, hFile⟩ :=
      inheritOrLoad_cases hEnabled.secret_ok
    · rfl
    · simp only [RawLocConf.fill, hFile, Option.getD_some]
      exact resolve_fullName hPrefix hPath
    · simp only [RawLocConf.fill, hFile]
      rfl

theorem mergeLocConf_secret_loaded (hPrefix : IsAbsolute env.confPrefix)
    (hPrev : prev.secret ≠ [] → prev.secretFile.getD [] ≠ [] →
      IsAbsolute (prev.secretFile.getD []) ∧
        loadSecret env (prev.secretFile.getD []) = .ok prev.secret)
    (h : mergeLocConf env level prev = .ok conf) (hSecret : conf.secret ≠ [])
    (hFile : conf.secretFile.getD [] ≠ []) :
    IsAbsolute (conf.secretFile.getD []) ∧
      loadSecret env (conf.secretFile.getD []) = .ok conf.secret := by
  obtain ⟨-, rfl⟩ | ⟨-, shared, password, secret, previous, hEnabled, rfl⟩ := mergeLocConf_cases h
  · exact absurd rfl hSecret
  · obtain ⟨hSame, hContent, rfl⟩ | ⟨-, hLoad, hPath⟩ | ⟨hNil, -, hPath⟩ :=
      inheritOrLoad_cases hEnabled.secret_ok
    · -- the file of the enclosing block, under the name written here
      have hNonempty : prev.secretFile.getD [] ≠ [] := by
        intro hNil
        have hLength := hSame.1
        rw [hNil] at hLength
        exact hFile (List.length_eq_zero_iff.mp hLength)
      obtain ⟨hAbsolute, hLoad⟩ := hPrev hContent hNonempty
      constructor
      · rw [← isAbsolute_cString] at hAbsolute ⊢
        rw [← hSame.2] at hAbsolute
        exact hAbsolute
      · exact loadSecret_of_cString_eq hSame.2 hLoad
    · simp only [RawLocConf.fill, hPath, Option.getD_some]
      exact ⟨isAbsolute_fullName hPrefix _, hLoad⟩
    · simp only [RawLocConf.fill, hPath] at hFile
      exact absurd hNil hFile

theorem secretSettled (hPrefix : IsAbsolute env.confPrefix)
    (h : confOf env http levels = .ok conf) : SecretSettled env http levels conf := by
  constructor
  · exact settled_nearest (·.secretFile) (·.block.secretFile) [] (resolve env)
      (fun _ _ _ hMerge => mergeLocConf_secretFile hPrefix hMerge) h
  · refine settled_invariant (fun _ conf => conf.secret ≠ [] → conf.secretFile.getD [] ≠ [] →
      IsAbsolute (conf.secretFile.getD []) ∧
        loadSecret env (conf.secretFile.getD []) = .ok conf.secret) ?_ ?_ h
    · intro hSecret
      exact absurd rfl hSecret
    · intro level levels prev conf hPrev hMerge
      exact mergeLocConf_secret_loaded hPrefix hPrev hMerge

/-! ## The previous secret -/

/-- A block that names no file of its own holds no previous secret. -/
theorem secretPrevious_eq_nil (h : confOf env http levels = .ok conf)
    (hFile : conf.secretPreviousFile.getD [] = []) : conf.secretPrevious = [] := by
  refine settled_invariant (fun _ conf => conf.secretPreviousFile.getD [] = [] →
    conf.secretPrevious = []) ?_ ?_ h hFile
  · intro _
    rfl
  · intro level levels prev conf hPrev hMerge hNone
    obtain ⟨-, rfl⟩ | ⟨-, shared, password, secret, previous, hEnabled, rfl⟩ :=
      mergeLocConf_cases hMerge
    · rfl
    · obtain ⟨hSame, hContent, rfl⟩ | ⟨hNamed, -, hPath⟩ | ⟨-, hUnset, -⟩ :=
        inheritOrLoad_cases hEnabled.previous_ok
      · have hLength : (prev.secretPreviousFile.getD []).length = 0 := by
          rw [← hSame.1]
          exact List.length_eq_zero_iff.mpr hNone
        exact absurd (hPrev (List.length_eq_zero_iff.mp hLength)) hContent
      · simp only [RawLocConf.fill, hPath, Option.getD_some] at hNone
        exact absurd hNone (fullName_ne_nil hNamed)
      · exact (Except.ok.inj hUnset).symm

/-! ## The password -/

theorem inheritOrLoad_ne_nil {file prevFile : Option Bytes} {prevContent : Bytes}
    {unset : Except ConfError Bytes} {loaded : Loaded} (hFile : file.getD [] ≠ [])
    (h : inheritOrLoad env file prevFile prevContent unset = .ok loaded) :
    loaded.content ≠ [] := by
  obtain ⟨-, hContent, rfl⟩ | ⟨-, hLoad, -⟩ | ⟨hNil, -, -⟩ := inheritOrLoad_cases h
  · exact hContent
  · exact loadSecret_ne_nil hLoad
  · exact absurd hNil hFile

theorem loadNoncePassword_cases {loaded : Loaded}
    (h : loadNoncePassword env prev conf = .ok loaded) :
    (conf.noncePasswordFile.getD [] = [] ∧ loaded.content = conf.noncePassword.getD []) ∨
      (conf.noncePasswordFile.getD [] ≠ [] ∧ conf.noncePassword.getD [] = [] ∧
        loaded.content ≠ []) := by
  simp only [loadNoncePassword] at h
  split at h
  · rename_i hFile
    cases h
    exact .inl ⟨hFile, rfl⟩
  · rename_i hFile
    obtain ⟨_, hInline, hLoad⟩ := bind_eq_ok.mp h
    exact .inr ⟨hFile, ensure_eq_ok.mp hInline, inheritOrLoad_ne_nil hFile hLoad⟩

/-- Where no password file was read on the way, the password is the nearest inline one; where
one was, the nearest inline one is empty and the password is not. -/
structure PasswordSettled (http : Directives) (levels : List Level) (conf : RawLocConf) :
    Prop where
  enabled : conf.enabled = nearest false (writtenIn (·.enable) http levels)
  inline : passwordFromFile http levels = false →
    conf.noncePassword.getD [] = nearest [] (writtenIn (·.noncePassword) http levels)
  file : passwordFromFile http levels = true →
    conf.noncePassword.getD [] ≠ [] ∧ nearest [] (writtenIn (·.noncePassword) http levels) = []

theorem writtenIn_cons {α : Type} (get : Directives → Option α) :
    writtenIn get http (level :: levels) = get level.block :: writtenIn get http levels :=
  rfl

/-- A level that reads no password file leaves the password to merging. -/
theorem PasswordSettled.cons_of_no_file (hPrev : PasswordSettled http levels prev)
    (hEnabled : conf.enabled = nearest false (writtenIn (·.enable) http (level :: levels)))
    (hNoFile : ¬(level.block.noncePasswordFile.getD [] ≠ [] ∧
      nearest false (writtenIn (·.enable) http (level :: levels)) = true))
    (hPassword : conf.noncePassword.getD [] =
      level.block.noncePassword.getD (prev.noncePassword.getD [])) :
    PasswordSettled http (level :: levels) conf := by
  have hFrom : passwordFromFile http (level :: levels) =
      if level.block.noncePassword.isSome then false else passwordFromFile http levels := by
    rw [passwordFromFile, if_neg hNoFile]
  refine ⟨hEnabled, ?_, ?_⟩
  · rw [hFrom, hPassword, writtenIn_cons, nearest_cons]
    cases level.block.noncePassword with
    | none => exact hPrev.inline
    | some v =>
        intro _
        rfl
  · rw [hFrom, hPassword, writtenIn_cons, nearest_cons]
    cases level.block.noncePassword with
    | none => exact hPrev.file
    | some v =>
        intro hFile
        cases hFile

/-- An empty merged password was empty as written. -/
theorem PasswordSettled.getD_eq_nil (hPrev : PasswordSettled http levels prev) (o : Option Bytes)
    (h : o.getD (prev.noncePassword.getD []) = []) :
    o.getD (nearest [] (writtenIn (·.noncePassword) http levels)) = [] := by
  cases o with
  | some v => exact h
  | none =>
      cases hFrom : passwordFromFile http levels with
      | false =>
          have hInline := hPrev.inline hFrom
          rw [Option.getD_none] at h ⊢
          rw [← hInline, h]
      | true => exact absurd h (hPrev.file hFrom).1

theorem PasswordSettled.merge (hPrev : PasswordSettled http levels prev)
    (h : mergeLocConf env level prev = .ok conf) :
    PasswordSettled http (level :: levels) conf := by
  have hSettings : (level.settings prev).enabled =
      nearest false (writtenIn (·.enable) http (level :: levels)) := by
    rw [writtenIn_cons, nearest_cons, ← hPrev.enabled]
    rfl
  have hEnabled := mergeLocConf_frame RawLocConf.enabled (fun _ _ _ _ _ => rfl) h
  rw [hSettings] at hEnabled
  obtain ⟨hOff, rfl⟩ | ⟨hOn, shared, password, secret, previous, hRun, rfl⟩ :=
    mergeLocConf_cases h
  · refine hPrev.cons_of_no_file hEnabled ?_ rfl
    rw [← hSettings, hOff]
    simp
  · obtain ⟨hFile, hContent⟩ | ⟨hFile, hInline, hContent⟩ :=
      loadNoncePassword_cases hRun.password_ok
    · exact hPrev.cons_of_no_file hEnabled (fun hBoth => hBoth.1 hFile) hContent
    · have hFrom : passwordFromFile http (level :: levels) = true := by
        rw [passwordFromFile, if_pos ⟨hFile, hSettings.symm.trans hOn⟩]
      refine ⟨hEnabled, ?_, ?_⟩
      · intro hNot
        rw [hFrom] at hNot
        cases hNot
      · intro _
        refine ⟨hContent, ?_⟩
        rw [writtenIn_cons, nearest_cons]
        exact hPrev.getD_eq_nil _ hInline

theorem passwordSettled (h : confOf env http levels = .ok conf) :
    PasswordSettled http levels conf := by
  refine settled_invariant (PasswordSettled http) ?_ ?_ h
  · refine ⟨?_, ?_, ?_⟩
    · simp [writtenIn, RawLocConf.enabled, createLocConf]
    · intro _
      simp [writtenIn, createLocConf]
    · intro hFile
      cases hFile
  · intro level levels prev conf hPrev hMerge
    exact hPrev.merge hMerge

end Invariants

/-! ## Both ways to write the block -/

/-- The merge of an enabled block passes its checks and ends with `c`. -/
structure EndsWith (env : ConfEnv) (level : Level) (prev : RawLocConf) (c : Credentials) :
    Prop where
  attached : ∃ shared, attachShared env level.calls prev (level.settings prev) = .ok shared
  password : (loadNoncePassword env prev (level.settings prev)).map Loaded.content =
    .ok c.password
  secret : (loadSessionSecret env level.calls prev (level.settings prev)).map Loaded.content =
    .ok c.secret
  previous : (loadSecretPrevious env prev (level.settings prev)).map Loaded.content =
    .ok c.previous
  locked : mlockSecrets level.calls ((level.settings prev).mlockRequired.getD false) c.secret
    c.previous c.password = .ok ()

section Written

variable {env : ConfEnv} {http : Directives} {level : Level} {enclosing : List Level}
  {prev : RawLocConf} {c : Credentials} {v : Bytes}

theorem endsWith_iff :
    EndsWith env level prev c ↔ ∃ shared password secret previous,
      Enabled env level.calls prev (level.settings prev) shared password secret previous ∧
        c = ⟨secret.content, previous.content, password.content⟩ := by
  constructor
  · intro h
    obtain ⟨shared, hShared⟩ := h.attached
    obtain ⟨password, hPassword, hPasswordC⟩ := map_eq_ok.mp h.password
    obtain ⟨secret, hSecret, hSecretC⟩ := map_eq_ok.mp h.secret
    obtain ⟨previous, hPrevious, hPreviousC⟩ := map_eq_ok.mp h.previous
    have hLocked := h.locked
    rw [← hPasswordC, ← hSecretC, ← hPreviousC] at hLocked
    refine ⟨shared, password, secret, previous,
      ⟨hShared, hPassword, hSecret, hPrevious, hLocked⟩, ?_⟩
    rw [hPasswordC, hSecretC, hPreviousC]
  · rintro ⟨shared, password, secret, previous, h, rfl⟩
    exact ⟨⟨shared, h.attached⟩, map_eq_ok.mpr ⟨password, h.password_ok, rfl⟩,
      map_eq_ok.mpr ⟨secret, h.secret_ok, rfl⟩, map_eq_ok.mpr ⟨previous, h.previous_ok, rfl⟩,
      h.locked⟩

/-- A directive may be written in the block when the checks and the loaded contents do not
tell the difference. -/
theorem endsWith_congr {other : Level} (hCalls : other.calls = level.calls)
    (hRequired : (level.settings prev).mlockRequired = (other.settings prev).mlockRequired)
    (hAttached : attachShared env level.calls prev (level.settings prev) =
      attachShared env level.calls prev (other.settings prev))
    (hPassword : (loadNoncePassword env prev (level.settings prev)).map Loaded.content =
      (loadNoncePassword env prev (other.settings prev)).map Loaded.content)
    (hSecret : (loadSessionSecret env level.calls prev (level.settings prev)).map Loaded.content =
      (loadSessionSecret env level.calls prev (other.settings prev)).map Loaded.content)
    (hPrevious : (loadSecretPrevious env prev (level.settings prev)).map Loaded.content =
      (loadSecretPrevious env prev (other.settings prev)).map Loaded.content) :
    EndsWith env level prev c ↔ EndsWith env other prev c := by
  constructor
  · intro h
    refine ⟨?_, hPassword.symm.trans h.password, ?_, hPrevious.symm.trans h.previous, ?_⟩
    · rw [hCalls, ← hAttached]
      exact h.attached
    · rw [hCalls, ← hSecret]
      exact h.secret
    · rw [hCalls, ← hRequired]
      exact h.locked
  · intro h
    refine ⟨?_, hPassword.trans h.password, ?_, hPrevious.trans h.previous, ?_⟩
    · rw [hAttached, ← hCalls]
      exact h.attached
    · rw [hSecret, ← hCalls]
      exact h.secret
    · rw [hRequired, ← hCalls]
      exact h.locked

theorem credentialsOf_cons_ok
    (hOn : nearest false (writtenIn (·.enable) http (level :: enclosing)) = true) :
    credentialsOf env http (level :: enclosing) = .ok c ↔
      ∃ prev, confOf env http enclosing = .ok prev ∧ EndsWith env level prev c := by
  have hMerge : ∀ prev, confOf env http enclosing = .ok prev →
      mergeLocConf env level prev = enableLocConf env level.calls prev (level.settings prev) := by
    intro prev hPrev
    apply mergeLocConf_of_enabled
    rw [← hOn, writtenIn_cons, nearest_cons, ← confOf_enabled hPrev]
    rfl
  simp only [credentialsOf, map_eq_ok, confOf_cons_ok, endsWith_iff]
  constructor
  · rintro ⟨conf, ⟨prev, hPrev, hConf⟩, rfl⟩
    rw [hMerge prev hPrev, enableLocConf_eq_ok] at hConf
    obtain ⟨shared, password, secret, previous, hEnabled, rfl⟩ := hConf
    exact ⟨prev, hPrev, shared, password, secret, previous, hEnabled, rfl⟩
  · rintro ⟨prev, hPrev, shared, password, secret, previous, hEnabled, rfl⟩
    refine ⟨(level.settings prev).fill shared password secret previous, ⟨prev, hPrev, ?_⟩, rfl⟩
    rw [hMerge prev hPrev, enableLocConf_eq_ok]
    exact ⟨shared, password, secret, previous, hEnabled, rfl⟩

/-- What is loaded depends on the path, not on whether the directive was there. -/
theorem inheritOrLoad_content_congr {file file' prevFile : Option Bytes} {prevContent : Bytes}
    {unset : Except ConfError Bytes} (h : file.getD [] = file'.getD []) :
    (inheritOrLoad env file prevFile prevContent unset).map Loaded.content =
      (inheritOrLoad env file' prevFile prevContent unset).map Loaded.content := by
  simp only [inheritOrLoad, h]
  split
  · rfl
  · split
    · rfl
    · cases unset <;> rfl

/-- The inherited path and the path as it was written load the same secret. -/
theorem sessionSecret_written (hPrev : SecretSettled env http enclosing prev)
    (hNear : nearest [] (writtenIn (·.secretFile) http enclosing) = v)
    (unset : Except ConfError Bytes) :
    (inheritOrLoad env (some (prev.secretFile.getD [])) prev.secretFile prev.secret unset).map
        Loaded.content =
      (inheritOrLoad env (some v) prev.secretFile prev.secret unset).map Loaded.content := by
  have hFile := hPrev.file
  rw [hNear] at hFile
  have hNil : prev.secretFile.getD [] = [] ↔ v = [] := by
    rw [← @resolve_eq_nil env, hFile, resolve_eq_nil]
  by_cases hv : v = []
  · exact inheritOrLoad_content_congr ((hNil.mpr hv).trans hv.symm)
  · have hPath : prev.secretFile.getD [] ≠ [] := mt hNil.mp hv
    have hFull : fullName env (prev.secretFile.getD []) = fullName env v := by
      rw [← resolve_of_ne_nil hPath, hFile, resolve_of_ne_nil hv]
    by_cases hSecret : prev.secret = []
    · -- nothing was loaded above: both load the file
      simp only [inheritOrLoad, hSecret, Option.getD_some, ne_eq, not_true_eq_false, and_false,
        if_false, hPath, hv, not_false_eq_true, if_true, hFull]
    · have hSame : SameFile (prev.secretFile.getD []) (prev.secretFile.getD []) := ⟨rfl, rfl⟩
      simp only [inheritOrLoad, Option.getD_some, hSame, ne_eq, hSecret, not_false_eq_true,
        and_self, if_true, and_true, hv]
      by_cases hName : SameFile v (prev.secretFile.getD [])
      · rw [if_pos hName]
        rfl
      · -- another name for the file that was loaded above
        obtain ⟨hAbsolute, hLoad⟩ := hPrev.loaded hSecret hPath
        rw [if_neg hName, ← hFull, fullName_of_isAbsolute hAbsolute, hLoad]
        rfl

theorem endsWith_write_sessionSecret (hPrev : SecretSettled env http enclosing prev)
    (hUnset : level.block.secretFile = none)
    (hNear : nearest [] (writtenIn (·.secretFile) http enclosing) = v) :
    EndsWith env level prev c ↔ EndsWith env (level.write .sessionSecret v) prev c := by
  have hFile : (level.settings prev).secretFile = some (prev.secretFile.getD []) := by
    simp [Level.settings, mergeSettings, mergeValue, createLocConf, hUnset]
  have hSame : (loadSessionSecret env level.calls prev (level.settings prev)).map Loaded.content =
      (loadSessionSecret env level.calls prev
        ((level.write .sessionSecret v).settings prev)).map Loaded.content := by
    rw [loadSessionSecret, hFile]
    exact sessionSecret_written hPrev hNear _
  exact endsWith_congr rfl rfl rfl rfl hSame rfl

/-- An empty file directive says no more than a missing one. -/
theorem endsWith_write_previous_nil (hUnset : level.block.secretPreviousFile = none) :
    EndsWith env level prev c ↔ EndsWith env (level.write .sessionSecretPrevious []) prev c := by
  have hSame : (loadSecretPrevious env prev (level.settings prev)).map Loaded.content =
      (loadSecretPrevious env prev
        ((level.write .sessionSecretPrevious []).settings prev)).map Loaded.content := by
    refine inheritOrLoad_content_congr ?_
    show level.block.secretPreviousFile.getD [] = []
    rw [hUnset]
    rfl
  exact endsWith_congr rfl rfl rfl rfl rfl hSame

theorem endsWith_write_passwordFile_nil (hUnset : level.block.noncePasswordFile = none) :
    EndsWith env level prev c ↔ EndsWith env (level.write .noncePasswordFile []) prev c := by
  have hSame : (loadNoncePassword env prev (level.settings prev)).map Loaded.content =
      (loadNoncePassword env prev
        ((level.write .noncePasswordFile []).settings prev)).map Loaded.content := by
    have hFile : (level.settings prev).noncePasswordFile = none := hUnset
    rw [loadNoncePassword, loadNoncePassword, hFile]
    rfl
  exact endsWith_congr rfl rfl rfl hSame rfl rfl

/-- A file of the previous secret is not inherited. -/
theorem previous_not_passedOn (hPrev : confOf env http enclosing = .ok prev)
    (hUnset : level.block.secretPreviousFile = none) (hv : v ≠ [])
    (h : EndsWith env level prev c) :
    ¬EndsWith env (level.write .sessionSecretPrevious v) prev c := by
  intro hWritten
  obtain ⟨loaded, hLoad, hContent⟩ := map_eq_ok.mp h.previous
  obtain ⟨written, hLoadW, hContentW⟩ := map_eq_ok.mp hWritten.previous
  have hFileW : ((level.write .sessionSecretPrevious v).settings prev).secretPreviousFile.getD []
      ≠ [] := hv
  have hSome : written.content ≠ [] := inheritOrLoad_ne_nil hFileW hLoadW
  have hNone : (level.settings prev).secretPreviousFile.getD [] = [] := by
    show level.block.secretPreviousFile.getD [] = []
    rw [hUnset]
    rfl
  have hEmpty : loaded.content = [] := by
    obtain ⟨hSame, hPrevious, -⟩ | ⟨hPath, -, -⟩ | ⟨-, hOk, -⟩ := inheritOrLoad_cases hLoad
    · rw [hNone] at hSame
      have hFile := List.length_eq_zero_iff.mp hSame.1.symm
      exact absurd (secretPrevious_eq_nil hPrev hFile) hPrevious
    · exact absurd hNone hPath
    · exact (Except.ok.inj hOk).symm
  rw [hContentW, ← hContent, hEmpty] at hSome
  exact hSome rfl

/-- Nor is a password file: the block without it has the inline password, the block with it
is accepted only where that is empty. -/
theorem passwordFile_not_passedOn (hUnset : level.block.noncePasswordFile = none) (hv : v ≠ [])
    (h : EndsWith env level prev c) :
    ¬EndsWith env (level.write .noncePasswordFile v) prev c := by
  intro hWritten
  obtain ⟨loaded, hLoad, hContent⟩ := map_eq_ok.mp h.password
  obtain ⟨written, hLoadW, hContentW⟩ := map_eq_ok.mp hWritten.password
  have hNone : (level.settings prev).noncePasswordFile.getD [] = [] := by
    show level.block.noncePasswordFile.getD [] = []
    rw [hUnset]
    rfl
  obtain ⟨-, hInline⟩ | ⟨hFile, -⟩ := loadNoncePassword_cases hLoad
  · obtain ⟨hFileW, -⟩ | ⟨-, hInlineW, hSome⟩ := loadNoncePassword_cases hLoadW
    · exact hv hFileW
    · apply hSome
      rw [hContentW, ← hContent, hInline]
      exact hInlineW
  · exact hFile hNone

theorem endsWith_write_noncePassword (hUnset : level.block.noncePassword = none)
    (hPassword : prev.noncePassword.getD [] = v) :
    EndsWith env level prev c ↔ EndsWith env (level.write .noncePassword v) prev c := by
  have hMerged : (level.settings prev).noncePassword = some v := by
    simp [Level.settings, mergeSettings, mergeValue, createLocConf, hUnset, hPassword]
  have hSettings : level.settings prev = (level.write .noncePassword v).settings prev := by
    calc level.settings prev
        = { level.settings prev with noncePassword := some v } := by rw [← hMerged]
      _ = (level.write .noncePassword v).settings prev := rfl
  refine endsWith_congr rfl ?_ ?_ ?_ ?_ ?_
  all_goals rw [← hSettings]

/-- A password read from a file hides the inline one, and an empty inline one hides the file. -/
theorem password_not_passedOn (hUnset : level.block.noncePassword = none)
    (hPrev : prev.noncePassword.getD [] ≠ []) (h : EndsWith env level prev c) :
    ¬EndsWith env (level.write .noncePassword []) prev c := by
  intro hWritten
  obtain ⟨loaded, hLoad, hContent⟩ := map_eq_ok.mp h.password
  obtain ⟨written, hLoadW, hContentW⟩ := map_eq_ok.mp hWritten.password
  have hMerged : (level.settings prev).noncePassword.getD [] = prev.noncePassword.getD [] := by
    simp [Level.settings, mergeSettings, mergeValue, createLocConf, hUnset]
  obtain ⟨hFile, hInline⟩ | ⟨-, hNil, -⟩ := loadNoncePassword_cases hLoad
  · obtain ⟨-, hInlineW⟩ | ⟨hFileW, -⟩ := loadNoncePassword_cases hLoadW
    · apply hPrev
      rw [← hMerged, ← hInline, hContent, ← hContentW, hInlineW]
      rfl
    · exact hFileW hFile
  · rw [hMerged] at hNil
    exact hPrev hNil

theorem exists_ok_of_isOk {x : Except ConfError Credentials} (h : x.isOk = true) :
    ∃ c, x = .ok c := by
  cases x with
  | error e => cases h
  | ok c => exact ⟨c, rfl⟩

theorem exists_endsWith
    (hOn : nearest false (writtenIn (·.enable) http (level :: enclosing)) = true)
    (hOk : (credentialsOf env http (level :: enclosing)).isOk = true) :
    ∃ prev, confOf env http enclosing = .ok prev ∧ ∃ c, EndsWith env level prev c := by
  obtain ⟨c, hc⟩ := exists_ok_of_isOk hOk
  obtain ⟨prev, hPrev, hEnds⟩ := (credentialsOf_cons_ok hOn).mp hc
  exact ⟨prev, hPrev, c, hEnds⟩

/-- **Inherited credentials.** A block that leaves a credential directive unset ends like the
same block with the nearest enclosing setting written in it, exactly for the settings that
are passed on. -/
theorem inheritsAsWritten_iff {d : CredentialDirective}
    (hPrefix : d = .sessionSecret → IsAbsolute env.confPrefix)
    (hUnset : d.get level.block = none)
    (hNear : (writtenIn d.get http enclosing).findSome? id = some v)
    (hOn : nearest false (writtenIn (·.enable) http (level :: enclosing)) = true)
    (hOk : (credentialsOf env http (level :: enclosing)).isOk = true ∨
      (credentialsOf env http (level.write d v :: enclosing)).isOk = true) :
    InheritsAsWritten env http level enclosing d v ↔ d.PassedOn http enclosing v := by
  have hOnW : nearest false (writtenIn (·.enable) http (level.write d v :: enclosing)) = true := by
    cases d <;> exact hOn
  obtain ⟨prev, hPrev, c, hOne⟩ : ∃ prev, confOf env http enclosing = .ok prev ∧
      ∃ c, EndsWith env level prev c ∨ EndsWith env (level.write d v) prev c := by
    obtain hOk | hOk := hOk
    · obtain ⟨prev, hPrev, c, hEnds⟩ := exists_endsWith hOn hOk
      exact ⟨prev, hPrev, c, .inl hEnds⟩
    · obtain ⟨prev, hPrev, c, hEnds⟩ := exists_endsWith hOnW hOk
      exact ⟨prev, hPrev, c, .inr hEnds⟩
  have hBoth : InheritsAsWritten env http level enclosing d v ↔
      ∃ c, EndsWith env level prev c ∧ EndsWith env (level.write d v) prev c := by
    simp only [InheritsAsWritten, credentialsOf_cons_ok hOn, credentialsOf_cons_ok hOnW, hPrev,
      Except.ok.injEq, exists_eq_left']
  have hSame : (∀ c, EndsWith env level prev c ↔ EndsWith env (level.write d v) prev c) →
      InheritsAsWritten env http level enclosing d v := by
    intro hIff
    refine hBoth.mpr ⟨c, ?_, ?_⟩
    · exact hOne.elim id (hIff c).mpr
    · exact hOne.elim (hIff c).mp id
  have hDiffer : (∀ c, EndsWith env level prev c → ¬EndsWith env (level.write d v) prev c) →
      ¬InheritsAsWritten env http level enclosing d v := by
    intro hNot hInherits
    obtain ⟨c, hEnds, hEndsW⟩ := hBoth.mp hInherits
    exact hNot c hEnds hEndsW
  cases d with
  | sessionSecret =>
      refine iff_of_true (hSame fun c => ?_) trivial
      exact endsWith_write_sessionSecret (secretSettled (hPrefix rfl) hPrev) hUnset
        (nearest_of_findSome hNear)
  | sessionSecretPrevious =>
      by_cases hv : v = []
      · subst hv
        exact iff_of_true (hSame fun c => endsWith_write_previous_nil hUnset) rfl
      · exact iff_of_false (hDiffer fun c => previous_not_passedOn hPrev hUnset hv) hv
  | noncePassword =>
      have hSettled := passwordSettled hPrev
      cases hFrom : passwordFromFile http enclosing with
      | false =>
          have hPassword := (hSettled.inline hFrom).trans (nearest_of_findSome hNear)
          exact iff_of_true (hSame fun c => endsWith_write_noncePassword hUnset hPassword) hFrom
      | true =>
          obtain ⟨hPassword, hNil⟩ := hSettled.file hFrom
          have hv : v = [] := (nearest_of_findSome hNear).symm.trans hNil
          subst hv
          refine iff_of_false (hDiffer fun c => password_not_passedOn hUnset hPassword) ?_
          simp [CredentialDirective.PassedOn, hFrom]
  | noncePasswordFile =>
      by_cases hv : v = []
      · subst hv
        exact iff_of_true (hSame fun c => endsWith_write_passwordFile_nil hUnset) rfl
      · exact iff_of_false (hDiffer fun c => passwordFile_not_passedOn hUnset hv) hv

end Written

/-! ## A server with all three files -/

def sampleServer : Level :=
  ⟨{ enable := some true
     secretFile := some (ascii "session.key")
     secretPreviousFile := some (ascii "old.key")
     noncePasswordFile := some (ascii "redis.pw") }, sampleCalls⟩

def sampleLocation : Level := ⟨{}, sampleCalls⟩

theorem sampleLocation_credentials :
    credentialsOf sampleEnv {} [sampleLocation, sampleServer] =
      .ok ⟨ascii "0123456789abcdef", [], ascii "hunter2"⟩ := by
  decide +kernel

/-- The location shares the session secret of its server. -/
theorem sampleLocation_secret_inherited :
    InheritsAsWritten sampleEnv {} sampleLocation [sampleServer] .sessionSecret
      (ascii "session.key") := by
  have hOk : (credentialsOf sampleEnv {} [sampleLocation, sampleServer]).isOk = true := by
    rw [sampleLocation_credentials]
    rfl
  have hPrefix : IsAbsolute sampleEnv.confPrefix := by decide
  exact (inheritsAsWritten_iff (fun _ => hPrefix) rfl rfl rfl (.inl hOk)).mpr trivial

/-- It leaves the other two files unset as well, is enabled and accepted, but has no previous
secret and may not repeat the password file. -/
theorem sampleLocation_credentials_lost :
    nearest false (writtenIn (·.enable) {} [sampleLocation, sampleServer]) = true ∧
      sampleLocation.block.secretPreviousFile = none ∧
      sampleLocation.block.noncePasswordFile = none ∧
      credentialsOf sampleEnv {} [sampleLocation, sampleServer] =
        .ok ⟨ascii "0123456789abcdef", [], ascii "hunter2"⟩ ∧
      credentialsOf sampleEnv {}
          [sampleLocation.write .sessionSecretPrevious (ascii "old.key"), sampleServer] =
        .ok ⟨ascii "0123456789abcdef", ascii "fedcba9876543210", ascii "hunter2"⟩ ∧
      credentialsOf sampleEnv {}
          [sampleLocation.write .noncePasswordFile (ascii "redis.pw"), sampleServer] =
        .error .passwordTwice ∧
      ¬InheritsAsWritten sampleEnv {} sampleLocation [sampleServer] .sessionSecretPrevious
        (ascii "old.key") ∧
      ¬InheritsAsWritten sampleEnv {} sampleLocation [sampleServer] .noncePasswordFile
        (ascii "redis.pw") := by
  have hUnset := sampleLocation_credentials
  have hPrevious : credentialsOf sampleEnv {}
      [sampleLocation.write .sessionSecretPrevious (ascii "old.key"), sampleServer] =
        .ok ⟨ascii "0123456789abcdef", ascii "fedcba9876543210", ascii "hunter2"⟩ := by
    decide +kernel
  have hFile : credentialsOf sampleEnv {}
      [sampleLocation.write .noncePasswordFile (ascii "redis.pw"), sampleServer] =
        .error .passwordTwice := by
    decide +kernel
  refine ⟨rfl, rfl, rfl, hUnset, hPrevious, hFile, ?_, ?_⟩
  · rintro ⟨c, hc, hWritten⟩
    rw [hUnset] at hc
    rw [hPrevious] at hWritten
    cases hc
    cases hWritten
  · rintro ⟨c, -, hWritten⟩
    rw [hFile] at hWritten
    cases hWritten

end PgpAuth
