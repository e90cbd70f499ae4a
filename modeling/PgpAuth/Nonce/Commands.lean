import PgpAuth.Config.Credentials
import PgpAuth.Lib.Resp
import PgpAuth.Nonce.Redis

/-!
# The commands sent to Redis

Both commands are printed into a buffer of 512 bytes and what does not fit is cut off. Merging
refuses a password of more than 256 bytes, but it looks at the inline password only: one that
is then loaded from a file has up to 65536 bytes. The key prefix is not bounded at all.

Read back with `respParse`, the commands of a call are the ones that were meant exactly as
long as the password has at most 490 bytes and the prefix leaves room for the lifetime
(`redis_commands_well_formed`); a password file of 491 bytes is accepted, and its `AUTH` is
cut off (`long_password_cut_off`).
-/

namespace PgpAuth

open Lib

/-- What a call is to send, in this order. -/
def redisCommands (nc : LocConf) (nonce : Bytes) (ttl : Nat) : List (List Bytes) :=
  (if nc.noncePassword = [] then [] else [[ascii "AUTH", nc.noncePassword]]) ++
    [[ascii "SET", nc.nonceKeyPrefix ++ nonce, ascii "1", ascii "NX", ascii "EX", decimal ttl]]

/-- The longest string that Redis takes in a command. -/
def redisMaxBulk : Nat := 512 * 1024 * 1024

/-- Each command handed over is one complete array, the one meant; a call that fails on the
way sends fewer of them. -/
def CommandsWellFormed (nc : LocConf) (vr : VerifyResult) (nonce : Bytes) (exp : Int)
    (env : RedisEnv) : Prop :=
  (nonceRedis nc vr nonce exp env).2.2.map (respParse redisMaxBulk) <+:
    (redisCommands nc nonce (exp - env.now).toNat).map some

/-- No password is set, or the answer to `AUTH` starts with a plus. -/
def RedisEnv.AuthAccepted (env : RedisEnv) (nc : LocConf) : Prop :=
  nc.noncePassword = [] ∨
    env.authWritten = true ∧ env.inbox.head?.any (startsWith '+') = true

/-! ## Printing -/

theorem respBulk_eq (s : Bytes) : respBulk s = bulkString s := by
  simp [respBulk, bulkString, lengthLine, ascii, crlf, charByte]

theorem redisAuthCommand_eq (password : Bytes) :
    redisAuthCommand password = (respEncode [ascii "AUTH", password]).take 512 := by
  have hHead : lengthLine 42 2 = ascii "*2" ++ crlf := by decide
  simp [redisAuthCommand, respEncode, respBulk_eq, hHead]

theorem redisSetCommand_eq (keyPrefix nonce : Bytes) (ttl : Nat) :
    redisSetCommand keyPrefix nonce ttl =
      (respEncode [ascii "SET", keyPrefix ++ nonce, ascii "1", ascii "NX", ascii "EX",
        decimal ttl]).take 512 := by
  have hHead : lengthLine 42 6 = ascii "*6" ++ crlf := by decide
  simp [redisSetCommand, respEncode, respBulk_eq, hHead]

theorem authCommand_fits (password : Bytes) :
    (respEncode [ascii "AUTH", password]).length ≤ 512 ↔ password.length ≤ 490 := by
  have hHead : (lengthLine 42 2).length = 4 := by decide
  have hAuth : (bulkString (ascii "AUTH")).length = 10 := by decide
  have hThree : (decimal password.length).length ≤ 3 ↔ password.length < 10 ^ 3 :=
    length_decimal_le_iff (by decide)
  have hTwo : (decimal password.length).length ≤ 2 ↔ password.length < 10 ^ 2 :=
    length_decimal_le_iff (by decide)
  simp only [respEncode, List.length_append, List.flatMap_cons, List.flatMap_nil,
    List.length_cons, List.length_nil, length_bulkString password, Nat.reduceAdd]
  omega

theorem setCommand_fits {keyPrefix nonce : Bytes} {ttl : Nat} (hNonce : nonce.length = 32)
    (hTtl : ttl ≤ 3600) :
    (respEncode [ascii "SET", keyPrefix ++ nonce, ascii "1", ascii "NX", ascii "EX",
        decimal ttl]).length ≤ 512 ↔
      keyPrefix.length + (decimal ttl).length ≤ 430 := by
  have hHead : (lengthLine 42 6).length = 4 := by decide
  have hWords : (bulkString (ascii "SET")).length = 9 ∧ (bulkString (ascii "1")).length = 7 ∧
      (bulkString (ascii "NX")).length = 8 ∧ (bulkString (ascii "EX")).length = 8 := by decide
  have hKey : (keyPrefix ++ nonce).length = keyPrefix.length + 32 := by
    rw [List.length_append, hNonce]
  have hThree : (decimal (keyPrefix.length + 32)).length ≤ 3 ↔ keyPrefix.length + 32 < 10 ^ 3 :=
    length_decimal_le_iff (by decide)
  have hTwo : (decimal (keyPrefix.length + 32)).length ≤ 2 ↔ keyPrefix.length + 32 < 10 ^ 2 :=
    length_decimal_le_iff (by decide)
  have hDigits : (decimal ttl).length ≤ 4 := (length_decimal_le_iff (by decide)).mpr (by omega)
  -- the lifetime has one to four digits, so its length has one
  have hOne : (decimal (decimal ttl).length).length = 1 := by
    have hLe : (decimal (decimal ttl).length).length ≤ 1 :=
      (length_decimal_le_iff (by decide)).mpr (by omega)
    have hPos := List.length_pos_of_ne_nil (decimal_ne_nil (decimal ttl).length)
    omega
  simp only [respEncode, List.length_append, List.flatMap_cons, List.flatMap_nil,
    List.length_cons, List.length_nil, length_bulkString (keyPrefix ++ nonce),
    length_bulkString (decimal ttl), hKey, Nat.reduceAdd]
  omega

theorem respParse_redisAuthCommand (password : Bytes) :
    respParse redisMaxBulk (redisAuthCommand password) = some [ascii "AUTH", password] ↔
      password.length ≤ 490 := by
  rw [redisAuthCommand_eq, respParse_take (by decide), authCommand_fits]

theorem respParse_redisSetCommand {keyPrefix nonce : Bytes} {ttl : Nat}
    (hNonce : nonce.length = 32) (hTtl : ttl ≤ 3600) :
    respParse redisMaxBulk (redisSetCommand keyPrefix nonce ttl) =
        some [ascii "SET", keyPrefix ++ nonce, ascii "1", ascii "NX", ascii "EX", decimal ttl] ↔
      keyPrefix.length + (decimal ttl).length ≤ 430 := by
  rw [redisSetCommand_eq, respParse_take (by decide), setCommand_fits hNonce hTtl]

/-! ## What is sent -/

theorem roundtrip_any_startsWith (written : Bool) (inbox : List Bytes) :
    (nonceRedisRoundtrip written inbox).1.any (startsWith '+') =
      (written && inbox.head?.any (startsWith '+')) := by
  cases written with
  | false => rfl
  | true =>
      cases inbox with
      | nil => rfl
      | cons piece inbox =>
          cases piece with
          | nil => rfl
          | cons b bs => rfl

theorem redisExchange_sent (nc : LocConf) (vr : VerifyResult) (nonce : Bytes) (ttl : Nat)
    (env : RedisEnv) :
    (redisExchange nc vr nonce ttl env).2.2 =
      if nc.noncePassword = [] then [redisSetCommand nc.nonceKeyPrefix nonce ttl]
      else if env.authWritten = true ∧ env.inbox.head?.any (startsWith '+') = true then
        [redisAuthCommand nc.noncePassword, redisSetCommand nc.nonceKeyPrefix nonce ttl]
      else [redisAuthCommand nc.noncePassword] := by
  unfold redisExchange
  simp only [roundtrip_any_startsWith, Bool.and_eq_true]
  split_ifs <;> rfl

variable {nc : LocConf} {nonce : Bytes} {exp : Int} {env : RedisEnv}

theorem commandsWellFormed_iff (hNonce : nonce.length = 32) (hTtl : 1 ≤ exp - env.now)
    (hTtl' : exp - env.now ≤ 3600) (vr : VerifyResult) :
    CommandsWellFormed nc vr nonce exp env ↔
      ¬env.Connected nc ∨
        (nc.noncePassword.length ≤ 490 ∧
          (env.AuthAccepted nc →
            nc.nonceKeyPrefix.length + (decimal (exp - env.now).toNat).length ≤ 430)) := by
  by_cases hConn : env.Connected nc
  · have hAuth := respParse_redisAuthCommand nc.noncePassword
    have hSet : respParse redisMaxBulk
          (redisSetCommand nc.nonceKeyPrefix nonce (exp - env.now).toNat) = some _ ↔ _ :=
      respParse_redisSetCommand hNonce (by omega)
    rw [CommandsWellFormed, nonceRedis_connected hConn (by omega), redisExchange_sent,
      redisCommands, RedisEnv.AuthAccepted, or_iff_right (not_not_intro hConn)]
    generalize (exp - env.now).toNat = ttl at hSet ⊢
    by_cases hPassword : nc.noncePassword = []
    · simp [hPassword, hSet]
    · by_cases hOk : env.authWritten = true ∧ env.inbox.head?.any (startsWith '+') = true
      · simp [hPassword, hOk, hAuth, hSet]
      · simp [hPassword, hOk, hAuth]
  · refine iff_of_true ?_ (.inl hConn)
    rw [CommandsWellFormed, nonceRedis_not_connected hConn]
    exact List.nil_prefix

/-- Without a password file of its own, an enabled block ends with a password that the merge
has measured. -/
theorem noncePassword_length_le {cenv : ConfEnv} {http : Directives} {level : Level}
    {enclosing : List Level} {conf : RawLocConf}
    (h : confOf cenv http (level :: enclosing) = .ok conf) (hOn : conf.enabled = true)
    (hFile : level.block.noncePasswordFile.getD [] = []) :
    conf.toLocConf.noncePassword.length ≤ 256 := by
  obtain ⟨prev, -, hMerge⟩ := confOf_cons_ok.mp h
  obtain ⟨hOff, rfl⟩ | ⟨-, shared, password, secret, previous, hEnabled, rfl⟩ :=
    mergeLocConf_cases hMerge
  · rw [hOff] at hOn
    cases hOn
  · have hChecked := attachShared_ok rfl rfl hEnabled.attached
    obtain ⟨-, hInline⟩ | ⟨hFile', -⟩ := loadNoncePassword_cases hEnabled.password_ok
    · show password.content.length ≤ 256
      rw [hInline]
      exact hChecked.noncePassword
    · exact absurd hFile hFile'

/-- The commands of a call are well formed exactly if none is sent, or the password has at most
490 bytes and, unless `AUTH` fails, prefix and lifetime have at most 430 bytes together. Only
a password file can break the first bound in an enabled block. -/
theorem redis_commands_well_formed {cenv : ConfEnv} {http : Directives} {level : Level}
    {enclosing : List Level} {conf : RawLocConf}
    (hConf : confOf cenv http (level :: enclosing) = .ok conf) (hNonce : nonce.length = 32)
    (hTtl : 1 ≤ exp - env.now) (hTtl' : exp - env.now ≤ 3600) (vr : VerifyResult) :
    (CommandsWellFormed conf.toLocConf vr nonce exp env ↔
        ¬env.Connected conf.toLocConf ∨
          (conf.toLocConf.noncePassword.length ≤ 490 ∧
            (env.AuthAccepted conf.toLocConf →
              conf.toLocConf.nonceKeyPrefix.length +
                (decimal (exp - env.now).toNat).length ≤ 430))) ∧
      (conf.enabled = true → 256 < conf.toLocConf.noncePassword.length →
        level.block.noncePasswordFile.getD [] ≠ []) := by
  refine ⟨commandsWellFormed_iff hNonce hTtl hTtl' vr, ?_⟩
  intro hOn hLong hFile
  have := noncePassword_length_le hConf hOn hFile
  omega

/-! ## A password file -/

def redisLocation : Level :=
  ⟨{ enable := some true
     secretFile := some (ascii "session.key")
     nonceStorage := some .redis
     nonceAddr := some (ascii "127.0.0.1:6379")
     noncePasswordFile := some (ascii "redis.pw") }, sampleCalls⟩

theorem redisLocation_conf :
    (confOf sampleEnv {} [redisLocation]).map RawLocConf.toLocConf =
      .ok (redisConf (ascii "hunter2")) := by
  decide +kernel

theorem redisLocation_commands :
    CommandsWellFormed (redisConf (ascii "hunter2")) signedResult signedNonce 1120
      (willingRedis [okReply, okReply]) := by
  obtain ⟨conf, hConf, hLoc⟩ := exists_of_map_toLocConf redisLocation_conf
  rw [← hLoc]
  refine (redis_commands_well_formed hConf (by decide) (by decide) (by decide) _).1.mpr (.inr ?_)
  rw [hLoc]
  exact ⟨by decide, fun _ => by decide⟩

/-- The same installation with 491 bytes in the password file. -/
def longPasswordEnv : ConfEnv :=
  { sampleEnv with
    files := fun path =>
      if path = ascii "/etc/nginx/redis.pw" then
        some (SecretFile.ofBytes (List.replicate 491 120))
      else sampleEnv.files path }

/-- It is accepted, but its `AUTH` ends before the string it announces does. -/
theorem long_password_cut_off :
    (confOf longPasswordEnv {} [redisLocation]).map RawLocConf.toLocConf =
        .ok (redisConf (List.replicate 491 120)) ∧
      signedNonce.length = 32 ∧ signedNonce.all isHexDigit = true ∧
      (1120 : Int) - (willingRedis [okReply, okReply]).now = 120 ∧
      ¬CommandsWellFormed (redisConf (List.replicate 491 120)) signedResult signedNonce 1120
        (willingRedis [okReply, okReply]) := by
  refine ⟨by decide +kernel, by decide, by decide, rfl, ?_⟩
  rw [commandsWellFormed_iff (by decide) (by decide) (by decide)]
  rintro (hClosed | ⟨hShort, -⟩)
  · exact hClosed (willingRedis_connected _ _)
  · have hLength : (redisConf (List.replicate 491 120)).noncePassword.length = 491 :=
      List.length_replicate
    omega

end PgpAuth
