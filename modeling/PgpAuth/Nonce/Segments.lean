import PgpAuth.Nonce.Redis

/-!
# Replies in pieces

The replies of Redis arrive as one stream of bytes, in pieces of any size. `nonceRedisRoundtrip`
takes what one read returns for the reply: it does not read on to the end of a line, and does
not keep what belongs to the next one. Without a password there is one reply and its first
byte decides, however it is cut. With a password the bytes that the read after `AUTH` leaves
of its reply are taken for the reply to `SET`, and those it takes too many are lost.

`reads_setReply_iff` says exactly which pieces are read right; `auth_reply_in_two_pieces` are
some that are not.
-/

namespace PgpAuth

open Lib

/-- A simple string, a null of either version of the protocol, or an error. -/
inductive SetReply where
  | simple (text : Bytes)
  | null
  | null3
  | error (text : Bytes)
  deriving DecidableEq, Repr

namespace SetReply

def bytes : SetReply → Bytes
  | simple text => charByte '+' :: text ++ crlf
  | null => nilReply
  | null3 => ascii "_" ++ crlf
  | error text => charByte '-' :: text ++ crlf

/-- What the reply means. -/
def rc : SetReply → Rc
  | simple _ => .ok
  | null => .declined
  | null3 => .declined
  | error _ => .error

end SetReply

/-- All that the server sends during one call. -/
def replyStream (nc : LocConf) (reply : SetReply) : Bytes :=
  (if nc.noncePassword = [] then [] else okReply) ++ reply.bytes

/-- Both commands are sent, and the replies arrive in full, in pieces that are not empty. -/
structure RedisEnv.Answered (env : RedisEnv) (nc : LocConf) (exp : Int) (reply : SetReply) :
    Prop where
  connected : env.Connected nc
  inTime : env.now < exp
  authWritten : env.authWritten = true
  setWritten : env.setWritten = true
  ne_nil : ∀ piece ∈ env.inbox, piece ≠ []
  flatten : env.inbox.flatten = replyStream nc reply

/-- What is still to be read when the reply to `SET` is. -/
def setInbox (nc : LocConf) (env : RedisEnv) : List Bytes :=
  if nc.noncePassword = [] then env.inbox
  else (nonceRedisRoundtrip env.authWritten env.inbox).2

/-- The call returns what the reply means, and no byte of the reply to `AUTH` is left to be
read as the reply to `SET`. -/
def ReadsSetReply (nc : LocConf) (vr : VerifyResult) (nonce : Bytes) (exp : Int) (env : RedisEnv)
    (reply : SetReply) : Prop :=
  (nonceRedis nc vr nonce exp env).1 = reply.rc ∧ (setInbox nc env).flatten <:+ reply.bytes

/-- The read after `AUTH` took `n` bytes: its own five, or more of them and the next byte of the
reply to `SET` happens to mean what the reply does. -/
def InStep (reply : SetReply) (n : Nat) : Prop :=
  n = 5 ∨ 5 < n ∧
    match reply with
    | .simple _ => reply.bytes[n - 5]? = some (charByte '+')
    | .null => False
    | .null3 => False
    | .error _ => ∀ b ∈ reply.bytes[n - 5]?, b ∉ ascii "+$_"

/-! ## One read -/

/-- A read that finds a piece takes at most 127 bytes off the stream. -/
theorem roundtrip_cons {piece : Bytes} (hPiece : piece ≠ []) (inbox : List Bytes) :
    (nonceRedisRoundtrip true (piece :: inbox)).1 = some (piece.take 127) ∧
      (nonceRedisRoundtrip true (piece :: inbox)).2.flatten =
        (piece :: inbox).flatten.drop (min piece.length 127) ∧
      ((∀ p ∈ inbox, p ≠ []) → ∀ p ∈ (nonceRedisRoundtrip true (piece :: inbox)).2, p ≠ []) := by
  cases piece with
  | nil => exact absurd rfl hPiece
  | cons b bs =>
      refine ⟨rfl, ?_, ?_⟩
      · simp only [nonceRedisRoundtrip, List.flatten_cons]
        split
        · rename_i hAll
          have hLen := List.drop_eq_nil_iff.mp hAll
          rw [min_eq_left hLen, List.drop_left]
        · rename_i hRest
          have hLen : 127 ≤ (b :: bs).length := by
            by_contra hShort
            exact hRest (List.drop_eq_nil_of_le (by omega))
          rw [min_eq_right hLen, List.flatten_cons, List.drop_append_of_le_length hLen]
      · intro hInbox
        simp only [nonceRedisRoundtrip]
        split
        · exact hInbox
        · rename_i hRest
          exact List.forall_mem_cons.mpr ⟨hRest, hInbox⟩

/-- The verdict on a read is the verdict on the next byte of the stream. -/
theorem redisVerdict_roundtrip (vr : VerifyResult) {inbox : List Bytes}
    (h : ∀ piece ∈ inbox, piece ≠ []) :
    (redisVerdict vr (nonceRedisRoundtrip true inbox).1).1 = rcOfByte inbox.flatten.head? := by
  rw [redisVerdict_rc]
  cases inbox with
  | nil => rfl
  | cons piece inbox =>
      obtain ⟨hPiece, -⟩ := List.forall_mem_cons.mp h
      rw [(roundtrip_cons hPiece inbox).1]
      cases piece with
      | nil => exact absurd rfl hPiece
      | cons b bs => rfl

theorem rcOfByte_eq_error {b : Option UInt8} :
    rcOfByte b = .error ↔ ∀ c ∈ b, c ∉ ascii "+$_" := by
  have hMarks : ascii "+$_" = [charByte '+', charByte '$', charByte '_'] := rfl
  cases b with
  | none => simp [rcOfByte]
  | some c =>
      simp only [rcOfByte, hMarks, Option.some.injEq, Option.mem_def, forall_eq', List.mem_cons,
        List.not_mem_nil, or_false, not_or]
      split_ifs with hPlus hNull
      · simp [hPlus]
      · rcases hNull with hNull | hNull <;> simp [hNull]
      · simp only [not_or] at hNull
        simp [hPlus, hNull]

theorem rcOfByte_head (reply : SetReply) : rcOfByte reply.bytes.head? = reply.rc := by
  cases reply <;> rfl

/-- Past its first byte, a null has none that means a null. -/
theorem rcOfByte_null {reply : SetReply} (hNull : reply = .null ∨ reply = .null3) {i : Nat}
    (hi : 0 < i) : rcOfByte reply.bytes[i]? ≠ .declined := by
  have hShort : ∀ j < 5, 0 < j → rcOfByte reply.bytes[j]? ≠ .declined := by
    rcases hNull with rfl | rfl <;> decide
  by_cases hLt : i < 5
  · exact hShort i hLt hi
  · have hEnd : reply.bytes[i]? = none := by
      refine List.getElem?_eq_none ?_
      rcases hNull with rfl | rfl <;> simp [SetReply.bytes, nilReply, ascii, crlf] <;> omega
    rw [hEnd]
    decide

theorem inStep_iff (reply : SetReply) (n : Nat) :
    InStep reply n ↔ 5 ≤ n ∧ rcOfByte reply.bytes[n - 5]? = reply.rc := by
  by_cases hFive : n = 5
  · subst hFive
    refine iff_of_true (.inl rfl) ⟨le_refl 5, ?_⟩
    rw [Nat.sub_self, ← List.head?_eq_getElem?]
    exact rcOfByte_head reply
  · have hLe : 5 ≤ n ↔ 5 < n := by omega
    unfold InStep
    rw [or_iff_right hFive, hLe]
    refine and_congr_right fun hMore => ?_
    have hPos : 0 < n - 5 := by omega
    cases reply with
    | simple text => exact rcOfByte_eq_ok.symm
    | null => exact iff_of_false id (rcOfByte_null (.inl rfl) hPos)
    | null3 => exact iff_of_false id (rcOfByte_null (.inr rfl) hPos)
    | error text => exact rcOfByte_eq_error.symm

/-! ## Both reads -/

section Exchange

variable {nc : LocConf} {exp : Int} {env : RedisEnv} {reply : SetReply}

theorem setInbox_ne_nil (h : env.Answered nc exp reply) :
    ∀ piece ∈ setInbox nc env, piece ≠ [] := by
  have hPieces := h.ne_nil
  unfold setInbox
  split
  · exact hPieces
  · rw [h.authWritten]
    cases hInbox : env.inbox with
    | nil => simp [nonceRedisRoundtrip]
    | cons piece inbox =>
        rw [hInbox, List.forall_mem_cons] at hPieces
        exact (roundtrip_cons hPieces.1 inbox).2.2 hPieces.2

/-- The reply to `AUTH` starts with a plus, in whatever pieces it comes. -/
theorem exists_first_piece (h : env.Answered nc exp reply) (hPassword : nc.noncePassword ≠ []) :
    ∃ bs inbox, env.inbox = (charByte '+' :: bs) :: inbox := by
  have hStream := h.flatten
  have hPieces := h.ne_nil
  rw [replyStream, if_neg hPassword] at hStream
  cases hInbox : env.inbox with
  | nil => simp [hInbox, okReply, ascii, crlf] at hStream
  | cons piece inbox =>
      rw [hInbox] at hStream hPieces
      cases piece with
      | nil => exact absurd rfl (hPieces [] List.mem_cons_self)
      | cons b bs =>
          obtain rfl : b = charByte '+' := (List.cons.inj hStream).1
          exact ⟨bs, inbox, rfl⟩

/-- The verdict is that on the next byte once `AUTH` has been answered. -/
theorem nonceRedis_answered (h : env.Answered nc exp reply) (vr : VerifyResult) (nonce : Bytes) :
    (nonceRedis nc vr nonce exp env).1 = rcOfByte (setInbox nc env).flatten.head? := by
  rw [nonceRedis_connected h.connected h.inTime,
    ← redisVerdict_roundtrip vr (setInbox_ne_nil h)]
  unfold redisExchange setInbox
  by_cases hPassword : nc.noncePassword = []
  · simp only [hPassword, if_true, h.setWritten]
  · have hPlus : (nonceRedisRoundtrip env.authWritten env.inbox).1.any (startsWith '+') = true := by
      obtain ⟨bs, inbox, hInbox⟩ := exists_first_piece h hPassword
      rw [h.authWritten, hInbox]
      rfl
    simp only [hPassword, if_false, hPlus, if_true, h.setWritten]

/-- What is left after `n` bytes belongs to the reply to `SET` once the five are read. -/
theorem drop_okReply_suffix (set : Bytes) (n : Nat) :
    (okReply ++ set).drop n <:+ set ↔ 5 ≤ n := by
  have hLength : okReply.length = 5 := rfl
  constructor
  · intro hSuffix
    have hLe := hSuffix.length_le
    rw [List.length_drop, List.length_append, hLength] at hLe
    omega
  · intro hFive
    rw [List.drop_append, List.drop_eq_nil_of_le (by omega), List.nil_append]
    exact List.drop_suffix _ set

/-- The replies are read right exactly without a password, or if the first piece ends where the
reply to `AUTH` does, or runs on to a byte that happens to mean the same. -/
theorem reads_setReply_iff (h : env.Answered nc exp reply) (vr : VerifyResult) (nonce : Bytes) :
    ReadsSetReply nc vr nonce exp env reply ↔
      nc.noncePassword = [] ∨
        ∃ piece ∈ env.inbox.head?, InStep reply (min piece.length 127) := by
  have hStream := h.flatten
  rw [ReadsSetReply, nonceRedis_answered h, setInbox]
  by_cases hPassword : nc.noncePassword = []
  · rw [replyStream, if_pos hPassword, List.nil_append] at hStream
    refine iff_of_true ?_ (.inl hPassword)
    rw [if_pos hPassword, hStream]
    exact ⟨rcOfByte_head reply, List.suffix_rfl⟩
  · rw [replyStream, if_neg hPassword] at hStream
    obtain ⟨bs, inbox, hInbox⟩ := exists_first_piece h hPassword
    have hRead := (roundtrip_cons (List.cons_ne_nil (charByte '+') bs) inbox).2.1
    rw [hInbox] at hStream
    rw [if_neg hPassword, or_iff_right hPassword, h.authWritten, hInbox, hRead, hStream]
    simp only [List.head?_cons, Option.mem_some_iff, exists_eq_left', inStep_iff]
    generalize min (charByte '+' :: bs).length 127 = n
    rw [drop_okReply_suffix, and_comm]
    refine and_congr_right fun hFive => ?_
    rw [List.head?_drop, List.getElem?_append_right (show okReply.length ≤ n from hFive)]
    rfl

end Exchange

/-- A null in pieces, after the reply to `AUTH` in one. -/
theorem null_in_pieces_read :
    ReadsSetReply (redisConf (ascii "hunter2")) signedResult signedNonce 1120
      (willingRedis [okReply, ascii "$", ascii "-1", crlf]) .null := by
  have hAnswered : (willingRedis [okReply, ascii "$", ascii "-1", crlf]).Answered
      (redisConf (ascii "hunter2")) 1120 .null :=
    ⟨willingRedis_connected _ _, by decide, rfl, rfl, by decide, by decide⟩
  exact (reads_setReply_iff hAnswered _ _).mpr (.inr ⟨okReply, rfl, .inl rfl⟩)

/-- The reply to `AUTH` in two pieces, and that to `SET` in one. -/
def splitReplies : RedisEnv := willingRedis [ascii "+", ascii "OK" ++ crlf, okReply]

/-- The key is set, and the call is an error. -/
theorem auth_reply_in_two_pieces :
    splitReplies.Answered (redisConf (ascii "hunter2")) 1120 (.simple (ascii "OK")) ∧
      SetReply.rc (.simple (ascii "OK")) = .ok ∧
      (nonceRedis (redisConf (ascii "hunter2")) signedResult signedNonce 1120 splitReplies).1 =
        .error ∧
      ¬ReadsSetReply (redisConf (ascii "hunter2")) signedResult signedNonce 1120 splitReplies
        (.simple (ascii "OK")) := by
  have hRc : (nonceRedis (redisConf (ascii "hunter2")) signedResult signedNonce 1120
      splitReplies).1 = .error := by
    decide +kernel
  refine ⟨⟨willingRedis_connected _ _, by decide, rfl, rfl, by decide, by decide⟩, rfl, hRc, ?_⟩
  rintro ⟨hOk, -⟩
  rw [hRc] at hOk
  cases hOk

end PgpAuth
