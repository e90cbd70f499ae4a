import PgpAuth.Base

/-!
# The submitted body

`readBody` collects the body nginx has read, `formField` decodes the `signed=` field of a
form, and `verifyPre` keeps anything that does not start like a clear-signed message away
from gpg.
-/

namespace PgpAuth

open Lib

/-- One buffer of the request body chain. -/
inductive BodyBuf where
  | inFile
  | memory (bytes : Bytes)
  deriving DecidableEq, Repr

def BodyBuf.bytes : BodyBuf → Bytes
  | inFile => []
  | memory bytes => bytes

/-- `ngx_http_pgp_read_body`; the empty chain stands for a missing body. `declined` is the
client's doing, `error` a failed allocation. -/
def readBody (bufs : List BodyBuf) (max : Nat) (alloc : Bool) : Except Rc Bytes :=
  if bufs = [] then .error .declined
  else if .inFile ∈ bufs then .error .declined
  else
    let body := bufs.flatMap BodyBuf.bytes
    if max < body.length then .error .declined
    else if alloc = false then .error .error
    else .ok body

/-- `NGX_HTTP_PGP_FIELD "="` -/
def fieldTag : Bytes := ascii "signed="

/-- `ngx_hextoi` of one digit. -/
def hexValue (b : UInt8) : Option UInt8 :=
  if 48 ≤ b ∧ b ≤ 57 then some (b - 48)
  else if 97 ≤ b ∧ b ≤ 102 then some (b - 97 + 10)
  else if 65 ≤ b ∧ b ≤ 70 then some (b - 65 + 10)
  else none

/-- The decoding loop, up to `&`. -/
def formDecode : Bytes → Bytes
  | [] => []
  | b :: bs =>
      if b = charByte '&' then []
      else if b = charByte '+' then charByte ' ' :: formDecode bs
      else if b = charByte '%' then
        match bs with
        | h :: l :: rest =>
            match hexValue h, hexValue l with
            | some hi, some lo => (hi <<< 4 + lo) :: formDecode rest
            | _, _ => b :: formDecode (h :: l :: rest)
        | bs => b :: formDecode bs
      else b :: formDecode bs

def formField (body : Bytes) : Option Bytes :=
  if fieldTag.isPrefixOf body then some (formDecode (body.drop fieldTag.length)) else none

/-- The submitted message: the form field, else the body as it is. -/
def signedMsg (body : Bytes) : Bytes := (formField body).getD body

def clearSignedTag : Bytes := ascii "-----BEGIN PGP SIGNED MESSAGE-----"

def isLeadingSpace (b : UInt8) : Bool := b == 32 || b == 9 || b == 13 || b == 10

def verifyPre (msg : Bytes) : Rc :=
  if clearSignedTag.isPrefixOf (msg.dropWhile isLeadingSpace) then .ok else .declined

example : signedMsg (ascii "signed=a%2Bb+c%zz&x") = ascii "a+b c%zz" := by decide +kernel

end PgpAuth
