import PgpAuth.Base

/-!
# Token MACs

Challenge and session tokens are recognised by HMAC-SHA256 over
`kind 0x1e scope 0x1e data 0x1e ip 0x1e ua`, in hex. HMAC itself is a parameter; a
computation may also fail, which is an outcome of the environment.

The separator is not escaped. `macInput_inj` says how far the joined string still
determines its fields: the kind always, the scope where it is free of the separator.
-/

namespace PgpAuth

open Lib

abbrev Digest := { d : Bytes // d.length = 32 }

/-- HMAC-SHA256 of a secret and a message. -/
abbrev Hmac := Bytes → Bytes → Digest

inductive TokenKind where
  | chal
  | sess
  deriving DecidableEq, Repr

/-- The context label that starts every MAC input. -/
def TokenKind.label : TokenKind → Bytes
  | chal => ascii "chal"
  | sess => ascii "sess"

/-- `u_char sep = 0x1e` -/
def sep : UInt8 := 0x1e

def macInput (kind : TokenKind) (scope data ip ua : Bytes) : Bytes :=
  kind.label ++ sep :: (scope ++ sep :: (data ++ sep :: (ip ++ sep :: ua)))

def macHex (hmac : Hmac) (secret input : Bytes) : Bytes := hexDump (hmac secret input).val

/-- `none` where the computation fails. -/
def hmacRaw (hmac : Hmac) (ok : Bool) (secret : Bytes) (kind : TokenKind)
    (scope ip ua data : Bytes) : Option Bytes :=
  if ok then some (macHex hmac secret (macInput kind scope data ip ua)) else none

/-- The client binding: address and User-Agent, each where the location asks for it. -/
def binding (plcf : LocConf) (r : Request) : Bytes × Bytes :=
  (if plcf.bindIp then r.addr.val else [],
    if plcf.bindUa then (r.userAgent.map Subtype.val).getD [] else [])

/-- Outcomes of one worker-side MAC: the computation and the pool allocation. -/
structure HmacEnv where
  hmac : Bool
  alloc : Bool
  deriving DecidableEq, Repr

def hmacHex (hmac : Hmac) (env : HmacEnv) (plcf : LocConf) (r : Request) (kind : TokenKind)
    (data : Bytes) : Option Bytes :=
  match hmacRaw hmac env.hmac plcf.secret kind plcf.keyring (binding plcf r).1
      (binding plcf r).2 data with
  | none => none
  | some hex => if env.alloc then some hex else none

/-- `ngx_http_pgp_ct_eq` -/
def ctEq (a b : Bytes) : Bool := a.length == b.length && a == b

@[simp] theorem ctEq_iff {a b : Bytes} : ctEq a b = true ↔ a = b := by
  simp only [ctEq, Bool.and_eq_true, beq_iff_eq, and_iff_right_iff_imp]
  exact congrArg List.length

/-- MAC input of a token of this location presented by this client. -/
def tokenInput (plcf : LocConf) (ip ua : Bytes) (kind : TokenKind) (data : Bytes) : Bytes :=
  macInput kind plcf.keyring data ip ua

theorem hmacHex_eq_some {hmac : Hmac} {env : HmacEnv} {plcf : LocConf} {r : Request}
    {kind : TokenKind} {data m : Bytes} :
    hmacHex hmac env plcf r kind data = some m ↔
      env = ⟨true, true⟩ ∧ m = macHex hmac plcf.secret
        (tokenInput plcf (binding plcf r).1 (binding plcf r).2 kind data) := by
  obtain ⟨ok, alloc⟩ := env
  cases ok <;> cases alloc <;> simp [hmacHex, hmacRaw, tokenInput, eq_comm]

/-! ## What the joined fields determine -/

theorem sep_notMem_label (kind : TokenKind) : sep ∉ kind.label := by
  cases kind <;> decide

theorem TokenKind.label_inj {k k' : TokenKind} (h : k.label = k'.label) : k = k' := by
  cases k <;> cases k' <;> first | rfl | exact absurd h (by decide)

/-- The label is free of the separator, so a MAC input tells its kind. -/
theorem macInput_kind {k k' : TokenKind} {scope scope' data data' ip ip' ua ua' : Bytes}
    (h : macInput k scope data ip ua = macInput k' scope' data' ip' ua') :
    k = k' ∧ scope ++ sep :: (data ++ sep :: (ip ++ sep :: ua)) =
      scope' ++ sep :: (data' ++ sep :: (ip' ++ sep :: ua')) := by
  obtain ⟨hl, hr⟩ := append_cons_inj (sep_notMem_label k) (sep_notMem_label k') h
  exact ⟨TokenKind.label_inj hl, hr⟩

/-- With the separator kept out of the scopes, a MAC input also tells its scope. -/
theorem macInput_inj {k k' : TokenKind} {scope scope' data data' ip ip' ua ua' : Bytes}
    (hs : sep ∉ scope) (hs' : sep ∉ scope')
    (h : macInput k scope data ip ua = macInput k' scope' data' ip' ua') :
    k = k' ∧ scope = scope' ∧ data ++ sep :: (ip ++ sep :: ua) =
      data' ++ sep :: (ip' ++ sep :: ua') := by
  obtain ⟨hk, hr⟩ := macInput_kind h
  exact ⟨hk, append_cons_inj hs hs' hr⟩

end PgpAuth
