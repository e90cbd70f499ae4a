import PgpAuth.Shm

/-!
# The failure throttle

A shared zone counts failed logins by client address, in the same two structures as the
nonce store. `throttleRecord` counts or clears, `throttleIsBanned` reads the ban, and both
say in the log what they did. A node is changed in place, so the change shows in the tree and
in the queue (`setNode`).
-/

namespace PgpAuth

open Lib

structure ThrottleNode where
  key : UInt32
  windowStart : Nat
  bannedUntil : Nat
  count : Nat
  data : Bytes
  deriving DecidableEq, Repr

/-- `ngx_http_pgp_throttle_sh_t`; the queue from head (newest) to tail. -/
structure ThrottleSh where
  rbtree : BinTree ThrottleNode
  queue : List ThrottleNode
  deriving DecidableEq, Repr

def ThrottleSh.empty : ThrottleSh := ⟨.nil, []⟩

/-- Clock and slab outcomes of one call. -/
structure ThrottleEnv where
  now : Nat
  first : Bool
  second : Bool
  deriving DecidableEq, Repr

def throttleView : NodeView ThrottleNode := ⟨ThrottleNode.key, ThrottleNode.data⟩

def throttleRbtreeInsert : BinTree ThrottleNode → ThrottleNode → BinTree ThrottleNode :=
  rbtreeDescend throttleView

def throttleLookup (sh : ThrottleSh) (hash : UInt32) (ip : Bytes) : Option ThrottleNode :=
  sh.rbtree.findBy (lookupSide throttleView hash ip)

/-- `ngx_http_pgp_throttle_client_ip` -/
def throttleClientIp (r : Request) : Bytes := r.addr.val

variable (ops : ShmOps ThrottleNode)

/-- Unlink a node from both structures. -/
def ThrottleSh.unlink (sh : ThrottleSh) (n : ThrottleNode) : ThrottleSh :=
  ⟨ops.rbtree.delete sh.rbtree n, sh.queue.erase n⟩

def ThrottleSh.setNode (sh : ThrottleSh) (n n' : ThrottleNode) : ThrottleSh :=
  ⟨sh.rbtree.map fun x => if x = n then n' else x, sh.queue.map fun x => if x = n then n' else x⟩

/-- The walk from the tail to the head, over the nodes that stood there at its start. -/
def throttleEvictFrom (now staleAfter : Nat) : Nat → List ThrottleNode → ThrottleSh → ThrottleSh
  | max + 1, n :: prev, sh =>
      throttleEvictFrom now staleAfter max prev
        (if n.bannedUntil ≤ now ∧ n.windowStart + staleAfter ≤ now then sh.unlink ops n else sh)
  | _, _, sh => sh

def throttleEvictStale (now window max : Nat) (sh : ThrottleSh) : ThrottleSh :=
  throttleEvictFrom ops now (Nat.max window 3600) max sh.queue.reverse sh

/-- What a call logs: that the zone is full, that a ban was set, or that one stands. -/
inductive ThrottleNotice where
  | zoneFull
  | triggered (failures banSeconds : Nat)
  | throttled (bannedFor : Nat)
  deriving DecidableEq, Repr

/-- `ngx_http_pgp_throttle_is_banned`, with the line it logs. -/
def throttleIsBannedCall (zone : Option ThrottleSh) (r : Request) (now : Nat) :
    Rc × Option ThrottleNotice :=
  match zone with
  | none => (.ok, none)
  | some sh =>
      let ip := throttleClientIp r
      if ip.length = 0 ∨ 65535 < ip.length then (.ok, none)
      else
        match throttleLookup sh (ops.crc32 ip) ip with
        | none => (.ok, none)
        | some n =>
            if now < n.bannedUntil then (.declined, some (.throttled (n.bannedUntil - now)))
            else (.ok, none)

def throttleIsBanned (zone : Option ThrottleSh) (r : Request) (now : Nat) : Rc :=
  (throttleIsBannedCall ops zone r now).1

def throttleIsBannedNotice (zone : Option ThrottleSh) (r : Request) (now : Nat) :
    Option ThrottleNotice :=
  (throttleIsBannedCall ops zone r now).2

/-- The node this failure is counted on, linked at the head; nothing where the zone is
full. -/
def throttleNodeFor (sh : ThrottleSh) (ip : Bytes) (window : Nat) (env : ThrottleEnv) :
    ThrottleSh × Option ThrottleNode :=
  match throttleLookup sh (ops.crc32 ip) ip with
  | some n => (⟨sh.rbtree, n :: sh.queue.erase n⟩, some n)
  | none =>
      let sh := throttleEvictStale ops env.now window 8 sh
      let sh := if env.first then sh else throttleEvictStale ops env.now window 512 sh
      if env.first = false ∧ env.second = false then (sh, none)
      else
        let n : ThrottleNode := ⟨ops.crc32 ip, env.now, 0, 0, ip⟩
        (⟨rbtreeInsert ops.rbtree throttleRbtreeInsert sh.rbtree n, n :: sh.queue⟩, some n)

/-- One more failure on a node, in a fresh window where the old one has run out. At the
limit the ban is written and logged. -/
def ThrottleNode.fail (n : ThrottleNode) (limit window banTime now : Nat) :
    ThrottleNode × Option ThrottleNotice :=
  let n := if n.windowStart + window ≤ now then { n with windowStart := now, count := 0 } else n
  let n := { n with count := n.count + 1 }
  if limit ≤ n.count then
    ({ n with bannedUntil := now + banTime }, some (.triggered n.count banTime))
  else (n, none)

def ThrottleNode.failed (n : ThrottleNode) (limit window banTime now : Nat) : ThrottleNode :=
  (n.fail limit window banTime now).1

/-- `ngx_http_pgp_throttle_record`: the zone it leaves, and what it logs. -/
def throttleRecordCall (zone : Option ThrottleSh) (r : Request) (success : Bool)
    (limit window banTime : Nat) (env : ThrottleEnv) :
    Option ThrottleSh × Option ThrottleNotice :=
  match zone with
  | none => (none, none)
  | some sh =>
      let ip := throttleClientIp r
      if ip.length = 0 ∨ 65535 < ip.length then (some sh, none)
      else if success then
        match throttleLookup sh (ops.crc32 ip) ip with
        | none => (some sh, none)
        | some n => (some (sh.unlink ops n), none)
      else
        match throttleNodeFor ops sh ip window env with
        | (sh, none) => (some sh, some .zoneFull)
        | (sh, some n) =>
            let out := n.fail limit window banTime env.now
            (some (sh.setNode n out.1), out.2)

def throttleRecord (zone : Option ThrottleSh) (r : Request) (success : Bool)
    (limit window banTime : Nat) (env : ThrottleEnv) : Option ThrottleSh :=
  (throttleRecordCall ops zone r success limit window banTime env).1

def throttleRecordNotice (zone : Option ThrottleSh) (r : Request) (success : Bool)
    (limit window banTime : Nat) (env : ThrottleEnv) : Option ThrottleNotice :=
  (throttleRecordCall ops zone r success limit window banTime env).2

end PgpAuth
