import Mathlib.Data.List.DropRight
import PgpAuth.Base

/-!
# The revocation list

`isRevoked` reads the list through a cache that is refreshed when the file's mtime
changes. What the file system does in one call is in `RevocEnv`. `revocLoad` is the part
up to the scan: the cache as it stands for this call, or nothing where the list cannot be
consulted, which denies unless `pgp_revocation_fail_open` is on.
-/

namespace PgpAuth

open Lib

structure FileInfo where
  mtime : Int
  size : Nat
  deriving DecidableEq, Repr

/-- Outcomes of the file operations of one call. -/
structure RevocEnv where
  stat : Option FileInfo
  opened : Bool
  alloc : Bool
  read : Option Bytes
  deriving DecidableEq, Repr

/-- `revoc_cache` and `revoc_mtime` of a location, in one worker. -/
structure RevocCache where
  data : Option Bytes
  mtime : Int
  deriving DecidableEq, Repr

def RevocCache.empty : RevocCache := ⟨none, 0⟩

def isBlank (b : UInt8) : Bool := b == 32 || b == 9

/-- `ngx_tolower` -/
def toLower (b : UInt8) : UInt8 := if 65 ≤ b && b ≤ 90 then b ||| 0x20 else b

/-- `ngx_http_pgp_fpr_eq`: blanks of the entry are skipped, case is ignored. -/
def fprEq : Bytes → Bytes → Bool
  | [], b => b == []
  | a :: as, b =>
      if isBlank a then fprEq as b
      else
        match b with
        | [] => false
        | b :: bs => if toLower a != toLower b then false else fprEq as bs

/-- Offset of the first LF or CR, whichever comes first. -/
def eolIndex (line : Bytes) : Option Nat :=
  match line.idxOf? 10, line.idxOf? 13 with
  | none, cr => cr
  | some lf, none => some lf
  | some lf, some cr => some (if cr < lf then cr else lf)

/-- The scan loop; every turn drops at least one byte, so the length is fuel enough. -/
def revocScanFrom (fpr : Bytes) : Nat → Bytes → Bool
  | 0, _ => false
  | fuel + 1, line =>
      if line = [] then false
      else
        let nl := (eolIndex line).getD line.length
        let s := (line.take nl).dropWhile isBlank
        let e := s.rdropWhile fun b => isBlank b || b == 13
        if e ≠ [] ∧ e.head? ≠ some (charByte '#') ∧ fprEq e fpr then true
        else revocScanFrom fpr fuel (line.drop (nl + 1))

def revocScan (content fpr : Bytes) : Bool := revocScanFrom fpr content.length content

/-- The cache after the staleness test and, where needed, the reload. -/
def revocLoad (plcf : LocConf) (env : RevocEnv) (cache : RevocCache) : Option RevocCache :=
  match env.stat with
  | none => none
  | some fi =>
      if cache.data = none ∨ fi.mtime ≠ cache.mtime then
        if env.opened = false then none
        else if plcf.revocMaxSize ≠ 0 ∧ plcf.revocMaxSize < fi.size then none
        else if env.alloc = false then none
        else env.read.map fun bytes => ⟨some (bytes.take fi.size), fi.mtime⟩
      else some cache

def isRevoked (plcf : LocConf) (env : RevocEnv) (cache : RevocCache) (fpr : Bytes) :
    Bool × RevocCache :=
  if plcf.revocationList = [] ∨ fpr = [] then (false, cache)
  else
    match revocLoad plcf env cache with
    | none => (!plcf.revocFailOpen, cache)
    | some cache => (revocScan (cache.data.getD []) fpr, cache)

end PgpAuth
