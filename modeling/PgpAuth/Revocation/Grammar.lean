import PgpAuth.Revocation

/-!
# The grammar of the revocation list

`revocScan` walks the cached bytes line by line, trims both ends and compares with a
pointer that skips blanks. `Lists` says what an entry is without the walk: a line that does
not start with a comment and is the fingerprint once its blanks are dropped and case is
ignored. `revocScan_iff` equates the two over the lines between LF and CR bytes.

`RevocFile` is a list as an operator writes it, every line with the terminator it has;
`revocScan_bytes` reads the verdict off the lines, whatever the terminators.
-/

namespace PgpAuth

open Lib

/-- LF or CR. -/
def isEol (b : UInt8) : Bool := b == 10 || b == 13

/-- The line is an entry for `fpr`: its first byte other than space and tab exists and is
not `#`, and without blanks and case the line is the fingerprint. -/
def Lists (line fpr : Bytes) : Prop :=
  (∃ b, line.find? (fun b => !isBlank b) = some b ∧ b ≠ charByte '#') ∧
    (line.filter fun b => !isBlank b).map toLower = fpr.map toLower

/-! ## One line -/

theorem fprEq_iff (a b : Bytes) :
    fprEq a b = true ↔ (a.filter fun c => !isBlank c).map toLower = b.map toLower := by
  induction a generalizing b with
  | nil => cases b <;> simp [fprEq]
  | cons c a ih =>
      cases hBlank : isBlank c with
      | true => cases b <;> simp [fprEq, hBlank, ih]
      | false =>
          cases b with
          | nil => simp [fprEq, hBlank]
          | cons d b =>
              by_cases hSame : toLower c = toLower d
              · simp [fprEq, hBlank, hSame, ih]
              · simp [fprEq, hBlank, hSame]

theorem filter_dropWhile_isBlank (l : Bytes) :
    (l.dropWhile isBlank).filter (fun b => !isBlank b) = l.filter fun b => !isBlank b := by
  induction l with
  | nil => rfl
  | cons c l ih =>
      by_cases hBlank : isBlank c
      · simp [hBlank, ih]
      · simp [hBlank]

/-- Trimming the end removes blanks only, the line holding no CR. -/
theorem filter_rdropWhile_trim {l : Bytes} (hPlain : ∀ b ∈ l, isEol b = false) :
    (l.rdropWhile fun b => isBlank b || b == 13).filter (fun b => !isBlank b) =
      l.filter fun b => !isBlank b := by
  induction l using List.reverseRecOn with
  | nil => rfl
  | append_singleton l c ih =>
      have hc : (c == 13) = false := by
        have := hPlain c (by simp)
        simp only [isEol, Bool.or_eq_false_iff] at this
        exact this.2
      rw [List.rdropWhile_concat]
      by_cases hBlank : isBlank c
      · simp [hBlank, ih fun b hb => hPlain b (by simp [hb])]
      · simp [hBlank, hc]

/-- The first byte of a trimmed line stays: it is no blank and no CR. -/
theorem head?_trim {l : Bytes} (hPlain : ∀ b ∈ l.dropWhile isBlank, isEol b = false) :
    ((l.dropWhile isBlank).rdropWhile fun b => isBlank b || b == 13).head? =
      (l.dropWhile isBlank).head? := by
  cases hl : l.dropWhile isBlank with
  | nil => rfl
  | cons c rest =>
      have hBlank : isBlank c = false := by
        have := List.head_dropWhile_not isBlank (l := l) (by simp [hl])
        simpa [hl] using this
      have hCr : (c == 13) = false := by
        have := hPlain c (by simp [hl])
        simp only [isEol, Bool.or_eq_false_iff] at this
        exact this.2
      have hNe : (c :: rest).rdropWhile (fun b => isBlank b || b == 13) ≠ [] := by
        intro hNil
        have := List.rdropWhile_eq_nil_iff.mp hNil c (by simp)
        simp [hBlank, hCr] at this
      rw [List.head?_eq_some_head hNe, (List.rdropWhile_prefix _ _).head hNe]
      rfl

/-- What the scan tests of one line, against the line itself. -/
theorem lists_iff_trimmed {l fpr : Bytes} (hPlain : ∀ b ∈ l, isEol b = false) :
    Lists l fpr ↔
      let e := (l.dropWhile isBlank).rdropWhile fun b => isBlank b || b == 13
      e ≠ [] ∧ e.head? ≠ some (charByte '#') ∧ fprEq e fpr = true := by
  have hDrop : ∀ b ∈ l.dropWhile isBlank, isEol b = false :=
    fun b hb => hPlain b ((List.dropWhile_suffix _).mem hb)
  have hHead : ((l.dropWhile isBlank).rdropWhile fun b => isBlank b || b == 13).head? =
      (l.dropWhile isBlank).head? := head?_trim hDrop
  dsimp only
  rw [fprEq_iff, filter_rdropWhile_trim hDrop, filter_dropWhile_isBlank, Lists,
    List.find?_not_eq_head?_dropWhile, Ne, ← List.head?_eq_none_iff, hHead, ← and_assoc]
  refine and_congr_left fun _ => ?_
  cases (l.dropWhile isBlank).head? with
  | none => simp
  | some b => simp

/-! ## The scan over all lines -/

theorem eolIndex_cons (b : UInt8) (line : Bytes) :
    eolIndex (b :: line) = if isEol b then some 0 else (eolIndex line).map (· + 1) := by
  simp only [eolIndex, isEol, List.idxOf?_cons]
  by_cases hLf : b = 10
  · subst hLf
    cases line.idxOf? 13 <;> simp
  · by_cases hCr : b = 13
    · subst hCr
      cases line.idxOf? 10 <;> simp
    · cases line.idxOf? 10 with
      | none => simp [hLf, hCr]
      | some lf =>
          cases line.idxOf? 13 with
          | none => simp [hLf, hCr]
          | some cr => by_cases hFirst : cr < lf <;> simp [hLf, hCr, hFirst]

theorem eolIndex_eq (line : Bytes) : eolIndex line = line.findIdx? isEol := by
  induction line with
  | nil => rfl
  | cons b line ih => rw [eolIndex_cons, List.findIdx?_cons, ih]

/-- One turn of the loop takes the first line and leaves the bytes of the others. -/
theorem eolIndex_cases (line : Bytes) :
    (eolIndex line = none ∧ ∀ b ∈ line, isEol b = false) ∨
      ∃ first sep rest, line = first ++ sep :: rest ∧ eolIndex line = some first.length ∧
        isEol sep = true ∧ ∀ b ∈ first, isEol b = false := by
  rw [eolIndex_eq]
  cases hi : line.findIdx? isEol with
  | none => exact .inl ⟨rfl, fun b hb => by simpa using List.findIdx?_eq_none_iff.mp hi b hb⟩
  | some i =>
      obtain ⟨hLt, hSep, hBefore⟩ := List.findIdx?_eq_some_iff_getElem.mp hi
      refine .inr ⟨line.take i, line.get ⟨i, hLt⟩, line.drop (i + 1), ?_, ?_, hSep, ?_⟩
      · rw [List.get_eq_getElem, List.getElem_cons_drop, List.take_append_drop]
      · rw [List.length_take, Nat.min_eq_left (Nat.le_of_lt hLt)]
      · intro b hb
        obtain ⟨j, hj, rfl⟩ := List.mem_iff_getElem.mp hb
        rw [List.getElem_take]
        rw [List.length_take] at hj
        simpa using hBefore j (by omega)

theorem revocScanFrom_iff {fpr : Bytes} {fuel : Nat} {line : Bytes} (hFuel : line.length ≤ fuel) :
    revocScanFrom fpr fuel line = true ↔ ∃ l ∈ line.splitOnP isEol, Lists l fpr := by
  induction fuel generalizing line with
  | zero =>
      obtain rfl : line = [] := List.length_eq_zero_iff.mp (by omega)
      simp [revocScanFrom, Lists]
  | succ fuel ih =>
      rw [revocScanFrom]
      split
      · rename_i hNil
        subst hNil
        simp [Lists]
      · rename_i hNe
        rcases eolIndex_cases line with ⟨hi, hPlain⟩ | ⟨first, sep, rest, rfl, hi, hSep, hPlain⟩
        · -- the last line has no terminator: nothing is left to scan
          have hRest : revocScanFrom fpr fuel (line.drop (line.length + 1)) = false := by
            cases fuel <;> simp [revocScanFrom]
          simp only [hi, Option.getD_none, List.take_length, hRest]
          rw [List.splitOnP_eq_singleton hPlain]
          simp [lists_iff_trimmed hPlain]
        · have hRest : (first ++ sep :: rest).drop (first.length + 1) = rest := by
            rw [List.drop_append, List.drop_eq_nil_of_le (Nat.le_succ _)]
            simp
          have hLen : rest.length ≤ fuel := by
            simp only [List.length_append, List.length_cons] at hFuel
            omega
          simp only [hi, Option.getD_some, List.take_left, hRest]
          rw [List.splitOnP_append_cons_of_forall_mem hPlain sep hSep]
          simp only [List.exists_mem_cons_iff, lists_iff_trimmed hPlain, ← ih hLen]
          simp

theorem revocScan_iff (content fpr : Bytes) :
    revocScan content fpr = true ↔ ∃ line ∈ content.splitOnP isEol, Lists line fpr :=
  revocScanFrom_iff (Nat.le_refl _)

/-! ## Files and their terminators -/

theorem not_lists_nil (fpr : Bytes) : ¬ Lists [] fpr := by
  rintro ⟨⟨b, hb, -⟩, -⟩
  simp at hb

inductive Eol where
  | lf
  | crlf
  | cr
  deriving DecidableEq, Repr

def Eol.bytes : Eol → Bytes
  | .lf => [10]
  | .crlf => [13, 10]
  | .cr => [13]

/-- A line holds no LF and no CR. -/
abbrev ListLine := { l : Bytes // ∀ b ∈ l, isEol b = false }

/-- A list file: its terminated lines, and the last line where that has no terminator. -/
structure RevocFile where
  ended : List (ListLine × Eol)
  last : Option ListLine

namespace RevocFile

def lines (f : RevocFile) : List Bytes := (f.ended.map (·.1) ++ f.last.toList).map (·.val)

def bytes (f : RevocFile) : Bytes :=
  f.ended.flatMap (fun l => l.1.val ++ l.2.bytes) ++ (f.last.map (·.val)).getD []

end RevocFile

/-- A terminated line is one line for the scan; the LF of a CRLF ends an empty one. -/
theorem splitOnP_terminated (l : ListLine) (eol : Eol) (rest fpr : Bytes) :
    (∃ x ∈ (l.val ++ eol.bytes ++ rest).splitOnP isEol, Lists x fpr) ↔
      Lists l.val fpr ∨ ∃ x ∈ rest.splitOnP isEol, Lists x fpr := by
  cases eol with
  | lf =>
      rw [List.append_assoc, Eol.bytes, List.singleton_append,
        List.splitOnP_append_cons_of_forall_mem l.2 10 (by decide)]
      simp only [List.exists_mem_cons_iff]
  | cr =>
      rw [List.append_assoc, Eol.bytes, List.singleton_append,
        List.splitOnP_append_cons_of_forall_mem l.2 13 (by decide)]
      simp only [List.exists_mem_cons_iff]
  | crlf =>
      have hLf : (10 :: rest).splitOnP isEol = [] :: rest.splitOnP isEol := by
        rw [List.splitOnP_cons_eq_if_modifyHead, if_pos (by decide)]
      rw [List.append_assoc, Eol.bytes, List.cons_append, List.singleton_append,
        List.splitOnP_append_cons_of_forall_mem l.2 13 (by decide), hLf]
      simp only [List.exists_mem_cons_iff, not_lists_nil, false_or]

/-- The scan of a file is a matter of its lines. -/
theorem revocScan_bytes (f : RevocFile) (fpr : Bytes) :
    revocScan f.bytes fpr = true ↔ ∃ l ∈ f.lines, Lists l fpr := by
  obtain ⟨ended, last⟩ := f
  rw [revocScan_iff]
  induction ended with
  | nil =>
      cases last with
      | none => simp [RevocFile.bytes, RevocFile.lines, not_lists_nil]
      | some l => simp [RevocFile.bytes, RevocFile.lines, List.splitOnP_eq_singleton l.2]
  | cons l ended ih =>
      have hBytes : RevocFile.bytes ⟨l :: ended, last⟩ =
          l.1.val ++ l.2.bytes ++ RevocFile.bytes ⟨ended, last⟩ := by
        simp [RevocFile.bytes]
      have hLines : RevocFile.lines ⟨l :: ended, last⟩ =
          l.1.val :: RevocFile.lines ⟨ended, last⟩ := by
        simp [RevocFile.lines]
      rw [hBytes, hLines, splitOnP_terminated, ih, List.exists_mem_cons_iff]

theorem isRevoked_of_revocLoad {plcf : LocConf} {env : RevocEnv} {cache : RevocCache}
    {content fpr : Bytes} {mtime : Int} (hList : plcf.revocationList ≠ []) (hFpr : fpr ≠ [])
    (hCached : revocLoad plcf env cache = some ⟨some content, mtime⟩) :
    (isRevoked plcf env cache fpr).1 = revocScan content fpr := by
  rw [isRevoked, if_neg (by simp [hList, hFpr]), hCached]
  rfl

/-- The key is revoked exactly when some line of the cached content lists it, and files
with the same lines revoke the same keys whatever their terminators. -/
theorem revocation_list_grammar (plcf : LocConf) (env : RevocEnv) (cache : RevocCache)
    (content fpr : Bytes) (mtime : Int) (hList : plcf.revocationList ≠ []) (hFpr : fpr ≠ [])
    (hCached : revocLoad plcf env cache = some ⟨some content, mtime⟩) :
    (isRevoked plcf env cache fpr).1 = revocScan content fpr ∧
      (revocScan content fpr = true ↔ ∃ line ∈ content.splitOnP isEol, Lists line fpr) ∧
      ∀ f f' : RevocFile, f.lines = f'.lines → revocScan f.bytes fpr = revocScan f'.bytes fpr := by
  refine ⟨isRevoked_of_revocLoad hList hFpr hCached, revocScan_iff content fpr, ?_⟩
  intro f f' hLines
  rw [Bool.eq_iff_iff, revocScan_bytes, revocScan_bytes, hLines]

def listedConf : LocConf :=
  { LocConf.defaults (ascii "s3cret") with revocationList := ascii "/etc/nginx/keys.revoked" }

/-- A spaced lower-case entry behind a comment, in a file with lone CRs. -/
def spacedList : Bytes := ascii "# keys\r abcd 12ef\t"

theorem revocation_list_spaced :
    ∃ line ∈ spacedList.splitOnP isEol, Lists line (ascii "ABCD12EF") := by
  have hGrammar := revocation_list_grammar listedConf ⟨some ⟨7, 0⟩, true, true, none⟩
    ⟨some spacedList, 7⟩ spacedList (ascii "ABCD12EF") 7 (by decide +kernel) (by decide +kernel)
    (by decide +kernel)
  exact hGrammar.2.1.mp (by decide +kernel)

end PgpAuth
