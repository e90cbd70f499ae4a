import PgpAuth.Login.Body

/-!
# Form decoding in place

`ngx_http_pgp_form_field` writes the decoded value over the body it is still reading.
`formLoop` is that loop, on one buffer with a read and a write position; `formDecode` of
`PgpAuth.Login.Body` is the same decoder with a buffer of its own. The write position never
passes the read position and a turn reads before it writes, so the two agree
(`formLoop_spec`).

`FormEncodes m e` are the ways a client may encode `m`; decoding undoes each of them.
-/

namespace PgpAuth

open Lib

/-- The loop at read position `src` and write position `dst`: the buffer it leaves and
where it stopped writing. Every turn reads at least one byte. -/
def formLoop : Nat → Bytes → Nat → Nat → Bytes × Nat
  | 0, buf, _, dst => (buf, dst)
  | fuel + 1, buf, src, dst =>
      match buf[src]? with
      | none => (buf, dst)
      | some b =>
          if b = charByte '&' then (buf, dst)
          else if b = charByte '+' then
            formLoop fuel (buf.set dst (charByte ' ')) (src + 1) (dst + 1)
          else if b = charByte '%' ∧ src + 2 < buf.length then
            match hexValue (buf.getD (src + 1) 0), hexValue (buf.getD (src + 2) 0) with
            | some hi, some lo => formLoop fuel (buf.set dst (hi <<< 4 + lo)) (src + 3) (dst + 1)
            | _, _ => formLoop fuel (buf.set dst b) (src + 1) (dst + 1)
          else formLoop fuel (buf.set dst b) (src + 1) (dst + 1)

/-- `ngx_http_pgp_form_field` on the buffer of the body; `none` is `NGX_DECLINED`. -/
def formFieldInPlace (body : Bytes) : Option Bytes :=
  if fieldTag.isPrefixOf body then
    let out := formLoop body.length body fieldTag.length fieldTag.length
    some ((out.1.take out.2).drop fieldTag.length)
  else none

/-- The byte that two hexadecimal digits at the head stand for. -/
def escapeOf : Bytes → Option UInt8
  | h :: l :: _ =>
      match hexValue h, hexValue l with
      | some hi, some lo => some (hi <<< 4 + lo)
      | _, _ => none
  | _ => none

/-! ## One turn -/

section Decode

@[simp] theorem formDecode_amp (rest : Bytes) : formDecode (charByte '&' :: rest) = [] := by
  rw [formDecode.eq_def]
  rfl

@[simp] theorem formDecode_plus (rest : Bytes) :
    formDecode (charByte '+' :: rest) = charByte ' ' :: formDecode rest := by
  rw [formDecode.eq_def]
  rfl

theorem formDecode_plain {b : UInt8} (hAmp : b ≠ charByte '&') (hPlus : b ≠ charByte '+')
    (hPercent : b ≠ charByte '%') (rest : Bytes) :
    formDecode (b :: rest) = b :: formDecode rest := by
  rw [formDecode.eq_def]
  simp [hAmp, hPlus, hPercent]

/-- A percent sign is decoded with the two digits behind it, or stays as it is. -/
theorem formDecode_percent (rest : Bytes) :
    formDecode (charByte '%' :: rest) =
      match escapeOf rest with
      | some b => b :: formDecode (rest.drop 2)
      | none => charByte '%' :: formDecode rest := by
  rw [formDecode.eq_def]
  simp only [show charByte '%' ≠ charByte '&' by decide, show charByte '%' ≠ charByte '+' by decide,
    if_false, if_true]
  match rest with
  | [] => rfl
  | [_] => rfl
  | h :: l :: rest =>
      simp only [escapeOf]
      cases hexValue h with
      | none => rfl
      | some hi =>
          cases hexValue l with
          | none => rfl
          | some lo => rfl

end Decode

section Loop

variable {fuel src dst : Nat} {buf : Bytes}

/-- The look-ahead of the loop, at the end of the body too. -/
theorem escapeOf_drop (buf : Bytes) (i : Nat) :
    escapeOf (buf.drop i) =
      if i + 1 < buf.length then
        match hexValue (buf.getD i 0), hexValue (buf.getD (i + 1) 0) with
        | some hi, some lo => some (hi <<< 4 + lo)
        | _, _ => none
      else none := by
  split
  · rename_i hTwo
    have hDrop : buf.drop i = buf.getD i 0 :: buf.getD (i + 1) 0 :: buf.drop (i + 2) := by
      rw [List.drop_eq_getElem_cons (by omega), List.drop_eq_getElem_cons hTwo]
      simp [hTwo, Nat.lt_of_succ_lt hTwo]
    rw [hDrop, escapeOf]
  · rename_i hShort
    have hLen : (buf.drop i).length < 2 := by
      rw [List.length_drop]
      omega
    match hRest : buf.drop i with
    | [] => rfl
    | [_] => rfl
    | _ :: _ :: _ =>
        rw [hRest] at hLen
        simp only [List.length_cons] at hLen
        omega

/-- One turn, told by what stands at the read position. -/
theorem formLoop_turn {b : UInt8} (hRead : buf[src]? = some b) :
    formLoop (fuel + 1) buf src dst =
      if b = charByte '&' then (buf, dst)
      else if b = charByte '+' then formLoop fuel (buf.set dst (charByte ' ')) (src + 1) (dst + 1)
      else if b = charByte '%' then
        match escapeOf (buf.drop (src + 1)) with
        | some v => formLoop fuel (buf.set dst v) (src + 3) (dst + 1)
        | none => formLoop fuel (buf.set dst b) (src + 1) (dst + 1)
      else formLoop fuel (buf.set dst b) (src + 1) (dst + 1) := by
  rw [formLoop, hRead, escapeOf_drop]
  by_cases hRoom : src + 2 < buf.length
  · simp only [hRoom, and_true, if_true]
    cases hexValue (buf.getD (src + 1) 0) with
    | none => rfl
    | some hi =>
        cases hexValue (buf.getD (src + 2) 0) with
        | none => rfl
        | some lo => rfl
  · simp [hRoom]

/-- A write behind the read position does not reach what is still to be read. -/
theorem set_behind (hPos : dst ≤ src) (hIn : src < buf.length) (v : UInt8) (k : Nat) :
    (buf.set dst v).take (dst + 1) ++ formDecode ((buf.set dst v).drop (src + (k + 1))) =
      buf.take dst ++ v :: formDecode (buf.drop (src + (k + 1))) := by
  have hTake : (buf.set dst v).take (dst + 1) = buf.take dst ++ [v] := by
    rw [List.take_add_one, List.take_set_of_le (Nat.le_refl _), List.getElem?_set_self (by omega)]
    rfl
  rw [hTake, List.drop_set_of_lt (by omega), List.append_assoc, List.singleton_append]

theorem formLoop_spec (hFuel : buf.length - src ≤ fuel) (hPos : dst ≤ src) :
    (formLoop fuel buf src dst).1.take (formLoop fuel buf src dst).2 =
      buf.take dst ++ formDecode (buf.drop src) := by
  induction fuel generalizing buf src dst with
  | zero => simp [formLoop, List.drop_eq_nil_of_le (show buf.length ≤ src by omega), formDecode]
  | succ fuel ih =>
      by_cases hIn : src < buf.length
      · have hNext : ∀ v k, (formLoop fuel (buf.set dst v) (src + (k + 1)) (dst + 1)).1.take
              (formLoop fuel (buf.set dst v) (src + (k + 1)) (dst + 1)).2 =
            buf.take dst ++ v :: formDecode (buf.drop (src + (k + 1))) := by
          intro v k
          rw [ih (by rw [List.length_set]; omega) (by omega), set_behind hPos hIn]
        have hRead : buf[src]? = some buf[src] := List.getElem?_eq_getElem hIn
        rw [formLoop_turn hRead, List.drop_eq_getElem_cons hIn]
        generalize buf[src] = b at *
        by_cases hAmp : b = charByte '&'
        · simp [hAmp]
        · by_cases hPlus : b = charByte '+'
          · subst hPlus
            rw [if_neg hAmp, if_pos rfl, formDecode_plus]
            exact hNext _ 0
          · rw [if_neg hAmp, if_neg hPlus]
            by_cases hPercent : b = charByte '%'
            · subst hPercent
              rw [if_pos rfl, formDecode_percent]
              cases escapeOf (buf.drop (src + 1)) with
              | none => exact hNext _ 0
              | some v => simpa [List.drop_drop] using hNext v 2
            · rw [if_neg hPercent, formDecode_plain hAmp hPlus hPercent]
              exact hNext b 0
      · have hEnd : buf.length ≤ src := by omega
        rw [formLoop, List.getElem?_eq_none hEnd, List.drop_eq_nil_of_le hEnd]
        simp [formDecode]

/-- Writing over the body while reading it gives what a second buffer would have held. -/
theorem formFieldInPlace_eq (body : Bytes) : formFieldInPlace body = formField body := by
  unfold formFieldInPlace formField
  split
  · rename_i hTag
    have hLen := (List.isPrefixOf_iff_prefix.mp hTag).length_le
    have hLoop := formLoop_spec (Nat.sub_le body.length fieldTag.length)
      (Nat.le_refl fieldTag.length)
    dsimp only
    rw [hLoop, List.drop_append, List.length_take, Nat.min_eq_left hLen]
    simp
  · rfl

end Loop

/-! ## Encodings -/

/-- The digit `d` of a percent escape, in either case. -/
def HexDigitOf (d : Nat) (c : UInt8) : Prop :=
  c = hexDigit d ∨ c = charByte d.digitChar.toUpper

/-- `e` is an `application/x-www-form-urlencoded` encoding of `m`. -/
inductive FormEncodes : Bytes → Bytes → Prop where
  | nil : FormEncodes [] []
  | escape {m e : Bytes} (b hi lo : UInt8) (hHigh : HexDigitOf (b.toNat / 16) hi)
      (hLow : HexDigitOf (b.toNat % 16) lo) (h : FormEncodes m e) :
      FormEncodes (b :: m) (charByte '%' :: hi :: lo :: e)
  | space {m e : Bytes} (h : FormEncodes m e) :
      FormEncodes (charByte ' ' :: m) (charByte '+' :: e)
  | plain {m e : Bytes} (b : UInt8) (hAmp : b ≠ charByte '&') (hPlus : b ≠ charByte '+')
      (hPercent : b ≠ charByte '%') (h : FormEncodes m e) : FormEncodes (b :: m) (b :: e)

private theorem hexValue_digits : ∀ d : Fin 16,
    hexValue (hexDigit d) = some (UInt8.ofNat d) ∧
      hexValue (charByte d.val.digitChar.toUpper) = some (UInt8.ofNat d) := by
  decide

theorem hexValue_of_hexDigitOf {d : Nat} (hd : d < 16) {c : UInt8} (h : HexDigitOf d c) :
    hexValue c = some (UInt8.ofNat d) := by
  rcases h with rfl | rfl
  · exact (hexValue_digits ⟨d, hd⟩).1
  · exact (hexValue_digits ⟨d, hd⟩).2

theorem shift_add_digits (b : UInt8) :
    UInt8.ofNat (b.toNat / 16) <<< 4 + UInt8.ofNat (b.toNat % 16) = b := by
  have hb : b.toNat < 256 := b.toNat_lt
  apply UInt8.toNat_inj.mp
  simp [UInt8.toNat_add, UInt8.toNat_shiftLeft, Nat.shiftLeft_eq]
  omega

theorem escapeOf_encoded {b hi lo : UInt8} (hHigh : HexDigitOf (b.toNat / 16) hi)
    (hLow : HexDigitOf (b.toNat % 16) lo) (rest : Bytes) :
    escapeOf (hi :: lo :: rest) = some b := by
  have hb : b.toNat < 256 := b.toNat_lt
  rw [escapeOf, hexValue_of_hexDigitOf (by omega) hHigh, hexValue_of_hexDigitOf (by omega) hLow]
  exact congrArg some (shift_add_digits b)

/-- Decoding reads the encoding back and stops at what ends the field. -/
theorem formDecode_encoded {m e : Bytes} (h : FormEncodes m e) {rest : Bytes}
    (hEnd : formDecode rest = []) : formDecode (e ++ rest) = m := by
  induction h with
  | nil => exact hEnd
  | @escape m e b hi lo hHigh hLow _ ih =>
      simp only [List.cons_append]
      rw [formDecode_percent, escapeOf_encoded hHigh hLow]
      exact congrArg (b :: ·) ih
  | @space m e _ ih => rw [List.cons_append, formDecode_plus, ih]
  | @plain m e b hAmp hPlus hPercent _ ih =>
      rw [List.cons_append, formDecode_plain hAmp hPlus hPercent, ih]

theorem formField_tagged (rest : Bytes) :
    formField (fieldTag ++ rest) = some (formDecode rest) := by
  rw [formField, if_pos (List.isPrefixOf_iff_prefix.mpr (List.prefix_append _ _)), List.drop_left]

/-- Decoding in place undoes every encoding of every message; on any body it returns what a
decoder with a buffer of its own returns, which keeps a percent sign that no two digits
follow. -/
theorem form_field_undoes_encoding :
    (∀ m e : Bytes, FormEncodes m e →
      formFieldInPlace (fieldTag ++ e) = some m ∧
        ∀ rest, formFieldInPlace (fieldTag ++ e ++ charByte '&' :: rest) = some m) ∧
    (∀ rest : Bytes, formFieldInPlace (fieldTag ++ rest) = some (formDecode rest)) ∧
    ∀ rest : Bytes, escapeOf rest = none →
      formDecode (charByte '%' :: rest) = charByte '%' :: formDecode rest := by
  refine ⟨?_, ?_, ?_⟩
  · intro m e h
    constructor
    · have hDecoded := formDecode_encoded h (show formDecode [] = [] from rfl)
      rw [List.append_nil] at hDecoded
      rw [formFieldInPlace_eq, formField_tagged, hDecoded]
    · intro rest
      rw [formFieldInPlace_eq, List.append_assoc, formField_tagged,
        formDecode_encoded h (formDecode_amp rest)]
  · intro rest
    rw [formFieldInPlace_eq, formField_tagged]
  · intro rest hNone
    rw [formDecode_percent, hNone]

theorem form_field_undoes_escaped_plus :
    formFieldInPlace (fieldTag ++ ascii "%2b+A" ++ charByte '&' :: ascii "x") =
      some (ascii "+ A") := by
  have hEncodes : FormEncodes (ascii "+ A") (ascii "%2b+A") :=
    .escape _ _ _ (.inl (by decide)) (.inl (by decide)) <|
      .space <| .plain _ (by decide) (by decide) (by decide) .nil
  exact (form_field_undoes_encoding.1 _ _ hEncodes).2 (ascii "x")

end PgpAuth
