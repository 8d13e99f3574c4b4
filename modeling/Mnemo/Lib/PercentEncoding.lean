import Mathlib.Data.List.Basic
import Mathlib.Tactic.IntervalCases

/-!
# Percent-encoding

Text is written with the bytes of some characters as escapes, and read back as bytes.  Text that
loses a character, or in which an escape stands, is read as fewer bytes than it has itself.
-/

namespace PercentEncoding

/-- The UTF-8 bytes of a text. -/
def bytes (text : List Char) : List UInt8 := text.flatMap String.utf8EncodeChar

@[simp]
theorem bytes_nil : bytes [] = [] := rfl

@[simp]
theorem bytes_cons (character : Char) (text : List Char) :
    bytes (character :: text) = String.utf8EncodeChar character ++ bytes text := rfl

@[simp]
theorem bytes_append (front back : List Char) : bytes (front ++ back) = bytes front ++ bytes back :=
  List.flatMap_append

theorem length_utf8EncodeChar_pos (character : Char) :
    0 < (String.utf8EncodeChar character).length :=
  List.length_pos_iff.mpr String.utf8EncodeChar_ne_nil

theorem bytes_eq_nil {text : List Char} (empty : bytes text = []) : text = [] := by
  cases text with
  | nil => rfl
  | cons character text =>
    exact (String.utf8EncodeChar_ne_nil (List.append_eq_nil_iff.mp empty).1).elim

theorem length_bytes_of_sublist {part text : List Char} (within : part.Sublist text) :
    (bytes part).length ≤ (bytes text).length ∧
      ((bytes text).length ≤ (bytes part).length → part = text) := by
  induction within with
  | slnil => exact ⟨Nat.le_refl 0, fun _ => rfl⟩
  | cons character within ih =>
    have positive := length_utf8EncodeChar_pos character
    simp only [bytes_cons, List.length_append]
    refine ⟨by omega, fun long => ?_⟩
    omega
  | cons_cons character within ih =>
    simp only [bytes_cons, List.length_append]
    refine ⟨by omega, fun long => ?_⟩
    rw [ih.2 (by omega)]

/-! ## Escapes -/

/-- A hexadecimal digit. -/
def hexDigit (value : Nat) : Char :=
  Char.ofNat (if value < 10 then 0x30 + value else 0x41 + (value - 10))

/-- The value of a hexadecimal digit, in either case. -/
def hexValue (character : Char) : Option Nat :=
  let code := character.toNat
  if 0x30 ≤ code ∧ code ≤ 0x39 then some (code - 0x30)
  else if 0x41 ≤ code ∧ code ≤ 0x46 then some (code - 0x41 + 10)
  else if 0x61 ≤ code ∧ code ≤ 0x66 then some (code - 0x61 + 10)
  else none

theorem toNat_of_hexValue {character : Char} (digit : (hexValue character).isSome) :
    (0x30 ≤ character.toNat ∧ character.toNat ≤ 0x39) ∨
      (0x41 ≤ character.toNat ∧ character.toNat ≤ 0x46) ∨
        (0x61 ≤ character.toNat ∧ character.toNat ≤ 0x66) := by
  simp only [hexValue] at digit
  split at digit
  · exact .inl ‹_›
  · split at digit
    · exact .inr (.inl ‹_›)
    · split at digit
      · exact .inr (.inr ‹_›)
      · exact nomatch digit

theorem hexValue_hexDigit {value : Nat} (small : value < 16) :
    hexValue (hexDigit value) = some value := by
  interval_cases value <;> decide

/-- The byte which two hexadecimal digits stand for. -/
def escaped (high low : Char) : Option UInt8 :=
  (hexValue high).bind fun upper => (hexValue low).map fun lower => UInt8.ofNat (16 * upper + lower)

/-- The escape of a byte. -/
def encodeByte (byte : UInt8) : List Char :=
  ['%', hexDigit (byte.toNat / 16), hexDigit (byte.toNat % 16)]

theorem escaped_hexDigit (byte : UInt8) :
    escaped (hexDigit (byte.toNat / 16)) (hexDigit (byte.toNat % 16)) = some byte := by
  have bound : byte.toNat < 256 := byte.toNat_lt
  rw [escaped, hexValue_hexDigit (by omega), hexValue_hexDigit (by omega), Option.bind_some,
    Option.map_some, Nat.div_add_mod byte.toNat 16, UInt8.ofNat_toNat]

/-- A character as it is, or its bytes as escapes. -/
def encodeChar (special : Char → Bool) (character : Char) : List Char :=
  if special character then (String.utf8EncodeChar character).flatMap encodeByte else [character]

/-- Write the special characters of a text as escapes. -/
def encode (special : Char → Bool) (text : List Char) : List Char :=
  text.flatMap (encodeChar special)

/-- Read a text as bytes; what is no escape stands for itself. -/
def decode : List Char → List UInt8
  | [] => []
  | '%' :: high :: low :: rest =>
      match escaped high low with
      | some byte => byte :: decode rest
      | none => String.utf8EncodeChar '%' ++ decode (high :: low :: rest)
  | character :: rest => String.utf8EncodeChar character ++ decode rest

/-- Whether an escape stands in a text. -/
def hasEscape : List Char → Bool
  | [] => false
  | '%' :: high :: low :: rest => (escaped high low).isSome || hasEscape (high :: low :: rest)
  | _ :: rest => hasEscape rest

@[simp]
theorem encode_nil (special : Char → Bool) : encode special [] = [] := rfl

@[simp]
theorem encode_cons (special : Char → Bool) (character : Char) (text : List Char) :
    encode special (character :: text) = encodeChar special character ++ encode special text := rfl

@[simp]
theorem encode_append (special : Char → Bool) (front back : List Char) :
    encode special (front ++ back) = encode special front ++ encode special back :=
  List.flatMap_append

@[simp]
theorem decode_nil : decode [] = [] := rfl

theorem decode_cons_of_ne {character : Char} (plain : character ≠ '%') (rest : List Char) :
    decode (character :: rest) = String.utf8EncodeChar character ++ decode rest := by
  rw [decode]
  exact fun high low tail begins => absurd begins plain

theorem decode_escape {high low : Char} {byte : UInt8} (reads : escaped high low = some byte)
    (rest : List Char) : decode ('%' :: high :: low :: rest) = byte :: decode rest := by
  rw [decode, reads]

theorem decode_encodeByte (byte : UInt8) (rest : List Char) :
    decode (encodeByte byte ++ rest) = byte :: decode rest :=
  decode_escape (escaped_hexDigit byte) rest

theorem decode_encodeBytes (written : List UInt8) (rest : List Char) :
    decode (written.flatMap encodeByte ++ rest) = written ++ decode rest := by
  induction written with
  | nil => rfl
  | cons byte written ih =>
    rw [List.flatMap_cons, List.append_assoc, decode_encodeByte, ih, List.cons_append]

theorem decode_of_not_hasEscape {text : List Char} (plain : hasEscape text = false) :
    decode text = bytes text := by
  fun_induction hasEscape text with
  | case1 => rfl
  | case2 high low rest ih =>
    obtain ⟨none, later⟩ := Bool.or_eq_false_iff.mp plain
    rw [decode, Option.isSome_eq_false_iff.mp none |> Option.isNone_iff_eq_none.mp]
    exact congrArg _ (ih later)
  | case3 character rest noEscape ih =>
    rw [decode, ih plain]
    · rfl
    · exact noEscape

theorem length_decode_le (text : List Char) :
    (decode text).length ≤ (bytes text).length ∧
      (hasEscape text = true → (decode text).length < (bytes text).length) := by
  fun_induction decode text with
  | case1 => simp [hasEscape]
  | case2 high low rest byte reads ih =>
    have percent := length_utf8EncodeChar_pos '%'
    have upper := length_utf8EncodeChar_pos high
    have lower := length_utf8EncodeChar_pos low
    simp only [bytes_cons, List.length_append, List.length_cons]
    omega
  | case3 high low rest fails ih =>
    simp only [hasEscape, fails, Option.isSome_none, Bool.false_or]
    rw [bytes_cons, List.length_append, List.length_append]
    exact ⟨Nat.add_le_add_left ih.1 _, fun later => Nat.add_lt_add_left (ih.2 later) _⟩
  | case4 character rest noEscape ih =>
    rw [hasEscape]
    · rw [bytes_cons, List.length_append, List.length_append]
      exact ⟨Nat.add_le_add_left ih.1 _, fun later => Nat.add_lt_add_left (ih.2 later) _⟩
    · exact noEscape

theorem eq_of_decode_eq_bytes {part text : List Char} (within : part.Sublist text)
    (whole : decode part = bytes text) : part = text ∧ hasEscape text = false := by
  have reads := length_decode_le part
  have size := length_bytes_of_sublist within
  rw [whole] at reads
  obtain rfl := size.2 reads.1
  refine ⟨rfl, Bool.eq_false_iff.mpr fun escapes => ?_⟩
  exact absurd (reads.2 escapes) (Nat.lt_irrefl _)

/-! ## Encoding before reading -/

theorem hexValue_percent : hexValue '%' = none := by decide

theorem encodeChar_of_not {special : Char → Bool} {character : Char}
    (plain : special character = false) : encodeChar special character = [character] := by
  simp [encodeChar, plain]

/-- A text and what becomes of it when some characters, which are part of no escape, are written
as escapes. -/
inductive Escaped : List Char → List Char → Prop
  | nil : Escaped [] []
  | kept {text written : List Char} (character : Char) (rest : Escaped text written) :
      Escaped (character :: text) (character :: written)
  | replaced {text written : List Char} {character : Char} (percent : character ≠ '%')
      (digit : hexValue character = none) (rest : Escaped text written) :
      Escaped (character :: text)
        ((String.utf8EncodeChar character).flatMap encodeByte ++ written)

theorem decode_percent_cons_of_none {high : Char} (noDigit : hexValue high = none)
    (rest : List Char) :
    decode ('%' :: high :: rest) = String.utf8EncodeChar '%' ++ decode (high :: rest) := by
  cases rest with
  | nil => rfl
  | cons low rest =>
    rw [decode]
    simp [escaped, noDigit]

theorem decode_percent_cons_cons_of_none {high low : Char} (noDigit : hexValue low = none)
    (rest : List Char) :
    decode ('%' :: high :: low :: rest) =
      String.utf8EncodeChar '%' ++ decode (high :: low :: rest) := by
  rw [decode]
  cases hexValue high <;> simp [escaped, noDigit]

theorem exists_percent_cons (character : Char) :
    ∃ rest, (String.utf8EncodeChar character).flatMap encodeByte = '%' :: rest := by
  obtain ⟨byte, more, starts⟩ : ∃ byte more, String.utf8EncodeChar character = byte :: more :=
    List.exists_cons_of_ne_nil String.utf8EncodeChar_ne_nil
  exact ⟨_, congrArg (List.flatMap encodeByte) starts⟩

theorem decode_percent_of_escaped {text written : List Char} (rest : Escaped text written)
    (begins : ∀ high low tail, text = high :: low :: tail → escaped high low = none) :
    decode ('%' :: written) = String.utf8EncodeChar '%' ++ decode written := by
  cases rest with
  | nil => rfl
  | @replaced text written high percent digit rest =>
    obtain ⟨more, starts⟩ := exists_percent_cons high
    rw [starts]
    exact decode_percent_cons_of_none hexValue_percent _
  | @kept text written high rest =>
    cases rest with
    | nil => rfl
    | @replaced text written low percent digit rest =>
      obtain ⟨more, starts⟩ := exists_percent_cons low
      rw [starts]
      exact decode_percent_cons_cons_of_none hexValue_percent _
    | @kept text written low rest =>
      rw [decode, begins high low text rfl]

/-- Writing characters which are part of no escape as escapes does not change how a text is
read. -/
theorem Escaped.decode_eq {text written : List Char} (writes : Escaped text written) :
    decode written = decode text := by
  fun_induction decode text generalizing written with
  | case1 =>
    cases writes
    rfl
  | case2 high low rest byte reads ih =>
    have upper : hexValue high ≠ none := fun noDigit => by simp [escaped, noDigit] at reads
    have lower : hexValue low ≠ none := fun noDigit => by
      cases found : hexValue high <;> simp [escaped, noDigit] at reads
    cases writes with
    | replaced percent digit more => exact absurd rfl percent
    | kept _ more =>
      cases more with
      | replaced percent digit more => exact absurd digit upper
      | kept _ more =>
        cases more with
        | replaced percent digit more => exact absurd digit lower
        | kept _ more => rw [decode_escape reads, ih more]
  | case3 high low rest fails ih =>
    cases writes with
    | replaced percent digit more => exact absurd rfl percent
    | kept _ more =>
      rw [decode_percent_of_escaped more, ih more]
      rintro high' low' tail same
      obtain ⟨rfl, rfl, -⟩ : high = high' ∧ low = low' ∧ rest = tail := by simpa using same
      exact fails
  | case4 character rest noEscape ih =>
    cases writes with
    | replaced percent digit more => rw [decode_encodeBytes, ih more]
    | kept _ more =>
      by_cases percent : character = '%'
      · subst percent
        rw [decode_percent_of_escaped more, ih more]
        exact fun high low tail same => (noEscape high low tail rfl same).elim
      · rw [decode_cons_of_ne percent, ih more]

/-- The special characters are part of no escape. -/
structure Harmless (special : Char → Bool) : Prop where
  /-- The sign before an escape is not special. -/
  percent : special '%' = false
  /-- Hexadecimal digits are not special. -/
  digit : ∀ character, special character = true → hexValue character = none

theorem Harmless.ne_percent {special : Char → Bool} (harmless : Harmless special)
    {character : Char} (unusual : special character = true) : character ≠ '%' := by
  rintro rfl
  exact absurd (harmless.percent.symm.trans unusual) Bool.false_ne_true

theorem Harmless.escaped_encode {special : Char → Bool} (harmless : Harmless special)
    (text : List Char) : Escaped text (encode special text) := by
  induction text with
  | nil => exact .nil
  | cons character text ih =>
    rw [encode_cons, encodeChar]
    split
    next unusual =>
      exact .replaced (harmless.ne_percent unusual) (harmless.digit character unusual) ih
    next => exact .kept character ih

theorem decode_encode {special : Char → Bool} (harmless : Harmless special) (text : List Char) :
    decode (encode special text) = decode text :=
  (harmless.escaped_encode text).decode_eq

theorem decode_encode_of_percent {special : Char → Bool} (percent : special '%' = true)
    (text : List Char) : decode (encode special text) = bytes text := by
  induction text with
  | nil => rfl
  | cons character text ih =>
    rw [encode_cons, bytes_cons, ← ih, encodeChar]
    split
    next unusual => exact decode_encodeBytes _ _
    next usual =>
      refine decode_cons_of_ne ?_ _
      rintro rfl
      exact usual percent

theorem mem_encode {special : Char → Bool} {text : List Char} {character : Char}
    (found : character ∈ encode special text) :
    (character ∈ text ∧ special character = false) ∨ character = '%' ∨
      (hexValue character).isSome := by
  obtain ⟨source, member, written⟩ := List.mem_flatMap.mp found
  rw [encodeChar] at written
  split at written
  next unusual =>
    obtain ⟨byte, _, escape⟩ := List.mem_flatMap.mp written
    have bound : byte.toNat < 256 := byte.toNat_lt
    simp only [encodeByte, List.mem_cons, List.not_mem_nil, or_false] at escape
    rcases escape with rfl | rfl | rfl
    · exact .inr (.inl rfl)
    · exact .inr (.inr (by rw [hexValue_hexDigit (by omega)]; rfl))
    · exact .inr (.inr (by rw [hexValue_hexDigit (by omega)]; rfl))
  next usual =>
    obtain rfl := List.mem_singleton.mp written
    exact .inl ⟨member, Bool.eq_false_iff.mpr usual⟩

/-! ## Forms -/

/-- Read plus signs as spaces. -/
def plusToSpace (text : List Char) : List Char :=
  text.map fun character => if character = '+' then ' ' else character

/-- Read a name or a value of a form. -/
def decodeForm (text : List Char) : List UInt8 := decode (plusToSpace text)

theorem plusToSpace_of_notMem {text : List Char} (none : '+' ∉ text) : plusToSpace text = text := by
  induction text with
  | nil => rfl
  | cons character text ih =>
    have other : character ≠ '+' := fun same => none (same ▸ List.mem_cons_self)
    have same := ih fun later => none (List.mem_cons_of_mem _ later)
    rw [plusToSpace] at same ⊢
    rw [List.map_cons, same, if_neg other]

theorem notMem_plusToSpace (text : List Char) : '+' ∉ plusToSpace text := by
  intro found
  obtain ⟨character, _, becomes⟩ := List.mem_map.mp found
  split at becomes
  · exact absurd becomes (by decide)
  next other => exact other becomes

theorem length_bytes_plusToSpace (text : List Char) :
    (bytes (plusToSpace text)).length = (bytes text).length := by
  induction text with
  | nil => rfl
  | cons character text ih =>
    rw [plusToSpace] at ih ⊢
    rw [List.map_cons, bytes_cons, bytes_cons, List.length_append, List.length_append, ih]
    split
    next plus => subst plus; rfl
    next => rfl

theorem notMem_escapes (written : List UInt8) : '+' ∉ written.flatMap encodeByte := by
  intro found
  obtain ⟨byte, _, escape⟩ := List.mem_flatMap.mp found
  have bound : byte.toNat < 256 := byte.toNat_lt
  have upper := hexValue_hexDigit (show byte.toNat / 16 < 16 by omega)
  have lower := hexValue_hexDigit (show byte.toNat % 16 < 16 by omega)
  have plus : hexValue '+' = none := by decide
  simp only [encodeByte, List.mem_cons, List.not_mem_nil, or_false] at escape
  rcases escape with same | same | same
  · exact absurd same (by decide)
  · rw [← same, plus] at upper
    exact nomatch upper
  · rw [← same, plus] at lower
    exact nomatch lower

theorem escaped_plusToSpace {special : Char → Bool} (harmless : Harmless special)
    (plus : special '+' = false) (text : List Char) :
    Escaped (plusToSpace text) (plusToSpace (encode special text)) := by
  induction text with
  | nil => exact .nil
  | cons character text ih =>
    rw [encode_cons, encodeChar]
    split
    next unusual =>
      have other : character ≠ '+' := by
        rintro rfl
        exact absurd (plus.symm.trans unusual) Bool.false_ne_true
      have escapes := plusToSpace_of_notMem
        (notMem_escapes (String.utf8EncodeChar character))
      rw [plusToSpace] at ih escapes ⊢
      rw [List.map_cons, if_neg other, plusToSpace, List.map_append, escapes]
      exact .replaced (harmless.ne_percent unusual) (harmless.digit character unusual) ih
    next => exact .kept _ ih

theorem decodeForm_encode {special : Char → Bool} (harmless : Harmless special)
    (plus : special '+' = false) (text : List Char) :
    decodeForm (encode special text) = decodeForm text :=
  (escaped_plusToSpace harmless plus text).decode_eq

theorem bytes_inj {text other : List Char} : bytes text = bytes other ↔ text = other := by
  refine ⟨fun same => ?_, congrArg bytes⟩
  have encoded : text.utf8Encode = other.utf8Encode := congrArg List.toByteArray same
  have strings : String.ofList text = String.ofList other := by
    rw [← String.toByteArray_inj, String.toByteArray_ofList, String.toByteArray_ofList, encoded]
  simpa using congrArg String.toList strings

theorem eq_of_decodeForm_eq_bytes {part text : List Char} (within : part.Sublist text)
    (whole : decodeForm part = bytes text) :
    part = text ∧ hasEscape text = false ∧ '+' ∉ text := by
  have reads := length_decode_le (plusToSpace part)
  have size := length_bytes_of_sublist within
  rw [decodeForm] at whole
  rw [whole, length_bytes_plusToSpace] at reads
  obtain rfl := size.2 reads.1
  have plain : hasEscape (plusToSpace part) = false :=
    Bool.eq_false_iff.mpr fun escapes => absurd (reads.2 escapes) (Nat.lt_irrefl _)
  have same : plusToSpace part = part := by
    rw [← bytes_inj, ← whole, decode_of_not_hasEscape plain]
  exact ⟨rfl, same ▸ plain, same ▸ notMem_plusToSpace part⟩

theorem decodeForm_eq_bytes {text : List Char} (plain : hasEscape text = false)
    (none : '+' ∉ text) : decodeForm text = bytes text := by
  rw [decodeForm, plusToSpace_of_notMem none, decode_of_not_hasEscape plain]

end PercentEncoding
