import Mathlib.Data.Nat.Notation
import Mathlib.Tactic.Common

/-!
# Base64

Bytes as text in the standard alphabet with padding.  Only canonical texts are read.
-/

namespace Base64

/-- The characters of the standard alphabet. -/
def alphabet : List Char :=
  "ABCDEFGHIJKLMNOPQRSTUVWXYZabcdefghijklmnopqrstuvwxyz0123456789+/".toList

/-- The character for six bits. -/
def symbol (sextet : ℕ) : Char := alphabet.getD sextet '='

/-- The six bits of a character. -/
def sextet (character : Char) : Option ℕ :=
  let index := alphabet.idxOf character
  if index < 64 then some index else none

/-- Bytes as text: four characters for three bytes. -/
def encode : List UInt8 → List Char
  | [] => []
  | [a] => [symbol (a.toNat / 4), symbol (a.toNat % 4 * 16), '=', '=']
  | [a, b] =>
      [symbol (a.toNat / 4), symbol (a.toNat % 4 * 16 + b.toNat / 16), symbol (b.toNat % 16 * 4),
        '=']
  | a :: b :: c :: rest =>
      symbol (a.toNat / 4) :: symbol (a.toNat % 4 * 16 + b.toNat / 16) ::
        symbol (b.toNat % 16 * 4 + c.toNat / 64) :: symbol (c.toNat % 64) :: encode rest

/-- The last one or two bytes; the bits which stand for none of them are zero. -/
def decodeLast (w x y z : Char) : Option (List UInt8) := do
  let p ← sextet w
  let q ← sextet x
  if y = '=' then
    if z = '=' ∧ q % 16 = 0 then some [UInt8.ofNat (p * 4 + q / 16)] else none
  else
    let r ← sextet y
    if z = '=' ∧ r % 4 = 0 then
      some [UInt8.ofNat (p * 4 + q / 16), UInt8.ofNat (q % 16 * 16 + r / 4)]
    else none

/-- Three bytes. -/
def decodeGroup (w x y z : Char) : Option (List UInt8) := do
  let p ← sextet w
  let q ← sextet x
  let r ← sextet y
  let s ← sextet z
  some [UInt8.ofNat (p * 4 + q / 16), UInt8.ofNat (q % 16 * 16 + r / 4),
    UInt8.ofNat (r % 4 * 64 + s)]

/-- The bytes of a text. -/
def decode : List Char → Option (List UInt8)
  | [] => some []
  | w :: x :: y :: z :: rest =>
      if z = '=' then if rest = [] then decodeLast w x y z else none
      else (decodeGroup w x y z).bind fun bytes => (decode rest).map (bytes ++ ·)
  | _ => none

theorem sextet_symbol : ∀ index < 64, sextet (symbol index) = some index := by
  decide +kernel

theorem symbol_ne_pad : ∀ index < 64, symbol index ≠ '=' := by
  decide +kernel

theorem ofNat_eq {byte : UInt8} {value : ℕ} (same : value = byte.toNat) :
    UInt8.ofNat value = byte := by
  rw [same, UInt8.ofNat_toNat]

theorem decodeLast_one (a : UInt8) :
    decodeLast (symbol (a.toNat / 4)) (symbol (a.toNat % 4 * 16)) '=' '=' = some [a] := by
  have small := a.toNat_lt
  have value : a.toNat / 4 * 4 + a.toNat % 4 * 16 / 16 = a.toNat := by omega
  have zero : a.toNat % 4 * 16 % 16 = 0 := by omega
  simp only [decodeLast, sextet_symbol (a.toNat / 4) (by omega),
    sextet_symbol (a.toNat % 4 * 16) (by omega), Option.bind_eq_bind, Option.bind_some, zero,
    and_self, if_true, ofNat_eq value]

theorem decodeLast_two (a b : UInt8) :
    decodeLast (symbol (a.toNat / 4)) (symbol (a.toNat % 4 * 16 + b.toNat / 16))
      (symbol (b.toNat % 16 * 4)) '=' = some [a, b] := by
  have := a.toNat_lt
  have := b.toNat_lt
  have first : a.toNat / 4 * 4 + (a.toNat % 4 * 16 + b.toNat / 16) / 16 = a.toNat := by omega
  have second : (a.toNat % 4 * 16 + b.toNat / 16) % 16 * 16 + b.toNat % 16 * 4 / 4 = b.toNat := by
    omega
  have zero : b.toNat % 16 * 4 % 4 = 0 := by omega
  simp only [decodeLast, sextet_symbol (a.toNat / 4) (by omega),
    sextet_symbol (a.toNat % 4 * 16 + b.toNat / 16) (by omega),
    sextet_symbol (b.toNat % 16 * 4) (by omega), Option.bind_eq_bind, Option.bind_some,
    symbol_ne_pad (b.toNat % 16 * 4) (by omega), if_false, zero, and_self, if_true,
    ofNat_eq first, ofNat_eq second]

theorem decodeGroup_three (a b c : UInt8) :
    decodeGroup (symbol (a.toNat / 4)) (symbol (a.toNat % 4 * 16 + b.toNat / 16))
      (symbol (b.toNat % 16 * 4 + c.toNat / 64)) (symbol (c.toNat % 64)) = some [a, b, c] := by
  have := a.toNat_lt
  have := b.toNat_lt
  have := c.toNat_lt
  have first : a.toNat / 4 * 4 + (a.toNat % 4 * 16 + b.toNat / 16) / 16 = a.toNat := by omega
  have second : (a.toNat % 4 * 16 + b.toNat / 16) % 16 * 16 +
      (b.toNat % 16 * 4 + c.toNat / 64) / 4 = b.toNat := by omega
  have third : (b.toNat % 16 * 4 + c.toNat / 64) % 4 * 64 + c.toNat % 64 = c.toNat := by omega
  simp only [decodeGroup, sextet_symbol (a.toNat / 4) (by omega),
    sextet_symbol (a.toNat % 4 * 16 + b.toNat / 16) (by omega),
    sextet_symbol (b.toNat % 16 * 4 + c.toNat / 64) (by omega),
    sextet_symbol (c.toNat % 64) (by omega), Option.bind_eq_bind, Option.bind_some,
    ofNat_eq first, ofNat_eq second, ofNat_eq third]

theorem decode_encode (bytes : List UInt8) : decode (encode bytes) = some bytes := by
  fun_induction encode bytes with
  | case1 => rfl
  | case2 a => simp [decode, decodeLast_one]
  | case3 a b => simp [decode, decodeLast_two]
  | case4 a b c rest ih =>
    have plain : symbol (c.toNat % 64) ≠ '=' := symbol_ne_pad _ (Nat.mod_lt _ (by decide))
    simp [decode, plain, decodeGroup_three, ih]

end Base64
