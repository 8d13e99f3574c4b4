import Mathlib.Data.Nat.Digits.Lemmas

/-!
# Internet addresses

Addresses of both versions, the blocks of addresses with a special use, and the texts in which
addresses are written and read.
-/

namespace IpAddress

/-- An address of version 4: its octets. -/
structure Ipv4Addr where
  a : UInt8
  b : UInt8
  c : UInt8
  d : UInt8
deriving DecidableEq

/-- An address of version 6: its eight segments. -/
structure Ipv6Addr where
  segments : List UInt16
  length_eq : segments.length = 8
deriving DecidableEq

/-- An address of either version. -/
inductive IpAddr
  | v4 (address : Ipv4Addr)
  | v6 (address : Ipv6Addr)
deriving DecidableEq

/-! ## Blocks of addresses -/

/-- The addresses of a width, as numbers, that share their first bits with a network. -/
structure Block (width : ℕ) where
  network : ℕ
  bits : ℕ

/-- Whether a block holds an address. -/
def Block.Holds {width : ℕ} (block : Block width) (value : ℕ) : Prop :=
  value / 2 ^ (width - block.bits) = block.network / 2 ^ (width - block.bits)

instance {width : ℕ} (block : Block width) (value : ℕ) : Decidable (block.Holds value) :=
  inferInstanceAs (Decidable (_ = _))

namespace Ipv4Addr

/-- The address as a number. -/
def value (address : Ipv4Addr) : ℕ :=
  ((address.a.toNat * 256 + address.b.toNat) * 256 + address.c.toNat) * 256 + address.d.toNat

/-- The block of the addresses that share their first bits with this one. -/
def block (address : Ipv4Addr) (bits : ℕ) : Block 32 := ⟨address.value, bits⟩

/-- An address for private use. -/
def isPrivate (address : Ipv4Addr) : Bool :=
  address.a == 10 || (address.a == 172 && (16 ≤ address.b && address.b ≤ 31)) ||
    (address.a == 192 && address.b == 168)

/-- An address of the host itself. -/
def isLoopback (address : Ipv4Addr) : Bool := address.a == 127

/-- An address of the local link. -/
def isLinkLocal (address : Ipv4Addr) : Bool := address.a == 169 && address.b == 254

/-- The address of every host of the local network. -/
def isBroadcast (address : Ipv4Addr) : Bool := address == ⟨255, 255, 255, 255⟩

/-- The address that stands for none. -/
def isUnspecified (address : Ipv4Addr) : Bool := address == ⟨0, 0, 0, 0⟩

theorem value_injective {first second : Ipv4Addr} (same : first.value = second.value) :
    first = second := by
  obtain ⟨a, b, c, d⟩ := first
  obtain ⟨e, f, g, h⟩ := second
  simp only [value] at same
  have := a.toNat_lt
  have := b.toNat_lt
  have := c.toNat_lt
  have := d.toNat_lt
  have := e.toNat_lt
  have := f.toNat_lt
  have := g.toNat_lt
  have := h.toNat_lt
  simp only [mk.injEq, ← UInt8.toNat_inj]
  omega

theorem isPrivate_iff (address : Ipv4Addr) :
    address.isPrivate = true ↔ (block ⟨10, 0, 0, 0⟩ 8).Holds address.value ∨
      (block ⟨172, 16, 0, 0⟩ 12).Holds address.value ∨
        (block ⟨192, 168, 0, 0⟩ 16).Holds address.value := by
  have := address.b.toNat_lt
  have := address.c.toNat_lt
  have := address.d.toNat_lt
  simp only [isPrivate, Block.Holds, block, value, Bool.or_eq_true, Bool.and_eq_true, beq_iff_eq,
    decide_eq_true_eq, ← UInt8.toNat_inj, UInt8.le_iff_toNat_le, UInt8.reduceToNat]
  omega

theorem isLoopback_iff (address : Ipv4Addr) :
    address.isLoopback = true ↔ (block ⟨127, 0, 0, 0⟩ 8).Holds address.value := by
  have := address.b.toNat_lt
  have := address.c.toNat_lt
  have := address.d.toNat_lt
  simp only [isLoopback, Block.Holds, block, value, beq_iff_eq, ← UInt8.toNat_inj,
    UInt8.reduceToNat]
  omega

theorem isLinkLocal_iff (address : Ipv4Addr) :
    address.isLinkLocal = true ↔ (block ⟨169, 254, 0, 0⟩ 16).Holds address.value := by
  have := address.b.toNat_lt
  have := address.c.toNat_lt
  have := address.d.toNat_lt
  simp only [isLinkLocal, Block.Holds, block, value, Bool.and_eq_true, beq_iff_eq,
    ← UInt8.toNat_inj, UInt8.reduceToNat]
  omega

theorem eq_iff_holds (address other : Ipv4Addr) :
    address = other ↔ (block other 32).Holds address.value := by
  simp only [Block.Holds, block, Nat.sub_self, Nat.pow_zero, Nat.div_one]
  exact ⟨congrArg value, value_injective⟩

end Ipv4Addr

namespace Ipv6Addr

/-- The address as a number. -/
def value (address : Ipv6Addr) : ℕ :=
  Nat.ofDigits 65536 (address.segments.reverse.map UInt16.toNat)

/-- The block of the addresses that share their first bits with this one. -/
def block (address : Ipv6Addr) (bits : ℕ) : Block 128 := ⟨address.value, bits⟩

/-- The address of the host itself. -/
def loopback : Ipv6Addr := ⟨[0, 0, 0, 0, 0, 0, 0, 1], rfl⟩

/-- The address that stands for none. -/
def unspecified : Ipv6Addr := ⟨[0, 0, 0, 0, 0, 0, 0, 0], rfl⟩

/-- The address with a given first segment and zeros behind it. -/
def ofFirst (segment : UInt16) : Ipv6Addr := ⟨[segment, 0, 0, 0, 0, 0, 0, 0], rfl⟩

/-- The first segment. -/
def first (address : Ipv6Addr) : UInt16 := address.segments.headD 0

/-- Whether the address is that of the host itself. -/
def isLoopback (address : Ipv6Addr) : Bool := address == loopback

/-- Whether the address stands for none. -/
def isUnspecified (address : Ipv6Addr) : Bool := address == unspecified

/-- The address of version 4 which an address stands for. -/
def toIpv4Mapped (address : Ipv6Addr) : Option Ipv4Addr :=
  match address.segments with
  | [0, 0, 0, 0, 0, 0xffff, high, low] =>
      some ⟨(high >>> 8).toUInt8, high.toUInt8, (low >>> 8).toUInt8, low.toUInt8⟩
  | _ => none

theorem exists_segments (address : Ipv6Addr) :
    ∃ a b c d e f g h, address.segments = [a, b, c, d, e, f, g, h] := by
  obtain ⟨segments, length_eq⟩ := address
  match segments, length_eq with
  | [a, b, c, d, e, f, g, h], _ => exact ⟨a, b, c, d, e, f, g, h, rfl⟩

theorem and_shiftLeft (value mask shift : ℕ) :
    value &&& mask <<< shift = (value >>> shift &&& mask) <<< shift := by
  refine Nat.eq_of_testBit_eq fun index => ?_
  simp only [Nat.testBit_and, Nat.testBit_shiftLeft, Nat.testBit_shiftRight]
  by_cases later : shift ≤ index
  · simp [later]
  · simp [later]

theorem toNat_and_mask {bits : ℕ} {segment mask : UInt16} (small : bits ≤ 16)
    (isMask : mask.toNat = (2 ^ bits - 1) <<< (16 - bits)) :
    (segment &&& mask).toNat = segment.toNat / 2 ^ (16 - bits) * 2 ^ (16 - bits) := by
  have bound : segment.toNat / 2 ^ (16 - bits) < 2 ^ bits := by
    rw [Nat.div_lt_iff_lt_mul (Nat.two_pow_pos _), ← Nat.pow_add,
      show bits + (16 - bits) = 16 by omega]
    exact segment.toNat_lt
  rw [UInt16.toNat_and, isMask, and_shiftLeft, Nat.and_two_pow_sub_one_eq_mod,
    Nat.shiftRight_eq_div_pow, Nat.mod_eq_of_lt bound, Nat.shiftLeft_eq]

/-- A block is decided by the first segment if it is not longer than that. -/
theorem holds_ofFirst_iff {bits : ℕ} {segment mask : UInt16} (small : bits ≤ 16)
    (isMask : mask.toNat = (2 ^ bits - 1) <<< (16 - bits))
    (masked : segment &&& mask = segment) (address : Ipv6Addr) :
    (address.first &&& mask == segment) = true ↔
      (block (ofFirst segment) bits).Holds address.value := by
  obtain ⟨a, b, c, d, e, f, g, h, segments⟩ := address.exists_segments
  have := b.toNat_lt
  have := c.toNat_lt
  have := d.toNat_lt
  have := e.toNat_lt
  have := f.toNat_lt
  have := g.toNat_lt
  have := h.toNat_lt
  have networkValue : (ofFirst segment).value = segment.toNat * 2 ^ 112 := by
    simp [value, ofFirst, Nat.ofDigits]
    omega
  have divided : address.value / 2 ^ 112 = a.toNat := by
    simp [value, segments, Nat.ofDigits]
    omega
  have power : 2 ^ (128 - bits) = 2 ^ 112 * 2 ^ (16 - bits) := by
    rw [← Nat.pow_add, show 112 + (16 - bits) = 128 - bits by omega]
  have rounded := @toNat_and_mask _ segment _ small isMask
  rw [masked] at rounded
  rw [beq_iff_eq, ← UInt16.toNat_inj, toNat_and_mask small isMask, rounded,
    Nat.mul_left_inj (Nat.two_pow_pos _).ne', first, segments, List.headD_cons]
  simp only [Block.Holds, block, power, ← Nat.div_div_eq_div_mul, divided, networkValue,
    Nat.mul_div_cancel _ (Nat.two_pow_pos 112)]

theorem value_injective {left right : Ipv6Addr} (same : left.value = right.value) :
    left = right := by
  have small (address : Ipv6Addr) :
      ∀ digit ∈ address.segments.reverse.map UInt16.toNat, digit < 65536 := by
    intro digit member
    obtain ⟨segment, -, rfl⟩ := List.mem_map.mp member
    exact segment.toNat_lt
  have lengths : (left.segments.reverse.map UInt16.toNat).length =
      (right.segments.reverse.map UInt16.toNat).length := by
    simp [left.length_eq, right.length_eq]
  have digits := Nat.ofDigits_inj_of_len_eq (by decide) lengths (small left) (small right) same
  have equal : left.segments = right.segments :=
    List.reverse_injective (List.map_injective_iff.mpr (fun _ _ => UInt16.toNat_inj.mp) digits)
  obtain ⟨_, _⟩ := left
  obtain ⟨_, _⟩ := right
  cases equal
  rfl

theorem eq_iff_holds (address other : Ipv6Addr) :
    address = other ↔ (block other 128).Holds address.value := by
  simp only [Block.Holds, block, Nat.sub_self, Nat.pow_zero, Nat.div_one]
  exact ⟨congrArg value, value_injective⟩

end Ipv6Addr

/-! ## Texts of addresses -/

/-- The octets in decimal, with dots between them. -/
def Ipv4Addr.text (address : Ipv4Addr) : List Char :=
  Nat.toDigits 10 address.a.toNat ++ '.' :: (Nat.toDigits 10 address.b.toNat ++ '.' ::
    (Nat.toDigits 10 address.c.toNat ++ '.' :: Nat.toDigits 10 address.d.toNat))

/-- A run of segments: where it begins, and how many it has. -/
structure Span where
  start : ℕ
  length : ℕ

/-- The first of the longest runs of zeros: behind the segments up to an index, with the run that
ends there and the longest one so far. -/
def longestZeros (index : ℕ) (current longest : Span) : List UInt16 → Span
  | [] => longest
  | segment :: rest =>
      if segment == 0 then
        let start := if current.length = 0 then index else current.start
        let grown : Span := ⟨start, current.length + 1⟩
        longestZeros (index + 1) grown (if longest.length < grown.length then grown else longest)
          rest
      else longestZeros (index + 1) ⟨0, 0⟩ longest rest

/-- Segments in hexadecimal, with colons between them. -/
def segmentsText : List UInt16 → List Char
  | [] => []
  | first :: rest =>
      Nat.toDigits 16 first.toNat ++ rest.flatMap fun segment =>
        ':' :: Nat.toDigits 16 segment.toNat

/-- The segments with the first longest run of more than one zero left out. -/
def Ipv6Addr.text (address : Ipv6Addr) : List Char :=
  let zeros := longestZeros 0 ⟨0, 0⟩ ⟨0, 0⟩ address.segments
  if 1 < zeros.length then
    segmentsText (address.segments.take zeros.start) ++ ':' :: ':' ::
      segmentsText (address.segments.drop (zeros.start + zeros.length))
  else segmentsText address.segments

/-- An address as it is shown to a reader. -/
def IpAddr.display : IpAddr → String
  | .v4 address => String.ofList address.text
  | .v6 address =>
      match address.toIpv4Mapped with
      | some mapped => "::ffff:" ++ String.ofList mapped.text
      | none => String.ofList address.text

/-! ## Reading addresses -/

/-- The value of a digit. -/
def toDigit (radix : ℕ) (character : Char) : Option ℕ :=
  let digit :=
    if '0' ≤ character && character ≤ '9' then character.toNat - '0'.toNat
    else if 'a' ≤ character && character ≤ 'z' then character.toNat - 'a'.toNat + 10
    else if 'A' ≤ character && character ≤ 'Z' then character.toNat - 'A'.toNat + 10
    else radix
  if digit < radix then some digit else none

/-- Read a number of so many digits at most that is below a limit. -/
def readNumber (radix maxDigits limit : ℕ) (allowZeroPrefix : Bool) (text : List Char) :
    Option (ℕ × List Char) :=
  let digits := text.takeWhile fun character => (toDigit radix character).isSome
  let value := digits.foldl (fun total digit => total * radix + (toDigit radix digit).getD 0) 0
  if maxDigits < digits.length || digits.isEmpty then none
  else if !allowZeroPrefix && digits.head? == some '0' && 1 < digits.length then none
  else if value < limit then some (value, text.drop digits.length)
  else none

/-- Read one character. -/
def readGivenChar (given : Char) : List Char → Option (List Char)
  | [] => none
  | character :: rest => if character = given then some rest else none

/-- Read a separator, unless at the first position, and then something else. -/
def readSeparator {α : Type} (separator : Char) (index : ℕ)
    (read : List Char → Option (α × List Char)) (text : List Char) : Option (α × List Char) :=
  if 0 < index then (readGivenChar separator text).bind read else read text

/-- Read an octet at its position in an address. -/
def readOctet (index : ℕ) (text : List Char) : Option (UInt8 × List Char) :=
  (readSeparator '.' index (readNumber 10 3 256 false) text).map fun (value, rest) =>
    (UInt8.ofNat value, rest)

/-- Read an address of version 4. -/
def readIpv4Addr (text : List Char) : Option (Ipv4Addr × List Char) := do
  let (a, text) ← readOctet 0 text
  let (b, text) ← readOctet 1 text
  let (c, text) ← readOctet 2 text
  let (d, text) ← readOctet 3 text
  pure (⟨a, b, c, d⟩, text)

/-- Read segments from a position on, so many at most; whether the last two were an address of
version 4. -/
def readGroups (index : ℕ) : ℕ → List Char → List UInt16 × Bool × List Char
  | 0, text => ([], false, text)
  | room + 1, text =>
      let ipv4 := if 0 < room then readSeparator ':' index readIpv4Addr text else none
      match ipv4 with
      | some (address, rest) =>
          ([address.a.toUInt16 <<< 8 ||| address.b.toUInt16,
            address.c.toUInt16 <<< 8 ||| address.d.toUInt16], true, rest)
      | none =>
          match readSeparator ':' index (readNumber 16 4 65536 true) text with
          | some (value, rest) =>
              let (groups, embedded, rest) := readGroups (index + 1) room rest
              (UInt16.ofNat value :: groups, embedded, rest)
          | none => ([], false, text)

theorem readGroups_length_le (index room : ℕ) (text : List Char) :
    (readGroups index room text).1.length ≤ room := by
  induction room generalizing index text with
  | zero => rfl
  | succ room ih =>
    rw [readGroups]
    split
    · rename_i found
      split at found
      · simp only [List.length_cons, List.length_nil]
        omega
      · exact nomatch found
    · split
      · exact Nat.succ_le_succ (ih _ _)
      · exact Nat.zero_le _

/-- Read an address of version 6. -/
def readIpv6Addr (text : List Char) : Option (Ipv6Addr × List Char) :=
  let front := readGroups 0 8 text
  if full : front.1.length = 8 then some (⟨front.1, full⟩, front.2.2)
  else if front.2.1 then none
  else do
    let text ← readGivenChar ':' front.2.2
    let text ← readGivenChar ':' text
    let back := readGroups 0 (8 - (front.1.length + 1)) text
    let zeros := List.replicate (8 - front.1.length - back.1.length) 0
    have length_eq : (front.1 ++ zeros ++ back.1).length = 8 := by
      have short : front.1.length ≤ 8 := readGroups_length_le 0 8 _
      have rest : back.1.length ≤ 8 - (front.1.length + 1) := readGroups_length_le 0 _ _
      simp only [List.length_append, zeros, List.length_replicate]
      omega
    pure (⟨front.1 ++ zeros ++ back.1, length_eq⟩, back.2.2)

/-- Read a text as an address of one of the versions. -/
def parseIpAddr (text : List Char) : Option IpAddr :=
  let read := ((readIpv4Addr text).map fun (address, rest) => (IpAddr.v4 address, rest)) <|>
    ((readIpv6Addr text).map fun (address, rest) => (IpAddr.v6 address, rest))
  match read with
  | some (address, []) => some address
  | _ => none

/-! ## Digits -/

theorem exists_digit_of_mem_toDigits {base number : ℕ} (large : 1 < base) {character : Char}
    (member : character ∈ Nat.toDigits base number) :
    ∃ digit < base, character = Nat.digitChar digit := by
  induction number using Nat.strongRecOn with
  | _ number ih =>
    rw [Nat.toDigits_eq_if large] at member
    split at member
    · rename_i small
      exact ⟨number, small, List.mem_singleton.mp member⟩
    · rename_i notSmall
      rcases List.mem_append.mp member with front | last
      · exact ih (number / base) (Nat.div_lt_self (by omega) large) front
      · exact ⟨_, Nat.mod_lt _ (by omega), List.mem_singleton.mp last⟩

theorem isDigit_digitChar : ∀ digit < 10, toDigit 10 (Nat.digitChar digit) = some digit := by
  decide

theorem toDigit_of_mem {octet : UInt8} {character : Char}
    (member : character ∈ Nat.toDigits 10 octet.toNat) :
    (toDigit 10 character).isSome = true := by
  obtain ⟨digit, small, rfl⟩ := exists_digit_of_mem_toDigits (by decide) member
  rw [isDigit_digitChar digit small]
  rfl

theorem octet_digits : ∀ value : Fin 256,
    let digits := Nat.toDigits 10 value
    digits.length ≤ 3 ∧ (digits.head? = some '0' → digits.length = 1) ∧
      digits.foldl (fun total digit => total * 10 + (toDigit 10 digit).getD 0) 0 = value := by
  decide +kernel

theorem readNumber_octet (octet : UInt8) {rest : List Char}
    (stops : ∀ character ∈ rest.head?, toDigit 10 character = none) :
    readNumber 10 3 256 false (Nat.toDigits 10 octet.toNat ++ rest) = some (octet.toNat, rest) := by
  obtain ⟨short, leading, value⟩ := octet_digits ⟨octet.toNat, octet.toNat_lt⟩
  have behind : rest.takeWhile (fun character => (toDigit 10 character).isSome) = [] := by
    cases rest with
    | nil => rfl
    | cons character rest => simp [stops character rfl]
  have taken : (Nat.toDigits 10 octet.toNat ++ rest).takeWhile
      (fun character => (toDigit 10 character).isSome) = Nat.toDigits 10 octet.toNat := by
    rw [List.takeWhile_append_of_pos fun _ => toDigit_of_mem, behind, List.append_nil]
  have filled : (3 < (Nat.toDigits 10 octet.toNat).length ||
      (Nat.toDigits 10 octet.toNat).isEmpty) = false := by
    simp [Nat.toDigits_ne_nil, short]
  have exact : (!false && (Nat.toDigits 10 octet.toNat).head? == some '0' &&
      1 < (Nat.toDigits 10 octet.toNat).length) = false := by
    by_cases zero : (Nat.toDigits 10 octet.toNat).head? = some '0'
    · simp [leading zero]
    · simp [zero]
  simp only [readNumber, taken, value]
  rw [if_neg (by simpa using filled), if_neg (by simpa using exact), if_pos octet.toNat_lt,
    List.drop_left]

theorem readOctet_zero (octet : UInt8) {rest : List Char}
    (stops : ∀ character ∈ rest.head?, toDigit 10 character = none) :
    readOctet 0 (Nat.toDigits 10 octet.toNat ++ rest) = some (octet, rest) := by
  rw [readOctet, readSeparator, if_neg (Nat.lt_irrefl 0), readNumber_octet octet stops]
  simp

theorem readOctet_succ (index : ℕ) (octet : UInt8) {rest : List Char}
    (stops : ∀ character ∈ rest.head?, toDigit 10 character = none) :
    readOctet (index + 1) ('.' :: (Nat.toDigits 10 octet.toNat ++ rest)) = some (octet, rest) := by
  rw [readOctet, readSeparator, if_pos (Nat.succ_pos index), readGivenChar, if_pos rfl,
    Option.bind_some, readNumber_octet octet stops]
  simp

theorem readIpv4Addr_text (address : Ipv4Addr) :
    readIpv4Addr address.text = some (address, []) := by
  have dot (rest : List Char) :
      ∀ character ∈ ('.' :: rest).head?, toDigit 10 character = none := by
    intro character same
    obtain rfl := Option.some.inj same
    decide
  have last := @readOctet_succ 2 address.d [] nofun
  rw [List.append_nil] at last
  simp only [readIpv4Addr, Ipv4Addr.text, readOctet_zero _ (dot _), readOctet_succ _ _ (dot _),
    Option.bind_eq_bind, Option.bind_some, last]
  rfl

theorem parseIpAddr_ipv4 (address : Ipv4Addr) :
    parseIpAddr address.text = some (.v4 address) := by
  simp [parseIpAddr, readIpv4Addr_text]

theorem parseIpAddr_bracket (rest : List Char) : parseIpAddr ('[' :: rest) = none := by
  rfl

/-! ## Recognizing the text of an address -/

/-- A character of the text of an address: a separator or a digit. -/
def IsPlain (separator : Char) (base : ℕ) (character : Char) : Prop :=
  character = separator ∨ ∃ digit < base, character = Nat.digitChar digit

theorem isPlain_of_mem_toDigits {separator : Char} {base number : ℕ} (large : 1 < base) :
    ∀ character ∈ Nat.toDigits base number, IsPlain separator base character :=
  fun _ member => .inr (exists_digit_of_mem_toDigits large member)

theorem Ipv4Addr.isPlain_of_mem_text (address : Ipv4Addr) :
    ∀ character ∈ address.text, IsPlain '.' 10 character := by
  have digits (octet : UInt8) := @isPlain_of_mem_toDigits '.' 10 octet.toNat (by decide)
  have join (octet : UInt8) {rest : List Char}
      (plain : ∀ character ∈ rest, IsPlain '.' 10 character) :
      ∀ character ∈ Nat.toDigits 10 octet.toNat ++ '.' :: rest, IsPlain '.' 10 character := by
    intro character member
    rcases List.mem_append.mp member with front | back
    · exact digits octet character front
    · rcases List.mem_cons.mp back with dot | back
      · exact .inl dot
      · exact plain character back
  exact join address.a (join address.b (join address.c (digits address.d)))

theorem isPlain_of_mem_segmentsText (segments : List UInt16) :
    ∀ character ∈ segmentsText segments, IsPlain ':' 16 character := by
  intro character member
  cases segments with
  | nil => exact nomatch member
  | cons first rest =>
    rcases List.mem_append.mp member with front | back
    · exact isPlain_of_mem_toDigits (by decide) character front
    · obtain ⟨segment, -, among⟩ := List.mem_flatMap.mp back
      rcases List.mem_cons.mp among with colon | digit
      · exact .inl colon
      · exact isPlain_of_mem_toDigits (by decide) character digit

theorem Ipv6Addr.isPlain_of_mem_text (address : Ipv6Addr) :
    ∀ character ∈ address.text, IsPlain ':' 16 character := by
  intro character member
  rw [Ipv6Addr.text] at member
  split at member
  · rcases List.mem_append.mp member with front | back
    · exact isPlain_of_mem_segmentsText _ character front
    · rcases List.mem_cons.mp back with colon | back
      · exact .inl colon
      · rcases List.mem_cons.mp back with colon | back
        · exact .inl colon
        · exact isPlain_of_mem_segmentsText _ character back
  · exact isPlain_of_mem_segmentsText _ character member

theorem colon_ne_digitChar : ∀ digit < 16, Nat.digitChar digit ≠ ':' := by
  decide

theorem dot_ne_digitChar : ∀ digit < 10, Nat.digitChar digit ≠ '.' := by
  decide

theorem dot_notMem_toDigits (number : ℕ) : '.' ∉ Nat.toDigits 10 number := by
  intro member
  obtain ⟨digit, small, same⟩ := exists_digit_of_mem_toDigits (by decide) member
  exact dot_ne_digitChar digit small same.symm

theorem toDigits_eq_one_iff (number : ℕ) : Nat.toDigits 16 number = ['1'] ↔ number = 1 := by
  constructor
  · intro same
    rw [Nat.toDigits_eq_if (by decide)] at same
    split at same
    · rename_i small
      have digit : ∀ number < 16, Nat.digitChar number = '1' → number = 1 := by decide
      exact digit number small (List.cons.inj same).1
    · have lengths := congrArg List.length same
      have positive := @Nat.length_toDigits_pos 16 (number / 16)
      simp only [List.length_append, List.length_cons, List.length_nil] at lengths
      omega
  · rintro rfl
    rfl

theorem segmentsText_cons_ne (first : UInt16) (rest : List UInt16) (back : List Char) :
    segmentsText (first :: rest) ++ back ≠ [':', ':', '1'] := by
  intro same
  rw [segmentsText] at same
  cases digits : Nat.toDigits 16 first.toNat with
  | nil => exact Nat.toDigits_ne_nil digits
  | cons character others =>
    rw [digits] at same
    have head := (List.cons.inj same).1
    have large : 1 < 16 := by decide
    obtain ⟨digit, small, isDigit⟩ := exists_digit_of_mem_toDigits large
      (digits ▸ List.mem_cons_self)
    exact colon_ne_digitChar digit small (isDigit.symm.trans head)

theorem segmentsText_eq_one {segments : List UInt16} (same : segmentsText segments = ['1']) :
    segments = [1] := by
  match segments with
  | [] => exact nomatch same
  | [segment] =>
    rw [segmentsText, List.flatMap_nil, List.append_nil, toDigits_eq_one_iff] at same
    exact congrArg (fun one => [one]) (UInt16.toNat_inj.mp (same.trans rfl))
  | first :: second :: rest =>
    have lengths := congrArg List.length same
    have positive := @Nat.length_toDigits_pos 16 first.toNat
    simp only [segmentsText, List.flatMap_cons, List.length_append, List.length_cons,
      List.length_nil] at lengths
    omega

/-! ## Runs of zeros -/

/-- A span of segments that are all zero. -/
def IsZeros (segments : List UInt16) (span : Span) : Prop :=
  ∃ front back, segments = front ++ List.replicate span.length 0 ++ back ∧
    (0 < span.length → front.length = span.start)

/-- A span of zeros at the end. -/
def EndsWithZeros (segments : List UInt16) (span : Span) : Prop :=
  ∃ front, segments = front ++ List.replicate span.length 0 ∧
    (0 < span.length → front.length = span.start)

theorem EndsWithZeros.isZeros {segments : List UInt16} {span : Span}
    (ends : EndsWithZeros segments span) : IsZeros segments span := by
  obtain ⟨front, same, start⟩ := ends
  exact ⟨front, [], by rw [List.append_nil, same], start⟩

theorem IsZeros.append {segments : List UInt16} {span : Span} (zeros : IsZeros segments span)
    (more : List UInt16) : IsZeros (segments ++ more) span := by
  obtain ⟨front, back, rfl, start⟩ := zeros
  exact ⟨front, back ++ more, by simp only [List.append_assoc], start⟩

theorem IsZeros.longer {before : List UInt16} {longest grown : Span}
    (zeros : IsZeros before longest) (more : IsZeros (before ++ [0]) grown) :
    IsZeros (before ++ [0]) (if longest.length < grown.length then grown else longest) := by
  split
  · exact more
  · exact zeros.append _

theorem EndsWithZeros.grow {segments : List UInt16} {span : Span}
    (ends : EndsWithZeros segments span) :
    EndsWithZeros (segments ++ [0])
      ⟨if span.length = 0 then segments.length else span.start, span.length + 1⟩ := by
  obtain ⟨front, rfl, start⟩ := ends
  refine ⟨front, ?_, fun _ => ?_⟩
  · rw [List.append_assoc, List.replicate_succ']
  · split
    · rename_i empty
      simp [empty]
    · rename_i filled
      exact start (Nat.pos_of_ne_zero filled)

theorem longestZeros_isZeros {before rest : List UInt16} {current longest : Span}
    (ends : EndsWithZeros before current) (zeros : IsZeros before longest) :
    IsZeros (before ++ rest) (longestZeros before.length current longest rest) := by
  induction rest generalizing before current longest with
  | nil => simpa [longestZeros] using zeros
  | cons segment rest ih =>
    have again : before ++ segment :: rest = (before ++ [segment]) ++ rest := by simp
    have length : before.length + 1 = (before ++ [segment]).length := by simp
    rw [longestZeros, again, length]
    split
    · rename_i isZero
      obtain rfl := beq_iff_eq.mp isZero
      exact ih ends.grow (zeros.longer ends.grow.isZeros)
    · exact ih ⟨before ++ [segment], by simp, nofun⟩ (zeros.append _)

/-- Only the loopback address is written as such. -/
theorem Ipv6Addr.text_eq_loopback_iff (address : Ipv6Addr) :
    address.text = [':', ':', '1'] ↔ address = loopback := by
  constructor
  · intro same
    obtain ⟨segments, length_eq⟩ := address
    have zeros : IsZeros segments (longestZeros 0 ⟨0, 0⟩ ⟨0, 0⟩ segments) :=
      @longestZeros_isZeros [] segments _ _ ⟨[], rfl, nofun⟩ ⟨[], [], rfl, nofun⟩
    simp only [Ipv6Addr.text] at same
    split at same
    · rename_i long
      obtain ⟨front, back, parts, start⟩ := zeros
      generalize longestZeros 0 ⟨0, 0⟩ ⟨0, 0⟩ segments = span at same long parts start
      have begins := start (by omega)
      have taken : segments.take span.start = front := by
        rw [parts, ← begins, List.append_assoc, List.take_left]
      have dropped : segments.drop (span.start + span.length) = back := by
        rw [parts, ← begins]
        exact List.drop_left' (by simp)
      rw [taken, dropped] at same
      cases front with
      | cons first rest => exact (segmentsText_cons_ne first rest _ same).elim
      | nil =>
        have last : back = [1] :=
          segmentsText_eq_one (List.cons.inj (List.cons.inj same).2).2
        have seven : span.length = 7 := by
          have total := congrArg List.length parts
          simp only [List.nil_append, List.length_append, List.length_replicate, last,
            List.length_singleton] at total
          omega
        simp only [last, seven] at parts
        subst parts
        rfl
    · cases segments with
      | nil => exact nomatch length_eq
      | cons first rest => 
        exact (segmentsText_cons_ne first rest [] (by rw [List.append_nil, same])).elim
  · rintro rfl
    decide +kernel

end IpAddress
