import Mathlib.Data.List.DropRight
import Mathlib.Data.List.Forall2
import Mnemo.Lib.PercentEncoding

/-!
# Web addresses

Addresses with the schemes `http` and `https` are read by the rules of the URL standard: blank ends
and line breaks are dropped, a number sign begins the fragment and a question mark the query,
slashes in either direction separate the segments of the path, and the segments of one or two dots
are resolved, also where the dots are escapes.  Hosts are kept as they are written.
-/

open PercentEncoding

/-- An address as it is understood. -/
structure Url where
  scheme : List Char
  authority : List Char
  /-- The segments of the path, with escapes. -/
  path : List (List Char)
  /-- What follows the question mark, with escapes. -/
  query : Option (List Char)
  fragment : Option (List Char)
deriving DecidableEq

namespace Url

/-! ## Characters -/

/-- A control character or space, which is dropped at both ends of an address. -/
def isBlank (character : Char) : Bool := character.toNat ≤ 0x20

/-- A tab or line break, which is dropped everywhere. -/
def isBreak (character : Char) : Bool :=
  character == '\t' || character == '\n' || character == '\r'

/-- A slash in either direction. -/
def isSlash (character : Char) : Bool := character == '/' || character == '\\'

/-- The characters that are encoded everywhere. -/
def isControl (character : Char) : Bool := character.toNat ≤ 0x1F || 0x7E < character.toNat

/-- The characters that are encoded in a path. -/
def pathSpecial (character : Char) : Bool :=
  isControl character ||
    [0x20, 0x22, 0x23, 0x3C, 0x3E, 0x3F, 0x5E, 0x60, 0x7B, 0x7D].contains character.toNat

/-- The characters that are encoded in a query. -/
def querySpecial (character : Char) : Bool :=
  isControl character || [0x20, 0x22, 0x23, 0x27, 0x3C, 0x3E].contains character.toNat

/-- The characters that are encoded in a fragment. -/
def fragmentSpecial (character : Char) : Bool :=
  isControl character || [0x20, 0x22, 0x3C, 0x3E, 0x60].contains character.toNat

/-! ## Paths -/

/-- A segment that stands for the place itself. -/
def isDot (segment : List Char) : Bool :=
  ["." , "%2e", "%2E"].any fun form => form.toList == segment

/-- A segment that stands for the place above. -/
def isDoubleDot (segment : List Char) : Bool :=
  ["..", ".%2e", ".%2E", "%2e.", "%2E.", "%2e%2e", "%2e%2E", "%2E%2e", "%2E%2E"].any fun form =>
    form.toList == segment

/-- Enter the segments one after another. -/
def resolve (entered : List (List Char)) : List (List Char) → List (List Char)
  | [] => entered
  | [last] =>
      if isDoubleDot last then entered.dropLast ++ [[]]
      else if isDot last then entered ++ [[]]
      else entered ++ [last]
  | segment :: rest =>
      if isDoubleDot segment then resolve entered.dropLast rest
      else if isDot segment then resolve entered rest
      else resolve (entered ++ [segment]) rest

/-- Read a path, which begins with a slash. -/
def readPath (text : List Char) : List (List Char) :=
  resolve [] (((text.drop 1).splitOnP isSlash).map (encode pathSpecial))

/-! ## Addresses -/

/-- What stands before the first sign, and what follows it. -/
def splitAtSign (sign : Char) (text : List Char) : List Char × Option (List Char) :=
  (text.takeWhile (· != sign),
    match text.dropWhile (· != sign) with
    | [] => none
    | _ :: rest => some rest)

/-- The end of an address without blank characters and line breaks. -/
def tidyEnd (text : List Char) : List Char := (text.rdropWhile isBlank).filter (!isBreak ·)

/-- An address without blank ends and line breaks. -/
def tidy (text : List Char) : List Char := tidyEnd (text.dropWhile isBlank)

/-- Whether the authority of an address ends at a character. -/
def endsAuthority (character : Char) : Bool :=
  isSlash character || character == '?' || character == '#'

/-- Read what follows the authority of an address. -/
def readRest (scheme authority rest : List Char) : Url :=
  let (front, fragment) := splitAtSign '#' rest
  let (path, query) := splitAtSign '?' front
  { scheme, authority
    path := readPath path
    query := query.map (encode querySpecial)
    fragment := fragment.map (encode fragmentSpecial) }

/-- Read an address. -/
def parse (text : List Char) : Option Url :=
  match splitAtSign ':' (tidy text) with
  | (_, none) => none
  | (scheme, some rest) =>
      if scheme.map Char.toLower = "http".toList ∨ scheme.map Char.toLower = "https".toList then
        let rest := rest.dropWhile isSlash
        let authority := rest.takeWhile (!endsAuthority ·)
        if authority.isEmpty then none
        else some (readRest (scheme.map Char.toLower) authority (rest.dropWhile (!endsAuthority ·)))
      else none

/-- Read a parameter: a name, an equals sign and a value. -/
def readParameter (text : List Char) : List UInt8 × List UInt8 :=
  (decodeForm (text.takeWhile (· != '=')), decodeForm ((text.dropWhile (· != '=')).drop 1))

/-- Read the parameters of a query. -/
def readParameters (query : List Char) : List (List UInt8 × List UInt8) :=
  ((query.splitOnP (· == '&')).filter (!·.isEmpty)).map readParameter

/-- The parameters of an address. -/
def parameters (url : Url) : List (List UInt8 × List UInt8) :=
  match url.query with
  | none => []
  | some query => readParameters query

/-- The segments of the path, with the escapes read. -/
def segments (url : Url) : List (List UInt8) := url.path.map decode

/-- Codes that no hexadecimal digit has. -/
def NoDigit (code : Nat) : Prop :=
  code < 0x30 ∨ (0x39 < code ∧ code < 0x41) ∨ (0x46 < code ∧ code < 0x61) ∨ 0x66 < code

theorem hexValue_eq_none {character : Char} (noDigit : NoDigit character.toNat) :
    hexValue character = none := by
  rw [← Option.not_isSome_iff_eq_none]
  intro digit
  have codes := toNat_of_hexValue digit
  unfold NoDigit at noDigit
  omega

theorem harmless_pathSpecial : Harmless pathSpecial where
  percent := by decide
  digit character special := by
    apply hexValue_eq_none
    simp [pathSpecial, isControl] at special
    unfold NoDigit
    omega

theorem harmless_querySpecial : Harmless querySpecial where
  percent := by decide
  digit character special := by
    apply hexValue_eq_none
    simp [querySpecial, isControl] at special
    unfold NoDigit
    omega

end Url
