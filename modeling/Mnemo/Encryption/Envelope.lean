import Mathlib.Data.List.AList
import Mathlib.Data.Vector.Basic
import Mnemo.Lib.Base64

/-!
# Envelope encryption

A document is sealed under a key of its own, and that key under the master key of the operator.
The envelope names the master key, so that documents stay readable after it was rotated.
-/

namespace Mnemo
namespace Encryption

/-- A key of 256 bits. -/
abbrev Key := List.Vector UInt8 32

/-- A nonce of 96 bits. -/
abbrev Nonce := List.Vector UInt8 12

/-- The authenticated cipher. -/
structure Aead where
  encrypt : Key → Nonce → List UInt8 → Option (List UInt8)
  decrypt : Key → Nonce → List UInt8 → Option (List UInt8)

/-- An encrypted document. -/
structure EncryptedEnvelope where
  encrypted : Bool
  keyId : String
  algorithm : String
  dekCiphertext : String
  nonce : String
  ciphertext : String
deriving DecidableEq

/-- How envelopes and what is wrong with a text are written. -/
structure Formats where
  toJson : EncryptedEnvelope → String
  fromJson : String → Except String EncryptedEnvelope
  base64Error : String → String
  utf8Error : List UInt8 → String
  debugKeys : List String → String

/-- An error of the configuration, an internal one, or a panic. -/
inductive Stop where
  | config (message : String)
  | internal (message : String)
  | panic (message : String)
deriving DecidableEq

/-- What encryption and decryption rest on. -/
structure Crypto where
  aead : Aead
  formats : Formats

/-- The bytes of a text. -/
def asBytes (text : String) : List UInt8 := text.toByteArray.data.toList

/-- The text with given bytes. -/
def fromUtf8 (bytes : List UInt8) : Option String := String.fromUTF8? ⟨bytes.toArray⟩

/-- The bytes that a key or a nonce is made from; any other number of them panics. -/
def fromSlice (size : ℕ) (bytes : List UInt8) : Except Stop (List.Vector UInt8 size) :=
  if exact : bytes.length = size then .ok ⟨bytes, exact⟩
  else .error (.panic "assertion failed: slice length")

/-- A value, or an internal error where there is none. -/
def orInternal {α : Type} (message : String) : Option α → Except Stop α
  | some value => .ok value
  | none => .error (.internal message)

/-- The known keys, by id, and the id of the one that seals. -/
structure EnvelopeEncryptor where
  keys : AList fun _ : String => Key
  activeKeyId : String

/-- The random values of one encryption. -/
structure Randomness where
  dek : Key
  dataNonce : Nonce
  kekNonce : Nonce

namespace EnvelopeEncryptor

/-- An encryptor with a single key. -/
def new (kek : Key) (keyId : String) : EnvelopeEncryptor where
  keys := AList.insert keyId kek ∅
  activeKeyId := keyId

/-- Decode a base64 text into bytes. -/
def decodeBase64 (formats : Formats) (text : String) : Except String (List UInt8) :=
  match Base64.decode text.toList with
  | some bytes => .ok bytes
  | none => .error (formats.base64Error text)

/-- Decode a base64 text into a key. -/
def decodeKey (formats : Formats) (keyB64 : String) : Except Stop Key := do
  let bytes ← (decodeBase64 formats keyB64).mapError fun reason =>
    .config ("Invalid base64 master key: " ++ reason)
  if exact : bytes.length = 32 then pure ⟨bytes, exact⟩
  -- The bytes are cleared before they are counted.
  else throw (.config "Master key must be exactly 32 bytes (got 0)")

/-- An encryptor with the key that a text stands for. -/
def fromBase64 (formats : Formats) (keyB64 keyId : String) : Except Stop EnvelopeEncryptor := do
  let kek ← decodeKey formats keyB64
  pure (new kek keyId)

/-- Add a key that can be used for decryption. -/
def addRetiredKey (formats : Formats) (encryptor : EnvelopeEncryptor) (keyB64 keyId : String) :
    Except Stop EnvelopeEncryptor := do
  let kek ← decodeKey formats keyB64
  pure { encryptor with keys := encryptor.keys.insert keyId kek }

/-- All known ids. -/
def knownKeyIds (encryptor : EnvelopeEncryptor) : List String :=
  encryptor.keys.entries.map Sigma.fst

/-- The key with an id. -/
def getKey (formats : Formats) (encryptor : EnvelopeEncryptor) (keyId : String) :
    Except Stop Key :=
  match encryptor.keys.lookup keyId with
  | some kek => .ok kek
  | none =>
      .error (.internal ("Unknown encryption key_id '" ++ keyId ++ "'. Known keys: " ++
        formats.debugKeys encryptor.knownKeyIds))

end EnvelopeEncryptor

/-- The envelope of what was sealed. -/
def envelopeOf (keyId : String) (random : Randomness) (wrappedDek ciphertext : List UInt8) :
    EncryptedEnvelope where
  encrypted := true
  keyId := keyId
  algorithm := "AES-256-GCM"
  dekCiphertext := String.ofList (Base64.encode (random.kekNonce.toList ++ wrappedDek))
  nonce := String.ofList (Base64.encode random.dataNonce.toList)
  ciphertext := String.ofList (Base64.encode ciphertext)

/-- Encrypt a text under a master key. -/
def encryptUnder (crypto : Crypto) (keyId : String) (kek : Key) (random : Randomness)
    (plaintext : String) : Except Stop String := do
  let ciphertext ← orInternal "Encryption failed: aead::Error"
    (crypto.aead.encrypt random.dek random.dataNonce (asBytes plaintext))
  let wrappedDek ← orInternal "DEK wrapping failed: aead::Error"
    (crypto.aead.encrypt kek random.kekNonce random.dek.toList)
  pure (crypto.formats.toJson (envelopeOf keyId random wrappedDek ciphertext))

namespace EnvelopeEncryptor

/-- Encrypt a text with envelope encryption. -/
def encrypt (crypto : Crypto) (encryptor : EnvelopeEncryptor) (random : Randomness)
    (plaintext : String) : Except Stop String := do
  let kek ← encryptor.getKey crypto.formats encryptor.activeKeyId
  encryptUnder crypto encryptor.activeKeyId kek random plaintext

/-- Unwrap the key of a document: a nonce and the wrapped key behind it. -/
def unwrapDek (crypto : Crypto) (kek : Key) (dekBlob : List UInt8) : Except Stop (List UInt8) :=
  if dekBlob.length < 13 then
    .error (.internal "DEK blob too short (expected nonce + wrapped key)")
  else do
    let kekNonce ← fromSlice 12 (dekBlob.take 12)
    let dekBytes ← orInternal "DEK unwrap failed — wrong master key or corrupted data"
      (crypto.aead.decrypt kek kekNonce (dekBlob.drop 12))
    -- The bytes are cleared before they are counted.
    if dekBytes.length ≠ 32 then
      .error (.internal "Unwrapped DEK has wrong length (expected 32, got 0)")
    else pure dekBytes

/-- Decrypt a document with its own key. -/
def decryptData (crypto : Crypto) (dekBytes dataNonceBytes ciphertext : List UInt8) :
    Except Stop String := do
  let dek ← fromSlice 32 dekBytes
  let dataNonce ← fromSlice 12 dataNonceBytes
  let plaintext ← orInternal "Data decryption failed — corrupted ciphertext or wrong DEK"
    (crypto.aead.decrypt dek dataNonce ciphertext)
  orInternal ("Decrypted data is not valid UTF-8: " ++ crypto.formats.utf8Error plaintext)
    (fromUtf8 plaintext)

/-- Decrypt an envelope-encrypted document. -/
def decrypt (crypto : Crypto) (encryptor : EnvelopeEncryptor) (envelopeJson : String) :
    Except Stop String := do
  let envelope ← (crypto.formats.fromJson envelopeJson).mapError fun reason =>
    .internal ("Envelope parse failed: " ++ reason)
  if !envelope.encrypted then
    .error (.internal "Document is not encrypted (marker is false)")
  else
    let kek ← encryptor.getKey crypto.formats envelope.keyId
    let dekBlob ← (decodeBase64 crypto.formats envelope.dekCiphertext).mapError fun reason =>
      .internal ("Invalid DEK ciphertext base64: " ++ reason)
    let dataNonceBytes ← (decodeBase64 crypto.formats envelope.nonce).mapError fun reason =>
      .internal ("Invalid nonce base64: " ++ reason)
    let ciphertext ← (decodeBase64 crypto.formats envelope.ciphertext).mapError fun reason =>
      .internal ("Invalid ciphertext base64: " ++ reason)
    let dekBytes ← unwrapDek crypto kek dekBlob
    decryptData crypto dekBytes dataNonceBytes ciphertext

end EnvelopeEncryptor

/-! ## What is decoded and decrypted -/

/-- What was written can be read. -/
def Formats.Faithful (formats : Formats) : Prop :=
  ∀ envelope, formats.fromJson (formats.toJson envelope) = .ok envelope

@[simp]
theorem fromUtf8_asBytes (text : String) : fromUtf8 (asBytes text) = some text := by
  have bytes : (⟨text.toByteArray.data.toList.toArray⟩ : ByteArray) = text.toByteArray := rfl
  rw [fromUtf8, asBytes, bytes, String.fromUTF8?, dif_pos text.isValidUTF8]
  rfl

@[simp]
theorem fromSlice_toList {size : ℕ} (bytes : List.Vector UInt8 size) :
    fromSlice size bytes.toList = .ok bytes :=
  dif_pos bytes.2

theorem encryptUnder_eq_ok_iff {crypto : Crypto} {keyId : String} {kek : Key}
    {random : Randomness} {plaintext document : String} :
    encryptUnder crypto keyId kek random plaintext = .ok document ↔
      ∃ ciphertext wrappedDek,
        crypto.aead.encrypt random.dek random.dataNonce (asBytes plaintext) = some ciphertext ∧
        crypto.aead.encrypt kek random.kekNonce random.dek.toList = some wrappedDek ∧
        crypto.formats.toJson (envelopeOf keyId random wrappedDek ciphertext) = document := by
  rw [encryptUnder]
  cases crypto.aead.encrypt random.dek random.dataNonce (asBytes plaintext) with
  | none => exact iff_of_false nofun (by simp)
  | some ciphertext =>
    cases crypto.aead.encrypt kek random.kekNonce random.dek.toList with
    | none => exact iff_of_false nofun (by simp)
    | some wrappedDek =>
      constructor
      · intro result
        exact ⟨ciphertext, wrappedDek, rfl, rfl, Except.ok.inj result⟩
      · rintro ⟨_, _, same, wrapped, result⟩
        obtain rfl := Option.some.inj same
        obtain rfl := Option.some.inj wrapped
        exact congrArg Except.ok result

/-- The parts of a document whose key could be unwrapped. -/
structure Unwrapped (crypto : Crypto) (encryptor : EnvelopeEncryptor) (document : String)
    (envelope : EncryptedEnvelope) (kek : Key) (kekNonce : Nonce)
    (wrappedDek dekBytes dataNonceBytes ciphertext : List UInt8) : Prop where
  parsed : crypto.formats.fromJson document = .ok envelope
  marked : envelope.encrypted = true
  known : encryptor.keys.lookup envelope.keyId = some kek
  dekBlob : Base64.decode envelope.dekCiphertext.toList = some (kekNonce.toList ++ wrappedDek)
  nonce : Base64.decode envelope.nonce.toList = some dataNonceBytes
  data : Base64.decode envelope.ciphertext.toList = some ciphertext
  filled : wrappedDek ≠ []
  opened : crypto.aead.decrypt kek kekNonce wrappedDek = some dekBytes
  long : dekBytes.length = 32

namespace EnvelopeEncryptor

theorem decodeBase64_of_some {formats : Formats} {text : String} {bytes : List UInt8}
    (decoded : Base64.decode text.toList = some bytes) : decodeBase64 formats text = .ok bytes := by
  rw [decodeBase64, decoded]

theorem getKey_of_lookup {formats : Formats} {encryptor : EnvelopeEncryptor} {keyId : String}
    {kek : Key} (known : encryptor.keys.lookup keyId = some kek) :
    encryptor.getKey formats keyId = .ok kek := by
  rw [getKey, known]

theorem decrypt_of_unwrapped {crypto : Crypto} {encryptor : EnvelopeEncryptor} {document : String}
    {envelope : EncryptedEnvelope} {kek : Key} {kekNonce : Nonce}
    {wrappedDek dekBytes dataNonceBytes ciphertext : List UInt8}
    (parts : Unwrapped crypto encryptor document envelope kek kekNonce wrappedDek dekBytes
      dataNonceBytes ciphertext) :
    encryptor.decrypt crypto document = decryptData crypto dekBytes dataNonceBytes ciphertext := by
  have long : ¬(kekNonce.toList ++ wrappedDek).length < 13 := by
    have filled := List.length_pos_of_ne_nil parts.filled
    rw [List.length_append, List.Vector.toList_length]
    omega
  have front : (kekNonce.toList ++ wrappedDek).take 12 = kekNonce.toList :=
    List.take_left' kekNonce.toList_length
  have back : (kekNonce.toList ++ wrappedDek).drop 12 = wrappedDek :=
    List.drop_left' kekNonce.toList_length
  have unwrapped : unwrapDek crypto kek (kekNonce.toList ++ wrappedDek) = .ok dekBytes := by
    rw [unwrapDek, if_neg long, front, back, fromSlice_toList]
    simp only [bind, Except.bind, parts.opened, orInternal, parts.long]
    rfl
  simp only [decrypt, parts.parsed, Except.mapError, bind, Except.bind, parts.marked,
    getKey_of_lookup parts.known, decodeBase64_of_some parts.dekBlob,
    decodeBase64_of_some parts.nonce, decodeBase64_of_some parts.data, unwrapped]
  rfl

theorem decrypt_envelopeOf {crypto : Crypto} (faithful : crypto.formats.Faithful)
    {encryptor : EnvelopeEncryptor} {keyId : String} {kek : Key}
    (known : encryptor.keys.lookup keyId = some kek) {random : Randomness} {plaintext : String}
    {ciphertext wrappedDek : List UInt8} (filled : wrappedDek ≠ [])
    (wrapped : crypto.aead.decrypt kek random.kekNonce wrappedDek = some random.dek.toList)
    (data : crypto.aead.decrypt random.dek random.dataNonce ciphertext =
      some (asBytes plaintext)) :
    encryptor.decrypt crypto
      (crypto.formats.toJson (envelopeOf keyId random wrappedDek ciphertext)) =
        .ok plaintext := by
  have parts : Unwrapped crypto encryptor
      (crypto.formats.toJson (envelopeOf keyId random wrappedDek ciphertext))
      (envelopeOf keyId random wrappedDek ciphertext) kek random.kekNonce wrappedDek
      random.dek.toList random.dataNonce.toList ciphertext :=
    { parsed := faithful _
      marked := rfl
      known := known
      dekBlob := by rw [envelopeOf, String.toList_ofList, Base64.decode_encode]
      nonce := by rw [envelopeOf, String.toList_ofList, Base64.decode_encode]
      data := by rw [envelopeOf, String.toList_ofList, Base64.decode_encode]
      filled := filled
      opened := wrapped
      long := random.dek.toList_length }
  rw [decrypt_of_unwrapped parts]
  simp only [decryptData, fromSlice_toList, bind, Except.bind, data, orInternal,
    fromUtf8_asBytes]

theorem unwrapDek_cases (crypto : Crypto) (kek : Key) (dekBlob : List UInt8) :
    (∃ (kekNonce : Nonce) (wrappedDek dekBytes : List UInt8),
      dekBlob = kekNonce.toList ++ wrappedDek ∧ wrappedDek ≠ [] ∧
        crypto.aead.decrypt kek kekNonce wrappedDek = some dekBytes ∧ dekBytes.length = 32) ∨
      ∃ message, unwrapDek crypto kek dekBlob = .error (.internal message) := by
  by_cases short : dekBlob.length < 13
  · exact .inr ⟨_, if_pos short⟩
  · have front : (dekBlob.take 12).length = 12 := by
      rw [List.length_take]
      omega
    have back : dekBlob.drop 12 ≠ [] := by
      rw [Ne, List.drop_eq_nil_iff]
      omega
    rw [unwrapDek, if_neg short, fromSlice, dif_pos front]
    simp only [bind, Except.bind]
    cases opened : crypto.aead.decrypt kek ⟨dekBlob.take 12, front⟩ (dekBlob.drop 12) with
    | none => exact .inr ⟨_, rfl⟩
    | some dekBytes =>
      by_cases long : dekBytes.length = 32
      · exact .inl ⟨_, _, dekBytes, (List.take_append_drop 12 dekBlob).symm, back, opened, long⟩
      · exact .inr ⟨_, if_pos long⟩

theorem decrypt_cases (crypto : Crypto) (encryptor : EnvelopeEncryptor) (document : String) :
    (∃ envelope kek kekNonce wrappedDek dekBytes dataNonceBytes ciphertext,
      Unwrapped crypto encryptor document envelope kek kekNonce wrappedDek dekBytes dataNonceBytes
        ciphertext) ∨
      ∃ message, encryptor.decrypt crypto document = .error (.internal message) := by
  rw [decrypt]
  cases parsed : crypto.formats.fromJson document with
  | error reason => exact .inr ⟨_, rfl⟩
  | ok envelope =>
    simp only [Except.mapError, bind, Except.bind]
    cases marked : envelope.encrypted with
    | false => exact .inr ⟨_, rfl⟩
    | true =>
      simp only [Bool.not_true, Bool.false_eq_true, if_false, getKey, decodeBase64]
      cases known : encryptor.keys.lookup envelope.keyId with
      | none => exact .inr ⟨_, rfl⟩
      | some kek =>
        cases blob : Base64.decode envelope.dekCiphertext.toList with
        | none => exact .inr ⟨_, rfl⟩
        | some dekBlob =>
          cases nonce : Base64.decode envelope.nonce.toList with
          | none => exact .inr ⟨_, rfl⟩
          | some dataNonceBytes =>
            cases data : Base64.decode envelope.ciphertext.toList with
            | none => exact .inr ⟨_, rfl⟩
            | some ciphertext =>
              rcases unwrapDek_cases crypto kek dekBlob with
                ⟨kekNonce, wrappedDek, dekBytes, rfl, filled, opened, long⟩ |
                  ⟨message, refused⟩
              · exact .inl ⟨envelope, kek, kekNonce, wrappedDek, dekBytes,
                  dataNonceBytes, ciphertext, ⟨parsed, marked, known, blob, nonce, data,
                    filled, opened, long⟩⟩
              · exact .inr ⟨message, by simp only [refused]⟩

end EnvelopeEncryptor

end Encryption
end Mnemo
