import Mnemo.Encryption.Envelope
import Mnemo.Lib.QuotedFields
import Mnemo.Lib.StateMachine

/-!
# Rotation of the master key

Keys are added to an encryptor under their ids.  Documents stay readable, and new ones are sealed
under the key of the encryptor, as long as no id is given a second key.
-/

namespace Mnemo
namespace Encryption

open EnvelopeEncryptor

/-- The largest text that the cipher takes. -/
def plaintextLimit : ℕ := 2 ^ 36

/-- The cipher opens what it has sealed, takes every text that is not too long, and no key opens
everything that another key has sealed. -/
structure Aead.Correct (aead : Aead) : Prop where
  decrypt_encrypt : ∀ key nonce plaintext ciphertext,
    aead.encrypt key nonce plaintext = some ciphertext →
      aead.decrypt key nonce ciphertext = some plaintext
  filled : ∀ key nonce plaintext ciphertext,
    aead.encrypt key nonce plaintext = some ciphertext → ciphertext ≠ []
  accepts : ∀ key nonce plaintext, plaintext.length ≤ plaintextLimit →
    (aead.encrypt key nonce plaintext).isSome = true
  tellsApart : ∀ key other, key ≠ other → ∃ (nonce : Nonce) (dek : Key), ∀ ciphertext,
    aead.encrypt key nonce dek.toList = some ciphertext →
      aead.decrypt other nonce ciphertext = none

/-- A call of an encryptor. -/
inductive Call where
  | addRetiredKey (keyB64 keyId : String)
  | encrypt (random : Randomness) (plaintext : String)
  | decrypt (document : String)

/-- An encryptor, and the ids and keys that were put into it. -/
structure Ring where
  encryptor : EnvelopeEncryptor
  put : List (String × Key)

/-- The encryptor that was created with a key. -/
def Ring.start (kek : Key) (keyId : String) : Ring :=
  ⟨EnvelopeEncryptor.new kek keyId, [(keyId, kek)]⟩

/-- The encryptor after a call; the key of a successful addition is recorded. -/
def Ring.step (formats : Formats) (ring : Ring) : Call → Ring
  | .addRetiredKey keyB64 keyId =>
      match decodeKey formats keyB64, ring.encryptor.addRetiredKey formats keyB64 keyId with
      | .ok kek, .ok encryptor => ⟨encryptor, (keyId, kek) :: ring.put⟩
      | _, _ => ring
  | .encrypt _ _ => ring
  | .decrypt _ => ring

/-- Every document that was encrypted under a key in the ring can be decrypted. -/
def Readable (crypto : Crypto) (ring : Ring) : Prop :=
  ∀ keyId kek, (keyId, kek) ∈ ring.put → ∀ random plaintext document,
    encryptUnder crypto keyId kek random plaintext = .ok document →
      ring.encryptor.decrypt crypto document = .ok plaintext

/-- Documents are encrypted under a given key. -/
def Uses (crypto : Crypto) (kek : Key) (keyId : String) (ring : Ring) : Prop :=
  ∀ random plaintext,
    ring.encryptor.encrypt crypto random plaintext = encryptUnder crypto keyId kek random plaintext

/-- A successful addition gives no second key to an id. -/
def Compatible (formats : Formats) (ring : Ring) (call : Call) : Prop :=
  ∀ keyB64 keyId kek other, call = .addRetiredKey keyB64 keyId →
    decodeKey formats keyB64 = .ok kek → ring.encryptor.keys.lookup keyId = some other →
      kek = other

theorem decrypt_of_encryptUnder {crypto : Crypto} (correct : crypto.aead.Correct)
    (faithful : crypto.formats.Faithful) {encryptor : EnvelopeEncryptor} {keyId : String}
    {kek : Key} (known : encryptor.keys.lookup keyId = some kek) {random : Randomness}
    {plaintext document : String}
    (encrypted : encryptUnder crypto keyId kek random plaintext = .ok document) :
    encryptor.decrypt crypto document = .ok plaintext := by
  obtain ⟨ciphertext, wrappedDek, sealed, wrapped, rfl⟩ := encryptUnder_eq_ok_iff.mp encrypted
  exact decrypt_envelopeOf faithful known (correct.filled _ _ _ _ wrapped)
    (correct.decrypt_encrypt _ _ _ _ wrapped) (correct.decrypt_encrypt _ _ _ _ sealed)

theorem Unwrapped.same {crypto : Crypto} (faithful : crypto.formats.Faithful)
    {encryptor : EnvelopeEncryptor} {keyId : String} {random : Randomness}
    {sealedData sealedDek : List UInt8} {envelope : EncryptedEnvelope} {kek : Key}
    {kekNonce : Nonce} {wrappedDek dekBytes dataNonceBytes ciphertext : List UInt8}
    (parts : Unwrapped crypto encryptor
      (crypto.formats.toJson (envelopeOf keyId random sealedDek sealedData)) envelope kek kekNonce
        wrappedDek dekBytes dataNonceBytes ciphertext) :
    encryptor.keys.lookup keyId = some kek ∧
      crypto.aead.decrypt kek random.kekNonce sealedDek = some dekBytes := by
  obtain rfl := Except.ok.inj ((faithful _).symm.trans parts.parsed)
  have blob := parts.dekBlob
  rw [envelopeOf, String.toList_ofList, Base64.decode_encode] at blob
  obtain ⟨nonces, wrapped⟩ := List.append_inj (Option.some.inj blob)
    (random.kekNonce.toList_length.trans kekNonce.toList_length.symm)
  obtain rfl := List.Vector.toList_injective nonces
  exact ⟨parts.known, wrapped ▸ parts.opened⟩

theorem exists_document {crypto : Crypto} (correct : crypto.aead.Correct) (keyId : String)
    (kek : Key) (random : Randomness) :
    ∃ ciphertext wrappedDek,
      crypto.aead.encrypt kek random.kekNonce random.dek.toList = some wrappedDek ∧
        encryptUnder crypto keyId kek random "" =
          .ok (crypto.formats.toJson (envelopeOf keyId random wrappedDek ciphertext)) := by
  have short : random.dek.toList.length ≤ plaintextLimit := by
    rw [List.Vector.toList_length]
    decide
  obtain ⟨ciphertext, sealed⟩ := Option.isSome_iff_exists.mp
    (correct.accepts random.dek random.dataNonce (asBytes "") (by decide))
  obtain ⟨wrappedDek, wrapped⟩ := Option.isSome_iff_exists.mp
    (correct.accepts kek random.kekNonce random.dek.toList short)
  exact ⟨ciphertext, wrappedDek, wrapped,
    encryptUnder_eq_ok_iff.mpr ⟨ciphertext, wrappedDek, sealed, wrapped, rfl⟩⟩

theorem exists_unreadable {crypto : Crypto} (correct : crypto.aead.Correct)
    (faithful : crypto.formats.Faithful) {encryptor : EnvelopeEncryptor} {keyId : String}
    {kek : Key} (unknown : encryptor.keys.lookup keyId ≠ some kek) :
    ∃ random document, encryptUnder crypto keyId kek random "" = .ok document ∧
      encryptor.decrypt crypto document ≠ .ok "" := by
  have choice : ∃ random : Randomness, ∀ other, encryptor.keys.lookup keyId = some other →
      ∀ wrappedDek, crypto.aead.encrypt kek random.kekNonce random.dek.toList = some wrappedDek →
        crypto.aead.decrypt other random.kekNonce wrappedDek = none := by
    let zeros : Nonce := List.Vector.replicate 12 0
    cases known : encryptor.keys.lookup keyId with
    | none => exact ⟨⟨List.Vector.replicate 32 0, zeros, zeros⟩, nofun⟩
    | some other =>
      have different : kek ≠ other := fun same => unknown (known.trans (same ▸ rfl))
      obtain ⟨nonce, dek, closed⟩ := correct.tellsApart kek other different
      refine ⟨⟨dek, zeros, nonce⟩, fun same equal => ?_⟩
      obtain rfl := Option.some.inj equal
      exact closed
  obtain ⟨random, closed⟩ := choice
  obtain ⟨ciphertext, wrappedDek, wrapped, encrypted⟩ := exists_document correct keyId kek random
  refine ⟨random, _, encrypted, fun decrypted => ?_⟩
  rcases decrypt_cases crypto encryptor
      (crypto.formats.toJson (envelopeOf keyId random wrappedDek ciphertext)) with
    ⟨_, other, _, _, _, _, _, parts⟩ | ⟨message, refused⟩
  · obtain ⟨known, opened⟩ := parts.same faithful
    rw [closed other known wrappedDek wrapped] at opened
    exact nomatch opened
  · rw [refused] at decrypted
    exact nomatch decrypted

theorem readable_iff {crypto : Crypto} (correct : crypto.aead.Correct)
    (faithful : crypto.formats.Faithful) (ring : Ring) :
    Readable crypto ring ↔
      ∀ keyId kek, (keyId, kek) ∈ ring.put → ring.encryptor.keys.lookup keyId = some kek := by
  constructor
  · intro readable keyId kek put
    by_contra unknown
    obtain ⟨random, document, encrypted, refused⟩ := exists_unreadable correct faithful unknown
    exact refused (readable keyId kek put random "" document encrypted)
  · intro all keyId kek put random plaintext document
    exact decrypt_of_encryptUnder correct faithful (all keyId kek put)

theorem lookup_insert_self (keys : AList fun _ : String => Key) (keyId : String) (key : Key) :
    (keys.insert keyId key).lookup keyId = some key :=
  AList.lookup_insert keys

theorem lookup_insert_other (keys : AList fun _ : String => Key) {keyId other : String}
    (different : other ≠ keyId) (key : Key) :
    (keys.insert keyId key).lookup other = keys.lookup other :=
  AList.lookup_insert_ne different

/-- What every call keeps: the keys in the ring were put there, and the id of the key that seals. -/
structure Ring.WellFormed (kek : Key) (keyId : String) (ring : Ring) : Prop where
  put : ∀ id key, ring.encryptor.keys.lookup id = some key → (id, key) ∈ ring.put
  active : ring.encryptor.activeKeyId = keyId
  first : (keyId, kek) ∈ ring.put

theorem Ring.start_wellFormed (kek : Key) (keyId : String) :
    (Ring.start kek keyId).WellFormed kek keyId where
  put id key known := by
    by_cases same : id = keyId
    · subst same
      obtain rfl := Option.some.inj ((lookup_insert_self ∅ id kek).symm.trans known)
      exact List.mem_singleton_self _
    · exact nomatch (lookup_insert_other ∅ same kek).symm.trans known
  active := rfl
  first := List.mem_singleton_self _

theorem Ring.step_cases (formats : Formats) (ring : Ring) (call : Call) :
    (ring.step formats call = ring ∧ ∀ keyB64 keyId kek, call = .addRetiredKey keyB64 keyId →
      decodeKey formats keyB64 ≠ .ok kek) ∨
      ∃ keyB64 keyId kek, call = .addRetiredKey keyB64 keyId ∧
        decodeKey formats keyB64 = .ok kek ∧
          ring.step formats call =
            ⟨{ ring.encryptor with keys := ring.encryptor.keys.insert keyId kek },
              (keyId, kek) :: ring.put⟩ := by
  cases call with
  | addRetiredKey keyB64 keyId =>
    cases decoded : decodeKey formats keyB64 with
    | error stop =>
      refine .inl ⟨by simp only [Ring.step, decoded], ?_⟩
      rintro _ _ _ same
      obtain ⟨rfl, -⟩ := Call.addRetiredKey.inj same
      simp [decoded]
    | ok kek =>
      exact .inr ⟨keyB64, keyId, kek, rfl, decoded, by
        simp only [Ring.step, addRetiredKey, decoded, bind, Except.bind, pure, Except.pure]⟩
  | encrypt random plaintext => exact .inl ⟨rfl, nofun⟩
  | decrypt document => exact .inl ⟨rfl, nofun⟩

theorem Ring.WellFormed.step {formats : Formats} {kek : Key} {keyId : String} {ring : Ring}
    (wellFormed : ring.WellFormed kek keyId) (call : Call) :
    (ring.step formats call).WellFormed kek keyId := by
  rcases ring.step_cases formats call with ⟨same, -⟩ | ⟨_, id, key, -, -, same⟩
  · rw [same]
    exact wellFormed
  · rw [same]
    refine ⟨fun other found known => ?_, wellFormed.active, List.mem_cons_of_mem _ wellFormed.first⟩
    by_cases equal : other = id
    · subst equal
      obtain rfl := Option.some.inj ((lookup_insert_self _ other key).symm.trans known)
      exact List.mem_cons_self
    · exact List.mem_cons_of_mem _
        (wellFormed.put other found ((lookup_insert_other _ equal key).symm.trans known))

theorem uses_of_readable {crypto : Crypto} (correct : crypto.aead.Correct)
    (faithful : crypto.formats.Faithful) {kek : Key} {keyId : String} {ring : Ring}
    (wellFormed : ring.WellFormed kek keyId) (readable : Readable crypto ring) :
    Uses crypto kek keyId ring := by
  intro random plaintext
  have known := (readable_iff correct faithful ring).mp readable keyId kek wellFormed.first
  rw [encrypt, wellFormed.active, getKey_of_lookup known]
  rfl

theorem step_readable_iff {crypto : Crypto} (correct : crypto.aead.Correct)
    (faithful : crypto.formats.Faithful) {kek : Key} {keyId : String} {ring : Ring}
    (wellFormed : ring.WellFormed kek keyId) (readable : Readable crypto ring) (call : Call) :
    Readable crypto (ring.step crypto.formats call) ↔ Compatible crypto.formats ring call := by
  rw [readable_iff correct faithful] at readable
  rcases ring.step_cases crypto.formats call with ⟨same, fails⟩ | ⟨keyB64, id, key, rfl, good, same⟩
  · refine iff_of_true ?_ fun keyB64 id key _ isAdd good => (fails keyB64 id key isAdd good).elim
    rw [same, readable_iff correct faithful]
    exact readable
  · rw [same, readable_iff correct faithful]
    constructor
    · intro all _ _ found other isAdd decoded known
      obtain ⟨rfl, rfl⟩ := Call.addRetiredKey.inj isAdd
      obtain rfl := Except.ok.inj (good.symm.trans decoded)
      have kept := all id other (List.mem_cons_of_mem _ (wellFormed.put id other known))
      exact Option.some.inj ((lookup_insert_self _ id key).symm.trans kept)
    · intro compatible other found put
      rcases List.mem_cons.mp put with new | old
      · obtain ⟨rfl, rfl⟩ := Prod.mk.inj new
        exact lookup_insert_self _ other found
      · have known := readable other found old
        by_cases equal : other = id
        · subst equal
          rw [compatible keyB64 other key found rfl good known]
          exact lookup_insert_self _ other found
        · exact (lookup_insert_other _ equal key).trans known

/-- In every run of an encryptor all documents stay readable, and new ones are encrypted under its
own key, exactly if no addition gives a second key to an id. -/
theorem rotation_keeps_iff {crypto : Crypto} (correct : crypto.aead.Correct)
    (faithful : crypto.formats.Faithful) (kek : Key) (keyId : String) (calls : List Call) :
    StateMachine.Always (Ring.step crypto.formats)
        (fun ring => Readable crypto ring ∧ Uses crypto kek keyId ring)
        (Ring.start kek keyId) calls ↔
      StateMachine.Guarded (Ring.step crypto.formats) (Compatible crypto.formats)
        (Ring.start kek keyId) calls := by
  have initially := Ring.start_wellFormed kek keyId
  have readable : Readable crypto (Ring.start kek keyId) := by
    rw [readable_iff correct faithful]
    intro id key put
    obtain ⟨rfl, rfl⟩ := Prod.mk.inj (List.mem_singleton.mp put)
    exact lookup_insert_self ∅ id key
  refine StateMachine.always_iff_guarded (Ring.WellFormed kek keyId) ?_ ?_ initially
    ⟨readable, uses_of_readable correct faithful initially readable⟩ calls
  · exact fun ring call wellFormed _ => wellFormed.step call
  · intro ring call wellFormed keeps
    have decided := step_readable_iff correct faithful wellFormed keeps.1 call
    exact ⟨fun after => decided.mp after.1, fun compatible => ⟨decided.mpr compatible,
      uses_of_readable correct faithful (wellFormed.step call)
        (decided.mpr compatible)⟩⟩

/-! ## A cipher and its formats -/

/-- A cipher that shows what it seals, behind the key and the nonce. -/
def openAead : Aead where
  encrypt key nonce plaintext :=
    if plaintext.length ≤ plaintextLimit then some (key.toList ++ nonce.toList ++ plaintext)
    else none
  decrypt key nonce ciphertext :=
    if key.toList ++ nonce.toList = ciphertext.take 44 then some (ciphertext.drop 44) else none

theorem openAead_encrypt {key : Key} {nonce : Nonce} {plaintext ciphertext : List UInt8}
    (sealed : openAead.encrypt key nonce plaintext = some ciphertext) :
    ciphertext = key.toList ++ nonce.toList ++ plaintext := by
  simp only [openAead, Option.ite_none_right_eq_some, Option.some.injEq] at sealed
  exact sealed.2.symm

theorem openAead_decrypt (key other : Key) (nonce : Nonce) (plaintext : List UInt8) :
    openAead.decrypt other nonce (key.toList ++ nonce.toList ++ plaintext) =
      if other = key then some plaintext else none := by
  have size : (key.toList ++ nonce.toList).length = 44 := by
    rw [List.length_append, key.toList_length, nonce.toList_length]
  have same : other.toList ++ nonce.toList = key.toList ++ nonce.toList ↔ other = key := by
    rw [List.append_left_inj, List.Vector.toList_injective.eq_iff]
  simp only [openAead, List.take_left' size, List.drop_left' size, same]

theorem openAead_correct : openAead.Correct where
  decrypt_encrypt key nonce plaintext ciphertext sealed := by
    rw [openAead_encrypt sealed, openAead_decrypt, if_pos rfl]
  filled key nonce plaintext ciphertext sealed := by
    have long := congrArg List.length (openAead_encrypt sealed)
    rintro rfl
    simp only [List.length_append, key.toList_length, List.length_nil] at long
    omega
  accepts key nonce plaintext short := by
    simp [openAead, short]
  tellsApart key other different := by
    refine ⟨List.Vector.replicate 12 0, key, fun ciphertext sealed => ?_⟩
    rw [openAead_encrypt sealed, openAead_decrypt, if_neg different.symm]

/-- The names of the text fields of an envelope. -/
def fieldNames : List (List Char) :=
  ["_key_id".toList, "_algorithm".toList, "_dek_ciphertext".toList, "_nonce".toList,
    "_ciphertext".toList]

/-- The envelope with given text fields. -/
def envelopeOfFields (encrypted : Bool) : List (List Char) → Option EncryptedEnvelope
  | [keyId, algorithm, dekCiphertext, nonce, ciphertext] =>
      some ⟨encrypted, String.ofList keyId, String.ofList algorithm, String.ofList dekCiphertext,
        String.ofList nonce, String.ofList ciphertext⟩
  | _ => none

/-- Read an envelope whose fields stand in the order in which they are written. -/
def readEnvelope (text : List Char) : Option EncryptedEnvelope := do
  let text ← QuotedFields.expect "\x7b\"_encrypted\":".toList text
  match text with
  | 't' :: 'r' :: 'u' :: 'e' :: rest =>
      (QuotedFields.read fieldNames rest).bind fun (values, _) => envelopeOfFields true values
  | 'f' :: 'a' :: 'l' :: 's' :: 'e' :: rest =>
      (QuotedFields.read fieldNames rest).bind fun (values, _) => envelopeOfFields false values
  | _ => none

/-- The text fields of an envelope. -/
def textFields (envelope : EncryptedEnvelope) : List (List Char × List Char) :=
  fieldNames.zip [envelope.keyId.toList, envelope.algorithm.toList,
    envelope.dekCiphertext.toList, envelope.nonce.toList, envelope.ciphertext.toList]

/-- Write an envelope. -/
def writeEnvelope (envelope : EncryptedEnvelope) : List Char :=
  "\x7b\"_encrypted\":".toList ++ ((toString envelope.encrypted).toList ++
    (QuotedFields.write (textFields envelope) ++ ['}']))

/-- Envelopes as JSON objects. -/
def plainFormats : Formats where
  toJson envelope := String.ofList (writeEnvelope envelope)
  fromJson text := (readEnvelope text.toList).elim (.error "invalid envelope") .ok
  base64Error _ := "Invalid symbol"
  utf8Error _ := "invalid utf-8 sequence"
  debugKeys keyIds := toString keyIds

theorem readEnvelope_append {encrypted : Bool} {body rest : List Char} {values : List (List Char)}
    (fields : QuotedFields.read fieldNames body = some (values, rest)) :
    readEnvelope ("\x7b\"_encrypted\":".toList ++ ((toString encrypted).toList ++ body)) =
      envelopeOfFields encrypted values := by
  rw [readEnvelope, QuotedFields.expect_append, Option.bind_eq_bind, Option.bind_some]
  cases encrypted with
  | true =>
    change (QuotedFields.read fieldNames body).bind _ = _
    rw [fields]
    rfl
  | false =>
    change (QuotedFields.read fieldNames body).bind _ = _
    rw [fields]
    rfl

theorem envelopeOfFields_textFields (envelope : EncryptedEnvelope) :
    envelopeOfFields envelope.encrypted ((textFields envelope).map Prod.snd) = some envelope := by
  simp [textFields, fieldNames, envelopeOfFields]

theorem readEnvelope_writeEnvelope (envelope : EncryptedEnvelope) :
    readEnvelope (writeEnvelope envelope) = some envelope := by
  have names : (textFields envelope).map Prod.fst = fieldNames := rfl
  have fields := QuotedFields.read_write (textFields envelope) ['}']
  rw [names] at fields
  exact (readEnvelope_append fields).trans (envelopeOfFields_textFields envelope)

theorem plainFormats_faithful : plainFormats.Faithful := by
  intro envelope
  have opened : (plainFormats.toJson envelope).toList = writeEnvelope envelope :=
    String.toList_ofList
  have read : readEnvelope (plainFormats.toJson envelope).toList = some envelope := by
    rw [opened, readEnvelope_writeEnvelope]
  simp only [plainFormats] at read ⊢
  rw [read, Option.elim_some]

/-- The cipher with its formats. -/
def openCrypto : Crypto := ⟨openAead, plainFormats⟩

/-- The addition of a key of ones to an encryptor with a key of zeros. -/
def addOnes (keyId : String) : Call :=
  .addRetiredKey (String.ofList (Base64.encode (List.replicate 32 1))) keyId

/-- A key under the id of the encryptor's own replaces it. -/
theorem own_key_replaced :
    ¬StateMachine.Always (Ring.step openCrypto.formats)
      (fun ring => Readable openCrypto ring ∧
        Uses openCrypto (List.Vector.replicate 32 0) "kek-001" ring)
      (Ring.start (List.Vector.replicate 32 0) "kek-001") [addOnes "kek-001"] := by
  intro always
  have readable := (readable_iff openAead_correct plainFormats_faithful _).mp always.finish.1
  have known := readable "kek-001" (List.Vector.replicate 32 0) (by decide +kernel)
  exact absurd known (by decide +kernel)

/-- A key under a new id keeps everything readable. -/
theorem rotation_keeps_new :
    StateMachine.Guarded (Ring.step openCrypto.formats) (Compatible openCrypto.formats)
        (Ring.start (List.Vector.replicate 32 0) "kek-002") [addOnes "kek-001"] ∧
      StateMachine.Always (Ring.step openCrypto.formats)
        (fun ring => Readable openCrypto ring ∧
          Uses openCrypto (List.Vector.replicate 32 0) "kek-002" ring)
        (Ring.start (List.Vector.replicate 32 0) "kek-002") [addOnes "kek-001"] := by
  have guarded : StateMachine.Guarded (Ring.step openCrypto.formats)
      (Compatible openCrypto.formats) (Ring.start (List.Vector.replicate 32 0) "kek-002")
      [addOnes "kek-001"] := by
    refine ⟨?_, trivial⟩
    rintro _ _ kek other same - known
    obtain ⟨-, rfl⟩ := Call.addRetiredKey.inj same
    have missing : (Ring.start (List.Vector.replicate 32 0) "kek-002").encryptor.keys.lookup
        "kek-001" = none := by
      decide +kernel
    exact nomatch missing.symm.trans known
  exact ⟨guarded, (rotation_keeps_iff openAead_correct plainFormats_faithful _ _ _).mpr guarded⟩

end Encryption
end Mnemo
