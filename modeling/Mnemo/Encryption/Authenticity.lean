import Mnemo.Encryption.Rotation

/-!
# Decryption of any document

Under an ideal cipher only what was encrypted can be decrypted.  The length of the data nonce is the
one field that is not checked, so a document with another one stops the process.
-/

namespace Mnemo
namespace Encryption

open EnvelopeEncryptor

/-- One encryption of a text under a master key. -/
structure EncryptCall where
  kek : Key
  random : Randomness
  plaintext : String

/-- What an encryption seals: the text, and the key of the document. -/
def EncryptCall.sealed (encryption : EncryptCall) : List (Key × Nonce × List UInt8) :=
  [(encryption.random.dek, encryption.random.dataNonce, asBytes encryption.plaintext),
    (encryption.kek, encryption.random.kekNonce, encryption.random.dek.toList)]

/-- The cipher opens exactly what the encryptions so far have sealed. -/
structure Aead.Ideal (aead : Aead) (log : List EncryptCall) : Prop where
  decrypt_iff : ∀ key nonce ciphertext plaintext,
    aead.decrypt key nonce ciphertext = some plaintext ↔
      (∃ encryption ∈ log, (key, nonce, plaintext) ∈ encryption.sealed) ∧
        aead.encrypt key nonce plaintext = some ciphertext
  filled : ∀ key nonce plaintext ciphertext,
    aead.encrypt key nonce plaintext = some ciphertext → ciphertext ≠ []

/-- The random keys of the documents are new. -/
structure Fresh (encryptor : EnvelopeEncryptor) (log : List EncryptCall) : Prop where
  distinct : (log.map fun encryption => encryption.random.dek).Nodup
  noMaster : ∀ encryption ∈ log, ∀ other ∈ log, encryption.random.dek ≠ other.kek
  unknown : ∀ encryption ∈ log, ∀ keyId,
    encryptor.keys.lookup keyId ≠ some encryption.random.dek

/-- The ciphertexts of an envelope are those that an encryption has produced. -/
def Produced (crypto : Crypto) (encryption : EncryptCall) (envelope : EncryptedEnvelope) : Prop :=
  ∃ ciphertext wrappedDek,
    crypto.aead.encrypt encryption.random.dek encryption.random.dataNonce
      (asBytes encryption.plaintext) = some ciphertext ∧
    crypto.aead.encrypt encryption.kek encryption.random.kekNonce
      encryption.random.dek.toList = some wrappedDek ∧
    Base64.decode envelope.dekCiphertext.toList =
      some (encryption.random.kekNonce.toList ++ wrappedDek) ∧
    Base64.decode envelope.nonce.toList = some encryption.random.dataNonce.toList ∧
    Base64.decode envelope.ciphertext.toList = some ciphertext

/-- What decryption promises of a text, after some encryptions. -/
structure Sound (crypto : Crypto) (log : List EncryptCall) (encryptor : EnvelopeEncryptor)
    (document : String) : Prop where
  total : ∀ message, encryptor.decrypt crypto document ≠ .error (.panic message)
  authentic : ∀ plaintext, encryptor.decrypt crypto document = .ok plaintext →
    ∃ envelope, crypto.formats.fromJson document = .ok envelope ∧
      ∃ encryption ∈ log, encryptor.keys.lookup envelope.keyId = some encryption.kek ∧
        encryption.plaintext = plaintext ∧ Produced crypto encryption envelope
  roundTrip : ∀ encryption ∈ log,
    encryptor.keys.lookup encryptor.activeKeyId = some encryption.kek →
      encryptor.encrypt crypto encryption.random encryption.plaintext = .ok document →
        encryptor.decrypt crypto document = .ok encryption.plaintext

/-- A document with a genuine key of its own and a data nonce of a wrong length. -/
def BadNonce (crypto : Crypto) (log : List EncryptCall) (encryptor : EnvelopeEncryptor)
    (document : String) : Prop :=
  ∃ envelope, crypto.formats.fromJson document = .ok envelope ∧ envelope.encrypted = true ∧
    ∃ encryption ∈ log, encryptor.keys.lookup envelope.keyId = some encryption.kek ∧
      (∃ wrappedDek, crypto.aead.encrypt encryption.kek encryption.random.kekNonce
          encryption.random.dek.toList = some wrappedDek ∧
        Base64.decode envelope.dekCiphertext.toList =
          some (encryption.random.kekNonce.toList ++ wrappedDek)) ∧
      (∃ nonce, Base64.decode envelope.nonce.toList = some nonce ∧ nonce.length ≠ 12) ∧
      ∃ ciphertext, Base64.decode envelope.ciphertext.toList = some ciphertext

section Parts

variable {crypto : Crypto} {log : List EncryptCall} {encryptor : EnvelopeEncryptor}
  {document : String} {envelope : EncryptedEnvelope} {kek : Key} {kekNonce : Nonce}
  {wrappedDek dekBytes dataNonceBytes ciphertext : List UInt8}

theorem Unwrapped.exists_encryption (ideal : crypto.aead.Ideal log) (fresh : Fresh encryptor log)
    (parts : Unwrapped crypto encryptor document envelope kek kekNonce wrappedDek dekBytes
      dataNonceBytes ciphertext) :
    ∃ encryption ∈ log, encryption.kek = kek ∧ encryption.random.kekNonce = kekNonce ∧
      encryption.random.dek.toList = dekBytes ∧
        crypto.aead.encrypt kek kekNonce dekBytes = some wrappedDek := by
  obtain ⟨⟨encryption, logged, among⟩, wrapped⟩ := (ideal.decrypt_iff _ _ _ _).mp parts.opened
  rcases List.mem_cons.mp among with data | wrap
  · obtain ⟨same, -⟩ := Prod.mk.inj data
    exact (fresh.unknown encryption logged envelope.keyId (same ▸ parts.known)).elim
  · obtain ⟨same, rest⟩ := Prod.mk.inj (List.mem_singleton.mp wrap)
    obtain ⟨nonces, texts⟩ := Prod.mk.inj rest
    exact ⟨encryption, logged, same.symm, nonces.symm, texts.symm, wrapped⟩

theorem decryptData_cases (crypto : Crypto) {dekBytes : List UInt8}
    (long : dekBytes.length = 32) (dataNonceBytes ciphertext : List UInt8) :
    (dataNonceBytes.length ≠ 12 ∧
      ∃ message, decryptData crypto dekBytes dataNonceBytes ciphertext =
        .error (.panic message)) ∨
    (∃ (dek : Key) (dataNonce : Nonce) (plaintext : List UInt8) (text : String),
      dek.toList = dekBytes ∧ dataNonce.toList = dataNonceBytes ∧
        crypto.aead.decrypt dek dataNonce ciphertext = some plaintext ∧
          fromUtf8 plaintext = some text ∧
            decryptData crypto dekBytes dataNonceBytes ciphertext = .ok text) ∨
    (dataNonceBytes.length = 12 ∧
      ∃ message, decryptData crypto dekBytes dataNonceBytes ciphertext =
        .error (.internal message)) := by
  rw [decryptData, fromSlice, dif_pos long]
  by_cases exact : dataNonceBytes.length = 12
  · rw [fromSlice, dif_pos exact]
    simp only [bind, Except.bind]
    cases opened : crypto.aead.decrypt ⟨dekBytes, long⟩ ⟨dataNonceBytes, exact⟩ ciphertext with
    | none => exact .inr (.inr ⟨exact, _, rfl⟩)
    | some plaintext =>
      cases read : fromUtf8 plaintext with
      | none =>
        simp only [orInternal, read]
        exact .inr (.inr ⟨exact, _, rfl⟩)
      | some text =>
        simp only [orInternal, read]
        exact .inr (.inl ⟨_, _, plaintext, text, rfl, rfl, opened, read, rfl⟩)
  · rw [fromSlice, dif_neg exact]
    exact .inl ⟨exact, _, rfl⟩

theorem plaintext_of_data (ideal : crypto.aead.Ideal log) (fresh : Fresh encryptor log)
    {encryption : EncryptCall} (logged : encryption ∈ log) {dataNonce : Nonce}
    {plaintext : List UInt8}
    (opened : crypto.aead.decrypt encryption.random.dek dataNonce ciphertext = some plaintext) :
    dataNonce = encryption.random.dataNonce ∧ plaintext = asBytes encryption.plaintext ∧
      crypto.aead.encrypt encryption.random.dek dataNonce plaintext = some ciphertext := by
  obtain ⟨⟨other, known, among⟩, sealed⟩ := (ideal.decrypt_iff _ _ _ _).mp opened
  rcases List.mem_cons.mp among with data | wrap
  · obtain ⟨keys, rest⟩ := Prod.mk.inj data
    have same := List.inj_on_of_nodup_map fresh.distinct logged known keys
    obtain ⟨nonces, texts⟩ := Prod.mk.inj rest
    exact ⟨same ▸ nonces, same ▸ texts, sealed⟩
  · obtain ⟨keys, -⟩ := Prod.mk.inj (List.mem_singleton.mp wrap)
    exact (fresh.noMaster encryption logged other known keys).elim

theorem authentic_of_unwrapped (ideal : crypto.aead.Ideal log) (fresh : Fresh encryptor log)
    (parts : Unwrapped crypto encryptor document envelope kek kekNonce wrappedDek dekBytes
      dataNonceBytes ciphertext) {plaintext : String}
    (decrypted : encryptor.decrypt crypto document = .ok plaintext) :
    ∃ encryption ∈ log, encryption.kek = kek ∧ encryption.plaintext = plaintext ∧
      Produced crypto encryption envelope := by
  obtain ⟨encryption, logged, rfl, rfl, rfl, wrapped⟩ := parts.exists_encryption ideal fresh
  rw [decrypt_of_unwrapped parts] at decrypted
  rcases decryptData_cases crypto parts.long dataNonceBytes ciphertext with
    ⟨-, message, panics⟩ | ⟨dek, dataNonce, bytes, text, keys, rfl, opened, read, done⟩ |
      ⟨-, message, refused⟩
  · exact nomatch panics.symm.trans decrypted
  · obtain rfl := List.Vector.toList_injective keys
    obtain ⟨rfl, rfl, sealed⟩ := plaintext_of_data ideal fresh logged opened
    have same : text = encryption.plaintext :=
      Option.some.inj (read.symm.trans (fromUtf8_asBytes _))
    have result : plaintext = text := Except.ok.inj (decrypted.symm.trans done)
    exact ⟨encryption, logged, rfl, (result.trans same).symm, ciphertext, wrappedDek, sealed,
      wrapped, parts.dekBlob, parts.nonce, parts.data⟩
  · exact nomatch refused.symm.trans decrypted

theorem panics_of_badNonce (ideal : crypto.aead.Ideal log)
    (bad : BadNonce crypto log encryptor document) :
    ∃ message, encryptor.decrypt crypto document = .error (.panic message) := by
  obtain ⟨envelope, parsed, marked, encryption, logged, known, ⟨wrappedDek, wrapped, blob⟩,
    ⟨nonce, decoded, wrong⟩, ciphertext, data⟩ := bad
  have opened : crypto.aead.decrypt encryption.kek encryption.random.kekNonce wrappedDek =
      some encryption.random.dek.toList :=
    (ideal.decrypt_iff _ _ _ _).mpr
      ⟨⟨encryption, logged, List.mem_cons_of_mem _ List.mem_cons_self⟩, wrapped⟩
  have parts : Unwrapped crypto encryptor document envelope encryption.kek
      encryption.random.kekNonce wrappedDek encryption.random.dek.toList nonce ciphertext :=
    ⟨parsed, marked, known, blob, decoded, data, ideal.filled _ _ _ _ wrapped, opened,
      encryption.random.dek.toList_length⟩
  rw [decrypt_of_unwrapped parts]
  rcases decryptData_cases crypto parts.long nonce ciphertext with
    ⟨-, panics⟩ | ⟨_, dataNonce, _, _, _, same, _⟩ | ⟨exact, _⟩
  · exact panics
  · exact (wrong (same ▸ dataNonce.toList_length)).elim
  · exact (wrong exact).elim

theorem badNonce_of_panics (ideal : crypto.aead.Ideal log) (fresh : Fresh encryptor log)
    {message : String} (panics : encryptor.decrypt crypto document = .error (.panic message)) :
    BadNonce crypto log encryptor document := by
  rcases decrypt_cases crypto encryptor document with
    ⟨envelope, kek, kekNonce, wrappedDek, dekBytes, nonce, ciphertext, parts⟩ | ⟨text, refused⟩
  · obtain ⟨encryption, logged, rfl, rfl, rfl, wrapped⟩ := parts.exists_encryption ideal fresh
    rw [decrypt_of_unwrapped parts] at panics
    rcases decryptData_cases crypto parts.long nonce ciphertext with
      ⟨wrong, -⟩ | ⟨_, _, _, _, _, _, _, _, done⟩ | ⟨-, text, refused⟩
    · exact ⟨envelope, parts.parsed, parts.marked, encryption, logged, parts.known,
        ⟨wrappedDek, wrapped, parts.dekBlob⟩, ⟨nonce, parts.nonce, wrong⟩, ciphertext, parts.data⟩
    · exact nomatch done.symm.trans panics
    · exact nomatch refused.symm.trans panics
  · exact nomatch refused.symm.trans panics

theorem decrypt_encrypt (ideal : crypto.aead.Ideal log) (faithful : crypto.formats.Faithful)
    {encryption : EncryptCall} (logged : encryption ∈ log)
    (known : encryptor.keys.lookup encryptor.activeKeyId = some encryption.kek)
    (encrypted : encryptor.encrypt crypto encryption.random encryption.plaintext = .ok document) :
    encryptor.decrypt crypto document = .ok encryption.plaintext := by
  rw [encrypt, getKey_of_lookup known] at encrypted
  obtain ⟨ciphertext, wrappedDek, sealed, wrapped, rfl⟩ := encryptUnder_eq_ok_iff.mp encrypted
  have logs : ∀ key nonce bytes sealed, (key, nonce, bytes) ∈ encryption.sealed →
      crypto.aead.encrypt key nonce bytes = some sealed →
        crypto.aead.decrypt key nonce sealed = some bytes :=
    fun _ _ _ _ among made => (ideal.decrypt_iff _ _ _ _).mpr ⟨⟨encryption, logged, among⟩, made⟩
  exact decrypt_envelopeOf faithful known (ideal.filled _ _ _ _ wrapped)
    (logs _ _ _ _ (List.mem_cons_of_mem _ List.mem_cons_self) wrapped)
    (logs _ _ _ _ List.mem_cons_self sealed)

/-- Decryption keeps its promise exactly for the texts that are not genuine up to their nonce. -/
theorem decrypt_sound_iff (ideal : crypto.aead.Ideal log) (fresh : Fresh encryptor log)
    (faithful : crypto.formats.Faithful) (document : String) :
    Sound crypto log encryptor document ↔ ¬BadNonce crypto log encryptor document := by
  constructor
  · intro sound bad
    obtain ⟨message, panics⟩ := panics_of_badNonce ideal bad
    exact sound.total message panics
  · intro fine
    refine ⟨fun message panics => fine (badNonce_of_panics ideal fresh panics), ?_, ?_⟩
    · intro plaintext decrypted
      rcases decrypt_cases crypto encryptor document with
        ⟨envelope, kek, kekNonce, wrappedDek, dekBytes, nonce, ciphertext, parts⟩ | ⟨_, refused⟩
      · obtain ⟨encryption, logged, rfl, same, produced⟩ :=
          authentic_of_unwrapped ideal fresh parts decrypted
        exact ⟨envelope, parts.parsed, encryption, logged, parts.known, same, produced⟩
      · exact nomatch refused.symm.trans decrypted
    · exact fun encryption logged known encrypted =>
        decrypt_encrypt ideal faithful logged known encrypted

end Parts

/-! ## A cipher that remembers -/

/-- Whether a ciphertext was made of something sealed under a key and a nonce. -/
def madeOf (key : Key) (nonce : Nonce) (ciphertext : List UInt8)
    (entry : Key × Nonce × List UInt8) : Bool :=
  entry.1 == key && entry.2.1 == nonce &&
    openAead.encrypt key nonce entry.2.2 == some ciphertext

/-- A cipher that opens only what some encryptions have sealed. -/
def recordingAead (log : List EncryptCall) : Aead where
  encrypt := openAead.encrypt
  decrypt key nonce ciphertext :=
    ((log.flatMap EncryptCall.sealed).find? (madeOf key nonce ciphertext)).map fun entry =>
      entry.2.2

theorem madeOf_iff {key other : Key} {nonce number : Nonce} {plaintext ciphertext : List UInt8} :
    madeOf key nonce ciphertext (other, number, plaintext) = true ↔
      other = key ∧ number = nonce ∧ openAead.encrypt key nonce plaintext = some ciphertext := by
  simp only [madeOf, Bool.and_eq_true, beq_iff_eq, and_assoc]

theorem recordingAead_ideal (log : List EncryptCall) : (recordingAead log).Ideal log where
  filled := openAead_correct.filled
  decrypt_iff key nonce ciphertext plaintext := by
    constructor
    · intro opened
      obtain ⟨⟨other, number, bytes⟩, found, rfl⟩ := Option.map_eq_some_iff.mp opened
      have among := List.mem_of_find?_eq_some found
      obtain ⟨rfl, rfl, sealed⟩ := madeOf_iff.mp (List.find?_some found)
      obtain ⟨encryption, logged, inside⟩ := List.mem_flatMap.mp among
      exact ⟨⟨encryption, logged, inside⟩, sealed⟩
    · rintro ⟨⟨encryption, logged, inside⟩, sealed⟩
      have among := List.mem_flatMap.mpr ⟨encryption, logged, inside⟩
      have exists_entry := List.find?_isSome.mpr
        ⟨(key, nonce, plaintext), among, madeOf_iff.mpr ⟨rfl, rfl, sealed⟩⟩
      obtain ⟨⟨other, number, bytes⟩, found⟩ := Option.isSome_iff_exists.mp exists_entry
      obtain ⟨-, -, again⟩ := madeOf_iff.mp (List.find?_some found)
      have texts := (openAead_encrypt again).symm.trans (openAead_encrypt sealed)
      have same : bytes = plaintext := List.append_cancel_left texts
      exact Option.map_eq_some_iff.mpr ⟨_, found, same⟩

/-- A crypto with a log. -/
def recordingCrypto (log : List EncryptCall) : Crypto := ⟨recordingAead log, plainFormats⟩

/-- The encryption of one text under a key of zeros. -/
def sampleCall : EncryptCall where
  kek := List.Vector.replicate 32 0
  random := ⟨List.Vector.replicate 32 2, List.Vector.replicate 12 3, List.Vector.replicate 12 4⟩
  plaintext := "x"

/-- An encryptor with the key of the sample. -/
def sampleEncryptor : EnvelopeEncryptor := EnvelopeEncryptor.new sampleCall.kek "kek-001"

/-- The envelope of the sample, with a given data nonce. -/
def sampleEnvelope (nonce : List UInt8) : EncryptedEnvelope :=
  let sealed (key : Key) (number : Nonce) (bytes : List UInt8) :=
    (openAead.encrypt key number bytes).getD []
  { envelopeOf "kek-001" sampleCall.random
      (sealed sampleCall.kek sampleCall.random.kekNonce sampleCall.random.dek.toList)
      (sealed sampleCall.random.dek sampleCall.random.dataNonce (asBytes "x")) with
    nonce := String.ofList (Base64.encode nonce) }

/-- A data nonce of eight bytes panics. -/
theorem short_nonce_panics :
    ¬Sound (recordingCrypto [sampleCall]) [sampleCall] sampleEncryptor
      (plainFormats.toJson (sampleEnvelope (List.replicate 8 3))) := by
  have read (bytes : List UInt8) :
      Base64.decode (String.ofList (Base64.encode bytes)).toList = some bytes := by
    rw [String.toList_ofList, Base64.decode_encode]
  have bad : BadNonce (recordingCrypto [sampleCall]) [sampleCall] sampleEncryptor
      (plainFormats.toJson (sampleEnvelope (List.replicate 8 3))) :=
    ⟨_, plainFormats_faithful _, rfl, sampleCall, List.mem_singleton_self _,
      lookup_insert_self ∅ _ _, ⟨_, rfl, read _⟩, ⟨_, read _, by decide⟩, _, read _⟩
  intro sound
  obtain ⟨message, panics⟩ := panics_of_badNonce (recordingAead_ideal _) bad
  exact sound.total message panics

theorem sample_fresh : Fresh sampleEncryptor [sampleCall] where
  distinct := List.nodup_singleton _
  noMaster := by decide +kernel
  unknown encryption logged keyId known := by
    obtain rfl := List.mem_singleton.mp logged
    by_cases same : keyId = "kek-001"
    · subst same
      exact absurd known (by decide +kernel)
    · exact nomatch (lookup_insert_other ∅ same sampleCall.kek).symm.trans known

/-- The genuine sample is decrypted. -/
theorem sample_sound :
    ¬BadNonce (recordingCrypto [sampleCall]) [sampleCall] sampleEncryptor
        (plainFormats.toJson (sampleEnvelope (List.replicate 12 3))) ∧
      Sound (recordingCrypto [sampleCall]) [sampleCall] sampleEncryptor
        (plainFormats.toJson (sampleEnvelope (List.replicate 12 3))) := by
  have fine : ¬BadNonce (recordingCrypto [sampleCall]) [sampleCall] sampleEncryptor
      (plainFormats.toJson (sampleEnvelope (List.replicate 12 3))) := by
    rintro ⟨envelope, parsed, -, _, -, -, -, ⟨nonce, decoded, wrong⟩, -⟩
    obtain rfl := Except.ok.inj ((plainFormats_faithful _).symm.trans parsed)
    rw [sampleEnvelope, String.toList_ofList, Base64.decode_encode] at decoded
    obtain rfl := Option.some.inj decoded
    exact wrong rfl
  exact ⟨fine, (decrypt_sound_iff (recordingAead_ideal _) sample_fresh plainFormats_faithful
    _).mpr fine⟩

end Encryption
end Mnemo
