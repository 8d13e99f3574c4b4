import Mnemo.Agent.Validation
import Mnemo.Lib.MerkleTree

/-!
# Verified identity updates

The keys that an identity core may have are the leaves of a Merkle tree.  An update comes with a
membership proof for each top-level key of its core, which is checked against the root.
-/

namespace Mnemo
namespace Agent

open MerkleTree (Side)

/-- The hash function and the hexadecimal coding which the tree is built on. -/
structure MerkleHasher (Hash : Type) where
  sha256 : List UInt8 → Hash
  /-- The 32 bytes of a hash. -/
  bytes : Hash → List UInt8
  /-- The hash of 32 zero bytes. -/
  zero : Hash
  hexEncode : Hash → String
  /-- The hash whose 32 bytes a hexadecimal text stands for, if it does. -/
  hexDecode : String → Option Hash

/-- The bytes of a text. -/
def utf8 (text : String) : List UInt8 := text.toByteArray.data.toList

namespace MerkleHasher

variable {Hash : Type} (hasher : MerkleHasher Hash)

/-- The hash of a leaf. -/
def leafHash (key : String) : Hash := hasher.sha256 (utf8 "leaf:" ++ utf8 key)

/-- The hash of an internal node. -/
def nodeHash (left right : Hash) : Hash :=
  hasher.sha256 (utf8 "node:" ++ hasher.bytes left ++ hasher.bytes right)

/-- Leaf and node hashes are injective and apart from each other, and hashes can be read back from
their hexadecimal form. -/
structure Ideal : Prop where
  leaf_injective : Function.Injective hasher.leafHash
  node_injective : ∀ one two three four,
    hasher.nodeHash one two = hasher.nodeHash three four → one = three ∧ two = four
  apart : ∀ key left right, hasher.leafHash key ≠ hasher.nodeHash left right
  codec : ∀ hash, hasher.hexDecode (hasher.hexEncode hash) = some hash

/-- The zero hash is neither that of a leaf nor that of a node. -/
def ZeroFree : Prop :=
  (∀ key, hasher.leafHash key ≠ hasher.zero) ∧
    ∀ left right, hasher.nodeHash left right ≠ hasher.zero

end MerkleHasher

/-- A sibling hash in a proof path. -/
structure ProofSibling where
  hash : String
  position : Side

/-- Proof that a key is a member of the allowlist. -/
structure AllowlistMembershipProof where
  key : String
  leafIndex : Nat
  siblings : List ProofSibling
  root : String

/-- A Merkle tree over the keys of an allowlist. -/
structure AllowlistMerkleTree (Hash : Type) where
  root : String
  leaves : List String
  layers : List (List Hash)

section Trees

variable {Hash : Type} (hasher : MerkleHasher Hash)

/-- The leaf hashes, with the last one twice when their number is odd. -/
def paddedLeaves (keys : List String) : List Hash :=
  let hashes := keys.map hasher.leafHash
  if hashes.length % 2 = 0 then hashes else hashes ++ hashes.getLast?.toList

namespace AllowlistMerkleTree

/-- Build the tree of some keys. -/
def fromKeys (keys : List String) : AllowlistMerkleTree Hash :=
  let sorted := keys.mergeSort
  let leaves := paddedLeaves hasher sorted
  { root := hasher.hexEncode (MerkleTree.root hasher.nodeHash hasher.zero leaves)
    leaves := sorted
    layers := MerkleTree.layers hasher.nodeHash leaves }

/-- Generate a membership proof for a key, if it is one of the leaves. -/
def prove (tree : AllowlistMerkleTree Hash) (key : String) : Option AllowlistMembershipProof :=
  match tree.leaves.findIdx? (· == key) with
  | none => none
  | some index =>
      some {
        key
        leafIndex := index % 2 ^ 32
        siblings := (MerkleTree.path hasher.zero tree.layers.dropLast index).map fun step =>
          { hash := hasher.hexEncode step.1, position := step.2 }
        root := tree.root }

/-- The hash to which the siblings of a proof lead, if all of them can be decoded. -/
def climb (current : Hash) : List ProofSibling → Option Hash
  | [] => some current
  | sibling :: siblings =>
      match hasher.hexDecode sibling.hash with
      | some hash => climb (MerkleTree.combine hasher.nodeHash current hash sibling.position) siblings
      | none => none

/-- Verify a proof against a root. -/
def verifyAgainstRoot (root : String) (proof : AllowlistMembershipProof) : Bool :=
  match climb hasher (hasher.leafHash proof.key) proof.siblings with
  | some current => hasher.hexEncode current == root
  | none => false

end AllowlistMerkleTree

open AllowlistMerkleTree

/-! ## Soundness and completeness of proofs -/

variable {hasher}

theorem paddedLeaves_ne_nil {keys : List String} (nonempty : keys ≠ []) :
    paddedLeaves hasher keys ≠ [] := by
  unfold paddedLeaves
  dsimp only
  split
  · simpa using nonempty
  · simp [nonempty]

theorem mem_paddedLeaves {keys : List String} {leaf : Hash}
    (member : leaf ∈ paddedLeaves hasher keys) : ∃ key ∈ keys, hasher.leafHash key = leaf := by
  have listed : leaf ∈ keys.map hasher.leafHash := by
    unfold paddedLeaves at member
    dsimp only at member
    split at member
    · exact member
    · rcases List.mem_append.mp member with old | last
      · exact old
      · exact List.mem_of_getLast? (Option.mem_toList.mp last)
  obtain ⟨key, member, same⟩ := List.mem_map.mp listed
  exact ⟨key, member, same⟩

theorem getElem?_paddedLeaves {keys : List String} {index : Nat} {key : String}
    (found : keys[index]? = some key) :
    (paddedLeaves hasher keys)[index]? = some (hasher.leafHash key) := by
  have listed : (keys.map hasher.leafHash)[index]? = some (hasher.leafHash key) := by
    rw [List.getElem?_map, found]
    rfl
  unfold paddedLeaves
  dsimp only
  split
  · exact listed
  · rw [List.getElem?_append_left (List.getElem?_eq_some_iff.mp listed).1]
    exact listed

theorem climb_eq_some {current final : Hash} {siblings : List ProofSibling}
    (reaches : climb hasher current siblings = some final) :
    ∃ steps, MerkleTree.climb hasher.nodeHash current steps = final := by
  induction siblings generalizing current with
  | nil => exact ⟨[], Option.some.inj reaches⟩
  | cons sibling siblings ih =>
    unfold climb at reaches
    split at reaches
    · rename_i hash _
      obtain ⟨steps, ends⟩ := ih reaches
      exact ⟨(hash, sibling.position) :: steps, ends⟩
    · cases reaches

theorem climb_encoded (ideal : hasher.Ideal) (current : Hash) (steps : List (Hash × Side)) :
    climb hasher current (steps.map fun step =>
        { hash := hasher.hexEncode step.1, position := step.2 }) =
      some (MerkleTree.climb hasher.nodeHash current steps) := by
  induction steps generalizing current with
  | nil => rfl
  | cons step steps ih =>
    rw [List.map_cons, climb]
    dsimp only
    rw [ideal.codec]
    exact ih _

theorem hexEncode_injective (ideal : hasher.Ideal) : Function.Injective hasher.hexEncode := by
  intro first second same
  have decoded := congrArg hasher.hexDecode same
  rw [ideal.codec, ideal.codec] at decoded
  exact Option.some.inj decoded

theorem isSome_prove_iff (keys : List String) (key : String) :
    ((fromKeys hasher keys).prove hasher key).isSome = true ↔ key ∈ keys := by
  have found : ((fromKeys hasher keys).prove hasher key).isSome =
      ((keys.mergeSort).findIdx? (· == key)).isSome := by
    unfold prove fromKeys
    dsimp only
    cases (keys.mergeSort).findIdx? (· == key) <;> rfl
  rw [found, List.findIdx?_isSome]
  simp

theorem getElem?_of_findIdx? {keys : List String} {key : String} {index : Nat}
    (position : keys.findIdx? (· == key) = some index) : keys[index]? = some key := by
  obtain ⟨less, same, _⟩ := List.findIdx?_eq_some_iff_getElem.mp position
  rw [List.getElem?_eq_getElem less]
  exact congrArg some (beq_iff_eq.mp same)

theorem prove_eq_some {keys : List String} {key : String} {proof : AllowlistMembershipProof}
    (proved : (fromKeys hasher keys).prove hasher key = some proof) (ideal : hasher.Ideal) :
    proof.key = key ∧ verifyAgainstRoot hasher (fromKeys hasher keys).root proof = true := by
  unfold prove at proved
  split at proved
  · cases proved
  · rename_i index position
    obtain rfl := Option.some.inj proved
    refine ⟨rfl, ?_⟩
    have within : (keys.mergeSort)[index]? = some key := getElem?_of_findIdx? position
    unfold verifyAgainstRoot
    dsimp only
    rw [climb_encoded ideal]
    dsimp only [fromKeys]
    rw [MerkleTree.climb_path (getElem?_paddedLeaves within), beq_self_eq_true]

theorem climb_ne_zero (apart : hasher.ZeroFree) {key : String} (steps : List (Hash × Side)) :
    MerkleTree.climb hasher.nodeHash (hasher.leafHash key) steps ≠ hasher.zero := by
  rcases List.eq_nil_or_concat' steps with rfl | ⟨front, ⟨sibling, side⟩, rfl⟩
  · exact apart.1 key
  · rw [MerkleTree.climb_concat]
    cases side with
    | right => exact apart.2 _ _
    | left => exact apart.2 _ _

theorem mem_of_verified (ideal : hasher.Ideal) {keys : List String}
    (apart : keys = [] → hasher.ZeroFree) {proof : AllowlistMembershipProof}
    (verified : verifyAgainstRoot hasher (fromKeys hasher keys).root proof = true) :
    proof.key ∈ keys := by
  unfold verifyAgainstRoot at verified
  split at verified
  · rename_i final reaches
    obtain ⟨steps, ends⟩ := climb_eq_some reaches
    have same := hexEncode_injective ideal (beq_iff_eq.mp verified)
    rw [← ends] at same
    rcases eq_or_ne keys [] with rfl | nonempty
    · rw [List.mergeSort_nil] at same
      have empty : paddedLeaves hasher [] = [] := rfl
      rw [empty, MerkleTree.root_nil] at same
      exact absurd same (climb_ne_zero (apart rfl) steps)
    · have sorted : keys.mergeSort ≠ [] := by
        apply List.ne_nil_of_length_pos
        rw [List.length_mergeSort]
        exact List.length_pos_iff.mpr nonempty
      have leaf := MerkleTree.mem_of_climb ideal.node_injective (paddedLeaves_ne_nil sorted)
        (ideal.apart proof.key)
        (fun leaf member first second => by
          obtain ⟨key, _, rfl⟩ := mem_paddedLeaves member
          exact ideal.apart key first second) same
      obtain ⟨key, member, hashes⟩ := mem_paddedLeaves leaf
      rw [← ideal.leaf_injective hashes]
      exact List.mem_mergeSort.mp member
  · cases verified

/-- Keys have proofs exactly if they are in the list, proofs that were generated are accepted, and
no other ones are, whoever made them. -/
theorem proofs_sound_and_complete (ideal : hasher.Ideal) (keys : List String) :
    (∀ key, ((fromKeys hasher keys).prove hasher key).isSome = true ↔ key ∈ keys) ∧
      (∀ key proof, (fromKeys hasher keys).prove hasher key = some proof →
        verifyAgainstRoot hasher (fromKeys hasher keys).root proof = true) ∧
      ((keys = [] → hasher.ZeroFree) → ∀ proof,
        verifyAgainstRoot hasher (fromKeys hasher keys).root proof = true → proof.key ∈ keys) :=
  ⟨isSome_prove_iff keys, fun _ _ proved => (prove_eq_some proved ideal).2,
    fun apart _ verified => mem_of_verified ideal apart verified⟩

/-! ## A hasher on byte strings -/

/-- The bytes of a byte string, led by its length in unary. -/
def framed (content : List UInt8) : List UInt8 :=
  List.replicate content.length 1 ++ 0 :: content

theorem framed_append_inj {first second third fourth : List UInt8}
    (same : framed first ++ second = framed third ++ fourth) : first = third ∧ second = fourth := by
  have notMem (count : Nat) : (0 : UInt8) ∉ List.replicate count 1 := by
    intro member
    exact absurd (List.eq_of_mem_replicate member) (by decide)
  unfold framed at same
  rw [List.append_assoc, List.append_assoc, List.cons_append, List.cons_append] at same
  obtain ⟨lengths, contents⟩ := (Text.append_separator_inj (notMem _) (notMem _)).mp same
  have equal : first.length = third.length := by
    simpa using congrArg List.length lengths
  exact List.append_inj contents equal

/-- A hasher which keeps what it hashes. -/
def keepingHasher : MerkleHasher (List UInt8) where
  sha256 := id
  bytes := framed
  zero := []
  hexEncode content := String.ofList (content.map fun byte => Char.ofNat byte.toNat)
  hexDecode text := some (text.toList.map fun character => UInt8.ofNat character.toNat)

theorem utf8_injective : Function.Injective utf8 := by
  intro first second same
  have arrays : first.toByteArray.data = second.toByteArray.data := Array.toList_inj.mp same
  exact String.toByteArray_inj.mp (ByteArray.ext arrays)

theorem byte_of_char (byte : UInt8) : UInt8.ofNat (Char.ofNat byte.toNat).toNat = byte := by
  have small := byte.toNat_lt
  have valid : byte.toNat.isValidChar := .inl (by omega)
  rw [Char.toNat_ofNat, if_pos valid, UInt8.ofNat_toNat]

theorem ideal_keepingHasher : keepingHasher.Ideal := by
  refine ⟨?_, ?_, ?_, ?_⟩
  · intro first second same
    exact utf8_injective (List.append_cancel_left same)
  · intro one two three four same
    have inner : framed one ++ framed two = framed three ++ framed four := by
      have whole : utf8 "node:" ++ (framed one ++ framed two) =
          utf8 "node:" ++ (framed three ++ framed four) := by
        simpa [MerkleHasher.nodeHash, keepingHasher] using same
      exact List.append_cancel_left whole
    obtain ⟨firsts, seconds⟩ := framed_append_inj inner
    refine ⟨firsts, ?_⟩
    have extended : framed two ++ [] = framed four ++ [] := by rw [seconds]
    exact (framed_append_inj extended).1
  · intro key left right same
    have leaf : utf8 "leaf:" = [108, 101, 97, 102, 58] := by decide
    have node : utf8 "node:" = [110, 111, 100, 101, 58] := by decide
    simp [MerkleHasher.leafHash, MerkleHasher.nodeHash, keepingHasher, leaf, node] at same
  · intro content
    simp only [keepingHasher, String.toList_ofList, List.map_map]
    have bytes : (fun character : Char => UInt8.ofNat character.toNat) ∘
        (fun byte : UInt8 => Char.ofNat byte.toNat) = id := funext byte_of_char
    rw [bytes, List.map_id]

theorem proofs_sound_and_complete_mission :
    ¬ ∃ proof : AllowlistMembershipProof, proof.key = "email" ∧
      verifyAgainstRoot keepingHasher (fromKeys keepingHasher ["mission"]).root proof = true := by
  rintro ⟨proof, key, verified⟩
  have member := (proofs_sound_and_complete ideal_keepingHasher ["mission"]).2.2
    (fun impossible => nomatch impossible) proof verified
  rw [key] at member
  exact absurd member (by decide)

end Trees

/-! ## Updates with proofs -/

/-- The top-level keys which an identity core may have. -/
def identityAllowlist : List String :=
  ["boundaries", "capabilities", "mission", "persona", "style", "values"]

/-- What no key of an identity core may contain at any depth. -/
def identityForbiddenSubstrings : List String :=
  ["address", "email", "episode", "external_id", "phone", "session", "user"]

/-- Whether a key contains a forbidden word, in any case of its ASCII letters. -/
def containsForbidden (key : String) : Bool :=
  identityForbiddenSubstrings.any fun token => Text.occursIn token (Text.toAsciiLowercase key)

mutual

/-- Look for forbidden words in the keys of a value at a path. -/
def checkForbiddenSubstrings (path : String) : Json → Except String Unit
  | .object fields => checkFields path fields
  | .array items => checkItems path 0 items
  | _ => .ok ()

def checkFields (path : String) : List (String × Json) → Except String Unit
  | [] => .ok ()
  | (key, value) :: fields =>
      if containsForbidden key then .error (path ++ key)
      else do
        checkForbiddenSubstrings (path ++ key ++ "/") value
        checkFields path fields

def checkItems (path : String) (index : Nat) : List Json → Except String Unit
  | [] => .ok ()
  | item :: items => do
      checkForbiddenSubstrings (path ++ "[" ++ toString index ++ "]/") item
      checkItems path (index + 1) items

end

/-- The proofs that come with an update. -/
structure IdentityUpdateProof where
  merkleRoot : String
  keyProofs : List AllowlistMembershipProof

/-- Result for one key. -/
structure KeyVerificationResult where
  key : String
  valid : Bool
  error : Option String
  deriving DecidableEq, Repr

/-- Result of the verification of an update. -/
structure ProofVerificationResult where
  verified : Bool
  keyResults : List KeyVerificationResult
  merkleRoot : String
  deriving DecidableEq, Repr

section Updates

variable {Hash : Type} (hasher : MerkleHasher Hash)

/-- The tree of the allowlist. -/
def AllowlistMerkleTree.fromAllowlist : AllowlistMerkleTree Hash :=
  AllowlistMerkleTree.fromKeys hasher identityAllowlist

open AllowlistMerkleTree

/-- Check the first proof that is given for a key of the core. -/
def checkKey (root : String) (proofs : List AllowlistMembershipProof) (key : String) :
    KeyVerificationResult :=
  match proofs.find? (·.key == key) with
  | none => { key, valid := false, error := some "no proof provided for this key" }
  | some proof =>
      if verifyAgainstRoot hasher root proof then { key, valid := true, error := none }
      else { key, valid := false, error := some "Merkle proof verification failed" }

/-- A proof for a key that is not in the core. -/
def extraProof (proof : AllowlistMembershipProof) : KeyVerificationResult :=
  { key := proof.key, valid := false, error := some "proof provided for key not present in core" }

/-- The result of the search for forbidden words. -/
def forbiddenResult : Except String Unit → List KeyVerificationResult
  | .ok () => []
  | .error key =>
      [{ key, valid := false, error := some ("forbidden substring detected at " ++ key) }]

/-- Verify the proofs of an update against the tree of the allowlist. -/
def verifyIdentityUpdateProof (core : Json) (proof : IdentityUpdateProof) :
    ProofVerificationResult :=
  let canonicalRoot := (fromAllowlist hasher).root
  if proof.merkleRoot ≠ canonicalRoot then
    { verified := false
      keyResults := [{
        key := "<merkle_root>"
        valid := false
        error := some ("proof merkle_root " ++ proof.merkleRoot ++
          " does not match canonical root " ++ canonicalRoot) }]
      merkleRoot := canonicalRoot }
  else
    match core with
    | .object fields =>
        let coreKeys := fields.map Prod.fst
        let keyResults :=
          coreKeys.map (checkKey hasher canonicalRoot proof.keyProofs) ++
          (proof.keyProofs.filter fun given => !coreKeys.contains given.key).map extraProof ++
          forbiddenResult (checkForbiddenSubstrings "core/" core)
        { verified := keyResults.all (·.valid), keyResults, merkleRoot := canonicalRoot }
    | _ =>
        { verified := false
          keyResults := [{
            key := "<core>", valid := false, error := some "core must be a JSON object" }]
          merkleRoot := canonicalRoot }

/-! ## Which updates are verified -/

private theorem check_bind_ok_iff {first next : Except String Unit} :
    (do first; next) = .ok () ↔ first = .ok () ∧ next = .ok () := by
  cases first with
  | ok value => exact ⟨fun rest => ⟨rfl, rest⟩, fun both => both.2⟩
  | error error =>
    exact ⟨(fun impossible => nomatch impossible), (fun both => nomatch both.1)⟩

mutual

theorem checkForbiddenSubstrings_ok_iff (path : String) (value : Json) :
    checkForbiddenSubstrings path value = .ok () ↔
      ∀ key ∈ allKeys value, containsForbidden key = false := by
  cases value with
  | object fields =>
    rw [checkForbiddenSubstrings, allKeys]
    exact checkFields_ok_iff path fields
  | array items =>
    rw [checkForbiddenSubstrings, allKeys]
    exact checkItems_ok_iff path 0 items
  | null | bool | number | string => simp [checkForbiddenSubstrings, allKeys]

theorem checkFields_ok_iff (path : String) (fields : List (String × Json)) :
    checkFields path fields = .ok () ↔
      ∀ key ∈ fieldKeys fields, containsForbidden key = false := by
  match fields with
  | [] => simp [checkFields, fieldKeys]
  | (key, value) :: fields =>
    have inside := checkForbiddenSubstrings_ok_iff (path ++ key ++ "/") value
    have behind := checkFields_ok_iff path fields
    rw [checkFields, fieldKeys]
    cases forbidden : containsForbidden key with
    | true => simp [forbidden]
    | false =>
      rw [if_neg (by simp), check_bind_ok_iff, inside, behind]
      simp [forbidden, or_imp, forall_and]

theorem checkItems_ok_iff (path : String) (index : Nat) (items : List Json) :
    checkItems path index items = .ok () ↔
      ∀ key ∈ itemKeys items, containsForbidden key = false := by
  match items with
  | [] => simp [checkItems, itemKeys]
  | item :: items =>
    have inside := checkForbiddenSubstrings_ok_iff (path ++ "[" ++ toString index ++ "]/") item
    have behind := checkItems_ok_iff path (index + 1) items
    rw [checkItems, itemKeys, check_bind_ok_iff, inside, behind]
    simp [or_imp, forall_and]

end

variable {hasher}

theorem checkKey_valid_iff {root : String} {proofs : List AllowlistMembershipProof}
    {key : String} :
    (checkKey hasher root proofs key).valid = true ↔
      ∃ proof, proofs.find? (·.key == key) = some proof ∧
        verifyAgainstRoot hasher root proof = true := by
  unfold checkKey
  cases proofs.find? (·.key == key) with
  | none => simp
  | some proof => cases verified : verifyAgainstRoot hasher root proof <;> simp [verified]

theorem forbiddenResult_valid_iff (outcome : Except String Unit) :
    (∀ result ∈ forbiddenResult outcome, result.valid = true) ↔ outcome = .ok () := by
  cases outcome with
  | ok value => simp [forbiddenResult]
  | error key => simp [forbiddenResult]

theorem extraProofs_valid_iff (proofs : List AllowlistMembershipProof) (keys : List String) :
    (∀ result ∈ (proofs.filter fun given => !keys.contains given.key).map extraProof,
        result.valid = true) ↔ ∀ given ∈ proofs, given.key ∈ keys := by
  constructor
  · intro valid given member
    by_contra absent
    have extra : given ∈ proofs.filter fun given => !keys.contains given.key :=
      List.mem_filter.mpr ⟨member, by simpa using absent⟩
    exact absurd (valid _ (List.mem_map_of_mem extra)) Bool.false_ne_true
  · intro covered result member
    obtain ⟨given, extra, rfl⟩ := List.mem_map.mp member
    obtain ⟨listed, absent⟩ := List.mem_filter.mp extra
    simp [covered given listed] at absent

theorem verified_iff (core : Json) (proof : IdentityUpdateProof) :
    (verifyIdentityUpdateProof hasher core proof).verified = true ↔
      proof.merkleRoot = (fromAllowlist hasher).root ∧ ∃ fields, core = .object fields ∧
        (∀ key ∈ fields.map Prod.fst, ∃ given, proof.keyProofs.find? (·.key == key) = some given ∧
          verifyAgainstRoot hasher (fromAllowlist hasher).root given = true) ∧
        (∀ given ∈ proof.keyProofs, given.key ∈ fields.map Prod.fst) ∧
        ∀ key ∈ allKeys core, containsForbidden key = false := by
  unfold verifyIdentityUpdateProof
  dsimp only
  split
  · rename_i other
    exact iff_of_false Bool.false_ne_true fun described => other described.1
  · rename_i same
    cases core with
    | object fields =>
      have clean := forbiddenResult_valid_iff
        (checkForbiddenSubstrings "core/" (.object fields))
      rw [checkForbiddenSubstrings_ok_iff] at clean
      have extras := extraProofs_valid_iff proof.keyProofs (fields.map Prod.fst)
      have keys : (∀ result ∈ (fields.map Prod.fst).map
            (checkKey hasher (fromAllowlist hasher).root proof.keyProofs), result.valid = true) ↔
          ∀ key ∈ fields.map Prod.fst, ∃ given,
            proof.keyProofs.find? (·.key == key) = some given ∧
              verifyAgainstRoot hasher (fromAllowlist hasher).root given = true := by
        simp only [List.forall_mem_map, checkKey_valid_iff]
      dsimp only
      rw [List.all_append, List.all_append, Bool.and_eq_true, Bool.and_eq_true,
        List.all_eq_true, List.all_eq_true, List.all_eq_true, keys, extras, clean]
      constructor
      · rintro ⟨⟨covered, own⟩, unforbidden⟩
        exact ⟨not_not.mp same, fields, rfl, covered, own, unforbidden⟩
      · rintro ⟨_, others, sameCore, covered, own, unforbidden⟩
        obtain rfl := Json.object.inj sameCore
        exact ⟨⟨covered, own⟩, unforbidden⟩
    | null | bool | number | string | array => simp

/-- The proofs which the tree of the allowlist generates for the keys of a core. -/
def generatedProof (hasher : MerkleHasher Hash) (core : Json) : IdentityUpdateProof :=
  { merkleRoot := (fromAllowlist hasher).root
    keyProofs :=
      match core with
      | .object fields =>
          (fields.map Prod.fst).filterMap ((fromAllowlist hasher).prove hasher)
      | _ => [] }

theorem find?_generatedProof (ideal : hasher.Ideal) {keys : List String}
    {key : String} (member : key ∈ keys) (allowed : key ∈ identityAllowlist) :
    ∃ given, (keys.filterMap ((fromAllowlist hasher).prove hasher)).find? (·.key == key) =
        some given ∧ verifyAgainstRoot hasher (fromAllowlist hasher).root given = true := by
  obtain ⟨proof, proved⟩ :=
    Option.isSome_iff_exists.mp ((isSome_prove_iff _ key).mpr allowed)
  have generated : proof ∈ keys.filterMap ((fromAllowlist hasher).prove hasher) :=
    List.mem_filterMap.mpr ⟨key, member, proved⟩
  have found : ((keys.filterMap ((fromAllowlist hasher).prove hasher)).find?
      (·.key == key)).isSome = true := by
    rw [List.find?_isSome]
    exact ⟨proof, generated, by simp [(prove_eq_some proved ideal).1]⟩
  obtain ⟨given, first⟩ := Option.isSome_iff_exists.mp found
  obtain ⟨other, _, provedOther⟩ := List.mem_filterMap.mp (List.mem_of_find?_eq_some first)
  exact ⟨given, first, (prove_eq_some provedOther ideal).2⟩

/-- Only cores of allowed keys, each with an accepted proof, without forbidden words at any depth
are verified, and all of them are when they come with the generated proofs. -/
theorem verified_updates_are_allowed (ideal : hasher.Ideal) (core : Json) :
    (∀ proof, (verifyIdentityUpdateProof hasher core proof).verified = true →
      ∃ fields, core = .object fields ∧
        (∀ key ∈ fields.map Prod.fst, key ∈ identityAllowlist ∧
          ∃ given ∈ proof.keyProofs, given.key = key ∧
            verifyAgainstRoot hasher (fromAllowlist hasher).root given = true) ∧
        (∀ given ∈ proof.keyProofs, given.key ∈ fields.map Prod.fst) ∧
        ∀ key ∈ allKeys core, containsForbidden key = false) ∧
    ∀ fields, core = .object fields → (∀ key ∈ fields.map Prod.fst, key ∈ identityAllowlist) →
      (∀ key ∈ allKeys core, containsForbidden key = false) →
        (verifyIdentityUpdateProof hasher core (generatedProof hasher core)).verified = true := by
  constructor
  · intro proof verified
    obtain ⟨_, fields, rfl, covered, own, unforbidden⟩ := (verified_iff core proof).mp verified
    refine ⟨fields, rfl, fun key member => ?_, own, unforbidden⟩
    obtain ⟨given, first, accepted⟩ := covered key member
    have sameKey : given.key = key := by
      have found := List.find?_some first
      exact beq_iff_eq.mp found
    refine ⟨?_, given, List.mem_of_find?_eq_some first, sameKey, accepted⟩
    have nonempty : identityAllowlist ≠ [] := List.cons_ne_nil _ _
    have allowed : given.key ∈ identityAllowlist :=
      mem_of_verified ideal (fun empty => absurd empty nonempty) accepted
    rwa [sameKey] at allowed
  · rintro fields rfl allowed unforbidden
    refine (verified_iff _ _).mpr ⟨rfl, fields, rfl, fun key member => ?_, fun given member => ?_,
      unforbidden⟩
    · exact find?_generatedProof ideal member (allowed key member)
    · obtain ⟨key, listed, proved⟩ := List.mem_filterMap.mp member
      rw [(prove_eq_some proved ideal).1]
      exact listed

/-- A core with a mission. -/
def missionCore : Json := .object [("mission", .string "help")]

theorem verified_updates_are_allowed_missionCore :
    (verifyIdentityUpdateProof keepingHasher missionCore
      (generatedProof keepingHasher missionCore)).verified = true :=
  (verified_updates_are_allowed ideal_keepingHasher missionCore).2 _ rfl (by decide) (by decide)

end Updates
end Agent
end Mnemo
