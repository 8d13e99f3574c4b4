import Mathlib
import Mnemo.Core.Basic
import Mnemo.Lib.AssocMap

/-!
# Digests for anti-entropy

A digest commits to the items of a node by the hashes of their texts, joined in the order in which
they are supplied: all of them for the root, and those of one bucket for each first character of the
keys.  Neither the keys nor the ends of the joined hashes are part of what is hashed.
-/

namespace Mnemo
namespace Sync

/-- The type of resource a digest covers. -/
inductive DeltaResourceType where
  | entity
  | edge
  | episode
  | user
  | session
  | agentIdentity
  deriving DecidableEq, Repr

/-- A node of the tree, with the key prefix and the number of resources which it covers. -/
structure MerkleNode where
  hash : String
  keyPrefix : String
  count : Nat
  deriving DecidableEq, Repr

/-- Digest of the items of a resource type. -/
structure MerkleDigest where
  resourceType : DeltaResourceType
  userId : Option Uuid
  rootHash : String
  totalItems : Nat
  computedAt : DateTime
  nodes : List MerkleNode

namespace MerkleDigest

/-- The bucket of a key: its first character, or a question mark. -/
def bucketOf (key : String) : String :=
  match key.toList.head? with
  | some character => String.singleton character
  | none => "?"

/-- The hashes of each bucket in their order, with their number. -/
def buckets (nodes : List MerkleNode) : AList fun _ : String => List String × Nat :=
  nodes.foldl
    (fun buckets node =>
      let bucket := AssocMap.valueD ([], 0) buckets (bucketOf node.keyPrefix)
      buckets.insert (bucketOf node.keyPrefix) (bucket.1 ++ [node.hash], bucket.2 + 1)) ∅

/-- The leaf of an item. -/
def leaf (item : String × String) : MerkleNode :=
  { hash := item.2, keyPrefix := item.1, count := 1 }

variable (sha256Hex : String → String)

/-- The summary of a bucket. -/
def summaryNode (bucket : Sigma fun _ : String => List String × Nat) : MerkleNode :=
  { hash := sha256Hex (String.join bucket.2.1), keyPrefix := bucket.1, count := bucket.2.2 }

/-- Compute a digest from the keys and hashes of items. -/
def fromItems (resourceType : DeltaResourceType) (userId : Option Uuid) (computedAt : DateTime)
    (items : List (String × String)) : MerkleDigest :=
  if items.isEmpty then
    { resourceType, userId, rootHash := sha256Hex "empty", totalItems := 0, computedAt,
      nodes := [] }
  else
    let nodes := items.map leaf
    let inOrder := (buckets nodes).entries.mergeSort fun bucket other => bucket.1 ≤ other.1
    { resourceType
      userId
      rootHash := sha256Hex (String.join (nodes.map MerkleNode.hash))
      totalItems := items.length
      computedAt
      nodes := inOrder.map (summaryNode sha256Hex) }

/-- The hash of each prefix. -/
def hashes (digest : MerkleDigest) : AList fun _ : String => String :=
  digest.nodes.foldl (fun hashes node => hashes.insert node.keyPrefix node.hash) ∅

/-- Compare two digests and return the prefixes that differ. -/
def diffPrefixes (digest other : MerkleDigest) : List String :=
  if digest.rootHash = other.rootHash then []
  else
    let allPrefixes := digest.hashes.keys ∪ other.hashes.keys
    let diffs := allPrefixes.filter fun keyPrefix =>
      digest.hashes.lookup keyPrefix ≠ other.hashes.lookup keyPrefix
    diffs.mergeSort (· ≤ ·)

/-! ## What a digest commits to -/

/-- The text that the root hashes. -/
def rootText (items : List (String × String)) : String :=
  if items.isEmpty then "empty" else String.join (items.map Prod.snd)

/-- The hashes of a bucket. -/
def bucketHashes (items : List (String × String)) (bucket : String) : List String :=
  (items.filter fun item => bucketOf item.1 = bucket).map Prod.snd

/-- The text that the summary of a bucket hashes, if there is such a bucket. -/
def bucketText (items : List (String × String)) (bucket : String) : Option String :=
  if (bucketHashes items bucket).isEmpty then none
  else some (String.join (bucketHashes items bucket))

theorem lookup_buckets (items : List (String × String)) (bucket : String) :
    (buckets (items.map leaf)).lookup bucket =
      if (bucketHashes items bucket).isEmpty then none
      else some (bucketHashes items bucket, (bucketHashes items bucket).length) := by
  induction items using List.reverseRecOn with
  | nil => rfl
  | append_singleton items item ih =>
    have step : buckets ((items ++ [item]).map leaf) =
        (buckets (items.map leaf)).insert (bucketOf item.1)
          ((AssocMap.valueD ([], 0) (buckets (items.map leaf)) (bucketOf item.1)).1 ++ [item.2],
            (AssocMap.valueD ([], 0) (buckets (items.map leaf)) (bucketOf item.1)).2 + 1) := by
      simp [buckets, List.foldl_append, leaf]
    by_cases same : bucket = bucketOf item.1
    · subst same
      have held : AssocMap.valueD ([], 0) (buckets (items.map leaf)) (bucketOf item.1) =
          (bucketHashes items (bucketOf item.1),
            (bucketHashes items (bucketOf item.1)).length) := by
        unfold AssocMap.valueD
        rw [ih]
        split
        · rename_i none
          rw [List.isEmpty_iff.mp none]
          rfl
        · rfl
      rw [step, AList.lookup_insert, held]
      simp [bucketHashes, List.filter_append]
    · rw [step, AList.lookup_insert_ne same, ih]
      have others : bucketHashes (items ++ [item]) bucket = bucketHashes items bucket := by
        simp [bucketHashes, List.filter_append, Ne.symm same]
      rw [others]

theorem lookup_foldl_hashes (nodes : List MerkleNode) (distinct : (nodes.map (·.keyPrefix)).Nodup)
    (start : AList fun _ : String => String) (keyPrefix hash : String) :
    (nodes.foldl (fun hashes node => hashes.insert node.keyPrefix node.hash) start).lookup keyPrefix =
        some hash ↔
      (∃ node ∈ nodes, node.keyPrefix = keyPrefix ∧ node.hash = hash) ∨
        (∀ node ∈ nodes, node.keyPrefix ≠ keyPrefix) ∧ start.lookup keyPrefix = some hash := by
  induction nodes generalizing start with
  | nil => simp
  | cons node nodes ih =>
    obtain ⟨fresh, distinct⟩ := List.nodup_cons.mp distinct
    have others (other : MerkleNode) (member : other ∈ nodes) : other.keyPrefix ≠ node.keyPrefix :=
      fun equal => fresh (List.mem_map.mpr ⟨other, member, equal⟩)
    rw [List.foldl_cons, ih distinct]
    by_cases same : node.keyPrefix = keyPrefix
    · subst same
      have absent : ¬ ∃ other ∈ nodes, other.keyPrefix = node.keyPrefix ∧ other.hash = hash := by
        rintro ⟨other, member, equal, _⟩
        exact others other member equal
      simp only [AList.lookup_insert, Option.some.injEq, List.mem_cons, exists_eq_or_imp,
        forall_eq_or_imp]
      tauto
    · rw [AList.lookup_insert_ne (Ne.symm same)]
      simp only [List.mem_cons, exists_eq_or_imp, forall_eq_or_imp, same, false_and, false_or,
        ne_eq, not_false_eq_true, true_and]

variable {sha256Hex} (resourceType : DeltaResourceType) (userId : Option Uuid)
  (computedAt : DateTime) (items : List (String × String))

theorem rootHash_fromItems :
    (fromItems sha256Hex resourceType userId computedAt items).rootHash =
      sha256Hex (rootText items) := by
  unfold fromItems rootText
  split
  · rfl
  · dsimp only
    rw [List.map_map]
    rfl

theorem nodes_fromItems :
    (fromItems sha256Hex resourceType userId computedAt items).nodes =
      (((buckets (items.map leaf)).entries.mergeSort fun bucket other =>
        bucket.1 ≤ other.1).map (summaryNode sha256Hex)) := by
  unfold fromItems
  split
  · rename_i none
    have empty : (buckets (items.map leaf)).entries = [] := by
      rw [List.isEmpty_iff.mp none]
      rfl
    rw [empty, List.mergeSort_nil]
    rfl
  · rfl

theorem lookup_hashes_fromItems (bucket : String) :
    (fromItems sha256Hex resourceType userId computedAt items).hashes.lookup bucket =
      (bucketText items bucket).map sha256Hex := by
  have sorted := List.mergeSort_perm (buckets (items.map leaf)).entries
    fun bucket other => decide (bucket.1 ≤ other.1)
  have distinct :
      ((fromItems sha256Hex resourceType userId computedAt items).nodes.map (·.keyPrefix)).Nodup := by
    rw [nodes_fromItems, List.map_map]
    exact (sorted.map Sigma.fst).nodup_iff.mpr (buckets (items.map leaf)).nodupKeys
  ext hash
  unfold hashes
  rw [lookup_foldl_hashes _ distinct, nodes_fromItems]
  have summary : (∃ node ∈ (((buckets (items.map leaf)).entries.mergeSort fun bucket other =>
        bucket.1 ≤ other.1).map (summaryNode sha256Hex)),
          node.keyPrefix = bucket ∧ node.hash = hash) ↔
      ∃ held, (buckets (items.map leaf)).lookup bucket = some held ∧
        sha256Hex (String.join held.1) = hash := by
    constructor
    · rintro ⟨node, member, rfl, rfl⟩
      obtain ⟨⟨key, held⟩, entry, rfl⟩ := List.mem_map.mp member
      exact ⟨held, AList.mem_lookup_iff.mpr (sorted.mem_iff.mp entry), rfl⟩
    · rintro ⟨held, found, rfl⟩
      have entry := sorted.mem_iff.mpr (AList.mem_lookup_iff.mp found)
      exact ⟨_, List.mem_map_of_mem entry, rfl, rfl⟩
  rw [summary, lookup_buckets]
  unfold bucketText
  split <;> simp

theorem mem_diffPrefixes_iff (injective : Function.Injective sha256Hex)
    (others : List (String × String)) (otherComputedAt : DateTime) (bucket : String) :
    bucket ∈ (fromItems sha256Hex resourceType userId computedAt items).diffPrefixes
        (fromItems sha256Hex resourceType userId otherComputedAt others) ↔
      rootText items ≠ rootText others ∧ bucketText items bucket ≠ bucketText others bucket := by
  have differ : bucketText items bucket ≠ bucketText others bucket ↔
      (bucketText items bucket).map sha256Hex ≠ (bucketText others bucket).map sha256Hex :=
    (Option.map_injective injective).ne_iff.symm
  unfold diffPrefixes
  rw [rootHash_fromItems, rootHash_fromItems]
  by_cases same : rootText items = rootText others
  · simp [same]
  · rw [if_neg (injective.ne same), List.mem_mergeSort, List.mem_filter, List.mem_union_iff, ← AList.mem_keys,
      ← AList.mem_keys, ← AList.lookup_isSome, ← AList.lookup_isSome, lookup_hashes_fromItems,
      lookup_hashes_fromItems, differ]
    cases bucketText items bucket <;> cases bucketText others bucket <;> simp [same]

/-! ## Which differences are found -/

/-- The items whose keys start with a character are the same on both sides. -/
def SameUnder (character : Char) (items others : List (String × String)) : Prop :=
  ∀ item : String × String, item.1.toList.head? = some character →
    (item ∈ items ↔ item ∈ others)

/-- The comparison of two digests finds the character exactly when the items under it differ. -/
def FoundExactly (character : Char) (items others : List (String × String))
    (diffs : List String) : Prop :=
  (¬ SameUnder character items others → String.singleton character ∈ diffs) ∧
    (SameUnder character items others → String.singleton character ∉ diffs)

/-- The texts that are hashed tell whether the items under a character are the same: if they are,
the orders of the items give one text for the bucket or for the root, and otherwise both texts
differ. -/
def TextsTell (character : Char) (items others : List (String × String)) : Prop :=
  (SameUnder character items others → rootText items = rootText others ∨
      bucketText items (String.singleton character) =
        bucketText others (String.singleton character)) ∧
    (¬ SameUnder character items others → rootText items ≠ rootText others ∧
      bucketText items (String.singleton character) ≠
        bucketText others (String.singleton character))

/-- Two digests show exactly which items differ if and only if the joined texts of the hashes do. -/
theorem differences_found_iff_textsTell (injective : Function.Injective sha256Hex)
    (others : List (String × String)) (otherComputedAt : DateTime) (character : Char) :
    FoundExactly character items others
        ((fromItems sha256Hex resourceType userId computedAt items).diffPrefixes
          (fromItems sha256Hex resourceType userId otherComputedAt others)) ↔
      TextsTell character items others := by
  unfold FoundExactly TextsTell
  rw [mem_diffPrefixes_iff resourceType userId computedAt items injective]
  by_cases same : SameUnder character items others
  · simp only [same, not_true_eq_false, false_implies, true_and, true_implies, and_true]
    tauto
  · simp only [same, not_false_eq_true, true_implies, false_implies, and_true, true_and]

theorem differences_found_iff_textsTell_changedHash :
    FoundExactly 'b' [("a1", "x"), ("b1", "y")] [("a1", "x"), ("b1", "z")]
      ((fromItems id .entity none 0 [("a1", "x"), ("b1", "y")]).diffPrefixes
        (fromItems id .entity none 1 [("a1", "x"), ("b1", "z")])) := by
  apply (differences_found_iff_textsTell .entity none 0 _ Function.injective_id _ 1 'b').mpr
  have differ : ¬ SameUnder 'b' [("a1", "x"), ("b1", "y")] [("a1", "x"), ("b1", "z")] := by
    intro same
    exact absurd ((same ("b1", "y") (by decide)).mp (by decide)) (by decide)
  exact ⟨fun same => absurd same differ, fun _ => by decide⟩

/-- The same items in another order look different, and an item whose key has changed looks the
same. -/
theorem reordered_found_and_renamed_missed :
    (∃ items others : List (String × String),
      (items.map Prod.fst).Nodup ∧ (others.map Prod.fst).Nodup ∧ SameUnder 'a' items others ∧
        "a" ∈ (fromItems id .entity none 0 items).diffPrefixes
          (fromItems id .entity none 0 others)) ∧
    ∃ items others : List (String × String),
      (items.map Prod.fst).Nodup ∧ (others.map Prod.fst).Nodup ∧
        ¬ SameUnder 'a' items others ∧
          "a" ∉ (fromItems id .entity none 0 items).diffPrefixes
            (fromItems id .entity none 0 others) := by
  constructor
  · refine ⟨[("a1", "x"), ("a2", "y")], [("a2", "y"), ("a1", "x")], by decide, by decide, ?_, ?_⟩
    · intro item _
      simp [or_comm]
    · rw [mem_diffPrefixes_iff _ _ _ _ Function.injective_id]
      decide
  · refine ⟨[("a1", "x")], [("a2", "x")], by decide, by decide, ?_, ?_⟩
    · intro same
      exact absurd ((same ("a1", "x") (by decide)).mp (by decide)) (by decide)
    · rw [mem_diffPrefixes_iff _ _ _ _ Function.injective_id]
      decide

end MerkleDigest
end Sync
end Mnemo
