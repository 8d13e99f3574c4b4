import Mathlib

/-!
# Combining finite maps key by key

The loop `for (key, value) in other { entry(key).or_default() ⊕= value }` of a hash map, as a fold
over the entries of an association list, and what it leaves under each key.
-/

namespace AssocMap

variable {Key Value : Type*} [DecidableEq Key]

/-- The value under a key, or the default of a key which has no entry. -/
def valueD (default : Value) (entries : AList fun _ : Key => Value) (key : Key) : Value :=
  (entries.lookup key).getD default

/-- Fold the entries of `right` into `left`, combining each with the value it meets there. -/
def mergeWith (combine : Value → Value → Value) (default : Value)
    (left right : AList fun _ : Key => Value) : AList fun _ : Key => Value :=
  right.foldl
    (fun merged key value => merged.insert key (combine (valueD default merged key) value)) left

@[simp]
theorem valueD_empty (default : Value) (key : Key) :
    valueD default (∅ : AList fun _ : Key => Value) key = default := by
  simp [valueD]

theorem valueD_insert (default : Value) (entries : AList fun _ : Key => Value) (key other : Key)
    (value : Value) :
    valueD default (entries.insert key value) other =
      if other = key then value else valueD default entries other := by
  by_cases same : other = key
  · subst other
    simp [valueD]
  · simp [valueD, AList.lookup_insert_ne same, same]

theorem valueD_erase (default : Value) (entries : AList fun _ : Key => Value) (key other : Key) :
    valueD default (entries.erase key) other =
      if other = key then default else valueD default entries other := by
  by_cases same : other = key
  · subst other
    simp [valueD]
  · simp [valueD, AList.lookup_erase_ne same, same]

theorem read_foldl {State Reading : Type*} (read : State → Key → Reading)
    (step : State → (Sigma fun _ : Key => Value) → State)
    (combine : Reading → Value → Reading)
    (reads : ∀ state entry key, read (step state entry) key =
      if key = entry.1 then combine (read state key) entry.2 else read state key)
    (entries : List (Sigma fun _ : Key => Value)) (nodup : entries.NodupKeys) (state : State)
    (key : Key) :
    read (entries.foldl step state) key =
      ((entries.dlookup key).map (combine (read state key))).getD (read state key) := by
  induction entries generalizing state with
  | nil => simp
  | cons entry entries ih =>
    obtain ⟨head_fresh, tail_nodup⟩ := List.nodupKeys_cons.mp nodup
    rw [List.foldl_cons, ih tail_nodup, reads]
    by_cases same : key = entry.1
    · subst key
      have absent : List.dlookup entry.1 entries = none := List.dlookup_eq_none.mpr head_fresh
      have found : List.dlookup entry.1 (entry :: entries) = some entry.2 :=
        List.dlookup_cons_eq entries entry.1 entry.2
      simp [absent, found]
    · simp [List.dlookup_cons_ne _ entry same, same]

theorem lookup_mergeWith (combine : Value → Value → Value) (default : Value)
    (left right : AList fun _ : Key => Value) (key : Key) :
    (mergeWith combine default left right).lookup key =
      ((right.lookup key).map fun value => some (combine (valueD default left key) value)).getD
        (left.lookup key) := by
  refine read_foldl (fun entries key => entries.lookup key) _
    (fun reading value => some (combine (reading.getD default) value)) ?_ right.entries
    right.nodupKeys left key
  intro entries entry key
  by_cases same : key = entry.1
  · subst same
    simp [valueD]
  · simp [AList.lookup_insert_ne same, same]

theorem valueD_mergeWith (combine : Value → Value → Value) (default : Value)
    (neutral : ∀ value, combine value default = value)
    (left right : AList fun _ : Key => Value) (key : Key) :
    valueD default (mergeWith combine default left right) key =
      combine (valueD default left key) (valueD default right key) := by
  have reads (merged : AList fun _ : Key => Value) (entry : Sigma fun _ : Key => Value)
      (key : Key) :
      valueD default (merged.insert entry.1 (combine (valueD default merged entry.1) entry.2)) key =
        if key = entry.1 then combine (valueD default merged key) entry.2
        else valueD default merged key := by
    rw [valueD_insert]
    by_cases same : key = entry.1
    · rw [if_pos same, if_pos same, same]
    · rw [if_neg same, if_neg same]
  refine (read_foldl (valueD default) _ combine reads right.entries right.nodupKeys left key).trans ?_
  change _ = combine _ ((List.dlookup key right.entries).getD default)
  cases List.dlookup key right.entries with
  | none => simp [neutral]
  | some value => simp

theorem sum_values {entries : AList fun _ : Key => Nat} {keys : Finset Key}
    (covers : entries.keys.toFinset ⊆ keys) :
    (entries.entries.map Sigma.snd).sum = ∑ key ∈ keys, valueD 0 entries key := by
  have outside (key : Key) (_ : key ∈ keys) (absent : key ∉ entries.keys.toFinset) :
      valueD 0 entries key = 0 := by
    rw [List.mem_toFinset] at absent
    unfold valueD
    rw [AList.lookup_eq_none.mpr absent]
    rfl
  rw [← Finset.sum_subset covers outside, List.sum_toFinset _ entries.keys_nodup]
  unfold AList.keys List.keys
  rw [List.map_map]
  apply congrArg List.sum
  apply List.map_congr_left
  rintro ⟨key, value⟩ member
  have found : entries.lookup key = some value := AList.mem_lookup_iff.mpr member
  simp [valueD, found]

end AssocMap
