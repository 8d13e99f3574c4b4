import Mathlib.Data.List.Basic
import Mathlib.Data.List.Nodup

/-!
# Scrolling through a collection

A collection of entries with identifiers of their own is read page by page in a fixed order.  A page
starts at the identifier that the page before has handed out, and an entry is revised in place.
-/

namespace Scroll

/-- Entries in a fixed order, each with an identifier of its own. -/
structure Collection {Entry Id : Type} (ident : Entry → Id) where
  entries : List Entry
  nodup : (entries.map ident).Nodup

variable {Entry Id : Type} [DecidableEq Id] (ident : Entry → Id)

/-- The entries from an offset on, or all of them. -/
def startingAt : Option Id → List Entry → List Entry
  | none, entries => entries
  | some id, entries => entries.dropWhile fun entry => decide (ident entry ≠ id)

/-- A page of entries, and where the next one starts. -/
def page (limit : Nat) (offset : Option Id) (entries : List Entry) : List Entry × Option Id :=
  let rest := startingAt ident offset entries
  (rest.take limit, (rest.drop limit).head?.map ident)

/-- Put an entry in the place of the one with its identifier, or at the end. -/
def upsert (entry : Entry) : List Entry → List Entry
  | [] => [entry]
  | other :: entries =>
      if ident other = ident entry then entry :: entries else other :: upsert entry entries

variable {ident}

theorem map_upsert (entry : Entry) (entries : List Entry) :
    (upsert ident entry entries).map ident =
      if ident entry ∈ entries.map ident then entries.map ident
      else entries.map ident ++ [ident entry] := by
  induction entries with
  | nil => simp [upsert]
  | cons other entries ih =>
    rw [upsert]
    split
    · rename_i same
      simp [same]
    · rename_i different
      rw [List.map_cons, ih, List.map_cons]
      have apart : ident entry ≠ ident other := Ne.symm different
      by_cases known : ident entry ∈ entries.map ident
      · rw [if_pos known, if_pos (List.mem_cons_of_mem _ known)]
      · have unknown : ident entry ∉ ident other :: entries.map ident := by
          simpa [apart] using known
        rw [if_neg known, if_neg unknown, List.cons_append]

theorem page_eq {limit position : Nat} {offset : Option Id} {entries : List Entry}
    (start : startingAt ident offset entries = entries.drop position) :
    page ident limit offset entries =
      ((entries.drop position).take limit, entries[position + limit]?.map ident) := by
  unfold page
  simp only [start, List.drop_drop, List.head?_drop]

theorem getElem?_of_page {limit position : Nat} {entries : List Entry} (step : Nat) (entry : Entry)
    (shown : ((entries.drop position).take limit)[step]? = some entry) :
    entries[position + step]? = some entry := by
  have among : (entries.drop position)[step]? = some entry := by
    rw [← List.getElem?_take_of_lt]
    · exact shown
    · have bound := (List.getElem?_eq_some_iff.mp shown).1
      rw [List.length_take] at bound
      omega
  rw [← List.getElem?_drop]
  exact among

namespace Collection

/-- Put an entry in the place of the one with its identifier, or at the end. -/
def upsert (entry : Entry) (collection : Collection ident) : Collection ident where
  entries := Scroll.upsert ident entry collection.entries
  nodup := by
    rw [map_upsert]
    split
    · exact collection.nodup
    · rename_i unknown
      rw [List.nodup_append]
      refine ⟨collection.nodup, List.nodup_singleton _, ?_⟩
      intro known member last single same
      rw [List.mem_singleton.mp single] at same
      exact unknown (same ▸ member)

variable {collection : Collection ident} {position : Nat} {entry found : Entry}

/-- An entry takes the place of the one with its identifier. -/
theorem getElem?_upsert (here : collection.entries[position]? = some found)
    (same : ident found = ident entry) (other : Nat) :
    (collection.upsert entry).entries[other]? =
      if other = position then some entry else collection.entries[other]? := by
  have general : ∀ (entries : List Entry) (position other : Nat),
      (entries.map ident).Nodup → entries[position]? = some found →
      (Scroll.upsert ident entry entries)[other]? =
        if other = position then some entry else entries[other]? := by
    intro entries
    induction entries with
    | nil =>
      intro position other _ impossible
      simp at impossible
    | cons head rest ih =>
      intro position other nodup here
      obtain ⟨fresh, distinct⟩ := List.nodup_cons.mp (List.map_cons ▸ nodup)
      rw [Scroll.upsert]
      cases position with
      | zero =>
        obtain rfl : head = found := by simpa using here
        rw [if_pos same]
        cases other <;> simp
      | succ position =>
        have later : rest[position]? = some found := by simpa using here
        have different : ident head ≠ ident entry := by
          intro equal
          apply fresh
          rw [equal, ← same]
          exact List.mem_map_of_mem (List.mem_of_getElem? later)
        rw [if_neg different]
        cases other with
        | zero => simp
        | succ other =>
          rw [List.getElem?_cons_succ, ih position other distinct later]
          simp
  exact general _ position other collection.nodup here

theorem length_upsert (here : collection.entries[position]? = some found)
    (same : ident found = ident entry) :
    (collection.upsert entry).entries.length = collection.entries.length := by
  have known : ident entry ∈ collection.entries.map ident := by
    rw [← same]
    exact List.mem_map_of_mem (List.mem_of_getElem? here)
  have kept := congrArg List.length (@map_upsert Entry Id _ ident entry collection.entries)
  rw [if_pos known, List.length_map, List.length_map] at kept
  exact kept

/-- A page that starts at an entry shows what stands from its position on. -/
theorem startingAt_eq_drop (here : collection.entries[position]? = some entry) :
    startingAt ident (some (ident entry)) collection.entries =
      collection.entries.drop position := by
  have general : ∀ (entries : List Entry) (position : Nat), (entries.map ident).Nodup →
      entries[position]? = some entry →
      entries.dropWhile (fun other => decide (ident other ≠ ident entry)) =
        entries.drop position := by
    intro entries
    induction entries with
    | nil =>
      intro position _ impossible
      simp at impossible
    | cons head rest ih =>
      intro position nodup here
      obtain ⟨fresh, distinct⟩ := List.nodup_cons.mp (List.map_cons ▸ nodup)
      cases position with
      | zero =>
        obtain rfl : head = entry := by simpa using here
        simp [List.dropWhile]
      | succ position =>
        have later : rest[position]? = some entry := by simpa using here
        have different : ident head ≠ ident entry := by
          intro equal
          apply fresh
          rw [equal]
          exact List.mem_map_of_mem (List.mem_of_getElem? later)
        rw [List.dropWhile_cons_of_pos (by simpa using different)]
        exact ih position distinct later
  exact general _ position collection.nodup here

end Collection
end Scroll
