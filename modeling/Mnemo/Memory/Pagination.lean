import Mathlib
import Mnemo.Lib.Pagination
import Mnemo.Lib.Sequential
import Mnemo.Memory.GraphStore

/-!
# Paging through a listing

A client asks for page after page of `list_from_zset`, each after the last item of the one before,
until a page is empty.
-/

namespace Mnemo
namespace Memory

open Database (exec ReadsAs Faulty)
open SortedSet (scoreOf memberOf)
open Pagination (page pages below Paged)

/-- The store does not fail. -/
def Quiet (input : MemoryInput) : Prop := input.failure = none

theorem not_faulty_quiet : ¬ Faulty Quiet := by
  rintro ⟨input, quiet, fails⟩
  rw [quiet] at fails
  exact nomatch fails

/-- A program that reads, whatever it reads. -/
abbrev QuietlyReads {α : Type} (value : α) (program : MemoryProgram α)
    (contents : MemoryContents) : Prop :=
  ReadsAs Quiet (fun _ _ => True) value program contents

/-- A kind of documents that are listed: how one is read, and its identifier. -/
structure Listing (Item : Type) where
  read : Uuid → MemoryProgram (Option Item)
  stored : MemoryContents → Uuid → Option Item
  idOf : Item → Uuid
  reads : ∀ contents id, QuietlyReads (stored contents id) (read id) contents

namespace Listing

/-- Entities are listed by user. -/
def entities : Listing Entity where
  read := readEntity
  stored contents id := contents.docs (.entity id)
  idOf := Entity.id
  reads _ id := Database.readsAs_get (MemoryKey.entity id) trivial

/-- Edges are listed by user and by the entities at their ends. -/
def edges : Listing Edge where
  read := readEdge
  stored contents id := contents.docs (.edge id)
  idOf := Edge.id
  reads _ id := Database.readsAs_get (MemoryKey.edge id) trivial

variable {Item : Type} (listing : Listing Item)

/-- Documents are stored under their own identifiers. -/
def OwnIds (contents : MemoryContents) : Prop :=
  ∀ id item, listing.stored contents id = some item → listing.idOf item = id

/-- Ask for pages, each after the last item of the one before, until one is empty. -/
def allPages (index : MemoryIndex) (limit : Nat) : Nat → Option Uuid → MemoryProgram (List Item)
  | 0, _ => return []
  | fuel + 1, after => do
      let items ← listFromZset index listing.read limit after
      match items.getLast? with
      | none => return []
      | some last => do
          let others ← allPages index limit fuel (some (listing.idOf last))
          return items ++ others

variable (contents : MemoryContents) (index : MemoryIndex) (limit : Nat)

/-- Whether an entry of an index has its document. -/
def present (entry : Int ×ₗ Uuid) : Bool := (listing.stored contents (memberOf entry)).isSome

/-- The documents of entries. -/
def itemsOf (entries : List (Int ×ₗ Uuid)) : List Item :=
  entries.filterMap fun entry => listing.stored contents (memberOf entry)

/-- The entries below a cursor, highest first. -/
def restBelow (bound : Option Int) : List (Int ×ₗ Uuid) :=
  match bound with
  | none => (contents.sets index).entries.reverse
  | some score => (contents.sets index).entries.reverse.filter fun entry => scoreOf entry < score

/-- A cursor, and the score to which it is translated. -/
def Translates (after : Option Uuid) (bound : Option Int) : Prop :=
  match after, bound with
  | none, none => True
  | some cursor, some score => (contents.sets index).score cursor = some score
  | _, _ => False

theorem itemsOf_page (rest : List (Int ×ₗ Uuid)) :
    listing.itemsOf contents (page (listing.present contents) limit rest) =
      listing.itemsOf contents (rest.take limit) := by
  simp only [itemsOf, page]
  induction rest.take limit with
  | nil => rfl
  | cons entry entries ih =>
    cases stored : listing.stored contents (memberOf entry) <;> simp [present, stored, ih]

theorem getLast?_itemsOf (rest : List (Int ×ₗ Uuid)) :
    (listing.itemsOf contents (page (listing.present contents) limit rest)).getLast? =
      (page (listing.present contents) limit rest).getLast?.bind
        fun entry => listing.stored contents (memberOf entry) := by
  cases shown : (page (listing.present contents) limit rest).getLast? with
  | none => simp [List.getLast?_eq_none_iff.mp shown, itemsOf]
  | some last =>
    have isPresent := (Pagination.mem_of_shown shown).2
    obtain ⟨item, stored⟩ := Option.isSome_iff_exists.mp isPresent
    obtain ⟨front, split⟩ := List.getLast?_eq_some_iff.mp shown
    simp [split, itemsOf, stored]

theorem reads_getAll (ids : List Uuid) :
    QuietlyReads (ids.filterMap (listing.stored contents)) (getAll listing.read ids)
      contents := by
  induction ids with
  | nil => exact .done []
  | cons id ids ih =>
    refine (listing.reads contents id).andThen (ih.andThen ?_)
    have split : (id :: ids).filterMap (listing.stored contents) =
        (listing.stored contents id).toList ++ ids.filterMap (listing.stored contents) := by
      cases stored : listing.stored contents id <;> simp [stored]
    rw [split]
    exact .done _

variable {contents index limit}

theorem reads_listFromZset (positive : 0 < limit) {after : Option Uuid} {bound : Option Int}
    (translates : Translates contents index after bound) :
    QuietlyReads (listing.itemsOf contents ((restBelow contents index bound).take limit))
      (listFromZset index listing.read limit after) contents := by
  have items (entries : List (Int ×ₗ Uuid)) : listing.itemsOf contents entries =
      (entries.map memberOf).filterMap (listing.stored contents) := by
    rw [List.filterMap_map]
    rfl
  rw [items]
  cases after with
  | none =>
    cases bound with
    | some score => exact translates.elim
    | none =>
      have ids : QuietlyReads (((restBelow contents index none).take limit).map memberOf)
          (pageIds index limit none) contents := by
        rw [restBelow, ← SortedSet.revRange_first _ positive]
        exact Database.readsAs_zrevrange index 0 ((limit : Int) - 1) trivial
      exact ids.andThen (listing.reads_getAll contents _)
  | some cursor =>
    cases bound with
    | none => exact translates.elim
    | some score =>
      have read : QuietlyReads ((contents.sets index).score cursor)
          (Redis.zscore index cursor) contents := Database.readsAs_zscore index cursor trivial
      have found : (contents.sets index).score cursor = some score := translates
      rw [found] at read
      have ids : QuietlyReads ((contents.sets index).revRangeBelow score limit)
          (Redis.zrevrangeBelow index score limit) contents :=
        Database.readsAs_zrevrangeBelow index score limit trivial
      exact (read.andThen ids).andThen (listing.reads_getAll contents _)

theorem below_restBelow {bound : Option Int} {last : Int ×ₗ Uuid}
    (member : last ∈ restBelow contents index bound) :
    below scoreOf last (restBelow contents index bound) =
      restBelow contents index (some (scoreOf last)) := by
  cases bound with
  | none => rfl
  | some score =>
    simp only [restBelow, List.mem_filter, decide_eq_true_eq] at member
    simp only [below, restBelow, List.filter_filter]
    apply List.filter_congr
    intro entry _
    have less := member.2
    by_cases lower : scoreOf entry < scoreOf last
    · simp [lower, lower.trans less]
    · simp [lower]

theorem reads_allPages (own : listing.OwnIds contents) (positive : 0 < limit) (fuel : Nat)
    {after : Option Uuid} {bound : Option Int}
    (translates : Translates contents index after bound) :
    QuietlyReads
      (listing.itemsOf contents (pages scoreOf (listing.present contents) limit fuel
        (restBelow contents index bound)))
      (listing.allPages index limit fuel after) contents := by
  induction fuel generalizing after bound with
  | zero => exact .done []
  | succ fuel ih =>
    refine (listing.reads_listFromZset positive translates).andThen ?_
    rw [pages, ← itemsOf_page, getLast?_itemsOf]
    cases shown : (page (listing.present contents) limit
        (restBelow contents index bound)).getLast? with
    | none => exact .done []
    | some last =>
      obtain ⟨member, isPresent⟩ := Pagination.mem_of_shown shown
      obtain ⟨item, stored⟩ := Option.isSome_iff_exists.mp isPresent
      have listed : last ∈ (contents.sets index).entries := by
        cases bound with
        | none => exact List.mem_reverse.mp member
        | some score => exact List.mem_reverse.mp (List.mem_of_mem_filter member)
      have next : Translates contents index (some (listing.idOf item))
          (some (scoreOf last)) := by
        rw [own _ _ stored]
        exact SortedSet.score_of_mem _ listed
      have later := ih next
      rw [← below_restBelow member] at later
      simp only [Option.bind_some, stored]
      refine later.andThen ?_
      have split : listing.itemsOf contents
          (page (listing.present contents) limit (restBelow contents index bound) ++
            pages scoreOf (listing.present contents) limit fuel
              (below scoreOf last (restBelow contents index bound))) = _ :=
        List.filterMap_append
      rw [split]
      exact .done _

variable (contents index limit)

/-- The entries that all pages show. -/
def shownEntries : List (Int ×ₗ Uuid) :=
  pages scoreOf (listing.present contents) limit ((contents.sets index).entries.length + 1)
    (contents.sets index).entries.reverse

theorem shownEntries_sublist : (listing.shownEntries contents index limit).Sublist
    ((contents.sets index).entries.reverse.filter (listing.present contents)) :=
  Pagination.pages_sublist (contents.sets index).descending _

variable {contents index limit}

theorem eq_of_memberOf {entry other : Int ×ₗ Uuid} (listed : entry ∈ (contents.sets index).entries)
    (also : other ∈ (contents.sets index).entries) (same : memberOf entry = memberOf other) :
    entry = other :=
  List.inj_on_of_nodup_map (contents.sets index).nodup listed also same

theorem map_idOf_itemsOf (own : listing.OwnIds contents) {entries : List (Int ×ₗ Uuid)}
    (allPresent : ∀ entry ∈ entries, listing.present contents entry = true) :
    (listing.itemsOf contents entries).map listing.idOf = entries.map memberOf := by
  induction entries with
  | nil => rfl
  | cons entry entries ih =>
    have rest := ih fun other member => allPresent other (List.mem_cons_of_mem _ member)
    obtain ⟨item, stored⟩ :=
      Option.isSome_iff_exists.mp (allPresent entry List.mem_cons_self)
    simp only [itemsOf] at rest
    simp [itemsOf, stored, rest, own _ _ stored]

theorem count_itemsOf_shownEntries (own : listing.OwnIds contents) (id : Uuid) :
    ((listing.itemsOf contents (listing.shownEntries contents index limit)).map
        listing.idOf).count id = 1 ↔
      ∃ entry ∈ listing.shownEntries contents index limit, memberOf entry = id := by
  have sublist := listing.shownEntries_sublist contents index limit
  have allPresent (entry : Int ×ₗ Uuid)
      (member : entry ∈ listing.shownEntries contents index limit) :
      listing.present contents entry = true :=
    (List.mem_filter.mp (sublist.subset member)).2
  have nodup : ((listing.shownEntries contents index limit).map memberOf).Nodup := by
    have all : ((contents.sets index).entries.reverse.map memberOf).Nodup := by
      rw [List.map_reverse]
      exact List.nodup_reverse.mpr (contents.sets index).nodup
    exact all.sublist ((sublist.trans List.filter_sublist).map _)
  rw [listing.map_idOf_itemsOf own allPresent, nodup.count]
  simp

theorem shownEntries_eq_iff :
    (listing.shownEntries contents index limit =
        (contents.sets index).entries.reverse.filter (listing.present contents)) ↔
      ∀ id ∈ (contents.sets index).members, (listing.stored contents id).isSome = true →
        ∃ entry ∈ listing.shownEntries contents index limit, memberOf entry = id := by
  have sublist := listing.shownEntries_sublist contents index limit
  constructor
  · intro all id member stored
    obtain ⟨entry, listed, rfl⟩ := List.mem_map.mp member
    refine ⟨entry, ?_, rfl⟩
    rw [all, List.mem_filter]
    exact ⟨List.mem_reverse.mpr listed, stored⟩
  · intro each
    have nodup : ((contents.sets index).entries.reverse.filter
        (listing.present contents)).Nodup :=
      (List.nodup_reverse.mpr (contents.sets index).nodup.of_map).sublist List.filter_sublist
    have subset : (contents.sets index).entries.reverse.filter (listing.present contents) ⊆
        listing.shownEntries contents index limit := by
      intro entry member
      obtain ⟨listed, isPresent⟩ := List.mem_filter.mp member
      have here := List.mem_reverse.mp listed
      obtain ⟨other, shown, same⟩ := each (memberOf entry) (List.mem_map_of_mem here) isPresent
      have there := List.mem_reverse.mp (List.mem_of_mem_filter (sublist.subset shown))
      rwa [← eq_of_memberOf there here same]
    exact sublist.eq_of_length_le (List.subperm_of_subset nodup subset).length_le

/-- Paging through an index ends, and returns every member that has its document exactly once if and
only if the index can be paged through; every member at all, if also all have their documents. -/
theorem pages_complete_iff_paged (own : listing.OwnIds contents) (index : MemoryIndex)
    (positive : 0 < limit) :
    ∃ items, (∀ fuel, (contents.sets index).members.length < fuel → ∀ inputs,
        (∀ position, (inputs position).failure = none) →
          (Program.eval exec (listing.allPages index limit fuel none) inputs contents).1 =
            .ok items) ∧
      ((∀ id ∈ (contents.sets index).members, (listing.stored contents id).isSome = true →
          (items.map listing.idOf).count id = 1) ↔
        Paged scoreOf (listing.present contents) limit (contents.sets index).entries.reverse) ∧
      ((∀ id ∈ (contents.sets index).members, (items.map listing.idOf).count id = 1) ↔
        (∀ id ∈ (contents.sets index).members, (listing.stored contents id).isSome = true) ∧
          Paged scoreOf (listing.present contents) limit
            (contents.sets index).entries.reverse) := by
  have complete : (∀ id ∈ (contents.sets index).members,
      (listing.stored contents id).isSome = true →
        ∃ entry ∈ listing.shownEntries contents index limit, memberOf entry = id) ↔
      Paged scoreOf (listing.present contents) limit (contents.sets index).entries.reverse := by
    rw [← shownEntries_eq_iff]
    exact Pagination.pages_eq_iff (contents.sets index).descending (by simp)
  refine ⟨listing.itemsOf contents (listing.shownEntries contents index limit), ?_, ?_, ?_⟩
  · intro fuel enough inputs calm
    have entries : (contents.sets index).entries.reverse.length < fuel := by
      simpa [SortedSet.members] using enough
    have reads := listing.reads_allPages own positive fuel
      (show Translates contents index none none from trivial)
    have same : pages scoreOf (listing.present contents) limit fuel
        (restBelow contents index none) = listing.shownEntries contents index limit :=
      Pagination.pages_of_enough entries (by simp [restBelow])
    rw [same] at reads
    have quiet : ∀ position, Quiet (inputs position) := calm
    rcases (reads.eval quiet).2 with given | ⟨faulty, _⟩
    · exact given
    · exact absurd faulty not_faulty_quiet
  · simp only [count_itemsOf_shownEntries listing own]
    exact complete
  · simp only [count_itemsOf_shownEntries listing own]
    rw [← complete]
    constructor
    · intro each
      refine ⟨fun id member => ?_, fun id member _ => each id member⟩
      obtain ⟨entry, shown, rfl⟩ := each id member
      exact (List.mem_filter.mp ((listing.shownEntries_sublist contents index limit).subset
        shown)).2
    · rintro ⟨stored, each⟩ id member
      exact each id member (stored id member)

/-- An entity that was created at the epoch. -/
def atEpoch (id : Uuid) : Entity :=
  { id, userId := 9, name := id.toText, entityType := .concept, summary := none,
    classification := .internal, mentionCount := 1, createdAt := 0, updatedAt := 0 }

/-- Two entities that were created in the same millisecond. -/
def sameInstant : MemoryContents :=
  ((emptyMemory.put (.entity 1) (atEpoch 1)).put (.entity 2) (atEpoch 2)).withSet (.userEntities 9)
    ((SortedSet.empty.insert 1 0).insert 2 0)

/-- Nothing fails. -/
def quiet : MemoryInput :=
  { failure := none, now := 0, id := 0, answer := fun _ => .error .unauthorized }

theorem own_sameInstant : entities.OwnIds sameInstant := by
  intro id item stored
  by_cases second : id = 2
  · subst second
    have held : entities.stored sameInstant 2 = some (atEpoch 2) := rfl
    rw [← Option.some.inj (held.symm.trans stored)]
    rfl
  · by_cases first : id = 1
    · subst first
      have held : entities.stored sameInstant 1 = some (atEpoch 1) := rfl
      rw [← Option.some.inj (held.symm.trans stored)]
      rfl
    · have absent : sameInstant.docs (.entity id) = none :=
        (Database.Contents.docs_put_of_ne _ (by simpa using second) _).trans
          (Database.Contents.docs_put_of_ne _ (by simpa using first) _)
      exact nomatch absent.symm.trans stored

/-- A page of two shows both. -/
theorem pages_complete_iff_paged_sameInstant :
    ∃ items, (Program.eval exec (entities.allPages (.userEntities 9) 2 3 none) (fun _ => quiet)
        sameInstant).1 = .ok items ∧
      ∀ id ∈ (sameInstant.sets (.userEntities 9)).members,
        (items.map entities.idOf).count id = 1 := by
  obtain ⟨items, gives, _, complete⟩ :=
    pages_complete_iff_paged entities own_sameInstant (.userEntities 9) (by decide : 0 < 2)
  refine ⟨items, gives 3 (by decide) _ fun _ => rfl, complete.mpr ⟨by decide, ?_⟩⟩
  exact .page rfl (by decide) (.nothing (by decide))

/-- With pages of one the older identifier is never shown. -/
theorem equal_score_cut_off :
    ∃ items, (∀ fuel, 2 < fuel → (Program.eval exec
        (entities.allPages (.userEntities 9) 1 fuel none) (fun _ => quiet) sameInstant).1 =
          .ok items) ∧
      ¬ ∀ id ∈ (sameInstant.sets (.userEntities 9)).members,
        (items.map entities.idOf).count id = 1 := by
  refine ⟨[atEpoch 2], fun fuel enough => ?_, by decide⟩
  obtain ⟨more, rfl⟩ := Nat.exists_eq_add_of_le' enough
  rfl

end Listing
end Memory
end Mnemo
