import Mnemo.Graph.Routes
import Mnemo.Lib.Dense

/-!
# Listing the entities of a type

A remote call lists the entities of a user page by page.  Where a type is asked for, pages of the
store are read until enough entities of that type are found; the next page of the store is read on
from the last of these.
-/

namespace Mnemo
namespace Graph

open Memory
open Auth (ApiKeyRole CallerContext)

/-- The entities of a user as the store lists them. -/
abbrev EntityListing := Listing Entity.id

/-- The size of a page. -/
structure PageLimit where
  value : ℕ
  positive : 0 < value

/-- A request for the entities of a user. -/
structure ListEntitiesRequest where
  userId : String
  limit : Option Int
  entityType : Option String
  after : Option String

/-- A page of entities, and the cursor of the next one. -/
structure ListEntitiesResponse where
  entities : List Entity
  nextCursor : Option String

/-- The kind that a text names; an unknown one is a kind of its own. -/
def EntityType.fromStrFlexible (unicode : Unicode) (text : String) : EntityType :=
  let lower := unicode.toLowercase text
  if lower = "person" then .person
  else if lower = "organization" ∨ lower = "org" ∨ lower = "company" then .organization
  else if lower = "product" then .product
  else if lower = "location" ∨ lower = "place" then .location
  else if lower = "event" then .event
  else if lower = "concept" ∨ lower = "idea" ∨ lower = "topic" then .concept
  else .custom lower

/-- The size of a page that a request asks for: from 1 to 500. -/
def clampLimit (limit : Option Int) : PageLimit where
  value := (max 1 (min (limit.getD 20) 500)).toNat
  positive := by omega

/-- Collect the entities of a type until there are enough. -/
def gather (entityType : EntityType) (limit : PageLimit) : List Entity → List Entity → List Entity
  | collected, [] => collected
  | collected, entity :: batch =>
      if entity.entityType = entityType then
        let collected := collected ++ [entity]
        if limit.value ≤ collected.length then collected
        else gather entityType limit collected batch
      else gather entityType limit collected batch

/-- Read pages of the store until enough entities of a type are collected or a page is not full;
`none` if the fuel runs out. -/
def collect (listing : EntityListing) (entityType : EntityType) (limit : PageLimit) :
    (fuel : ℕ) → Option Uuid → List Entity → Option (List Entity)
  | 0, _, _ => none
  | fuel + 1, cursor, collected =>
      let batch := (listing.after cursor).take limit.value
      let collected := gather entityType limit collected batch
      if limit.value ≤ collected.length ∨ batch.length < limit.value then some collected
      else collect listing entityType limit fuel (collected.getLast?.map Entity.id) collected

/-- One page of entities. -/
def listPage (listing : EntityListing) (typeFilter : Option EntityType) (limit : PageLimit)
    (fuel : ℕ) (after : Option Uuid) : Option (List Entity) :=
  match typeFilter with
  | some entityType => collect listing entityType limit fuel after []
  | none => some ((listing.after after).take limit.value)

/-- The cursor behind a full page. -/
def nextCursor (limit : PageLimit) (filtered : List Entity) : Option Uuid :=
  if filtered.length = limit.value then filtered.getLast?.map Entity.id else none

/-- Read an identifier. -/
def readUuid (parseUuid : String → Option Uuid) (text field : String) : Except Status Uuid :=
  match parseUuid text with
  | some id => .ok id
  | none => .error (.invalidArgument ("invalid UUID for " ++ field ++ ": " ++ text))

/-- The remote call; `none` is a call that does not return within the fuel. -/
def listEntities (parseUuid : String → Option Uuid) (unicode : Unicode)
    (store : Uuid → EntityListing) (fuel : ℕ) (caller : CallerContext)
    (request : ListEntitiesRequest) : Except Status (Option ListEntitiesResponse) := do
  (caller.requireRole .read).mapError fun error => Status.permissionDenied error.message
  let userId ← readUuid parseUuid request.userId "user_id"
  (caller.requireUserAccess userId).mapError fun _ =>
    Status.notFound ("user " ++ userId.toText ++ " not found")
  let limit := clampLimit request.limit
  let after ← ((request.after.filter (· ≠ "")).mapM fun text => readUuid parseUuid text "after")
  let typeFilter := request.entityType.map (EntityType.fromStrFlexible unicode)
  pure ((listPage (store userId) typeFilter limit fuel after).map fun filtered =>
    ⟨filtered, (nextCursor limit filtered).map Uuid.toText⟩)

/-- Follow the cursors until there is none; `none` if the fuel runs out. -/
def followCursors (listing : EntityListing) (entityType : EntityType) (limit : PageLimit) :
    (fuel : ℕ) → Option Uuid → Option (List Entity)
  | 0, _ => none
  | fuel + 1, cursor =>
      (collect listing entityType limit fuel cursor []).bind fun filtered =>
        match nextCursor limit filtered with
        | none => some filtered
        | some next =>
            (followCursors listing entityType limit fuel (some next)).map (filtered ++ ·)

/-! ## What is collected -/

/-- Whether an entity is of a type. -/
def IsOf (entityType : EntityType) (entity : Entity) : Bool :=
  decide (entity.entityType = entityType)

section Collect

variable {listing : EntityListing} {entityType : EntityType} {limit : PageLimit}

theorem gather_eq {collected : List Entity} (few : collected.length < limit.value)
    (batch : List Entity) :
    gather entityType limit collected batch =
      collected ++ (batch.filter (IsOf entityType)).take (limit.value - collected.length) := by
  induction batch generalizing collected with
  | nil => simp [gather]
  | cons entity batch ih =>
    by_cases same : entity.entityType = entityType
    · have accepted : IsOf entityType entity = true := decide_eq_true same
      have one : limit.value - collected.length =
          limit.value - (collected ++ [entity]).length + 1 := by
        simp only [List.length_append, List.length_singleton]
        omega
      rw [gather, if_pos same, List.filter_cons_of_pos accepted, one, List.take_succ_cons]
      by_cases enough : limit.value ≤ (collected ++ [entity]).length
      · rw [Nat.sub_eq_zero_of_le enough, List.take_zero]
        exact if_pos enough
      · have more := ih (Nat.lt_of_not_le enough)
        rw [List.append_assoc] at more
        exact (if_neg enough).trans more
    · have refused : ¬IsOf entityType entity = true := by simpa [IsOf] using same
      rw [gather, if_neg same, List.filter_cons_of_neg refused, ih few]

theorem collect_succ (listing : EntityListing) (cursor : Option Uuid) {collected more : List Entity}
    (few : collected.length < limit.value)
    (page : (((listing.after cursor).take limit.value).filter (IsOf entityType)).take
      (limit.value - collected.length) = more) (fuel : ℕ) :
    collect listing entityType limit (fuel + 1) cursor collected =
      if limit.value ≤ (collected ++ more).length ∨
          ((listing.after cursor).take limit.value).length < limit.value then
        some (collected ++ more)
      else collect listing entityType limit fuel ((collected ++ more).getLast?.map Entity.id)
        (collected ++ more) := by
  rw [collect, gather_eq few, page]

/-- One round of collecting: it is done, or it goes on behind the last match of a full page, or a
full page has no match. -/
theorem round_cases (listing : EntityListing) (entityType : EntityType) (limit : PageLimit)
    (cursor : Option Uuid) {collected : List Entity} (few : collected.length < limit.value) :
    (∀ fuel, collect listing entityType limit (fuel + 1) cursor collected =
        some (collected ++ ((listing.after cursor).filter (IsOf entityType)).take
          (limit.value - collected.length)) ∧
      Dense.Upto limit.value (IsOf entityType) (limit.value - collected.length)
        (listing.after cursor)) ∨
    (∃ front last, listing.after cursor = front ++ last :: listing.after (some last.id) ∧
      IsOf entityType last = true ∧ front.length < limit.value ∧
        (collected ++ front.filter (IsOf entityType) ++ [last]).length < limit.value ∧
          ∀ fuel, collect listing entityType limit (fuel + 1) cursor collected =
            collect listing entityType limit fuel (some last.id)
              (collected ++ front.filter (IsOf entityType) ++ [last])) ∨
    (limit.value ≤ (listing.after cursor).length ∧
      (∀ entity ∈ (listing.after cursor).take limit.value, IsOf entityType entity = false) ∧
        ∀ fuel, collect listing entityType limit (fuel + 1) cursor collected =
          collect listing entityType limit fuel (collected.getLast?.map Entity.id) collected) := by
  by_cases enough : limit.value - collected.length ≤
      (((listing.after cursor).take limit.value).filter (IsOf entityType)).length
  · -- The page has all that is missing.
    refine .inl fun fuel => ⟨?_, Dense.upto_of_page enough⟩
    rw [collect_succ listing cursor few (Dense.take_filter_of_page enough).symm fuel, if_pos]
    left
    rw [List.length_append, Dense.take_filter_of_page enough, List.length_take_of_le enough]
    omega
  · have round := collect_succ listing cursor few
      (List.take_of_length_le (Nat.le_of_not_le enough))
    have missing : ¬limit.value ≤ (collected ++
        ((listing.after cursor).take limit.value).filter (IsOf entityType)).length := by
      rw [List.length_append]
      omega
    by_cases short : (listing.after cursor).length < limit.value
    · -- The page is the last one.
      have all : (listing.after cursor).take limit.value = listing.after cursor :=
        List.take_of_length_le short.le
      rw [all] at enough round
      refine .inl fun fuel => ⟨?_, (Dense.throughout_of_short short).upto _⟩
      rw [round fuel, if_pos (.inr short), List.take_of_length_le (Nat.le_of_not_le enough)]
    · have full : ¬((listing.after cursor).take limit.value).length < limit.value := by
        rw [List.length_take]
        omega
      have goesOn (fuel : ℕ) := (round fuel).trans (if_neg (not_or.mpr ⟨missing, full⟩))
      by_cases found : ∃ entity ∈ (listing.after cursor).take limit.value,
          IsOf entityType entity = true
      · obtain ⟨front, last, back, split, accepted, near, matches_eq⟩ :=
          Dense.exists_last_of_page found
        refine .inr (.inl ⟨front, last, ?_, accepted, near, ?_, fun fuel => ?_⟩)
        · rw [listing.after_of_split split, split]
        · rw [matches_eq] at missing
          simpa [Nat.add_assoc] using missing
        · rw [goesOn fuel, matches_eq, ← List.append_assoc, List.getLast?_concat]
          rfl
      · have none : ∀ entity ∈ (listing.after cursor).take limit.value,
            IsOf entityType entity = false := by simpa using found
        have nothing : ((listing.after cursor).take limit.value).filter (IsOf entityType) = [] := by
          simpa using none
        refine .inr (.inr ⟨Nat.le_of_not_lt short, none, fun fuel => ?_⟩)
        rw [goesOn fuel, nothing, List.append_nil]

theorem collected_split {collected front : List Entity} {last : Entity} (back : List Entity)
    (accepted : IsOf entityType last = true)
    (few : (collected ++ front.filter (IsOf entityType) ++ [last]).length < limit.value) :
    collected ++ ((front ++ last :: back).filter (IsOf entityType)).take
        (limit.value - collected.length) =
      collected ++ front.filter (IsOf entityType) ++ [last] ++
        (back.filter (IsOf entityType)).take (limit.value -
          (collected ++ front.filter (IsOf entityType) ++ [last]).length) := by
  have parts : (front ++ last :: back).filter (IsOf entityType) =
      (front.filter (IsOf entityType) ++ [last]) ++ back.filter (IsOf entityType) := by
    simp [accepted]
  have count : limit.value - collected.length =
      (front.filter (IsOf entityType) ++ [last]).length + (limit.value -
        (collected ++ front.filter (IsOf entityType) ++ [last]).length) := by
    simp only [List.length_append] at few ⊢
    omega
  rw [parts, count, List.take_length_add_append]
  simp only [List.append_assoc]

theorem upto_split {collected front : List Entity} {last : Entity} (back : List Entity)
    (near : front.length < limit.value) (accepted : IsOf entityType last = true) :
    Dense.Upto limit.value (IsOf entityType) (limit.value - collected.length)
        (front ++ last :: back) ↔
      Dense.Upto limit.value (IsOf entityType) (limit.value -
        (collected ++ front.filter (IsOf entityType) ++ [last]).length) back := by
  rw [Dense.upto_append_cons near accepted]
  simp only [List.length_append, List.length_singleton, Nat.sub_sub, Nat.add_assoc]

theorem collect_of_dense {fuel : ℕ} {cursor : Option Uuid} {collected : List Entity}
    (few : collected.length < limit.value)
    (dense : Dense.Upto limit.value (IsOf entityType) (limit.value - collected.length)
      (listing.after cursor)) (enough : (listing.after cursor).length < fuel) :
    collect listing entityType limit fuel cursor collected =
      some (collected ++ ((listing.after cursor).filter (IsOf entityType)).take
        (limit.value - collected.length)) := by
  induction fuel generalizing cursor collected with
  | zero => exact absurd enough (Nat.not_lt_zero _)
  | succ fuel ih =>
    rcases round_cases listing entityType limit cursor few with
      done | ⟨front, last, split, accepted, near, more, next⟩ | ⟨full, none, -⟩
    · exact (done fuel).1
    · rw [split, upto_split _ near accepted] at dense
      rw [split, List.length_append, List.length_cons] at enough
      rw [next fuel, ih more dense (by omega), split, collected_split _ accepted more]
    · obtain ⟨entity, member, accepted⟩ := dense.exists_mem_take (by omega) full
      exact absurd accepted (by simp [none entity member])

theorem collect_eq_some {cursor : Option Uuid} {collected result : List Entity} {fuel : ℕ}
    (few : collected.length < limit.value)
    (anchored : collected.getLast?.map Entity.id = cursor)
    (returned : collect listing entityType limit fuel cursor collected = some result) :
    Dense.Upto limit.value (IsOf entityType) (limit.value - collected.length)
        (listing.after cursor) ∧
      result = collected ++ ((listing.after cursor).filter (IsOf entityType)).take
        (limit.value - collected.length) := by
  induction fuel generalizing cursor collected with
  | zero => exact nomatch returned
  | succ fuel ih =>
    rcases round_cases listing entityType limit cursor few with
      done | ⟨front, last, split, accepted, near, more, next⟩ | ⟨-, -, again⟩
    · exact ⟨(done fuel).2, Option.some.inj (returned.symm.trans (done fuel).1)⟩
    · rw [next fuel] at returned
      obtain ⟨dense, same⟩ := ih more (by simp) returned
      rw [split, upto_split _ near accepted, collected_split _ accepted more]
      exact ⟨dense, same⟩
    · -- The cursor has not moved.
      rw [again fuel, anchored] at returned
      exact ih few anchored returned

theorem collect_cases {cursor : Option Uuid} {result : List Entity} {fuel : ℕ}
    (returned : collect listing entityType limit fuel cursor [] = some result) :
    (Dense.Upto limit.value (IsOf entityType) limit.value (listing.after cursor) ∧
        result = ((listing.after cursor).filter (IsOf entityType)).take limit.value) ∨
      (limit.value ≤ (listing.after cursor).length ∧
        (∀ entity ∈ (listing.after cursor).take limit.value, IsOf entityType entity = false) ∧
          Dense.Upto limit.value (IsOf entityType) limit.value listing.entries ∧
            result = (listing.entries.filter (IsOf entityType)).take limit.value) := by
  cases fuel with
  | zero => exact nomatch returned
  | succ fuel =>
    have few : ([] : List Entity).length < limit.value := limit.positive
    rcases round_cases listing entityType limit cursor few with
      done | ⟨front, last, split, accepted, near, more, next⟩ | ⟨full, none, again⟩
    · exact .inl ⟨(done fuel).2, Option.some.inj (returned.symm.trans (done fuel).1)⟩
    · rw [next fuel] at returned
      obtain ⟨dense, same⟩ := collect_eq_some more (by simp) returned
      rw [split]
      exact .inl ⟨(@upto_split _ _ [] front last _ near accepted).mpr dense,
        same.trans (@collected_split _ _ [] front last _ accepted more).symm⟩
    · rw [again fuel] at returned
      obtain ⟨dense, same⟩ := collect_eq_some few rfl returned
      rw [List.getLast?_nil, Option.map_none, listing.after_none] at dense same
      exact .inr ⟨full, none, dense, same⟩

theorem exists_foreign {cursor : Option Uuid} (full : limit.value ≤ (listing.after cursor).length)
    (none : ∀ entity ∈ (listing.after cursor).take limit.value, IsOf entityType entity = false)
    (dense : Dense.Upto limit.value (IsOf entityType) limit.value listing.entries) :
    ∃ entity ∈ (listing.entries.filter (IsOf entityType)).take limit.value,
      entity ∉ listing.after cursor := by
  obtain ⟨before, whole⟩ := listing.after_suffix cursor
  have long : limit.value ≤ listing.entries.length := by
    rw [← whole, List.length_append]
    omega
  obtain ⟨entity, early, accepted⟩ := dense.exists_mem_take limit.positive long
  refine ⟨entity, ?_, fun behind => ?_⟩
  · have all := @Dense.take_filter_of_page _ limit.value (IsOf entityType) _ listing.entries le_rfl
    have page : entity ∈ (listing.entries.filter (IsOf entityType)).take
        ((listing.entries.take limit.value).filter (IsOf entityType)).length := by
      rw [all, List.take_length]
      exact List.mem_filter.mpr ⟨early, accepted⟩
    have short : ((listing.entries.take limit.value).filter (IsOf entityType)).length ≤
        limit.value :=
      (List.length_filter_le _ _).trans (List.length_take_le _ _)
    exact List.take_subset_take_left _ short page
  · rw [← List.take_append_drop limit.value (listing.after cursor)] at behind
    rcases List.mem_append.mp behind with first | later
    · exact absurd accepted (by simp [none entity first])
    · have further : entity ∈ listing.entries.drop (before.length + limit.value) := by
        rw [← whole, List.drop_append, Nat.add_sub_cancel_left]
        exact List.mem_append_right _ later
      have apart := List.disjoint_take_drop listing.entries_nodup
        (Nat.le_add_left limit.value before.length)
      exact apart early further

theorem page_iff {cursor : Option Uuid} :
    (∃ fuel, listPage listing (some entityType) limit fuel cursor =
      some (((listing.after cursor).filter (IsOf entityType)).take limit.value)) ↔
      Dense.Upto limit.value (IsOf entityType) limit.value (listing.after cursor) := by
  constructor
  · rintro ⟨fuel, returned⟩
    rcases collect_cases returned with ⟨dense, -⟩ | ⟨full, none, dense, same⟩
    · exact dense
    · obtain ⟨entity, found, foreign⟩ := exists_foreign full none dense
      rw [← same] at found
      exact (foreign (List.mem_filter.mp (List.mem_of_mem_take found)).1).elim
  · intro dense
    exact ⟨_, @collect_of_dense _ _ _ _ cursor [] limit.positive dense (Nat.lt_succ_self _)⟩

end Collect

/-- What a listing with a type promises from a cursor on: a page of the first entities of the type,
and all of them once the cursors are followed to the end. -/
structure Lists (listing : EntityListing) (entityType : EntityType) (limit : PageLimit)
    (cursor : Option Uuid) : Prop where
  page : ∃ fuel, listPage listing (some entityType) limit fuel cursor =
    some (((listing.after cursor).filter (IsOf entityType)).take limit.value)
  all : ∃ fuel, followCursors listing entityType limit fuel cursor =
    some ((listing.after cursor).filter (IsOf entityType))

section Follow

variable {listing : EntityListing} {entityType : EntityType} {limit : PageLimit}

theorem page_cases (listing : EntityListing) (entityType : EntityType) (limit : PageLimit)
    (cursor : Option Uuid) :
    (((listing.after cursor).filter (IsOf entityType)).length < limit.value ∧
      nextCursor limit (((listing.after cursor).filter (IsOf entityType)).take limit.value) =
        none) ∨
    ∃ front last, listing.after cursor = front ++ last :: listing.after (some last.id) ∧
      IsOf entityType last = true ∧ (front.filter (IsOf entityType)).length < limit.value ∧
        ((listing.after cursor).filter (IsOf entityType)).take limit.value =
          front.filter (IsOf entityType) ++ [last] ∧
        nextCursor limit (front.filter (IsOf entityType) ++ [last]) = some last.id := by
  by_cases few : ((listing.after cursor).filter (IsOf entityType)).length < limit.value
  · refine .inl ⟨few, if_neg ?_⟩
    rw [List.length_take]
    omega
  · have positive := limit.positive
    have many : limit.value - 1 < ((listing.after cursor).filter (IsOf entityType)).length := by
      omega
    obtain ⟨front, last, back, split, accepted, count⟩ := Dense.exists_nth_match many
    have page : ((listing.after cursor).filter (IsOf entityType)).take limit.value =
        front.filter (IsOf entityType) ++ [last] := by
      have parts : (listing.after cursor).filter (IsOf entityType) =
          (front.filter (IsOf entityType) ++ [last]) ++ back.filter (IsOf entityType) := by
        simp [split, accepted]
      rw [parts]
      exact List.take_left' (by rw [List.length_append, count, List.length_singleton]; omega)
    refine .inr ⟨front, last, ?_, accepted, by omega, page, ?_⟩
    · rw [listing.after_of_split split, split]
    · rw [nextCursor, if_pos, List.getLast?_concat]
      · rfl
      · rw [List.length_append, count, List.length_singleton]
        omega

theorem followCursors_of_dense {fuel : ℕ} {cursor : Option Uuid}
    (dense : Dense.Throughout limit.value (IsOf entityType) (listing.after cursor))
    (enough : (listing.after cursor).length + 1 < fuel) :
    followCursors listing entityType limit fuel cursor =
      some ((listing.after cursor).filter (IsOf entityType)) := by
  induction fuel generalizing cursor with
  | zero => exact absurd enough (Nat.not_lt_zero _)
  | succ fuel ih =>
    have page := @collect_of_dense listing entityType limit fuel cursor [] limit.positive
      (dense.upto _) (Nat.lt_of_succ_lt_succ enough)
    rw [followCursors, page, Option.bind_some, List.nil_append, List.length_nil, Nat.sub_zero]
    rcases page_cases listing entityType limit cursor with
      ⟨few, last⟩ | ⟨front, last, split, accepted, -, whole, next⟩
    · rw [last, List.take_of_length_le few.le]
    · have behind : Dense.Throughout limit.value (IsOf entityType)
          (listing.after (some last.id)) := by
        intro before window after rest long
        exact dense (front ++ last :: before) window after (by rw [split, rest]; simp) long
      rw [split, List.length_append, List.length_cons] at enough
      rw [whole]
      simp only [next, ih behind (by omega), Option.map_some]
      rw [split]
      simp [accepted]

/-- If following the cursors lists everything of the type, there was no long gap. -/
theorem dense_of_followCursors {fuel : ℕ} {cursor : Option Uuid}
    (listed : followCursors listing entityType limit fuel cursor =
      some ((listing.after cursor).filter (IsOf entityType))) :
    Dense.Throughout limit.value (IsOf entityType) (listing.after cursor) := by
  induction fuel generalizing cursor with
  | zero => exact nomatch listed
  | succ fuel ih =>
    rw [followCursors] at listed
    obtain ⟨page, returned, rest⟩ := Option.bind_eq_some_iff.mp listed
    have inside : ∀ entity ∈ page, entity ∈ listing.after cursor := by
      intro entity member
      have among : entity ∈ (listing.after cursor).filter (IsOf entityType) := by
        cases next : nextCursor limit page with
        | none =>
          rw [next] at rest
          exact Option.some.inj rest ▸ member
        | some last =>
          rw [next] at rest
          obtain ⟨more, -, whole⟩ := Option.map_eq_some_iff.mp rest
          exact whole ▸ List.mem_append_left more member
      exact (List.mem_filter.mp among).1
    rcases collect_cases returned with ⟨dense, same⟩ | ⟨full, none, dense, same⟩
    · subst same
      rcases page_cases listing entityType limit cursor with
        ⟨few, -⟩ | ⟨front, last, split, accepted, count, whole, next⟩
      · exact dense.throughout few
      · rw [whole] at rest
        simp only [next] at rest
        obtain ⟨more, followed, total⟩ := Option.map_eq_some_iff.mp rest
        have parts : (listing.after cursor).filter (IsOf entityType) =
            (front.filter (IsOf entityType) ++ [last]) ++
              (listing.after (some last.id)).filter (IsOf entityType) := by
          rw [split]
          simp [accepted]
        rw [parts] at total
        rw [List.append_cancel_left total] at followed
        rw [split] at dense ⊢
        exact Dense.throughout_split count dense (ih followed)
    · obtain ⟨entity, found, foreign⟩ := exists_foreign full none dense
      rw [← same] at found
      exact (foreign (inside entity found)).elim

end Follow

/-- The listing keeps its promise exactly if, behind the cursor, no page of entities in a row is
free of the type. -/
theorem lists_iff (listing : EntityListing) (entityType : EntityType) (limit : PageLimit)
    (cursor : Option Uuid) :
    Lists listing entityType limit cursor ↔
      Dense.Throughout limit.value (IsOf entityType) (listing.after cursor) := by
  constructor
  · rintro ⟨-, fuel, listed⟩
    exact dense_of_followCursors listed
  · intro dense
    exact ⟨page_iff.mpr (dense.upto _), _, followCursors_of_dense dense (Nat.lt_succ_self _)⟩

/-- An organization, and behind it a person. -/
def organizationAndPerson : List Entity :=
  [⟨2, 0, "Acme", .organization, none, .internal, 1, 2, 2⟩,
    ⟨1, 0, "Ada", .person, none, .internal, 1, 1, 1⟩]

/-- With pages of one entity, the person is never listed. -/
theorem person_not_listed :
    let listing : EntityListing := Listing.ofEntries organizationAndPerson (by decide)
    ¬Lists listing .person ⟨1, Nat.one_pos⟩ none ∧
      ∀ fuel, listPage listing (some .person) ⟨1, Nat.one_pos⟩ fuel none = none := by
  intro listing
  have stuck (fuel : ℕ) :
      listPage listing (some .person) ⟨1, Nat.one_pos⟩ fuel none = none := by
    induction fuel with
    | zero => rfl
    | succ fuel ih => exact ih
  refine ⟨fun lists => ?_, stuck⟩
  obtain ⟨fuel, returned⟩ := lists.page
  exact nomatch (stuck fuel).symm.trans returned

end Graph
end Mnemo
