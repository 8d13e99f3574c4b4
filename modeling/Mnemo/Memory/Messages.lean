import Mnemo.Memory.EpisodeStore
import Mnemo.Memory.Pagination

/-!
# The messages of a session

A client lists a page of the messages of a session, numbered from the oldest one of the page, and
deletes a message by its number.  The deletion counts from the oldest one of the session instead.
-/

namespace Mnemo
namespace Memory

open Database (exec)
open Program (Ensures)
open SortedSet (scoreOf memberOf)

/-! ## Requests -/

/-- The name of a role in a response. -/
def MessageRole.name : MessageRole → String
  | .user => "user"
  | .assistant => "assistant"
  | .system => "system"
  | .tool => "tool"

/-- A message in a response. -/
structure MessageRecord where
  idx : Nat
  id : Uuid
  role : Option String
  content : String
  createdAt : DateTime

/-- The message of an episode at a position. -/
def Episode.record (idx : Nat) (episode : Episode) : MessageRecord :=
  { idx
    id := episode.id
    role := episode.role.map MessageRole.name
    content := episode.content
    createdAt := episode.createdAt }

/-- How many messages a page has; the limit that stands for none is replaced. -/
def pageLimit (limit : Nat) : Nat := max 1 (min 1000 (if limit = 20 then 100 else limit))

/-- A page of the messages of a session, the oldest one first. -/
def getSessionMessages (sessionId : Uuid) (limit : Nat) (after : Option Uuid) :
    MemoryProgram (List MessageRecord) := do
  let episodes ← listEpisodesWith sessionId { limit := pageLimit limit, after, status := none }
  return episodes.reverse.mapIdx Episode.record

/-- How many messages a deletion looks at. -/
def deletionLimit : Nat := 10000

/-- Delete the message with a number. -/
def deleteSessionMessageByIdx (sessionId : Uuid) (idx : Nat) : MemoryProgram Unit := do
  let episodes ← listEpisodesWith sessionId { limit := deletionLimit, after := none, status := none }
  match episodes.reverse[idx]? with
  | none => .fail (.validation ("Index " ++ toString idx ++ " out of range — session has " ++
      toString episodes.length ++ " messages"))
  | some episode => deleteEpisode episode.id

/-! ## Positions in a session -/

namespace Listing

theorem quietlyReads_readEpisode (contents : MemoryContents) (id : Uuid) :
    QuietlyReads (contents.docs (.episode id)) (readEpisode id) contents :=
  Database.readsAs_get (MemoryKey.episode id) trivial

/-- Episodes are listed by session. -/
def episodes : Listing Episode where
  read := readEpisode
  stored contents id := contents.docs (.episode id)
  idOf := Episode.id
  reads := quietlyReads_readEpisode

end Listing

section Positions

variable (contents : MemoryContents) (sessionId : Uuid)

/-- The entries of a session, newest first. -/
def newest : List (Int ×ₗ Uuid) := (contents.sets (.sessionEpisodes sessionId)).entries.reverse

/-- How many entries stand before a page; all of them do when its cursor is unknown. -/
def skipped : Option Uuid → Nat
  | none => 0
  | some cursor =>
      match (contents.sets (.sessionEpisodes sessionId)).score cursor with
      | none => (newest contents sessionId).length
      | some score =>
          ((newest contents sessionId).takeWhile fun entry => score ≤ scoreOf entry).length

/-- The episodes of some entries. -/
abbrev episodesOf (entries : List (Int ×ₗ Uuid)) : List Episode :=
  Listing.episodes.itemsOf contents entries

/-- The episodes of a page. -/
def shown (limit : Nat) (after : Option Uuid) : List Episode :=
  episodesOf contents
    (((newest contents sessionId).drop (skipped contents sessionId after)).take limit)

/-- The page shows nothing, or the newest entries up to its end show what those show at which a
deletion looks. -/
def ReachesBack (limit : Nat) (after : Option Uuid) : Prop :=
  shown contents sessionId (pageLimit limit) after = [] ∨
    episodesOf contents ((newest contents sessionId).take
      (skipped contents sessionId after + pageLimit limit)) =
    episodesOf contents ((newest contents sessionId).take deletionLimit)

variable {contents sessionId}

theorem pageLimit_pos (limit : Nat) : 0 < pageLimit limit := by
  unfold pageLimit
  omega

theorem filter_eq_drop {bound : Int} {entries : List (Int ×ₗ Uuid)}
    (descending : entries.Pairwise fun first second => scoreOf second ≤ scoreOf first) :
    (entries.filter fun entry => scoreOf entry < bound) =
      entries.drop (entries.takeWhile fun entry => bound ≤ scoreOf entry).length := by
  induction entries with
  | nil => rfl
  | cons entry entries ih =>
    obtain ⟨lower, rest⟩ := List.pairwise_cons.mp descending
    by_cases high : bound ≤ scoreOf entry
    · rw [List.filter_cons_of_neg (by simpa using high),
        List.takeWhile_cons_of_pos (by simpa using high), List.length_cons, List.drop_succ_cons]
      exact ih rest
    · rw [List.takeWhile_cons_of_neg (by simpa using high), List.length_nil, List.drop_zero]
      refine List.filter_eq_self.mpr fun other member => ?_
      have below : scoreOf other < bound := by
        rcases List.mem_cons.mp member with rfl | later
        · exact not_le.mp high
        · exact lt_of_le_of_lt (lower other later) (not_le.mp high)
      exact decide_eq_true below

theorem reads_page {limit : Nat} (positive : 0 < limit) (after : Option Uuid)
    (status : Option ProcessingStatus) :
    QuietlyReads (shown contents sessionId limit after)
      (listEpisodesWith sessionId { limit, after, status }) contents := by
  cases after with
  | none => exact @Listing.reads_listFromZset _ Listing.episodes contents _ limit positive none none trivial
  | some cursor =>
    unfold shown skipped
    dsimp only
    cases found : (contents.sets (.sessionEpisodes sessionId)).score cursor with
    | none =>
      have read : QuietlyReads ((contents.sets (.sessionEpisodes sessionId)).score cursor)
          (Redis.zscore (.sessionEpisodes sessionId) cursor) contents :=
        Database.readsAs_zscore _ cursor trivial
      rw [found] at read
      dsimp only
      rw [List.drop_length, List.take_nil]
      exact (read.andThen (.done [])).andThen (.done [])
    | some score =>
      have reads := @Listing.reads_listFromZset _ Listing.episodes contents
        (.sessionEpisodes sessionId) limit positive (some cursor) (some score) found
      rw [Listing.restBelow, filter_eq_drop (SortedSet.descending _)] at reads
      exact reads

theorem episodesOf_take (limit : Nat) (after : Option Uuid) :
    episodesOf contents ((newest contents sessionId).take
        (skipped contents sessionId after + limit)) =
      episodesOf contents ((newest contents sessionId).take (skipped contents sessionId after)) ++
        shown contents sessionId limit after := by
  rw [List.take_add]
  exact List.filterMap_append

theorem stored_of_mem (own : Listing.episodes.OwnIds contents) {entries : List (Int ×ₗ Uuid)}
    {episode : Episode} (member : episode ∈ episodesOf contents entries) :
    contents.docs (.episode episode.id) = some episode := by
  obtain ⟨entry, _, stored⟩ := List.mem_filterMap.mp member
  have same : episode.id = memberOf entry := own _ _ stored
  rw [same]
  exact stored

theorem ids_sublist (own : Listing.episodes.OwnIds contents) (entries : List (Int ×ₗ Uuid)) :
    ((episodesOf contents entries).map Episode.id).Sublist (entries.map memberOf) := by
  induction entries with
  | nil => exact List.Sublist.refl _
  | cons entry entries ih =>
    unfold episodesOf Listing.itemsOf at ih ⊢
    cases stored : Listing.episodes.stored contents (memberOf entry) with
    | none =>
      simp only [List.filterMap_cons, stored]
      exact ih.cons _
    | some episode =>
      have same : episode.id = memberOf entry := own _ _ stored
      simp only [List.filterMap_cons, stored, List.map_cons, same]
      exact ih.cons_cons _

theorem nodup_take (own : Listing.episodes.OwnIds contents) (count : Nat) :
    (episodesOf contents ((newest contents sessionId).take count)).Nodup := by
  have members : ((newest contents sessionId).map memberOf).Nodup := by
    rw [newest, List.map_reverse]
    exact List.nodup_reverse.mpr (contents.sets (.sessionEpisodes sessionId)).nodup
  have taken := members.sublist ((List.take_sublist count _).map memberOf)
  exact (taken.sublist (ids_sublist own _)).of_map

theorem episodesOf_start (first second : Nat) :
    episodesOf contents ((newest contents sessionId).take first) <+:
        episodesOf contents ((newest contents sessionId).take second) ∨
      episodesOf contents ((newest contents sessionId).take second) <+:
        episodesOf contents ((newest contents sessionId).take first) := by
  rcases le_total first second with le | le
  · exact .inl ((List.take_prefix_take_left le).filterMap _)
  · exact .inr ((List.take_prefix_take_left le).filterMap _)

/-! ## Numbers that agree -/

/-- The database without an episode. -/
def withoutEpisode (contents : MemoryContents) (episode : Episode) : MemoryContents :=
  let listed := contents.withSet (.sessionEpisodes episode.sessionId)
    ((contents.sets (.sessionEpisodes episode.sessionId)).erase episode.id)
  (listed.withSet .pendingEpisodes ((listed.sets .pendingEpisodes).erase episode.id)).remove
    (.episode episode.id)

/-- The message with a number is deleted when it is the one with an identifier, and nothing else
is. -/
def Deletes (contents : MemoryContents) (sessionId : Uuid) (idx : Nat) (id : Uuid) : Prop :=
  ∀ inputs, (∀ position, Quiet (inputs position)) →
    ∃ episode, contents.docs (.episode id) = some episode ∧
      (deleteSessionMessageByIdx sessionId idx).eval exec inputs contents =
        (.ok (), withoutEpisode contents episode)

/-- Each message of a page can be deleted by its number. -/
def NumbersAgree (contents : MemoryContents) (sessionId : Uuid) (limit : Nat)
    (after : Option Uuid) : Prop :=
  ∀ inputs, (∀ position, Quiet (inputs position)) → ∀ records,
    ((getSessionMessages sessionId limit after).eval exec inputs contents).1 = .ok records →
      ∀ record ∈ records, Deletes contents sessionId record.idx record.id

theorem ensures_deleteEpisode {episode : Episode}
    (stored : contents.docs (.episode episode.id) = some episode) :
    Ensures exec Quiet (fun _ _ => True)
      (fun outcome final => outcome = .ok () ∧ final = withoutEpisode contents episode)
      (deleteEpisode episode.id) contents := by
  have read : QuietlyReads (contents.docs (.episode episode.id)) (Redis.get (.episode episode.id))
      contents := Database.readsAs_get _ trivial
  rw [stored] at read
  have found : QuietlyReads episode (getEpisode episode.id) contents :=
    read.andThen (.done episode)
  refine found.bind ?_ fun _ faulty => absurd faulty not_faulty_quiet
  refine .perform trivial fun input quiet => ?_
  rw [Database.exec_of_failure_none quiet]
  refine .perform trivial fun input quiet => ?_
  rw [Database.exec_of_failure_none quiet]
  refine .perform trivial fun input quiet => ?_
  rw [Database.exec_of_failure_none quiet]
  exact .done ⟨rfl, rfl⟩

/-- The episode that a number selects for deletion. -/
def selected (contents : MemoryContents) (sessionId : Uuid) (idx : Nat) : Option Episode :=
  (shown contents sessionId deletionLimit none).reverse[idx]?

theorem ensures_deleteSessionMessageByIdx (own : Listing.episodes.OwnIds contents) {idx : Nat}
    {episode : Episode} (found : selected contents sessionId idx = some episode) :
    Ensures exec Quiet (fun _ _ => True)
      (fun outcome final => outcome = .ok () ∧ final = withoutEpisode contents episode)
      (deleteSessionMessageByIdx sessionId idx) contents := by
  refine (reads_page (by decide : 0 < deletionLimit) none none).bind ?_
    fun _ faulty => absurd faulty not_faulty_quiet
  unfold selected at found
  rw [found]
  exact ensures_deleteEpisode (stored_of_mem own (List.mem_reverse.mp (List.mem_of_getElem? found)))

theorem ensures_outOfRange {idx : Nat} (missing : selected contents sessionId idx = none) :
    Ensures exec Quiet (fun _ _ => True) (fun outcome _ => ∃ error, outcome = .error error)
      (deleteSessionMessageByIdx sessionId idx) contents := by
  refine (reads_page (by decide : 0 < deletionLimit) none none).bind ?_
    fun error _ => ⟨error, rfl⟩
  unfold selected at missing
  rw [missing]
  exact .fail ⟨_, rfl⟩

theorem docs_withoutEpisode (episode : Episode) (id : Uuid) :
    (withoutEpisode contents episode).docs (.episode id) = none ↔
      id = episode.id ∨ contents.docs (.episode id) = none := by
  unfold withoutEpisode
  by_cases same : id = episode.id
  · subst same
    simp
  · have different : MemoryKey.episode id ≠ .episode episode.id := by simpa using same
    rw [Database.Contents.docs_remove_of_ne _ different, or_iff_right same]
    rfl

theorem deletes_iff (own : Listing.episodes.OwnIds contents) {idx : Nat} {episode : Episode}
    (stored : contents.docs (.episode episode.id) = some episode) :
    Deletes contents sessionId idx episode.id ↔ selected contents sessionId idx = some episode := by
  constructor
  · intro deletes
    obtain ⟨removed, held, run⟩ := deletes (fun _ => Listing.quiet) fun _ => rfl
    obtain rfl := Option.some.inj (stored.symm.trans held)
    cases found : selected contents sessionId idx with
    | none =>
      obtain ⟨error, fails⟩ := (ensures_outOfRange found).eval fun position =>
        (rfl : Quiet ((fun _ => Listing.quiet) position))
      rw [run] at fails
      exact nomatch fails
    | some other =>
      obtain ⟨_, final⟩ := (ensures_deleteSessionMessageByIdx own found).eval fun position =>
        (rfl : Quiet ((fun _ => Listing.quiet) position))
      rw [run] at final
      have gone : (withoutEpisode contents other).docs (.episode other.id) = none :=
        (docs_withoutEpisode other other.id).mpr (.inl rfl)
      have there := stored_of_mem own (List.mem_reverse.mp (List.mem_of_getElem? found))
      rw [← show withoutEpisode contents episode = withoutEpisode contents other from final,
        docs_withoutEpisode, there] at gone
      rcases gone with same | absent
      · rw [same, stored] at there
        exact there.symm
      · exact nomatch absent
  · intro found inputs quiet
    obtain ⟨succeeds, final⟩ := (ensures_deleteSessionMessageByIdx own found).eval quiet
    exact ⟨episode, stored, Prod.ext succeeds final⟩

theorem eval_getSessionMessages (limit : Nat) (after : Option Uuid) {inputs : Nat → MemoryInput}
    (quiet : ∀ position, Quiet (inputs position)) :
    ((getSessionMessages sessionId limit after).eval exec inputs contents).1 =
      .ok ((shown contents sessionId (pageLimit limit) after).reverse.mapIdx Episode.record) := by
  have reads : QuietlyReads
      ((shown contents sessionId (pageLimit limit) after).reverse.mapIdx Episode.record)
      (getSessionMessages sessionId limit after) contents :=
    (reads_page (pageLimit_pos limit) after none).andThen (.done _)
  rcases (reads.eval quiet).2 with gives | ⟨faulty, _⟩
  · exact gives
  · exact absurd faulty not_faulty_quiet

theorem numbersAgree_iff_suffix (own : Listing.episodes.OwnIds contents) {limit : Nat}
    {after : Option Uuid} : NumbersAgree contents sessionId limit after ↔
      shown contents sessionId (pageLimit limit) after <:+
        shown contents sessionId deletionLimit none := by
  set page := shown contents sessionId (pageLimit limit) after with page_eq
  have stored {idx : Nat} {episode : Episode} (found : page.reverse[idx]? = some episode) :
      contents.docs (.episode episode.id) = some episode :=
    stored_of_mem own (List.mem_reverse.mp (List.mem_of_getElem? found))
  rw [← List.reverse_prefix, List.prefix_iff_getElem?]
  constructor
  · intro agree idx within
    have quiet (position : Nat) : Quiet ((fun _ => Listing.quiet) position) := rfl
    have found : page.reverse[idx]? = some page.reverse[idx] := List.getElem?_eq_getElem within
    have deletes := agree _ quiet _ (eval_getSessionMessages limit after quiet)
      (page.reverse[idx].record idx) (List.mem_mapIdx.mpr ⟨idx, within, rfl⟩)
    exact (deletes_iff own (stored found)).mp deletes
  · intro begins inputs quiet records listed record member
    obtain rfl := Except.ok.inj ((eval_getSessionMessages limit after quiet).symm.trans listed)
    obtain ⟨idx, within, rfl⟩ := List.mem_mapIdx.mp member
    have found : page.reverse[idx]? = some page.reverse[idx] := List.getElem?_eq_getElem within
    exact (deletes_iff own (stored found)).mpr (begins idx within)

theorem eq_of_prefix_of_getLast {α : Type} {part whole : List α} {last : α} (nodup : whole.Nodup)
    (begins : part <+: whole) (ends : part.getLast? = some last)
    (same : whole.getLast? = some last) : part = whole := by
  obtain ⟨rest, rfl⟩ := begins
  cases rest using List.reverseRecOn with
  | nil => exact (List.append_nil part).symm
  | append_singleton rest final =>
    rw [← List.append_assoc, List.getLast?_concat] at same
    obtain rfl := Option.some.inj same
    have apart := (List.nodup_append.mp nodup).2.2 final (List.mem_of_getLast? ends) final
      (List.mem_append_right _ (List.mem_singleton_self final))
    exact absurd rfl apart

theorem suffix_iff_reachesBack (own : Listing.episodes.OwnIds contents) {limit : Nat}
    {after : Option Uuid} :
    shown contents sessionId (pageLimit limit) after <:+
        shown contents sessionId deletionLimit none ↔
      ReachesBack contents sessionId limit after := by
  have whole := @episodesOf_take contents sessionId (pageLimit limit) after
  have all : shown contents sessionId deletionLimit none =
      episodesOf contents ((newest contents sessionId).take deletionLimit) := rfl
  rw [ReachesBack, all]
  set page := shown contents sessionId (pageLimit limit) after with page_eq
  constructor
  · intro suffix
    cases ends : page.getLast? with
    | none => exact .inl (List.getLast?_eq_none_iff.mp ends)
    | some last =>
      right
      have first : (episodesOf contents ((newest contents sessionId).take
          (skipped contents sessionId after + pageLimit limit))).getLast? = some last := by
        rw [whole, List.getLast?_append, ends, Option.some_or]
      have second : (episodesOf contents
          ((newest contents sessionId).take deletionLimit)).getLast? = some last := by
        obtain ⟨front, same⟩ := suffix
        rw [← same, List.getLast?_append, ends, Option.some_or]
      rcases @episodesOf_start contents sessionId
        (skipped contents sessionId after + pageLimit limit) deletionLimit with begins | begins
      · exact eq_of_prefix_of_getLast (nodup_take own _) begins first second
      · exact (eq_of_prefix_of_getLast (nodup_take own _) begins second first).symm
  · rintro (none | same)
    · rw [none]
      exact List.nil_suffix
    · rw [← same, whole]
      exact List.suffix_append _ _

/-- In a store that keeps episodes under their identifiers, each message of a page can be deleted by
its number exactly when the page reaches back to the oldest message that a deletion looks at. -/
theorem numbersAgree_iff (own : Listing.episodes.OwnIds contents) (limit : Nat)
    (after : Option Uuid) :
    NumbersAgree contents sessionId limit after ↔ ReachesBack contents sessionId limit after :=
  (numbersAgree_iff_suffix own).trans (suffix_iff_reachesBack own)

/-! ### A page that is not the whole session -/

/-- An episode of a session. -/
def plainEpisode (id : Uuid) (createdAt : DateTime) : Episode :=
  { id, sessionId := 7, userId := 9, agentId := none, content := "hi", role := some .user
    createdAt, processingStatus := .completed, processingError := none, entityIds := []
    edgeIds := [], retryCount := 0 }

/-- A session of two episodes. -/
def twoEpisodes : MemoryContents :=
  ((emptyMemory.put (.episode 1) (plainEpisode 1 1000000)).put (.episode 2)
    (plainEpisode 2 2000000)).withSet (.sessionEpisodes 7) ((SortedSet.empty.insert 1 1).insert 2 2)

theorem own_twoEpisodes : Listing.episodes.OwnIds twoEpisodes := by
  intro id episode stored
  by_cases second : id = 2
  · subst second
    have held : Listing.episodes.stored twoEpisodes 2 = some (plainEpisode 2 2000000) := rfl
    rw [← Option.some.inj (held.symm.trans stored)]
    rfl
  · by_cases first : id = 1
    · subst first
      have held : Listing.episodes.stored twoEpisodes 1 = some (plainEpisode 1 1000000) := rfl
      rw [← Option.some.inj (held.symm.trans stored)]
      rfl
    · have absent : twoEpisodes.docs (.episode id) = none :=
        (Database.Contents.docs_put_of_ne _ (by simpa using second) _).trans
          (Database.Contents.docs_put_of_ne _ (by simpa using first) _)
      exact nomatch absent.symm.trans stored

/-- A page that shows the whole session numbers its messages as the deletion does. -/
theorem numbersAgree_whole : NumbersAgree twoEpisodes 7 20 none :=
  (numbersAgree_iff own_twoEpisodes 20 none).mpr (.inr (by decide))

/-- A page of the newest message alone calls it the first one, and the oldest one is deleted. -/
theorem numbers_disagree :
    ¬ ∀ (contents : MemoryContents) (sessionId : Uuid) (limit : Nat) (after : Option Uuid),
      Listing.episodes.OwnIds contents → NumbersAgree contents sessionId limit after := by
  intro always
  have reaches := (suffix_iff_reachesBack own_twoEpisodes).mp
    ((numbersAgree_iff_suffix own_twoEpisodes).mp (always twoEpisodes 7 1 none own_twoEpisodes))
  rcases reaches with none | same
  · exact absurd none (by decide)
  · exact absurd same (by decide)

end Positions
end Memory
end Mnemo
