import Mnemo.Ingest.Stages

/-!
# The fairness of a selection

A poll takes the first episode of every user's queue in turn, round after round.  What each user gets
is a part of the queue from its beginning, and no user waits while another gets two more.
-/

namespace Mnemo
namespace Ingest

open Memory

/-- The episodes of a user. -/
def share (userId : Uuid) (episodes : List Episode) : List Episode :=
  episodes.filter fun episode => episode.userId == userId

/-- A queue holds what has arrived by descending priority, and what is equally urgent in the order of
its arrival. -/
structure ByPriority (unicode : Unicode) (arrived queue : List Episode) : Prop where
  descending : queue.Pairwise fun first second =>
    episodePriority unicode second.content ≤ episodePriority unicode first.content
  arrival : ∀ priority,
    queue.filter (fun episode => decide (episodePriority unicode episode.content = priority)) =
      arrived.filter fun episode => decide (episodePriority unicode episode.content = priority)

/-- A selection takes as many of the pending episodes as fit, those of each user by their priority,
and no user gets two more than one of whom something is left. -/
structure FairSelection (unicode : Unicode) (batchSize : Nat) (pending chosen : List Episode) :
    Prop where
  within : chosen.Subperm pending
  distinct : (pending.map (·.id)).Nodup → (chosen.map (·.id)).Nodup
  full : chosen.length = min batchSize pending.length
  urgent : ∀ userId, ∃ queue, ByPriority unicode (share userId pending) queue ∧
    share userId chosen <+: queue
  fair : ∀ first second, (share first chosen).length + 1 < (share second chosen).length →
    (share first chosen).length = (share first pending).length

@[simp]
theorem share_nil (userId : Uuid) : share userId [] = [] := rfl

@[simp]
theorem share_append (userId : Uuid) (front back : List Episode) :
    share userId (front ++ back) = share userId front ++ share userId back :=
  List.filter_append ..

theorem share_cons_self (episode : Episode) (episodes : List Episode) :
    share episode.userId (episode :: episodes) = episode :: share episode.userId episodes := by
  simp [share]

theorem share_cons_of_ne {userId : Uuid} {episode : Episode} (different : episode.userId ≠ userId)
    (episodes : List Episode) : share userId (episode :: episodes) = share userId episodes := by
  simp [share, different]

theorem share_eq_nil {userId : Uuid} {episodes : List Episode}
    (others : ∀ episode ∈ episodes, episode.userId ≠ userId) : share userId episodes = [] := by
  simpa [share] using others

/-! ## Queues -/

section Queues

variable (unicode : Unicode)

theorem perm_userQueue (pending : List Episode) (userId : Uuid) :
    (userQueue unicode pending userId).Perm (share userId pending) :=
  List.perm_insertionSort _ _

theorem userId_of_mem_userQueue {pending : List Episode} {userId : Uuid} {episode : Episode}
    (member : episode ∈ userQueue unicode pending userId) : episode.userId = userId := by
  have there := (perm_userQueue unicode pending userId).mem_iff.mp member
  simpa using (List.mem_filter.mp there).2

theorem byPriority_userQueue (pending : List Episode) (userId : Uuid) :
    ByPriority unicode (share userId pending) (userQueue unicode pending userId) := by
  let urgent (first second : Episode) : Prop :=
    episodePriority unicode second.content ≤ episodePriority unicode first.content
  have total : Std.Total urgent := ⟨fun first second => Nat.le_total _ _⟩
  have trans : IsTrans Episode urgent := ⟨fun _ _ _ one two => Nat.le_trans two one⟩
  refine ⟨List.pairwise_insertionSort urgent (share userId pending), fun priority => ?_⟩
  let equal (episode : Episode) : Bool :=
    decide (episodePriority unicode episode.content = priority)
  have sorted : ((share userId pending).filter equal).Pairwise urgent := by
    apply List.pairwise_of_forall_mem_list
    intro first one second two
    have first_priority := of_decide_eq_true (List.mem_filter.mp one).2
    have second_priority := of_decide_eq_true (List.mem_filter.mp two).2
    exact Nat.le_of_eq (second_priority.trans first_priority.symm)
  have kept : ((share userId pending).filter equal).Sublist (userQueue unicode pending userId) :=
    List.sublist_insertionSort sorted List.filter_sublist
  have inside : ((share userId pending).filter equal).Sublist
      ((userQueue unicode pending userId).filter equal) := by
    simpa using kept.filter equal
  have same := ((perm_userQueue unicode pending userId).filter equal).length_eq
  exact (inside.eq_of_length same.symm).symm

end Queues

/-! ## Rounds -/

/-- What is taken from the queues of different users, and what is left of them. -/
structure Taken (owners : List Uuid) (queue left : Uuid → List Episode) (taken : List Episode) :
    Prop where
  split : ∀ userId ∈ owners, queue userId = share userId taken ++ left userId
  owned : ∀ episode ∈ taken, episode.userId ∈ owners

section Rounds

variable {owners : List Uuid} {queue : Uuid → List Episode}

theorem map_update_of_notMem {owner : Uuid} (outside : owner ∉ owners) (rest : List Episode) :
    owners.map (Function.update queue owner rest) = owners.map queue := by
  apply List.map_congr_left
  intro userId member
  have different : userId ≠ owner := by
    rintro rfl
    exact outside member
  exact Function.update_of_ne different _ _

/-- A round takes at most one episode from every queue, and one from each that is not empty unless
the room is filled. -/
structure RoundTaken (room : Nat) (owners : List Uuid) (queue left : Uuid → List Episode)
    (taken : List Episode) : Prop extends Taken owners queue left taken where
  fits : taken.length ≤ room
  once : ∀ userId, (share userId taken).length ≤ 1
  served : taken.length < room → ∀ userId ∈ owners, queue userId ≠ [] →
    (share userId taken).length = 1

theorem takeRound_spec (room : Nat) (distinct : owners.Nodup)
    (named : ∀ userId ∈ owners, ∀ episode ∈ queue userId, episode.userId = userId) :
    ∃ left taken, takeRound room (owners.map queue) = (taken, owners.map left) ∧
      RoundTaken room owners queue left taken := by
  induction owners generalizing room with
  | nil =>
    refine ⟨queue, [], ?_, ⟨nofun, nofun⟩, by simp, by simp, nofun⟩
    cases room <;> rfl
  | cons owner owners ih =>
    obtain ⟨outside, rest⟩ := List.nodup_cons.mp distinct
    have others_named (userId : Uuid) (member : userId ∈ owners) :=
      named userId (List.mem_cons_of_mem owner member)
    cases room with
    | zero => exact ⟨queue, [], rfl, ⟨by simp, nofun⟩, by simp, by simp, nofun⟩
    | succ room =>
      cases first : queue owner with
      | nil =>
        obtain ⟨left, taken, same, spec⟩ := ih (room + 1) rest others_named
        have unserved : share owner taken = [] := by
          apply share_eq_nil
          rintro episode member rfl
          exact outside (spec.owned episode member)
        refine ⟨Function.update left owner [], taken, ?_, ⟨?_, ?_⟩, spec.fits, spec.once, ?_⟩
        · rw [List.map_cons, List.map_cons, first, map_update_of_notMem outside,
            Function.update_self]
          simp only [takeRound, same]
        · intro userId member
          rcases eq_or_ne userId owner with rfl | different
          · rw [first, unserved, Function.update_self]
            rfl
          · rw [Function.update_of_ne different]
            exact spec.split userId ((List.mem_cons.mp member).resolve_left different)
        · exact fun episode member => List.mem_cons_of_mem owner (spec.owned episode member)
        · intro left_over userId member some_left
          rcases List.mem_cons.mp member with rfl | later
          · exact absurd first some_left
          · exact spec.served left_over userId later some_left
      | cons episode queued =>
        obtain ⟨left, taken, same, spec⟩ := ih room rest others_named
        have unserved : share owner taken = [] := by
          apply share_eq_nil
          rintro other member rfl
          exact outside (spec.owned other member)
        obtain rfl : episode.userId = owner := 
          named owner List.mem_cons_self episode (by simp [first])
        have others {userId : Uuid} (different : userId ≠ episode.userId) :
            share userId (episode :: taken) = share userId taken :=
          share_cons_of_ne different.symm taken
        have mine : share episode.userId (episode :: taken) = [episode] := by
          rw [share_cons_self, unserved]
        refine ⟨Function.update left episode.userId queued, episode :: taken, ?_, ⟨?_, ?_⟩,
          ?_, ?_, ?_⟩
        · rw [List.map_cons, List.map_cons, first, map_update_of_notMem outside,
            Function.update_self]
          simp only [takeRound, same]
        · intro userId member
          rcases eq_or_ne userId episode.userId with rfl | different
          · rw [first, mine, Function.update_self]
            rfl
          · rw [Function.update_of_ne different, others different]
            exact spec.split userId ((List.mem_cons.mp member).resolve_left different)
        · intro other member
          rcases List.mem_cons.mp member with rfl | later
          · exact List.mem_cons_self
          · exact List.mem_cons_of_mem _ (spec.owned other later)
        · have fits := spec.fits
          simp only [List.length_cons]
          omega
        · intro userId
          rcases eq_or_ne userId episode.userId with rfl | different
          · simp [mine]
          · rw [others different]
            exact spec.once userId
        · intro left_over userId member some_left
          rcases eq_or_ne userId episode.userId with rfl | different
          · simp [mine]
          · rw [others different]
            simp only [List.length_cons] at left_over
            exact spec.served (by omega) userId
              ((List.mem_cons.mp member).resolve_left different) some_left

/-- The rounds take what fits, and a user of whom something is left gets at most one less than the
others. -/
structure RoundsTaken (room : Nat) (owners : List Uuid) (queue left : Uuid → List Episode)
    (taken : List Episode) : Prop extends Taken owners queue left taken where
  fits : taken.length ≤ room
  exhausted : taken.length < room → ∀ userId ∈ owners, left userId = []
  fair : ∀ first ∈ owners, ∀ second, (share first taken).length + 1 < (share second taken).length →
    left first = []

theorem takeRounds_zero (rounds : Nat) (queues : List (List Episode)) :
    takeRounds rounds 0 queues = [] := by
  cases rounds with
  | zero => rfl
  | succ rounds => simp [takeRounds, takeRound]

theorem takeRounds_spec {rounds room : Nat} (enough : room ≤ rounds) (distinct : owners.Nodup)
    (named : ∀ userId ∈ owners, ∀ episode ∈ queue userId, episode.userId = userId) :
    ∃ left, RoundsTaken room owners queue left (takeRounds rounds room (owners.map queue)) := by
  induction rounds generalizing room queue with
  | zero =>
    obtain rfl : room = 0 := by omega
    exact ⟨queue, ⟨by simp [takeRounds], nofun⟩, by simp [takeRounds], nofun, by
      simp [takeRounds]⟩
  | succ rounds ih =>
    obtain ⟨left, taken, same, spec⟩ := takeRound_spec room distinct named
    have still (userId : Uuid) (member : userId ∈ owners) (episode : Episode)
        (among : episode ∈ left userId) : episode.userId = userId := by
      apply named userId member
      rw [spec.split userId member]
      exact List.mem_append_right _ among
    unfold takeRounds
    rw [same]
    cases taken with
    | nil =>
      refine ⟨left, ⟨spec.split, nofun⟩, by simp, fun room_left userId member => ?_, by simp⟩
      by_contra something
      have unserved : (share userId ([] : List Episode)).length = 1 := by
        apply spec.served room_left userId member
        rw [spec.split userId member]
        exact something
      simp at unserved
    | cons episode taken =>
      have continues : room - (episode :: taken).length ≤ rounds := by
        simp only [List.length_cons]
        omega
      obtain ⟨final, rest⟩ := ih continues still
      have fits := spec.fits
      refine ⟨final, ⟨fun userId member => ?_, fun other member => ?_⟩, ?_, ?_, ?_⟩
      · rw [spec.split userId member, rest.split userId member, share_append,
          List.append_assoc]
      · rcases List.mem_append.mp member with early | late
        · exact spec.owned other early
        · exact rest.owned other late
      · have more := rest.fits
        simp only [List.length_append]
        omega
      · intro room_left
        apply rest.exhausted
        simp only [List.length_append] at room_left
        omega
      · intro first member second less
        simp only [share_append, List.length_append] at less
        have once := spec.once second
        rcases Nat.lt_or_ge (episode :: taken).length room with room_left | filled
        · by_cases nothing : queue first = []
          · have none_left := rest.split first member
            rw [spec.split first member] at nothing
            rw [(List.append_eq_nil_iff.mp nothing).2] at none_left
            exact (List.append_eq_nil_iff.mp none_left.symm).2
          · have served := spec.served room_left first member nothing
            exact rest.fair first member second (by omega)
        · have none_more : room - (episode :: taken).length = 0 := by omega
          rw [none_more, takeRounds_zero] at less
          simp only [share_nil, List.length_nil] at less
          omega

end Rounds

/-! ## Selections -/

theorem nodup_eraseDups {Item : Type} [BEq Item] [LawfulBEq Item] (items : List Item) :
    items.eraseDups.Nodup := by
  generalize bound : items.length = size
  induction size using Nat.strong_induction_on generalizing items with
  | _ size ih =>
    cases items with
    | nil => exact List.nodup_nil
    | cons item items =>
      rw [List.eraseDups_cons]
      have shorter : (items.filter fun other => !other == item).length < size := by
        have := List.length_filter_le (fun other => !other == item) items
        simp only [List.length_cons] at bound
        omega
      refine List.nodup_cons.mpr ⟨?_, ih _ shorter _ rfl⟩
      simp

/-- Every selection is fair. -/
theorem fairSelection_selectEpisodes (unicode : Unicode) (batchSize : Nat)
    (pending : List Episode) :
    FairSelection unicode batchSize pending (selectEpisodes unicode batchSize pending) := by
  classical
  have named (userId : Uuid) (_ : userId ∈ (pending.map (·.userId)).eraseDups) (episode : Episode)
      (member : episode ∈ userQueue unicode pending userId) : episode.userId = userId :=
    userId_of_mem_userQueue unicode member
  obtain ⟨left, spec⟩ := takeRounds_spec (Nat.le_refl batchSize) (nodup_eraseDups _) named
  change RoundsTaken batchSize _ _ left (selectEpisodes unicode batchSize pending) at spec
  generalize selectEpisodes unicode batchSize pending = chosen at spec
  have queued (userId : Uuid) : (userQueue unicode pending userId).Perm (share userId pending) :=
    perm_userQueue unicode pending userId
  have unknown {userId : Uuid} (absent : userId ∉ (pending.map (·.userId)).eraseDups) :
      share userId pending = [] ∧ share userId chosen = [] := by
    constructor
    · apply share_eq_nil
      rintro episode member rfl
      exact absent (List.mem_eraseDups.mpr (List.mem_map.mpr ⟨episode, member, rfl⟩))
    · apply share_eq_nil
      rintro episode member rfl
      exact absent (spec.owned episode member)
  have served (userId : Uuid) : share userId chosen <+: userQueue unicode pending userId := by
    by_cases known : userId ∈ (pending.map (·.userId)).eraseDups
    · exact ⟨left userId, (spec.split userId known).symm⟩
    · rw [(unknown known).2]
      exact List.nil_prefix
  have count_share (episode : Episode) (episodes : List Episode) :
      (share episode.userId episodes).count episode = episodes.count episode :=
    List.count_filter (by simp)
  have within : chosen.Subperm pending := by
    apply List.subperm_ext_iff.mpr
    intro episode _
    calc chosen.count episode = (share episode.userId chosen).count episode :=
          (count_share episode chosen).symm
      _ ≤ (userQueue unicode pending episode.userId).count episode :=
          (served episode.userId).sublist.count_le episode
      _ = (share episode.userId pending).count episode := (queued episode.userId).count_eq episode
      _ = pending.count episode := count_share episode pending
  refine ⟨within, fun distinct => ?_, ?_, fun userId => ⟨userQueue unicode pending userId,
    byPriority_userQueue unicode pending userId, served userId⟩, fun first second less => ?_⟩
  · obtain ⟨inside, perm, sublist⟩ := within
    exact (perm.map _).nodup_iff.mp (distinct.sublist (sublist.map _))
  · rcases Nat.lt_or_ge chosen.length batchSize with room_left | filled
    · have all : chosen.Perm pending := by
        apply List.perm_iff_count.mpr
        intro episode
        rw [← count_share episode chosen, ← count_share episode pending]
        by_cases known : episode.userId ∈ (pending.map (·.userId)).eraseDups
        · have split := spec.split episode.userId known
          rw [spec.exhausted room_left episode.userId known, List.append_nil] at split
          rw [← split, (queued episode.userId).count_eq]
        · rw [(unknown known).1, (unknown known).2]
      have same := all.length_eq
      omega
    · have fits := spec.fits
      have bounded := within.length_le
      omega
  · by_cases known : first ∈ (pending.map (·.userId)).eraseDups
    · have split := spec.split first known
      rw [spec.fair first known second less, List.append_nil] at split
      rw [← split, (queued first).length_eq]
    · rw [(unknown known).1, (unknown known).2]

end Ingest
end Mnemo
