import Mathlib.Data.Set.Insert

/-!
# Observed-remove histories

The history of a replica consists of the tagged adds that have reached it and of the tags which
the removes before it deleted.  An element is present when one of its adds is live, that is, was
never deleted.  An implementation which only holds a set of tags for each element follows the
history as long as every element it holds keeps a live tag.
-/

namespace ObservedRemove

/-- The adds that have reached a replica, and the tags deleted by removes in its past. -/
structure History (Element Tag : Type*) where
  /-- Elements with the tags under which they were added. -/
  added : Set (Element × Tag)
  /-- Elements with the tags which a remove of the element deleted. -/
  removed : Set (Element × Tag)

namespace History

variable {Element Tag : Type*}

/-- The history of a new replica. -/
def empty : History Element Tag := ⟨∅, ∅⟩

/-- The history after an add. -/
def add (history : History Element Tag) (element : Element) (tag : Tag) :
    History Element Tag :=
  { history with added := insert (element, tag) history.added }

/-- The history after a remove of the element which deleted these tags. -/
def remove (history : History Element Tag) (element : Element) (tags : Set Tag) :
    History Element Tag :=
  { history with removed := history.removed ∪ {pair | pair.1 = element ∧ pair.2 ∈ tags} }

/-- The history of a replica that has received another one's. -/
def join (left right : History Element Tag) : History Element Tag :=
  ⟨left.added ∪ right.added, left.removed ∪ right.removed⟩

/-- The add with this tag has arrived and no remove in the past deleted its tag. -/
def Live (history : History Element Tag) (element : Element) (tag : Tag) : Prop :=
  (element, tag) ∈ history.added ∧ (element, tag) ∉ history.removed

/-- The observed-remove meaning of membership. -/
def Present (history : History Element Tag) (element : Element) : Prop :=
  ∃ tag, history.Live element tag

end History

variable {Element Tag : Type*}

/-- The tags held for each element lie between the live ones and those that have arrived. -/
structure Tracks (held : Element → Set Tag) (history : History Element Tag) : Prop where
  live_held : ∀ {element tag}, history.Live element tag → tag ∈ held element
  held_added : ∀ {element tag}, tag ∈ held element → (element, tag) ∈ history.added

/-- Holding a tag of an element means just what its history says. -/
def Lawful (held : Element → Set Tag) (history : History Element Tag) : Prop :=
  ∀ element, (held element).Nonempty ↔ history.Present element

/-- Each element of which one side holds a tag has a held tag that neither past has deleted. -/
def KeepsLive (left right : Element → Set Tag) (leftHistory rightHistory : History Element Tag) :
    Prop :=
  ∀ element, (left element ∪ right element).Nonempty →
    ∃ tag ∈ left element ∪ right element,
      (element, tag) ∉ leftHistory.removed ∧ (element, tag) ∉ rightHistory.removed

namespace Tracks

theorem empty : Tracks (fun _ => ∅) (History.empty : History Element Tag) where
  live_held live := absurd live.1 (Set.notMem_empty _)
  held_added held := absurd held (Set.notMem_empty _)

variable {held left right : Element → Set Tag} {history : History Element Tag}
  {leftHistory rightHistory : History Element Tag}

theorem present_held (tracks : Tracks held history) {element : Element}
    (present : history.Present element) : (held element).Nonempty :=
  present.imp fun _ live => tracks.live_held live

theorem add [DecidableEq Element] (tracks : Tracks held history) (element : Element) (tag : Tag) :
    Tracks (fun other => if other = element then insert tag (held other) else held other)
      (history.add element tag) where
  live_held := by
    rintro other otherTag ⟨added, not_removed⟩
    rcases Set.mem_insert_iff.mp added with new | old
    · obtain ⟨rfl, rfl⟩ := Prod.mk.inj new
      simp
    · have known : otherTag ∈ held other := tracks.live_held ⟨old, not_removed⟩
      by_cases same : other = element <;> simp [same, known]
      exact Or.inr (same ▸ known)
  held_added := by
    intro other otherTag holds
    by_cases same : other = element
    · subst other
      rw [if_pos rfl] at holds
      rcases Set.mem_insert_iff.mp holds with rfl | old
      · exact Set.mem_insert _ _
      · exact Set.mem_insert_of_mem _ (tracks.held_added old)
    · rw [if_neg same] at holds
      exact Set.mem_insert_of_mem _ (tracks.held_added holds)

theorem remove [DecidableEq Element] (tracks : Tracks held history) (element : Element) :
    Tracks (fun other => if other = element then ∅ else held other)
      (history.remove element (held element)) where
  live_held := by
    rintro other tag ⟨added, not_removed⟩
    have not_before : (other, tag) ∉ history.removed := fun before => not_removed (Or.inl before)
    have known : tag ∈ held other := tracks.live_held ⟨added, not_before⟩
    by_cases same : other = element
    · subst other
      exact absurd (Or.inr ⟨rfl, known⟩) not_removed
    · simpa [same] using known
  held_added := by
    intro other tag holds
    by_cases same : other = element
    · simp [same] at holds
    · rw [if_neg same] at holds
      exact tracks.held_added holds

theorem join (tracksLeft : Tracks left leftHistory) (tracksRight : Tracks right rightHistory) :
    Tracks (fun element => left element ∪ right element) (leftHistory.join rightHistory) where
  live_held := by
    rintro element tag ⟨added, not_removed⟩
    rcases added with fromLeft | fromRight
    · exact Or.inl (tracksLeft.live_held ⟨fromLeft, fun gone => not_removed (Or.inl gone)⟩)
    · exact Or.inr (tracksRight.live_held ⟨fromRight, fun gone => not_removed (Or.inr gone)⟩)
  held_added := by
    rintro element tag (fromLeft | fromRight)
    · exact Or.inl (tracksLeft.held_added fromLeft)
    · exact Or.inr (tracksRight.held_added fromRight)

end Tracks

namespace Lawful

variable {held left right : Element → Set Tag} {history : History Element Tag}
  {leftHistory rightHistory : History Element Tag}

theorem empty : Lawful (fun _ => ∅) (History.empty : History Element Tag) := by
  intro element
  simp [History.empty, History.Present, History.Live]

theorem add [DecidableEq Element] (lawful : Lawful held history) {element : Element} {tag : Tag}
    (fresh : (element, tag) ∉ history.removed) :
    Lawful (fun other => if other = element then insert tag (held other) else held other)
      (history.add element tag) := by
  intro other
  by_cases same : other = element
  · subst other
    have present : (history.add element tag).Present element :=
      ⟨tag, Set.mem_insert _ _, fresh⟩
    simp [present]
  · have unchanged : (history.add element tag).Present other ↔ history.Present other := by
      simp [History.Present, History.Live, History.add, same]
    simp [same, unchanged, lawful other]

theorem remove [DecidableEq Element] (tracks : Tracks held history)
    (lawful : Lawful held history) (element : Element) :
    Lawful (fun other => if other = element then ∅ else held other)
      (history.remove element (held element)) := by
  intro other
  by_cases same : other = element
  · subst other
    have absent : ¬ (history.remove element (held element)).Present element := by
      rintro ⟨tag, live⟩
      simpa using (tracks.remove element).live_held live
    simp [absent]
  · have unchanged :
        (history.remove element (held element)).Present other ↔ history.Present other := by
      simp [History.Present, History.Live, History.remove, same]
    simp [same, unchanged, lawful other]

theorem join_iff (tracksLeft : Tracks left leftHistory)
    (tracksRight : Tracks right rightHistory) :
    Lawful (fun element => left element ∪ right element) (leftHistory.join rightHistory) ↔
      KeepsLive left right leftHistory rightHistory := by
  have tracks := tracksLeft.join tracksRight
  constructor
  · intro lawful element holds
    obtain ⟨tag, live⟩ := (lawful element).mp holds
    exact ⟨tag, tracks.live_held live, fun gone => live.2 (Or.inl gone),
      fun gone => live.2 (Or.inr gone)⟩
  · intro keeps element
    refine ⟨fun holds => ?_, tracks.present_held⟩
    obtain ⟨tag, held, notLeft, notRight⟩ := keeps element holds
    exact ⟨tag, tracks.held_added held, not_or.mpr ⟨notLeft, notRight⟩⟩

end Lawful

end ObservedRemove
