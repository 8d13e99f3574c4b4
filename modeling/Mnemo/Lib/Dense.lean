import Mathlib.Data.List.Basic
import Mathlib.Data.List.Nodup
import Mathlib.Data.List.Infix

/-!
# Lists without long gaps

A list with a predicate, in which no window of a given size is free of matches; and listings that
are read on from one of their entries.
-/

namespace Dense

variable {Entry : Type} (size : Nat) (accepts : Entry → Bool)

/-- Every window of the size in front of which fewer than so many matches stand has a match. -/
def Upto (needed : Nat) (entries : List Entry) : Prop :=
  ∀ front window back, entries = front ++ window ++ back → window.length = size →
    (front.filter accepts).length < needed → ∃ entry ∈ window, accepts entry = true

/-- Every window of the size has a match. -/
def Throughout (entries : List Entry) : Prop :=
  ∀ front window back, entries = front ++ window ++ back → window.length = size →
    ∃ entry ∈ window, accepts entry = true

variable {size : Nat} {accepts : Entry → Bool} {needed : Nat} {entries front rest : List Entry}
  {entry : Entry}

theorem Throughout.upto (dense : Throughout size accepts entries) (needed : Nat) :
    Upto size accepts needed entries :=
  fun front window back split long _ => dense front window back split long

theorem Upto.throughout (dense : Upto size accepts needed entries)
    (few : (entries.filter accepts).length < needed) : Throughout size accepts entries := by
  intro front window back split long
  refine dense front window back split long (lt_of_le_of_lt ?_ few)
  rw [split, List.append_assoc, List.filter_append, List.length_append]
  exact Nat.le_add_right _ _

theorem Upto.exists_mem_take (dense : Upto size accepts needed entries) (positive : 0 < needed)
    (full : size ≤ entries.length) : ∃ entry ∈ entries.take size, accepts entry = true :=
  dense [] (entries.take size) (entries.drop size) (List.take_append_drop size entries).symm
    (List.length_take_of_le full) positive

theorem mem_of_append_eq {front window back rest : List Entry} {entry : Entry}
    (split : window ++ back = front ++ entry :: rest) (near : front.length < window.length) :
    entry ∈ window := by
  have found : (window ++ back)[front.length]? = some entry := by
    rw [split, List.getElem?_append_right le_rfl, Nat.sub_self]
    rfl
  rw [List.getElem?_append_left near] at found
  exact List.mem_of_getElem? found

theorem window_cases {front window back before rest : List Entry} {entry : Entry}
    (split : before ++ entry :: rest = front ++ window ++ back)
    (near : before.length < window.length) :
    (front.length ≤ before.length ∧ entry ∈ window) ∨
      ∃ later, front = before ++ entry :: later ∧ rest = later ++ window ++ back := by
  rw [List.append_assoc] at split
  rcases List.append_eq_append_iff.mp split with ⟨between, fronts, rests⟩ | ⟨between, fronts, rests⟩
  · cases between with
    | nil =>
      refine .inl ⟨by simp [fronts], ?_⟩
      exact @mem_of_append_eq _ [] window back rest entry rests.symm (by simp; omega)
    | cons head later =>
      obtain ⟨rfl, same⟩ := List.cons.inj rests
      exact .inr ⟨later, fronts, same.trans (List.append_assoc _ _ _).symm⟩
  · have shorter := congrArg List.length fronts
    rw [List.length_append] at shorter
    exact .inl ⟨by omega, mem_of_append_eq rests (by omega)⟩

theorem upto_append_cons (near : front.length < size) (accepted : accepts entry = true) :
    Upto size accepts needed (front ++ entry :: rest) ↔
      Upto size accepts (needed - ((front.filter accepts).length + 1)) rest := by
  constructor
  · intro dense later window back split long few
    refine dense (front ++ entry :: later) window back (by simp [split]) long ?_
    rw [List.filter_append, List.filter_cons_of_pos accepted, List.length_append, List.length_cons]
    omega
  · intro dense before window back split long few
    rcases window_cases split (long ▸ near) with ⟨-, among⟩ | ⟨later, rfl, rests⟩
    · exact ⟨entry, among, accepted⟩
    · refine dense later window back rests long ?_
      rw [List.filter_append, List.filter_cons_of_pos accepted, List.length_append,
        List.length_cons] at few
      omega

theorem upto_of_page (many : needed ≤ ((entries.take size).filter accepts).length) :
    Upto size accepts needed entries := by
  intro front window back split long few
  by_contra none
  have empty : window.filter accepts = [] := by
    rw [List.filter_eq_nil_iff]
    exact fun entry member accepted => none ⟨entry, member, accepted⟩
  have within : entries.take size <+: front ++ window := by
    rw [split]
    refine List.prefix_of_prefix_length_le (List.take_prefix _ _) (List.prefix_append _ _) ?_
    simp only [List.length_take, List.length_append, long]
    omega
  have fewer := (within.filter accepts).length_le
  rw [List.filter_append, empty, List.append_nil] at fewer
  omega

theorem throughout_of_short (short : entries.length < size) :
    Throughout size accepts entries := by
  intro front window back split long
  have total := congrArg List.length split
  simp only [List.length_append] at total
  omega

theorem exists_last_match (found : ∃ entry ∈ entries, accepts entry = true) :
    ∃ front last back, entries = front ++ last :: back ∧ accepts last = true ∧
      ∀ entry ∈ back, accepts entry = false := by
  induction entries with
  | nil => simp at found
  | cons head entries ih =>
    by_cases later : ∃ entry ∈ entries, accepts entry = true
    · obtain ⟨front, last, back, rfl, accepted, none⟩ := ih later
      exact ⟨head :: front, last, back, rfl, accepted, none⟩
    · obtain ⟨entry, member, accepted⟩ := found
      have none : ∀ other ∈ entries, accepts other = false := by simpa using later
      rcases List.mem_cons.mp member with rfl | member
      · exact ⟨[], entry, entries, rfl, accepted, none⟩
      · exact absurd accepted (by simp [none entry member])

theorem exists_last_of_page (found : ∃ entry ∈ entries.take size, accepts entry = true) :
    ∃ front last back, entries = front ++ last :: back ∧ accepts last = true ∧
      front.length < size ∧
        (entries.take size).filter accepts = front.filter accepts ++ [last] := by
  obtain ⟨front, last, back, page, accepted, none⟩ := exists_last_match found
  have within : front.length < size := by
    have total := congrArg List.length page
    simp only [List.length_take, List.length_append, List.length_cons] at total
    omega
  refine ⟨front, last, back ++ entries.drop size, ?_, accepted, within, ?_⟩
  · calc
      entries = entries.take size ++ entries.drop size := (List.take_append_drop size entries).symm
      _ = front ++ last :: (back ++ entries.drop size) := by simp [page]
  · have nothing : back.filter accepts = [] := by simpa using none
    rw [page, List.filter_append, List.filter_cons_of_pos accepted, nothing]

theorem take_filter_of_page (many : needed ≤ ((entries.take size).filter accepts).length) :
    (entries.filter accepts).take needed = ((entries.take size).filter accepts).take needed := by
  have split : entries.filter accepts =
      (entries.take size).filter accepts ++ (entries.drop size).filter accepts := by
    rw [← List.filter_append, List.take_append_drop]
  rw [split, List.take_append_of_le_length many]

theorem exists_nth_match {count : Nat} (many : count < (entries.filter accepts).length) :
    ∃ front last back, entries = front ++ last :: back ∧ accepts last = true ∧
      (front.filter accepts).length = count := by
  induction entries generalizing count with
  | nil => exact absurd many (Nat.not_lt_zero _)
  | cons head entries ih =>
    by_cases accepted : accepts head = true
    · rw [List.filter_cons_of_pos accepted, List.length_cons] at many
      cases count with
      | zero => exact ⟨[], head, entries, rfl, accepted, rfl⟩
      | succ count =>
        obtain ⟨front, last, back, rfl, found, exact⟩ := ih (Nat.lt_of_succ_lt_succ many)
        exact ⟨head :: front, last, back, rfl, found, by
          rw [List.filter_cons_of_pos accepted, List.length_cons, exact]⟩
    · rw [List.filter_cons_of_neg accepted] at many
      obtain ⟨front, last, back, rfl, found, exact⟩ := ih many
      exact ⟨head :: front, last, back, rfl, found, by
        rw [List.filter_cons_of_neg accepted, exact]⟩

theorem throughout_split {back : List Entry} {last : Entry}
    (count : (front.filter accepts).length < needed)
    (dense : Upto size accepts needed (front ++ last :: back))
    (behind : Throughout size accepts back) : Throughout size accepts (front ++ last :: back) := by
  intro before window after split long
  by_cases early : (before.filter accepts).length < needed
  · exact dense before window after split long early
  · rw [List.append_assoc] at split
    rcases List.append_eq_append_iff.mp split with
      ⟨between, fronts, rests⟩ | ⟨between, fronts, rests⟩
    · cases between with
      | nil =>
        rw [fronts, List.append_nil] at early
        exact absurd count early
      | cons head later =>
        have same := (List.cons.inj rests).2
        exact behind later window after (same.trans (List.append_assoc _ _ _).symm) long
    · rw [fronts, List.filter_append, List.length_append] at count
      omega

end Dense

/-! ## Listings -/

/-- Entries in a fixed order, and how they are read on: from the first one, from behind one of them,
and at any other cursor from some place. -/
structure Listing {Entry Id : Type} (ident : Entry → Id) where
  entries : List Entry
  nodup : (entries.map ident).Nodup
  after : Option Id → List Entry
  after_none : after none = entries
  after_suffix : ∀ cursor, after cursor <:+ entries
  after_some : ∀ front entry back, entries = front ++ entry :: back →
    after (some (ident entry)) = back

namespace Listing

variable {Entry Id : Type} {ident : Entry → Id}

theorem entries_nodup (listing : Listing ident) : listing.entries.Nodup :=
  List.Nodup.of_map ident listing.nodup

theorem after_of_split (listing : Listing ident) {cursor : Option Id} {front back : List Entry}
    {entry : Entry} (split : listing.after cursor = front ++ entry :: back) :
    listing.after (some (ident entry)) = back := by
  obtain ⟨before, whole⟩ := listing.after_suffix cursor
  exact listing.after_some (before ++ front) entry back (by rw [← whole, split, List.append_assoc])

/-- The entries behind the one with an identifier. -/
def behind (ident : Entry → Id) [DecidableEq Id] (entries : List Entry) : Option Id → List Entry
  | none => entries
  | some id => (entries.dropWhile fun entry => decide (ident entry ≠ id)).tail

/-- The listing of some entries; behind an unknown entry there is nothing. -/
def ofEntries [DecidableEq Id] (entries : List Entry) (nodup : (entries.map ident).Nodup) :
    Listing ident where
  entries := entries
  nodup := nodup
  after := behind ident entries
  after_none := rfl
  after_suffix
    | none => List.suffix_rfl
    | some _ => (List.tail_suffix _).trans (List.dropWhile_suffix _)
  after_some front entry back split := by
    have different : ∀ other ∈ front, decide (ident other ≠ ident entry) = true := by
      intro other member
      rw [split, List.map_append, List.map_cons] at nodup
      have apart := (List.nodup_append.mp nodup).2.2 _ (List.mem_map_of_mem member) _
        List.mem_cons_self
      simpa using apart
    rw [behind, split, List.dropWhile_append_of_pos different]
    simp

end Listing
