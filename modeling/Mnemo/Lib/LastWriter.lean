import Mathlib.Order.Basic
import Mathlib.Data.Set.Insert

/-!
# The last writer wins

A cell holds the value of one write together with its stamp; a later write replaces it, and merging
two cells keeps the later one.  A cell that has received some of the writes of a run holds the one
with the greatest stamp among them, the first of those when stamps are equal.
-/

namespace LastWriter

/-- A value with its stamp, when there is one. -/
abbrev Cell (Value Stamp : Type) := Option (Value × Stamp)

/-- A write to one of the cells. -/
structure Write (Key Value Stamp : Type) where
  key : Key
  value : Value
  stamp : Stamp

variable {Key Value Stamp : Type} [LinearOrder Stamp]

/-- Store a value, unless the one that is held has a stamp as great. -/
def Cell.put (cell : Cell Value Stamp) (value : Value) (stamp : Stamp) : Cell Value Stamp :=
  match cell with
  | some held => if stamp ≤ held.2 then some held else some (value, stamp)
  | none => some (value, stamp)

/-- Store what another cell holds. -/
def Cell.join (cell other : Cell Value Stamp) : Cell Value Stamp :=
  match other with
  | some held => cell.put held.1 held.2
  | none => cell

/-- The cell holds what wins among the received writes to a key. -/
inductive Wins (writes : List (Write Key Value Stamp)) (received : Set Nat) (key : Key) :
    Cell Value Stamp → Prop
  | nothing (absent : ∀ position ∈ received, ∀ write, writes[position]? = some write →
      write.key ≠ key) : Wins writes received key none
  | write {position : Nat} {write : Write Key Value Stamp} (member : position ∈ received)
      (found : writes[position]? = some write) (same : write.key = key)
      (greatest : ∀ other ∈ received, ∀ received, writes[other]? = some received →
        received.key = key → received.stamp ≤ write.stamp)
      (first : ∀ earlier < position, ∀ before, writes[earlier]? = some before →
        before.key = key → before.stamp ≠ write.stamp) :
      Wins writes received key (some (write.value, write.stamp))

namespace Wins

variable {writes : List (Write Key Value Stamp)} {received others : Set Nat} {key : Key}
  {cell other : Cell Value Stamp}

theorem unique (one : Wins writes received key cell) (two : Wins writes received key other) :
    cell = other := by
  cases one with
  | nothing absent =>
    cases two with
    | nothing => rfl
    | write member found same => exact absurd same (absent _ member _ found)
  | write member found same greatest first =>
    rename_i position write
    cases two with
    | nothing absent => exact absurd same (absent _ member _ found)
    | write member' found' same' greatest' first' =>
      rename_i position' write'
      have stamps : write.stamp = write'.stamp :=
        le_antisymm (greatest' _ member _ found same) (greatest _ member' _ found' same')
      rcases lt_trichotomy position position' with less | rfl | greater
      · exact absurd stamps (first' _ less _ found same)
      · rw [found] at found'
        rw [Option.some.inj found']
      · exact absurd stamps.symm (first _ greater _ found' same')

theorem append (wins : Wins writes received key cell)
    (bounded : ∀ position ∈ received, position < writes.length)
    (more : List (Write Key Value Stamp)) : Wins (writes ++ more) received key cell := by
  have old {position : Nat} (member : position ∈ received) :
      (writes ++ more)[position]? = writes[position]? :=
    List.getElem?_append_left (bounded position member)
  cases wins with
  | nothing absent =>
    apply nothing
    intro position member write found
    exact absent position member write ((old member).symm.trans found)
  | write member found same greatest first =>
    apply write member ((old member).trans found) same
    · intro other among received found
      exact greatest other among received ((old among).symm.trans found)
    · intro earlier less before found
      have within : earlier < writes.length := less.trans (bounded _ member)
      rw [List.getElem?_append_left within] at found
      exact first earlier less before found

/-- Merging two cells holds the winner of what either has received. -/
theorem join (one : Wins writes received key cell) (two : Wins writes others key other) :
    Wins writes (received ∪ others) key (cell.join other) := by
  cases two with
  | nothing absent =>
    cases one with
    | nothing nowhere =>
      apply nothing
      rintro position (here | there) write found
      · exact nowhere position here write found
      · exact absent position there write found
    | write member found same greatest first =>
      apply write (.inl member) found same _ first
      rintro other (here | there) received found same
      · exact greatest other here received found same
      · exact absurd same (absent other there received found)
  | write member found same greatest first =>
    cases one with
    | nothing nowhere =>
      apply write (.inr member) found same _ first
      rintro other (here | there) received found same
      · exact absurd same (nowhere other here received found)
      · exact greatest other there received found same
    | write member' found' same' greatest' first' =>
      unfold Cell.join Cell.put
      dsimp only
      split
      · rename_i behind
        apply write (.inl member') found' same' _ first'
        rintro other (here | there) received found same
        · exact greatest' other here received found same
        · exact (greatest other there received found same).trans behind
      · rename_i ahead
        apply write (.inr member) found same _ first
        rintro other (here | there) received found same
        · exact (greatest' other here received found same).trans (le_of_not_ge ahead)
        · exact greatest other there received found same

theorem single {value : Value} {stamp : Stamp}
    (fresh : ∀ (position : Nat) (write : Write Key Value Stamp),
      writes[position]? = some write → write.key = key → write.stamp ≠ stamp) :
    Wins (writes ++ [⟨key, value, stamp⟩]) {writes.length} key (some (value, stamp)) := by
  have found : (writes ++ [⟨key, value, stamp⟩])[writes.length]? =
      some (⟨key, value, stamp⟩ : Write Key Value Stamp) := by
    simp
  apply write (Set.mem_singleton _) found rfl
  · rintro other rfl received same _
    obtain rfl := Option.some.inj (found.symm.trans same)
    exact le_rfl
  · intro earlier less before same
    rw [List.getElem?_append_left less] at same
    exact fresh earlier before same

/-- A new write is held if it wins, when all writes with its stamp were received. -/
theorem put (wins : Wins writes received key cell)
    (bounded : ∀ position ∈ received, position < writes.length) {value : Value} {stamp : Stamp}
    (known : ∀ (position : Nat) (write : Write Key Value Stamp),
      writes[position]? = some write → write.stamp = stamp → position ∈ received) :
    Wins (writes ++ [⟨key, value, stamp⟩]) (insert writes.length received) key
      (cell.put value stamp) := by
  have before := wins.append bounded [⟨key, value, stamp⟩]
  by_cases fresh : ∀ (position : Nat) (write : Write Key Value Stamp),
      writes[position]? = some write → write.key = key → write.stamp ≠ stamp
  · have joined := before.join (single fresh)
    rw [Set.union_singleton] at joined
    exact joined
  · push Not at fresh
    obtain ⟨again, same, found, sameKey, sameStamp⟩ := fresh
    have member := known again same found sameStamp
    cases wins with
    | nothing absent => exact absurd sameKey (absent again member same found)
    | write holds held isKey greatest first =>
      rename_i position winner
      have behind : stamp ≤ winner.stamp := sameStamp ▸ greatest again member same found sameKey
      have kept : Cell.put (some (winner.value, winner.stamp)) value stamp =
          some (winner.value, winner.stamp) := if_pos behind
      rw [kept]
      have old {place : Nat} (within : place < writes.length) :
          (writes ++ [⟨key, value, stamp⟩])[place]? = writes[place]? :=
        List.getElem?_append_left within
      have within := bounded position holds
      apply write (Set.mem_insert_of_mem _ holds) ((old within).trans held) isKey
      · rintro other (rfl | among) received got isThis
        · have new : (writes ++ [⟨key, value, stamp⟩])[writes.length]? =
              some (⟨key, value, stamp⟩ : Write Key Value Stamp) := by
            simp
          obtain rfl := Option.some.inj (new.symm.trans got)
          exact behind
        · rw [old (bounded other among)] at got
          exact greatest other among received got isThis
      · intro earlier less past got
        rw [old (less.trans within)] at got
        exact first earlier less past got

theorem put_other (wins : Wins writes received key cell)
    (bounded : ∀ position ∈ received, position < writes.length)
    {new : Write Key Value Stamp} (different : new.key ≠ key) :
    Wins (writes ++ [new]) (insert writes.length received) key cell := by
  have elsewhere : Wins (writes ++ [new]) {writes.length} key none := by
    apply nothing
    rintro position rfl write found
    have last : (writes ++ [new])[writes.length]? = some new := by simp
    obtain rfl := Option.some.inj (last.symm.trans found)
    exact different
  have joined := (wins.append bounded [new]).join elsewhere
  rw [Set.union_singleton] at joined
  exact joined

end Wins

/-! ## Stores -/

/-- A store of cells, with its operations and what they do to the cells. -/
structure Store (Key Value Stamp : Type) [LinearOrder Stamp] [DecidableEq Key] where
  State : Type
  empty : State
  write : State → Key → Value → Stamp → State
  merge : State → State → State
  cell : State → Key → Cell Value Stamp
  cell_empty : ∀ key, cell empty key = none
  cell_write : ∀ state key value stamp other, cell (write state key value stamp) other =
    if other = key then (cell state key).put value stamp else cell state other
  cell_merge : ∀ state received key,
    cell (merge state received) key = (cell state key).join (cell received key)

end LastWriter
