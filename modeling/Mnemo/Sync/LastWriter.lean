import Mathlib
import Mnemo.Lib.AssocMap
import Mnemo.Lib.Gossip
import Mnemo.Lib.LastWriter
import Mnemo.Sync.HybridClock

/-!
# Registers and maps whose last writer wins

Writes are stamped by the clock of the node that writes.  Replicas that have received the same
writes hold the same entries, and each key has the value of the write with the greatest stamp, or
none when that write was a removal.
-/

namespace Mnemo
namespace Sync

variable {Key Value : Type} [DecidableEq Key]

/-! ## The register -/

/-- Last-writer-wins register. -/
structure LWWRegister (Value : Type) where
  value : Value
  timestamp : HlcTimestamp

namespace LWWRegister

def new (value : Value) (timestamp : HlcTimestamp) : LWWRegister Value := { value, timestamp }

/-- Update the value if the new timestamp is strictly greater. -/
def set (register : LWWRegister Value) (value : Value) (timestamp : HlcTimestamp) :
    LWWRegister Value × Bool :=
  if register.timestamp < timestamp then ({ value, timestamp }, true) else (register, false)

/-- Merge with another register; the higher timestamp wins. -/
def merge (register other : LWWRegister Value) : LWWRegister Value :=
  if register.timestamp < other.timestamp then
    { value := other.value, timestamp := other.timestamp }
  else register

def get (register : LWWRegister Value) : Value := register.value

/-- The register as a cell. -/
def cell (register : LWWRegister Value) : LastWriter.Cell Value HlcTimestamp :=
  some (register.value, register.timestamp)

theorem cell_set (register : LWWRegister Value) (value : Value) (timestamp : HlcTimestamp) :
    (register.set value timestamp).1.cell = register.cell.put value timestamp := by
  unfold set cell LastWriter.Cell.put
  dsimp only
  by_cases later : register.timestamp < timestamp
  · rw [if_pos later, if_neg (not_le_of_gt later)]
  · rw [if_neg later, if_pos (le_of_not_gt later)]

theorem cell_merge (register other : LWWRegister Value) :
    (register.merge other).cell = register.cell.join other.cell := by
  unfold merge cell LastWriter.Cell.join LastWriter.Cell.put
  dsimp only
  by_cases later : register.timestamp < other.timestamp
  · rw [if_pos later, if_neg (not_le_of_gt later)]
  · rw [if_neg later, if_pos (le_of_not_gt later)]

theorem eq_of_cell_eq {held other : Option (LWWRegister Value)}
    (same : held.bind cell = other.bind cell) : held = other := by
  cases held with
  | none =>
    cases other with
    | none => rfl
    | some register => exact nomatch same
  | some register =>
    cases other with
    | none => exact nomatch same
    | some register' =>
      obtain ⟨values, timestamps⟩ := Prod.mk.inj (Option.some.inj same)
      obtain ⟨value, timestamp⟩ := register
      rw [show value = _ from values, show timestamp = _ from timestamps]

/-- A replica of a register, which its first write or merge creates. -/
def store (Value : Type) : LastWriter.Store Unit Value HlcTimestamp where
  State := Option (LWWRegister Value)
  empty := none
  write held _ value timestamp :=
    match held with
    | some register => some (register.set value timestamp).1
    | none => some (new value timestamp)
  merge held received :=
    match received, held with
    | some other, some register => some (register.merge other)
    | some other, none => some other
    | none, held => held
  cell held _ := held.bind cell
  cell_empty _ := rfl
  cell_write held key value timestamp other := by
    cases held with
    | none => rfl
    | some register => exact register.cell_set value timestamp
  cell_merge held received key := by
    cases received with
    | none => rfl
    | some other =>
        cases held with
        | none => rfl
        | some register => exact register.cell_merge other

end LWWRegister

/-! ## The map -/

/-- The value of a key, none once it was removed, with its timestamp. -/
structure LWWEntry (Value : Type) where
  value : Option Value
  timestamp : HlcTimestamp

namespace LWWEntry

/-- The entry as a cell. -/
def cell (entry : LWWEntry Value) : LastWriter.Cell (Option Value) HlcTimestamp :=
  some (entry.value, entry.timestamp)

end LWWEntry

/-- Last-writer-wins map. -/
structure LWWMap (Key Value : Type) [DecidableEq Key] where
  entries : AList fun _ : Key => LWWEntry Value

namespace LWWMap

def new : LWWMap Key Value := { entries := ∅ }

/-- Insert an entry, unless the key has one that is not older. -/
def insertNewer (map : LWWMap Key Value) (key : Key) (entry : LWWEntry Value) :
    LWWMap Key Value × Bool :=
  match map.entries.lookup key with
  | some held =>
      if held.timestamp ≥ entry.timestamp then (map, false)
      else ({ entries := map.entries.insert key entry }, true)
  | none => ({ entries := map.entries.insert key entry }, true)

/-- Set a key; whether the value was updated. -/
def set (map : LWWMap Key Value) (key : Key) (value : Value) (timestamp : HlcTimestamp) :
    LWWMap Key Value × Bool :=
  map.insertNewer key { value := some value, timestamp }

/-- Remove a key with a tombstone; whether it was applied. -/
def remove (map : LWWMap Key Value) (key : Key) (timestamp : HlcTimestamp) :
    LWWMap Key Value × Bool :=
  map.insertNewer key { value := none, timestamp }

/-- The value of a key, none if it is absent or removed. -/
def get (map : LWWMap Key Value) (key : Key) : Option Value :=
  (map.entries.lookup key).bind LWWEntry.value

/-- Merge with another map, key by key. -/
def merge (map other : LWWMap Key Value) : LWWMap Key Value :=
  other.entries.foldl (fun merged key entry => (merged.insertNewer key entry).1) map

/-- The cell of a key. -/
def cell (map : LWWMap Key Value) (key : Key) : LastWriter.Cell (Option Value) HlcTimestamp :=
  (map.entries.lookup key).bind LWWEntry.cell

theorem get_eq (map : LWWMap Key Value) (key : Key) :
    map.get key = (map.cell key).bind Prod.fst := by
  unfold get cell
  cases map.entries.lookup key <;> rfl

theorem lookup_eq_of_cell_eq {map other : LWWMap Key Value} {key : Key}
    (same : map.cell key = other.cell key) :
    map.entries.lookup key = other.entries.lookup key := by
  unfold cell at same
  cases held : map.entries.lookup key with
  | none =>
    cases held' : other.entries.lookup key with
    | none => rfl
    | some entry => simp [held, held', LWWEntry.cell] at same
  | some entry =>
    cases held' : other.entries.lookup key with
    | none => simp [held, held', LWWEntry.cell] at same
    | some entry' =>
      obtain ⟨value, timestamp⟩ := entry
      obtain ⟨value', timestamp'⟩ := entry'
      simp only [held, held', LWWEntry.cell, Option.bind_some, Option.some.injEq,
        Prod.mk.injEq] at same
      rw [same.1, same.2]

theorem cell_insertNewer (map : LWWMap Key Value) (key other : Key) (entry : LWWEntry Value) :
    (map.insertNewer key entry).1.cell other =
      if other = key then (map.cell other).put entry.value entry.timestamp else map.cell other := by
  have inserted : cell { entries := map.entries.insert key entry } other =
      if other = key then entry.cell else map.cell other := by
    unfold cell
    by_cases same : other = key
    · subst other
      simp
    · simp [AList.lookup_insert_ne same, same]
  unfold insertNewer
  split
  · rename_i held found
    by_cases same : other = key
    · subst other
      have now : map.cell key = held.cell := by simp [cell, found]
      rw [if_pos rfl] at inserted ⊢
      rw [now]
      unfold LastWriter.Cell.put LWWEntry.cell
      dsimp only
      by_cases newer : held.timestamp ≥ entry.timestamp
      · rw [if_pos newer, if_pos newer, now]
        rfl
      · rw [if_neg newer, if_neg newer, inserted]
        rfl
    · rw [if_neg same] at inserted ⊢
      split
      · rfl
      · exact inserted
  · rename_i absent
    rw [inserted]
    by_cases same : other = key
    · subst other
      rw [if_pos rfl, if_pos rfl]
      simp [cell, absent, LastWriter.Cell.put, LWWEntry.cell]
    · rw [if_neg same, if_neg same]

theorem cell_merge (map other : LWWMap Key Value) (key : Key) :
    (map.merge other).cell key = (map.cell key).join (other.cell key) := by
  have reads (merged : LWWMap Key Value) (entry : Sigma fun _ : Key => LWWEntry Value)
      (key : Key) : (merged.insertNewer entry.1 entry.2).1.cell key =
        if key = entry.1 then (merged.cell key).put entry.2.value entry.2.timestamp
        else merged.cell key :=
    merged.cell_insertNewer entry.1 key entry.2
  refine (AssocMap.read_foldl cell _ (fun held entry => held.put entry.value entry.timestamp) reads
    other.entries.entries other.entries.nodupKeys map key).trans ?_
  change _ = (map.cell key).join ((List.dlookup key other.entries.entries).bind LWWEntry.cell)
  cases List.dlookup key other.entries.entries <;> rfl

/-- A replica of a map; a write without a value is a removal. -/
def store (Key Value : Type) [DecidableEq Key] :
    LastWriter.Store Key (Option Value) HlcTimestamp where
  State := LWWMap Key Value
  empty := new
  write map key value timestamp :=
    match value with
    | some value => (map.set key value timestamp).1
    | none => (map.remove key timestamp).1
  merge := merge
  cell := cell
  cell_empty _ := by simp [cell, new]
  cell_write map key value timestamp other := by
    cases value with
    | none =>
        refine (map.cell_insertNewer key other _).trans ?_
        split
        · rename_i same
          rw [same]
        · rfl
    | some value =>
        refine (map.cell_insertNewer key other _).trans ?_
        split
        · rename_i same
          rw [same]
        · rfl
  cell_merge := cell_merge

end LWWMap

/-! ## Runs -/

/-- A replica, and which of the writes it has received. -/
structure WriteReplica (State : Type) where
  store : State
  received : Set Nat

/-- The clocks of the nodes, and the writes with their stamps, oldest first. -/
structure WriteLedger (Key Value : Type) where
  clocks : NodeId → HybridClock
  writes : List (LastWriter.Write Key Value HlcTimestamp)

/-- A node writes, or moves its clock in between; its wall clock may show anything. -/
inductive LocalStep (Key Value : Type) where
  | write (key : Key) (value : Value) (wallMs : Nat)
  | now (wallMs : Nat)
  | receive (remote : HlcTimestamp) (wallMs : Nat)

/-- What a step moves the clock to, and the stamp it issues. -/
def LocalStep.issue (change : LocalStep Key Value) (clock : HybridClock) :
    HybridClock × HlcTimestamp :=
  match change with
  | .write _ _ wallMs => clock.now wallMs
  | .now wallMs => clock.now wallMs
  | .receive remote wallMs => clock.receive remote wallMs

/-- No counter of a clock overflows. -/
def LocalStep.Fits (change : LocalStep Key Value) (clock : HybridClock) : Prop :=
  match change with
  | .write _ _ wallMs => clock.NowFits wallMs
  | .now wallMs => clock.NowFits wallMs
  | .receive remote wallMs => clock.ReceiveFits remote wallMs

variable (store : LastWriter.Store Key Value HlcTimestamp)

/-- Writes go to the replica of the node, stamped by its clock. -/
def writeRules :
    Gossip.Rules NodeId (WriteReplica store.State) (WriteLedger Key Value)
      (LocalStep Key Value) where
  apply ledger node change replica :=
    match change with
    | .write key value _ =>
        { store := store.write replica.store key value (change.issue (ledger.clocks node)).2
          received := insert ledger.writes.length replica.received }
    | _ => replica
  note ledger node change :=
    let issued := change.issue (ledger.clocks node)
    { clocks := Function.update ledger.clocks node issued.1
      writes :=
        match change with
        | .write key value _ => ledger.writes ++ [{ key, value, stamp := issued.2 }]
        | _ => ledger.writes }
  merge replica received :=
    { store := store.merge replica.store received.store
      received := replica.received ∪ received.received }

/-- Replicas that gossip. -/
abbrev Writers := Gossip NodeId (WriteReplica store.State) (WriteLedger Key Value)

namespace Writers

/-- Nothing was written. -/
def initial : Writers store :=
  { replicas := fun _ => { store := store.empty, received := ∅ }
    sent := []
    ledger := { clocks := HybridClock.new, writes := [] } }

/-- Every key holds the winner of the received writes. -/
structure HoldsWinners (ledger : WriteLedger Key Value) (replica : WriteReplica store.State) :
    Prop where
  bounded : ∀ position ∈ replica.received, position < ledger.writes.length
  wins : ∀ key, LastWriter.Wins ledger.writes replica.received key (store.cell replica.store key)

/-- Clocks have the ids of their nodes, and a node has received the writes with its stamps. -/
structure KnowsOwn (ledger : WriteLedger Key Value) (node : NodeId)
    (replica : WriteReplica store.State) : Prop where
  ids : ∀ other, (ledger.clocks other).nodeId = other
  own : ∀ (position : Nat) (write : LastWriter.Write Key Value HlcTimestamp),
    ledger.writes[position]? = some write → write.stamp.nodeId = node →
      position ∈ replica.received

/-- A step of the clock fits. -/
def ClockFits (ledger : WriteLedger Key Value) (node : NodeId) (change : LocalStep Key Value)
    (_ : WriteReplica store.State) : Prop :=
  change.Fits (ledger.clocks node)

/-- Different writes have different stamps. -/
def StampsDiffer (writers : Writers store) : Prop :=
  ∀ (position other : Nat) (first second : LastWriter.Write Key Value HlcTimestamp),
    writers.ledger.writes[position]? = some first → writers.ledger.writes[other]? = some second →
      first.stamp = second.stamp → position = other

/-- The map of a replica has the winning values of what was received, and maps that have received the
same have the same entries. -/
structure MapConverges (writers : Writers (LWWMap.store Key Value)) : Prop where
  get : ∀ node key, ∃ winner,
    LastWriter.Wins writers.ledger.writes (writers.replicas node).received key winner ∧
      LWWMap.get (writers.replicas node).store key = winner.bind Prod.fst
  same : ∀ node other, (writers.replicas node).received = (writers.replicas other).received →
    ∀ key, (LWWMap.entries (writers.replicas node).store).lookup key =
      (LWWMap.entries (writers.replicas other).store).lookup key

/-- The register of a replica has the winning value of what was received, and registers that have
received the same are the same. -/
structure RegisterConverges (writers : Writers (LWWRegister.store Value)) : Prop where
  get : ∀ node, ∃ winner,
    LastWriter.Wins writers.ledger.writes (writers.replicas node).received () winner ∧
      Option.map LWWRegister.get (writers.replicas node).store = winner.map Prod.fst
  same : ∀ node other, (writers.replicas node).received = (writers.replicas other).received →
    (writers.replicas node).store = (writers.replicas other).store

theorem clocks_note (ledger : WriteLedger Key Value) (node other : NodeId)
    (change : LocalStep Key Value) :
    ((writeRules store).note ledger node change).clocks other =
      if other = node then (change.issue (ledger.clocks node)).1 else ledger.clocks other := by
  by_cases same : other = node
  · subst same
    rw [if_pos rfl]
    exact Function.update_self ..
  · rw [if_neg same]
    exact Function.update_of_ne same ..

omit [DecidableEq Key] in
theorem nodeId_issue (change : LocalStep Key Value) (clock : HybridClock) :
    (change.issue clock).1.nodeId = clock.nodeId ∧
      (change.issue clock).2 = (change.issue clock).1.stamp := by
  have now (wallMs : Nat) : (clock.now wallMs).1.nodeId = clock.nodeId := by
    unfold HybridClock.now
    split <;> rfl
  cases change with
  | write key value wallMs => exact ⟨now wallMs, rfl⟩
  | now wallMs => exact ⟨now wallMs, rfl⟩
  | receive remote wallMs =>
    refine ⟨?_, rfl⟩
    unfold LocalStep.issue HybridClock.receive
    dsimp only
    repeat' split
    all_goals rfl

theorem ids_note {ledger : WriteLedger Key Value}
    (ids : ∀ other, (ledger.clocks other).nodeId = other) (node : NodeId)
    (change : LocalStep Key Value) (other : NodeId) :
    (((writeRules store).note ledger node change).clocks other).nodeId = other := by
  rw [clocks_note]
  split
  · rename_i same
    rw [(nodeId_issue change _).1, ids, same]
  · exact ids other

theorem writes_note {ledger : WriteLedger Key Value} {node : NodeId}
    {change : LocalStep Key Value} {position : Nat}
    {write : LastWriter.Write Key Value HlcTimestamp}
    (found : ((writeRules store).note ledger node change).writes[position]? = some write) :
    ledger.writes[position]? = some write ∨
      position = ledger.writes.length ∧ write.stamp = (change.issue (ledger.clocks node)).2 ∧
        ∃ key value wallMs, change = .write key value wallMs := by
  cases change with
  | write key value wallMs =>
    change (ledger.writes ++ [_])[position]? = some write at found
    rcases lt_trichotomy position ledger.writes.length with less | rfl | more
    · rw [List.getElem?_append_left less] at found
      exact .inl found
    · rw [List.getElem?_append_right le_rfl, Nat.sub_self] at found
      obtain rfl := Option.some.inj found
      exact .inr ⟨rfl, rfl, key, value, wallMs, rfl⟩
    · rw [List.getElem?_eq_none (by simp; omega)] at found
      exact nomatch found
  | now wallMs => exact .inl found
  | receive remote wallMs => exact .inl found

theorem HoldsWinners.note {ledger : WriteLedger Key Value} {replica : WriteReplica store.State}
    (holds : HoldsWinners store ledger replica) (node : NodeId) (change : LocalStep Key Value) :
    HoldsWinners store ((writeRules store).note ledger node change) replica := by
  cases change with
  | write key value wallMs =>
    refine ⟨fun position member => ?_, fun key => (holds.wins key).append holds.bounded _⟩
    have before := holds.bounded position member
    unfold writeRules
    dsimp only
    rw [List.length_append]
    omega
  | now wallMs => exact ⟨holds.bounded, holds.wins⟩
  | receive remote wallMs => exact ⟨holds.bounded, holds.wins⟩

theorem HoldsWinners.apply {ledger : WriteLedger Key Value} {node : NodeId}
    {replica : WriteReplica store.State} (holds : HoldsWinners store ledger replica)
    (knows : KnowsOwn store ledger node replica) (change : LocalStep Key Value) :
    HoldsWinners store ((writeRules store).note ledger node change)
      ((writeRules store).apply ledger node change replica) := by
  cases change with
  | write key value wallMs =>
    constructor
    · rintro position (rfl | member)
      · unfold writeRules
        simp
      · exact (holds.note store node _).bounded position member
    · intro other
      have stampNode : (LocalStep.issue (.write key value wallMs : LocalStep Key Value)
          (ledger.clocks node)).2.nodeId = node := by
        obtain ⟨sameId, shown⟩ := nodeId_issue (.write key value wallMs : LocalStep Key Value)
          (ledger.clocks node)
        rw [shown]
        exact sameId.trans (knows.ids node)
      unfold writeRules
      dsimp only
      rw [store.cell_write]
      by_cases same : other = key
      · subst other
        rw [if_pos rfl]
        apply (holds.wins key).put holds.bounded
        intro position write found sameStamp
        apply knows.own position write found
        rw [sameStamp, stampNode]
      · rw [if_neg same]
        exact (holds.wins other).put_other holds.bounded (Ne.symm same)
  | now wallMs => exact holds.note store node _
  | receive remote wallMs => exact holds.note store node _

theorem keeps : Gossip.Keeps (writeRules store) (HoldsWinners store) (KnowsOwn store)
    fun _ _ _ _ => True where
  update ledger node change replica holds knows _ := by
    refine ⟨holds.apply store knows change, ids_note store knows.ids node change, ?_⟩
    intro position write found own
    rcases writes_note store found with old | ⟨rfl, _, key, value, wallMs, rfl⟩
    · have member := knows.own position write old own
      cases change with
      | write key value wallMs => exact Set.mem_insert_of_mem _ member
      | now wallMs => exact member
      | receive remote wallMs => exact member
    · exact Set.mem_insert _ _
  note ledger node change replica holds := holds.note store node change
  others ledger node other change replica different knows := by
    refine ⟨ids_note store knows.ids node change, ?_⟩
    intro position write found own
    rcases writes_note store found with old | ⟨_, stamp, _⟩
    · exact knows.own position write old own
    · obtain ⟨sameId, shown⟩ := nodeId_issue change (ledger.clocks node)
      have elsewhere : write.stamp.nodeId = node := by
        rw [stamp, shown]
        exact sameId.trans (knows.ids node)
      exact absurd (own.symm.trans elsewhere) different
  merge ledger node replica received holds held knows := by
    refine ⟨⟨?_, fun key => ?_⟩, knows.ids, ?_⟩
    · rintro position (member | member)
      · exact holds.bounded position member
      · exact held.bounded position member
    · unfold writeRules
      dsimp only
      rw [store.cell_merge]
      exact (holds.wins key).join (held.wins key)
    · intro position write found own
      exact .inl (knows.own position write found own)

/-- What the clocks show is not behind the stamps of the writes, which differ. -/
structure Stamped (ledger : WriteLedger Key Value) : Prop where
  ids : ∀ other, (ledger.clocks other).nodeId = other
  behind : ∀ write ∈ ledger.writes,
    write.stamp.reading ≤ (ledger.clocks write.stamp.nodeId).stamp.reading
  differ : ∀ (position other : Nat) (first second : LastWriter.Write Key Value HlcTimestamp),
    ledger.writes[position]? = some first → ledger.writes[other]? = some second →
      first.stamp = second.stamp → position = other

omit [DecidableEq Key] in
theorem reading_lt_of_fits {change : LocalStep Key Value} {clock : HybridClock}
    (fits : change.Fits clock) : clock.stamp.reading < (change.issue clock).2.reading := by
  cases change with
  | write key value wallMs => exact (HybridClock.now_spec fits).2.2
  | now wallMs => exact (HybridClock.now_spec fits).2.2
  | receive remote wallMs => exact (HybridClock.receive_spec fits).2.2.1

theorem Stamped.note {ledger : WriteLedger Key Value} (stamped : Stamped ledger) (node : NodeId)
    {change : LocalStep Key Value} (fits : change.Fits (ledger.clocks node)) :
    Stamped ((writeRules store).note ledger node change) := by
  obtain ⟨sameId, shown⟩ := nodeId_issue change (ledger.clocks node)
  have later := reading_lt_of_fits fits
  have issuer : (change.issue (ledger.clocks node)).2.nodeId = node := by
    rw [shown]
    exact sameId.trans (stamped.ids node)
  have fresh (position : Nat) (write : LastWriter.Write Key Value HlcTimestamp)
      (found : ledger.writes[position]? = some write) :
      write.stamp ≠ (change.issue (ledger.clocks node)).2 := by
    intro same
    have shows := stamped.behind write (List.mem_of_getElem? found)
    rw [same, issuer] at shows
    exact absurd later (not_lt_of_ge shows)
  refine ⟨ids_note store stamped.ids node change, ?_, ?_⟩
  · intro write member
    obtain ⟨position, found⟩ := List.mem_iff_getElem?.mp member
    rw [clocks_note]
    rcases writes_note store found with old | ⟨_, stamp, _⟩
    · have shows := stamped.behind write (List.mem_of_getElem? old)
      split
      · rename_i same
        rw [same] at shows
        rw [← shown]
        exact shows.trans later.le
      · exact shows
    · rw [stamp, issuer, if_pos rfl, shown]
  · intro position other first second one two same
    rcases writes_note store one with old | ⟨rfl, stamp, _⟩
    · rcases writes_note store two with old' | ⟨_, stamp', _⟩
      · exact stamped.differ position other first second old old' same
      · exact absurd (same.trans stamp') (fresh position first old)
    · rcases writes_note store two with old' | ⟨rfl, _, _⟩
      · exact absurd (same.symm.trans stamp) (fresh other second old')
      · rfl

theorem Stamped.step {writers : Writers store} (stamped : Stamped writers.ledger)
    {event : Gossip.Event NodeId (LocalStep Key Value)}
    (fits : writers.Fits (ClockFits store) event) :
    Stamped (writers.step (writeRules store) event).ledger := by
  cases event with
  | update node change => exact stamped.note store node fits
  | send node => exact stamped
  | merge node position =>
    unfold Gossip.step
    dsimp only
    split <;> exact stamped

theorem agrees_initial : Gossip.Agrees (HoldsWinners store) (KnowsOwn store) (initial store) := by
  refine ⟨fun node => ⟨?_, fun key => ?_⟩, (fun state impossible => nomatch impossible),
    fun node => ⟨fun _ => rfl, ?_⟩⟩
  · intro position member
    exact absurd member (Set.notMem_empty position)
  · unfold initial
    dsimp only
    rw [store.cell_empty]
    apply LastWriter.Wins.nothing
    intro position member
    exact absurd member (Set.notMem_empty position)
  · intro position write found
    exact nomatch found

theorem always_holdsWinners (events : List (Gossip.Event NodeId (LocalStep Key Value))) :
    StateMachine.Always (Gossip.step (writeRules store))
      (fun writers => ∀ node, HoldsWinners store writers.ledger (writers.replicas node))
      (initial store) events := by
  have fits (gossip : Writers store) (events : List (Gossip.Event NodeId (LocalStep Key Value))) :
      StateMachine.Guarded (Gossip.step (writeRules store))
        (Gossip.Fits fun _ _ _ _ => True) gossip events := by
    induction events generalizing gossip with
    | nil => exact trivial
    | cons event events ih =>
      refine ⟨?_, ih _⟩
      cases event <;> exact trivial
  apply (Gossip.always_agrees (keeps store) (agrees_initial store) (fits _ events)).mono
  exact fun writers agrees => agrees.replicas

theorem cell_eq_of_received_eq {store : LastWriter.Store Key Value HlcTimestamp}
    {writers : Writers store}
    (holds : ∀ node, HoldsWinners store writers.ledger (writers.replicas node))
    {node other : NodeId}
    (same : (writers.replicas node).received = (writers.replicas other).received) (key : Key) :
    store.cell (writers.replicas node).store key =
      store.cell (writers.replicas other).store key := by
  have mine := (holds node).wins key
  rw [same] at mine
  exact mine.unique ((holds other).wins key)

theorem mapConverges_of_holds {writers : Writers (LWWMap.store Key Value)}
    (holds : ∀ node, HoldsWinners _ writers.ledger (writers.replicas node)) :
    MapConverges writers := by
  constructor
  · intro node key
    exact ⟨_, (holds node).wins key, LWWMap.get_eq _ key⟩
  · intro node other same key
    exact LWWMap.lookup_eq_of_cell_eq (cell_eq_of_received_eq holds same key)

theorem registerConverges_of_holds {writers : Writers (LWWRegister.store Value)}
    (holds : ∀ node, HoldsWinners _ writers.ledger (writers.replicas node)) :
    RegisterConverges writers := by
  constructor
  · intro node
    refine ⟨_, (holds node).wins (), ?_⟩
    change _ = Option.map Prod.fst (Option.bind (writers.replicas node).store LWWRegister.cell)
    cases (writers.replicas node).store <;> rfl
  · intro node other same
    exact LWWRegister.eq_of_cell_eq (cell_eq_of_received_eq holds same ())

theorem always_stampsDiffer {events : List (Gossip.Event NodeId (LocalStep Key Value))}
    (fits : StateMachine.Guarded (Gossip.step (writeRules store)) (Gossip.Fits (ClockFits store))
      (initial store) events) :
    StateMachine.Always (Gossip.step (writeRules store)) (StampsDiffer store) (initial store)
      events := by
  have initially : Stamped (initial store).ledger :=
    ⟨fun _ => rfl, (fun write impossible => nomatch impossible),
      fun position other first second found => nomatch found⟩
  have preserved (writers : Writers store) (event : Gossip.Event NodeId (LocalStep Key Value))
      (stamped : Stamped writers.ledger) (fit : writers.Fits (ClockFits store) event) :
      Stamped (writers.step (writeRules store) event).ledger := stamped.step store fit
  have always : StateMachine.Always (Gossip.step (writeRules store))
      (fun writers => Stamped writers.ledger) (initial store) events :=
    fits.always preserved initially
  exact always.mono fun writers stamped => stamped.differ

/-- However writes, removals and merges follow each other, replicas of a map or of a register that
have received the same writes have the same entries, with the values of the writes that have the
greatest stamps; unless a clock overflows, no two writes have the same stamp. -/
theorem last_write_wins
    (mapEvents : List (Gossip.Event NodeId (LocalStep Key (Option Value))))
    (registerEvents : List (Gossip.Event NodeId (LocalStep Unit Value))) :
    StateMachine.Always (Gossip.step (writeRules (LWWMap.store Key Value))) MapConverges
        (initial _) mapEvents ∧
      StateMachine.Always (Gossip.step (writeRules (LWWRegister.store Value))) RegisterConverges
        (initial _) registerEvents ∧
      (StateMachine.Guarded (Gossip.step (writeRules (LWWMap.store Key Value)))
          (Gossip.Fits (ClockFits _)) (initial _) mapEvents →
        StateMachine.Always (Gossip.step (writeRules (LWWMap.store Key Value))) (StampsDiffer _)
          (initial _) mapEvents) ∧
      (StateMachine.Guarded (Gossip.step (writeRules (LWWRegister.store Value)))
          (Gossip.Fits (ClockFits _)) (initial _) registerEvents →
        StateMachine.Always (Gossip.step (writeRules (LWWRegister.store Value)))
          (StampsDiffer _) (initial _) registerEvents) := by
  refine ⟨?_, ?_, always_stampsDiffer _, always_stampsDiffer _⟩
  · exact (always_holdsWinners _ mapEvents).mono fun writers => mapConverges_of_holds
  · exact (always_holdsWinners _ registerEvents).mono fun writers => registerConverges_of_holds

/-- A removal on one node, and on another an older value that arrives later. -/
def lateValue : List (Gossip.Event NodeId (LocalStep String (Option Nat))) :=
  [.update "a" (.write "k" (some 1) 10), .update "b" (.write "k" none 20), .send "a",
    .send "b", .merge "b" 0, .merge "a" 1]

/-- A register that two nodes write. -/
def twoWriters : List (Gossip.Event NodeId (LocalStep Unit Nat)) :=
  [.update "a" (.write () 1 10), .update "b" (.write () 2 5), .send "a", .merge "b" 0]

theorem last_write_wins_lateValue :
    (MapConverges (StateMachine.finish (Gossip.step (writeRules (LWWMap.store String Nat)))
        (initial _) lateValue) ∧
      StateMachine.Always (Gossip.step (writeRules (LWWMap.store String Nat))) (StampsDiffer _)
        (initial _) lateValue) ∧
    RegisterConverges (StateMachine.finish (Gossip.step (writeRules (LWWRegister.store Nat)))
        (initial _) twoWriters) ∧
      StateMachine.Always (Gossip.step (writeRules (LWWRegister.store Nat))) (StampsDiffer _)
        (initial _) twoWriters := by
  obtain ⟨map, register, mapStamps, registerStamps⟩ := last_write_wins lateValue twoWriters
  refine ⟨⟨map.finish, mapStamps ?_⟩, register.finish, registerStamps ?_⟩
  · refine ⟨.inl ?_, .inl ?_, trivial, trivial, trivial, trivial, trivial⟩ <;> decide
  · refine ⟨.inl ?_, .inl ?_, trivial, trivial, trivial⟩ <;> decide

end Writers
end Sync
end Mnemo
