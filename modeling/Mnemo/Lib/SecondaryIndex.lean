import Mathlib.Logic.Function.Basic

/-!
# A secondary index that is kept by hand

Records under identifiers, and beside them entries that lead from names to identifiers.  Records and
entries are written separately; for each way of writing them it is told when looking up a name still
finds a record of that name exactly if there is one.
-/

/-- Records, and an index which leads from names to their identifiers. -/
structure SecondaryIndex (Id Name Record : Type) where
  records : Id → Option Record
  entries : Name → Option Id

namespace SecondaryIndex

variable {Id Name Record : Type}

/-- The record to which the entry of a name leads. -/
def find (store : SecondaryIndex Id Name Record) (name : Name) : Option Record :=
  (store.entries name).bind store.records

variable (nameOf : Record → Option Name)

/-- A record of a name is found exactly if there is one. -/
structure Right (store : SecondaryIndex Id Name Record) : Prop where
  named : ∀ name record, store.find name = some record → nameOf record = some name
  complete : ∀ id record name, store.records id = some record → nameOf record = some name →
    ∃ found, store.find name = some found

/-- No entry leads nowhere. -/
def Closed (store : SecondaryIndex Id Name Record) : Prop :=
  ∀ name id, store.entries name = some id → ∃ record, store.records id = some record

/-- No other record has the name. -/
def Sole (store : SecondaryIndex Id Name Record) (id : Id) (name : Name) : Prop :=
  ∀ other record, store.records other = some record → nameOf record = some name → other = id

/-- A record is stored without changing the index: its name already leads to it or to another
record, and no other name leads to it. -/
structure Storable (store : SecondaryIndex Id Name Record) (id : Id) (record : Record) : Prop where
  led : ∀ name, nameOf record = some name →
    store.entries name = some id ∨ ∃ found, store.find name = some found
  only : ∀ name, store.entries name = some id → nameOf record = some name

/-- No other name leads to an identifier. -/
def Unled (store : SecondaryIndex Id Name Record) (id : Id) (name : Name) : Prop :=
  ∀ other, store.entries other = some id → other = name

variable [DecidableEq Id] [DecidableEq Name]

/-- Store a record. -/
def store (index : SecondaryIndex Id Name Record) (id : Id) (record : Record) :
    SecondaryIndex Id Name Record :=
  { index with records := Function.update index.records id (some record) }

/-- Delete a record. -/
def drop (index : SecondaryIndex Id Name Record) (id : Id) : SecondaryIndex Id Name Record :=
  { index with records := Function.update index.records id none }

/-- Let a name lead to an identifier. -/
def enter (index : SecondaryIndex Id Name Record) (name : Name) (id : Id) :
    SecondaryIndex Id Name Record :=
  { index with entries := Function.update index.entries name (some id) }

/-- Delete the entry of a name. -/
def leave (index : SecondaryIndex Id Name Record) (name : Name) : SecondaryIndex Id Name Record :=
  { index with entries := Function.update index.entries name none }

variable {nameOf} {index : SecondaryIndex Id Name Record} {id : Id} {record : Record} {name : Name}

omit [DecidableEq Name] in
theorem records_store (index : SecondaryIndex Id Name Record) (id other : Id) (record : Record) :
    (index.store id record).records other =
      if other = id then some record else index.records other :=
  Function.update_apply ..

omit [DecidableEq Name] in
theorem records_drop (index : SecondaryIndex Id Name Record) (id other : Id) :
    (index.drop id).records other = if other = id then none else index.records other :=
  Function.update_apply ..

omit [DecidableEq Id] in
theorem entries_enter (index : SecondaryIndex Id Name Record) (name other : Name) (id : Id) :
    (index.enter name id).entries other =
      if other = name then some id else index.entries other :=
  Function.update_apply ..

omit [DecidableEq Id] in
theorem entries_leave (index : SecondaryIndex Id Name Record) (name other : Name) :
    (index.leave name).entries other = if other = name then none else index.entries other :=
  Function.update_apply ..

omit [DecidableEq Name] in
theorem find_store (index : SecondaryIndex Id Name Record) (id : Id) (record : Record)
    (name : Name) : (index.store id record).find name =
      if index.entries name = some id then some record else index.find name := by
  unfold find store
  cases entry : index.entries name with
  | none => simp
  | some other =>
    by_cases same : other = id
    · simp [same]
    · simp [same]

omit [DecidableEq Name] in
theorem find_drop (index : SecondaryIndex Id Name Record) (id : Id) (name : Name) :
    (index.drop id).find name =
      if index.entries name = some id then none else index.find name := by
  unfold find drop
  cases entry : index.entries name with
  | none => simp
  | some other =>
    by_cases same : other = id
    · simp [same]
    · simp [same]

omit [DecidableEq Name] in
/-- Storing a record alone keeps the index right exactly if it is storable. -/
theorem right_store_iff (right : Right nameOf index) :
    Right nameOf (index.store id record) ↔ Storable nameOf index id record := by
  constructor
  · intro after
    constructor
    · intro name isName
      by_cases led : index.entries name = some id
      · exact .inl led
      · have stored : (index.store id record).records id = some record := by simp [records_store]
        obtain ⟨found, finds⟩ := after.complete id record name stored isName
        rw [find_store, if_neg led] at finds
        exact .inr ⟨found, finds⟩
    · intro name led
      apply after.named name record
      rw [find_store, if_pos led]
  · intro storable
    constructor
    · intro name found finds
      rw [find_store] at finds
      split at finds
      · rename_i led
        rw [← Option.some.inj finds]
        exact storable.only name led
      · exact right.named name found finds
    · intro other held name stored isName
      rw [find_store]
      split
      · exact ⟨record, rfl⟩
      · rename_i notLed
        rw [records_store] at stored
        split at stored
        · rw [← Option.some.inj stored] at isName
          exact (storable.led name isName).resolve_left notLed
        · exact right.complete other held name stored isName

/-- Storing a record and entering its name keeps the index right exactly if no other name leads to
the record. -/
theorem right_store_enter_iff (right : Right nameOf index) (isName : nameOf record = some name) :
    Right nameOf ((index.store id record).enter name id) ↔ Unled index id name := by
  have finds (other : Name) : ((index.store id record).enter name id).find other =
      if other = name then some record else (index.store id record).find other := by
    unfold find enter
    by_cases same : other = name
    · simp [same, store]
    · simp [same]
  constructor
  · intro after other led
    by_contra different
    have found : ((index.store id record).enter name id).find other = some record := by
      rw [finds, if_neg different, find_store, if_pos led]
    exact different (Option.some.inj ((after.named other record found).symm.trans isName))
  · intro unled
    constructor
    · intro other found isFound
      rw [finds] at isFound
      split at isFound
      · rename_i same
        rw [same, ← Option.some.inj isFound]
        exact isName
      · rename_i different
        rw [find_store, if_neg fun led => different (unled other led)] at isFound
        exact right.named other found isFound
    · intro other held another stored isAnother
      rw [finds]
      split
      · exact ⟨record, rfl⟩
      · rename_i different
        rw [find_store, if_neg fun led => different (unled another led)]
        have kept : (index.store id record).records other = some held := stored
        rw [records_store] at kept
        split at kept
        · rw [← Option.some.inj kept] at isAnother
          exact absurd (Option.some.inj (isAnother.symm.trans isName)) different
        · exact right.complete other held another kept isAnother

omit [DecidableEq Id] [DecidableEq Name] in
theorem Right.led_iff (right : Right nameOf index) (held : index.records id = some record)
    {other : Name} (led : index.entries other = some id) : nameOf record = some other := by
  apply right.named other record
  unfold find
  rw [led]
  exact held

omit [DecidableEq Name] in
/-- Deleting a record alone keeps the index right exactly if its name led to another record, or
no other record has it. -/
theorem right_drop_iff (right : Right nameOf index) :
    Right nameOf (index.drop id) ↔
      ∀ name, index.entries name = some id → Sole nameOf index id name := by
  constructor
  · intro after name led other found stored isName
    by_contra different
    have still : (index.drop id).records other = some found := by
      rw [records_drop, if_neg different, stored]
    obtain ⟨again, finds⟩ := after.complete other found name still isName
    rw [find_drop, if_pos led] at finds
    exact nomatch finds
  · intro sole
    constructor
    · intro name found finds
      rw [find_drop] at finds
      split at finds
      · exact nomatch finds
      · exact right.named name found finds
    · intro other found name stored isName
      rw [records_drop] at stored
      split at stored
      · exact nomatch stored
      rename_i different
      rw [find_drop, if_neg fun led => different (sole name led other found stored isName)]
      exact right.complete other found name stored isName

/-- Deleting a record and the entry of its name keeps the index right exactly if no other record
has the name. -/
theorem right_drop_leave_iff (right : Right nameOf index) (held : index.records id = some record)
    (isName : nameOf record = some name) :
    Right nameOf ((index.drop id).leave name) ↔ Sole nameOf index id name := by
  have finds (other : Name) : ((index.drop id).leave name).find other =
      if other = name then none else index.find other := by
    by_cases same : other = name
    · simp [same, find, leave]
    · have unchanged : ((index.drop id).leave name).find other = (index.drop id).find other := by
        simp [find, leave, same]
      rw [unchanged, find_drop, if_neg same, if_neg]
      intro led
      exact same (Option.some.inj ((right.led_iff held led).symm.trans isName))
  constructor
  · intro after other found stored isAlso
    by_contra different
    have still : ((index.drop id).leave name).records other = some found := by
      change (index.drop id).records other = some found
      rw [records_drop, if_neg different, stored]
    obtain ⟨again, impossible⟩ := after.complete other found name still isAlso
    rw [finds, if_pos rfl] at impossible
    exact nomatch impossible
  · intro sole
    constructor
    · intro other found isFound
      rw [finds] at isFound
      split at isFound
      · exact nomatch isFound
      · exact right.named other found isFound
    · intro other found another stored isAnother
      have kept : (index.drop id).records other = some found := stored
      rw [records_drop] at kept
      split at kept
      · exact nomatch kept
      rename_i different
      rw [finds, if_neg]
      · exact right.complete other found another kept isAnother
      · rintro rfl
        exact different (sole other found kept isAnother)

/-! ## Entries that lead nowhere -/

omit [DecidableEq Name] in
theorem closed_store (closed : Closed index) : Closed (index.store id record) := by
  intro name other led
  obtain ⟨found, stored⟩ := closed name other led
  rw [records_store]
  split
  · exact ⟨record, rfl⟩
  · exact ⟨found, stored⟩

theorem closed_store_enter (closed : Closed index) :
    Closed ((index.store id record).enter name id) := by
  intro other held led
  rw [entries_enter] at led
  split at led
  · rw [← Option.some.inj led]
    exact ⟨record, by simp [enter, records_store]⟩
  · exact closed_store closed other held led

omit [DecidableEq Name] in
theorem closed_drop_iff (closed : Closed index) :
    Closed (index.drop id) ↔ ∀ name, index.entries name ≠ some id := by
  constructor
  · intro after name led
    obtain ⟨record, stored⟩ := after name id led
    simp [records_drop] at stored
  · intro unled name other led
    obtain ⟨record, stored⟩ := closed name other led
    have different : other ≠ id := by
      rintro rfl
      exact unled name led
    exact ⟨record, by rw [records_drop, if_neg different, stored]⟩

theorem closed_drop_leave (right : Right nameOf index) (closed : Closed index)
    (held : index.records id = some record) (isName : nameOf record = some name) :
    Closed ((index.drop id).leave name) := by
  intro other found led
  rw [entries_leave] at led
  split at led
  · exact nomatch led
  rename_i different
  have before : index.entries other = some found := led
  obtain ⟨kept, stored⟩ := closed other found before
  have another : found ≠ id := by
    rintro rfl
    exact different (Option.some.inj ((right.led_iff held before).symm.trans isName))
  refine ⟨kept, ?_⟩
  change (index.drop id).records found = some kept
  rw [records_drop, if_neg another, stored]

end SecondaryIndex
