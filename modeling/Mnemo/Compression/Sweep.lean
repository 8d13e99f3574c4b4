import Mathlib.Data.List.AList
import Mnemo.Compression.Tier
import Mnemo.Lib.Scroll

/-!
# Compression sweeps

A sweep scrolls through the points of the episodes from the start, until it has examined as many as
its bound allows, and stores each point anew that is old enough for a higher tier.
-/

namespace Mnemo
namespace Compression

/-- A value in the payload of a point. -/
inductive PayloadValue where
  | stringValue (value : String)
  | doubleValue (value : ℚ)
  | integerValue (value : Int)
  | boolValue (value : Bool)
  | nullValue
  deriving DecidableEq, Repr

namespace PayloadValue

/-- The value as a floating-point number. -/
def asF64 : PayloadValue → Option ℚ
  | .doubleValue value => some value
  | .integerValue value => some value
  | _ => none

/-- The value as a text. -/
def asStr : PayloadValue → Option String
  | .stringValue value => some value
  | _ => none

end PayloadValue

/-- The payload of a point. -/
abbrev Payload := AList fun _ : String => PayloadValue

/-- A floating-point number cut to a 64-bit integer. -/
def toI64 (value : ℚ) : Int :=
  max (-2 ^ 63) (min (2 ^ 63 - 1) (if 0 ≤ value then ⌊value⌋ else ⌈value⌉))

/-- A point of the vector store. -/
structure ScrolledPoint (F : Type) where
  id : Uuid
  vector : List F
  payload : Payload

namespace ScrolledPoint

variable {F : Type}

/-- The tier in the payload, full by default. -/
def currentTier (point : ScrolledPoint F) : CompressionTier :=
  let name := ((point.payload.lookup "compression_tier").bind PayloadValue.asStr).getD "full"
  (CompressionTier.fromStrOpt name).getD .full

/-- The tier for the age of a point at an instant. -/
def targetTier (config : CompressionConfig) (fromTimestamp : Int → Option DateTime)
    (now : DateTime) (point : ScrolledPoint F) : CompressionTier :=
  match (point.payload.lookup "created_at").bind PayloadValue.asF64 with
  | some seconds => config.tierForTimestamp ((fromTimestamp (toI64 seconds)).getD now) now
  | none => .full

/-- A point with the vector and the payload of a tier. -/
def compressed (rounding : Rounding F) (tier : CompressionTier) (point : ScrolledPoint F) :
    ScrolledPoint F :=
  { point with
    vector := rounding.quantizeForTier point.vector tier
    payload := point.payload.insert "compression_tier" (.stringValue tier.asStr) }

end ScrolledPoint

/-- Counters about sweeps. -/
structure CompressionStats where
  tierCounts : CompressionTier → Nat
  lastSweepCompressed : Nat
  lastSweepExamined : Nat
  lastSweepEpoch : Int
  totalSweeps : Nat

/-- Count a point at a tier. -/
def CompressionStats.incrementTier (stats : CompressionStats) (tier : CompressionTier) :
    CompressionStats :=
  { stats with
    tierCounts := fun other => stats.tierCounts other + if other = tier then 1 else 0 }

/-- Forget the counts of the tiers. -/
def CompressionStats.resetTierCounts (stats : CompressionStats) : CompressionStats :=
  { stats with tierCounts := fun _ => 0 }

/-- The points of the episodes. -/
abbrev Episodes (F : Type) := Scroll.Collection (@ScrolledPoint.id F)

/-- What a sweep works on: the points, the counters, and how many points it has examined and
compressed. -/
structure Sweeping (F : Type) where
  episodes : Episodes F
  stats : CompressionStats
  compressedCount : Nat
  examinedCount : Nat

/-- The points and the counters between two sweeps. -/
structure VectorStore (F : Type) where
  episodes : Episodes F
  stats : CompressionStats

/-- The clock during a sweep, read once for each examined point. -/
structure SweepClock where
  began : DateTime
  reading : Nat → DateTime
  began_le : ∀ examined, began ≤ reading examined

section Sweep

variable {F : Type} (config : CompressionConfig) (fromTimestamp : Int → Option DateTime)
variable (rounding : Rounding F) (clock : SweepClock)

/-- The points which are read at once. -/
def batchSize : Nat := 100

/-- Examine a point, and store it anew if it has come to a higher tier. -/
def examine (point : ScrolledPoint F) (sweeping : Sweeping F) : Sweeping F :=
  let target := point.targetTier config fromTimestamp (clock.reading sweeping.examinedCount)
  let examined := { sweeping with
    stats := sweeping.stats.incrementTier target
    examinedCount := sweeping.examinedCount + 1 }
  if point.currentTier < target ∧ point.vector ≠ [] then
    { examined with
      episodes := sweeping.episodes.upsert (point.compressed rounding target)
      compressedCount := sweeping.compressedCount + 1 }
  else examined

/-- Examine the points of a batch in turn. -/
def examineBatch : List (ScrolledPoint F) → Sweeping F → Sweeping F
  | [], sweeping => sweeping
  | point :: points, sweeping =>
      examineBatch points (examine config fromTimestamp rounding clock point sweeping)

theorem examinedCount_examineBatch (points : List (ScrolledPoint F)) (sweeping : Sweeping F) :
    (examineBatch config fromTimestamp rounding clock points sweeping).examinedCount =
      sweeping.examinedCount + points.length := by
  induction points generalizing sweeping with
  | nil => rfl
  | cons point points ih =>
    have counted : (examine config fromTimestamp rounding clock point sweeping).examinedCount =
        sweeping.examinedCount + 1 := by
      unfold examine
      dsimp only
      split <;> rfl
    rw [examineBatch, ih, counted, List.length_cons]
    omega

/-- Examine batch after batch from an offset on, up to the bound of a sweep. -/
def examineFrom (offset : Option Uuid) (sweeping : Sweeping F) : Sweeping F :=
  if _ : config.maxPointsPerSweep ≤ sweeping.examinedCount then sweeping
  else
    let batch := Scroll.page ScrolledPoint.id batchSize offset sweeping.episodes.entries
    if _ : batch.1 = [] then sweeping
    else
      let examined := examineBatch config fromTimestamp rounding clock batch.1 sweeping
      match batch.2 with
      | none => examined
      | some next => examineFrom (some next) examined
termination_by config.maxPointsPerSweep - sweeping.examinedCount
decreasing_by
  have shown : 0 < (Scroll.page ScrolledPoint.id batchSize offset
    sweeping.episodes.entries).1.length := List.length_pos_of_ne_nil (by assumption)
  rw [examinedCount_examineBatch]
  omega

/-- One sweep from the start, and the number of points that it has compressed. -/
def runCompressionSweep (store : VectorStore F) : Nat × VectorStore F :=
  let swept := examineFrom config fromTimestamp rounding clock none
    { episodes := store.episodes, stats := store.stats.resetTierCounts
      compressedCount := 0, examinedCount := 0 }
  (swept.compressedCount,
    { episodes := swept.episodes
      stats := { swept.stats with
        lastSweepCompressed := swept.compressedCount
        lastSweepExamined := swept.examinedCount
        lastSweepEpoch := (clock.reading swept.examinedCount).fdiv 1000000000
        totalSweeps := swept.stats.totalSweeps + 1 } })

end Sweep

/-! ## What a sweep does to a point -/

section Reach

variable {F : Type} (config : CompressionConfig) (fromTimestamp : Int → Option DateTime)
variable (rounding : Rounding F) (clock : SweepClock)

/-- What becomes of a point that is examined at an instant. -/
def settled (now : DateTime) (point : ScrolledPoint F) : ScrolledPoint F :=
  if point.currentTier < point.targetTier config fromTimestamp now ∧ point.vector ≠ [] then
    point.compressed rounding (point.targetTier config fromTimestamp now)
  else point

/-- How many points a sweep examines if there are as many. -/
def reach : Nat := (config.maxPointsPerSweep + (batchSize - 1)) / batchSize * batchSize

variable {config fromTimestamp rounding clock}
variable {sweeping : Sweeping F} {point : ScrolledPoint F}

theorem settled_id (now : DateTime) :
    (settled config fromTimestamp rounding now point).id = point.id := by
  unfold settled
  split <;> rfl

theorem entries_examine
    (here : sweeping.episodes.entries[sweeping.examinedCount]? = some point) :
    ((examine config fromTimestamp rounding clock point sweeping).episodes.entries.length =
        sweeping.episodes.entries.length) ∧
      ∀ position, (examine config fromTimestamp rounding clock point
          sweeping).episodes.entries[position]? =
        if position = sweeping.examinedCount then
          some (settled config fromTimestamp rounding (clock.reading position) point)
        else sweeping.episodes.entries[position]? := by
  unfold examine settled
  dsimp only
  split
  · rename_i due
    have kept : point.id = (point.compressed rounding (point.targetTier config fromTimestamp
        (clock.reading sweeping.examinedCount))).id := rfl
    refine ⟨Scroll.Collection.length_upsert here kept, fun position => ?_⟩
    refine (Scroll.Collection.getElem?_upsert here kept position).trans ?_
    by_cases same : position = sweeping.examinedCount
    · subst position
      rw [if_pos rfl, if_pos rfl, if_pos due]
    · rw [if_neg same, if_neg same]
  · rename_i early
    refine ⟨rfl, fun position => ?_⟩
    by_cases same : position = sweeping.examinedCount
    · subst position
      rw [if_pos rfl, if_neg early, here]
    · rw [if_neg same]

/-- The points of a batch have been examined. -/
theorem entries_examineBatch (points : List (ScrolledPoint F))
    (shown : ∀ step point, points[step]? = some point →
      sweeping.episodes.entries[sweeping.examinedCount + step]? = some point) :
    ((examineBatch config fromTimestamp rounding clock points sweeping).episodes.entries.length =
        sweeping.episodes.entries.length) ∧
      ∀ position, (examineBatch config fromTimestamp rounding clock points
          sweeping).episodes.entries[position]? =
        if sweeping.examinedCount ≤ position ∧
            position < sweeping.examinedCount + points.length then
          sweeping.episodes.entries[position]?.map
            (settled config fromTimestamp rounding (clock.reading position))
        else sweeping.episodes.entries[position]? := by
  induction points generalizing sweeping with
  | nil =>
    refine ⟨rfl, fun position => ?_⟩
    rw [if_neg (by simp)]
    rfl
  | cons point points ih =>
    have here : sweeping.episodes.entries[sweeping.examinedCount]? = some point := shown 0 point rfl
    obtain ⟨length, entries⟩ := @entries_examine F config fromTimestamp rounding clock _ _ here
    have counted : (examine config fromTimestamp rounding clock point sweeping).examinedCount =
        sweeping.examinedCount + 1 :=
      examinedCount_examineBatch config fromTimestamp rounding clock [point] sweeping
    have later : ∀ step other, points[step]? = some other →
        (examine config fromTimestamp rounding clock point sweeping).episodes.entries[
          (examine config fromTimestamp rounding clock point sweeping).examinedCount + step]? =
            some other := by
      intro step other found
      rw [entries, counted, if_neg (by omega)]
      have next := shown (step + 1) other (by simpa using found)
      rw [← next]
      congr 1
      omega
    obtain ⟨kept, examined⟩ := ih later
    refine ⟨kept.trans length, fun position => ?_⟩
    rw [examineBatch, examined, counted, entries, List.length_cons]
    rcases Nat.lt_trichotomy position sweeping.examinedCount with before | same | behind
    · rw [if_neg (by omega), if_neg (by omega), if_neg (by omega)]
    · rw [if_neg (by omega), if_pos same, if_pos (by omega), same, here]
      rfl
    · rw [if_neg (by omega : position ≠ sweeping.examinedCount)]
      by_cases within : position < sweeping.examinedCount + (points.length + 1)
      · rw [if_pos (by omega), if_pos (by omega)]
      · rw [if_neg (by omega), if_neg (by omega)]

/-- A sweep that has come to a batch examines the points from there on up to its reach. -/
theorem entries_examineFrom (offset : Option Uuid)
    (whole : sweeping.examinedCount % batchSize = 0)
    (start : Scroll.startingAt ScrolledPoint.id offset sweeping.episodes.entries =
      sweeping.episodes.entries.drop sweeping.examinedCount) (position : Nat) :
    (examineFrom config fromTimestamp rounding clock offset
        sweeping).episodes.entries[position]? =
      if sweeping.examinedCount ≤ position ∧ position < reach config then
        sweeping.episodes.entries[position]?.map
          (settled config fromTimestamp rounding (clock.reading position))
      else sweeping.episodes.entries[position]? := by
  induction offset, sweeping using examineFrom.induct config fromTimestamp rounding clock with
  | case1 offset sweeping bounded =>
    unfold examineFrom
    rw [dif_pos bounded, if_neg]
    unfold reach batchSize at *
    omega
  | case2 offset sweeping further batch nothing =>
    unfold examineFrom
    rw [dif_neg further, dif_pos nothing]
    have page : batch = _ := Scroll.page_eq start
    rw [page] at nothing
    have short : sweeping.episodes.entries.length ≤ sweeping.examinedCount := by
      simpa [batchSize] using nothing
    by_cases within : sweeping.examinedCount ≤ position ∧ position < reach config
    · rw [if_pos within, List.getElem?_eq_none (by omega)]
      rfl
    · rw [if_neg within]
  | case3 offset sweeping further batch something last =>
    have page : batch = _ := Scroll.page_eq start
    have result : examineFrom config fromTimestamp rounding clock offset sweeping =
        examineBatch config fromTimestamp rounding clock batch.1 sweeping := by
      unfold examineFrom
      rw [dif_neg further, dif_neg something]
      simp only [batch] at last
      simp only [last, batch]
    obtain ⟨_, entries⟩ := @entries_examineBatch F config fromTimestamp rounding clock sweeping
      batch.1 (by rw [page]; exact Scroll.getElem?_of_page)
    rw [result, entries, page, List.length_take, List.length_drop]
    have end_near : sweeping.episodes.entries.length ≤ sweeping.examinedCount + batchSize := by
      rw [page] at last
      simpa using last
    by_cases inside : position < sweeping.episodes.entries.length
    · have reached : (sweeping.examinedCount ≤ position ∧ position < sweeping.examinedCount +
          min batchSize (sweeping.episodes.entries.length - sweeping.examinedCount)) ↔
          (sweeping.examinedCount ≤ position ∧ position < reach config) := by
        unfold reach batchSize at *
        omega
      simp only [reached]
    · rw [List.getElem?_eq_none (by omega)]
      simp
  | case4 offset sweeping further batch something next more head ih =>
    have page : batch = _ := Scroll.page_eq start
    have result : examineFrom config fromTimestamp rounding clock offset sweeping =
        examineFrom config fromTimestamp rounding clock (some more) next := by
      rw [examineFrom, dif_neg further, dif_neg something]
      simp only [batch] at head
      simp only [head, next, batch]
    obtain ⟨_, entries⟩ := @entries_examineBatch F config fromTimestamp rounding clock sweeping
      batch.1 (by rw [page]; exact Scroll.getElem?_of_page)
    obtain ⟨entry, found, same⟩ : ∃ entry, sweeping.episodes.entries[
        sweeping.examinedCount + batchSize]? = some entry ∧ entry.id = more := by
      rw [page] at head
      exact Option.map_eq_some_iff.mp head
    have long : sweeping.examinedCount + batchSize < sweeping.episodes.entries.length :=
      (List.getElem?_eq_some_iff.mp found).1
    have full : batch.1.length = batchSize := by
      rw [page, List.length_take, List.length_drop]
      omega
    have counted : next.examinedCount = sweeping.examinedCount + batchSize := by
      rw [← full]
      exact examinedCount_examineBatch config fromTimestamp rounding clock batch.1 sweeping
    have kept : next.episodes.entries[next.examinedCount]? = some entry := by
      rw [counted, ← found]
      refine (entries _).trans (if_neg ?_)
      rw [full]
      omega
    have multiple : next.examinedCount % batchSize = 0 := by
      rw [counted, Nat.add_mod_right]
      exact whole
    rw [result, ih multiple (same ▸ Scroll.Collection.startingAt_eq_drop kept)]
    have before : next.episodes.entries[position]? = _ := entries position
    rw [before, counted, full]
    have later : sweeping.examinedCount + batchSize ≤ reach config := by
      unfold reach batchSize at *
      omega
    by_cases early : position < sweeping.examinedCount + batchSize
    · rw [if_neg (by omega)]
      by_cases within : sweeping.examinedCount ≤ position
      · rw [if_pos (by omega), if_pos (by omega)]
      · rw [if_neg (by omega), if_neg (by omega)]
    · rw [if_neg (by omega : ¬ (sweeping.examinedCount ≤ position ∧
        position < sweeping.examinedCount + batchSize))]
      by_cases within : position < reach config
      · rw [if_pos (by omega), if_pos (by omega)]
      · rw [if_neg (by omega), if_neg (by omega)]

theorem entries_runCompressionSweep (store : VectorStore F) (position : Nat) :
    (runCompressionSweep config fromTimestamp rounding clock store).2.episodes.entries[position]? =
      if position < reach config then
        store.episodes.entries[position]?.map
          (settled config fromTimestamp rounding (clock.reading position))
      else store.episodes.entries[position]? := by
  refine (entries_examineFrom none rfl rfl position).trans ?_
  simp only [Nat.zero_le, true_and]

end Reach

/-! ## The tiers of a point -/

section Tiers

variable {F : Type} {config : CompressionConfig} {fromTimestamp : Int → Option DateTime}
variable {rounding : Rounding F} {point : ScrolledPoint F} {now : DateTime}

@[simp]
theorem currentTier_compressed (tier : CompressionTier) :
    (point.compressed rounding tier).currentTier = tier := by
  simp [ScrolledPoint.currentTier, ScrolledPoint.compressed, PayloadValue.asStr]

@[simp]
theorem targetTier_compressed (tier : CompressionTier) :
    (point.compressed rounding tier).targetTier config fromTimestamp now =
      point.targetTier config fromTimestamp now := by
  simp [ScrolledPoint.targetTier, ScrolledPoint.compressed, AList.lookup_insert_ne]

@[simp]
theorem vector_compressed (tier : CompressionTier) :
    (point.compressed rounding tier).vector = [] ↔ point.vector = [] := by
  rw [← List.length_eq_zero_iff, ← List.length_eq_zero_iff]
  simp [ScrolledPoint.compressed]

theorem targetTier_mono (point : ScrolledPoint F) :
    Monotone fun now => point.targetTier config fromTimestamp now := by
  intro earlier later le
  unfold ScrolledPoint.targetTier
  cases (point.payload.lookup "created_at").bind PayloadValue.asF64 with
  | none => exact le_rfl
  | some seconds =>
    cases given : fromTimestamp (toI64 seconds) with
    | none => simp [given, CompressionConfig.tierForTimestamp]
    | some createdAt =>
      simpa [given] using config.tierForTimestamp_mono createdAt le

/-- A point as sweeps have left it. -/
structure Descends (config : CompressionConfig) (fromTimestamp : Int → Option DateTime)
    (point current : ScrolledPoint F) : Prop where
  id : current.id = point.id
  target : ∀ now, current.targetTier config fromTimestamp now =
    point.targetTier config fromTimestamp now
  vector : current.vector = [] ↔ point.vector = []
  tier : point.currentTier ≤ current.currentTier

theorem Descends.refl (point : ScrolledPoint F) : Descends config fromTimestamp point point :=
  ⟨rfl, fun _ => rfl, Iff.rfl, le_rfl⟩

theorem Descends.trans {first second third : ScrolledPoint F}
    (one : Descends config fromTimestamp first second)
    (two : Descends config fromTimestamp second third) :
    Descends config fromTimestamp first third where
  id := two.id.trans one.id
  target now := (two.target now).trans (one.target now)
  vector := two.vector.trans one.vector
  tier := one.tier.trans two.tier

theorem descends_settled (now : DateTime) (point : ScrolledPoint F) :
    Descends config fromTimestamp point (settled config fromTimestamp rounding now point) := by
  unfold settled
  split
  · rename_i due
    exact ⟨rfl, fun _ => targetTier_compressed _, vector_compressed _,
      (currentTier_compressed _).symm ▸ due.1.le⟩
  · exact .refl point

theorem target_le_settled (stored : point.vector ≠ []) :
    point.targetTier config fromTimestamp now ≤
      (settled config fromTimestamp rounding now point).currentTier := by
  unfold settled
  split
  · rw [currentTier_compressed]
  · rename_i early
    exact not_lt.mp fun due => early ⟨due, stored⟩

theorem settled_of_vector_eq_nil (empty : point.vector = []) :
    settled config fromTimestamp rounding now point = point :=
  if_neg fun due => due.2 empty

end Tiers

/-! ## Any number of sweeps -/

section Runs

variable {F : Type} (config : CompressionConfig) (fromTimestamp : Int → Option DateTime)
variable (rounding : Rounding F) (clocks : Nat → SweepClock) (store : VectorStore F)

/-- The store after some sweeps. -/
def afterSweeps : Nat → VectorStore F
  | 0 => store
  | count + 1 =>
      (runCompressionSweep config fromTimestamp rounding (clocks count) (afterSweeps count)).2

/-- The tiers of points never fall, and each point reaches every tier for which it is old enough
when a sweep begins. -/
structure MakesProgress : Prop where
  keeps : ∀ (count position : Nat) (before after : ScrolledPoint F),
    (afterSweeps config fromTimestamp rounding clocks store count).episodes.entries[position]? =
      some before →
    (afterSweeps config fromTimestamp rounding clocks store
      (count + 1)).episodes.entries[position]? = some after →
    after.id = before.id ∧ before.currentTier ≤ after.currentTier
  arrives : ∀ (count position : Nat) (point : ScrolledPoint F),
    store.episodes.entries[position]? = some point → ∃ later, ∃ swept : ScrolledPoint F,
      (afterSweeps config fromTimestamp rounding clocks store later).episodes.entries[position]? =
        some swept ∧ swept.id = point.id ∧
      point.targetTier config fromTimestamp (clocks count).began ≤ swept.currentTier

/-- Every point has a vector and stands within the reach of a sweep, or never becomes old enough
for a higher tier. -/
def WithinReach : Prop :=
  ∀ (position : Nat) (point : ScrolledPoint F), store.episodes.entries[position]? = some point →
    position < reach config ∧ point.vector ≠ [] ∨
      ∀ count, point.targetTier config fromTimestamp (clocks count).began ≤ point.currentTier

variable {config fromTimestamp rounding clocks store} {position : Nat} {point : ScrolledPoint F}

theorem exists_afterSweeps (here : store.episodes.entries[position]? = some point) (count : Nat) :
    ∃ current, (afterSweeps config fromTimestamp rounding clocks store
      count).episodes.entries[position]? = some current ∧
        Descends config fromTimestamp point current := by
  induction count with
  | zero => exact ⟨point, here, .refl point⟩
  | succ count ih =>
    obtain ⟨current, found, descends⟩ := ih
    rw [afterSweeps, entries_runCompressionSweep, found]
    split
    · exact ⟨_, rfl, descends.trans (descends_settled _ current)⟩
    · exact ⟨current, rfl, descends⟩

theorem unchanged_afterSweeps (here : store.episodes.entries[position]? = some point)
    (spared : ¬ (position < reach config ∧ point.vector ≠ [])) (count : Nat) :
    (afterSweeps config fromTimestamp rounding clocks store count).episodes.entries[position]? =
      some point := by
  induction count with
  | zero => exact here
  | succ count ih =>
    rw [afterSweeps, entries_runCompressionSweep, ih]
    split
    · rename_i within
      have empty : point.vector = [] := by
        by_contra stored
        exact spared ⟨within, stored⟩
      rw [Option.map_some, settled_of_vector_eq_nil empty]
    · rfl

theorem target_le_afterSweeps (here : store.episodes.entries[position]? = some point)
    (within : position < reach config) (stored : point.vector ≠ []) (count : Nat) :
    ∃ swept, (afterSweeps config fromTimestamp rounding clocks store
        (count + 1)).episodes.entries[position]? = some swept ∧ swept.id = point.id ∧
      point.targetTier config fromTimestamp (clocks count).began ≤ swept.currentTier := by
  obtain ⟨current, found, descends⟩ := exists_afterSweeps here count
  refine ⟨settled config fromTimestamp rounding ((clocks count).reading position) current,
    ?_, ?_, ?_⟩
  · rw [afterSweeps, entries_runCompressionSweep, if_pos within, found]
    rfl
  · exact (settled_id _).trans descends.id
  · calc
      point.targetTier config fromTimestamp (clocks count).began
        ≤ point.targetTier config fromTimestamp ((clocks count).reading position) :=
          targetTier_mono point ((clocks count).began_le position)
      _ = current.targetTier config fromTimestamp ((clocks count).reading position) :=
          (descends.target _).symm
      _ ≤ _ := target_le_settled fun empty => stored (descends.vector.mp empty)

variable (config fromTimestamp rounding clocks store)

/-- Sweeps make progress exactly if every point that grows old enough for a higher tier has a
vector and stands within the reach of one sweep. -/
theorem makesProgress_iff_withinReach :
    MakesProgress config fromTimestamp rounding clocks store ↔
      WithinReach config fromTimestamp clocks store := by
  constructor
  · intro progress position point here
    by_cases examined : position < reach config ∧ point.vector ≠ []
    · exact .inl examined
    · right
      intro count
      obtain ⟨later, swept, found, _, reached⟩ := progress.arrives count position point here
      rw [unchanged_afterSweeps here examined] at found
      exact Option.some.inj found ▸ reached
  · intro within
    constructor
    case keeps =>
      intro count position before after found next
      rw [afterSweeps, entries_runCompressionSweep, found] at next
      split at next
      · obtain rfl := Option.some.inj next
        have descends := @descends_settled F config fromTimestamp rounding
          ((clocks count).reading position) before
        exact ⟨descends.id, descends.tier⟩
      · obtain rfl := Option.some.inj next
        exact ⟨rfl, le_rfl⟩
    case arrives =>
      intro count position point here
      rcases within position point here with ⟨examined, stored⟩ | young
      · exact ⟨count + 1, target_le_afterSweeps here examined stored count⟩
      · exact ⟨0, point, here, rfl, young count⟩

end Runs

/-! ## What sweeps keep -/

section Keeps

variable {F : Type} {config : CompressionConfig} {fromTimestamp : Int → Option DateTime}
variable {rounding : Rounding F}

/-- A point is the same but for its tier, and for its vector if it has come to a higher one. -/
structure KeepsData (point current : ScrolledPoint F) : Prop where
  id : current.id = point.id
  dimensions : current.vector.length = point.vector.length
  payload : ∀ key, key ≠ "compression_tier" →
    current.payload.lookup key = point.payload.lookup key
  tier : point.currentTier ≤ current.currentTier
  vector : current.vector = point.vector ∨ point.currentTier < current.currentTier

theorem KeepsData.refl (point : ScrolledPoint F) : KeepsData point point :=
  ⟨rfl, rfl, fun _ _ => rfl, le_rfl, .inl rfl⟩

theorem KeepsData.trans {first second third : ScrolledPoint F} (one : KeepsData first second)
    (two : KeepsData second third) : KeepsData first third where
  id := two.id.trans one.id
  dimensions := two.dimensions.trans one.dimensions
  payload key different := (two.payload key different).trans (one.payload key different)
  tier := one.tier.trans two.tier
  vector := by
    rcases two.vector with same | higher
    · exact one.vector.imp same.trans fun higher => higher.trans_le two.tier
    · exact .inr (one.tier.trans_lt higher)

theorem keepsData_settled (now : DateTime) (point : ScrolledPoint F) :
    KeepsData point (settled config fromTimestamp rounding now point) := by
  unfold settled
  split
  · rename_i due
    refine ⟨rfl, ?_, fun key different => AList.lookup_insert_ne different, ?_, .inr ?_⟩
    · simp [ScrolledPoint.compressed]
    · simpa using due.1.le
    · simpa using due.1
  · exact .refl point

variable (config fromTimestamp rounding)

/-- However many sweeps run, no point is lost or added, and each keeps its data. -/
theorem sweeps_keep_points (clocks : Nat → SweepClock) (store : VectorStore F)
    (count position : Nat) :
    Option.Rel KeepsData store.episodes.entries[position]?
      (afterSweeps config fromTimestamp rounding clocks store count).episodes.entries[position]? := by
  induction count with
  | zero =>
    rw [afterSweeps]
    cases store.episodes.entries[position]? with
    | none => exact .none
    | some point => exact .some (.refl point)
  | succ count ih =>
    rw [afterSweeps, entries_runCompressionSweep]
    generalize store.episodes.entries[position]? = point at ih ⊢
    generalize (afterSweeps config fromTimestamp rounding clocks store
      count).episodes.entries[position]? = current at ih ⊢
    split
    · cases ih with
      | none => exact .none
      | some keeps => exact .some (keeps.trans (keepsData_settled _ _))
    · exact ih

end Keeps
/-! ## A collection beyond the reach of a sweep -/

/-- A point of the epoch. -/
def oldPoint (id : Uuid) : ScrolledPoint Int :=
  { id, vector := [1], payload := (∅ : Payload).insert "created_at" (.doubleValue 0) }

/-- So many points of the epoch. -/
def oldPoints (size : Nat) : VectorStore Int :=
  { episodes :=
      { entries := (List.range size).map oldPoint
        nodup := by
          rw [List.map_map]
          exact List.nodup_range.map fun _ _ same => same }
    stats :=
      { tierCounts := fun _ => 0, lastSweepCompressed := 0, lastSweepExamined := 0
        lastSweepEpoch := 0, totalSweeps := 0 } }

/-- A sweep one hundred days after the epoch. -/
def hundredDaysLater : SweepClock :=
  { began := 8640000000000000, reading := fun _ => 8640000000000000, began_le := fun _ => le_rfl }

/-- One point more than a sweep examines is never compressed. -/
theorem last_point_never_compressed :
    ¬ ∀ (config : CompressionConfig) (fromTimestamp : Int → Option DateTime)
      (rounding : Rounding Int) (clocks : Nat → SweepClock) (store : VectorStore Int),
      1 ≤ config.maxPointsPerSweep →
        MakesProgress config fromTimestamp rounding clocks store := by
  intro always
  let config : CompressionConfig :=
    { tier1Days := 7, tier2Days := 30, tier3Days := 90, maxPointsPerSweep := 1000 }
  let seconds : Int → Option DateTime := fun seconds => some (seconds * 1000000000)
  have progress := always config seconds ⟨id, fun _ => id, id⟩ (fun _ => hundredDaysLater)
    (oldPoints 1001) (by decide)
  have here : (oldPoints 1001).episodes.entries[1000]? = some (oldPoint 1000) := by
    simp [oldPoints]
  obtain ⟨later, swept, found, _, reached⟩ := progress.arrives 0 1000 (oldPoint 1000) here
  rw [unchanged_afterSweeps here (by decide)] at found
  obtain rfl := Option.some.inj found
  have due : (oldPoint 1000).targetTier config seconds hundredDaysLater.began = .binary := by
    decide +kernel
  have stored : (oldPoint 1000).currentTier = .full := by
    decide
  rw [due, stored] at reached
  exact absurd reached (by decide)

end Compression
end Mnemo
