import Mnemo.Agent.Model

/-!
# The witness chain of identity audit events

Every event carries the hash of the event before it and a hash of its own canonical fields; events
from before the chain was introduced carry none and lead the list unchecked.
-/

namespace Mnemo
namespace Agent

/-- A place at which the chain broke. -/
structure AuditChainBreak where
  index : Nat
  eventId : Uuid
  reason : String
  deriving DecidableEq, Repr

/-- Result of walking the chain. -/
structure AuditChainVerification where
  valid : Bool
  chainLength : Nat
  breaks : List AuditChainBreak
  deriving DecidableEq, Repr

section Verification

variable (sha256Hex : String → String)

/-- Whether the hash of an event matches its recomputation. -/
def AgentIdentityAuditEvent.verifyHash (event : AgentIdentityAuditEvent) : Bool :=
  event.eventHash == event.computeHash sha256Hex

/-- The position of the first event that carries a hash. -/
def chainStart (events : List AgentIdentityAuditEvent) : Nat :=
  events.findIdx fun event => !event.eventHash.isEmpty

/-- What is wrong with the event at a position at or after the start of the chain. -/
def breakAt (events : List AgentIdentityAuditEvent) (index : Nat)
    (event : AgentIdentityAuditEvent) : Option AuditChainBreak :=
  if !event.verifyHash sha256Hex then
    some { index, eventId := event.id
           reason := "event_hash mismatch: stored=" ++ event.eventHash ++ ", computed=" ++
             event.computeHash sha256Hex }
  else if index = chainStart events then
    if event.prevHash.isSome && index == 0 then
      some { index, eventId := event.id, reason := "Genesis event should have prev_hash = None" }
    else none
  else
    let expectedPrev := (events[index - 1]?.map (·.eventHash)).getD ""
    match event.prevHash with
    | none => some { index, eventId := event.id
                     reason := "Non-genesis event has prev_hash = None" }
    | some prevHash =>
        if prevHash ≠ expectedPrev then
          some { index, eventId := event.id
                 reason := "prev_hash mismatch: stored=" ++ prevHash ++ ", expected=" ++
                   expectedPrev }
        else none

/-- Walk a chain, whose events are given oldest first. -/
def verifyAuditChain (events : List AgentIdentityAuditEvent) : AuditChainVerification :=
  let breaks := (events.zipIdx.drop (chainStart events)).filterMap fun (event, index) =>
    breakAt sha256Hex events index event
  { valid := breaks.isEmpty, chainLength := events.length, breaks }

/-! ## What is accepted -/

/-- Each event has a matching hash and names the hash of the event before it. -/
def Linked : Option String → List AgentIdentityAuditEvent → Prop
  | _, [] => True
  | prevHash, event :: events =>
      event.prevHash = prevHash ∧ event.verifyHash sha256Hex = true ∧
        Linked (some event.eventHash) events

/-- Events without a hash. -/
def Legacy (events : List AgentIdentityAuditEvent) : Prop := ∀ event ∈ events, event.eventHash = ""

/-- Events with a hash. -/
def FullyHashed (events : List AgentIdentityAuditEvent) : Prop :=
  ∀ event ∈ events, event.eventHash ≠ ""

/-- The start of the chain: its hash matches, and as the first event of all it names no other. -/
def Genesis (legacy : List AgentIdentityAuditEvent) (event : AgentIdentityAuditEvent) : Prop :=
  event.verifyHash sha256Hex = true ∧ (legacy = [] → event.prevHash = none)

theorem valid_iff_breakAt (events : List AgentIdentityAuditEvent) :
    (verifyAuditChain sha256Hex events).valid = true ↔ ∀ index event,
      chainStart events ≤ index → events[index]? = some event →
        breakAt sha256Hex events index event = none := by
  unfold verifyAuditChain
  simp only [List.isEmpty_iff, List.filterMap_eq_nil_iff]
  constructor
  · intro unbroken index event late found
    refine unbroken (event, index) (List.mem_iff_getElem?.mpr ⟨index - chainStart events, ?_⟩)
    rw [List.getElem?_drop, Nat.add_sub_cancel' late, List.getElem?_zipIdx, found]
    simp
  · rintro unbroken ⟨event, index⟩ member
    obtain ⟨offset, found⟩ := List.mem_iff_getElem?.mp member
    rw [List.getElem?_drop, List.getElem?_zipIdx, Option.map_eq_some_iff] at found
    obtain ⟨other, held, same⟩ := found
    obtain ⟨rfl, rfl⟩ := Prod.mk.inj same
    exact unbroken _ other (by omega) (by simpa using held)

variable {sha256Hex} {events legacy chain : List AgentIdentityAuditEvent}
  {event : AgentIdentityAuditEvent}

theorem breakAt_chainStart :
    breakAt sha256Hex events (chainStart events) event = none ↔
      event.verifyHash sha256Hex = true ∧ (chainStart events = 0 → event.prevHash = none) := by
  unfold breakAt
  cases event.verifyHash sha256Hex with
  | false => simp
  | true => cases event.prevHash <;> simp

theorem breakAt_after {index : Nat} (after : chainStart events < index)
    {before : AgentIdentityAuditEvent} (held : events[index - 1]? = some before) :
    breakAt sha256Hex events index event = none ↔
      event.verifyHash sha256Hex = true ∧ event.prevHash = some before.eventHash := by
  have different : index ≠ chainStart events := by omega
  unfold breakAt
  rw [held]
  cases event.verifyHash sha256Hex with
  | false => simp
  | true => cases event.prevHash <;> simp [different]

theorem linked_iff (first : AgentIdentityAuditEvent) (chain : List AgentIdentityAuditEvent) :
    Linked sha256Hex (some first.eventHash) chain ↔ ∀ (position : Nat) event before,
      chain[position]? = some event → (first :: chain)[position]? = some before →
        event.verifyHash sha256Hex = true ∧ event.prevHash = some before.eventHash := by
  induction chain generalizing first with
  | nil => simp [Linked]
  | cons head rest ih =>
    rw [Linked, ih head]
    constructor
    · rintro ⟨names, matching, linked⟩ position event before found previous
      cases position with
      | zero =>
        obtain rfl := Option.some.inj found
        obtain rfl := Option.some.inj previous
        exact ⟨matching, names⟩
      | succ position => exact linked position event before found previous
    · intro all
      obtain ⟨matching, names⟩ := all 0 head first rfl rfl
      refine ⟨names, matching, fun position event before found previous => ?_⟩
      exact all (position + 1) event before found previous

theorem chainStart_append (unhashed : Legacy legacy) (hashed : event.eventHash ≠ "") :
    chainStart (legacy ++ event :: chain) = legacy.length := by
  have none : legacy.findIdx (fun event => !event.eventHash.isEmpty) = legacy.length :=
    List.findIdx_eq_length_of_false fun other member => by simp [unhashed other member]
  have full : event.eventHash.isEmpty = false :=
    Bool.eq_false_iff.mpr fun blank => hashed (String.isEmpty_iff.mp blank)
  have here : (event :: chain).findIdx (fun event => !event.eventHash.isEmpty) = 0 := by
    rw [List.findIdx_cons, full]
    rfl
  unfold chainStart
  rw [List.findIdx_append, none, here, if_neg (lt_irrefl _), Nat.zero_add]

/-- Behind the events without a hash, a chain is accepted if it starts properly and is linked. -/
theorem valid_append_iff (unhashed : Legacy legacy) (hashed : event.eventHash ≠ "") :
    (verifyAuditChain sha256Hex (legacy ++ event :: chain)).valid = true ↔
      Genesis sha256Hex legacy event ∧ Linked sha256Hex (some event.eventHash) chain := by
  have start : chainStart (legacy ++ event :: chain) = legacy.length :=
    chainStart_append unhashed hashed
  have at_start : (legacy ++ event :: chain)[chainStart (legacy ++ event :: chain)]? =
      some event := by
    rw [start, List.getElem?_append_right le_rfl, Nat.sub_self]
    rfl
  have behind (position : Nat) : (legacy ++ event :: chain)[legacy.length + 1 + position]? =
      chain[position]? := by
    rw [List.getElem?_append_right (by omega)]
    have offset : legacy.length + 1 + position - legacy.length = position + 1 := by omega
    rw [offset, List.getElem?_cons_succ]
  have before (position : Nat) :
      (legacy ++ event :: chain)[legacy.length + 1 + position - 1]? =
        (event :: chain)[position]? := by
    have offset : legacy.length + 1 + position - 1 = legacy.length + position := by omega
    rw [offset, List.getElem?_append_right (by omega), Nat.add_sub_cancel_left]
  rw [valid_iff_breakAt, linked_iff]
  constructor
  · intro unbroken
    refine ⟨?_, fun position other previous found held => ?_⟩
    · have genesis := breakAt_chainStart.mp (unbroken _ event le_rfl at_start)
      exact ⟨genesis.1, fun none => genesis.2 (by rw [start, none]; rfl)⟩
    · have found' := unbroken (legacy.length + 1 + position) other (by omega)
        ((behind position).trans found)
      exact (breakAt_after (by omega) ((before position).trans held)).mp found'
  · rintro ⟨⟨matching, first⟩, linked⟩ index other late found
    rcases Nat.eq_or_lt_of_le late with rfl | after
    · obtain rfl := Option.some.inj (at_start.symm.trans found)
      refine breakAt_chainStart.mpr ⟨matching, fun zero => first ?_⟩
      rw [start] at zero
      exact List.length_eq_zero_iff.mp zero
    · obtain ⟨position, rfl⟩ := Nat.exists_eq_add_of_lt after
      have offset : chainStart (legacy ++ event :: chain) + position + 1 =
          legacy.length + 1 + position := by omega
      rw [offset] at found ⊢ after
      rw [behind] at found
      have within := (List.getElem?_eq_some_iff.mp found).1
      obtain ⟨previous, held⟩ : ∃ previous, (event :: chain)[position]? = some previous :=
        ⟨_, List.getElem?_eq_getElem (by simp; omega)⟩
      exact (breakAt_after after ((before position).trans held)).mpr
        (linked position other previous found held)

theorem valid_of_legacy (unhashed : Legacy events) :
    (verifyAuditChain sha256Hex events).valid = true := by
  rw [valid_iff_breakAt]
  intro index event late found
  have start : chainStart events = events.length :=
    List.findIdx_eq_length_of_false fun other member => by simp [unhashed other member]
  have within := (List.getElem?_eq_some_iff.mp found).1
  omega

theorem legacy_or_append (events : List AgentIdentityAuditEvent) :
    Legacy events ∨ ∃ legacy event chain, events = legacy ++ event :: chain ∧ Legacy legacy ∧
      event.eventHash ≠ "" := by
  induction events with
  | nil => exact .inl fun _ member => nomatch member
  | cons head rest ih =>
    by_cases blank : head.eventHash = ""
    · rcases ih with unhashed | ⟨legacy, event, chain, rfl, unhashed, hashed⟩
      · exact .inl (List.forall_mem_cons.mpr ⟨blank, unhashed⟩)
      · exact .inr ⟨head :: legacy, event, chain, rfl,
          List.forall_mem_cons.mpr ⟨blank, unhashed⟩, hashed⟩
    · exact .inr ⟨[], head, rest, rfl, (fun _ member => nomatch member), blank⟩

theorem valid_iff_linked (hashed : FullyHashed events) :
    (verifyAuditChain sha256Hex events).valid = true ↔ Linked sha256Hex none events := by
  cases events with
  | nil => exact iff_of_true rfl trivial
  | cons head rest =>
    have unhashed : Legacy [] := fun _ member => nomatch member
    rw [← List.nil_append (head :: rest), valid_append_iff unhashed
      (hashed head List.mem_cons_self)]
    constructor
    · rintro ⟨⟨matching, first⟩, linked⟩
      exact ⟨first rfl, matching, linked⟩
    · rintro ⟨names, matching, linked⟩
      exact ⟨⟨matching, fun _ => names⟩, linked⟩

end Verification

/-! ## What the hash determines -/

theorem separator_notMem_action (action : AgentIdentityAuditAction) :
    '|' ∉ action.text.toList := by
  cases action <;> decide

theorem separator_notMem_nat (number : Nat) : '|' ∉ (toString number).toList := by
  intro member
  have digit := Nat.isDigit_of_mem_toDigits (by decide) (by decide) (Nat.toList_repr ▸ member)
  exact absurd digit (by decide)

theorem separator_notMem_int (number : Int) : '|' ∉ (toString number).toList := by
  cases number with
  | ofNat number => exact separator_notMem_nat number
  | negSucc number =>
    have printed : toString (Int.negSucc number) = "-" ++ toString (number + 1) := rfl
    rw [printed, String.toList_append, List.mem_append]
    rintro (sign | digit)
    · exact absurd sign (by decide)
    · exact separator_notMem_nat _ digit

theorem separator_notMem_version (version : Option Nat) :
    '|' ∉ ((version.map toString).getD "").toList := by
  cases version with
  | none => exact List.not_mem_nil
  | some number => exact separator_notMem_nat number

theorem version_text_injective :
    Function.Injective fun version : Option Nat => (version.map toString).getD "" := by
  have full (number : Nat) : toString number ≠ "" := by
    intro blank
    have none : Nat.toDigits 10 number = [] := by
      rw [← Nat.toList_repr]
      exact String.toList_eq_nil_iff.mpr blank
    exact Nat.toDigits_ne_nil none
  intro first second same
  cases first with
  | none =>
    cases second with
    | none => rfl
    | some number => exact absurd same.symm (full number)
  | some number =>
    cases second with
    | none => exact absurd same (full number)
    | some other => exact congrArg some (Nat.repr_injective same)

theorem action_text_injective : Function.Injective AgentIdentityAuditAction.text := by
  intro first second same
  cases first <;> cases second <;> first | rfl | exact absurd same (by decide)

/-- What the hash of an event is computed from. -/
def AgentIdentityAuditEvent.canonical (event : AgentIdentityAuditEvent) :
    AgentIdentityAuditAction × Option Nat × Nat × String × Int :=
  (event.action, event.fromVersion, event.toVersion, event.prevHash.getD "",
    timestampMillis event.createdAt)

theorem computeHash_eq_iff {sha256Hex : String → String} (injective : Function.Injective sha256Hex)
    (first second : AgentIdentityAuditEvent) :
    first.computeHash sha256Hex = second.computeHash sha256Hex ↔
      first.canonical = second.canonical := by
  have texts (event : AgentIdentityAuditEvent) :
      (String.intercalate "|" [event.action.text, (event.fromVersion.map toString).getD "",
        toString event.toVersion, event.prevHash.getD "",
        toString (timestampMillis event.createdAt)]).toList =
      event.action.text.toList ++ '|' :: (((event.fromVersion.map toString).getD "").toList ++
        '|' :: ((toString event.toVersion).toList ++ '|' :: ((event.prevHash.getD "").toList ++
          '|' :: (toString (timestampMillis event.createdAt)).toList))) := by
    simp [String.intercalate_cons_cons, String.toList_append]
  have canonical : first.canonical = second.canonical ↔
      first.action = second.action ∧ first.fromVersion = second.fromVersion ∧
        first.toVersion = second.toVersion ∧ first.prevHash.getD "" = second.prevHash.getD "" ∧
        timestampMillis first.createdAt = timestampMillis second.createdAt := by
    simp [AgentIdentityAuditEvent.canonical]
  unfold AgentIdentityAuditEvent.computeHash
  rw [injective.eq_iff, ← String.toList_inj, texts, texts,
    Text.append_separator_inj (separator_notMem_action _) (separator_notMem_action _),
    Text.append_separator_inj (separator_notMem_version _) (separator_notMem_version _),
    Text.append_separator_inj (separator_notMem_nat _) (separator_notMem_nat _),
    Text.separator_append_inj (separator_notMem_int _) (separator_notMem_int _),
    String.toList_inj, String.toList_inj, String.toList_inj, String.toList_inj, String.toList_inj,
    action_text_injective.eq_iff, version_text_injective.eq_iff, canonical]
  have versions : toString first.toVersion = toString second.toVersion ↔
      first.toVersion = second.toVersion := Nat.repr_inj
  have times : toString (timestampMillis first.createdAt) =
        toString (timestampMillis second.createdAt) ↔
      timestampMillis first.createdAt = timestampMillis second.createdAt := Int.repr_inj
  rw [versions, times]

/-! ## Chains that share events -/

section Tampering

variable {sha256Hex : String → String} {events chain edited : List AgentIdentityAuditEvent}

/-- The hash of the last event, or what stands before the chain. -/
def lastHash (prevHash : Option String) (events : List AgentIdentityAuditEvent) :
    Option String :=
  (events.getLast?.map (·.eventHash)).or prevHash

theorem linked_append {prevHash : Option String} :
    Linked sha256Hex prevHash (events ++ chain) ↔ Linked sha256Hex prevHash events ∧
      Linked sha256Hex (lastHash prevHash events) chain := by
  induction events generalizing prevHash with
  | nil => simp [Linked, lastHash]
  | cons head rest ih =>
    rw [List.cons_append, Linked, Linked, ih]
    have last : lastHash (some head.eventHash) rest = lastHash prevHash (head :: rest) := by
      unfold lastHash
      rw [List.getLast?_cons]
      cases rest.getLast? <;> rfl
    rw [last]
    tauto

theorem linked_concat {prevHash : Option String} {event : AgentIdentityAuditEvent} :
    Linked sha256Hex prevHash (events ++ [event]) ↔ Linked sha256Hex prevHash events ∧
      event.prevHash = lastHash prevHash events ∧ event.verifyHash sha256Hex = true := by
  rw [linked_append]
  simp [Linked]

theorem Linked.verifyHash {prevHash : Option String} (linked : Linked sha256Hex prevHash events)
    {event : AgentIdentityAuditEvent} (member : event ∈ events) :
    event.eventHash = event.computeHash sha256Hex := by
  induction events generalizing prevHash with
  | nil => cases member
  | cons head rest ih =>
    obtain ⟨_, matching, behind⟩ := linked
    rcases List.mem_cons.mp member with rfl | later
    · exact beq_iff_eq.mp matching
    · exact ih behind later

theorem Linked.prevHash_of_mem {prevHash : Option String}
    (linked : Linked sha256Hex prevHash events) {event : AgentIdentityAuditEvent}
    (member : event ∈ events) :
    event.prevHash = prevHash ∨
      ∃ before ∈ events.dropLast, event.prevHash = some before.eventHash := by
  induction events generalizing prevHash with
  | nil => cases member
  | cons head rest ih =>
    obtain ⟨names, _, behind⟩ := linked
    rcases List.mem_cons.mp member with rfl | later
    · exact .inl names
    · right
      have more : rest ≠ [] := List.ne_nil_of_mem later
      rw [List.dropLast_cons_of_ne_nil more]
      rcases ih behind later with first | ⟨before, held, named⟩
      · exact ⟨head, List.mem_cons_self, first⟩
      · exact ⟨before, List.mem_cons_of_mem _ held, named⟩

theorem Linked.prevHash_eq (injective : Function.Injective sha256Hex)
    (full : ∀ text, sha256Hex text ≠ "") (linked : Linked sha256Hex none events)
    {first second : AgentIdentityAuditEvent} (one : first ∈ events) (two : second ∈ events)
    (same : first.eventHash = second.eventHash) : first.prevHash = second.prevHash := by
  rw [linked.verifyHash one, linked.verifyHash two, computeHash_eq_iff injective] at same
  have texts : first.prevHash.getD "" = second.prevHash.getD "" :=
    congrArg (fun canonical => canonical.2.2.2.1) same
  have named {event : AgentIdentityAuditEvent} (member : event ∈ events) :
      event.prevHash = none ∨ ∃ text, text ≠ "" ∧ event.prevHash = some text := by
    rcases linked.prevHash_of_mem member with none | ⟨before, held, names⟩
    · exact .inl none
    · refine .inr ⟨_, ?_, names⟩
      rw [linked.verifyHash (List.dropLast_subset _ held)]
      exact full _
  rcases named one with none | ⟨text, nonempty, names⟩
  · rcases named two with also | ⟨other, filled, other_names⟩
    · rw [none, also]
    · rw [none, other_names] at texts
      exact absurd texts.symm filled
  · rcases named two with also | ⟨other, filled, other_names⟩
    · rw [also, names] at texts
      exact absurd texts nonempty
    · rw [names, other_names] at texts ⊢
      exact congrArg some texts

theorem Linked.nodup_prevHashes (injective : Function.Injective sha256Hex)
    (full : ∀ text, sha256Hex text ≠ "") (linked : Linked sha256Hex none events) :
    (events.map (·.prevHash)).Nodup := by
  induction events using List.reverseRecOn with
  | nil => exact List.nodup_nil
  | append_singleton events event ih =>
    obtain ⟨earlier, names, _⟩ := linked_concat.mp linked
    have distinct := ih earlier
    rw [List.map_append, List.map_singleton, List.nodup_append]
    refine ⟨distinct, List.nodup_singleton _, ?_⟩
    rintro prevHash listed other single same
    obtain rfl := List.mem_singleton.mp single
    obtain ⟨again, member, rfl⟩ := List.mem_map.mp listed
    -- the last of the earlier events would be named twice, so it would have occurred before
    rcases List.eq_nil_or_concat' events with rfl | ⟨front, last, rfl⟩
    · cases member
    · have named : again.prevHash = some last.eventHash := by
        rw [same, names]
        simp [lastHash]
      rcases earlier.prevHash_of_mem member with none | ⟨before, held, names_before⟩
      · rw [none] at named
        cases named
      · rw [List.dropLast_concat] at held
        have hashes : before.eventHash = last.eventHash :=
          Option.some.inj (names_before.symm.trans named)
        have prevs := earlier.prevHash_eq injective full (List.mem_append_left _ held)
          (List.mem_append_right _ (List.mem_singleton.mpr rfl)) hashes
        rw [List.map_append, List.map_singleton, List.nodup_append] at distinct
        exact distinct.2.2 _ (List.mem_map_of_mem held) _ (List.mem_singleton.mpr rfl) prevs

theorem Linked.isPrefix (injective : Function.Injective sha256Hex)
    (full : ∀ text, sha256Hex text ≠ "") (linked : Linked sha256Hex none chain)
    (also : Linked sha256Hex none edited) (drawn : ∀ event ∈ edited, event ∈ chain) :
    edited <+: chain := by
  induction edited using List.reverseRecOn with
  | nil => exact List.nil_prefix
  | append_singleton events event ih =>
    obtain ⟨earlier, names, _⟩ := linked_concat.mp also
    obtain ⟨rest, rfl⟩ := ih earlier fun other member => drawn other (List.mem_append_left _ member)
    have member := drawn event (List.mem_append_right _ (List.mem_singleton.mpr rfl))
    cases rest with
    | nil =>
      rw [List.append_nil] at member
      have distinct := also.nodup_prevHashes injective full
      rw [List.map_append, List.map_singleton, List.nodup_append] at distinct
      exact absurd rfl (distinct.2.2 _ (List.mem_map_of_mem member) _
        (List.mem_singleton.mpr rfl))
    | cons next rest =>
      have continues : Linked sha256Hex none (events ++ [next]) := by
        rw [List.append_cons] at linked
        exact (linked_append.mp linked).1
      have same : event.prevHash = next.prevHash :=
        names.trans (linked_concat.mp continues).2.1.symm
      obtain rfl := List.inj_on_of_nodup_map (linked.nodup_prevHashes injective full) member
        (List.mem_append_right _ List.mem_cons_self) same
      exact ⟨rest, by simp⟩

/-! ## Edited chains -/

/-- What follows the events of a chain that were kept in order: events without a hash may stand in
front, and others may continue the chain. -/
def Extended (sha256Hex : String → String) (chain edited : List AgentIdentityAuditEvent) : Prop :=
  ∃ legacy more, Legacy legacy ∧ edited = legacy ++ chain ++ more ∧
    (chain ≠ [] → Linked sha256Hex (lastHash none chain) more)

/-- Some event has lost its hash although one before it kept its own. -/
def BlankAfterHashed (edited : List AgentIdentityAuditEvent) : Prop :=
  ∃ (first second : Nat) (kept blank : AgentIdentityAuditEvent), first < second ∧
    edited[first]? = some kept ∧ kept.eventHash ≠ "" ∧
    edited[second]? = some blank ∧ blank.eventHash = ""

theorem invalid_of_blankAfterHashed (full : ∀ text, sha256Hex text ≠ "")
    (blanked : BlankAfterHashed edited) :
    (verifyAuditChain sha256Hex edited).valid = false := by
  obtain ⟨first, second, kept, blank, less, held, hashed, found, lost⟩ := blanked
  refine Bool.eq_false_iff.mpr fun valid => ?_
  have early : chainStart edited ≤ first := by
    by_contra late
    obtain ⟨within, same⟩ := List.getElem?_eq_some_iff.mp held
    have unhashed := List.not_of_lt_findIdx (not_le.mp late)
    rw [same] at unhashed
    exact hashed (String.isEmpty_iff.mp (by simpa using unhashed))
  have unbroken := (valid_iff_breakAt sha256Hex edited).mp valid second blank (by omega) found
  have matching : blank.verifyHash sha256Hex = true := by
    unfold breakAt at unbroken
    cases verified : blank.verifyHash sha256Hex with
    | true => rfl
    | false => simp [verified] at unbroken
  have computed : blank.eventHash = blank.computeHash sha256Hex := beq_iff_eq.mp matching
  exact full _ (computed.symm.trans lost)

theorem extended_of_sublist (injective : Function.Injective sha256Hex)
    (full : ∀ text, sha256Hex text ≠ "") (hashed : FullyHashed chain)
    (linked : Linked sha256Hex none chain) (kept : chain.Sublist edited)
    (valid : (verifyAuditChain sha256Hex edited).valid = true) :
    Extended sha256Hex chain edited := by
  rcases chain with _ | ⟨first, chain⟩
  · exact ⟨[], edited, (fun _ member => nomatch member), rfl, fun impossible => absurd rfl impossible⟩
  · rcases legacy_or_append edited with unhashed | ⟨legacy, event, rest, rfl, unhashed, filled⟩
    · exact absurd (unhashed first (kept.subset List.mem_cons_self))
        (hashed first List.mem_cons_self)
    · obtain ⟨⟨matching, _⟩, behind⟩ := (valid_append_iff unhashed filled).mp valid
      -- the kept events are hashed, so they all stand behind the legacy events
      have tail : (first :: chain).Sublist (event :: rest) := by
        obtain ⟨front, back, split, fronts, backs⟩ := List.sublist_append_iff.mp kept
        cases front with
        | nil => exact split ▸ backs
        | cons head front =>
          have own : head = first := (List.cons.inj split).1.symm
          have blank := unhashed head (fronts.subset List.mem_cons_self)
          exact absurd blank (own ▸ hashed first List.mem_cons_self)
      have heads : first = event := by
        by_contra different
        rcases List.sublist_cons_iff.mp tail with later | ⟨_, same, _⟩
        · have named := behind.prevHash_of_mem (later.subset List.mem_cons_self)
          rw [linked.1] at named
          rcases named with impossible | ⟨_, _, impossible⟩
          · cases impossible
          · cases impossible
        · exact different (List.cons.inj same).1
      subst heads
      have whole : Linked sha256Hex none (first :: rest) := ⟨linked.1, matching, behind⟩
      obtain ⟨more, rest_eq⟩ := whole.isPrefix injective full linked
        fun other member => tail.subset member
      refine ⟨legacy, more, unhashed, ?_, fun _ => ?_⟩
      · rw [List.append_assoc, rest_eq]
      · rw [← rest_eq] at whole
        exact (linked_append.mp whole).2

/-- What walking the chain detects: events of the chain in any other order or number, other than
the removal of the last ones; inserted events that do not extend the chain; and a hash that was
blanked behind one that was kept. -/
theorem edits_detected (injective : Function.Injective sha256Hex)
    (full : ∀ text, sha256Hex text ≠ "") (hashed : FullyHashed chain)
    (valid : (verifyAuditChain sha256Hex chain).valid = true) (edited : List AgentIdentityAuditEvent) :
    ((∀ event ∈ edited, event ∈ chain) → ¬ edited <+: chain →
      (verifyAuditChain sha256Hex edited).valid = false) ∧
    (chain.Sublist edited → ¬ Extended sha256Hex chain edited →
      (verifyAuditChain sha256Hex edited).valid = false) ∧
    (BlankAfterHashed edited → (verifyAuditChain sha256Hex edited).valid = false) := by
  have linked := (valid_iff_linked hashed).mp valid
  refine ⟨fun drawn rearranged => ?_, fun kept foreign => ?_,
    fun blanked => invalid_of_blankAfterHashed full blanked⟩
  · refine Bool.eq_false_iff.mpr fun accepted => rearranged ?_
    have also := (valid_iff_linked fun event member => hashed event (drawn event member)).mp accepted
    exact linked.isPrefix injective full also drawn
  · refine Bool.eq_false_iff.mpr fun accepted => foreign ?_
    exact extended_of_sublist injective full hashed linked kept accepted

/-- A chain is edited: its events are rearranged, others are inserted, or hashes are blanked. -/
inductive Edited (chain edited : List AgentIdentityAuditEvent) : Prop
  | rearranged (drawn : ∀ event ∈ edited, event ∈ chain) (more : ¬ edited <+: chain)
  | inserted (kept : chain.Sublist edited) (changed : edited ≠ chain)
  | blanked (same : List.Forall₂
      (fun event other => other = event ∨ other = { event with eventHash := "" }) chain edited)
      (changed : edited ≠ chain)

/-- A hash that can be inverted. -/
def markedText (text : String) : String := "h" ++ text

theorem markedText_injective : Function.Injective markedText := by
  intro first second same
  have lists := congrArg String.toList same
  simp only [markedText, String.toList_append] at lists
  exact String.toList_inj.mp (List.append_cancel_left lists)

theorem markedText_ne_empty (text : String) : markedText text ≠ "" := by
  intro same
  have lists := congrArg String.toList same
  simp [markedText] at lists

/-- The creation of an agent, from before events carried hashes. -/
def unhashedCreation : AgentIdentityAuditEvent :=
  { id := 1, agentId := "helper", action := .created, fromVersion := none, toVersion := 1
    rollbackToVersion := none, reason := none, createdAt := 0, prevHash := none, eventHash := "" }

/-- The creation of an agent. -/
def hashedCreation : AgentIdentityAuditEvent :=
  { unhashedCreation with eventHash := unhashedCreation.computeHash markedText }

theorem fullyHashed_hashedCreation : FullyHashed [hashedCreation] := by
  intro event member
  obtain rfl := List.mem_singleton.mp member
  exact markedText_ne_empty _

theorem valid_hashedCreation : (verifyAuditChain markedText [hashedCreation]).valid = true :=
  (valid_iff_linked fullyHashed_hashedCreation).mpr ⟨rfl, beq_self_eq_true _, trivial⟩

theorem edits_detected_hashedCreation :
    (verifyAuditChain markedText [hashedCreation, hashedCreation]).valid = false := by
  refine (edits_detected markedText_injective markedText_ne_empty fullyHashed_hashedCreation
    valid_hashedCreation _).1 (by simp) ?_
  intro start
  have short := start.length_le
  simp at short

/-- Events without a hash may be put in front of a chain. -/
theorem inserted_legacy_event_accepted :
    ¬ ∀ sha256Hex : String → String, Function.Injective sha256Hex →
      (∀ text, sha256Hex text ≠ "") → ∀ chain edited, FullyHashed chain →
        (verifyAuditChain sha256Hex chain).valid = true → Edited chain edited →
          (verifyAuditChain sha256Hex edited).valid = false := by
  intro detected
  have rejected := detected markedText markedText_injective markedText_ne_empty [hashedCreation]
    [unhashedCreation, hashedCreation] fullyHashed_hashedCreation valid_hashedCreation
    (.inserted (List.sublist_cons_self _ _) (by simp))
  have unhashed : Legacy [unhashedCreation] := by
    intro event member
    obtain rfl := List.mem_singleton.mp member
    rfl
  have accepted :
      (verifyAuditChain markedText ([unhashedCreation] ++ hashedCreation :: [])).valid = true :=
    (valid_append_iff unhashed (markedText_ne_empty _)).mpr
      ⟨⟨beq_self_eq_true _, fun impossible => nomatch impossible⟩, trivial⟩
  exact absurd accepted (by simpa using rejected)

/-! ## Modified fields -/

/-- One recorded field of an event is modified. -/
inductive FieldChange where
  | id (value : Uuid)
  | agentId (value : String)
  | action (value : AgentIdentityAuditAction)
  | fromVersion (value : Option Nat)
  | toVersion (value : Nat)
  | rollbackToVersion (value : Option Nat)
  | reason (value : Option String)
  | createdAt (value : DateTime)
  | prevHash (value : Option String)
  | eventHash (value : String)

namespace FieldChange

/-- The event after the modification. -/
def apply : FieldChange → AgentIdentityAuditEvent → AgentIdentityAuditEvent
  | .id value, event => { event with id := value }
  | .agentId value, event => { event with agentId := value }
  | .action value, event => { event with action := value }
  | .fromVersion value, event => { event with fromVersion := value }
  | .toVersion value, event => { event with toVersion := value }
  | .rollbackToVersion value, event => { event with rollbackToVersion := value }
  | .reason value, event => { event with reason := value }
  | .createdAt value, event => { event with createdAt := value }
  | .prevHash value, event => { event with prevHash := value }
  | .eventHash value, event => { event with eventHash := value }

/-- The modification is one that the hashes cover: the identifiers, the version rolled back to, the
reason and the part of the time below a millisecond are not hashed, and the first event is taken
for one from before the chain when its hash is blanked. -/
def Covered (index : Nat) (event : AgentIdentityAuditEvent) : FieldChange → Prop
  | .id _ | .agentId _ | .rollbackToVersion _ | .reason _ => False
  | .action _ | .fromVersion _ | .toVersion _ | .prevHash _ => True
  | .createdAt value => timestampMillis value ≠ timestampMillis event.createdAt
  | .eventHash value => value ≠ "" ∨ 0 < index

end FieldChange

theorem linked_replace_iff (injective : Function.Injective sha256Hex)
    {front back : List AgentIdentityAuditEvent} {event other : AgentIdentityAuditEvent}
    (linked : Linked sha256Hex none (front ++ event :: back))
    (sameHash : other.eventHash = event.eventHash) :
    Linked sha256Hex none (front ++ other :: back) ↔
      other.prevHash = event.prevHash ∧ other.canonical = event.canonical := by
  obtain ⟨before, names, matching, behind⟩ := linked_append.mp linked
  have computed : event.eventHash = event.computeHash sha256Hex := beq_iff_eq.mp matching
  have verified : other.verifyHash sha256Hex = true ↔ other.canonical = event.canonical := by
    unfold AgentIdentityAuditEvent.verifyHash
    rw [beq_iff_eq, sameHash, computed, computeHash_eq_iff injective]
    exact eq_comm
  rw [linked_append, Linked, sameHash, verified, names]
  tauto

theorem valid_blanked_first {event : AgentIdentityAuditEvent}
    {back : List AgentIdentityAuditEvent} (hashed : FullyHashed (event :: back))
    (linked : Linked sha256Hex none (event :: back)) :
    (verifyAuditChain sha256Hex ({ event with eventHash := "" } :: back)).valid = true := by
  have unhashed : Legacy [{ event with eventHash := "" }] := by
    intro other member
    obtain rfl := List.mem_singleton.mp member
    rfl
  cases back with
  | nil => exact valid_of_legacy unhashed
  | cons next rest =>
    obtain ⟨_, _, _, matching, behind⟩ := linked
    rw [← List.singleton_append, valid_append_iff unhashed
      (hashed next (List.mem_cons_of_mem _ List.mem_cons_self))]
    exact ⟨⟨matching, fun impossible => nomatch impossible⟩, behind⟩

theorem FieldChange.eventHash_apply (change : FieldChange) (event : AgentIdentityAuditEvent) :
    (change.apply event).eventHash = event.eventHash ∨
      ∃ value, change = .eventHash value := by
  cases change with
  | eventHash value => exact .inr ⟨value, rfl⟩
  | _ => exact .inl rfl

theorem FieldChange.covered_iff {index : Nat} {event : AgentIdentityAuditEvent}
    {change : FieldChange} (changes : change.apply event ≠ event)
    (notHash : ¬ ∃ value, change = .eventHash value) :
    change.Covered index event ↔ ¬ ((change.apply event).prevHash = event.prevHash ∧
      (change.apply event).canonical = event.canonical) := by
  cases change with
  | eventHash value => exact absurd ⟨value, rfl⟩ notHash
  | id value => simp [Covered, apply, AgentIdentityAuditEvent.canonical]
  | agentId value => simp [Covered, apply, AgentIdentityAuditEvent.canonical]
  | rollbackToVersion value => simp [Covered, apply, AgentIdentityAuditEvent.canonical]
  | reason value => simp [Covered, apply, AgentIdentityAuditEvent.canonical]
  | createdAt value => simp [Covered, apply, AgentIdentityAuditEvent.canonical]
  | action value =>
    refine iff_of_true trivial fun same => changes ?_
    have values : value = event.action := congrArg Prod.fst same.2
    rw [apply, values]
  | fromVersion value =>
    refine iff_of_true trivial fun same => changes ?_
    have values : value = event.fromVersion := congrArg (fun all => all.2.1) same.2
    rw [apply, values]
  | toVersion value =>
    refine iff_of_true trivial fun same => changes ?_
    have values : value = event.toVersion := congrArg (fun all => all.2.2.1) same.2
    rw [apply, values]
  | prevHash value =>
    refine iff_of_true trivial fun same => changes ?_
    have values : value = event.prevHash := same.1
    rw [apply, values]

/-- A modified field is detected exactly if the hashes cover the modification. -/
theorem tampering_detected_iff_covered (injective : Function.Injective sha256Hex)
    (full : ∀ text, sha256Hex text ≠ "") (hashed : FullyHashed events)
    (valid : (verifyAuditChain sha256Hex events).valid = true) {index : Nat}
    {event : AgentIdentityAuditEvent} (found : events[index]? = some event)
    {change : FieldChange} (changes : change.apply event ≠ event) :
    (verifyAuditChain sha256Hex (events.set index (change.apply event))).valid = false ↔
      change.Covered index event := by
  obtain ⟨within, same⟩ := List.getElem?_eq_some_iff.mp found
  have split : events = events.take index ++ event :: events.drop (index + 1) := by
    rw [← same, ← List.drop_eq_getElem_cons within, List.take_append_drop]
  have linked := (valid_iff_linked hashed).mp valid
  have modified : events.set index (change.apply event) =
      events.take index ++ change.apply event :: events.drop (index + 1) := by
    rw [List.set_eq_take_append_cons_drop, if_pos within]
  have fully (filled : (change.apply event).eventHash ≠ "") :
      FullyHashed (events.set index (change.apply event)) := by
    intro other member
    rcases List.mem_or_eq_of_mem_set member with old | rfl
    · exact hashed other old
    · exact filled
  have computed : event.eventHash = event.computeHash sha256Hex :=
    linked.verifyHash (List.mem_of_getElem? found)
  have eventHashed := hashed event (List.mem_of_getElem? found)
  by_cases isHash : ∃ value, change = .eventHash value
  · obtain ⟨value, rfl⟩ := isHash
    by_cases blank : value = ""
    · subst blank
      by_cases first : index = 0
      · subst first
        refine iff_of_false (fun rejected => ?_) (by simp [FieldChange.Covered])
        rw [List.take_zero, List.nil_append] at split modified
        rw [modified] at rejected
        rw [split] at linked hashed
        have accepted := valid_blanked_first hashed linked
        exact absurd accepted (Bool.eq_false_iff.mp rejected)
      · refine iff_of_true (invalid_of_blankAfterHashed full ?_) (.inr (Nat.pos_of_ne_zero first))
        have start : 0 < events.length := by omega
        refine ⟨0, index, events[0], _, Nat.pos_of_ne_zero first, ?_,
          hashed _ (List.getElem_mem start), List.getElem?_set_self within, rfl⟩
        rw [List.getElem?_set_ne first, List.getElem?_eq_getElem start]
    · refine iff_of_true (Bool.eq_false_iff.mpr fun accepted => changes ?_) (.inl blank)
      have still := (valid_iff_linked (fully blank)).mp accepted
      have matching := still.verifyHash (List.mem_set within _)
      have values : value = event.eventHash := by
        rw [computed]
        exact matching
      rw [FieldChange.apply, values]
  · have sameHash := (change.eventHash_apply event).resolve_right isHash
    have filled : (change.apply event).eventHash ≠ "" := by
      rw [sameHash]
      exact eventHashed
    rw [FieldChange.covered_iff changes isHash, Bool.eq_false_iff, ne_eq,
      valid_iff_linked (fully filled), modified]
    rw [split] at linked
    exact not_congr (linked_replace_iff injective linked sameHash)

theorem tampering_detected_iff_covered_hashedCreation :
    (verifyAuditChain markedText
      ([hashedCreation].set 0 ((FieldChange.toVersion 2).apply hashedCreation))).valid = false :=
  (tampering_detected_iff_covered markedText_injective markedText_ne_empty
    fullyHashed_hashedCreation valid_hashedCreation rfl (by decide)).mpr trivial

/-- The agent of an event can be modified. -/
theorem modified_agent_accepted :
    ¬ ∀ sha256Hex : String → String, Function.Injective sha256Hex →
      (∀ text, sha256Hex text ≠ "") → ∀ (events : List AgentIdentityAuditEvent) index event change,
        FullyHashed events → (verifyAuditChain sha256Hex events).valid = true →
          events[index]? = some event → FieldChange.apply change event ≠ event →
            (verifyAuditChain sha256Hex
              (events.set index (FieldChange.apply change event))).valid = false := by
  intro detected
  have rejected := detected markedText markedText_injective markedText_ne_empty [hashedCreation] 0
    hashedCreation (.agentId "other") fullyHashed_hashedCreation valid_hashedCreation rfl
    (by decide)
  have hashed : FullyHashed [(FieldChange.agentId "other").apply hashedCreation] := by
    intro event member
    obtain rfl := List.mem_singleton.mp member
    exact markedText_ne_empty _
  have linked : Linked markedText none [(FieldChange.agentId "other").apply hashedCreation] :=
    ⟨rfl, beq_self_eq_true _, trivial⟩
  exact absurd ((valid_iff_linked hashed).mpr linked) (Bool.eq_false_iff.mp rejected)

end Tampering
end Agent
end Mnemo
