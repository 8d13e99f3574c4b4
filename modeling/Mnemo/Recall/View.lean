import Mathlib.Data.List.Sort
import Mnemo.Context.Assembly
import Mnemo.Guardrail.Model
import Mnemo.Policy.Model

/-!
# Views of a memory

A view narrows what a caller recalls: by classification, by the types of entities, by the labels and
the time of facts, and by their number.  Guardrails and the goal of a request come after it.
-/

namespace Mnemo
namespace Recall

open Auth (ApiKeyRole)
open Guardrail (GuardrailRule EvalContext RegexEngine eqIgnoreAsciiCase evaluateRules)
open Policy (MemoryContract)

/-- An entity that was recalled. -/
structure Entity extends Context.EntitySummary where
  id : Uuid
  classification : Classification
  relevance : ℚ

/-- A fact that was recalled. -/
structure Fact extends Context.FactSummary where
  id : Uuid
  classification : Classification

/-- Constrains which facts are visible based on time. -/
inductive TemporalScope where
  | lastNDays (days : Nat)
  | since (since : DateTime)
  /-- Only currently-valid facts (not invalidated). -/
  | currentOnly
  deriving DecidableEq, Repr

/-- A named lens over the memory of a user. -/
structure MemoryView where
  id : Uuid
  name : String
  description : String
  maxClassification : Classification
  allowedEntityTypes : Option (List String)
  blockedEdgeLabels : Option (List String)
  maxFacts : Option Nat
  includeNarrative : Bool
  temporalScope : Option TemporalScope
  createdAt : DateTime
  updatedAt : DateTime

/-- The constraints that are applied to what was recalled. -/
structure ViewConstraints where
  maxClassification : Classification
  allowedEntityTypes : Option (List String)
  blockedEdgeLabels : Option (List String)
  maxFacts : Option Nat
  includeNarrative : Bool
  temporalScope : Option TemporalScope
  viewName : Option String

/-- The length of some days. -/
def days (count : Nat) : Int := count * 86400 * 1000000000

namespace ViewConstraints

/-- The constraints of a view, capped by the classification ceiling of the caller. -/
def fromView (view : MemoryView) (callerMax : Classification) : ViewConstraints where
  maxClassification :=
    if view.maxClassification ≤ callerMax then view.maxClassification else callerMax
  allowedEntityTypes := view.allowedEntityTypes
  blockedEdgeLabels := view.blockedEdgeLabels
  maxFacts := view.maxFacts
  includeNarrative := view.includeNarrative
  temporalScope := view.temporalScope
  viewName := some view.name

variable (vc : ViewConstraints)

/-- Whether an entity is included. -/
def allowsEntity (classification : Classification) (entityType : String) : Bool :=
  if vc.maxClassification < classification then false
  else vc.allowedEntityTypes.all fun allowed => allowed.any (eqIgnoreAsciiCase · entityType)

/-- Whether a fact is included. -/
def allowsEdge (classification : Classification) (label : String) : Bool :=
  if vc.maxClassification < classification then false
  else vc.blockedEdgeLabels.all fun blocked => !blocked.any (eqIgnoreAsciiCase · label)

/-- Whether a fact that holds from an instant is included. -/
def allowsTime (now validAt : DateTime) : Bool :=
  match vc.temporalScope with
  | none => true
  -- the source leaves this to a check of the validity elsewhere, which the route does not make
  | some .currentOnly => true
  | some (.since since) => decide (since ≤ validAt)
  | some (.lastNDays count) => decide (now - days count ≤ validAt)

/-- The facts that are included; the clock is read for each of them. -/
def retainFacts (clock : Nat → DateTime) : List Fact → List Fact
  | [] => []
  | fact :: facts =>
      let others := retainFacts (fun position => clock (position + 1)) facts
      if vc.allowsEdge fact.classification fact.label && vc.allowsTime (clock 0) fact.validAt then
        fact :: others
      else others

/-- The facts of the view, at most as many as it shows. -/
def viewFacts (clock : Nat → DateTime) (facts : List Fact) : List Fact :=
  match vc.maxFacts with
  | some maxFacts => (vc.retainFacts clock facts).take maxFacts
  | none => vc.retainFacts clock facts

/-- The entities of the view. -/
def viewEntities (entities : List Entity) : List Entity :=
  entities.filter fun entity => vc.allowsEntity entity.classification entity.entityType

end ViewConstraints

/-! ## The route after the retrieval -/

/-- What the contract leaves of the facts. -/
def contractFacts (contract : MemoryContract) (facts : List Fact) : List Fact :=
  match contract with
  | .default | .historicalStrict => facts
  | .supportSafe | .currentStrict => facts.filter fun fact => fact.invalidAt.isNone

/-- The caller and the user of a request, with the rules that are in force. -/
structure Reader where
  engine : RegexEngine
  rules : List GuardrailRule
  role : ApiKeyRole
  userId : Uuid

namespace Reader

variable (reader : Reader)

/-- The age of a fact in whole days. -/
def factAgeDays (now : DateTime) (fact : Fact) : Nat :=
  (max ((now - fact.validAt).tdiv (days 1)) 0).toNat

/-- What is told to the rules about a fact. -/
def factContext (now : DateTime) (fact : Fact) : EvalContext where
  classification := some fact.classification
  entityType := none
  edgeLabel := some fact.label
  content := some fact.fact
  callerRole := some reader.role
  factAgeDays := some (factAgeDays now fact)
  confidence := some fact.relevance
  userId := some reader.userId
  agentId := none

/-- What is told to the rules about an entity. -/
def entityContext (entity : Entity) : EvalContext where
  classification := some entity.classification
  entityType := some entity.entityType
  edgeLabel := none
  content := none
  callerRole := some reader.role
  factAgeDays := none
  confidence := none
  userId := some reader.userId
  agentId := none

/-- Whether some rule redacts a fact. -/
def redactsFact (now : DateTime) (fact : Fact) : Bool :=
  (evaluateRules reader.engine reader.rules .onRetrieval (reader.factContext now fact)).redact

/-- Whether some rule redacts an entity. -/
def redactsEntity (entity : Entity) : Bool :=
  (evaluateRules reader.engine reader.rules .onRetrieval (reader.entityContext entity)).redact

/-- The facts that no rule redacts; the clock is read for each of them. -/
def guardFacts (clock : Nat → DateTime) : List Fact → List Fact
  | [] => []
  | fact :: facts =>
      let others := guardFacts (fun position => clock (position + 1)) facts
      if reader.redactsFact (clock 0) fact then others else fact :: others

/-- The entities that no rule redacts. -/
def guardEntities (entities : List Entity) : List Entity :=
  entities.filter fun entity => !reader.redactsEntity entity

end Reader

/-- Rank the facts anew by a goal, which adjusts their relevance. -/
def rankByGoal (goal : Option (Fact → ℚ)) (facts : List Fact) : List Fact :=
  match goal with
  | none => facts
  | some adjustment =>
      let adjusted := facts.map fun fact =>
        { fact with relevance := fact.relevance * adjustment fact }
      adjusted.insertionSort fun fact other => other.relevance ≤ fact.relevance

/-- The facts of a response through a view, without the ranking by the goal. -/
def survivors (contract : MemoryContract) (vc : ViewConstraints) (reader : Reader)
    (clock later : Nat → DateTime) (facts : List Fact) : List Fact :=
  reader.guardFacts later (vc.viewFacts clock (contractFacts contract facts))

/-- The facts of a response through a view. -/
def responseFacts (contract : MemoryContract) (vc : ViewConstraints) (reader : Reader)
    (goal : Option (Fact → ℚ)) (clock later : Nat → DateTime) (facts : List Fact) : List Fact :=
  rankByGoal goal (survivors contract vc reader clock later facts)

/-- The entities of a response through a view. -/
def responseEntities (vc : ViewConstraints) (reader : Reader) (entities : List Entity) :
    List Entity :=
  reader.guardEntities (vc.viewEntities entities)

/-! ## What a view promises -/

/-- A fact lies in a temporal scope, for some reading of the clock while the facts were filtered. -/
def InScope (clock : Nat → DateTime) (fact : Fact) : TemporalScope → Prop
  | .since since => since ≤ fact.validAt
  | .lastNDays count => ∃ position, clock position - days count ≤ fact.validAt
  | .currentOnly => fact.invalidAt = none

/-- A response satisfies all constraints of a view and of the caller, and the filter of the view,
applied no later, removes nothing of it. -/
structure Enforced (view : MemoryView) (callerMax : Classification) (clock : Nat → DateTime)
    (facts : List Fact) (entities : List Entity) : Prop where
  factClassification : ∀ fact ∈ facts,
    fact.classification ≤ view.maxClassification ∧ fact.classification ≤ callerMax
  label : ∀ blocked ∈ view.blockedEdgeLabels, ∀ label ∈ blocked, ∀ fact ∈ facts,
    eqIgnoreAsciiCase label fact.label = false
  time : ∀ scope ∈ view.temporalScope, ∀ fact ∈ facts, InScope clock fact scope
  count : ∀ maxFacts ∈ view.maxFacts, facts.length ≤ maxFacts
  entityClassification : ∀ entity ∈ entities,
    entity.classification ≤ view.maxClassification ∧ entity.classification ≤ callerMax
  entityType : ∀ allowed ∈ view.allowedEntityTypes, ∀ entity ∈ entities,
    ∃ entityType ∈ allowed, eqIgnoreAsciiCase entityType entity.entityType = true
  again : ∀ other : Nat → DateTime, (∀ position place, other position ≤ clock place) →
    (ViewConstraints.fromView view callerMax).viewFacts other facts = facts ∧
      (ViewConstraints.fromView view callerMax).viewEntities entities = entities

section Filter

variable {view : MemoryView} {callerMax : Classification} {vc : ViewConstraints}
  {clock : Nat → DateTime} {facts : List Fact} {fact : Fact}

theorem le_fromView_iff {classification : Classification} :
    classification ≤ (ViewConstraints.fromView view callerMax).maxClassification ↔
      classification ≤ view.maxClassification ∧ classification ≤ callerMax := by
  dsimp only [ViewConstraints.fromView]
  split
  next narrower => exact ⟨fun le => ⟨le, le.trans narrower⟩, And.left⟩
  next wider => exact ⟨fun le => ⟨le.trans (not_le.mp wider).le, le⟩, And.right⟩

theorem allowsEdge_iff {classification : Classification} {label : String} :
    vc.allowsEdge classification label = true ↔ classification ≤ vc.maxClassification ∧
      ∀ blocked ∈ vc.blockedEdgeLabels, ∀ other ∈ blocked,
        eqIgnoreAsciiCase other label = false := by
  rw [ViewConstraints.allowsEdge]
  split
  next above => exact iff_of_false Bool.false_ne_true fun both => not_lt.mpr both.1 above
  next within =>
    rw [and_iff_right (not_lt.mp within)]
    cases vc.blockedEdgeLabels with
    | none => simp
    | some blocked => simp

theorem allowsEntity_iff {classification : Classification} {entityType : String} :
    vc.allowsEntity classification entityType = true ↔ classification ≤ vc.maxClassification ∧
      ∀ allowed ∈ vc.allowedEntityTypes, ∃ other ∈ allowed,
        eqIgnoreAsciiCase other entityType = true := by
  rw [ViewConstraints.allowsEntity]
  split
  next above => exact iff_of_false Bool.false_ne_true fun both => not_lt.mpr both.1 above
  next within =>
    rw [and_iff_right (not_lt.mp within)]
    cases vc.allowedEntityTypes with
    | none => simp
    | some allowed => simp

theorem allowed_of_mem_retainFacts (member : fact ∈ vc.retainFacts clock facts) :
    vc.allowsEdge fact.classification fact.label = true ∧
      ∃ position, vc.allowsTime (clock position) fact.validAt = true := by
  induction facts generalizing clock with
  | nil => cases member
  | cons first facts ih =>
    have step (later : fact ∈ vc.retainFacts (fun position => clock (position + 1)) facts) :
        vc.allowsEdge fact.classification fact.label = true ∧
          ∃ position, vc.allowsTime (clock position) fact.validAt = true := by
      obtain ⟨edge, position, time⟩ := ih later
      exact ⟨edge, position + 1, time⟩
    rw [ViewConstraints.retainFacts] at member
    split at member
    next allowed =>
      obtain ⟨edge, time⟩ := Bool.and_eq_true_iff.mp allowed
      rcases List.mem_cons.mp member with rfl | later
      · exact ⟨edge, 0, time⟩
      · exact step later
    next => exact step member

theorem retainFacts_of_allowed (allowed : ∀ position, ∀ fact ∈ facts,
    (vc.allowsEdge fact.classification fact.label &&
      vc.allowsTime (clock position) fact.validAt) = true) :
    vc.retainFacts clock facts = facts := by
  induction facts generalizing clock with
  | nil => rfl
  | cons first facts ih =>
    rw [ViewConstraints.retainFacts, if_pos (allowed 0 first List.mem_cons_self), ih fun position
      fact member => allowed (position + 1) fact (List.mem_cons_of_mem _ member)]

theorem viewFacts_sublist : (vc.viewFacts clock facts).Sublist (vc.retainFacts clock facts) := by
  rw [ViewConstraints.viewFacts]
  split
  · exact List.take_sublist _ _
  · exact List.Sublist.refl _

theorem length_viewFacts_le {maxFacts : Nat} (limited : vc.maxFacts = some maxFacts) :
    (vc.viewFacts clock facts).length ≤ maxFacts := by
  rw [ViewConstraints.viewFacts, limited]
  exact List.length_take_le _ _

theorem allowsTime_of_le {now earlier validAt : DateTime} (le : earlier ≤ now)
    (allowed : vc.allowsTime now validAt = true) : vc.allowsTime earlier validAt = true := by
  rw [ViewConstraints.allowsTime] at allowed ⊢
  cases scope : vc.temporalScope with
  | none => rfl
  | some scope' =>
    rw [scope] at allowed
    cases scope' with
    | currentOnly => rfl
    | since since => exact allowed
    | lastNDays count =>
      have recent := of_decide_eq_true allowed
      exact decide_eq_true ((sub_le_sub_right le _).trans recent)

end Filter

/-! ## After the view -/

section Response

variable {reader : Reader} {clock : Nat → DateTime} {facts : List Fact}

theorem guardFacts_sublist (clock : Nat → DateTime) (facts : List Fact) :
    (reader.guardFacts clock facts).Sublist facts := by
  induction facts generalizing clock with
  | nil => exact List.Sublist.slnil
  | cons fact facts ih =>
    rw [Reader.guardFacts]
    split
    · exact (ih _).cons fact
    · exact (ih _).cons_cons fact

theorem mem_rankByGoal {goal : Option (Fact → ℚ)} {fact : Fact}
    (member : fact ∈ rankByGoal goal facts) :
    ∃ old ∈ facts, ∃ relevance, fact = { old with relevance } := by
  cases goal with
  | none => exact ⟨fact, member, fact.relevance, rfl⟩
  | some adjustment =>
    obtain ⟨old, known, rfl⟩ := List.mem_map.mp ((List.mem_insertionSort _).mp member)
    exact ⟨old, known, _, rfl⟩

theorem exists_mem_rankByGoal (goal : Option (Fact → ℚ)) {old : Fact} (member : old ∈ facts) :
    ∃ fact ∈ rankByGoal goal facts, ∃ relevance, fact = { old with relevance } := by
  cases goal with
  | none => exact ⟨old, member, old.relevance, rfl⟩
  | some adjustment =>
    exact ⟨_, (List.mem_insertionSort _).mpr (List.mem_map_of_mem member), _, rfl⟩

theorem length_rankByGoal (goal : Option (Fact → ℚ)) :
    (rankByGoal goal facts).length = facts.length := by
  cases goal with
  | none => rfl
  | some adjustment => exact (List.length_insertionSort _ _).trans (List.length_map _)

theorem mem_guardFacts {fact : Fact} : fact ∈ reader.guardFacts clock facts ↔
    ∃ position, facts[position]? = some fact ∧
      reader.redactsFact (clock position) fact = false := by
  induction facts generalizing clock with
  | nil => simp [Reader.guardFacts]
  | cons first facts ih =>
    have split : fact ∈ reader.guardFacts clock (first :: facts) ↔
        (first = fact ∧ reader.redactsFact (clock 0) first = false) ∨
          fact ∈ reader.guardFacts (fun position => clock (position + 1)) facts := by
      rw [Reader.guardFacts]
      cases redacted : reader.redactsFact (clock 0) first with
      | false => simp [eq_comm]
      | true => simp
    rw [split, ih]
    constructor
    · rintro (⟨rfl, visible⟩ | ⟨position, found, visible⟩)
      · exact ⟨0, rfl, visible⟩
      · exact ⟨position + 1, found, visible⟩
    · rintro ⟨position, found, visible⟩
      cases position with
      | zero =>
        obtain rfl : first = fact := Option.some.inj found
        exact .inl ⟨rfl, visible⟩
      | succ position => exact .inr ⟨position, found, visible⟩

end Response

/-! ## Which facts a view of current facts shows -/

/-- Whether the contract keeps a fact and the view includes its classification and label. -/
def admits (contract : MemoryContract) (vc : ViewConstraints) (fact : Fact) : Bool :=
  (match contract with
    | .default | .historicalStrict => true
    | .supportSafe | .currentStrict => fact.invalidAt.isNone) &&
  vc.allowsEdge fact.classification fact.label

/-- The number of facts before a position that contract and view admit. -/
def admittedBefore (contract : MemoryContract) (vc : ViewConstraints) (facts : List Fact)
    (position : Nat) : Nat :=
  (facts.take position).countP (admits contract vc)

/-- A fact that contract and view admit, early enough for the number of facts that the view shows,
and that no rule redacts. -/
structure Shown (contract : MemoryContract) (vc : ViewConstraints) (reader : Reader)
    (later : Nat → DateTime) (facts : List Fact) (position : Nat) (fact : Fact) : Prop where
  found : facts[position]? = some fact
  admitted : admits contract vc fact = true
  early : ∀ maxFacts ∈ vc.maxFacts, admittedBefore contract vc facts position < maxFacts
  visible : reader.redactsFact (later (admittedBefore contract vc facts position)) fact = false

section Current

variable {contract : MemoryContract} {vc : ViewConstraints} {reader : Reader}
  {clock later : Nat → DateTime} {facts : List Fact} {fact : Fact}

theorem getElem?_filter_iff {keeps : Fact → Bool} {place : Nat} :
    (facts.filter keeps)[place]? = some fact ↔ ∃ position, facts[position]? = some fact ∧
      keeps fact = true ∧ (facts.take position).countP keeps = place := by
  induction facts generalizing place with
  | nil => simp
  | cons first facts ih =>
    constructor
    · intro found
      rw [List.filter_cons] at found
      split at found
      next kept =>
        cases place with
        | zero =>
          obtain rfl : first = fact := Option.some.inj found
          exact ⟨0, rfl, kept, rfl⟩
        | succ place =>
          obtain ⟨position, known, keeps, count⟩ := ih.mp found
          refine ⟨position + 1, known, keeps, ?_⟩
          rw [List.take_succ_cons, List.countP_cons_of_pos kept, count]
      next dropped =>
        obtain ⟨position, known, keeps, count⟩ := ih.mp found
        refine ⟨position + 1, known, keeps, ?_⟩
        rw [List.take_succ_cons, List.countP_cons_of_neg dropped, count]
    · rintro ⟨position, known, kept, rfl⟩
      cases position with
      | zero =>
        obtain rfl : first = fact := Option.some.inj known
        rw [List.filter_cons_of_pos kept]
        rfl
      | succ position =>
        have found := ih.mpr ⟨position, known, kept, rfl⟩
        rw [List.take_succ_cons, List.countP_cons, List.filter_cons]
        split
        · exact found
        · exact found

theorem contractFacts_eq_filter (contract : MemoryContract) (facts : List Fact) :
    contractFacts contract facts = facts.filter fun fact => match contract with
      | .default | .historicalStrict => true
      | .supportSafe | .currentStrict => fact.invalidAt.isNone := by
  cases contract <;> simp [contractFacts]

theorem retainFacts_of_currentOnly (asked : vc.temporalScope = some .currentOnly)
    (clock : Nat → DateTime) (facts : List Fact) :
    vc.retainFacts clock facts =
      facts.filter fun fact => vc.allowsEdge fact.classification fact.label := by
  induction facts generalizing clock with
  | nil => rfl
  | cons fact facts ih =>
    have timely : vc.allowsTime (clock 0) fact.validAt = true := by
      rw [ViewConstraints.allowsTime, asked]
    rw [ViewConstraints.retainFacts, ih, timely, Bool.and_true, List.filter_cons]

theorem mem_survivors_iff (asked : vc.temporalScope = some .currentOnly) :
    fact ∈ survivors contract vc reader clock later facts ↔
      ∃ position, Shown contract vc reader later facts position fact := by
  have admitted : vc.retainFacts clock (contractFacts contract facts) =
      facts.filter (admits contract vc) := by
    rw [retainFacts_of_currentOnly asked, contractFacts_eq_filter, List.filter_filter]
    exact List.filter_congr fun fact _ => Bool.and_comm _ _
  have limited (place : Nat) : (vc.viewFacts clock (contractFacts contract facts))[place]? =
      some fact ↔ (facts.filter (admits contract vc))[place]? = some fact ∧
        ∀ maxFacts ∈ vc.maxFacts, place < maxFacts := by
    rw [ViewConstraints.viewFacts, admitted]
    cases vc.maxFacts with
    | none => simp
    | some maxFacts => simp [List.getElem?_take, and_comm]
  rw [survivors, mem_guardFacts]
  constructor
  · rintro ⟨place, found, visible⟩
    obtain ⟨known, early⟩ := (limited place).mp found
    obtain ⟨position, listed, kept, rfl⟩ := getElem?_filter_iff.mp known
    exact ⟨position, listed, kept, early, visible⟩
  · rintro ⟨position, found, kept, early, visible⟩
    have known := getElem?_filter_iff.mpr ⟨position, found, kept, rfl⟩
    exact ⟨_, (limited _).mpr ⟨known, early⟩, visible⟩

end Current

/-- The response of a request through a view satisfies the constraints of the view and the caller,
exactly if the view does not ask for current facts only or none of the facts that contract, view and
rules let through is superseded. -/
theorem view_enforced_iff (view : MemoryView) (callerMax : Classification)
    (contract : MemoryContract) (reader : Reader) (goal : Option (Fact → ℚ))
    (clock later : Nat → DateTime) (facts : List Fact) (entities : List Entity) :
    Enforced view callerMax clock
        (responseFacts contract (.fromView view callerMax) reader goal clock later facts)
        (responseEntities (.fromView view callerMax) reader entities) ↔
      (view.temporalScope = some .currentOnly → ∀ position fact,
        Shown contract (.fromView view callerMax) reader later facts position fact →
          fact.invalidAt = none) := by
  have kept : ∀ fact ∈ responseFacts contract (.fromView view callerMax) reader goal clock later
      facts, (ViewConstraints.fromView view callerMax).allowsEdge fact.classification fact.label =
          true ∧ ∃ position, (ViewConstraints.fromView view callerMax).allowsTime (clock position)
            fact.validAt = true := by
    intro fact member
    obtain ⟨old, known, relevance, rfl⟩ := mem_rankByGoal member
    have viewed := (guardFacts_sublist later _).subset known
    have allowed := allowed_of_mem_retainFacts (viewFacts_sublist.subset viewed)
    exact allowed
  have short : ∀ maxFacts ∈ view.maxFacts, (responseFacts contract (.fromView view callerMax) reader
      goal clock later facts).length ≤ maxFacts := by
    intro maxFacts limited
    rw [responseFacts, length_rankByGoal]
    exact (guardFacts_sublist later _).length_le.trans (length_viewFacts_le limited)
  have typed : ∀ entity ∈ responseEntities (.fromView view callerMax) reader entities,
      (ViewConstraints.fromView view callerMax).allowsEntity entity.classification
        entity.entityType = true :=
    fun entity member => (List.mem_filter.mp (List.mem_filter.mp member).1).2
  constructor
  · intro enforced current position fact shown
    have survives : fact ∈ survivors contract (.fromView view callerMax) reader clock later facts :=
      (mem_survivors_iff current).mpr ⟨position, shown⟩
    obtain ⟨ranked, member, relevance, rfl⟩ := exists_mem_rankByGoal goal survives
    have valid := enforced.time _ current _ member
    exact valid
  · intro current
    refine ⟨?_, ?_, ?_, short, ?_, ?_, ?_⟩
    · exact fun fact member => le_fromView_iff.mp (allowsEdge_iff.mp (kept fact member).1).1
    · exact fun blocked named label among fact member =>
        (allowsEdge_iff.mp (kept fact member).1).2 blocked named label among
    · intro scope named fact member
      have asked : (ViewConstraints.fromView view callerMax).temporalScope = some scope := named
      obtain ⟨-, position, time⟩ := kept fact member
      simp only [ViewConstraints.allowsTime, asked] at time
      cases scope with
      | since since =>
          have started := of_decide_eq_true time
          exact started
      | lastNDays count => exact ⟨position, of_decide_eq_true time⟩
      | currentOnly =>
          obtain ⟨old, known, relevance, rfl⟩ := mem_rankByGoal member
          obtain ⟨place, shown⟩ := (mem_survivors_iff asked).mp known
          exact current named place old shown
    · exact fun entity member => le_fromView_iff.mp (allowsEntity_iff.mp (typed entity member)).1
    · exact fun allowed named entity member =>
        (allowsEntity_iff.mp (typed entity member)).2 allowed named
    · intro other earlier
      constructor
      · have whole : (ViewConstraints.fromView view callerMax).retainFacts other (responseFacts
            contract (.fromView view callerMax) reader goal clock later facts) =
              responseFacts contract (.fromView view callerMax) reader goal clock later facts := by
          refine retainFacts_of_allowed fun position fact member => ?_
          obtain ⟨edge, place, time⟩ := kept fact member
          rw [edge, allowsTime_of_le (earlier position place) time]
          rfl
        rw [ViewConstraints.viewFacts, whole]
        cases limited : (ViewConstraints.fromView view callerMax).maxFacts with
        | none => rfl
        | some maxFacts => exact List.take_of_length_le (short maxFacts limited)
      · exact List.filter_eq_self.mpr typed

namespace Example

/-- A view of current facts. -/
def currentView : MemoryView where
  id := 1
  name := "support"
  description := "what holds now"
  maxClassification := .internal
  allowedEntityTypes := none
  blockedEdgeLabels := none
  maxFacts := some 10
  includeNarrative := true
  temporalScope := some .currentOnly
  createdAt := 0
  updatedAt := 0

/-- A fact that a later one superseded. -/
def formerEmployer : Fact where
  sourceEntity := "Ada"
  targetEntity := "Acme"
  label := "works_at"
  fact := "Ada works at Acme"
  validAt := 10
  invalidAt := some 20
  relevance := 1
  id := 2
  classification := .internal

/-- A reader without rules. -/
def plainReader : Reader where
  engine :=
    { Regex := Unit
      compile := fun _ => none
      size := fun _ => 0
      isMatch := fun _ _ => false }
  rules := []
  role := .admin
  userId := 3

end Example

open Example in
/-- A request about the past gets a superseded fact through a view of current facts. -/
theorem superseded_fact_shown :
    formerEmployer ∈ responseFacts .default (.fromView currentView .restricted) plainReader none
        (fun _ => 30) (fun _ => 30) [formerEmployer] ∧
      ¬ Enforced currentView .restricted (fun _ => 30)
        (responseFacts .default (.fromView currentView .restricted) plainReader none
          (fun _ => 30) (fun _ => 30) [formerEmployer])
        (responseEntities (.fromView currentView .restricted) plainReader []) := by
  have shown : formerEmployer ∈ responseFacts .default (.fromView currentView .restricted)
      plainReader none (fun _ => 30) (fun _ => 30) [formerEmployer] := List.mem_singleton.mpr rfl
  refine ⟨shown, fun enforced => ?_⟩
  have valid : formerEmployer.invalidAt = none :=
    enforced.time .currentOnly rfl formerEmployer shown
  exact nomatch valid

end Recall
end Mnemo
