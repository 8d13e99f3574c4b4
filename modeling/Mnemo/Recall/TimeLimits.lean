import Mnemo.Agent.Model
import Mnemo.Core.Calendar
import Mnemo.Memory.Model
import Mnemo.Recall.View

/-!
# Limits of time arithmetic

Days and hours are counted from an instant in the calendar, and delays with 64-bit numbers.  A field of
32 bits has room for more than either of them, and nothing checks it: an instant outside the calendar
ends the process.
-/

namespace Mnemo
namespace TimeLimits

section Times

variable (calendar : Calendar)

/-- The instant before which a fact is too old.  A duration of so many days is always representable. -/
def lastNDaysCutoff (now : DateTime) (days : Nat) : Option DateTime :=
  calendar.represent (now - Recall.days days)

/-- The end of a waiting period. -/
def deadline (createdAt : DateTime) (hours : Nat) : Option DateTime :=
  calendar.represent (createdAt + hours * Agent.hour)

/-- The delay before an attempt in 64 bits, in milliseconds. -/
def retryDelay (retryCount : Nat) : Option Nat :=
  if 2 ^ (retryCount - 1) < 2 ^ 64 ∧ 500 * 2 ^ (retryCount - 1) < 2 ^ 64 then
    some (500 * 2 ^ (retryCount - 1))
  else none

/-- Whether a fact is included, if the cutoff is computed. -/
def allowsTime (vc : Recall.ViewConstraints) (now validAt : DateTime) : Option Bool :=
  match vc.temporalScope with
  | some (.lastNDays days) =>
      (lastNDaysCutoff calendar now days).map fun _ => vc.allowsTime now validAt
  | _ => some (vc.allowsTime now validAt)

variable (toLowercase : String → String)

/-- Whether a pending proposal has outlived its policy, if the deadline is computed. -/
def isExpired (proposal : Agent.PromotionProposal) (policy : Agent.ApprovalPolicy)
    (now : DateTime) : Option Bool :=
  if proposal.status ≠ .pending then some false
  else
    match (policy.requirementForRisk toLowercase proposal.riskLevel).autoRejectAfterHours with
    | some hours => (deadline calendar proposal.createdAt hours).map fun _ =>
        proposal.isExpired toLowercase policy now
    | none => some false

/-- Whether the mandatory wait is over, if the deadline is computed. -/
def coolingPeriodElapsed (proposal : Agent.PromotionProposal) (policy : Agent.ApprovalPolicy)
    (now : DateTime) : Option Bool :=
  match (policy.requirementForRisk toLowercase proposal.riskLevel).coolingPeriodHours with
  | some hours => (deadline calendar proposal.createdAt hours).map fun _ =>
      proposal.coolingPeriodElapsed toLowercase policy now
  | none => some true

/-- Prepare an episode for another attempt, if the delay is computed. -/
def requeueForRetry (episode : Memory.Episode) (error : String) (maxRetries : Nat) :
    Option (Memory.Episode × Option Nat) :=
  if maxRetries ≤ episode.retryCount then some (episode.requeueForRetry error maxRetries)
  else (retryDelay (episode.retryCount + 1)).map fun _ => episode.requeueForRetry error maxRetries

/-- Every time that is asked for is computed. -/
structure Computes (vc : Recall.ViewConstraints) (proposal : Agent.PromotionProposal)
    (policy : Agent.ApprovalPolicy) (episode : Memory.Episode) (maxRetries : Nat) (now : DateTime) :
    Prop where
  view : ∀ validAt, allowsTime calendar vc now validAt ≠ none
  expiry : isExpired calendar toLowercase proposal policy now ≠ none
  cooling : coolingPeriodElapsed calendar toLowercase proposal policy now ≠ none
  retry : ∀ error, requeueForRetry episode error maxRetries ≠ none

/-- Less of a field can be computed as well, and is no longer time. -/
structure Ordered (now createdAt : DateTime) : Prop where
  days : ∀ {fewer more cutoff}, fewer ≤ more → lastNDaysCutoff calendar now more = some cutoff →
    ∃ later, lastNDaysCutoff calendar now fewer = some later ∧ cutoff ≤ later
  hours : ∀ {fewer more late}, fewer ≤ more → deadline calendar createdAt more = some late →
    ∃ early, deadline calendar createdAt fewer = some early ∧ early ≤ late
  retries : ∀ {fewer more long}, fewer ≤ more → retryDelay more = some long →
    ∃ short, retryDelay fewer = some short ∧ short ≤ long

/-- The days end in the calendar, and so do the hours; no more than 56 attempts are made again. -/
structure Within (vc : Recall.ViewConstraints) (proposal : Agent.PromotionProposal)
    (policy : Agent.ApprovalPolicy) (episode : Memory.Episode) (maxRetries : Nat) (now : DateTime) :
    Prop where
  view : ∀ days, vc.temporalScope = some (.lastNDays days) →
    calendar.first ≤ now - Recall.days days
  expiry : proposal.status = .pending → ∀ hours,
    (policy.requirementForRisk toLowercase proposal.riskLevel).autoRejectAfterHours = some hours →
      proposal.createdAt + hours * Agent.hour ≤ calendar.last
  cooling : ∀ hours,
    (policy.requirementForRisk toLowercase proposal.riskLevel).coolingPeriodHours = some hours →
      proposal.createdAt + hours * Agent.hour ≤ calendar.last
  retry : episode.retryCount < maxRetries → episode.retryCount < 56

variable {calendar toLowercase} {now createdAt validAt : DateTime}

/-! ## One field -/

theorem days_mono {fewer more : Nat} (le : fewer ≤ more) : Recall.days fewer ≤ Recall.days more := by
  unfold Recall.days
  have le : (fewer : Int) ≤ more := Int.ofNat_le.mpr le
  omega

theorem lastNDaysCutoff_eq_some (present : calendar.Has now) {days : Nat} {cutoff : DateTime} :
    lastNDaysCutoff calendar now days = some cutoff ↔
      calendar.first ≤ now - Recall.days days ∧ now - Recall.days days = cutoff := by
  have nonneg : 0 ≤ Recall.days days := days_mono (Nat.zero_le days)
  rw [lastNDaysCutoff, Calendar.represent_eq_some, Calendar.Has]
  constructor
  · exact fun ⟨has, same⟩ => ⟨has.1, same⟩
  · exact fun ⟨first, same⟩ => ⟨⟨first, (Int.sub_le_self now nonneg).trans present.2⟩, same⟩

theorem hours_mono {fewer more : Nat} (le : fewer ≤ more) :
    (fewer : Int) * Agent.hour ≤ more * Agent.hour := by
  unfold Agent.hour
  have le : (fewer : Int) ≤ more := Int.ofNat_le.mpr le
  omega

theorem deadline_eq_some (created : calendar.Has createdAt) {hours : Nat} {late : DateTime} :
    deadline calendar createdAt hours = some late ↔
      createdAt + hours * Agent.hour ≤ calendar.last ∧ createdAt + hours * Agent.hour = late := by
  have nonneg : 0 ≤ (hours : Int) * Agent.hour := by simpa using hours_mono (Nat.zero_le hours)
  rw [deadline, Calendar.represent_eq_some, Calendar.Has]
  constructor
  · exact fun ⟨has, same⟩ => ⟨has.2, same⟩
  · exact fun ⟨last, same⟩ => ⟨⟨created.1.trans (Int.le_add_of_nonneg_right nonneg), last⟩, same⟩

theorem retryDelay_eq_some {retryCount long : Nat} : retryDelay retryCount = some long ↔
    retryCount ≤ 56 ∧ 500 * 2 ^ (retryCount - 1) = long := by
  have bound : 2 ^ (retryCount - 1) < 2 ^ 64 ∧ 500 * 2 ^ (retryCount - 1) < 2 ^ 64 ↔
      retryCount ≤ 56 := by
    constructor
    · intro small
      by_contra large
      have power : 2 ^ 56 ≤ 2 ^ (retryCount - 1) := Nat.pow_le_pow_right (by decide) (by omega)
      omega
    · intro small
      have power : 2 ^ (retryCount - 1) ≤ 2 ^ 55 := Nat.pow_le_pow_right (by decide) (by omega)
      omega
  rw [retryDelay]
  simp only [bound]
  split <;> simp_all

/-! ## All fields -/

theorem ordered (present : calendar.Has now) (created : calendar.Has createdAt) :
    Ordered calendar now createdAt where
  days := by
    intro fewer more cutoff le computed
    obtain ⟨first, rfl⟩ := (lastNDaysCutoff_eq_some present).mp computed
    have mono := Int.sub_le_sub_left (days_mono le) now
    exact ⟨_, (lastNDaysCutoff_eq_some present).mpr ⟨first.trans mono, rfl⟩, mono⟩
  hours := by
    intro fewer more late le computed
    obtain ⟨last, rfl⟩ := (deadline_eq_some created).mp computed
    have mono := Int.add_le_add_left (hours_mono le) createdAt
    exact ⟨_, (deadline_eq_some created).mpr ⟨mono.trans last, rfl⟩, mono⟩
  retries := by
    intro fewer more long le computed
    obtain ⟨few, rfl⟩ := retryDelay_eq_some.mp computed
    refine ⟨_, retryDelay_eq_some.mpr ⟨le.trans few, rfl⟩, Nat.mul_le_mul_left 500 ?_⟩
    exact Nat.pow_le_pow_right (by decide) (Nat.sub_le_sub_right le 1)

/-- All times are computed, and in order, exactly if the fields are within their limits. -/
theorem computes_iff {vc : Recall.ViewConstraints} {proposal : Agent.PromotionProposal}
    {policy : Agent.ApprovalPolicy} {episode : Memory.Episode} {maxRetries : Nat}
    (present : calendar.Has now) (created : calendar.Has proposal.createdAt) :
    Computes calendar toLowercase vc proposal policy episode maxRetries now ∧
        Ordered calendar now proposal.createdAt ↔
      Within calendar toLowercase vc proposal policy episode maxRetries now := by
  constructor
  · rintro ⟨computes, -⟩
    refine ⟨fun days asked => ?_, fun pending hours asked => ?_, fun hours asked => ?_,
      fun again => ?_⟩
    · have computed := computes.view now
      simp only [allowsTime, asked, ne_eq, Option.map_eq_none_iff] at computed
      obtain ⟨_, same⟩ := Option.ne_none_iff_exists'.mp computed
      exact ((lastNDaysCutoff_eq_some present).mp same).1
    · have computed := computes.expiry
      simp only [isExpired, pending, asked, ne_eq, not_true_eq_false, if_false,
        Option.map_eq_none_iff] at computed
      obtain ⟨_, same⟩ := Option.ne_none_iff_exists'.mp computed
      exact ((deadline_eq_some created).mp same).1
    · have computed := computes.cooling
      simp only [coolingPeriodElapsed, asked, ne_eq, Option.map_eq_none_iff] at computed
      obtain ⟨_, same⟩ := Option.ne_none_iff_exists'.mp computed
      exact ((deadline_eq_some created).mp same).1
    · have computed := computes.retry ""
      rw [requeueForRetry, if_neg (Nat.not_le.mpr again), ne_eq, Option.map_eq_none_iff] at computed
      obtain ⟨_, same⟩ := Option.ne_none_iff_exists'.mp computed
      exact (retryDelay_eq_some.mp same).1
  · intro within
    refine ⟨⟨fun validAt => ?_, ?_, ?_, fun error => ?_⟩, ordered present created⟩
    · rw [allowsTime]
      split
      · rename_i days asked
        rw [(lastNDaysCutoff_eq_some present).mpr ⟨within.view days asked, rfl⟩]
        exact nofun
      · exact nofun
    · rw [isExpired]
      split
      · exact nofun
      · rename_i pending
        split
        · rename_i hours asked
          rw [(deadline_eq_some created).mpr
            ⟨within.expiry (not_not.mp pending) hours asked, rfl⟩]
          exact nofun
        · exact nofun
    · rw [coolingPeriodElapsed]
      split
      · rename_i hours asked
        rw [(deadline_eq_some created).mpr ⟨within.cooling hours asked, rfl⟩]
        exact nofun
      · exact nofun
    · rw [requeueForRetry]
      split
      · exact nofun
      · rename_i again
        rw [retryDelay_eq_some.mpr ⟨within.retry (Nat.not_le.mp again), rfl⟩]
        exact nofun

/-- The dates that the calendar of the program has: the years from -262143 to 262142. -/
def dates : Calendar where
  first := -8334601315200 * 1000000000
  last := 8210266876799 * 1000000000 + 999999999
  first_le := by decide
  le_last := by decide

/-- A view of very many days is not computed. -/
theorem days_not_computed : ¬∀ (vc : Recall.ViewConstraints) (now validAt : DateTime),
    dates.Has now → allowsTime dates vc now validAt ≠ none := by
  intro computed
  refine computed
    { maxClassification := .internal, allowedEntityTypes := none, blockedEdgeLabels := none
      maxFacts := none, includeNarrative := true
      temporalScope := some (.lastNDays 4294967295), viewName := none } 0 0 (by decide) ?_
  decide

theorem computes_first_attempts :
    let vc : Recall.ViewConstraints :=
      { maxClassification := .internal, allowedEntityTypes := none, blockedEdgeLabels := none
        maxFacts := none, includeNarrative := true, temporalScope := some (.lastNDays 30)
        viewName := none }
    let proposal : Agent.PromotionProposal :=
      { id := 1, agentId := "a", proposal := "p", candidateCore := .null, reason := "r"
        riskLevel := "low", status := .pending, sourceEventIds := [], approvers := []
        approvedAt := none, rejectedAt := none, expiredAt := none, createdAt := 0 }
    let requirement : Agent.ApprovalRequirement :=
      { minApprovers := 1, coolingPeriodHours := some 24, autoRejectAfterHours := some 48 }
    let policy : Agent.ApprovalPolicy :=
      { agentId := "a", lowRisk := requirement, mediumRisk := requirement, highRisk := requirement
        updatedAt := 0 }
    let episode : Memory.Episode :=
      { id := 1, sessionId := 2, userId := 3, agentId := none, content := "c", role := none
        createdAt := 0, processingStatus := .processing, processingError := none, entityIds := []
        edgeIds := [], retryCount := 2 }
    Computes dates id vc proposal policy episode 3 0 ∧ Ordered dates 0 proposal.createdAt := by
  intro vc proposal requirement policy episode
  refine (computes_iff (by decide) (by decide)).mpr ⟨?_, fun _ => ?_, ?_, fun _ => by decide⟩
  · rintro _ ⟨⟩
    decide
  · rintro _ ⟨⟩
    decide
  · rintro _ ⟨⟩
    decide

end Times
end TimeLimits
end Mnemo
