import Mathlib.Order.Lattice
import Mnemo.Guardrail.Model

/-!
# Evaluating guardrail rules

The verdict follows from the rules that match: the first one that blocks ends the evaluation, and
without one the verdict gathers what every matching rule asks for, in whatever order they come.
-/

namespace Mnemo
namespace Guardrail

/-- The reason an action blocks for. -/
def GuardrailAction.reason : GuardrailAction → Option String
  | .block reason => some reason
  | _ => none

/-- The classification an action upgrades to. -/
def GuardrailAction.upgrade : GuardrailAction → Option Classification
  | .reclassify classification => some classification
  | _ => none

section Rules

variable (engine : RegexEngine) (trigger : GuardrailTrigger) (ctx : EvalContext)

/-- A rule that is enabled, in scope and for the trigger, and whose condition holds. -/
def GuardrailRule.Matches (rule : GuardrailRule) : Prop :=
  rule.enabled = true ∧ rule.trigger.matches trigger = true ∧ rule.scope.covers ctx = true ∧
    rule.condition.evaluate engine ctx = true

instance (rule : GuardrailRule) : Decidable (rule.Matches engine trigger ctx) :=
  inferInstanceAs (Decidable (_ ∧ _ ∧ _ ∧ _))

/-- The actions of the rules that match. -/
def actions (rules : List GuardrailRule) : List GuardrailAction :=
  (rules.filter fun rule => rule.Matches engine trigger ctx).map GuardrailRule.action

variable {engine trigger ctx} {rule : GuardrailRule} {rules : List GuardrailRule}
  {verdict : GuardrailVerdict}

theorem matches_iff : rule.Matches engine trigger ctx ↔
    rule.appliesTo trigger ctx = true ∧ rule.condition.evaluate engine ctx = true := by
  rw [GuardrailRule.Matches, GuardrailRule.appliesTo]
  cases rule.enabled <;> cases rule.trigger.matches trigger <;> simp

@[simp]
theorem actions_cons_of_matches (holds : rule.Matches engine trigger ctx) :
    actions engine trigger ctx (rule :: rules) =
      rule.action :: actions engine trigger ctx rules := by
  rw [actions, List.filter_cons_of_pos (by simpa using holds)]
  rfl

@[simp]
theorem actions_cons_of_not_matches (fails : ¬ rule.Matches engine trigger ctx) :
    actions engine trigger ctx (rule :: rules) = actions engine trigger ctx rules := by
  rw [actions, List.filter_cons_of_neg (by simpa using fails)]
  rfl

theorem mem_actions {action : GuardrailAction} :
    action ∈ actions engine trigger ctx rules ↔
      ∃ rule ∈ rules, rule.Matches engine trigger ctx ∧ rule.action = action := by
  simp [actions, and_assoc]

/-! ## One rule -/

/-- The verdict with the evaluation of a rule noted. -/
def GuardrailVerdict.note (verdict : GuardrailVerdict) (rule : GuardrailRule) (matched : Bool) :
    GuardrailVerdict :=
  { verdict with details := verdict.details ++ [⟨rule.id, rule.name, matched, rule.action⟩] }

/-- The verdict after an action that does not block. -/
def GuardrailVerdict.follow (verdict : GuardrailVerdict) (name : String) :
    GuardrailAction → GuardrailVerdict
  | .block _ => verdict
  | .redact => { verdict with redact := true }
  | .reclassify classification => verdict.raise classification
  | .auditOnly severity =>
      { verdict with auditEntries := verdict.auditEntries ++ [(name, severity)] }
  | .warn message => { verdict with warnings := verdict.warnings ++ [message] }

theorem evaluateFrom_of_not_matches (fails : ¬ rule.Matches engine trigger ctx) :
    ∃ details, evaluateFrom engine trigger ctx verdict (rule :: rules) =
      evaluateFrom engine trigger ctx { verdict with details } rules := by
  rw [matches_iff] at fails
  rw [evaluateFrom]
  by_cases applies : rule.appliesTo trigger ctx = true
  · have misses : rule.condition.evaluate engine ctx = false :=
      Bool.eq_false_iff.mpr fun holds => fails ⟨applies, holds⟩
    rw [applies, misses]
    exact ⟨_, rfl⟩
  · rw [Bool.eq_false_iff.mpr applies]
    exact ⟨verdict.details, rfl⟩

theorem evaluateFrom_of_blocks (holds : rule.Matches engine trigger ctx) {reason : String}
    (blocks : rule.action = .block reason) :
    evaluateFrom engine trigger ctx verdict (rule :: rules) =
      { verdict.note rule true with blocked := true, blockReason := some reason } := by
  obtain ⟨applies, condition⟩ := matches_iff.mp holds
  rw [evaluateFrom, applies, condition]
  simp [blocks, GuardrailVerdict.note]

theorem evaluateFrom_of_passes (holds : rule.Matches engine trigger ctx)
    (passes : rule.action.reason = none) :
    evaluateFrom engine trigger ctx verdict (rule :: rules) =
      evaluateFrom engine trigger ctx ((verdict.note rule true).follow rule.name rule.action)
        rules := by
  obtain ⟨applies, condition⟩ := matches_iff.mp holds
  rw [evaluateFrom, applies, condition]
  cases action : rule.action with
  | block reason =>
    rw [action] at passes
    exact nomatch passes
  | _ => simp [action, GuardrailVerdict.note, GuardrailVerdict.follow]

/-! ## All rules -/

theorem evaluateFrom_blocked {front back : List GuardrailRule}
    (holds : rule.Matches engine trigger ctx) {reason : String}
    (blocks : rule.action = .block reason)
    (first : ∀ action ∈ actions engine trigger ctx front, action.reason = none) :
    (evaluateFrom engine trigger ctx verdict (front ++ rule :: back)).blocked = true ∧
      (evaluateFrom engine trigger ctx verdict (front ++ rule :: back)).blockReason =
        some reason := by
  induction front generalizing verdict with
  | nil =>
    rw [List.nil_append, evaluateFrom_of_blocks holds blocks]
    exact ⟨rfl, rfl⟩
  | cons earlier front ih =>
    rw [List.cons_append]
    by_cases matched : earlier.Matches engine trigger ctx
    · rw [actions_cons_of_matches matched] at first
      obtain ⟨passes, others⟩ := List.forall_mem_cons.mp first
      rw [evaluateFrom_of_passes matched passes]
      exact ih others
    · rw [actions_cons_of_not_matches matched] at first
      obtain ⟨details, same⟩ := evaluateFrom_of_not_matches matched
      rw [same]
      exact ih first

theorem raise_reclassifyTo (verdict : GuardrailVerdict) (classification : Classification) :
    (verdict.raise classification).reclassifyTo =
      Option.merge max verdict.reclassifyTo (some classification) := by
  rw [GuardrailVerdict.raise]
  cases found : verdict.reclassifyTo with
  | none => rfl
  | some existing =>
    dsimp only
    split
    next less => exact congrArg some (max_eq_right less.le).symm
    next above => exact found.trans (congrArg some (max_eq_left (not_lt.mp above)).symm)

theorem follow_blocked (verdict : GuardrailVerdict) (name : String) (action : GuardrailAction) :
    (verdict.follow name action).blocked = verdict.blocked ∧
      (verdict.follow name action).blockReason = verdict.blockReason := by
  cases action with
  | reclassify classification =>
    rw [GuardrailVerdict.follow, GuardrailVerdict.raise]
    split
    · exact ⟨rfl, rfl⟩
    · split <;> exact ⟨rfl, rfl⟩
  | _ => exact ⟨rfl, rfl⟩

theorem follow_redact (verdict : GuardrailVerdict) (name : String) (action : GuardrailAction) :
    (verdict.follow name action).redact = (verdict.redact || decide (action = .redact)) := by
  cases action with
  | redact => simp [GuardrailVerdict.follow]
  | reclassify classification =>
    rw [GuardrailVerdict.follow, GuardrailVerdict.raise]
    split
    · simp
    · split <;> simp
  | _ => simp [GuardrailVerdict.follow]

theorem follow_reclassifyTo (verdict : GuardrailVerdict) (name : String)
    (action : GuardrailAction) :
    (verdict.follow name action).reclassifyTo =
      Option.merge max verdict.reclassifyTo action.upgrade := by
  cases action with
  | reclassify classification => exact raise_reclassifyTo verdict classification
  | _ => simp [GuardrailVerdict.follow, GuardrailAction.upgrade]

theorem max?_filterMap_cons (action : GuardrailAction) (others : List GuardrailAction) :
    ((action :: others).filterMap GuardrailAction.upgrade).max? =
      Option.merge max action.upgrade (others.filterMap GuardrailAction.upgrade).max? := by
  rw [List.filterMap_cons]
  cases action.upgrade with
  | none => simp
  | some classification =>
    dsimp only
    rw [List.max?_cons]
    cases (others.filterMap GuardrailAction.upgrade).max? with
    | none => rfl
    | some highest => rfl

theorem merge_assoc (first second third : Option Classification) :
    Option.merge max (Option.merge max first second) third =
      Option.merge max first (Option.merge max second third) :=
  (inferInstance : Std.Associative (Option.merge (max : Classification → _ → _))).assoc _ _ _

theorem evaluateFrom_open
    (passes : ∀ action ∈ actions engine trigger ctx rules, action.reason = none) :
    (evaluateFrom engine trigger ctx verdict rules).blocked = verdict.blocked ∧
    (evaluateFrom engine trigger ctx verdict rules).blockReason = verdict.blockReason ∧
    (evaluateFrom engine trigger ctx verdict rules).redact =
      (verdict.redact || decide (.redact ∈ actions engine trigger ctx rules)) ∧
    (evaluateFrom engine trigger ctx verdict rules).reclassifyTo =
      Option.merge max verdict.reclassifyTo
        ((actions engine trigger ctx rules).filterMap GuardrailAction.upgrade).max? := by
  induction rules generalizing verdict with
  | nil => simp [evaluateFrom, actions]
  | cons rule rules ih =>
    by_cases matched : rule.Matches engine trigger ctx
    · rw [actions_cons_of_matches matched] at passes ⊢
      obtain ⟨first, others⟩ := List.forall_mem_cons.mp passes
      rw [evaluateFrom_of_passes matched first]
      obtain ⟨blocked, reason, redact, reclassify⟩ := @ih
        ((verdict.note rule true).follow rule.name rule.action) others
      obtain ⟨sameBlocked, sameReason⟩ :=
        follow_blocked (verdict.note rule true) rule.name rule.action
      refine ⟨blocked.trans sameBlocked, reason.trans sameReason, ?_, ?_⟩
      · rw [redact, follow_redact, Bool.or_assoc, ← Bool.decide_or]
        refine congrArg (verdict.redact || ·) (decide_eq_decide.mpr ?_)
        rw [List.mem_cons, eq_comm]
      · rw [reclassify, follow_reclassifyTo, max?_filterMap_cons]
        exact merge_assoc _ _ _
    · rw [actions_cons_of_not_matches matched] at passes ⊢
      obtain ⟨details, same⟩ := evaluateFrom_of_not_matches matched
      rw [same]
      exact ih passes

end Rules

/-! ## The verdict -/

section Verdict

variable (engine : RegexEngine) (trigger : GuardrailTrigger) (ctx : EvalContext)
  (rules : List GuardrailRule)

/-- Some matching rule blocks. -/
def Blocks : Prop :=
  ∃ rule ∈ rules, rule.Matches engine trigger ctx ∧ ∃ reason, rule.action = .block reason

/-- The reason is the one of the first matching rule that blocks. -/
def FirstReason (reason : String) : Prop :=
  ∃ front rule back, rules = front ++ rule :: back ∧ rule.Matches engine trigger ctx ∧
    rule.action = .block reason ∧ ¬ Blocks engine trigger ctx front

variable {engine trigger ctx rules}

theorem reason_eq_none_iff {action : GuardrailAction} :
    action.reason = none ↔ ¬ ∃ reason, action = .block reason := by
  cases action <;> simp [GuardrailAction.reason]

theorem passes_of_not_blocks (open' : ¬ Blocks engine trigger ctx rules) :
    ∀ action ∈ actions engine trigger ctx rules, action.reason = none := by
  intro action member
  obtain ⟨rule, known, holds, rfl⟩ := mem_actions.mp member
  exact reason_eq_none_iff.mpr fun blocks => open' ⟨rule, known, holds, blocks⟩

theorem exists_firstReason (blocks : Blocks engine trigger ctx rules) :
    ∃ reason, FirstReason engine trigger ctx rules reason := by
  induction rules with
  | nil =>
    obtain ⟨rule, known, -⟩ := blocks
    exact nomatch known
  | cons rule rules ih =>
    by_cases first : rule.Matches engine trigger ctx ∧ ∃ reason, rule.action = .block reason
    · obtain ⟨holds, reason, action⟩ := first
      exact ⟨reason, [], rule, rules, rfl, holds, action, fun ⟨_, absent, _⟩ => nomatch absent⟩
    · obtain ⟨other, known, holds, stops⟩ := blocks
      have later : Blocks engine trigger ctx rules := by
        rcases List.mem_cons.mp known with rfl | later
        · exact absurd ⟨holds, stops⟩ first
        · exact ⟨other, later, holds, stops⟩
      obtain ⟨reason, front, blocker, back, rfl, holds', action, none⟩ := ih later
      refine ⟨reason, rule :: front, blocker, back, rfl, holds', action, ?_⟩
      rintro ⟨candidate, member, matched, blocks'⟩
      rcases List.mem_cons.mp member with rfl | inFront
      · exact first ⟨matched, blocks'⟩
      · exact none ⟨candidate, inFront, matched, blocks'⟩

theorem evaluateRules_of_firstReason {reason : String}
    (first : FirstReason engine trigger ctx rules reason) :
    (evaluateRules engine rules trigger ctx).blocked = true ∧
      (evaluateRules engine rules trigger ctx).blockReason = some reason := by
  obtain ⟨front, rule, back, rfl, holds, action, none⟩ := first
  exact evaluateFrom_blocked holds action (passes_of_not_blocks none)

theorem blocked_iff :
    (evaluateRules engine rules trigger ctx).blocked = true ↔ Blocks engine trigger ctx rules := by
  constructor
  · intro blocked
    by_contra none
    have same := (evaluateFrom_open (passes_of_not_blocks none)
      : (evaluateFrom engine trigger ctx .default rules).blocked = _ ∧ _).1
    exact absurd (same.symm.trans blocked) Bool.false_ne_true
  · intro blocks
    obtain ⟨reason, first⟩ := exists_firstReason blocks
    exact (evaluateRules_of_firstReason first).1

theorem blockReason_iff {reason : String} :
    (evaluateRules engine rules trigger ctx).blockReason = some reason ↔
      FirstReason engine trigger ctx rules reason := by
  constructor
  · intro given
    by_cases blocks : Blocks engine trigger ctx rules
    · obtain ⟨other, first⟩ := exists_firstReason blocks
      have same := (evaluateRules_of_firstReason first).2
      rwa [Option.some.inj (given.symm.trans same)]
    · have none := (evaluateFrom_open (passes_of_not_blocks blocks)
        : (evaluateFrom engine trigger ctx .default rules).blocked = _ ∧ _).2.1
      exact nomatch given.symm.trans none
  · intro first
    exact (evaluateRules_of_firstReason first).2

theorem redact_iff (open' : ¬ Blocks engine trigger ctx rules) :
    (evaluateRules engine rules trigger ctx).redact = true ↔
      ∃ rule ∈ rules, rule.Matches engine trigger ctx ∧ rule.action = .redact := by
  have same := (evaluateFrom_open (passes_of_not_blocks open')
    : (evaluateFrom engine trigger ctx .default rules).blocked = _ ∧ _).2.2.1
  rw [evaluateRules, same]
  simp [GuardrailVerdict.default, mem_actions]

theorem reclassifyTo_iff (open' : ¬ Blocks engine trigger ctx rules)
    {classification : Classification} :
    (evaluateRules engine rules trigger ctx).reclassifyTo = some classification ↔
      IsGreatest {upgrade | ∃ rule ∈ rules, rule.Matches engine trigger ctx ∧
        rule.action = .reclassify upgrade} classification := by
  have same := (evaluateFrom_open (passes_of_not_blocks open')
    : (evaluateFrom engine trigger ctx .default rules).blocked = _ ∧ _).2.2.2
  have members : ∀ upgrade, upgrade ∈
      (actions engine trigger ctx rules).filterMap GuardrailAction.upgrade ↔
        ∃ rule ∈ rules, rule.Matches engine trigger ctx ∧ rule.action = .reclassify upgrade := by
    intro upgrade
    have upgrades : ∀ action : GuardrailAction,
        action.upgrade = some upgrade ↔ action = .reclassify upgrade := by
      intro action
      cases action <;> simp [GuardrailAction.upgrade]
    simp only [List.mem_filterMap, upgrades, exists_eq_right, mem_actions]
  rw [evaluateRules, same]
  change Option.merge max none _ = _ ↔ _
  rw [Option.merge_none_left, List.max?_eq_some_iff]
  simp only [members]
  rfl

/-! ## The order of the rules -/

theorem blocks_perm {permuted : List GuardrailRule} (same : rules.Perm permuted) :
    Blocks engine trigger ctx permuted ↔ Blocks engine trigger ctx rules := by
  simp only [Blocks, same.mem_iff]

theorem redact_perm {permuted : List GuardrailRule} (same : rules.Perm permuted)
    (open' : ¬ Blocks engine trigger ctx rules) :
    (evaluateRules engine permuted trigger ctx).redact =
      (evaluateRules engine rules trigger ctx).redact := by
  have openPermuted := mt (blocks_perm same).mp open'
  rw [Bool.eq_iff_iff, redact_iff open', redact_iff openPermuted]
  simp only [same.mem_iff]

theorem reclassifyTo_perm {permuted : List GuardrailRule} (same : rules.Perm permuted)
    (open' : ¬ Blocks engine trigger ctx rules) :
    (evaluateRules engine permuted trigger ctx).reclassifyTo =
      (evaluateRules engine rules trigger ctx).reclassifyTo := by
  have openPermuted := mt (blocks_perm same).mp open'
  ext classification
  rw [reclassifyTo_iff open', reclassifyTo_iff openPermuted]
  simp only [same.mem_iff]

theorem evaluateFrom_filter (verdict : GuardrailVerdict) (rules : List GuardrailRule) :
    evaluateFrom engine trigger ctx verdict
        (rules.filter fun rule => rule.enabled && rule.scope.covers ctx) =
      evaluateFrom engine trigger ctx verdict rules := by
  induction rules generalizing verdict with
  | nil => rfl
  | cons rule rules ih =>
    cases active : rule.enabled && rule.scope.covers ctx with
    | true =>
      rw [List.filter_cons_of_pos (by exact active), evaluateFrom, evaluateFrom]
      simp only [ih]
    | false =>
      have idle : rule.appliesTo trigger ctx = false := by
        rw [GuardrailRule.appliesTo]
        rcases Bool.and_eq_false_iff.mp active with disabled | outside
        · rw [disabled]
          rfl
        · rw [outside]
          simp
      rw [List.filter_cons_of_neg (by simp [active]), evaluateFrom, idle, ih]
      rfl

/-- What a list of rules decides: the first matching rule that blocks, or else the highest of what
all matching rules ask for; a condition is read as a boolean formula. -/
theorem evaluateRules_decides (engine : RegexEngine) (trigger : GuardrailTrigger)
    (ctx : EvalContext) (rules : List GuardrailRule) :
    ((evaluateRules engine rules trigger ctx).blocked = true ↔ Blocks engine trigger ctx rules) ∧
    (∀ reason, (evaluateRules engine rules trigger ctx).blockReason = some reason ↔
      FirstReason engine trigger ctx rules reason) ∧
    (¬ Blocks engine trigger ctx rules →
      ((evaluateRules engine rules trigger ctx).redact = true ↔
        ∃ rule ∈ rules, rule.Matches engine trigger ctx ∧ rule.action = .redact) ∧
      (∀ classification,
        (evaluateRules engine rules trigger ctx).reclassifyTo = some classification ↔
          IsGreatest {upgrade | ∃ rule ∈ rules, rule.Matches engine trigger ctx ∧
            rule.action = .reclassify upgrade} classification) ∧
      ∀ permuted, rules.Perm permuted →
        (evaluateRules engine permuted trigger ctx).blocked = false ∧
        (evaluateRules engine permuted trigger ctx).redact =
          (evaluateRules engine rules trigger ctx).redact ∧
        (evaluateRules engine permuted trigger ctx).reclassifyTo =
          (evaluateRules engine rules trigger ctx).reclassifyTo) ∧
    evaluateRules engine (rules.filter fun rule => rule.enabled && rule.scope.covers ctx) trigger
      ctx = evaluateRules engine rules trigger ctx ∧
    (∀ conditions, (GuardrailCondition.and conditions).evaluate engine ctx = true ↔
      ∀ condition ∈ conditions, condition.evaluate engine ctx = true) ∧
    (∀ conditions, (GuardrailCondition.or conditions).evaluate engine ctx = true ↔
      ∃ condition ∈ conditions, condition.evaluate engine ctx = true) ∧
    ∀ condition, (GuardrailCondition.not condition).evaluate engine ctx = true ↔
      ¬ condition.evaluate engine ctx = true := by
  refine ⟨blocked_iff, fun _ => blockReason_iff, ?_, evaluateFrom_filter .default rules, ?_, ?_,
    ?_⟩
  · intro open'
    refine ⟨redact_iff open', fun _ => reclassifyTo_iff open', ?_⟩
    intro permuted same
    refine ⟨?_, redact_perm same open', reclassifyTo_perm same open'⟩
    rw [Bool.eq_false_iff, ne_eq, blocked_iff, blocks_perm same]
    exact open'
  · intro conditions
    rw [GuardrailCondition.evaluate_and, List.all_eq_true]
  · intro conditions
    rw [GuardrailCondition.evaluate_or, List.any_eq_true]
  · intro condition
    rw [GuardrailCondition.evaluate_not, Bool.not_eq_true', Bool.not_eq_true]

end Verdict

end Guardrail
end Mnemo
