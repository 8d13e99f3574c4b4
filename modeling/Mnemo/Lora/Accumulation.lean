import Mnemo.Lora.Embedder

/-!
# What adapters have learned

The updates of a pair since its last reset, and when the stored weights are those that they lead to.
-/

namespace Mnemo
namespace Lora

/-- What happens to adapters. -/
inductive LoraEvent where
  | embedForAgent (base : Option (List ℚ)) (owner : Owner) (readFails : Bool) (now : Int)
  | updateFromAccess (query item : List ℚ) (owner : Owner) (now : Int)
  | updateWithRating (feedback : Feedback) (owner : Owner)
  | reset (owner : Owner)
  | restart

/-- The pair that an event is about. -/
def LoraEvent.owner? : LoraEvent → Option Owner
  | .embedForAgent _ owner _ _ | .updateFromAccess _ _ owner _ | .updateWithRating _ owner
  | .reset owner => some owner
  | .restart => none

/-- The pairs that events are about. -/
def ownersOf (events : List LoraEvent) : Set Owner :=
  {owner | ∃ event ∈ events, event.owner? = some owner}

/-- The server, and the updates of each pair since its last reset. -/
structure LoraRun where
  server : LoraServer
  ledger : Owner → List Feedback

/-- Nothing is stored, and nothing has been learned. -/
def LoraRun.fresh : LoraRun := { server := .fresh, ledger := fun _ => [] }

section Runs

variable (embedder : LoraAdaptedEmbedder)

/-- The update that an event makes, if any. -/
def LoraEvent.update? : LoraEvent → Option (Owner × Feedback)
  | .updateFromAccess query item owner now =>
      if embedder.enabled = false then none else some (owner, { query, item, rating := 1, now })
  | .updateWithRating feedback owner =>
      if embedder.enabled = false ∨ feedback.rating = 0 then none else some (owner, feedback)
  | _ => none

/-- What an event does to the server. -/
def serve : LoraEvent → LoraServer → LoraServer
  | .embedForAgent base owner readFails now, server =>
      (embedder.embedForAgent base owner readFails now server).2
  | .updateFromAccess query item owner now, server =>
      embedder.updateFromAccess query item owner now server
  | .updateWithRating feedback owner, server => embedder.updateWithRating feedback owner server
  | .reset owner, server => (server.deleteLoraWeights owner).evictCache owner
  | .restart, server => { server with adapters := server.adapters.restart }

/-- What an event adds to the updates of a pair, or removes from them. -/
def record (event : LoraEvent) (ledger : Owner → List Feedback) : Owner → List Feedback :=
  match event.update? embedder, event with
  | some (owner, feedback), _ => Function.update ledger owner (ledger owner ++ [feedback])
  | none, .reset owner => Function.update ledger owner []
  | none, _ => ledger

/-- One step of the server. -/
def loraStep (run : LoraRun) (event : LoraEvent) : LoraRun :=
  { server := serve embedder event run.server, ledger := record embedder event run.ledger }

/-- The weights that updates lead to, if there are any. -/
def accumulated (owner : Owner) (updates : List Feedback) : Option LoraWeights :=
  if updates = [] then none
  else some (updates.foldl (fun weights feedback => weights.learned embedder.arithmetic feedback)
    (.initialized embedder.arithmetic owner embedder.dims 0))

/-- The stored weights of every pair are those that its own updates lead to. -/
def Accumulates (owners : Set Owner) (run : LoraRun) : Prop :=
  ∀ owner ∈ owners, run.server.getLoraWeights owner =
    accumulated embedder owner (run.ledger owner)

/-- An update comes to a pair whose key is not that of another pair, and whose stored weights, if
there are any, are those in memory. -/
def Continues (owners : Set Owner) (run : LoraRun) (event : LoraEvent) : Prop :=
  ∀ owner feedback, event.update? embedder = some (owner, feedback) →
    (∀ other ∈ owners, other.cacheKey = owner.cacheKey → other = owner) ∧
      ∀ weights, run.server.getLoraWeights owner = some weights →
        run.server.adapters.cache owner.cacheKey = some weights

variable {embedder} {owner : Owner} {updates : List Feedback} {weights : LoraWeights}

/-! ## Accumulated weights -/

theorem foldl_learned (start : LoraWeights) :
    (updates.foldl (fun weights feedback => weights.learned embedder.arithmetic feedback)
      start).owner = start.owner ∧
    (updates.foldl (fun weights feedback => weights.learned embedder.arithmetic feedback)
      start).updateCount = start.updateCount + updates.length := by
  induction updates generalizing start with
  | nil => exact ⟨rfl, rfl⟩
  | cons feedback updates ih =>
    obtain ⟨same, count⟩ := ih (start.learned embedder.arithmetic feedback)
    refine ⟨same, count.trans ?_⟩
    rw [List.length_cons]
    simp only [LoraWeights.learned]
    omega

theorem accumulated_eq_none : accumulated embedder owner updates = none ↔ updates = [] := by
  simp [accumulated]

theorem accumulated_eq_some (found : accumulated embedder owner updates = some weights) :
    weights.owner = owner ∧ weights.updateCount = updates.length ∧ 0 < updates.length := by
  unfold accumulated at found
  split at found
  · exact nomatch found
  · rename_i nonempty
    obtain rfl := Option.some.inj found
    obtain ⟨same, count⟩ := @foldl_learned embedder updates
      (.initialized embedder.arithmetic owner embedder.dims 0)
    refine ⟨same, count.trans (Nat.zero_add _), List.length_pos_of_ne_nil nonempty⟩

theorem accumulated_concat (feedback : Feedback) (now : Int) :
    accumulated embedder owner (updates ++ [feedback]) =
      some (((accumulated embedder owner updates).getD
        (.initialized embedder.arithmetic owner embedder.dims now)).learned
          embedder.arithmetic feedback) := by
  unfold accumulated
  rw [if_neg (by simp), List.foldl_append]
  by_cases first : updates = []
  · subst updates
    rfl
  · rw [if_neg first]
    rfl

/-! ## One step -/

/-- A new adapter of one of the pairs, kept under its key. -/
def IsNew (embedder : LoraAdaptedEmbedder) (owners : Set Owner) (key : AdapterKey)
    (weights : LoraWeights) : Prop :=
  ∃ owner ∈ owners, owner.cacheKey = key ∧
    ∃ now, weights = .initialized embedder.arithmetic owner embedder.dims now

/-- Adapters in memory are stored or new. -/
def Steady (embedder : LoraAdaptedEmbedder) (owners : Set Owner) (run : LoraRun) : Prop :=
  WriteBack.Faithful (IsNew embedder owners) run.server.adapters

variable {owners : Set Owner} {run : LoraRun} {event : LoraEvent} {feedback : Feedback}

/-- The adapter from which an update of a pair starts. -/
def LoraServer.adapterInMemory (embedder : LoraAdaptedEmbedder) (server : LoraServer)
    (owner : Owner) (now : Int) : LoraWeights :=
  (server.adapters.cache owner.cacheKey).getD
    (.initialized embedder.arithmetic owner embedder.dims now)

theorem serve_of_update (server : LoraServer)
    (update : event.update? embedder = some (owner, feedback)) :
    serve embedder event server =
      embedder.revise (·.learned embedder.arithmetic feedback) owner feedback.now server := by
  cases event with
  | updateFromAccess query item other now =>
    simp only [LoraEvent.update?] at update
    split at update
    · exact nomatch update
    · rename_i enabled
      obtain ⟨rfl, rfl⟩ := Prod.mk.inj (Option.some.inj update)
      simp only [serve, LoraAdaptedEmbedder.updateFromAccess, if_neg enabled,
        LoraWeights.updateFromAccess, LoraWeights.updateWithRating, one_ne_zero, if_false]
  | updateWithRating rating other =>
    simp only [LoraEvent.update?] at update
    split at update
    · exact nomatch update
    · rename_i effective
      obtain ⟨rfl, rfl⟩ := Prod.mk.inj (Option.some.inj update)
      have rated : rating.rating ≠ 0 := fun neutral => effective (.inr neutral)
      simp only [serve, LoraAdaptedEmbedder.updateWithRating, if_neg effective,
        LoraWeights.updateWithRating, if_neg rated]
  | embedForAgent base other readFails now => exact nomatch update
  | reset other => exact nomatch update
  | restart => exact nomatch update

theorem owner?_of_update (update : event.update? embedder = some (owner, feedback)) :
    event.owner? = some owner := by
  cases event with
  | updateFromAccess query item other now =>
    simp only [LoraEvent.update?] at update
    split at update
    · exact nomatch update
    · exact congrArg some (Prod.mk.inj (Option.some.inj update)).1
  | updateWithRating rating other =>
    simp only [LoraEvent.update?] at update
    split at update
    · exact nomatch update
    · exact congrArg some (Prod.mk.inj (Option.some.inj update)).1
  | embedForAgent base other readFails now => exact nomatch update
  | reset other => exact nomatch update
  | restart => exact nomatch update

theorem record_of_update (ledger : Owner → List Feedback)
    (update : event.update? embedder = some (owner, feedback)) :
    record embedder event ledger =
      Function.update ledger owner (ledger owner ++ [feedback]) := by
  unfold record
  rw [update]

theorem cacheKey_adapterInMemory (steady : Steady embedder owners run)
    (accumulates : Accumulates embedder owners run) (member : owner ∈ owners) (now : Int) :
    (run.server.adapterInMemory embedder owner now).owner.cacheKey = owner.cacheKey := by
  unfold LoraServer.adapterInMemory
  cases cached : run.server.adapters.cache owner.cacheKey with
  | none => rfl
  | some adapter =>
    rcases steady _ _ cached with stored | ⟨other, _, same, _, rfl⟩
    · have expected := (accumulates owner member).symm.trans stored
      exact congrArg Owner.cacheKey (accumulated_eq_some expected).1
    · exact same

theorem adapters_of_update (steady : Steady embedder owners run)
    (accumulates : Accumulates embedder owners run) (member : owner ∈ owners)
    (update : event.update? embedder = some (owner, feedback)) :
    (loraStep embedder run event).server.adapters =
      (run.server.adapters.keep owner.cacheKey
        ((run.server.adapterInMemory embedder owner feedback.now).learned embedder.arithmetic
          feedback)).save owner.cacheKey
        ((run.server.adapterInMemory embedder owner feedback.now).learned embedder.arithmetic
          feedback) := by
  have key := cacheKey_adapterInMemory steady accumulates member feedback.now
  simp only [loraStep, serve_of_update run.server update]
  change (run.server.adapters.keep owner.cacheKey _).save
    (run.server.adapterInMemory embedder owner feedback.now).owner.cacheKey _ = _
  rw [key]
  rfl

theorem getLoraWeights_of_update (steady : Steady embedder owners run)
    (accumulates : Accumulates embedder owners run) (member : owner ∈ owners)
    (update : event.update? embedder = some (owner, feedback)) (other : Owner) :
    (loraStep embedder run event).server.getLoraWeights other =
      if other.cacheKey = owner.cacheKey then
        some ((run.server.adapterInMemory embedder owner feedback.now).learned embedder.arithmetic
          feedback)
      else run.server.getLoraWeights other := by
  unfold LoraServer.getLoraWeights
  rw [adapters_of_update steady accumulates member update]
  by_cases same : other.cacheKey = owner.cacheKey
  · rw [if_pos same, same]
    exact Function.update_self _ _ _
  · rw [if_neg same]
    exact Function.update_of_ne same _ _

theorem adapterInMemory_of_continues (steady : Steady embedder owners run)
    (accumulates : Accumulates embedder owners run) (member : owner ∈ owners)
    (apart : ∀ other ∈ owners, other.cacheKey = owner.cacheKey → other = owner)
    (current : ∀ weights, run.server.getLoraWeights owner = some weights →
      run.server.adapters.cache owner.cacheKey = some weights) (now : Int) :
    ∃ start, run.server.adapterInMemory embedder owner now =
      (accumulated embedder owner (run.ledger owner)).getD
        (.initialized embedder.arithmetic owner embedder.dims start) := by
  unfold LoraServer.adapterInMemory
  rw [← accumulates owner member]
  cases stored : run.server.getLoraWeights owner with
  | some weights =>
    rw [current weights stored]
    exact ⟨now, rfl⟩
  | none =>
    cases cached : run.server.adapters.cache owner.cacheKey with
    | none => exact ⟨now, rfl⟩
    | some adapter =>
      rcases steady _ _ cached with impossible | ⟨other, among, same, start, rfl⟩
      · exact nomatch stored.symm.trans impossible
      · rw [apart other among same]
        exact ⟨start, rfl⟩

theorem cached_of_updateCount (steady : Steady embedder owners run)
    (accumulates : Accumulates embedder owners run) (member : owner ∈ owners)
    (stored : run.server.getLoraWeights owner = some weights) {now : Int}
    (counts : (run.server.adapterInMemory embedder owner now).updateCount = weights.updateCount) :
    run.server.adapters.cache owner.cacheKey = some weights := by
  obtain ⟨_, count, some_updates⟩ :=
    accumulated_eq_some ((accumulates owner member).symm.trans stored)
  unfold LoraServer.adapterInMemory at counts
  cases cached : run.server.adapters.cache owner.cacheKey with
  | none =>
    rw [cached] at counts
    have zero : 0 = weights.updateCount := counts
    omega
  | some adapter =>
    rw [cached] at counts
    rcases steady _ _ cached with same | ⟨_, _, _, _, rfl⟩
    · exact same.symm.trans stored
    · have zero : 0 = weights.updateCount := counts
      omega

theorem accumulates_update_iff (steady : Steady embedder owners run)
    (accumulates : Accumulates embedder owners run) (member : owner ∈ owners)
    (update : event.update? embedder = some (owner, feedback)) :
    Accumulates embedder owners (loraStep embedder run event) ↔
      Continues embedder owners run event := by
  have stores := getLoraWeights_of_update steady accumulates member update
  have ledgers : (loraStep embedder run event).ledger = _ := record_of_update run.ledger update
  constructor
  · intro next other given same
    rw [update] at same
    obtain ⟨rfl, rfl⟩ := Prod.mk.inj (Option.some.inj same)
    have own := next owner member
    rw [stores, if_pos rfl, ledgers, Function.update_self] at own
    refine ⟨fun other among key => ?_, fun weights stored => ?_⟩
    · by_contra different
      have shared := next other among
      rw [stores, if_pos key, ledgers, Function.update_of_ne different] at shared
      exact different ((accumulated_eq_some shared.symm).1.symm.trans
        (accumulated_eq_some own.symm).1)
    · have current := (accumulates owner member).symm.trans stored
      rw [accumulated_concat feedback feedback.now, current] at own
      have counts := congrArg LoraWeights.updateCount (Option.some.inj own)
      exact cached_of_updateCount steady accumulates member stored (Nat.succ.inj counts)
  · intro continues other among
    obtain ⟨apart, current⟩ := continues owner feedback update
    rw [stores, ledgers]
    by_cases same : other = owner
    · subst other
      obtain ⟨start, base⟩ :=
        adapterInMemory_of_continues steady accumulates member apart current feedback.now
      rw [if_pos rfl, Function.update_self, accumulated_concat feedback start, base]
    · rw [if_neg fun key => same (apart other among key), Function.update_of_ne same]
      exact accumulates other among

theorem embedForAgent_state (base : Option (List ℚ)) (owner : Owner) (readFails : Bool)
    (now : Int) (server : LoraServer) :
    (embedder.embedForAgent base owner readFails now server).2 = server ∨
      ∃ adapter, (server.getLoraWeights owner = some adapter ∨
          adapter = .initialized embedder.arithmetic owner embedder.dims now) ∧
        (embedder.embedForAgent base owner readFails now server).2 =
          { server with adapters := server.adapters.keep owner.cacheKey adapter } := by
  cases base with
  | none => exact .inl rfl
  | some base =>
    simp only [LoraAdaptedEmbedder.embedForAgent, LoraAdaptedEmbedder.adaptVec]
    by_cases disabled : embedder.enabled = false
    · rw [if_pos disabled]
      exact .inl rfl
    · rw [if_neg disabled]
      simp only [LoraAdaptedEmbedder.getAdapter]
      cases cached : server.adapters.cache owner.cacheKey with
      | some adapter => exact .inl rfl
      | none =>
        right
        refine ⟨_, ?_, rfl⟩
        cases readFails with
        | true => exact .inr rfl
        | false =>
          cases stored : server.getLoraWeights owner with
          | some weights => exact .inl rfl
          | none => exact .inr rfl

theorem serve_updateFromAccess_of_none {query item : List ℚ} {now : Int} (server : LoraServer)
    (update : (LoraEvent.updateFromAccess query item owner now).update? embedder = none) :
    serve embedder (.updateFromAccess query item owner now) server = server := by
  simp only [LoraEvent.update?] at update
  split at update
  · rename_i disabled
    simp only [serve, LoraAdaptedEmbedder.updateFromAccess, if_pos disabled]
  · exact nomatch update

theorem serve_updateWithRating_of_none (server : LoraServer)
    (update : (LoraEvent.updateWithRating feedback owner).update? embedder = none) :
    serve embedder (.updateWithRating feedback owner) server = server := by
  simp only [LoraEvent.update?] at update
  split at update
  · rename_i neutral
    simp only [serve, LoraAdaptedEmbedder.updateWithRating, if_pos neutral]
  · exact nomatch update

theorem ledger_eq_nil_of_cacheKey (accumulates : Accumulates embedder owners run)
    (member : owner ∈ owners) {other : Owner} (among : other ∈ owners)
    (key : other.cacheKey = owner.cacheKey) (different : other ≠ owner) :
    run.ledger other = [] := by
  have shared : run.server.getLoraWeights other = run.server.getLoraWeights owner :=
    congrArg run.server.adapters.store key
  rw [accumulates other among, accumulates owner member] at shared
  cases learned : accumulated embedder other (run.ledger other) with
  | none => exact accumulated_eq_none.mp learned
  | some weights =>
    rw [learned] at shared
    exact absurd ((accumulated_eq_some learned).1.symm.trans
      (accumulated_eq_some shared.symm).1) different

/-- An event that is no update keeps the property. -/
theorem accumulates_other (accumulates : Accumulates embedder owners run)
    (member : ∀ owner, event.owner? = some owner → owner ∈ owners)
    (update : event.update? embedder = none) :
    Accumulates embedder owners (loraStep embedder run event) := by
  cases event with
  | embedForAgent base owner readFails now =>
    have kept : (loraStep embedder run
        (.embedForAgent base owner readFails now)).server.adapters.store =
          run.server.adapters.store := by
      rcases @embedForAgent_state embedder base owner readFails now run.server with
        same | ⟨adapter, _, same⟩
      · exact congrArg (·.adapters.store) same
      · exact congrArg (·.adapters.store) same
    intro other among
    exact (congrArg (· other.cacheKey) kept).trans (accumulates other among)
  | updateFromAccess query item owner now =>
    intro other among
    simp only [loraStep, serve_updateFromAccess_of_none run.server update, record, update]
    exact accumulates other among
  | updateWithRating feedback owner =>
    intro other among
    simp only [loraStep, serve_updateWithRating_of_none run.server update, record, update]
    exact accumulates other among
  | reset owner =>
    intro other among
    have listed := member owner rfl
    have stores : (loraStep embedder run (.reset owner)).server.getLoraWeights other =
        Function.update run.server.adapters.store owner.cacheKey none other.cacheKey := rfl
    have ledgers : (loraStep embedder run (.reset owner)).ledger other =
        Function.update run.ledger owner [] other := rfl
    rw [stores, ledgers]
    by_cases same : other = owner
    · subst other
      rw [Function.update_self, Function.update_self]
      rfl
    · rw [Function.update_of_ne same]
      by_cases key : other.cacheKey = owner.cacheKey
      · rw [key, Function.update_self, ledger_eq_nil_of_cacheKey accumulates listed among key same]
        rfl
      · rw [Function.update_of_ne key]
        exact accumulates other among
  | restart => exact accumulates

theorem steady_step (steady : Steady embedder owners run)
    (accumulates : Accumulates embedder owners run)
    (member : ∀ owner, event.owner? = some owner → owner ∈ owners) :
    Steady embedder owners (loraStep embedder run event) := by
  cases update : event.update? embedder with
  | some made =>
    obtain ⟨owner, feedback⟩ := made
    have listed := member owner (owner?_of_update update)
    unfold Steady
    rw [adapters_of_update steady accumulates listed update]
    exact steady.keep_save
  | none =>
    cases event with
    | embedForAgent base owner readFails now =>
      rcases @embedForAgent_state embedder base owner readFails now run.server with
        same | ⟨adapter, source, same⟩
      · have kept : (loraStep embedder run
            (.embedForAgent base owner readFails now)).server = run.server := same
        unfold Steady
        rw [kept]
        exact steady
      · have kept : (loraStep embedder run
            (.embedForAgent base owner readFails now)).server = _ := same
        unfold Steady
        rw [kept]
        refine WriteBack.Faithful.keep steady (source.imp id fun new => ?_)
        exact ⟨owner, member owner rfl, rfl, now, new⟩
    | updateFromAccess query item owner now =>
      simp only [Steady, loraStep, serve_updateFromAccess_of_none run.server update]
      exact steady
    | updateWithRating feedback owner =>
      simp only [Steady, loraStep, serve_updateWithRating_of_none run.server update]
      exact steady
    | reset owner => exact WriteBack.Faithful.delete_evict steady
    | restart => exact WriteBack.Faithful.restart _

/-- Along a run, the stored weights of each of its pairs are those that the updates of the pair since
its last reset lead to, exactly if every update continues. -/
theorem accumulates_iff_continues (embedder : LoraAdaptedEmbedder) (events : List LoraEvent) :
    StateMachine.Always (loraStep embedder) (Accumulates embedder (ownersOf events)) .fresh events ↔
      StateMachine.Guarded (loraStep embedder) (Continues embedder (ownersOf events)) .fresh
        events := by
  apply StateMachine.always_iff_guarded_among
    (fun event => ∀ owner, event.owner? = some owner → owner ∈ ownersOf events)
    (Steady embedder (ownersOf events))
  case kept => exact fun _ _ member steady accumulates => steady_step steady accumulates member
  case decided =>
    intro run event member steady accumulates
    cases update : event.update? embedder with
    | some made =>
        obtain ⟨owner, feedback⟩ := made
        exact accumulates_update_iff steady accumulates (member owner (owner?_of_update update))
          update
    | none =>
        have idle : Continues embedder (ownersOf events) run event :=
          fun _ _ made => nomatch update.symm.trans made
        exact iff_of_true (accumulates_other accumulates member update) idle
  case auxiliary_initially => exact fun _ _ cached => nomatch cached
  case property_initially => exact fun _ _ => rfl
  case all => exact fun event among owner about => ⟨event, among, about⟩

end Runs

/-! ## A restart -/

/-- An embedder whose steps only count. -/
def countingEmbedder : LoraAdaptedEmbedder :=
  { arithmetic :=
      { kaiming := fun _ _ _ => []
        adapt := fun _ _ base _ _ _ => base
        learn := fun _ bFlat _ _ _ _ _ _ => bFlat }
    dims := 1, enabled := true }

/-- A pair learns from two accesses, and the process is restarted between them. -/
def restartedRun : List LoraEvent :=
  [.updateFromAccess [1] [1] ⟨7, some "agent"⟩ 10, .restart,
    .updateFromAccess [1] [1] ⟨7, some "agent"⟩ 20]

/-- The first update after a restart starts again from new weights. -/
theorem restart_forgets_updates :
    ¬ ∀ (embedder : LoraAdaptedEmbedder) (events : List LoraEvent),
      StateMachine.Always (loraStep embedder) (Accumulates embedder (ownersOf events)) .fresh
        events := by
  intro always
  have final := (always countingEmbedder restartedRun).finish
  have stored := final ⟨7, some "agent"⟩ ⟨_, List.mem_cons_self, rfl⟩
  have counts := congrArg (Option.map LoraWeights.updateCount) stored
  exact absurd counts (by decide +kernel)

end Lora
end Mnemo
