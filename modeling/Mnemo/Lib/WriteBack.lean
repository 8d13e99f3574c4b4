import Mathlib.Logic.Function.Basic

/-!
# A store behind a cache

Values are read from a cache, else from a store, else made afresh; a revised value is written to
both.  The cache can be lost, and the store is kept.
-/

namespace WriteBack

/-- What is cached and what is stored under each key. -/
structure State (Key Value : Type) where
  cache : Key → Option Value
  store : Key → Option Value

variable {Key Value : Type} [DecidableEq Key]

/-- Keep a value in the cache. -/
def State.keep (key : Key) (value : Value) (state : State Key Value) : State Key Value :=
  { state with cache := Function.update state.cache key (some value) }

/-- Write a value to the store. -/
def State.save (key : Key) (value : Value) (state : State Key Value) : State Key Value :=
  { state with store := Function.update state.store key (some value) }

/-- Remove what is stored under a key. -/
def State.delete (key : Key) (state : State Key Value) : State Key Value :=
  { state with store := Function.update state.store key none }

/-- Remove what is cached under a key. -/
def State.evict (key : Key) (state : State Key Value) : State Key Value :=
  { state with cache := Function.update state.cache key none }

/-- Lose the cache. -/
def State.restart (state : State Key Value) : State Key Value :=
  { state with cache := fun _ => none }

/-- Whatever is cached is what is stored, or was made afresh. -/
def Faithful (fresh : Key → Value → Prop) (state : State Key Value) : Prop :=
  ∀ key value, state.cache key = some value → state.store key = some value ∨ fresh key value

variable {fresh : Key → Value → Prop} {state : State Key Value} {key : Key} {value : Value}

theorem Faithful.keep (faithful : Faithful fresh state)
    (known : state.store key = some value ∨ fresh key value) :
    Faithful fresh (state.keep key value) := by
  intro other held cached
  by_cases same : other = key
  · subst other
    simp only [State.keep, Function.update_self, Option.some.injEq] at cached
    exact cached ▸ known
  · simp only [State.keep, Function.update_of_ne same] at cached
    exact faithful other held cached

theorem Faithful.keep_save (faithful : Faithful fresh state) :
    Faithful fresh ((state.keep key value).save key value) := by
  intro other held cached
  by_cases same : other = key
  · subst other
    simp only [State.keep, State.save, Function.update_self] at cached ⊢
    exact .inl cached
  · simp only [State.keep, State.save, Function.update_of_ne same] at cached ⊢
    exact faithful other held cached

theorem Faithful.delete_evict (faithful : Faithful fresh state) :
    Faithful fresh ((state.delete key).evict key) := by
  intro other held cached
  by_cases same : other = key
  · subst other
    simp [State.evict] at cached
  · simp only [State.delete, State.evict, Function.update_of_ne same] at cached ⊢
    exact faithful other held cached

omit [DecidableEq Key] in
theorem Faithful.restart (state : State Key Value) : Faithful fresh state.restart :=
  fun _ _ cached => nomatch cached

end WriteBack
