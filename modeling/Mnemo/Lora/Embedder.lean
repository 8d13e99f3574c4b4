import Mathlib.Data.Finset.Insert
import Mnemo.Core.Basic
import Mnemo.Lib.StateMachine
import Mnemo.Lib.WriteBack

/-!
# Adapters of embeddings

Every pair of a user and an agent has an adapter, which feedback moves step by step.  Adapters are
kept in memory, and stored whenever they have moved.
-/

namespace Mnemo
namespace Lora

/-! ## Weights -/

/-- A user, and an agent if the adapter belongs to one. -/
structure Owner where
  userId : Uuid
  agentId : Option String
  deriving DecidableEq, Repr

/-- The key of an adapter, in memory and in the store: the user and a slot. -/
abbrev AdapterKey := Uuid × String

/-- The key of an adapter; the adapter without an agent has a slot of its own name. -/
def Owner.cacheKey (owner : Owner) : AdapterKey :=
  (owner.userId, owner.agentId.getD "__global__")

/-- The weights of an adapter. -/
structure LoraWeights where
  userId : Uuid
  agentId : Option String
  aFlat : List ℚ
  bFlat : List ℚ
  scale : ℚ
  dims : Nat
  rank : Nat
  updateCount : Nat
  lastUpdated : Int
  deriving DecidableEq

/-- The pair to which weights belong. -/
def LoraWeights.owner (weights : LoraWeights) : Owner :=
  { userId := weights.userId, agentId := weights.agentId }

/-- The arithmetic of adapters: the first down-projection, the adapted vector, and the up-projection
after one step. -/
structure Arithmetic where
  kaiming : Uuid → Option String → Nat → List ℚ
  adapt : (aFlat bFlat base : List ℚ) → (scale : ℚ) → (dims rank : Nat) → List ℚ
  learn : (aFlat bFlat : List ℚ) → (scale : ℚ) → (dims rank : Nat) →
    (query item : List ℚ) → (rating : ℚ) → List ℚ

/-- A relevance rating of an item for a query. -/
structure Feedback where
  query : List ℚ
  item : List ℚ
  rating : ℚ
  now : Int

section Weights

variable (arithmetic : Arithmetic)

/-- Weights that have learned nothing. -/
def LoraWeights.initialized (owner : Owner) (dims : Nat) (now : Int) : LoraWeights :=
  { userId := owner.userId, agentId := owner.agentId
    aFlat := arithmetic.kaiming owner.userId owner.agentId dims
    bFlat := List.replicate (dims * 8) 0, scale := 1 / 8, dims, rank := 8, updateCount := 0
    lastUpdated := now }

/-- Weights after a step. -/
def LoraWeights.learned (feedback : Feedback) (weights : LoraWeights) : LoraWeights :=
  { weights with
    bFlat := arithmetic.learn weights.aFlat weights.bFlat weights.scale weights.dims weights.rank
      feedback.query feedback.item feedback.rating
    updateCount := weights.updateCount + 1
    lastUpdated := feedback.now }

/-- A step, unless the rating is neutral. -/
def LoraWeights.updateWithRating (feedback : Feedback) (weights : LoraWeights) : LoraWeights :=
  if feedback.rating = 0 then weights else weights.learned arithmetic feedback

/-- A step for an item that was accessed. -/
def LoraWeights.updateFromAccess (query item : List ℚ) (now : Int) (weights : LoraWeights) :
    LoraWeights :=
  weights.updateWithRating arithmetic { query, item, rating := 1, now }

/-- A vector as an adapter turns it. -/
def LoraWeights.apply (weights : LoraWeights) (base : List ℚ) : List ℚ :=
  arithmetic.adapt weights.aFlat weights.bFlat base weights.scale weights.dims weights.rank

end Weights

/-! ## The embedder and its store -/

/-- Adapters in memory and in the store, and the slots of the users and the users of the agents. -/
structure LoraServer where
  adapters : WriteBack.State AdapterKey LoraWeights
  slots : Uuid → Finset String
  users : String → Finset Uuid

/-- The configuration of an embedder. -/
structure LoraAdaptedEmbedder where
  arithmetic : Arithmetic
  dims : Nat
  enabled : Bool

namespace LoraServer

/-- Nothing in memory, and nothing stored. -/
def fresh : LoraServer :=
  { adapters := { cache := fun _ => none, store := fun _ => none }
    slots := fun _ => ∅, users := fun _ => ∅ }

/-- The stored weights of a pair. -/
def getLoraWeights (owner : Owner) (server : LoraServer) : Option LoraWeights :=
  server.adapters.store owner.cacheKey

/-- Store weights and list their slot. -/
def saveLoraWeights (weights : LoraWeights) (server : LoraServer) : LoraServer :=
  { adapters := server.adapters.save weights.owner.cacheKey weights
    slots := Function.update server.slots weights.userId
      (insert weights.owner.cacheKey.2 (server.slots weights.userId))
    users := match weights.agentId with
      | some agentId => Function.update server.users agentId
          (insert weights.userId (server.users agentId))
      | none => server.users }

/-- Delete the weights of a pair and unlist its slot. -/
def deleteLoraWeights (owner : Owner) (server : LoraServer) : LoraServer :=
  { adapters := server.adapters.delete owner.cacheKey
    slots := Function.update server.slots owner.userId
      ((server.slots owner.userId).erase owner.cacheKey.2)
    users := match owner.agentId with
      | some agentId => Function.update server.users agentId
          ((server.users agentId).erase owner.userId)
      | none => server.users }

/-- Forget the adapter of a pair. -/
def evictCache (owner : Owner) (server : LoraServer) : LoraServer :=
  { server with adapters := server.adapters.evict owner.cacheKey }

end LoraServer

namespace LoraAdaptedEmbedder

variable (embedder : LoraAdaptedEmbedder)

/-- The adapter of a pair: that in memory, else the stored one, else a new one. -/
def getAdapter (owner : Owner) (readFails : Bool) (now : Int) (server : LoraServer) :
    LoraWeights × LoraServer :=
  match server.adapters.cache owner.cacheKey with
  | some adapter => (adapter, server)
  | none =>
      let stored := if readFails then none else server.getLoraWeights owner
      let adapter := stored.getD (.initialized embedder.arithmetic owner embedder.dims now)
      (adapter, { server with adapters := server.adapters.keep owner.cacheKey adapter })

/-- The adapted vector. -/
def adaptVec (base : List ℚ) (owner : Owner) (readFails : Bool) (now : Int)
    (server : LoraServer) : List ℚ × LoraServer :=
  if embedder.enabled = false then (base, server)
  else
    let (adapter, next) := embedder.getAdapter owner readFails now server
    (adapter.apply embedder.arithmetic base, next)

/-- The adapted embedding, if there is an embedding. -/
def embedForAgent (base : Option (List ℚ)) (owner : Owner) (readFails : Bool) (now : Int)
    (server : LoraServer) : Option (List ℚ) × LoraServer :=
  match base with
  | none => (none, server)
  | some base =>
      let (adapted, next) := embedder.adaptVec base owner readFails now server
      (some adapted, next)

/-- Revise the adapter in memory, or a new one, and store it. -/
def revise (change : LoraWeights → LoraWeights) (owner : Owner) (now : Int)
    (server : LoraServer) : LoraServer :=
  let adapter := (server.adapters.cache owner.cacheKey).getD
    (.initialized embedder.arithmetic owner embedder.dims now)
  let updated := change adapter
  { server with adapters := server.adapters.keep owner.cacheKey updated }.saveLoraWeights updated

/-- Learn from an access. -/
def updateFromAccess (query item : List ℚ) (owner : Owner) (now : Int) (server : LoraServer) :
    LoraServer :=
  if embedder.enabled = false then server
  else embedder.revise (·.updateFromAccess embedder.arithmetic query item now) owner now server

/-- Learn from a rating. -/
def updateWithRating (feedback : Feedback) (owner : Owner) (server : LoraServer) : LoraServer :=
  if embedder.enabled = false ∨ feedback.rating = 0 then server
  else embedder.revise (·.updateWithRating embedder.arithmetic feedback) owner feedback.now server

end LoraAdaptedEmbedder

end Lora
end Mnemo
