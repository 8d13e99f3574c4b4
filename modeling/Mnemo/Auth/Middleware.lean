import Mathlib
import Mnemo.Auth.ApiKey
import Mnemo.Lib.StateMachine

/-!
# The authentication middleware under concurrency

Requests, key management and cache eviction run as processes.  A process performs one atomic
action at a time, a single Redis command or one critical section of the cache lock, and the
actions of all processes interleave freely.  Every reading of the clock is part of the event.
-/

namespace Mnemo
namespace Auth

/-- A cached key lookup. -/
structure CachedKey where
  context : CallerContext
  active : Bool
  cachedAt : DateTime
  deriving DecidableEq, Repr

/-- Lifetime of a cache entry in seconds. -/
def keyCacheTtlSecs : Int := 30

/-- Number of cache entries above which the oldest are dropped. -/
def keyCacheMaxEntries : Nat := 10000

/-- The cache of resolved keys, from the hash of the raw key. -/
abbrev KeyCache := AList fun _ : String => CachedKey

/-- Whether a cache entry is younger than the lifetime. -/
def CachedKey.fresh (cached : CachedKey) (now : DateTime) : Bool :=
  decide (numSeconds (now - cached.cachedAt) < keyCacheTtlSecs)

/-- Drop entries beyond their lifetime, and the oldest ones while there are too many. -/
def evictStaleCacheEntries (now : DateTime) (cache : KeyCache) : KeyCache :=
  let kept : KeyCache :=
    { entries := cache.entries.filter fun entry => entry.2.fresh now
      nodupKeys := cache.nodupKeys.sublist List.filter_sublist }
  if keyCacheMaxEntries < kept.entries.length then
    let oldestFirst := kept.entries.mergeSort fun left right =>
      decide (left.2.cachedAt ≤ right.2.cachedAt)
    let surplus := oldestFirst.take (kept.entries.length - keyCacheMaxEntries)
    surplus.foldl (fun cache entry => cache.erase entry.1) kept
  else kept

/-- Configuration of the middleware. -/
structure AuthConfig where
  enabled : Bool
  validKeys : List String
  /-- Whether scoped keys are looked up in a store. -/
  scopedKeys : Bool

/-- What the middleware reads of a request. -/
structure HttpRequest where
  path : String
  authorization : Option String
  xApiKey : Option String

/-- Paths which are served without a key. -/
def exemptPath (path : String) : Bool :=
  path == "/health" || path == "/healthz" || path == "/metrics" ||
    Text.startsWith path "/_/" || path == "/_" || path == "/api/v1/openapi.json" ||
    Text.startsWith path "/swagger-ui"

/-- The raw key which a request presents. -/
def presentedKey (request : HttpRequest) : Option String :=
  match request.authorization.bind fun value => Text.stripStart value "Bearer " with
  | some key => some key
  | none => request.xApiKey

/-- A request that presents a key which has to be looked up. -/
structure ScopedRequest where
  keyHash : String
  /-- Reading of the clock when the request started. -/
  startedAt : DateTime
  /-- The keys whose revocation had returned when the request started. -/
  revokedBefore : List Uuid

/-- How the middleware proceeds with a request before any lookup. -/
inductive Entry where
  | proceed (context : CallerContext)
  | reject
  | lookup (keyHash : String)

/-- The decisions of `AuthMiddleware::call` which need neither cache nor store. -/
def enter (hashApiKey : String → String) (config : AuthConfig) (request : HttpRequest) : Entry :=
  if !config.enabled then .proceed .adminBootstrap
  else if exemptPath request.path then .proceed .anonymous
  else
    match presentedKey request with
    | none => .reject
    | some rawKey =>
        if config.validKeys.contains rawKey then .proceed .adminBootstrap
        else if config.scopedKeys then .lookup (hashApiKey rawKey)
        else .reject

/-- What a rotation does after revoking the old key. -/
structure Replacement where
  caller : CallerContext
  supply : KeySupply

/-- The program counter of a process: the atomic action which it performs next. -/
inductive Process where
  | idle
  /-- Look the hash up in the cache. -/
  | checkCache (request : ScopedRequest)
  /-- `GET api_key_hash`. -/
  | lookupHash (request : ScopedRequest)
  /-- `JSON.GET api_key`, and test whether the record is active. -/
  | lookupKey (request : ScopedRequest) (id : Uuid)
  /-- Insert the active record into the cache. -/
  | fillCache (request : ScopedRequest) (key : ApiKey)
  /-- Write the record back with a new `last_used_at`. -/
  | touch (request : ScopedRequest) (key : ApiKey)
  | authenticated (context : CallerContext)
  | unauthorized
  /-- Read the record of the key to revoke or rotate. -/
  | readRevoked (keyId : Uuid) (replacement : Option Replacement)
  /-- Write the record of the key as revoked. -/
  | writeRevoked (key : ApiKey) (replacement : Option Replacement)
  /-- Remove the hash of the revoked key from the cache. -/
  | evictRevoked (key : ApiKey) (replacement : Option Replacement)
  /-- Store the record of a new key, which replaces another one if rotated. -/
  | saveKey (key : ApiKey) (replaced : Option Uuid)
  /-- Index the new key by its hash. -/
  | saveHash (key : ApiKey) (replaced : Option Uuid)
  | responded (response : Except MnemoError Unit)

/-- A request which passed the middleware with a scoped key. -/
structure Admission where
  keyId : Uuid
  startedAt : DateTime
  revokedBefore : List Uuid
  deriving DecidableEq, Repr

/-- Store, cache and processes, with the history which the properties speak about. -/
structure AuthState where
  /-- Key records by identifier. -/
  keys : Uuid → Option ApiKey
  /-- Key identifiers by the hash of the raw key. -/
  hashIndex : String → Option Uuid
  cache : KeyCache
  processes : Nat → Process
  /-- Requests which a scoped key has authenticated. -/
  admissions : List Admission
  /-- Keys whose record was stored as revoked. -/
  marked : List Uuid
  /-- Keys whose revocation has cleared the cache. -/
  evicted : List Uuid
  /-- Keys whose revocation has returned. -/
  returned : List Uuid

namespace AuthState

/-- No keys, an empty cache and no process. -/
def initial : AuthState :=
  { keys := fun _ => none
    hashIndex := fun _ => none
    cache := ∅
    processes := fun _ => .idle
    admissions := []
    marked := []
    evicted := []
    returned := [] }

/-- Move a process to its next action. -/
def goto (state : AuthState) (process : Nat) (next : Process) : AuthState :=
  { state with processes := Function.update state.processes process next }

/-- Store a key record under its identifier. -/
def putKey (state : AuthState) (key : ApiKey) : AuthState :=
  { state with keys := Function.update state.keys key.id (some key) }

/-- Store the record of a key as revoked. -/
def putRevoked (state : AuthState) (key : ApiKey) : AuthState :=
  { state.putKey key with marked := key.id :: state.marked }

/-- Index a key by its hash. -/
def putHash (state : AuthState) (key : ApiKey) : AuthState :=
  { state with hashIndex := Function.update state.hashIndex key.keyHash (some key.id) }

/-- Insert a resolved key into the cache. -/
def fillCache (state : AuthState) (keyHash : String) (cached : CachedKey) : AuthState :=
  { state with cache := state.cache.insert keyHash cached }

/-- Remove a revoked key from the cache. -/
def clearCache (state : AuthState) (key : ApiKey) : AuthState :=
  { state with
    cache := state.cache.erase key.keyHash
    evicted := key.id :: state.evicted }

/-- The revocation of these keys is about to return. -/
def completeRevocation (state : AuthState) (ids : List Uuid) : AuthState :=
  { state with returned := ids ++ state.returned }

/-- Let a request pass as authenticated by a scoped key. -/
def letPass (state : AuthState) (request : ScopedRequest) (context : CallerContext) : AuthState :=
  { state with
    admissions := state.admissions ++
      [{ keyId := context.keyId
         startedAt := request.startedAt
         revokedBefore := request.revokedBefore }] }

/-- The cache entry which answers a request at an instant. -/
def cacheHit (state : AuthState) (request : ScopedRequest) (now : DateTime) : Option CachedKey :=
  match state.cache.lookup request.keyHash with
  | some cached => if cached.fresh now && cached.active then some cached else none
  | none => none

end AuthState

/-- What happens next: a call arrives, a process performs its action, or the cache is cleaned. -/
inductive Event where
  | request (process : Nat) (request : HttpRequest) (now : DateTime)
  | create (process : Nat) (caller : CallerContext) (request : CreateApiKeyRequest)
      (supply : KeySupply) (now : DateTime)
  | revoke (process : Nat) (caller : CallerContext) (keyId : Uuid)
  | rotate (process : Nat) (caller : CallerContext) (keyId : Uuid) (supply : KeySupply)
  | advance (process : Nat) (now : DateTime)
  | redisError (process : Nat) (message : String)
  | evictStale (now : DateTime)

namespace AuthState

variable (hashApiKey : String → String) (config : AuthConfig)

/-- Begin a process, unless its number is in use. -/
def begin (state : AuthState) (process : Nat) (first : Process) : AuthState :=
  match state.processes process with
  | .idle => state.goto process first
  | _ => state

/-- Perform the next action of a process. -/
def advance (state : AuthState) (process : Nat) (now : DateTime) : AuthState :=
  match state.processes process with
  | .checkCache request =>
      match state.cacheHit request now with
      | some cached =>
          (state.letPass request cached.context).goto process (.authenticated cached.context)
      | none => state.goto process (.lookupHash request)
  | .lookupHash request =>
      match state.hashIndex request.keyHash with
      | some id => state.goto process (.lookupKey request id)
      | none => state.goto process .unauthorized
  | .lookupKey request id =>
      match state.keys id with
      | some key =>
          if key.isActive now then state.goto process (.fillCache request key)
          else state.goto process .unauthorized
      | none => state.goto process .unauthorized
  | .fillCache request key =>
      let cached : CachedKey := { context := .ofKey key, active := true, cachedAt := now }
      (state.fillCache request.keyHash cached).goto process (.touch request key)
  | .touch request key =>
      ((state.putKey { key with lastUsedAt := some now }).letPass request (.ofKey key)).goto
        process (.authenticated (.ofKey key))
  | .readRevoked keyId replacement =>
      match state.keys keyId with
      | some key => state.goto process (.writeRevoked { key with revoked := true } replacement)
      | none => state.goto process (.responded (.error (.notFound "api_key" keyId.toText)))
  | .writeRevoked key replacement =>
      (state.putRevoked key).goto process (.evictRevoked key replacement)
  | .evictRevoked key none =>
      ((state.clearCache key).completeRevocation [key.id]).goto process (.responded (.ok ()))
  | .evictRevoked key (some replacement) =>
      let newKey := rotatedKey hashApiKey replacement.caller key replacement.supply now
      (state.clearCache key).goto process (.saveKey newKey (some key.id))
  | .saveKey key replaced =>
      -- Identifiers are never drawn twice, so one that is in use does not occur here.
      if (state.keys key.id).isSome then state
      else (state.putKey key).goto process (.saveHash key replaced)
  | .saveHash key replaced =>
      ((state.putHash key).completeRevocation replaced.toList).goto process
        (.responded (.ok ()))
  | .idle | .authenticated _ | .unauthorized | .responded _ => state

/-- The pending Redis command of a process fails. -/
def fail (state : AuthState) (process : Nat) (message : String) : AuthState :=
  match state.processes process with
  | .lookupHash _ | .lookupKey _ _ => state.goto process .unauthorized
  | .touch request key =>
      (state.letPass request (.ofKey key)).goto process (.authenticated (.ofKey key))
  | .readRevoked _ _ | .writeRevoked _ _ | .saveKey _ _ | .saveHash _ _ =>
      state.goto process (.responded (.error (.redis message)))
  | _ => state

/-- One step of the whole system. -/
def step (state : AuthState) : Event → AuthState
  | .request process request now =>
      match enter hashApiKey config request with
      | .proceed context => state.begin process (.authenticated context)
      | .reject => state.begin process .unauthorized
      | .lookup keyHash =>
          state.begin process
            (.checkCache { keyHash, startedAt := now, revokedBefore := state.returned })
  | .create process caller request supply now =>
      match checkCreate caller request with
      | .error error => state.begin process (.responded (.error error))
      | .ok () =>
          state.begin process (.saveKey (createdKey hashApiKey caller request supply now) none)
  | .revoke process caller keyId =>
      match caller.requireRole .admin with
      | .error error => state.begin process (.responded (.error error))
      | .ok () => state.begin process (.readRevoked keyId none)
  | .rotate process caller keyId supply =>
      match caller.requireRole .admin with
      | .error error => state.begin process (.responded (.error error))
      | .ok () => state.begin process (.readRevoked keyId (some { caller, supply }))
  | .advance process now => state.advance hashApiKey process now
  | .redisError process message => state.fail process message
  | .evictStale now => { state with cache := evictStaleCacheEntries now state.cache }

/-- No request got through with a key that was revoked before it started or had expired by then,
and no record that was stored as revoked is active again. -/
structure Enforced (state : AuthState) : Prop where
  not_revoked : ∀ admission ∈ state.admissions, admission.keyId ∉ admission.revokedBefore
  not_expired : ∀ admission ∈ state.admissions, ∀ key, state.keys admission.keyId = some key →
    key.expiredAt admission.startedAt = false
  stays_revoked : ∀ id ∈ state.marked, ∀ key, state.keys id = some key → key.revoked = true

/-- The condition under which an event cannot defeat a revocation or an expiry: the cache does not
answer for a key which had expired when the request started; the clock is not set back between the
start of a request and the test of its key; a request does not fill the cache after a revocation
of its key has cleared it; and it does not write back a record that has been revoked since. -/
def Undisturbed (state : AuthState) : Event → Prop
  | .advance process now =>
      match state.processes process with
      | .checkCache request =>
          ∀ cached ∈ state.cacheHit request now, ∀ key ∈ state.keys cached.context.keyId,
            key.expiredAt request.startedAt = false
      | .lookupKey request _ => request.startedAt ≤ now
      | .fillCache _ key => key.id ∉ state.evicted
      | .touch _ key => ∀ stored ∈ state.keys key.id, stored.revoked = false
      | _ => True
  | _ => True

instance (state : AuthState) (event : Event) : Decidable (state.Undisturbed event) := by
  unfold Undisturbed
  split
  · split <;> infer_instance
  · infer_instance

end AuthState
end Auth
end Mnemo
