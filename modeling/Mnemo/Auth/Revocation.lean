import Mnemo.Auth.Middleware

/-!
# Revocation and expiry of scoped keys

The record of a key keeps its hash and its expiry for ever, so what a process has read of them
stays true.  As long as no event of a run disturbs it, the cache holds no key whose revocation has
cleared it, and records stored as revoked stay revoked.
-/

namespace Mnemo
namespace Auth

theorem lookup_of_lookup_foldl_erase {entries : List (Sigma fun _ : String => CachedKey)}
    {cache : KeyCache} {keyHash : String} {cached : CachedKey}
    (found : (entries.foldl (fun cache entry => cache.erase entry.1) cache).lookup keyHash =
      some cached) :
    cache.lookup keyHash = some cached := by
  induction entries generalizing cache with
  | nil => exact found
  | cons entry entries ih =>
    have found := ih found
    rcases eq_or_ne keyHash entry.1 with same | different
    · rw [same, AList.lookup_erase] at found
      cases found
    · rwa [AList.lookup_erase_ne different] at found

theorem lookup_of_lookup_evict {now : DateTime} {cache : KeyCache} {keyHash : String}
    {cached : CachedKey}
    (found : (evictStaleCacheEntries now cache).lookup keyHash = some cached) :
    cache.lookup keyHash = some cached := by
  have kept_found : ({ entries := cache.entries.filter fun entry => entry.2.fresh now
                       nodupKeys := cache.nodupKeys.sublist List.filter_sublist } :
      KeyCache).lookup keyHash = some cached := by
    dsimp only [evictStaleCacheEntries] at found
    split at found
    · exact lookup_of_lookup_foldl_erase found
    · exact found
  have kept_entry := AList.mem_lookup_iff.mp (Option.mem_def.mpr kept_found)
  exact AList.mem_lookup_iff.mpr (List.mem_of_mem_filter kept_entry)

namespace AuthState

/-- The stored record of a key, with the hash and the expiry that never change. -/
def Records (state : AuthState) (id : Uuid) (keyHash : String) (expiresAt : Option DateTime) :
    Prop :=
  ∃ stored, state.keys id = some stored ∧ stored.keyHash = keyHash ∧ stored.expiresAt = expiresAt

/-- What a process knows at its program counter. -/
def Knows (state : AuthState) : Process → Prop
  | .checkCache request | .lookupHash request =>
      ∀ id ∈ request.revokedBefore, id ∈ state.returned
  | .lookupKey request id =>
      (∀ id ∈ request.revokedBefore, id ∈ state.returned) ∧
        ∃ expiresAt, state.Records id request.keyHash expiresAt
  | .fillCache request key | .touch request key =>
      state.Records key.id request.keyHash key.expiresAt ∧ key.keyHash = request.keyHash ∧
        key.revoked = false ∧ key.id ∉ request.revokedBefore ∧
        key.expiredAt request.startedAt = false
  | .writeRevoked key _ =>
      state.Records key.id key.keyHash key.expiresAt ∧ key.revoked = true
  | .evictRevoked key _ =>
      state.Records key.id key.keyHash key.expiresAt ∧ key.id ∈ state.marked
  | .saveKey _ replaced => ∀ id ∈ replaced, id ∈ state.evicted
  | .saveHash key replaced =>
      state.Records key.id key.keyHash key.expiresAt ∧ ∀ id ∈ replaced, id ∈ state.evicted
  | .readRevoked _ _ | .idle | .authenticated _ | .unauthorized | .responded _ => True

/-- The invariant of undisturbed runs. -/
structure Sound (state : AuthState) : Prop where
  keys_id : ∀ id key, state.keys id = some key → key.id = id
  indexed : ∀ keyHash id, state.hashIndex keyHash = some id →
    ∃ expiresAt, state.Records id keyHash expiresAt
  cached : ∀ keyHash cached, state.cache.lookup keyHash = some cached →
    (∃ expiresAt, state.Records cached.context.keyId keyHash expiresAt) ∧
      cached.context.keyId ∉ state.evicted
  knows : ∀ process, state.Knows (state.processes process)
  marked : ∀ id ∈ state.marked, ∃ key, state.keys id = some key ∧ key.revoked = true
  evicted : ∀ id ∈ state.evicted, id ∈ state.marked
  returned : ∀ id ∈ state.returned, id ∈ state.evicted
  admitted : ∀ admission ∈ state.admissions, admission.keyId ∉ admission.revokedBefore ∧
    ∃ key, state.keys admission.keyId = some key ∧ key.expiredAt admission.startedAt = false

theorem Sound.enforced {state : AuthState} (sound : state.Sound) : state.Enforced where
  not_revoked admission member := (sound.admitted admission member).1
  not_expired admission member key stored := by
    obtain ⟨_, known, known_stored, alive⟩ := sound.admitted admission member
    rw [stored] at known_stored
    rwa [Option.some.inj known_stored]
  stays_revoked id member key stored := by
    obtain ⟨known, known_stored, revoked⟩ := sound.marked id member
    rw [stored] at known_stored
    rwa [Option.some.inj known_stored]

theorem sound_initial : initial.Sound where
  keys_id _ _ stored := by simp [initial] at stored
  indexed _ _ stored := by simp [initial] at stored
  cached _ _ stored := by simp [initial] at stored
  knows _ := trivial
  marked _ member := by simp [initial] at member
  evicted _ member := by simp [initial] at member
  returned _ member := by simp [initial] at member
  admitted _ member := by simp [initial] at member

/-! ## What later states keep -/

/-- Records keep their hash and expiry, and the history only grows. -/
structure Extends (state next : AuthState) : Prop where
  records : ∀ {id keyHash expiresAt}, state.Records id keyHash expiresAt →
    next.Records id keyHash expiresAt
  marked : state.marked ⊆ next.marked
  evicted : state.evicted ⊆ next.evicted
  returned : state.returned ⊆ next.returned

theorem Knows.mono {state next : AuthState} (later : state.Extends next) {process : Process}
    (knows : state.Knows process) : next.Knows process := by
  cases process with
  | checkCache request => exact fun id member => later.returned (knows id member)
  | lookupHash request => exact fun id member => later.returned (knows id member)
  | lookupKey request id =>
    exact ⟨fun id member => later.returned (knows.1 id member), knows.2.imp fun _ => later.records⟩
  | fillCache request key => exact ⟨later.records knows.1, knows.2⟩
  | touch request key => exact ⟨later.records knows.1, knows.2⟩
  | writeRevoked key replacement => exact ⟨later.records knows.1, knows.2⟩
  | evictRevoked key replacement => exact ⟨later.records knows.1, later.marked knows.2⟩
  | saveKey key replaced => exact fun id member => later.evicted (knows id member)
  | saveHash key replaced =>
    exact ⟨later.records knows.1, fun id member => later.evicted (knows.2 id member)⟩
  | _ => trivial

theorem records_of_keys {state : AuthState} {id : Uuid} {key : ApiKey}
    (stored : state.keys id = some key) : state.Records id key.keyHash key.expiresAt :=
  ⟨key, stored, rfl, rfl⟩

theorem records_putKey {state : AuthState} {key : ApiKey}
    (agrees : state.keys key.id = none ∨ state.Records key.id key.keyHash key.expiresAt)
    {id : Uuid} {keyHash : String} {expiresAt : Option DateTime}
    (known : state.Records id keyHash expiresAt) :
    (state.putKey key).Records id keyHash expiresAt := by
  obtain ⟨stored, found, hash_eq, expiry_eq⟩ := known
  rcases eq_or_ne id key.id with rfl | different
  · rcases agrees with absent | ⟨same, same_found, same_hash, same_expiry⟩
    · rw [absent] at found
      cases found
    · rw [same_found] at found
      obtain rfl := Option.some.inj found
      exact ⟨key, by simp [putKey], same_hash.symm.trans hash_eq,
        same_expiry.symm.trans expiry_eq⟩
  · exact ⟨stored, by simp [putKey, different, found], hash_eq, expiry_eq⟩

/-! ## The operations on the state -/

section Operations

variable {state : AuthState} (sound : state.Sound)
include sound

theorem Sound.goto {process : Nat} {next : Process} (knows : state.Knows next) :
    (state.goto process next).Sound := by
  have later : state.Extends (state.goto process next) :=
    { records := id
      marked := List.Subset.refl _
      evicted := List.Subset.refl _
      returned := List.Subset.refl _ }
  refine { sound with knows := ?_ }
  intro other
  refine Knows.mono later ?_
  rcases eq_or_ne other process with rfl | different
  · simpa [AuthState.goto] using knows
  · simpa [AuthState.goto, different] using sound.knows other

theorem Sound.putKey {key : ApiKey}
    (agrees : state.keys key.id = none ∨ state.Records key.id key.keyHash key.expiresAt)
    (not_marked : key.id ∉ state.marked ∨ key.revoked = true) :
    (state.putKey key).Sound := by
  have later : state.Extends (state.putKey key) :=
    { records := records_putKey agrees
      marked := List.Subset.refl _
      evicted := List.Subset.refl _
      returned := List.Subset.refl _ }
  have stored_cases : ∀ id other, (state.putKey key).keys id = some other →
      (id = key.id ∧ other = key) ∨ state.keys id = some other := by
    intro id other stored
    rcases eq_or_ne id key.id with rfl | different
    · exact Or.inl ⟨rfl, by simpa [AuthState.putKey] using stored.symm⟩
    · exact Or.inr (by simpa [AuthState.putKey, different] using stored)
  constructor
  · intro id other stored
    rcases stored_cases id other stored with ⟨rfl, rfl⟩ | before
    · rfl
    · exact sound.keys_id id other before
  · intro keyHash id found
    exact (sound.indexed keyHash id found).imp fun _ => later.records
  · intro keyHash cached found
    obtain ⟨known, current⟩ := sound.cached keyHash cached found
    exact ⟨known.imp fun _ => later.records, current⟩
  · intro process
    exact (sound.knows process).mono later
  · intro id member
    rcases eq_or_ne id key.id with rfl | different
    · exact ⟨key, by simp [AuthState.putKey], not_marked.resolve_left (not_not_intro member)⟩
    · obtain ⟨stored, found, revoked⟩ := sound.marked id member
      exact ⟨stored, by simpa [AuthState.putKey, different] using found, revoked⟩
  · exact sound.evicted
  · exact sound.returned
  · intro admission member
    obtain ⟨not_before, stored, found, alive⟩ := sound.admitted admission member
    obtain ⟨later_stored, later_found, _, expiry_eq⟩ := later.records (records_of_keys found)
    refine ⟨not_before, later_stored, later_found, ?_⟩
    rwa [ApiKey.expiredAt, expiry_eq]

theorem Sound.putRevoked {key : ApiKey}
    (known : state.Records key.id key.keyHash key.expiresAt) (revoked : key.revoked = true) :
    (state.putRevoked key).Sound := by
  have stored := sound.putKey (Or.inr known) (Or.inr revoked)
  have later : (state.putKey key).Extends (state.putRevoked key) :=
    { records := id
      marked := List.subset_cons_self _ _
      evicted := List.Subset.refl _
      returned := List.Subset.refl _ }
  refine { stored with knows := ?_, marked := ?_, evicted := ?_ }
  · intro process
    exact (stored.knows process).mono later
  · intro id member
    rcases List.mem_cons.mp member with rfl | before
    · exact ⟨key, by simp [AuthState.putRevoked, AuthState.putKey], revoked⟩
    · exact stored.marked id before
  · intro id member
    exact List.mem_cons_of_mem _ (stored.evicted id member)

theorem Sound.putHash {key : ApiKey}
    (known : state.Records key.id key.keyHash key.expiresAt) : (state.putHash key).Sound :=
  { sound with
    indexed := by
      intro keyHash id found
      rcases eq_or_ne keyHash key.keyHash with rfl | different
      · have id_eq : id = key.id := by simpa [AuthState.putHash] using found.symm
        exact ⟨key.expiresAt, id_eq ▸ known⟩
      · exact sound.indexed keyHash id (by simpa [AuthState.putHash, different] using found) }

theorem Sound.fillCache {keyHash : String} {cached : CachedKey} {expiresAt : Option DateTime}
    (known : state.Records cached.context.keyId keyHash expiresAt)
    (current : cached.context.keyId ∉ state.evicted) :
    (state.fillCache keyHash cached).Sound :=
  { sound with
    cached := by
      intro otherHash other found
      rcases eq_or_ne otherHash keyHash with rfl | different
      · have same : other = cached := by simpa [AuthState.fillCache] using found.symm
        subst other
        exact ⟨⟨expiresAt, known⟩, current⟩
      · refine sound.cached otherHash other ?_
        rwa [AuthState.fillCache, AList.lookup_insert_ne different] at found }

theorem Sound.clearCache {key : ApiKey}
    (known : state.Records key.id key.keyHash key.expiresAt) (marked : key.id ∈ state.marked) :
    (state.clearCache key).Sound := by
  have later : state.Extends (state.clearCache key) :=
    { records := id
      marked := List.Subset.refl _
      evicted := List.subset_cons_self _ _
      returned := List.Subset.refl _ }
  refine { sound with cached := ?_, knows := ?_, evicted := ?_, returned := ?_ }
  · intro keyHash cached found
    rcases eq_or_ne keyHash key.keyHash with rfl | different
    · rw [AuthState.clearCache, AList.lookup_erase] at found
      cases found
    · rw [AuthState.clearCache, AList.lookup_erase_ne different] at found
      obtain ⟨⟨expiresAt, stored, stored_found, hash_eq, expiry_eq⟩, current⟩ :=
        sound.cached keyHash cached found
      refine ⟨⟨expiresAt, stored, stored_found, hash_eq, expiry_eq⟩, ?_⟩
      intro member
      rcases List.mem_cons.mp member with same | before
      · obtain ⟨mine, mine_found, mine_hash, _⟩ := known
        rw [← same, stored_found] at mine_found
        exact different (hash_eq.symm.trans ((Option.some.inj mine_found) ▸ mine_hash))
      · exact current before
  · intro process
    exact (sound.knows process).mono later
  · intro id member
    rcases List.mem_cons.mp member with rfl | before
    · exact marked
    · exact sound.evicted id before
  · intro id member
    exact List.mem_cons_of_mem _ (sound.returned id member)

theorem Sound.completeRevocation {ids : List Uuid} (evicted : ∀ id ∈ ids, id ∈ state.evicted) :
    (state.completeRevocation ids).Sound := by
  have later : state.Extends (state.completeRevocation ids) :=
    { records := id
      marked := List.Subset.refl _
      evicted := List.Subset.refl _
      returned := List.subset_append_right _ _ }
  refine { sound with knows := ?_, returned := ?_ }
  · intro process
    exact (sound.knows process).mono later
  · intro id member
    exact (List.mem_append.mp member).elim (evicted id) (sound.returned id)

theorem Sound.letPass {request : ScopedRequest} {context : CallerContext}
    (not_before : context.keyId ∉ request.revokedBefore)
    (alive : ∃ key, state.keys context.keyId = some key ∧
      key.expiredAt request.startedAt = false) :
    (state.letPass request context).Sound :=
  { sound with
    admitted := by
      intro admission member
      rcases List.mem_append.mp member with before | new
      · exact sound.admitted admission before
      · obtain rfl := List.mem_singleton.mp new
        exact ⟨not_before, alive⟩ }

theorem Sound.evictStale (now : DateTime) :
    { state with cache := evictStaleCacheEntries now state.cache }.Sound :=
  { sound with
    cached := by
      intro keyHash cached found
      exact sound.cached keyHash cached (lookup_of_lookup_evict found) }

theorem Sound.begin {process : Nat} {first : Process} (knows : state.Knows first) :
    (state.begin process first).Sound := by
  unfold AuthState.begin
  split
  · exact sound.goto knows
  · exact sound

end Operations

/-! ## Steps and runs -/

theorem cacheHit_lookup {state : AuthState} {request : ScopedRequest} {now : DateTime}
    {cached : CachedKey} (hit : state.cacheHit request now = some cached) :
    state.cache.lookup request.keyHash = some cached := by
  unfold cacheHit at hit
  split at hit
  · rename_i entry found
    split at hit
    · rw [found, hit]
    · cases hit
  · cases hit

theorem expiredAt_mono {key : ApiKey} {earlier later : DateTime} (order : earlier ≤ later)
    (alive : key.expiredAt later = false) : key.expiredAt earlier = false := by
  unfold ApiKey.expiredAt at alive ⊢
  generalize key.expiresAt = expiresAt at alive ⊢
  cases expiresAt with
  | none => rfl
  | some expiry =>
    simp only [decide_eq_false_iff_not] at alive ⊢
    exact fun reached => alive (reached.trans order)

/-- The next action of a process keeps the state sound, unless it disturbs a revocation. -/
theorem Sound.advance {state : AuthState} (sound : state.Sound) (hashApiKey : String → String)
    (process : Nat) (now : DateTime) (undisturbed : state.Undisturbed (.advance process now)) :
    (state.advance hashApiKey process now).Sound := by
  have knows := sound.knows process
  unfold AuthState.advance
  simp only [Undisturbed] at undisturbed
  cases action : state.processes process with
  | checkCache request =>
    rw [action] at knows undisturbed
    dsimp only
    cases hit : state.cacheHit request now with
    | none => exact sound.goto knows
    | some cached =>
      obtain ⟨⟨_, key, stored, _, _⟩, current⟩ :=
        sound.cached _ cached (cacheHit_lookup hit)
      have not_before : cached.context.keyId ∉ request.revokedBefore :=
        fun member => current (sound.returned _ (knows _ member))
      have alive := undisturbed cached hit key stored
      exact (sound.letPass not_before ⟨key, stored, alive⟩).goto trivial
  | lookupHash request =>
    rw [action] at knows
    dsimp only
    cases found : state.hashIndex request.keyHash with
    | none => exact sound.goto trivial
    | some id => exact sound.goto ⟨knows, sound.indexed _ id found⟩
  | lookupKey request id =>
    rw [action] at knows undisturbed
    dsimp only
    cases stored : state.keys id with
    | none => exact sound.goto trivial
    | some key =>
      dsimp only
      split
      · rename_i active
        obtain ⟨revoked, expired⟩ : key.revoked = false ∧ key.expiredAt now = false := by
          simpa [ApiKey.isActive] using active
        obtain ⟨returned, expiresAt, same, same_stored, hash_eq, _⟩ := knows
        rw [stored] at same_stored
        obtain rfl := Option.some.inj same_stored
        obtain rfl := sound.keys_id id key stored
        have not_before : key.id ∉ request.revokedBefore := by
          intro member
          obtain ⟨marked, marked_stored, marked_revoked⟩ :=
            sound.marked _ (sound.evicted _ (sound.returned _ (returned _ member)))
          rw [stored] at marked_stored
          obtain rfl := Option.some.inj marked_stored
          rw [revoked] at marked_revoked
          cases marked_revoked
        exact sound.goto ⟨⟨key, stored, hash_eq, rfl⟩, hash_eq, revoked, not_before,
          expiredAt_mono undisturbed expired⟩
      · exact sound.goto trivial
  | fillCache request key =>
    rw [action] at knows undisturbed
    have filled := @Sound.fillCache state sound request.keyHash
      { context := .ofKey key, active := true, cachedAt := now } key.expiresAt knows.1 undisturbed
    exact filled.goto knows
  | touch request key =>
    rw [action] at knows undisturbed
    obtain ⟨known, hash_eq, revoked, not_before, alive⟩ := knows
    obtain ⟨stored, found, stored_hash, stored_expiry⟩ := known
    have not_marked : key.id ∉ state.marked := by
      intro member
      obtain ⟨marked, marked_found, marked_revoked⟩ := sound.marked _ member
      rw [undisturbed marked marked_found] at marked_revoked
      cases marked_revoked
    have written : (state.putKey { key with lastUsedAt := some now }).Sound :=
      sound.putKey (Or.inr ⟨stored, found, stored_hash.trans hash_eq.symm, stored_expiry⟩)
        (Or.inl not_marked)
    refine (written.letPass not_before ⟨{ key with lastUsedAt := some now }, ?_, alive⟩).goto
      trivial
    simp [AuthState.putKey, CallerContext.ofKey]
  | readRevoked keyId replacement =>
    dsimp only
    cases stored : state.keys keyId with
    | none => exact sound.goto trivial
    | some key =>
      obtain rfl := sound.keys_id keyId key stored
      exact sound.goto ⟨⟨key, stored, rfl, rfl⟩, rfl⟩
  | writeRevoked key replacement =>
    rw [action] at knows
    obtain ⟨known, revoked⟩ := knows
    refine (sound.putRevoked known revoked).goto ⟨?_, List.mem_cons_self⟩
    exact records_putKey (Or.inr known) known
  | evictRevoked key replacement =>
    rw [action] at knows
    have cleared := sound.clearCache knows.1 knows.2
    have evicted : key.id ∈ (state.clearCache key).evicted := List.mem_cons_self
    cases replacement with
    | none =>
      refine (cleared.completeRevocation ?_).goto trivial
      simpa using evicted
    | some replacement =>
      refine cleared.goto ?_
      simpa [Knows] using evicted
  | saveKey key replaced =>
    rw [action] at knows
    dsimp only
    split
    · exact sound
    · rename_i unused
      have absent : state.keys key.id = none := by simpa using unused
      have not_marked : key.id ∉ state.marked := by
        intro member
        obtain ⟨marked, found, _⟩ := sound.marked _ member
        rw [absent] at found
        cases found
      refine (sound.putKey (Or.inl absent) (Or.inl not_marked)).goto ⟨?_, knows⟩
      exact records_of_keys (by simp [AuthState.putKey])
  | saveHash key replaced =>
    rw [action] at knows
    obtain ⟨known, evicted⟩ := knows
    refine ((sound.putHash known).completeRevocation ?_).goto trivial
    exact fun id member => evicted id (Option.mem_toList.mp member)
  | idle => exact sound
  | authenticated context => exact sound
  | unauthorized => exact sound
  | responded response => exact sound

theorem Sound.fail {state : AuthState} (sound : state.Sound) (process : Nat)
    (message : String) : (state.fail process message).Sound := by
  have knows := sound.knows process
  unfold AuthState.fail
  cases action : state.processes process with
  | lookupHash request => exact sound.goto trivial
  | lookupKey request id => exact sound.goto trivial
  | touch request key =>
    rw [action] at knows
    obtain ⟨⟨stored, found, _, expiry_eq⟩, _, _, not_before, alive⟩ := knows
    refine (sound.letPass not_before ⟨stored, found, ?_⟩).goto trivial
    rwa [ApiKey.expiredAt, expiry_eq]
  | readRevoked keyId replacement => exact sound.goto trivial
  | writeRevoked key replacement => exact sound.goto trivial
  | saveKey key replaced => exact sound.goto trivial
  | saveHash key replaced => exact sound.goto trivial
  | _ => exact sound

theorem Sound.step {state : AuthState} (sound : state.Sound) (hashApiKey : String → String)
    (config : AuthConfig) (event : Event) (undisturbed : state.Undisturbed event) :
    (state.step hashApiKey config event).Sound := by
  cases event with
  | request process request now =>
    unfold AuthState.step
    dsimp only
    split
    · exact sound.begin trivial
    · exact sound.begin trivial
    · exact sound.begin fun id member => member
  | create process caller request supply now =>
    unfold AuthState.step
    dsimp only
    split
    · exact sound.begin trivial
    · exact sound.begin (by simp [Knows])
  | revoke process caller keyId =>
    unfold AuthState.step
    dsimp only
    split <;> exact sound.begin trivial
  | rotate process caller keyId supply =>
    unfold AuthState.step
    dsimp only
    split <;> exact sound.begin trivial
  | advance process now => exact sound.advance hashApiKey process now undisturbed
  | redisError process message => exact sound.fail process message
  | evictStale now => exact sound.evictStale now

/-- Revocation and expiry are enforced in every state of an undisturbed run. -/
theorem enforced_of_undisturbed (hashApiKey : String → String) (config : AuthConfig)
    (events : List Event)
    (undisturbed : StateMachine.Guarded (step hashApiKey config) Undisturbed initial events) :
    StateMachine.Always (step hashApiKey config) Enforced initial events := by
  have sound : StateMachine.Always (step hashApiKey config) Sound initial events := by
    apply undisturbed.always _ sound_initial
    intro state event sound undisturbed
    exact sound.step hashApiKey config event undisturbed
  exact sound.mono fun _ => Sound.enforced

/-- The server with scoped keys and no bootstrap key. -/
def scopedConfig : AuthConfig := { enabled := true, validKeys := [], scopedKeys := true }

/-- A request that presents the raw key `k` as a bearer token. -/
def bearerRequest : HttpRequest :=
  { path := "/api/v1/users", authorization := some "Bearer k", xApiKey := none }

/-- Create the key `k`. -/
def creation : List Event :=
  [.create 0 .adminBootstrap
      { name := "service", role := .read, scope := none, expiresAt := none }
      { id := 7, rawKey := "k" } 0,
    .advance 0 0, .advance 0 0]

/-- A request passes with the key, the key is revoked, and a later request does not pass. -/
def orderlyRevocation : List Event :=
  creation ++ [.request 1 bearerRequest 1, .advance 1 1, .advance 1 1, .advance 1 1, .advance 1 1,
    .advance 1 1, .revoke 2 .adminBootstrap 7, .advance 2 2, .advance 2 2, .advance 2 2,
    .request 3 bearerRequest 3, .advance 3 3, .advance 3 3, .advance 3 3]

theorem enforced_orderlyRevocation :
    StateMachine.Always (step id scopedConfig) Enforced initial orderlyRevocation :=
  enforced_of_undisturbed id scopedConfig orderlyRevocation (by decide)

/-- A request reads the record of the key before a revocation marks it, and caches it and writes it
back after the revocation has returned; then another request starts. -/
def staleWriteBack : List Event :=
  creation ++ [.request 1 bearerRequest 1, .advance 1 1, .advance 1 1, .advance 1 1,
    .revoke 2 .adminBootstrap 7, .advance 2 2, .advance 2 2, .advance 2 2,
    .advance 1 3, .advance 1 3, .request 3 bearerRequest 4, .advance 3 4]

/-- A request in flight makes a revoked key active again, and later requests pass with it. -/
theorem revoked_key_returns :
    ¬ ∀ events, (StateMachine.finish (step id scopedConfig) initial events).Enforced := by
  intro enforced
  have passes : { keyId := 7, startedAt := 4, revokedBefore := [7] } ∈
      (StateMachine.finish (step id scopedConfig) initial staleWriteBack).admissions := by
    decide
  exact (enforced staleWriteBack).not_revoked _ passes List.mem_cons_self

end AuthState
end Auth
end Mnemo
