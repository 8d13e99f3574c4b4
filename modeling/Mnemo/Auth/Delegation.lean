import Mathlib
import Mnemo.Auth.ApiKey
import Mnemo.Lib.StateMachine

/-!
# Chains of key management calls

Creating and rotating keys takes an administrator.  Starting from one key, a chain consists of
calls each of which is authenticated by a key that the chain has produced.  Roles cannot grow along
a chain; the scope of a created key is whatever the request asks for.
-/

namespace Mnemo
namespace Auth

/-- The stored key records. -/
abbrev KeyRecords := Uuid → Option ApiKey

section Handlers

variable (hashApiKey : String → String)

/-- Create a key with the role and the scope of the request. -/
def createApiKey (caller : CallerContext) (request : CreateApiKeyRequest) (supply : KeySupply)
    (now : DateTime) (keys : KeyRecords) : Except MnemoError (ApiKey × KeyRecords) :=
  match checkCreate caller request with
  | .error error => .error error
  | .ok () =>
      let key := createdKey hashApiKey caller request supply now
      .ok (key, Function.update keys key.id (some key))

/-- Revoke a key and create a replacement with the same name, role and scope. -/
def rotateApiKey (caller : CallerContext) (keyId : Uuid) (supply : KeySupply) (now : DateTime)
    (keys : KeyRecords) : Except MnemoError (ApiKey × KeyRecords) :=
  match caller.requireRole .admin with
  | .error error => .error error
  | .ok () =>
      match keys keyId with
      | none => .error (.notFound "api_key" keyId.toText)
      | some old =>
          let revoked := { old with revoked := true }
          let key := rotatedKey hashApiKey caller revoked supply now
          .ok (key, Function.update (Function.update keys keyId (some revoked)) key.id (some key))

end Handlers

/-- A call of key management. -/
inductive KeyCall where
  | create (request : CreateApiKeyRequest)
  | rotate (keyId : Uuid)

/-- A call together with the key that authenticates it, the identifiers drawn for the new key, and
the time. -/
structure ChainCall where
  authenticator : Uuid
  call : KeyCall
  supply : KeySupply
  now : DateTime

/-- The stored keys, and those which a chain has produced, its first key included. -/
structure ChainState where
  keys : KeyRecords
  produced : List Uuid

namespace ChainState

variable (hashApiKey : String → String)

/-- A chain starts with a stored key among arbitrary others. -/
def start (keys : KeyRecords) (first : ApiKey) : ChainState :=
  { keys := Function.update keys first.id (some first), produced := [first.id] }

/-- The caller context of a call: its key belongs to the chain and is active. -/
def authenticate (state : ChainState) (call : ChainCall) : Option CallerContext :=
  match state.keys call.authenticator with
  | some key =>
      if call.authenticator ∈ state.produced ∧ key.isActive call.now then some (.ofKey key)
      else none
  | none => none

/-- Run the handler of a call. -/
def handle (state : ChainState) (caller : CallerContext) (call : ChainCall) :
    Except MnemoError (ApiKey × KeyRecords) :=
  match call.call with
  | .create request => createApiKey hashApiKey caller request call.supply call.now state.keys
  | .rotate keyId => rotateApiKey hashApiKey caller keyId call.supply call.now state.keys

/-- One call of a chain.  Identifiers are never drawn twice, so a call whose new identifier is in
use does not occur; a refused call changes nothing. -/
def step (state : ChainState) (call : ChainCall) : ChainState :=
  if (state.keys call.supply.id).isSome then state
  else
    match state.authenticate call with
    | none => state
    | some caller =>
        match state.handle hashApiKey caller call with
        | .error _ => state
        | .ok (key, keys) => { keys, produced := key.id :: state.produced }

end ChainState

/-- What a key permits is contained in what another key permits. -/
structure Contained (key whole : ApiKey) : Prop where
  role : key.role.toNat ≤ whole.role.toNat
  users : ∀ userId, (CallerContext.ofKey key).canAccessUser userId = true →
    (CallerContext.ofKey whole).canAccessUser userId = true
  agents : ∀ agentId, (CallerContext.ofKey key).canAccessAgent agentId = true →
    (CallerContext.ofKey whole).canAccessAgent agentId = true
  ceiling : (CallerContext.ofKey key).maxClassification ≤
    (CallerContext.ofKey whole).maxClassification

theorem Contained.of_eq {key other whole : ApiKey} (contained : Contained other whole)
    (role_eq : key.role = other.role) (scope_eq : key.scope = other.scope) :
    Contained key whole where
  role := role_eq ▸ contained.role
  users := by
    simpa [CallerContext.canAccessUser, CallerContext.ofKey, scope_eq] using contained.users
  agents := by
    simpa [CallerContext.canAccessAgent, CallerContext.ofKey, scope_eq] using contained.agents
  ceiling := by
    simpa [CallerContext.maxClassification, CallerContext.ofKey, scope_eq] using
      contained.ceiling

theorem Contained.refl (key : ApiKey) : Contained key key :=
  ⟨le_rfl, fun _ allowed => allowed, fun _ allowed => allowed, le_rfl⟩

theorem Contained.trans {key middle whole : ApiKey} (first : Contained key middle)
    (second : Contained middle whole) : Contained key whole where
  role := first.role.trans second.role
  users userId allowed := second.users userId (first.users userId allowed)
  agents agentId allowed := second.agents agentId (first.agents agentId allowed)
  ceiling := first.ceiling.trans second.ceiling

theorem checkCreate_ok {caller : CallerContext} {request : CreateApiKeyRequest}
    (passed : checkCreate caller request = .ok ()) : caller.role = .admin := by
  rw [← CallerContext.requireRole_admin_ok]
  unfold checkCreate at passed
  cases role : caller.requireRole .admin with
  | error error => rw [role] at passed; cases passed
  | ok _ => rfl

theorem createApiKey_ok {hashApiKey : String → String} {caller : CallerContext}
    {request : CreateApiKeyRequest} {supply : KeySupply} {now : DateTime}
    {keys next : KeyRecords} {key : ApiKey}
    (created : createApiKey hashApiKey caller request supply now keys = .ok (key, next)) :
    caller.role = .admin ∧ key.id = supply.id ∧ key.role = request.role ∧
      key.scope = request.scope ∧ next = Function.update keys key.id (some key) := by
  unfold createApiKey at created
  split at created
  · cases created
  · rename_i passed
    obtain ⟨rfl, rfl⟩ := Prod.mk.inj (Except.ok.inj created)
    exact ⟨checkCreate_ok passed, rfl, rfl, rfl, rfl⟩

theorem rotateApiKey_ok {hashApiKey : String → String} {caller : CallerContext} {keyId : Uuid}
    {supply : KeySupply} {now : DateTime} {keys next : KeyRecords} {key : ApiKey}
    (rotated : rotateApiKey hashApiKey caller keyId supply now keys = .ok (key, next)) :
    caller.role = .admin ∧ key.id = supply.id ∧ ∃ old, keys keyId = some old ∧
      key.role = old.role ∧ key.scope = old.scope ∧
      next = Function.update
        (Function.update keys keyId (some { old with revoked := true })) key.id (some key) := by
  unfold rotateApiKey at rotated
  split at rotated
  · cases rotated
  · rename_i passed
    split at rotated
    · cases rotated
    · rename_i old stored
      obtain ⟨rfl, rfl⟩ := Prod.mk.inj (Except.ok.inj rotated)
      exact ⟨CallerContext.requireRole_admin_ok.mp passed, rfl, old, stored, rfl, rfl, rfl⟩

namespace ChainState

/-- Every key of the chain is stored with an admitted role and scope. -/
def Bounded (admitted : ApiKeyRole → Option ApiKeyScope → Prop) (state : ChainState) : Prop :=
  ∀ id ∈ state.produced, ∃ key, state.keys id = some key ∧ admitted key.role key.scope

/-- The key which a call adds to the chain is modelled on this role and scope. -/
def Grants (state : ChainState) (call : ChainCall) (role : ApiKeyRole)
    (scope : Option ApiKeyScope) : Prop :=
  match call.call with
  | .create request => role = request.role ∧ scope = request.scope
  | .rotate keyId => ∃ old, state.keys keyId = some old ∧ role = old.role ∧ scope = old.scope

theorem authenticate_some {state : ChainState} {call : ChainCall} {caller : CallerContext}
    (authenticated : state.authenticate call = some caller) :
    call.authenticator ∈ state.produced ∧
      ∃ key, state.keys call.authenticator = some key ∧ caller = .ofKey key := by
  unfold authenticate at authenticated
  split at authenticated
  · rename_i key stored
    split at authenticated
    · rename_i allowed
      exact ⟨allowed.1, key, stored, (Option.some.inj authenticated).symm⟩
    · cases authenticated
  · cases authenticated

theorem handle_ok {hashApiKey : String → String} {state : ChainState} {caller : CallerContext}
    {call : ChainCall} {key : ApiKey} {next : KeyRecords}
    (unused : state.keys call.supply.id = none)
    (handled : state.handle hashApiKey caller call = .ok (key, next)) :
    caller.role = .admin ∧ state.Grants call key.role key.scope ∧ state.keys key.id = none ∧
      next key.id = some key ∧
      ∀ id stored, state.keys id = some stored →
        ∃ kept, next id = some kept ∧ kept.role = stored.role ∧ kept.scope = stored.scope := by
  unfold handle at handled
  unfold Grants
  have differs : key.id = call.supply.id → ∀ id stored, state.keys id = some stored →
      id ≠ key.id := by
    rintro id_eq id stored found rfl
    rw [id_eq, unused] at found
    cases found
  cases kind : call.call with
  | create request =>
    rw [kind] at handled
    obtain ⟨is_admin, id_eq, role_eq, scope_eq, rfl⟩ := createApiKey_ok handled
    refine ⟨is_admin, ⟨role_eq, scope_eq⟩, id_eq ▸ unused, Function.update_self .., ?_⟩
    intro id stored found
    exact ⟨stored, by simpa [differs id_eq id stored found] using found, rfl, rfl⟩
  | rotate keyId =>
    rw [kind] at handled
    obtain ⟨is_admin, id_eq, old, old_stored, role_eq, scope_eq, rfl⟩ :=
      rotateApiKey_ok handled
    refine ⟨is_admin, ⟨old, old_stored, role_eq, scope_eq⟩, id_eq ▸ unused,
      Function.update_self .., ?_⟩
    intro id stored found
    rw [Function.update_of_ne (differs id_eq id stored found)]
    rcases eq_or_ne id keyId with rfl | different
    · rw [old_stored] at found
      obtain rfl := Option.some.inj found
      exact ⟨_, Function.update_self .., rfl, rfl⟩
    · exact ⟨stored, by simpa [different] using found, rfl, rfl⟩

theorem step_cases (hashApiKey : String → String) (state : ChainState) (call : ChainCall) :
    state.step hashApiKey call = state ∨
      ∃ authenticator key next,
        state.keys call.authenticator = some authenticator ∧
        call.authenticator ∈ state.produced ∧
        authenticator.role = .admin ∧
        state.Grants call key.role key.scope ∧
        next key.id = some key ∧
        (∀ id stored, state.keys id = some stored →
          ∃ kept, next id = some kept ∧ kept.role = stored.role ∧ kept.scope = stored.scope) ∧
        state.step hashApiKey call = { keys := next, produced := key.id :: state.produced } := by
  unfold step
  split
  · exact Or.inl rfl
  · rename_i unused
    have unused : state.keys call.supply.id = none := by simpa using unused
    cases authenticated : state.authenticate call with
    | none => exact Or.inl rfl
    | some caller =>
      dsimp only
      cases handled : state.handle hashApiKey caller call with
      | error error => exact Or.inl rfl
      | ok result =>
        obtain ⟨member, authenticator, stored, rfl⟩ := authenticate_some authenticated
        obtain ⟨is_admin, grants, _, new_stored, kept⟩ := handle_ok unused handled
        exact Or.inr ⟨authenticator, result.1, result.2, stored, member, is_admin, grants,
          new_stored, kept, rfl⟩

theorem Bounded.step {admitted : ApiKeyRole → Option ApiKeyScope → Prop} {state : ChainState}
    (bounded : state.Bounded admitted) (hashApiKey : String → String) (call : ChainCall)
    (within : ∀ authenticator, state.keys call.authenticator = some authenticator →
      call.authenticator ∈ state.produced → authenticator.role = .admin →
      ∀ role scope, state.Grants call role scope → admitted role scope) :
    (state.step hashApiKey call).Bounded admitted := by
  rcases step_cases hashApiKey state call with
    unchanged | ⟨authenticator, key, next, stored, member, is_admin, grants, new_stored, kept,
      next_eq⟩
  · rwa [unchanged]
  · rw [next_eq]
    intro id produced
    rcases List.mem_cons.mp produced with rfl | before
    · exact ⟨key, new_stored, within authenticator stored member is_admin _ _ grants⟩
    · obtain ⟨old, old_stored, old_admitted⟩ := bounded id before
      obtain ⟨later, later_stored, role_eq, scope_eq⟩ := kept id old old_stored
      exact ⟨later, later_stored, role_eq ▸ scope_eq ▸ old_admitted⟩

theorem bounded_start {admitted : ApiKeyRole → Option ApiKeyScope → Prop} (keys : KeyRecords)
    {first : ApiKey} (first_admitted : admitted first.role first.scope) :
    (start keys first).Bounded admitted := by
  intro id member
  obtain rfl := List.mem_singleton.mp member
  exact ⟨first, Function.update_self .., first_admitted⟩

/-- The request of a creation asks for no more than its authenticating key has, and a rotation
replaces a key of the chain. -/
def Delegates (state : ChainState) (call : ChainCall) : Prop :=
  match call.call with
  | .create request => ∀ authenticator ∈ state.keys call.authenticator,
      Contained { authenticator with role := request.role, scope := request.scope } authenticator
  | .rotate keyId => keyId ∈ state.produced

theorem roles_bounded (hashApiKey : String → String) (keys : KeyRecords) (first : ApiKey)
    (calls : List ChainCall) :
    (StateMachine.finish (step hashApiKey) (start keys first) calls).Bounded
      fun role _ => role.toNat ≤ first.role.toNat := by
  apply StateMachine.finish_induction
  · intro state call bounded
    refine bounded.step hashApiKey call ?_
    intro authenticator stored member is_admin role _ _
    obtain ⟨key, key_stored, key_bounded⟩ := bounded _ member
    rw [stored] at key_stored
    obtain rfl := Option.some.inj key_stored
    rw [is_admin] at key_bounded
    exact le_trans (by cases role <;> decide) key_bounded
  · exact bounded_start keys le_rfl

theorem contained_of_delegates (hashApiKey : String → String) (keys : KeyRecords)
    (first : ApiKey) (calls : List ChainCall)
    (delegates : StateMachine.Guarded (step hashApiKey) Delegates (start keys first) calls) :
    (StateMachine.finish (step hashApiKey) (start keys first) calls).Bounded
      fun role scope => Contained { first with role, scope } first := by
  have always : StateMachine.Always (step hashApiKey)
      (Bounded fun role scope => Contained { first with role, scope } first)
      (start keys first) calls := by
    apply delegates.always _ (bounded_start keys (Contained.refl first))
    intro state call bounded delegates
    refine bounded.step hashApiKey call ?_
    intro authenticator stored member _ role scope grants
    obtain ⟨key, key_stored, key_contained⟩ := bounded _ member
    rw [stored] at key_stored
    obtain rfl := Option.some.inj key_stored
    unfold Grants at grants
    unfold Delegates at delegates
    cases kind : call.call with
    | create request =>
      rw [kind] at grants delegates
      obtain ⟨rfl, rfl⟩ := grants
      have within : Contained authenticator first := key_contained.of_eq rfl rfl
      exact ((delegates authenticator stored).trans within).of_eq rfl rfl
    | rotate keyId =>
      rw [kind] at grants delegates
      obtain ⟨old, old_stored, rfl, rfl⟩ := grants
      obtain ⟨same, same_stored, same_contained⟩ := bounded _ delegates
      rw [old_stored] at same_stored
      obtain rfl := Option.some.inj same_stored
      exact same_contained
  exact always.finish

/-- Along every chain roles stay within the role of the first key; a new key has the role and scope
which its creation states or its rotation copies, whatever the scope of its authenticating key; so
all privileges stay within those of the first key when every call delegates. -/
theorem chain_privileges (hashApiKey : String → String) (keys : KeyRecords) (first : ApiKey)
    (calls : List ChainCall) :
    let reached := StateMachine.finish (step hashApiKey) (start keys first) calls
    (reached.Bounded fun role _ => role.toNat ≤ first.role.toNat) ∧
      (∀ call, reached.step hashApiKey call = reached ∨
        ∃ key, (reached.step hashApiKey call).produced = key.id :: reached.produced ∧
          (reached.step hashApiKey call).keys key.id = some key ∧
          reached.Grants call key.role key.scope) ∧
      (StateMachine.Guarded (step hashApiKey) Delegates (start keys first) calls →
        reached.Bounded fun role scope => Contained { first with role, scope } first) := by
  refine ⟨roles_bounded hashApiKey keys first calls, ?_,
    contained_of_delegates hashApiKey keys first calls⟩
  intro call
  rcases step_cases hashApiKey _ call with
    unchanged | ⟨_, key, next, _, _, _, grants, new_stored, _, next_eq⟩
  · exact Or.inl unchanged
  · exact Or.inr ⟨key, by rw [next_eq], by rw [next_eq]; exact new_stored, grants⟩

/-- An administrator restricted to one user. -/
def scopedAdmin : ApiKey :=
  { id := 1
    name := "tenant-admin"
    keyHash := "hash"
    keyPrefix := "mnk_"
    role := .admin
    scope := some { allowedUserIds := some [10], allowedAgentIds := none,
                    maxClassification := some .internal }
    createdBy := none
    createdAt := 0
    lastUsedAt := none
    expiresAt := none
    revoked := false }

/-- Create a key with this role and scope, authenticated by the scoped administrator. -/
def creationBy (role : ApiKeyRole) (scope : Option ApiKeyScope) : ChainCall :=
  { authenticator := 1
    call := .create { name := "derived", role, scope, expiresAt := none }
    supply := { id := 2, rawKey := "k" }
    now := 1 }

/-- The scoped administrator delegates its own scope. -/
theorem chain_privileges_scopedAdmin :
    (StateMachine.finish (step id) (start (fun _ => none) scopedAdmin)
      [creationBy .read scopedAdmin.scope]).Bounded
        fun role scope => Contained { scopedAdmin with role, scope } scopedAdmin := by
  refine (chain_privileges id (fun _ => none) scopedAdmin
    [creationBy .read scopedAdmin.scope]).2.2 ⟨?_, trivial⟩
  intro authenticator stored
  obtain rfl : scopedAdmin = authenticator := Option.some.inj stored
  exact ⟨by decide, fun _ allowed => allowed, fun _ allowed => allowed, le_rfl⟩

/-- An administrator restricted to one user can create a key for all users. -/
theorem scope_escapes :
    ¬ ∀ (keys : KeyRecords) (first : ApiKey) (calls : List ChainCall),
      (StateMachine.finish (step id) (start keys first) calls).Bounded
        fun role scope => Contained { first with role, scope } first := by
  intro contained
  obtain ⟨key, stored, within⟩ :=
    contained (fun _ => none) scopedAdmin [creationBy .admin none] 2 (by decide)
  have scope_eq : key.scope = none := by
    have stored_scope : ((StateMachine.finish (step id) (start (fun _ => none) scopedAdmin)
        [creationBy .admin none]).keys 2).map ApiKey.scope = some none := by decide
    rw [stored] at stored_scope
    exact Option.some.inj stored_scope
  have allowed := within.users 11 (by rw [scope_eq]; rfl)
  exact absurd allowed (by decide)

end ChainState
end Auth
end Mnemo
