import Mathlib
import Mnemo.Core.Basic
import Mnemo.Core.Text

/-!
# Scoped API keys

A key grants a role, optionally restricted to some users, some agents and a ceiling of
classification.  A request runs under the caller context of the key that authenticated it.
-/

namespace Mnemo
namespace Auth

/-- Role of a key. -/
inductive ApiKeyRole where
  | read
  | write
  | admin
  deriving DecidableEq, Repr

/-- The discriminant of a role. -/
def ApiKeyRole.toNat : ApiKeyRole → Nat
  | .read => 0
  | .write => 1
  | .admin => 2

/-- Whether a role meets or exceeds the required one. -/
def ApiKeyRole.hasAtLeast (role required : ApiKeyRole) : Bool :=
  decide (required.toNat ≤ role.toNat)

/-- Restrictions of a key beyond its role. -/
structure ApiKeyScope where
  /-- Restrict to these users; `none` allows all. -/
  allowedUserIds : Option (List Uuid)
  /-- Restrict to these agents; `none` allows all. -/
  allowedAgentIds : Option (List String)
  /-- Highest classification the key can access; `none` stands for `restricted`. -/
  maxClassification : Option Classification
  deriving DecidableEq, Repr

namespace ApiKeyScope

def allowsUser (scope : ApiKeyScope) (userId : Uuid) : Bool :=
  match scope.allowedUserIds with
  | none => true
  | some ids => ids.contains userId

def allowsAgent (scope : ApiKeyScope) (agentId : String) : Bool :=
  match scope.allowedAgentIds with
  | none => true
  | some ids => ids.contains agentId

def effectiveMaxClassification (scope : ApiKeyScope) : Classification :=
  scope.maxClassification.getD .restricted

end ApiKeyScope

/-- A stored key; of the raw key only the hash is kept. -/
structure ApiKey where
  id : Uuid
  name : String
  keyHash : String
  keyPrefix : String
  role : ApiKeyRole
  scope : Option ApiKeyScope
  createdBy : Option String
  createdAt : DateTime
  lastUsedAt : Option DateTime
  expiresAt : Option DateTime
  revoked : Bool
  deriving DecidableEq, Repr

/-- Whether the key has reached its expiry at an instant. -/
def ApiKey.expiredAt (key : ApiKey) (now : DateTime) : Bool :=
  match key.expiresAt with
  | none => false
  | some expiry => decide (expiry ≤ now)

/-- Whether the key is valid for authentication at the instant read from the clock. -/
def ApiKey.isActive (key : ApiKey) (now : DateTime) : Bool :=
  !key.revoked && !key.expiredAt now

/-- What an authenticated request knows of its key. -/
structure CallerContext where
  keyId : Uuid
  keyName : String
  role : ApiKeyRole
  scope : Option ApiKeyScope
  deriving DecidableEq, Repr

/-- Sentinel identifier of the bootstrap administrator. -/
def bootstrapSentinelUuid : Uuid := 0x00000000000040008000000000000001

/-- Sentinel identifier of the anonymous caller. -/
def anonymousSentinelUuid : Uuid := 0x00000000000040008000000000000002

namespace CallerContext

/-- The implicit administrator of bootstrap keys and of disabled authentication. -/
def adminBootstrap : CallerContext :=
  { keyId := bootstrapSentinelUuid, keyName := "bootstrap", role := .admin, scope := none }

/-- The read-only context of exempt paths. -/
def anonymous : CallerContext :=
  { keyId := anonymousSentinelUuid, keyName := "anonymous", role := .read, scope := none }

/-- The context of a request which a stored key authenticates. -/
def ofKey (key : ApiKey) : CallerContext :=
  { keyId := key.id, keyName := key.name, role := key.role, scope := key.scope }

def requireRole (caller : CallerContext) (required : ApiKeyRole) : Except MnemoError Unit :=
  if caller.role.hasAtLeast required then .ok () else .error .forbidden

def requireUserAccess (caller : CallerContext) (userId : Uuid) : Except MnemoError Unit :=
  match caller.scope with
  | some scope => if scope.allowsUser userId then .ok () else .error .forbidden
  | none => .ok ()

def requireAgentAccess (caller : CallerContext) (agentId : String) : Except MnemoError Unit :=
  match caller.scope with
  | some scope => if scope.allowsAgent agentId then .ok () else .error .forbidden
  | none => .ok ()

/-- The highest classification the caller may see. -/
def maxClassification (caller : CallerContext) : Classification :=
  match caller.scope with
  | some scope => scope.effectiveMaxClassification
  | none => .restricted

/-- The caller may see the data of this user. -/
def canAccessUser (caller : CallerContext) (userId : Uuid) : Bool :=
  match caller.scope with
  | some scope => scope.allowsUser userId
  | none => true

/-- The caller may see this agent. -/
def canAccessAgent (caller : CallerContext) (agentId : String) : Bool :=
  match caller.scope with
  | some scope => scope.allowsAgent agentId
  | none => true

theorem requireRole_admin_ok {caller : CallerContext} :
    caller.requireRole .admin = .ok () ↔ caller.role = .admin := by
  unfold requireRole
  cases caller.role <;> simp [ApiKeyRole.hasAtLeast, ApiKeyRole.toNat]

end CallerContext

/-! ## Key management -/

/-- Body of a request to create a key. -/
structure CreateApiKeyRequest where
  name : String
  role : ApiKeyRole
  scope : Option ApiKeyScope
  expiresAt : Option DateTime
  deriving Repr

/-- The identifier and the raw key drawn for a new key. -/
structure KeySupply where
  id : Uuid
  rawKey : String
  deriving Repr

/-- Short form of a raw key for display; raw keys consist of ASCII characters. -/
def keyPrefix (raw : String) : String :=
  if 12 < Text.byteLength raw then String.ofList (raw.toList.take 12) ++ "..." else raw

section Handlers

variable (hashApiKey : String → String)

/-- The record which `create_api_key` stores. -/
def createdKey (caller : CallerContext) (request : CreateApiKeyRequest) (supply : KeySupply)
    (now : DateTime) : ApiKey :=
  { id := supply.id
    name := Text.trim request.name
    keyHash := hashApiKey supply.rawKey
    keyPrefix := keyPrefix supply.rawKey
    role := request.role
    scope := request.scope
    createdBy := some caller.keyName
    createdAt := now
    lastUsedAt := none
    expiresAt := request.expiresAt
    revoked := false }

/-- The record with which `rotate_api_key` replaces an old one. -/
def rotatedKey (caller : CallerContext) (old : ApiKey) (supply : KeySupply) (now : DateTime) :
    ApiKey :=
  { id := supply.id
    name := old.name
    keyHash := hashApiKey supply.rawKey
    keyPrefix := keyPrefix supply.rawKey
    role := old.role
    scope := old.scope
    createdBy := some caller.keyName
    createdAt := now
    lastUsedAt := none
    expiresAt := old.expiresAt
    revoked := false }

/-- The checks which `create_api_key` makes before it draws a key. -/
def checkCreate (caller : CallerContext) (request : CreateApiKeyRequest) :
    Except MnemoError Unit := do
  caller.requireRole .admin
  let name := Text.trim request.name
  if name.isEmpty || 128 < Text.byteLength name then
    throw (.validation "name must be 1-128 characters")

end Handlers
end Auth
end Mnemo
