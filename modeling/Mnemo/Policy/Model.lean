import Mnemo.Auth.ApiKey
import Mnemo.Lib.Crew

/-!
# User policies

A policy says how long the episodes of a user are kept, to which hosts webhooks may go, and which
contract and retrieval policy apply when a request names none.  The policies are in the memory of
the server, behind a lock.
-/

namespace Mnemo
namespace Policy

open Auth (ApiKeyRole CallerContext)

/-- What an answer from memory may contain. -/
inductive MemoryContract where
  | default
  | supportSafe
  | currentStrict
  | historicalStrict
  deriving DecidableEq, Repr

/-- The policy of a user. -/
structure UserPolicyRecord where
  userId : Uuid
  userIdentifier : String
  retentionDaysMessage : Nat
  retentionDaysText : Nat
  retentionDaysJson : Nat
  webhookDomainAllowlist : List String
  defaultMemoryContract : String
  defaultRetrievalPolicy : String
  createdAt : DateTime
  updatedAt : DateTime
  deriving DecidableEq, Repr

/-- The policy of a user for whom none was set. -/
def defaultUserPolicy (userId : Uuid) (userIdentifier : String) (now : DateTime) :
    UserPolicyRecord :=
  { userId, userIdentifier
    retentionDaysMessage := 3650
    retentionDaysText := 3650
    retentionDaysJson := 3650
    webhookDomainAllowlist := []
    defaultMemoryContract := "default"
    defaultRetrievalPolicy := "balanced"
    createdAt := now
    updatedAt := now }

/-- Body of a request to change a policy. -/
structure UpsertUserPolicyRequest where
  retentionDaysMessage : Option Nat
  retentionDaysText : Option Nat
  retentionDaysJson : Option Nat
  webhookDomainAllowlist : Option (List String)
  defaultMemoryContract : Option String
  defaultRetrievalPolicy : Option String
  deriving DecidableEq, Repr

/-- The hosts of an allowlist in lower case; empty ones are left out. -/
def normalizeDomainAllowlist (values : List String) : List String :=
  (values.map fun value => Text.toAsciiLowercase (Text.trim value)).filter fun value =>
    !value.isEmpty

/-- A number of days between one and ten years. -/
def clampDays (days : Nat) : Nat := min (max days 1) 3650

/-- A text that is given and not blank replaces the one that was there. -/
def replaceText (old : String) : Option String → String
  | some text => if (Text.trim text).isEmpty then old else Text.trim text
  | none => old

/-- Change the fields of a policy that are given. -/
def applyUserPolicyPatch (policy : UserPolicyRecord) (req : UpsertUserPolicyRequest)
    (updatedAt : DateTime) : UserPolicyRecord :=
  { policy with
    retentionDaysMessage := (req.retentionDaysMessage.map clampDays).getD
      policy.retentionDaysMessage
    retentionDaysText := (req.retentionDaysText.map clampDays).getD policy.retentionDaysText
    retentionDaysJson := (req.retentionDaysJson.map clampDays).getD policy.retentionDaysJson
    webhookDomainAllowlist := (req.webhookDomainAllowlist.map normalizeDomainAllowlist).getD
      policy.webhookDomainAllowlist
    defaultMemoryContract := replaceText policy.defaultMemoryContract req.defaultMemoryContract
    defaultRetrievalPolicy := replaceText policy.defaultRetrievalPolicy req.defaultRetrievalPolicy
    updatedAt }

/-! ## Contracts -/

/-- The contract that a text names; other texts name the default one. -/
def parseMemoryContractDefault (value : String) : MemoryContract :=
  match Text.toAsciiLowercase (Text.trim value) with
  | "support_safe" => .supportSafe
  | "current_strict" => .currentStrict
  | "historical_strict" => .historicalStrict
  | _ => .default

/-- Higher is stricter. -/
def contractStrictness : MemoryContract → Nat
  | .default => 0
  | .supportSafe => 1
  | .currentStrict => 2
  | .historicalStrict => 3

/-- The second contract is less strict than the first. -/
def isContractDowngrade (source target : MemoryContract) : Bool :=
  decide (contractStrictness target < contractStrictness source)

/-- The name of a contract in messages. -/
def contractName : MemoryContract → String
  | .default => "Default"
  | .supportSafe => "SupportSafe"
  | .currentStrict => "CurrentStrict"
  | .historicalStrict => "HistoricalStrict"

/-- How strict the contract is that a text names. -/
def strictness (text : String) : Nat := contractStrictness (parseMemoryContractDefault text)

/-! ## The table of policies -/

/-- The policies of the users that have one. -/
abbrev Policies := Uuid → Option UserPolicyRecord

/-- What a request does while it holds the lock. -/
inductive PolicyCommand where
  /-- Read the policy of a user, who is given the default one if there is none. -/
  | getOrCreate (userId : Uuid) (userIdentifier : String)
  /-- Change the policy of a user, who is given the default one first if there is none. -/
  | patch (userId : Uuid) (userIdentifier : String) (req : UpsertUserPolicyRequest)
  deriving DecidableEq

/-- The readings of the clock while the lock is held. -/
structure PolicyInput where
  createdAt : DateTime
  now : DateTime
  deriving DecidableEq

/-- The policy of a user, the default one if there is none. -/
def policyOf (policies : Policies) (userId : Uuid) (userIdentifier : String) (now : DateTime) :
    UserPolicyRecord :=
  (policies userId).getD (defaultUserPolicy userId userIdentifier now)

/-- What a command makes of the table. -/
def policyAfter (policies : Policies) (input : PolicyInput) : PolicyCommand → UserPolicyRecord
  | .getOrCreate userId userIdentifier =>
      policyOf policies userId userIdentifier input.createdAt
  | .patch userId userIdentifier req =>
      applyUserPolicyPatch (policyOf policies userId userIdentifier input.createdAt) req input.now

/-- The user whose policy a command concerns. -/
def PolicyCommand.user : PolicyCommand → Uuid
  | .getOrCreate userId _ | .patch userId _ _ => userId

/-- Perform a command; its reply is the policy that is then in the table. -/
def execPolicy (command : PolicyCommand) (input : PolicyInput) (policies : Policies) :
    Except MnemoError UserPolicyRecord × Policies :=
  let policy := policyAfter policies input command
  (.ok policy, Function.update policies command.user (some policy))

/-- A program over the table of policies. -/
abbrev PolicyProgram := Program PolicyCommand (fun _ => UserPolicyRecord) MnemoError

/-- The policy of a user, who is given the default one if there is none. -/
def getOrCreateUserPolicy (userId : Uuid) (userIdentifier : String) :
    PolicyProgram UserPolicyRecord :=
  Program.call (.getOrCreate userId userIdentifier)

/-- Only administrators make the default contract less strict. -/
def mayChangeContract (caller : CallerContext) (current new : MemoryContract) :
    Except MnemoError Unit :=
  if isContractDowngrade current new then
    (caller.requireRole .admin).mapError fun _ =>
      .validation ("downgrading memory contract from " ++ contractName current ++ " to " ++
        contractName new ++ " requires Admin role")
  else
    .ok ()

/-- Check a contract that is given against the one of the policy. -/
def checkContract (caller : CallerContext) (userId : Uuid) (userIdentifier : String) :
    Option String → PolicyProgram Unit
  | some text => do
      let current ← getOrCreateUserPolicy userId userIdentifier
      .ofExcept (mayChangeContract caller
        (parseMemoryContractDefault current.defaultMemoryContract)
        (parseMemoryContractDefault text))
  | none => return ()

/-- Change the policy of a user. -/
def upsertUserPolicy (caller : CallerContext) (userId : Uuid) (userIdentifier : String)
    (req : UpsertUserPolicyRequest) : PolicyProgram UserPolicyRecord := do
  checkContract caller userId userIdentifier req.defaultMemoryContract
  Program.call (.patch userId userIdentifier req)

/-! ## How strict a policy is -/

theorem trim_trim (text : String) : Text.trim (Text.trim text) = Text.trim text := by
  have again (items : List Char) :
      let kept := (items.dropWhile Text.isWhitespace).rdropWhile Text.isWhitespace
      (kept.dropWhile Text.isWhitespace).rdropWhile Text.isWhitespace = kept := by
    intro kept
    have starts : kept.dropWhile Text.isWhitespace = kept := by
      rw [List.dropWhile_eq_self_iff]
      intro nonempty
      have start := List.rdropWhile_prefix Text.isWhitespace
        (items.dropWhile Text.isWhitespace)
      rw [start.getElem nonempty]
      exact List.dropWhile_get_zero_not _ items (lt_of_lt_of_le nonempty start.length_le)
    rw [starts]
    exact List.rdropWhile_idempotent _ _
  unfold Text.trim
  rw [String.toList_ofList]
  exact congrArg String.ofList (again text.toList)

theorem strictness_trim (text : String) : strictness (Text.trim text) = strictness text := by
  unfold strictness parseMemoryContractDefault
  rw [trim_trim]

/-- How strict the default contract of a user is. -/
def strictnessOf (policies : Policies) (userId : Uuid) : Nat :=
  match policies userId with
  | some policy => strictness policy.defaultMemoryContract
  | none => 0

/-- How strict the contract is that a request asks for; a blank text asks for none. -/
def requestedStrictness (req : UpsertUserPolicyRequest) : Option Nat :=
  match req.defaultMemoryContract with
  | some text => if (Text.trim text).isEmpty then none else some (strictness text)
  | none => none

theorem strictness_default : strictness "default" = 0 := by decide

theorem strictness_policyOf (policies : Policies) (userId : Uuid) (userIdentifier : String)
    (now : DateTime) : strictness (policyOf policies userId userIdentifier now).defaultMemoryContract =
      strictnessOf policies userId := by
  unfold policyOf strictnessOf
  cases policies userId with
  | some policy => rfl
  | none => exact strictness_default

theorem defaultMemoryContract_patch (policy : UserPolicyRecord) (req : UpsertUserPolicyRequest)
    (now : DateTime) : (applyUserPolicyPatch policy req now).defaultMemoryContract =
      replaceText policy.defaultMemoryContract req.defaultMemoryContract := rfl

theorem strictness_patch (policy : UserPolicyRecord) (req : UpsertUserPolicyRequest)
    (now : DateTime) : strictness (applyUserPolicyPatch policy req now).defaultMemoryContract =
      (requestedStrictness req).getD (strictness policy.defaultMemoryContract) := by
  rw [defaultMemoryContract_patch]
  unfold requestedStrictness replaceText
  cases req.defaultMemoryContract with
  | none => simp only [Option.getD_none]
  | some text =>
    dsimp only
    split
    · simp only [Option.getD_none]
    · simp only [Option.getD_some, strictness_trim]

end Policy
end Mnemo
