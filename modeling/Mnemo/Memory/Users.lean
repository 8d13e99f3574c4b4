import Mathlib
import Mnemo.Core.Basic
import Mnemo.Core.Json
import Mnemo.Lib.SecondaryIndex
import Mnemo.Lib.Sequential

/-!
# Users and their external identifiers

`create_user` enters the external identifier of a user into an index, `delete_user` deletes the
entry, and `update_user` leaves the index as it is.  For each call, with the commands of the store
that fail in it, it is told when external identifiers are still looked up rightly afterwards.
-/

namespace Mnemo
namespace Users

open Database (Command exec later eval_of_success eval_of_failure eval_of_infallible Fails extent)
open SecondaryIndex (Right Storable Unled Sole)

/-- A user. -/
structure User where
  id : Uuid
  externalId : Option String
  name : String
  email : Option String
  metadata : Json
  createdAt : DateTime
  updatedAt : DateTime

/-- Request to create a user. -/
structure CreateUserRequest where
  id : Option Uuid
  externalId : Option String
  name : String
  email : Option String
  metadata : Json

/-- Request to update a user; only what is given is changed. -/
structure UpdateUserRequest where
  name : Option String
  email : Option String
  externalId : Option String
  metadata : Option Json

/-- A new user. -/
def User.fromRequest (req : CreateUserRequest) (id : Uuid) (now : DateTime) : User :=
  { id
    externalId := req.externalId
    name := req.name
    email := req.email
    metadata := req.metadata
    createdAt := now
    updatedAt := now }

/-- Apply an update. -/
def User.applyUpdate (user : User) (update : UpdateUserRequest) (now : DateTime) : User :=
  { user with
    name := update.name.getD user.name
    email := update.email.or user.email
    externalId := update.externalId.or user.externalId
    metadata := update.metadata.getD user.metadata
    updatedAt := now }

/-! ## The database -/

/-- The keys of documents. -/
inductive UserKey where
  /-- `user:{id}` -/
  | user (id : Uuid)
  /-- `user_ext:{external_id}` -/
  | userExt (externalId : String)
  deriving DecidableEq, Repr

/-- The type of the document under a key. -/
abbrev UserDoc : UserKey → Type
  | .user _ => User
  | .userExt _ => Uuid

/-- The sorted sets. -/
inductive UserIndex where
  | users
  deriving DecidableEq, Repr

/-- No service is called. -/
abbrev UserAnswer : Empty → Type := fun call => nomatch call

/-- A command on the database of users. -/
abbrev UserCommand := Command UserKey UserDoc UserIndex Uuid Empty

/-- The contents of the database of users. -/
abbrev UserContents := Database.Contents UserKey UserDoc UserIndex Uuid

/-- What the environment decides at a command. -/
abbrev UserInput := Database.Input UserAnswer MnemoError

/-- A program over the database of users. -/
abbrev UserProgram := Program UserCommand (·.Reply UserAnswer) MnemoError

/-- The database before anything was stored. -/
def noUsers : UserContents := { docs := fun _ => none, sets := fun _ => .empty, issued := [] }

namespace Redis

def get (key : UserKey) : UserProgram (Option (UserDoc key)) :=
  Program.call (Command.get key : UserCommand)

def set (key : UserKey) (doc : UserDoc key) : UserProgram Unit :=
  Program.call (Command.set key doc : UserCommand)

def del (key : UserKey) : UserProgram Unit := Program.call (Command.del key : UserCommand)

def zadd (index : UserIndex) (member : Uuid) (score : Int) : UserProgram Unit :=
  Program.call (Command.zadd index member score : UserCommand)

def zrem (index : UserIndex) (member : Uuid) : UserProgram Unit := do
  let _ ← Program.call (Command.zrem index member : UserCommand)
  return ()

/-- The current time. -/
def now : UserProgram DateTime := Program.call (Command.clock : UserCommand)

/-- A new identifier. -/
def newId : UserProgram Uuid := Program.call (Command.freshId : UserCommand)

/-- Read a document which has to exist. -/
def getRequired (key : UserKey) (notFound : MnemoError) : UserProgram (UserDoc key) := do
  match ← get key with
  | some doc => return doc
  | none => .fail notFound

end Redis

/-! ## The store -/

/-- The given identifier, or a new one. -/
def orNewId : Option Uuid → UserProgram Uuid
  | some id => return id
  | none => Redis.newId

/-- Store a user unless there is one with the identifier, and index it. -/
def storeUser (user : User) : UserProgram User := do
  match ← Redis.get (.user user.id) with
  | some _ => .fail (.duplicate ("User " ++ user.id.toText ++ " already exists"))
  | none =>
      Redis.set (.user user.id) user
      match user.externalId with
      | some externalId => Redis.set (.userExt externalId) user.id
      | none => pure ()
      Redis.zadd .users user.id (timestampMillis user.createdAt)
      return user

/-- Create a user from a request. -/
def createUser (req : CreateUserRequest) : UserProgram User := do
  let now ← Redis.now
  let id ← orNewId req.id
  storeUser (User.fromRequest req id now)

def getUser (id : Uuid) : UserProgram User := Redis.getRequired (.user id) (.userNotFound id)

def getUserByExternalId (externalId : String) : UserProgram User := do
  let found : Option Uuid ← Redis.get (.userExt externalId)
  match found with
  | some id => getUser id
  | none => .fail (.notFound "User" externalId)

def updateUser (id : Uuid) (req : UpdateUserRequest) : UserProgram User := do
  let user ← getUser id
  let now ← Redis.now
  let updated := user.applyUpdate req now
  Redis.set (.user id) updated
  return updated

/-- Delete a user and the entry of its external identifier. -/
def deleteUser (id : Uuid) : UserProgram Unit := do
  let user ← getUser id
  Redis.del (.user id)
  match user.externalId with
  | some externalId => Redis.del (.userExt externalId)
  | none => pure ()
  Redis.zrem .users id

/-! ## Calls -/

/-- The users and the index of their external identifiers. -/
def userIndex (contents : UserContents) : SecondaryIndex Uuid String User where
  records id := contents.docs (.user id)
  entries externalId := contents.docs (.userExt externalId)

/-- A call that changes users. -/
inductive UserCall where
  | create (req : CreateUserRequest)
  | update (id : Uuid) (req : UpdateUserRequest)
  | delete (id : Uuid)

/-- One call, with what the environment decides at its commands. -/
def userStep (contents : UserContents) : UserCall × (Nat → UserInput) → UserContents
  | (.create req, inputs) => (Program.eval exec (createUser req) inputs contents).2
  | (.update id req, inputs) => (Program.eval exec (updateUser id req) inputs contents).2
  | (.delete id, inputs) => (Program.eval exec (deleteUser id) inputs contents).2

/-- A user is stored that has the external identifier. -/
def HasExternalId (contents : UserContents) (externalId : String) : Prop :=
  ∃ id user, contents.docs (.user id) = some user ∧ user.externalId = some externalId

/-- Unless the store fails, looking up an external identifier gives a user exactly if a stored user
has it, and the user that it gives has it. -/
def FindsByExternalId (contents : UserContents) : Prop :=
  ∀ externalId (inputs : Nat → UserInput), (∀ position, (inputs position).failure = none) →
    let found := (Program.eval exec (getUserByExternalId externalId) inputs contents).1
    ((∃ user, found = .ok user) ↔ HasExternalId contents externalId) ∧
      ∀ user, found = .ok user → user.externalId = some externalId

/-- The identifier of a user that is created. -/
def createdId (contents : UserContents) (req : CreateUserRequest) (inputs : Nat → UserInput) :
    Uuid :=
  req.id.getD (Database.unused contents.issued (inputs 1).id)

/-- The inputs of a creation after it has got the time and an identifier. -/
def createInputs (req : CreateUserRequest) (inputs : Nat → UserInput) : Nat → UserInput :=
  if req.id.isSome then later inputs else later (later inputs)

/-- The call leaves external identifiers to be looked up rightly. -/
def KeepsExternalIds (contents : UserContents) : UserCall × (Nat → UserInput) → Prop
  | (.create req, inputs) =>
      let id := createdId contents req inputs
      let user := User.fromRequest req id (inputs 0).now
      contents.docs (.user id) = none → Fails (createInputs req inputs) 0 = false →
        match req.externalId, extent (createInputs req inputs) 1 [2] with
        | _, .nothing => True
        | some externalId, .both => Unled (userIndex contents) id externalId
        | _, _ => Storable User.externalId (userIndex contents) id user
  | (.update id req, inputs) =>
      ∀ user, contents.docs (.user id) = some user → Fails inputs 0 = false →
        Fails inputs 2 = false →
          Storable User.externalId (userIndex contents) id (user.applyUpdate req (inputs 1).now)
  | (.delete id, inputs) =>
      ∀ user, contents.docs (.user id) = some user → Fails inputs 0 = false →
        match user.externalId, extent inputs 1 [2] with
        | _, .nothing => True
        | some externalId, .both => Sole User.externalId (userIndex contents) id externalId
        | _, _ => ∀ externalId, (userIndex contents).entries externalId = some id →
            Sole User.externalId (userIndex contents) id externalId

/-! ## What calls do -/

section Effects

variable (contents : UserContents)

@[simp]
theorem userIndex_putUser (id : Uuid) (user : User) :
    userIndex (contents.put (.user id) user) = (userIndex contents).store id user := by
  simp only [userIndex, SecondaryIndex.store, SecondaryIndex.mk.injEq]
  constructor
  · funext other
    by_cases same : other = id
    · subst same
      rw [Function.update_self]
      exact Database.Contents.docs_put_self ..
    · rw [Function.update_of_ne same]
      exact Database.Contents.docs_put_of_ne _ (by simpa using same) _
  · funext externalId
    exact Database.Contents.docs_put_of_ne _ (by simp) _

@[simp]
theorem userIndex_putExt (externalId : String) (id : Uuid) :
    userIndex (contents.put (.userExt externalId) id) =
      (userIndex contents).enter externalId id := by
  simp only [userIndex, SecondaryIndex.enter, SecondaryIndex.mk.injEq]
  constructor
  · funext other
    exact Database.Contents.docs_put_of_ne _ (by simp) _
  · funext other
    by_cases same : other = externalId
    · subst same
      rw [Function.update_self]
      exact Database.Contents.docs_put_self ..
    · rw [Function.update_of_ne same]
      exact Database.Contents.docs_put_of_ne _ (by simpa using same) _

@[simp]
theorem userIndex_removeUser (id : Uuid) :
    userIndex (contents.remove (.user id)) = (userIndex contents).drop id := by
  simp only [userIndex, SecondaryIndex.drop, SecondaryIndex.mk.injEq]
  constructor
  · funext other
    by_cases same : other = id
    · subst same
      rw [Function.update_self]
      exact Database.Contents.docs_remove_self ..
    · rw [Function.update_of_ne same]
      exact Database.Contents.docs_remove_of_ne _ (by simpa using same)
  · funext externalId
    exact Database.Contents.docs_remove_of_ne _ (by simp)

@[simp]
theorem userIndex_removeExt (externalId : String) :
    userIndex (contents.remove (.userExt externalId)) =
      (userIndex contents).leave externalId := by
  simp only [userIndex, SecondaryIndex.leave, SecondaryIndex.mk.injEq]
  constructor
  · funext other
    exact Database.Contents.docs_remove_of_ne _ (by simp)
  · funext other
    by_cases same : other = externalId
    · subst same
      rw [Function.update_self]
      exact Database.Contents.docs_remove_self ..
    · rw [Function.update_of_ne same]
      exact Database.Contents.docs_remove_of_ne _ (by simpa using same)

@[simp]
theorem userIndex_withSet (index : UserIndex) (set : SortedSet Uuid) :
    userIndex (contents.withSet index set) = userIndex contents := rfl

@[simp]
theorem userIndex_draw (id : Nat) : userIndex (contents.draw id) = userIndex contents := rfl

theorem userStep_create (req : CreateUserRequest) (inputs : Nat → UserInput) :
    ∃ middle : UserContents, middle.docs = contents.docs ∧
      userStep contents (.create req, inputs) =
        (Program.eval exec (storeUser (User.fromRequest req (createdId contents req inputs)
          (inputs 0).now)) (createInputs req inputs) middle).2 := by
  cases given : req.id with
  | some id =>
    refine ⟨contents, rfl, ?_⟩
    refine (congrArg Prod.snd (eval_of_infallible inputs contents rfl)).trans ?_
    simp only [createdId, createInputs, given, Option.getD_some]
    rfl
  | none =>
    refine ⟨contents.draw (createdId contents req inputs), rfl, ?_⟩
    refine (congrArg Prod.snd (eval_of_infallible inputs contents rfl)).trans ?_
    simp only [createdId, createInputs, given, Option.getD_none]
    exact congrArg Prod.snd (eval_of_infallible (later inputs) contents rfl)

theorem storeUser_blocked {user : User} {inputs : Nat → UserInput}
    (blocked : contents.docs (.user user.id) ≠ none ∨ Fails inputs 0 = true) :
    (Program.eval exec (storeUser user) inputs contents).2 = contents := by
  cases first : (inputs 0).failure with
  | some error => exact congrArg Prod.snd (eval_of_failure inputs contents rfl first)
  | none =>
    have present : contents.docs (.user user.id) ≠ none := by simpa [Fails, first] using blocked
    obtain ⟨other, held⟩ := Option.ne_none_iff_exists'.mp present
    refine (congrArg Prod.snd (eval_of_success inputs contents first)).trans ?_
    simp only [Database.perform]
    rw [held]
    rfl

/-- What storing a new user does to the index. -/
theorem userIndex_storeUser {user : User} {inputs : Nat → UserInput}
    (new : contents.docs (.user user.id) = none) (reads : Fails inputs 0 = false) :
    userIndex (Program.eval exec (storeUser user) inputs contents).2 =
      match user.externalId, extent inputs 1 [2] with
      | _, .nothing => userIndex contents
      | some externalId, .both =>
        ((userIndex contents).store user.id user).enter externalId user.id
      | _, _ => (userIndex contents).store user.id user := by
  let stored := contents.put (.user user.id) user
  have zeroth : (inputs 0).failure = none := by simpa [Fails] using reads
  have rest : (Program.eval exec (storeUser user) inputs contents).2 =
      (Program.eval exec (do
        Redis.set (.user user.id) user
        match user.externalId with
        | some externalId => Redis.set (.userExt externalId) user.id
        | none => pure ()
        Redis.zadd .users user.id (timestampMillis user.createdAt)
        return user) (later inputs) contents).2 := by
    refine (congrArg Prod.snd (eval_of_success inputs contents zeroth)).trans ?_
    simp only [Database.perform]
    rw [new]
    rfl
  cases first : (inputs 1).failure with
  | some error =>
    have ends := rest.trans
      (congrArg Prod.snd (eval_of_failure (later inputs) contents rfl first))
    have reach : extent inputs 1 [2] = .nothing := by simp [extent, Fails, first]
    rw [ends, reach]
    cases user.externalId <;> rfl
  | none =>
    have stores := rest.trans
      (congrArg Prod.snd (eval_of_success (later inputs) contents first))
    have lists (contents : UserContents) (inputs : Nat → UserInput) :
        userIndex (Program.eval exec (do
          Redis.zadd .users user.id (timestampMillis user.createdAt)
          return user) inputs contents).2 = userIndex contents := by
      cases last : (inputs 0).failure with
      | some error =>
        exact congrArg userIndex (congrArg Prod.snd (eval_of_failure inputs contents rfl last))
      | none =>
        refine (congrArg userIndex
          (congrArg Prod.snd (eval_of_success inputs contents last))).trans ?_
        rfl
    have indexed : userIndex stored = (userIndex contents).store user.id user :=
      userIndex_putUser ..
    cases ext : user.externalId with
    | none =>
      simp only [ext] at stores
      have ends := (congrArg userIndex stores).trans
        ((lists stored (later (later inputs))).trans indexed)
      rw [ends]
      cases second : (inputs 2).failure with
      | some error => simp [extent, Fails, first, second]
      | none => simp [extent, Fails, first, second]
    | some externalId =>
      simp only [ext] at stores
      cases second : (inputs 2).failure with
      | some error =>
        have ends := (congrArg userIndex stores).trans
          ((congrArg userIndex (congrArg Prod.snd
            (eval_of_failure (later (later inputs)) stored rfl second))).trans indexed)
        have reach : extent inputs 1 [2] = .record := by
          simp [extent, Fails, first, second]
        rw [ends, reach]
      | none =>
        have ends := (congrArg userIndex stores).trans
          ((congrArg userIndex (congrArg Prod.snd
            (eval_of_success (later (later inputs)) stored second))).trans
              ((lists (stored.put (.userExt externalId) user.id) _).trans
                (userIndex_putExt ..)))
        have reach : extent inputs 1 [2] = .both := by
          simp [extent, Fails, first, second]
        rw [ends, reach, indexed]

theorem userIndex_congr {contents other : UserContents} (same : other.docs = contents.docs) :
    userIndex other = userIndex contents := by
  simp [userIndex, same]

theorem userStep_update_blocked {id : Uuid} (req : UpdateUserRequest) {inputs : Nat → UserInput}
    (blocked : contents.docs (.user id) = none ∨ Fails inputs 0 = true ∨ Fails inputs 2 = true) :
    userStep contents (.update id req, inputs) = contents := by
  cases first : (inputs 0).failure with
  | some error => exact congrArg Prod.snd (eval_of_failure inputs contents rfl first)
  | none =>
    refine (congrArg Prod.snd (eval_of_success inputs contents first)).trans ?_
    simp only [Database.perform]
    cases held : contents.docs (.user id) with
    | none => rfl
    | some user =>
      have second : Fails inputs 2 = true := by simpa [Fails, first, held] using blocked
      obtain ⟨error, failing⟩ := Option.isSome_iff_exists.mp second
      refine (congrArg Prod.snd (eval_of_infallible (later inputs) contents rfl)).trans ?_
      exact congrArg Prod.snd (eval_of_failure (later (later inputs)) contents rfl failing)

theorem userIndex_update {id : Uuid} (req : UpdateUserRequest) {inputs : Nat → UserInput}
    {user : User} (held : contents.docs (.user id) = some user) (reads : Fails inputs 0 = false)
    (writes : Fails inputs 2 = false) :
    userIndex (userStep contents (.update id req, inputs)) =
      (userIndex contents).store id (user.applyUpdate req (inputs 1).now) := by
  have first : (inputs 0).failure = none := by simpa [Fails] using reads
  have second : (inputs 2).failure = none := by simpa [Fails] using writes
  have ends : userStep contents (.update id req, inputs) =
      contents.put (.user id) (user.applyUpdate req (inputs 1).now) := by
    refine (congrArg Prod.snd (eval_of_success inputs contents first)).trans ?_
    simp only [Database.perform]
    rw [held]
    refine (congrArg Prod.snd (eval_of_infallible (later inputs) contents rfl)).trans ?_
    exact congrArg Prod.snd (eval_of_success (later (later inputs)) contents second)
  rw [ends, userIndex_putUser]

theorem userStep_delete_blocked {id : Uuid} {inputs : Nat → UserInput}
    (blocked : contents.docs (.user id) = none ∨ Fails inputs 0 = true) :
    userStep contents (.delete id, inputs) = contents := by
  cases first : (inputs 0).failure with
  | some error => exact congrArg Prod.snd (eval_of_failure inputs contents rfl first)
  | none =>
    have absent : contents.docs (.user id) = none := by simpa [Fails, first] using blocked
    refine (congrArg Prod.snd (eval_of_success inputs contents first)).trans ?_
    simp only [Database.perform]
    rw [absent]
    rfl

/-- What deleting a user does to the index. -/
theorem userIndex_delete {id : Uuid} {inputs : Nat → UserInput} {user : User}
    (held : contents.docs (.user id) = some user) (reads : Fails inputs 0 = false) :
    userIndex (userStep contents (.delete id, inputs)) =
      match user.externalId, extent inputs 1 [2] with
      | _, .nothing => userIndex contents
      | some externalId, .both => ((userIndex contents).drop id).leave externalId
      | _, _ => (userIndex contents).drop id := by
  let dropped := contents.remove (.user id)
  have zeroth : (inputs 0).failure = none := by simpa [Fails] using reads
  have rest : userStep contents (.delete id, inputs) = (Program.eval exec (do
      Redis.del (.user id)
      match user.externalId with
      | some externalId => Redis.del (.userExt externalId)
      | none => pure ()
      Redis.zrem .users id) (later inputs) contents).2 := by
    refine (congrArg Prod.snd (eval_of_success inputs contents zeroth)).trans ?_
    simp only [Database.perform]
    rw [held]
    rfl
  cases first : (inputs 1).failure with
  | some error =>
    have ends := rest.trans
      (congrArg Prod.snd (eval_of_failure (later inputs) contents rfl first))
    have reach : extent inputs 1 [2] = .nothing := by simp [extent, Fails, first]
    rw [ends, reach]
    cases user.externalId <;> rfl
  | none =>
    have drops := rest.trans
      (congrArg Prod.snd (eval_of_success (later inputs) contents first))
    have unlists (contents : UserContents) (inputs : Nat → UserInput) :
        userIndex (Program.eval exec (Redis.zrem .users id) inputs contents).2 =
          userIndex contents := by
      cases last : (inputs 0).failure with
      | some error =>
        exact congrArg userIndex (congrArg Prod.snd (eval_of_failure inputs contents rfl last))
      | none =>
        refine (congrArg userIndex
          (congrArg Prod.snd (eval_of_success inputs contents last))).trans ?_
        rfl
    have unindexed : userIndex dropped = (userIndex contents).drop id :=
      userIndex_removeUser ..
    cases ext : user.externalId with
    | none =>
      simp only [ext] at drops
      have ends := (congrArg userIndex drops).trans
        ((unlists dropped (later (later inputs))).trans unindexed)
      rw [ends]
      cases second : (inputs 2).failure with
      | some error => simp [extent, Fails, first, second]
      | none => simp [extent, Fails, first, second]
    | some externalId =>
      simp only [ext] at drops
      cases second : (inputs 2).failure with
      | some error =>
        have ends := (congrArg userIndex drops).trans
          ((congrArg userIndex (congrArg Prod.snd
            (eval_of_failure (later (later inputs)) dropped rfl second))).trans unindexed)
        have reach : extent inputs 1 [2] = .record := by
          simp [extent, Fails, first, second]
        rw [ends, reach]
      | none =>
        have ends := (congrArg userIndex drops).trans
          ((congrArg userIndex (congrArg Prod.snd
            (eval_of_success (later (later inputs)) dropped second))).trans
              ((unlists (dropped.remove (.userExt externalId)) _).trans
                (userIndex_removeExt ..)))
        have reach : extent inputs 1 [2] = .both := by
          simp [extent, Fails, first, second]
        rw [ends, reach, unindexed]

theorem eval_getUserByExternalId (externalId : String) {inputs : Nat → UserInput}
    (calm : ∀ position, (inputs position).failure = none) :
    (Program.eval exec (getUserByExternalId externalId) inputs contents).1 =
      match (userIndex contents).entries externalId with
      | none => .error (.notFound "User" externalId)
      | some id =>
        match (userIndex contents).records id with
        | none => .error (.userNotFound id)
        | some user => .ok user := by
  have first := calm 0
  have second := calm 1
  cases entry : contents.docs (.userExt externalId) with
  | none =>
    have absent : (userIndex contents).entries externalId = none := entry
    rw [absent]
    refine (congrArg Prod.fst (eval_of_success inputs contents first)).trans ?_
    simp only [Database.perform]
    rw [entry]
    rfl
  | some id =>
    have led : (userIndex contents).entries externalId = some id := entry
    rw [led]
    refine (congrArg Prod.fst (eval_of_success inputs contents first)).trans ?_
    simp only [Database.perform]
    rw [entry]
    refine (congrArg Prod.fst (eval_of_success (later inputs) contents second)).trans ?_
    simp only [Database.perform, userIndex]
    cases contents.docs (.user id) <;> rfl

theorem eval_getUserByExternalId_iff (externalId : String) {inputs : Nat → UserInput}
    (calm : ∀ position, (inputs position).failure = none) (user : User) :
    (Program.eval exec (getUserByExternalId externalId) inputs contents).1 = .ok user ↔
      (userIndex contents).find externalId = some user := by
  rw [eval_getUserByExternalId contents externalId calm]
  cases entry : (userIndex contents).entries externalId with
  | none => simp [SecondaryIndex.find, entry]
  | some id =>
    cases stored : (userIndex contents).records id <;>
      simp [SecondaryIndex.find, entry, stored]

/-- An environment in which the store does not fail. -/
def quietInput : UserInput :=
  { failure := none, now := 0, id := 0, answer := fun call => nomatch call }

theorem findsByExternalId_iff :
    FindsByExternalId contents ↔ Right User.externalId (userIndex contents) := by
  constructor
  · intro finds
    have calm (position : Nat) : ((fun _ => quietInput) position : UserInput).failure = none := rfl
    constructor
    · intro externalId user found
      apply (finds externalId (fun _ => quietInput) calm).2 user
      rwa [eval_getUserByExternalId_iff contents externalId calm]
    · intro id user externalId stored has
      have found := (finds externalId (fun _ => quietInput) calm).1.mpr ⟨id, user, stored, has⟩
      simpa only [eval_getUserByExternalId_iff contents externalId calm] using found
  · intro right externalId inputs calm
    simp only [eval_getUserByExternalId_iff contents externalId calm]
    refine ⟨⟨?_, ?_⟩, fun user found => right.named externalId user found⟩
    · rintro ⟨user, found⟩
      obtain ⟨id, _, stored⟩ := Option.bind_eq_some_iff.mp found
      exact ⟨id, user, stored, right.named externalId user found⟩
    · rintro ⟨id, user, stored, has⟩
      exact right.complete id user externalId stored has

/-! ## Runs -/

theorem right_create_iff (req : CreateUserRequest) (inputs : Nat → UserInput)
    (right : Right User.externalId (userIndex contents)) :
    Right User.externalId (userIndex (userStep contents (.create req, inputs))) ↔
      KeepsExternalIds contents (.create req, inputs) := by
  obtain ⟨middle, same, step⟩ := userStep_create contents req inputs
  rw [step]
  simp only [KeepsExternalIds]
  by_cases new : contents.docs (.user (createdId contents req inputs)) = none
  · cases reads : Fails (createInputs req inputs) 0 with
    | true =>
      rw [storeUser_blocked middle (.inr reads), userIndex_congr same]
      simp [right]
    | false =>
      have free : middle.docs (.user (User.fromRequest req (createdId contents req inputs)
          (inputs 0).now).id) = none := by
        rw [same]
        exact new
      rw [userIndex_storeUser middle free reads, userIndex_congr same]
      simp only [new, true_implies]
      have isName : User.externalId (User.fromRequest req (createdId contents req inputs)
          (inputs 0).now) = req.externalId := rfl
      rw [isName]
      cases ext : req.externalId with
      | none =>
        cases extent (createInputs req inputs) 1 [2] with
        | nothing => simp [right]
        | record => exact SecondaryIndex.right_store_iff right
        | both => exact SecondaryIndex.right_store_iff right
      | some externalId =>
        cases extent (createInputs req inputs) 1 [2] with
        | nothing => simp [right]
        | record => exact SecondaryIndex.right_store_iff right
        | both => exact SecondaryIndex.right_store_enter_iff right (isName.trans ext)
  · have blocked : middle.docs (.user (User.fromRequest req (createdId contents req inputs)
        (inputs 0).now).id) ≠ none := by
      rw [same]
      exact new
    rw [storeUser_blocked middle (.inl blocked), userIndex_congr same]
    simp [right, new]

theorem right_update_iff (id : Uuid) (req : UpdateUserRequest) (inputs : Nat → UserInput)
    (right : Right User.externalId (userIndex contents)) :
    Right User.externalId (userIndex (userStep contents (.update id req, inputs))) ↔
      KeepsExternalIds contents (.update id req, inputs) := by
  simp only [KeepsExternalIds]
  cases held : contents.docs (.user id) with
  | none =>
    rw [userStep_update_blocked contents req (.inl held)]
    simp [right]
  | some user =>
    cases reads : Fails inputs 0 with
    | true =>
      rw [userStep_update_blocked contents req (.inr (.inl reads))]
      simp [right]
    | false =>
      cases writes : Fails inputs 2 with
      | true =>
        rw [userStep_update_blocked contents req (.inr (.inr writes))]
        simp [right]
      | false =>
        rw [userIndex_update contents req held reads writes,
          SecondaryIndex.right_store_iff right]
        simp

theorem right_delete_iff (id : Uuid) (inputs : Nat → UserInput)
    (right : Right User.externalId (userIndex contents)) :
    Right User.externalId (userIndex (userStep contents (.delete id, inputs))) ↔
      KeepsExternalIds contents (.delete id, inputs) := by
  simp only [KeepsExternalIds]
  cases held : contents.docs (.user id) with
  | none =>
    rw [userStep_delete_blocked contents (.inl held)]
    simp [right]
  | some user =>
    cases reads : Fails inputs 0 with
    | true =>
      rw [userStep_delete_blocked contents (.inr reads)]
      simp [right]
    | false =>
      rw [userIndex_delete contents held reads]
      have stored : (userIndex contents).records id = some user := held
      simp only [Option.some.injEq, forall_eq', true_implies]
      cases ext : user.externalId with
      | none =>
        cases extent inputs 1 [2] with
        | nothing => simp [right]
        | record => exact SecondaryIndex.right_drop_iff right
        | both => exact SecondaryIndex.right_drop_iff right
      | some externalId =>
        cases extent inputs 1 [2] with
        | nothing => simp [right]
        | record => exact SecondaryIndex.right_drop_iff right
        | both => exact SecondaryIndex.right_drop_leave_iff right stored ext

end Effects

/-- However users are created, updated and deleted, external identifiers are looked up rightly
throughout exactly if every call meets its condition. -/
theorem externalIds_found_iff_kept (events : List (UserCall × (Nat → UserInput))) :
    StateMachine.Always userStep FindsByExternalId noUsers events ↔
      StateMachine.Guarded userStep KeepsExternalIds noUsers events := by
  apply StateMachine.always_iff_guarded fun _ => True
  · exact fun _ _ _ _ => trivial
  · rintro contents ⟨call, inputs⟩ _ finds
    rw [findsByExternalId_iff] at finds ⊢
    cases call with
    | create req => exact right_create_iff contents req inputs finds
    | update id req => exact right_update_iff contents id req inputs finds
    | delete id => exact right_delete_iff contents id inputs finds
  · exact trivial
  · rw [findsByExternalId_iff]
    constructor
    · intro externalId user found
      exact nomatch found
    · intro id user externalId stored
      exact nomatch stored

/-- A user gets another external identifier. -/
def changedExternalId : List (UserCall × (Nat → UserInput)) :=
  [(.create ⟨some 7, some "old", "Ann", none, .null⟩, fun _ => quietInput),
    (.update 7 ⟨none, none, some "new", none⟩, fun _ => quietInput)]

theorem changed_externalId_not_found :
    ¬ StateMachine.Always userStep FindsByExternalId noUsers changedExternalId := by
  intro always
  have found := always.finish "new" (fun _ => quietInput) fun _ => rfl
  have missed : (Program.eval exec (getUserByExternalId "new") (fun _ => quietInput)
      (StateMachine.finish userStep noUsers changedExternalId)).1 =
        .error (.notFound "User" "new") := rfl
  have has : HasExternalId (StateMachine.finish userStep noUsers changedExternalId) "new" :=
    ⟨7, _, rfl, rfl⟩
  obtain ⟨user, given⟩ := found.1.mpr has
  rw [missed] at given
  exact nomatch given

end Users
end Mnemo
