import Mathlib
import Mnemo.Attachment.Model
import Mnemo.Core.Json
import Mnemo.Lib.TypedStore

/-!
# The store of attachments

`save_attachment` writes the record with `SET`, everything else reads it with `JSON.GET`.  It is
told for which identifiers and which users the store answers from what was saved last, after any
sequence of calls.
-/

namespace Mnemo
namespace Attachments

open TypedStore (Value Command Begins exec above)
open Database (Write)

/-- The sorted sets in which attachments are listed. -/
inductive AttachmentIndex where
  | userAttachments (userId : Uuid)
  | episodeAttachments (episodeId : Uuid)
  deriving DecidableEq

/-- How a record becomes a string, and how a document is read back as a record. -/
structure Codec (Text Document : Type) where
  toText : Attachment → Text
  fromDocument : Document → Except MnemoError Attachment

/-- Parameters of a listing. -/
structure ListAttachmentsParams where
  attachmentType : Option AttachmentType
  limit : Nat
  after : Option Uuid

/-- The error of a command on a value of another type. -/
def wrongType : MnemoError :=
  .redis "WRONGTYPE Operation against a key holding the wrong kind of value"

/-- The error for an attachment that is not stored. -/
def notFound (id : Uuid) : MnemoError := .notFound "Attachment" id.toText

variable {Text Document : Type}

/-- Attachments under their identifiers. -/
abbrev AttachmentStore (Text Document : Type) : Type :=
  TypedStore.Store Text Document Uuid AttachmentIndex Uuid

/-- The commands on attachments. -/
abbrev AttachmentCommand (Text Document : Type) : Type :=
  Command Text Document Uuid AttachmentIndex Uuid

/-- A program over the store of attachments. -/
abbrev AttachmentProgram (Text Document α : Type) : Type :=
  Program (AttachmentCommand Text Document) (·.Reply) MnemoError α

/-- `JSON.GET` -/
def jsonGet (id : Uuid) : AttachmentProgram Text Document (Option Document) :=
  Program.call (Command.jsonGet id : AttachmentCommand Text Document)

/-- `SET` -/
def set (id : Uuid) (text : Text) : AttachmentProgram Text Document Unit :=
  Program.call (Command.set id text : AttachmentCommand Text Document)

/-- `MULTI` … `EXEC` -/
def transaction (writes : List (Write Uuid (fun _ => Value Text Document) AttachmentIndex Uuid)) :
    AttachmentProgram Text Document Unit :=
  Program.call (Command.transaction writes : AttachmentCommand Text Document)

/-- `ZRANGEBYSCORE` up to infinity -/
def zrangebyscore (index : AttachmentIndex) (start : Option Int) (limit : Nat) :
    AttachmentProgram Text Document (List Uuid) :=
  Program.call (Command.zrangebyscore index start limit : AttachmentCommand Text Document)

variable (codec : Codec Text Document)

/-- Decode a document, if there is one. -/
def decoded : Option Document → AttachmentProgram Text Document (Option Attachment)
  | none => return none
  | some document => do
      let attachment ← Program.ofExcept (codec.fromDocument document)
      return some attachment

/-- Read and decode a document. -/
def getJson (id : Uuid) : AttachmentProgram Text Document (Option Attachment) := do
  let document ← jsonGet id
  decoded codec document

/-- Save an attachment and list it. -/
def saveAttachment (attachment : Attachment) : AttachmentProgram Text Document Unit :=
  transaction
    [ .set attachment.id (.string (codec.toText attachment)),
      .zadd (.userAttachments attachment.userId) attachment.id
        (timestampMillis attachment.createdAt),
      .zadd (.episodeAttachments attachment.episodeId) attachment.id
        (timestampMillis attachment.createdAt)]

/-- Get an attachment. -/
def getAttachment (id : Uuid) : AttachmentProgram Text Document (Option Attachment) :=
  getJson codec id

/-- The score from which a page begins: above that of the cursor, if there is such an
attachment. -/
def startScore : Option Uuid → AttachmentProgram Text Document (Option Int)
  | none => return none
  | some after => do
      match ← getJson codec after with
      | some attachment => return some (timestampMillis attachment.createdAt)
      | none => return none

/-- Whether an attachment passes a filter. -/
def matchesType (filter : Option AttachmentType) (attachment : Attachment) : Bool :=
  filter.all fun wanted => decide (attachment.attachmentType = wanted)

/-- Read the attachments that are stored under identifiers, and keep those that pass a filter. -/
def readMatching (filter : Option AttachmentType) :
    List Uuid → AttachmentProgram Text Document (List Attachment)
  | [] => return []
  | id :: ids => do
      let found ← getJson codec id
      let others ← readMatching filter ids
      match found with
      | some attachment =>
          if matchesType filter attachment then return attachment :: others else return others
      | none => return others

/-- A page of the attachments of a user, oldest first. -/
def listAttachments (userId : Uuid) (params : ListAttachmentsParams) :
    AttachmentProgram Text Document (List Attachment) := do
  let start ← startScore codec params.after
  let ids ← zrangebyscore (.userAttachments userId) start params.limit
  readMatching codec params.attachmentType ids

/-- Delete an attachment and its entries in the listings. -/
def deleteAttachment (id : Uuid) : AttachmentProgram Text Document Unit := do
  match ← getJson codec id with
  | none => Program.fail (notFound id)
  | some attachment =>
      transaction
        [ .del id,
          .zrem (.userAttachments attachment.userId) id,
          .zrem (.episodeAttachments attachment.episodeId) id]

/-- Write an attachment over the stored one. -/
def updateAttachment (attachment : Attachment) : AttachmentProgram Text Document Unit := do
  match ← getJson codec attachment.id with
  | none => Program.fail (notFound attachment.id)
  | some _ => set attachment.id (codec.toText attachment)

/-! ## Sequences of calls -/

/-- The calls that change the store. -/
inductive Request where
  | save (attachment : Attachment)
  | update (attachment : Attachment)
  | delete (id : Uuid)

/-- The program of a call. -/
def Request.program : Request → AttachmentProgram Text Document Unit
  | .save attachment => saveAttachment codec attachment
  | .update attachment => updateAttachment codec attachment
  | .delete id => deleteAttachment codec id

/-- A call, and which of its commands the environment lets fail. -/
structure Event where
  request : Request
  failures : Nat → Option MnemoError

/-- The store, and what a client remembers: the attachments it saved last and was not told were
deleted since. -/
structure History (Text Document : Type) where
  store : AttachmentStore Text Document
  remembered : Uuid → Option Attachment

/-- What a client remembers after a call that succeeded. -/
def remember (remembered : Uuid → Option Attachment) : Request → Uuid → Option Attachment
  | .save attachment | .update attachment =>
      Function.update remembered attachment.id (some attachment)
  | .delete id => Function.update remembered id none

/-- Make one call. -/
def step (history : History Text Document) (event : Event) : History Text Document :=
  let (outcome, store) := (event.request.program codec).eval (exec wrongType) event.failures
    history.store
  match outcome with
  | .ok () => { store, remembered := remember history.remembered event.request }
  | .error _ => { history with store }

/-- Nothing is stored. -/
def nothingSaved : History Text Document where
  store := { docs := fun _ => none, sets := fun _ => .empty, issued := [] }
  remembered _ := none

/-- The state after a sequence of calls. -/
def afterCalls (events : List Event) : History Text Document :=
  StateMachine.finish (step codec) nothingSaved events

/-- What a call answers when no command fails. -/
def answer {α : Type} (program : AttachmentProgram Text Document α)
    (store : AttachmentStore Text Document) : Except MnemoError α :=
  (program.eval (exec wrongType) (fun _ => none) store).1

/-- Ask for pages, each after the last attachment of the one before, until one is empty. -/
def allPages (userId : Uuid) (attachmentType : Option AttachmentType) (limit : Nat) :
    Nat → Option Uuid → AttachmentProgram Text Document (List Attachment)
  | 0, _ => return []
  | fuel + 1, after => do
      let page ← listAttachments codec userId { attachmentType, limit, after }
      match page.getLast? with
      | none => return []
      | some last => do
          let others ← allPages userId attachmentType limit fuel (some last.id)
          return page ++ others

namespace History

variable (history : History Text Document)

/-- An attachment is got exactly as it was saved last. -/
def Gets (id : Uuid) : Prop :=
  answer (getAttachment codec id) history.store = .ok (history.remembered id)

/-- Paging through the attachments of a user ends, and shows each one that passes the filter as it
was saved last, exactly once, and nothing else. -/
def Pages (userId : Uuid) (filter : Option AttachmentType) (limit : Nat) : Prop :=
  ∃ enough shown, (∀ fuel, enough ≤ fuel →
      answer (allPages codec userId filter limit fuel none) history.store = .ok shown) ∧
    shown.Nodup ∧
    ∀ attachment, attachment ∈ shown ↔ history.remembered attachment.id = some attachment ∧
      attachment.userId = userId ∧ matchesType filter attachment = true

end History

/-- The attachment that a call saves, unless the transaction fails. -/
def Event.saved (event : Event) : Option Attachment :=
  match event.request, event.failures 0 with
  | .save attachment, none => some attachment
  | _, _ => none

/-! ## What has been saved cannot be read -/

/-- What a sequence of calls has stored, if it saved these attachments. -/
structure Stored (history : History Text Document) (saved : List Attachment) : Prop where
  string : ∀ attachment ∈ saved, ∃ text, history.store.docs attachment.id = some (.string text)
  absent : ∀ id, (∀ attachment ∈ saved, attachment.id ≠ id) → history.store.docs id = none
  remembered : ∀ id attachment, history.remembered id = some attachment →
    attachment ∈ saved ∧ attachment.id = id
  listed : ∀ userId id, id ∈ (history.store.sets (.userAttachments userId)).members ↔
    ∃ attachment ∈ saved, attachment.id = id ∧ attachment.userId = userId

theorem stored_nothingSaved : Stored (nothingSaved : History Text Document) [] where
  string _ member := nomatch member
  absent _ _ := rfl
  remembered _ _ found := nomatch found
  listed userId id := by
    have none : ((nothingSaved : History Text Document).store.sets
        (.userAttachments userId)).members = [] := rfl
    simp [none]

variable {history : History Text Document} {saved : List Attachment}

theorem Stored.nothing_or_string (stored : Stored history saved) (id : Uuid) :
    history.store.docs id = none ∨ ∃ text, history.store.docs id = some (.string text) := by
  by_cases known : ∃ attachment ∈ saved, attachment.id = id
  · obtain ⟨attachment, member, rfl⟩ := known
    exact .inr (stored.string attachment member)
  · left
    apply stored.absent
    intro attachment member same
    exact known ⟨attachment, member, same⟩

theorem begins_getJson (id : Uuid) :
    Begins (Command.jsonGet id : AttachmentCommand Text Document) (getJson codec id) :=
  ⟨fun reply => Program.ofExcept reply >>= decoded codec, rfl, fun _ => rfl⟩

theorem getJson_nothing (id : Uuid) : ∃ continuation,
    getJson codec id = .perform (.jsonGet id) continuation ∧
      continuation (.ok none) = .done none :=
  ⟨fun reply => Program.ofExcept reply >>= decoded codec, rfl, rfl⟩

theorem exec_jsonGet_nothing {id : Uuid} {store : AttachmentStore Text Document}
    (nothing : store.docs id = none) :
    exec wrongType (.jsonGet id : AttachmentCommand Text Document) none store =
      (.ok none, store) := by
  simp [exec, nothing]

theorem exec_jsonGet_string {id : Uuid} {store : AttachmentStore Text Document} {text : Text}
    (string : store.docs id = some (.string text)) :
    exec wrongType (.jsonGet id : AttachmentCommand Text Document) none store =
      (.error wrongType, store) := by
  simp [exec, string]

theorem Stored.eval_reads (stored : Stored history saved) (id : Uuid)
    {next : Option Attachment → AttachmentProgram Text Document Unit} {error : MnemoError}
    (refuses : next none = .fail error) (failures : Nat → Option MnemoError) :
    ∃ error, (getJson codec id >>= next).eval (exec wrongType) failures history.store =
      (.error error, history.store) := by
  have begins := (begins_getJson codec id).bind next
  cases failing : failures 0 with
  | some failure => exact ⟨failure, begins.eval_error (by simp [exec, failing])⟩
  | none =>
    rcases stored.nothing_or_string id with nothing | ⟨text, string⟩
    · obtain ⟨continuation, reads, absent⟩ := getJson_nothing codec id
      refine ⟨error, ?_⟩
      simp [reads, Program.eval, failing, exec_jsonGet_nothing nothing, absent, refuses]
    · exact ⟨wrongType, begins.eval_error (by rw [failing, exec_jsonGet_string string])⟩

theorem Stored.step_of_reads (stored : Stored history saved) {event : Event} {id : Uuid}
    {next : Option Attachment → AttachmentProgram Text Document Unit} {error : MnemoError}
    (reads : event.request.program codec = getJson codec id >>= next)
    (refuses : next none = .fail error) : step codec history event = history := by
  obtain ⟨failure, ends⟩ := stored.eval_reads codec id refuses event.failures
  simp only [step, reads, ends]

/-- The store after an attachment was saved. -/
def Saved (store : AttachmentStore Text Document) (text : Text) (attachment : Attachment) :
    AttachmentStore Text Document :=
  ((store.put attachment.id (.string text)).withSet (.userAttachments attachment.userId)
    ((store.sets (.userAttachments attachment.userId)).insert attachment.id
      (timestampMillis attachment.createdAt))).withSet (.episodeAttachments attachment.episodeId)
    ((store.sets (.episodeAttachments attachment.episodeId)).insert attachment.id
      (timestampMillis attachment.createdAt))

/-- Saving writes a string and lists it. -/
theorem Stored.save (stored : Stored history saved) (attachment : Attachment) :
    Stored
      { store := Saved history.store (codec.toText attachment) attachment
        remembered := remember history.remembered (.save attachment) }
      (saved ++ [attachment]) where
  string other member := by
    rcases eq_or_ne other.id attachment.id with same | different
    · exact ⟨codec.toText attachment, by simp [Saved, same]⟩
    · have before : other ∈ saved := by
        rcases List.mem_append.mp member with before | last
        · exact before
        · exact absurd (congrArg Attachment.id (List.mem_singleton.mp last)) different
      obtain ⟨text, string⟩ := stored.string other before
      exact ⟨text, by simpa [Saved, different] using string⟩
  absent id none := by
    have different : id ≠ attachment.id := (none attachment (by simp)).symm
    have before := stored.absent id fun other member => none other (by simp [member])
    simpa [Saved, different] using before
  remembered id other found := by
    rcases eq_or_ne id attachment.id with rfl | different
    · obtain rfl : attachment = other := by simpa [remember] using found
      simp
    · obtain ⟨member, own⟩ := stored.remembered id other (by simpa [remember, different] using found)
      exact ⟨List.mem_append_left _ member, own⟩
  listed userId id := by
    have before := stored.listed userId id
    rcases eq_or_ne userId attachment.userId with rfl | different
    · simp only [Saved, Database.Contents.sets_withSet_of_ne _
        (show AttachmentIndex.userAttachments attachment.userId ≠
          .episodeAttachments attachment.episodeId by simp),
        Database.Contents.sets_withSet_self, SortedSet.mem_members_insert, before]
      simp only [List.mem_append, List.mem_singleton]
      constructor
      · rintro (rfl | ⟨other, member, rfl, owner⟩)
        · exact ⟨attachment, .inr rfl, rfl, rfl⟩
        · exact ⟨other, .inl member, rfl, owner⟩
      · rintro ⟨other, member | rfl, own, owner⟩
        · exact .inr ⟨other, member, own, owner⟩
        · exact .inl own.symm
    · have kept : ∀ index ≠ AttachmentIndex.userAttachments attachment.userId,
          index ≠ .episodeAttachments attachment.episodeId →
            (Saved history.store (codec.toText attachment) attachment).sets index =
              history.store.sets index := by
        intro index one two
        simp [Saved, one, two]
      rw [kept _ (by simpa using different) (by simp), before]
      simp only [List.mem_append, List.mem_singleton]
      constructor
      · rintro ⟨other, member, own, owner⟩
        exact ⟨other, .inl member, own, owner⟩
      · rintro ⟨other, member | rfl, own, owner⟩
        · exact ⟨other, member, own, owner⟩
        · exact absurd owner.symm different

theorem Stored.step (stored : Stored history saved) (event : Event) :
    Stored (step codec history event) (saved ++ event.saved.toList) := by
  obtain ⟨request, failures⟩ := event
  cases request with
  | save attachment =>
    cases failing : failures 0 with
    | some error =>
      have unchanged : Attachments.step codec history ⟨.save attachment, failures⟩ =
          history := by
        simp [Attachments.step, Request.program, saveAttachment, transaction, Program.call,
          Program.eval, exec, failing, Program.ofExcept]
      simpa [unchanged, Event.saved, failing] using stored
    | none =>
      have next : Attachments.step codec history ⟨.save attachment, failures⟩ =
          { store := Saved history.store (codec.toText attachment) attachment
            remembered := remember history.remembered (.save attachment) } := by
        simp [Attachments.step, Request.program, saveAttachment, transaction, Program.call,
          Program.eval, exec, failing, Program.ofExcept, Saved,
          Database.Contents.write]
      simpa [next, Event.saved, failing] using stored.save codec attachment
  | update attachment =>
    have unchanged : Attachments.step codec history ⟨.update attachment, failures⟩ = history :=
      stored.step_of_reads codec rfl rfl
    simpa [unchanged, Event.saved] using stored
  | delete id =>
    have unchanged : Attachments.step codec history ⟨.delete id, failures⟩ = history :=
      stored.step_of_reads codec rfl rfl
    simpa [unchanged, Event.saved] using stored

theorem stored_afterCalls (events : List Event) :
    Stored (afterCalls codec events) (events.filterMap Event.saved) := by
  suffices general : ∀ (history : History Text Document) saved, Stored history saved →
      Stored (StateMachine.finish (Attachments.step codec) history events)
        (saved ++ events.filterMap Event.saved) from
    general nothingSaved [] stored_nothingSaved
  induction events with
  | nil => exact fun history saved stored => by simpa using stored
  | cons event events ih =>
    intro history saved stored
    have later := ih _ _ (stored.step codec event)
    cases outcome : event.saved <;> simpa [outcome] using later

theorem Stored.forgotten (stored : Stored history saved) {id : Uuid}
    (unsaved : ∀ attachment ∈ saved, attachment.id ≠ id) : history.remembered id = none := by
  by_contra known
  obtain ⟨attachment, found⟩ := Option.ne_none_iff_exists'.mp known
  obtain ⟨member, own⟩ := stored.remembered id attachment found
  exact unsaved attachment member own

theorem Stored.gets_iff (stored : Stored history saved) (id : Uuid) :
    history.Gets codec id ↔ ∀ attachment ∈ saved, attachment.id ≠ id := by
  constructor
  · rintro gets attachment member rfl
    obtain ⟨text, string⟩ := stored.string attachment member
    have given : (getJson codec attachment.id).eval (exec wrongType) (fun _ => none)
        history.store = (.error wrongType, history.store) :=
      (begins_getJson codec attachment.id).eval_error (exec_jsonGet_string string)
    simp [History.Gets, answer, getAttachment, given] at gets
  · intro unsaved
    obtain ⟨continuation, reads, absent⟩ := getJson_nothing codec id
    simp [History.Gets, answer, getAttachment, stored.forgotten unsaved, reads, Program.eval,
      exec_jsonGet_nothing (stored.absent id unsaved), absent]

theorem eval_firstPage {α : Type} (userId : Uuid) (attachmentType : Option AttachmentType)
    (limit : Nat) (next : List Attachment → AttachmentProgram Text Document α)
    (store : AttachmentStore Text Document) :
    (listAttachments codec userId { attachmentType, limit, after := none } >>= next).eval
        (exec wrongType) (fun _ => none) store =
      (readMatching codec attachmentType (((above (store.sets (.userAttachments userId))
        none).take limit).map SortedSet.memberOf) >>= next).eval (exec wrongType) (fun _ => none)
          store := rfl

theorem begins_readMatching (filter : Option AttachmentType) (id : Uuid) (ids : List Uuid) :
    Begins (Command.jsonGet id : AttachmentCommand Text Document)
      (readMatching codec filter (id :: ids)) :=
  (begins_getJson codec id).bind _

theorem Stored.eval_allPages (stored : Stored history saved) {attachment : Attachment}
    (member : attachment ∈ saved) (filter : Option AttachmentType) (fuel : Nat) :
    ∃ error, answer (allPages codec attachment.userId filter 1 (fuel + 1) none) history.store =
      .error error := by
  have all : above (history.store.sets (.userAttachments attachment.userId)) none =
      (history.store.sets (.userAttachments attachment.userId)).entries := by
    simp [above]
  cases entries : (history.store.sets (.userAttachments attachment.userId)).entries with
  | nil =>
    have listed := (stored.listed attachment.userId attachment.id).mpr
      ⟨attachment, member, rfl, rfl⟩
    simp [SortedSet.members, entries] at listed
  | cons first others =>
    have listed : SortedSet.memberOf first ∈
        (history.store.sets (.userAttachments attachment.userId)).members := by
      simp [SortedSet.members, SortedSet.memberOf, entries]
    obtain ⟨other, known, own, _⟩ := (stored.listed _ _).mp listed
    obtain ⟨text, string⟩ := stored.string other known
    rw [own] at string
    refine ⟨wrongType, ?_⟩
    have first_page := begins_readMatching codec filter (SortedSet.memberOf first) []
    rw [answer, allPages, eval_firstPage, all, entries]
    exact congrArg Prod.fst ((first_page.bind _).eval_error (exec_jsonGet_string string))

theorem Stored.eval_allPages_none (stored : Stored history saved) {userId : Uuid}
    (unsaved : ∀ attachment ∈ saved, attachment.userId ≠ userId)
    (filter : Option AttachmentType) (limit fuel : Nat) :
    answer (allPages codec userId filter limit (fuel + 1) none) history.store = .ok [] := by
  have none_listed : (history.store.sets (.userAttachments userId)).members = [] := by
    apply List.eq_nil_iff_forall_not_mem.mpr
    intro id listed
    obtain ⟨attachment, member, _, owner⟩ := (stored.listed userId id).mp listed
    exact unsaved attachment member owner
  have entries : (history.store.sets (.userAttachments userId)).entries = [] :=
    List.map_eq_nil_iff.mp none_listed
  have empty : above (history.store.sets (.userAttachments userId)) none = [] := by
    simp [above, entries]
  rw [answer, allPages, eval_firstPage, empty, List.take_nil]
  rfl

theorem Stored.pages_iff (stored : Stored history saved) (userId : Uuid)
    (filter : Option AttachmentType) :
    (∀ limit, history.Pages codec userId filter limit) ↔
      ∀ attachment ∈ saved, attachment.userId ≠ userId := by
  constructor
  · rintro pages attachment member rfl
    obtain ⟨enough, shown, answers, _⟩ := pages 1
    obtain ⟨error, fails⟩ := stored.eval_allPages codec member filter enough
    exact nomatch (answers (enough + 1) (Nat.le_succ enough)).symm.trans fails
  · intro unsaved limit
    refine ⟨1, [], fun fuel enough => ?_, List.nodup_nil, fun attachment => ?_⟩
    · obtain ⟨more, rfl⟩ := Nat.exists_eq_add_of_le' enough
      exact stored.eval_allPages_none codec unsaved filter limit more
    · refine iff_of_false List.not_mem_nil ?_
      rintro ⟨found, owner, _⟩
      exact unsaved attachment (stored.remembered _ _ found).1 owner

/-- After any sequence of calls an attachment is got as it was saved last exactly if it was never
saved, and paging through the attachments of a user, with any filter, shows each of them once
exactly if none was ever saved. -/
theorem attachments_kept_iff_none_saved (events : List Event) :
    (∀ id, (afterCalls codec events).Gets codec id ↔
      ∀ event ∈ events, ∀ attachment, event.saved = some attachment → attachment.id ≠ id) ∧
    ∀ userId filter, (∀ limit, (afterCalls codec events).Pages codec userId filter limit) ↔
      ∀ event ∈ events, ∀ attachment, event.saved = some attachment →
        attachment.userId ≠ userId := by
  have stored : Stored (afterCalls codec events) (events.filterMap Event.saved) :=
    stored_afterCalls codec events
  have each (property : Attachment → Prop) :
      (∀ attachment ∈ events.filterMap Event.saved, property attachment) ↔
        ∀ event ∈ events, ∀ attachment, event.saved = some attachment → property attachment := by
    simp only [List.mem_filterMap]
    constructor
    · intro all event member attachment saves
      exact all attachment ⟨event, member, saves⟩
    · rintro all attachment ⟨event, member, saves⟩
      exact all event member attachment saves
  refine ⟨fun id => ?_, fun userId filter => ?_⟩
  · rw [stored.gets_iff codec id, each]
  · rw [stored.pages_iff codec userId filter, each]

/-- A picture that is saved. -/
def savedPicture : Event where
  request := .save (.new 1 2 3 .image "image/png" none 10 "3/2/1.png" 0)
  failures _ := none

/-- The attachment that was saved last is not got. -/
theorem saved_attachment_not_got :
    ¬ ∀ (codec : Codec String Json) (events : List Event) (id : Uuid),
      (afterCalls codec events).Gets codec id := by
  intro kept
  have gets := kept ⟨fun _ => "", fun _ => .error .forbidden⟩ [savedPicture] 1
  exact nomatch gets

end Attachments
end Mnemo
