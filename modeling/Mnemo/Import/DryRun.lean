import Mnemo.Import.Payload

/-!
# Dry runs

A dry run counts the rows of an import and the sessions that they name, and writes nothing.  It does
not count the session of the rows that name none when others name one.
-/

namespace Mnemo
namespace Payload

open Rows
open Import (ImportChatHistoryRequest ImportJobRecord ImportJobStatus ImportReport)
open Program (Ensures)
open Users (User)

/-! ## Jobs -/

/-- The rows of a request, to be written or counted. -/
def importJob (req : ImportChatHistoryRequest) (messages : List ImportMessage) : ImportJob :=
  { source := req.source
    userIdentifier := Text.trim req.user
    messages
    defaultSession := req.defaultSession
    dryRun := req.dryRun }

/-- The record of a job at its end. -/
def finish (job : ImportJobRecord) (finishedAt : DateTime) :
    Except (List String) ImportReport → ImportJobRecord
  | .error errors => job.abandoned errors finishedAt
  | .ok report => job.reported report finishedAt

section Jobs

variable (reader : PayloadReader) (showTime : DateTime → String) (clock : Nat → Nat → DateTime)

/-- Run a job and keep its record. -/
def runImportJob (req : ImportChatHistoryRequest) (job : ImportJobRecord) :
    RowProgram ImportJobRecord := do
  let startedAt ← now
  let job := job.started startedAt
  match parseImportMessages reader clock req.payload req.source with
  | .error error =>
      let finishedAt ← now
      return finish job finishedAt (.error [error])
  | .ok messages =>
      let job := { job with totalMessages := messages.length }
      let outcome ← Rows.runImportJob showTime (importJob req messages)
      let finishedAt ← now
      return finish job finishedAt outcome

/-- What the record of a job shows of how it went. -/
structure ImportCounts where
  status : ImportJobStatus
  totalMessages : Nat
  importedMessages : Nat
  failedMessages : Nat
  sessionsTouched : Nat
  deriving DecidableEq

def counts (job : ImportJobRecord) : ImportCounts :=
  { status := job.status
    totalMessages := job.totalMessages
    importedMessages := job.importedMessages
    failedMessages := job.failedMessages
    sessionsTouched := job.sessionsTouched }

/-- How a run of the job ends. -/
def outcome (inputs : Nat → RowInput) (store : Store) (job : ImportJobRecord)
    (req : ImportChatHistoryRequest) : Except MnemoError ImportJobRecord :=
  ((runImportJob reader showTime clock req job).eval exec inputs store).1

/-- The dry run of a job and the real one end with the same counts. -/
def Predicts (inputs : Nat → RowInput) (store : Store) (job : ImportJobRecord)
    (req : ImportChatHistoryRequest) : Prop :=
  ∃ preview result,
    outcome reader showTime clock inputs store job { req with dryRun := true } = .ok preview ∧
      outcome reader showTime clock inputs store job { req with dryRun := false } = .ok result ∧
      counts preview = counts result

end Jobs

/-! ## The sessions of the rows -/

/-- The session of the rows that name none. -/
def fallbackSession (defaultSession : Option String) : String :=
  (trimmed defaultSession).getD "imported"

/-- There are rows; and all of them name a session, or none does, or one names the session that the
others fall back to. -/
def Uniform (defaultSession : Option String) (messages : List ImportMessage) : Prop :=
  messages ≠ [] ∧ ((∀ message ∈ messages, message.session ≠ none) ∨
    (∀ message ∈ messages, message.session = none) ∨
      ∃ message ∈ messages, message.session = some (fallbackSession defaultSession))

/-- The rows cannot be parsed, or their instants are refused, or their sessions are uniform. -/
def Previewable (reader : PayloadReader) (clock : Nat → Nat → DateTime) (checkedAt : DateTime)
    (req : ImportChatHistoryRequest) : Prop :=
  ∀ messages, parseImportMessages reader clock req.payload req.source = .ok messages →
    (∀ message ∈ messages, message.createdAt ≤ checkedAt + maxFutureDrift ∧
      checkedAt - maxAge ≤ message.createdAt) →
    Uniform req.defaultSession messages

/-- The sessions of the rows. -/
def touched (job : ImportJob) : List String := (job.messages.map job.sessionName).dedup

theorem nodup_touched (job : ImportJob) : (touched job).Nodup := List.nodup_dedup _

theorem sessionName_eq (job : ImportJob) (message : ImportMessage) :
    job.sessionName message = message.session.getD (fallbackSession job.defaultSession) := by
  cases named : message.session <;> simp [ImportJob.sessionName, fallbackSession, named]

theorem mem_touched {job : ImportJob} {name : String} : name ∈ touched job ↔
    (∃ message ∈ job.messages, message.session = some name) ∨
      name = fallbackSession job.defaultSession ∧
        ∃ message ∈ job.messages, message.session = none := by
  simp only [touched, List.mem_dedup, List.mem_map, sessionName_eq]
  constructor
  · rintro ⟨message, member, rfl⟩
    cases named : message.session with
    | none => exact .inr ⟨rfl, message, member, named⟩
    | some name => exact .inl ⟨message, member, named⟩
  · rintro (⟨message, member, named⟩ | ⟨rfl, message, member, unnamed⟩)
    · exact ⟨message, member, by rw [named, Option.getD_some]⟩
    · exact ⟨message, member, by rw [unnamed, Option.getD_none]⟩

/-- The sessions that the rows name. -/
def namedSessions (messages : List ImportMessage) : List String :=
  (messages.filterMap ImportMessage.session).dedup

theorem nodup_namedSessions (messages : List ImportMessage) : (namedSessions messages).Nodup :=
  List.nodup_dedup _

theorem mem_namedSessions {messages : List ImportMessage} {name : String} :
    name ∈ namedSessions messages ↔ ∃ message ∈ messages, message.session = some name := by
  simp [namedSessions]

theorem namedSessions_eq_nil {messages : List ImportMessage} :
    namedSessions messages = [] ↔ ∀ message ∈ messages, message.session = none := by
  simp [namedSessions, List.dedup_eq_nil, List.filterMap_eq_nil_iff]

theorem touched_length {job : ImportJob} :
    (touched job).length = (namedSessions job.messages).length +
      if (∃ message ∈ job.messages, message.session = none) ∧
        fallbackSession job.defaultSession ∉ namedSessions job.messages then 1 else 0 := by
  split
  · rename_i falls
    obtain ⟨unnamed, fresh⟩ := falls
    have same : (touched job).Perm (fallbackSession job.defaultSession ::
        namedSessions job.messages) := by
      refine (List.perm_ext_iff_of_nodup (nodup_touched job)
        (List.nodup_cons.mpr ⟨fresh, nodup_namedSessions _⟩)).mpr fun name => ?_
      rw [mem_touched, List.mem_cons, mem_namedSessions, and_iff_left unnamed, or_comm]
    exact same.length_eq
  · rename_i falls
    have same : (touched job).Perm (namedSessions job.messages) := by
      refine (List.perm_ext_iff_of_nodup (nodup_touched job) (nodup_namedSessions _)).mpr
        fun name => ?_
      rw [mem_touched, ← mem_namedSessions]
      constructor
      · rintro (named | ⟨rfl, unnamed⟩)
        · exact named
        · exact not_not.mp fun fresh => falls ⟨unnamed, fresh⟩
      · exact .inl
    exact same.length_eq

theorem sessionNames_length_iff {job : ImportJob} :
    job.sessionNames.length = (touched job).length ↔ Uniform job.defaultSession job.messages := by
  have dry : job.sessionNames.length = if (namedSessions job.messages).isEmpty then 1
      else (namedSessions job.messages).length := by
    simp only [ImportJob.sessionNames, apply_ite List.length, List.length_singleton]
    rfl
  rw [dry, touched_length, Uniform, ← namedSessions_eq_nil, ← mem_namedSessions]
  cases rows : job.messages with
  | nil => simp [namedSessions]
  | cons first others =>
    by_cases none_named : namedSessions (first :: others) = []
    · have unnamed := namedSessions_eq_nil.mp none_named
      have falls : ∃ message ∈ first :: others, message.session = none :=
        ⟨first, List.mem_cons_self, unnamed first List.mem_cons_self⟩
      simp only [none_named, falls, List.not_mem_nil, not_false_eq_true, and_self, if_true,
        List.isEmpty_nil, List.length_nil, zero_add, true_or, or_true, ne_eq, reduceCtorEq]
    · have all_named : (∀ message ∈ first :: others, message.session ≠ none) ↔
          ¬ ∃ message ∈ first :: others, message.session = none := by
        simp only [not_exists, not_and, ne_eq]
      rw [all_named, if_neg (by simpa using none_named)]
      simp only [none_named, false_or, ne_eq, reduceCtorEq, not_false_eq_true, true_and]
      by_cases falls : ∃ message ∈ first :: others, message.session = none
      · by_cases fresh : fallbackSession job.defaultSession ∈ namedSessions (first :: others)
        · rw [if_neg fun both => both.2 fresh]
          exact ⟨fun _ => .inr fresh, fun _ => rfl⟩
        · rw [if_pos ⟨falls, fresh⟩]
          constructor
          · exact fun same => absurd same (Nat.ne_of_lt (Nat.lt_succ_self _))
          · exact fun either => either.elim (absurd falls) fun named => absurd named fresh
      · rw [if_neg fun both => falls both.1]
        exact ⟨fun _ => .inl falls, fun _ => rfl⟩

/-! ## Runs without failures -/

section Runs

/-- The store does not fail. -/
abbrev Healthy (input : RowInput) : Prop := input.failure = none

/-- However a healthy store answers, the program ends as described. -/
abbrev Ends {α : Type} (post : Except MnemoError α → Prop) (program : RowProgram α)
    (store : Store) : Prop :=
  Ensures exec Healthy (fun _ _ => True) (fun outcome _ => post outcome) program store

/-- What an import has done when it comes to some rows. -/
structure Imported (job : ImportJob) (before : List ImportMessage) (progress : ImportProgress) :
    Prop where
  imported : progress.importedMessages = before.length
  failed : progress.failedMessages = 0
  nodup : (progress.sessions.map Prod.fst).Nodup
  names : ∀ name, name ∈ progress.sessions.map Prod.fst ↔ name ∈ before.map job.sessionName

theorem Imported.start (job : ImportJob) : Imported job [] .start :=
  ⟨rfl, rfl, List.nodup_nil, fun _ => Iff.rfl⟩

theorem lookup_isSome_iff {sessions : List (String × Episodes.Session)} {name : String} :
    (sessions.lookup name).isSome ↔ name ∈ sessions.map Prod.fst := by
  induction sessions with
  | nil => simp
  | cons entry sessions ih =>
    rw [List.lookup_cons, List.map_cons, List.mem_cons]
    cases same : name == entry.1 with
    | true => simp [beq_iff_eq.mp same]
    | false => simp [ih, beq_eq_false_iff_ne.mp same]

theorem Imported.row {job : ImportJob} {before : List ImportMessage} {progress : ImportProgress}
    (done : Imported job before progress) (message : ImportMessage) (session : Episodes.Session) :
    Imported job (before ++ [message])
      { progress.remember (job.sessionName message) session with
        importedMessages := progress.importedMessages + 1 } := by
  obtain ⟨imported, failed, nodup, names⟩ := done
  refine ⟨by simp [imported], failed, ?_, fun name => ?_⟩
  · simp only [ImportProgress.remember]
    split
    · exact nodup
    · rename_i fresh
      rw [lookup_isSome_iff] at fresh
      exact List.nodup_cons.mpr ⟨fresh, nodup⟩
  · rw [List.map_append, List.mem_append, ← names]
    simp only [ImportProgress.remember, List.map_cons, List.map_nil, List.mem_singleton]
    split
    · rename_i known
      rw [lookup_isSome_iff] at known
      exact ⟨.inl, fun either => either.elim id fun same => same ▸ known⟩
    · rw [List.map_cons, List.mem_cons, or_comm]

theorem ends_importMessage {job : ImportJob} {user : User} {index : Nat} {message : ImportMessage}
    {before : List ImportMessage} {progress : ImportProgress} (done : Imported job before progress)
    {post : Except MnemoError ImportProgress → Prop}
    {next : ImportProgress → RowProgram ImportProgress} {store : Store}
    (rest : ∀ progress store, Imported job (before ++ [message]) progress →
      Ends post (next progress) store) :
    Ends post (importMessage job user index message progress >>= next) store := by
  unfold importMessage importSession
  dsimp only
  cases cached : progress.sessions.lookup (job.sessionName message) with
  | some session =>
    rw [Program.bind_bind]
    refine .perform trivial fun input healthy => ?_
    simp only [exec, healthy]
    exact rest _ _ (done.row message session)
  | none =>
    rw [Program.bind_bind]
    refine .perform trivial fun input healthy => ?_
    simp only [exec, healthy]
    refine .perform trivial fun input healthy => ?_
    simp only [exec, healthy]
    exact rest _ _ (done.row message _)

theorem ends_importRows {job : ImportJob} {user : User} {index : Nat}
    {before messages : List ImportMessage} {progress : ImportProgress}
    (done : Imported job before progress) (store : Store) :
    Ends (fun outcome => ∃ final, outcome = .ok final ∧ Imported job (before ++ messages) final)
      (importRows job user index messages progress) store := by
  induction messages generalizing index before progress store with
  | nil => exact .done ⟨progress, rfl, by simpa using done⟩
  | cons message messages ih =>
    apply ends_importMessage done
    intro progress store done
    simpa using ih done store

/-- The rows of a job that is not a dry run are written for its user. -/
def writeRows (job : ImportJob) (user : User) :
    RowProgram (Except (List String) ImportReport) := do
  let progress ← importRows job user 0 job.messages .start
  return .ok
    { importedMessages := progress.importedMessages
      failedMessages := progress.failedMessages
      sessionsTouched := progress.sessions.length
      errors := progress.errors }

/-- Every row has been written. -/
def Complete (job : ImportJob) (sessions : List String) (report : ImportReport) : Prop :=
  report.importedMessages = job.messages.length ∧ report.failedMessages = 0 ∧
    report.sessionsTouched = sessions.length

theorem ends_writeRows (job : ImportJob) (user : User) (store : Store) :
    Ends (fun outcome => ∃ report, outcome = .ok (.ok report) ∧ Complete job (touched job) report)
      (writeRows job user) store := by
  refine Ensures.bind (ends_importRows (.start job) store) ?_ ?_
  · rintro progress store ⟨final, same, done⟩
    obtain rfl := Except.ok.inj same
    have sessions : (progress.sessions.map Prod.fst).Perm (touched job) :=
      (List.perm_ext_iff_of_nodup done.nodup (nodup_touched job)).mpr fun name => by
        rw [done.names, touched, List.mem_dedup, List.nil_append]
    refine .done ⟨_, rfl, done.imported, done.failed, ?_⟩
    rw [← sessions.length_eq, List.length_map]
  · rintro error store ⟨final, same, _⟩
    exact nomatch same

theorem ends_realRun (job : ImportJob) (store : Store)
    {post : Except MnemoError ImportJobRecord → Prop}
    {next : Except (List String) ImportReport → RowProgram ImportJobRecord}
    (rest : ∀ report store, Complete job (touched job) report → Ends post (next (.ok report)) store) :
    Ends post ((do
      match ← (findOrCreateUser job.userIdentifier).attempt with
      | .error error => return .error [error.message]
      | .ok user => writeRows job user) >>= next) store := by
  have written (user : User) (store : Store) : Ends post (writeRows job user >>= next) store := by
    refine Ensures.bind (ends_writeRows job user store) ?_ ?_
    · rintro outcome store ⟨report, same, complete⟩
      obtain rfl := Except.ok.inj same
      exact rest report store complete
    · rintro error store ⟨report, same, _⟩
      exact nomatch same
  refine .perform trivial fun input healthy => ?_
  cases found : store.users job.userIdentifier with
  | some user =>
    simp only [exec, healthy, found]
    exact written user _
  | none =>
    simp only [exec, healthy, found]
    exact written _ _

variable {reader : PayloadReader} {showTime : DateTime → String} {clock : Nat → Nat → DateTime}
  {inputs : Nat → RowInput} {store : Store} {job : ImportJobRecord}
  {req : ImportChatHistoryRequest}

theorem eval_now {α : Type} {next : DateTime → RowProgram α} :
    (now >>= next).eval exec inputs store = (next (inputs 0).now).eval exec
      (fun position => inputs (position + 1)) store := rfl

/-- The counts of a job whose rows cannot be imported. -/
def failedCounts (job : ImportJobRecord) (totalMessages : Nat) : ImportCounts :=
  { counts job with status := .failed, totalMessages }

/-- The counts of a job that imports all rows. -/
def completedCounts (job : ImportJob) : ImportCounts :=
  { status := .completed
    totalMessages := job.messages.length
    importedMessages := job.messages.length
    failedMessages := 0
    sessionsTouched := (if job.dryRun then job.sessionNames else touched job).length }

theorem outcome_of_error {error : String}
    (unparsed : parseImportMessages reader clock req.payload req.source = .error error) :
    ∃ record, outcome reader showTime clock inputs store job req = .ok record ∧
      counts record = failedCounts job job.totalMessages := by
  unfold outcome runImportJob
  rw [eval_now, unparsed]
  exact ⟨_, rfl, rfl⟩

theorem outcome_of_late {messages : List ImportMessage}
    (parsed : parseImportMessages reader clock req.payload req.source = .ok messages)
    (refused : timestampErrors showTime (inputs 1).now 0 messages [] ≠ []) :
    ∃ record, outcome reader showTime clock inputs store job req = .ok record ∧
      counts record = failedCounts job messages.length := by
  unfold outcome runImportJob Rows.runImportJob
  rw [eval_now, parsed]
  dsimp only
  rw [Program.bind_bind, eval_now]
  have nonempty : (!(timestampErrors showTime (inputs 1).now 0
      (importJob req messages).messages []).isEmpty) = true := by
    simpa [importJob] using refused
  rw [if_pos nonempty]
  exact ⟨_, rfl, rfl⟩

theorem outcome_of_valid (healthy : ∀ position, Healthy (inputs position))
    {messages : List ImportMessage}
    (parsed : parseImportMessages reader clock req.payload req.source = .ok messages)
    (valid : timestampErrors showTime (inputs 1).now 0 messages [] = []) :
    ∃ record, outcome reader showTime clock inputs store job req = .ok record ∧
      counts record = completedCounts (importJob req messages) := by
  unfold outcome runImportJob Rows.runImportJob
  rw [eval_now, parsed]
  dsimp only
  rw [Program.bind_bind, eval_now]
  have empty : (!(timestampErrors showTime (inputs 1).now 0
      (importJob req messages).messages []).isEmpty) = false := by
    simpa [importJob] using valid
  rw [if_neg (by rw [empty]; exact Bool.false_ne_true)]
  cases dry : (importJob req messages).dryRun with
  | true =>
    rw [completedCounts, dry]
    exact ⟨_, rfl, rfl⟩
  | false =>
    rw [if_neg Bool.false_ne_true]
    apply Ensures.eval (@ends_realRun (importJob req messages) _ (fun outcome => ∃ record,
      outcome = .ok record ∧ counts record = completedCounts (importJob req messages)) _ ?_)
      fun position => healthy (position + 1 + 1)
    rintro report store ⟨imported, failed, sessions⟩
    refine .perform trivial fun input _ => .done ⟨_, rfl, ?_⟩
    simp only [completedCounts, counts, finish, ImportJobRecord.reported, dry, imported, failed,
      sessions]
    rfl

theorem predicts_iff {preview result : ImportCounts}
    (dry : ∃ record, outcome reader showTime clock inputs store job { req with dryRun := true } =
      .ok record ∧ counts record = preview)
    (real : ∃ record, outcome reader showTime clock inputs store job { req with dryRun := false } =
      .ok record ∧ counts record = result) :
    Predicts reader showTime clock inputs store job req ↔ preview = result := by
  obtain ⟨first, dryEnds, rfl⟩ := dry
  obtain ⟨second, realEnds, rfl⟩ := real
  constructor
  · rintro ⟨preview, result, previewed, resulted, same⟩
    obtain rfl := Except.ok.inj (dryEnds.symm.trans previewed)
    obtain rfl := Except.ok.inj (realEnds.symm.trans resulted)
    exact same
  · exact fun same => ⟨first, second, dryEnds, realEnds, same⟩

/-- The dry run and the real one end with the same counts when the payload is not parsed, or the
instants of its rows are refused, or the sessions of the rows are uniform, and not otherwise. -/
theorem dryRun_predicts_iff (healthy : ∀ position, (inputs position).failure = none) :
    Predicts reader showTime clock inputs store job req ↔
      Previewable reader clock (inputs 1).now req := by
  unfold Previewable
  cases parsed : parseImportMessages reader clock req.payload req.source with
  | error error =>
      rw [predicts_iff (outcome_of_error parsed) (outcome_of_error parsed)]
      constructor
      · intro _ other same
        exact nomatch same
      · exact fun _ => rfl
  | ok messages =>
      have inTime_iff := @timestampErrors_eq_nil showTime (inputs 1).now 0 messages []
      rw [and_iff_right rfl] at inTime_iff
      by_cases valid : timestampErrors showTime (inputs 1).now 0 messages [] = []
      · rw [predicts_iff (outcome_of_valid healthy parsed valid)
          (outcome_of_valid healthy parsed valid)]
        have same_iff : completedCounts (importJob { req with dryRun := true } messages) =
            completedCounts (importJob { req with dryRun := false } messages) ↔
              Uniform req.defaultSession messages := by
          refine Iff.trans ⟨fun same => ?_, fun same => ?_⟩
            (@sessionNames_length_iff (importJob req messages))
          · exact (ImportCounts.mk.inj same).2.2.2.2
          · simp only [completedCounts, importJob, ImportCounts.mk.injEq, true_and]
            exact same
        rw [same_iff]
        constructor
        · intro uniform other same _
          obtain rfl := Except.ok.inj same
          exact uniform
        · exact fun previewable => previewable messages rfl (inTime_iff.mp valid)
      · rw [predicts_iff (outcome_of_late parsed valid) (outcome_of_late parsed valid)]
        constructor
        · intro _ other same inTime
          obtain rfl := Except.ok.inj same
          exact absurd (inTime_iff.mpr inTime) valid
        · exact fun _ => rfl

/-! ### Rows of which some name a session -/

/-- A reader of payloads that hold no texts of JSON and no dates. -/
def plainReader : PayloadReader :=
  { fromStr := fun _ => .error "expected value"
    asF64 := fun _ => 0
    parseFromRfc3339 := fun _ => none
    calendar := { first := 0, last := 0, first_le := Calendar.epoch_le, le_last := Calendar.epoch_le } }

/-- A row of a history, which may name a session. -/
def plainRow (content : String) (session : Option String) : Json :=
  .object ([("content", .string content), ("role", .string "user")] ++
    session.toList.map fun name => ("session", .string name))

/-- A request to import some rows. -/
def plainRequest (rows : List Json) : ImportChatHistoryRequest :=
  { user := "kim"
    source := .ndjson
    payload := .array rows
    defaultSession := none
    dryRun := false
    idempotencyKey := none }

/-- A store that finds every session, at one moment. -/
def plainInput : RowInput :=
  { failure := none, now := 0, id := 1
    session :=
      { id := 1, userId := 1, agentId := none, episodeCount := 0, summary := none
        summaryTokens := 0, createdAt := 0, updatedAt := 0, lastActivityAt := none
        name := some "a", metadata := .object [], headEpisodeId := none, headUpdatedAt := none
        headVersion := 0 } }

/-- The clock at that moment. -/
abbrev stopped : Nat → Nat → DateTime := fun _ _ => 0

def emptyStore : Store :=
  { users := fun _ => none, issued := [], created := [] }

/-- The job of a request before it runs. -/
def plainJob : ImportJobRecord := Import.newJob (plainRequest []) 1 0

/-- Rows which all name a session are counted as they are written. -/
theorem dryRun_predicts_named :
    Predicts plainReader toString stopped (fun _ => plainInput) emptyStore plainJob
      (plainRequest [plainRow "hi" (some "a"), plainRow "there" (some "b")]) := by
  refine (dryRun_predicts_iff fun _ => rfl).mpr fun messages parsed _ => ?_
  have rows : messages = [⟨some "a", .user, "hi", 0⟩, ⟨some "b", .user, "there", 0⟩] :=
    (Except.ok.inj parsed).symm
  rw [rows]
  exact ⟨List.cons_ne_nil _ _, .inl (by simp)⟩

/-- The messages of two rows of which the first names a session. -/
def mixedMessages : List ImportMessage :=
  [⟨some "a", .user, "hi", 0⟩, ⟨none, .user, "there", 0⟩]

/-- The request to import them. -/
def mixedRequest : ImportChatHistoryRequest :=
  plainRequest [plainRow "hi" (some "a"), plainRow "there" none]

/-- The dry run counts the session that one row names, and the real run writes to two sessions. -/
theorem dryRun_omits_fallback :
    ¬ ∀ (reader : PayloadReader) (showTime : DateTime → String) (clock : Nat → Nat → DateTime)
      (inputs : Nat → RowInput) (store : Store) (job : ImportJobRecord)
      (req : ImportChatHistoryRequest), (∀ position, (inputs position).failure = none) →
      Predicts reader showTime clock inputs store job req := by
  intro always
  have predicts := always plainReader toString stopped (fun _ => plainInput) emptyStore plainJob
    mixedRequest fun _ => rfl
  have parsed : parseImportMessages plainReader stopped mixedRequest.payload mixedRequest.source =
      .ok mixedMessages := rfl
  have inTime : timestampErrors toString plainInput.now 0 mixedMessages [] = [] :=
    timestampErrors_eq_nil.mpr ⟨rfl, by decide⟩
  have same := (predicts_iff (outcome_of_valid (fun _ => rfl) parsed inTime)
    (outcome_of_valid (fun _ => rfl) parsed inTime)).mp predicts
  have sessions := (ImportCounts.mk.inj same).2.2.2.2
  have counted : 1 = 2 := sessions
  exact absurd counted (by decide)

end Runs
end Payload
end Mnemo
