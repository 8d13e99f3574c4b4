import Mathlib
import Mnemo.Attachment.Model
import Mnemo.Core.Text
import Mnemo.Lib.Protocol

/-!
# Uploads and their background tasks

An upload spawns a task that analyses the file, and then saves the record of the attachment; the
task reads the record when the analysis is there, and saves what came out.
-/

namespace Mnemo
namespace Attachments

open Memory (ProcessingStatus)

/-- The operations on text that depend on the Unicode tables. -/
structure CharTables where
  toLowercase : String → String
  isAlphabetic : Char → Bool
  isAlphanumeric : Char → Bool

/-- Formats of images. -/
inductive ImageFormat where
  | jpeg
  | png
  | gif
  | webp
  deriving DecidableEq

/-- Formats of audio files. -/
inductive AudioFormat where
  | mp3
  | mp4
  | wav
  | webm
  | flac
  | ogg
  deriving DecidableEq

/-- Formats of documents. -/
inductive DocumentFormat where
  | pdf
  | docx
  | doc
  | pptx
  | xlsx
  | rtf
  | txt
  | markdown
  | html
  | epub
  deriving DecidableEq

variable (tables : CharTables)

/-- The format of an image, from its MIME type. -/
def ImageFormat.fromMime (mime : String) : Option ImageFormat :=
  match tables.toLowercase mime with
  | "image/jpeg" | "image/jpg" => some .jpeg
  | "image/png" => some .png
  | "image/gif" => some .gif
  | "image/webp" => some .webp
  | _ => none

/-- The format of an audio file, from its MIME type. -/
def AudioFormat.fromMime (mime : String) : Option AudioFormat :=
  match tables.toLowercase mime with
  | "audio/mpeg" | "audio/mp3" => some .mp3
  | "audio/mp4" | "audio/m4a" | "audio/x-m4a" => some .mp4
  | "audio/wav" | "audio/x-wav" | "audio/wave" => some .wav
  | "audio/webm" => some .webm
  | "audio/flac" | "audio/x-flac" => some .flac
  | "audio/ogg" | "audio/vorbis" => some .ogg
  | _ => none

/-- The format of a document, from its MIME type. -/
def DocumentFormat.fromMime (mime : String) : Option DocumentFormat :=
  match tables.toLowercase mime with
  | "application/pdf" => some .pdf
  | "application/vnd.openxmlformats-officedocument.wordprocessingml.document" => some .docx
  | "application/msword" => some .doc
  | "application/vnd.openxmlformats-officedocument.presentationml.presentation" => some .pptx
  | "application/vnd.openxmlformats-officedocument.spreadsheetml.sheet" => some .xlsx
  | "application/rtf" | "text/rtf" => some .rtf
  | "text/plain" => some .txt
  | "text/markdown" | "text/x-markdown" => some .markdown
  | "text/html" | "application/xhtml+xml" => some .html
  | "application/epub+zip" => some .epub
  | _ => none

/-! ## Texts of errors -/

/-- Replace a part of a text wherever it occurs, from left to right; `skipped` characters belong to
the last occurrence. -/
def replaceFrom (part substitute : List Char) : Nat → List Char → List Char
  | _, [] => []
  | skipped + 1, _ :: rest => replaceFrom part substitute skipped rest
  | 0, character :: rest =>
      if part.isPrefixOf (character :: rest) then
        substitute ++ replaceFrom part substitute (part.length - 1) rest
      else character :: replaceFrom part substitute 0 rest

/-- Replace long words of letters and digits. -/
def redactSecrets (text : String) : String :=
  let words := (text.toList.splitOnP Text.isWhitespace).filter fun word => !word.isEmpty
  let strip (word : List Char) : List Char := word.dropWhile fun character =>
    !tables.isAlphanumeric character && character != '-' && character != '_'
  words.foldl (fun result word =>
    let clean := String.ofList (strip (strip word).reverse).reverse
    if 24 < Text.byteLength clean && clean.toList.any tables.isAlphabetic &&
        clean.toList.any Char.isDigit then
      String.ofList (replaceFrom clean.toList "[REDACTED]".toList 0 result.toList)
    else result) text

/-- Hide what the error of a provider may disclose. -/
def sanitizeProviderError (provider unavailable : String) (error : String) : String :=
  let mentions (part : String) : Bool := Text.occursIn part error
  if mentions "API" || mentions "key" then
    if mentions "401" || mentions "Unauthorized" then
      "Authentication failed with " ++ provider
    else if mentions "403" || mentions "Forbidden" then "Access denied by " ++ provider
    else if mentions "429" || mentions "rate" then "Rate limit exceeded for " ++ provider
    else if mentions "500" || mentions "502" || mentions "503" then
      unavailable ++ " temporarily unavailable"
    else redactSecrets tables error
  else redactSecrets tables error

/-- Hide what the error of a vision provider may disclose. -/
def sanitizeVisionError : String → String :=
  sanitizeProviderError tables "vision provider" "Vision provider"

/-- Hide what the error of a transcription provider may disclose. -/
def sanitizeTranscriptionError : String → String :=
  sanitizeProviderError tables "transcription provider" "Transcription provider"

/-- Hide what the error of a document parser may disclose. -/
def sanitizeDocumentError (error : String) : String :=
  let mentions (part : String) : Bool := Text.occursIn part error
  if mentions "/" || mentions "\\" then "Document parsing failed"
  else if mentions "memory" || mentions "allocation" then "Document too complex to parse"
  else if mentions "corrupt" || mentions "invalid" then "Document format invalid or corrupted"
  else redactSecrets tables error

/-! ## What the providers answer -/

/-- What was seen in an image. -/
structure VisionAnalysis where
  description : String

/-- What was heard in an audio file. -/
structure Transcription where
  text : String
  durationSecs : Option ℚ

/-- What was read in a document. -/
structure ParsedDocument where
  title : Option String
  pageCount : Nat
  chunks : List String

/-- The first bytes of a text, if they end at a character; a shorter text as a whole. -/
def takeBytes : Nat → List Char → Option (List Char)
  | 0, _ => some []
  | _ + 1, [] => some []
  | count + 1, character :: rest =>
      if character.utf8Size ≤ count + 1 then
        (takeBytes (count + 1 - character.utf8Size) rest).map (character :: ·)
      else none

/-- The description of a document: the code panics where its first chunks cannot be cut off. -/
def documentDescription (parsed : ParsedDocument) : Option String :=
  let chunkText := "\n\n".intercalate (parsed.chunks.take 3)
  (takeBytes 1000 chunkText.toList).map fun start =>
    match parsed.title with
    | some title =>
        "Document: " ++ title ++ "\nPages: " ++ toString parsed.pageCount ++ "\n\n" ++
          String.ofList start
    | none =>
        "Document (" ++ toString parsed.pageCount ++ " pages, " ++
          toString parsed.chunks.length ++ " chunks)\n\n" ++ String.ofList start

/-! ## Programs -/

/-- The contents of a file. -/
abbrev FileData : Type := List UInt8

/-- A background task: the attachment it is for, and what it works on. -/
inductive Work where
  | vision (attachmentId : Uuid) (data : FileData) (format : ImageFormat) (modelName : String)
  | transcription (attachmentId : Uuid) (data : FileData) (format : AudioFormat)
      (filename : Option String) (modelName : String)
  | document (attachmentId : Uuid) (data : FileData) (format : DocumentFormat)

/-- The commands of uploads and of their tasks. -/
inductive UploadCommand where
  | blobPut (key : String) (data : FileData) (mime : String)
  | blobGet (key : String)
  | presignGet (key : String)
  | analyze (data : FileData) (format : ImageFormat)
  | transcribe (data : FileData) (format : AudioFormat) (filename : Option String)
  | parse (data : FileData) (format : DocumentFormat)
  | spawn (work : Work)
  | getAttachment (id : Uuid)
  | saveAttachment (attachment : Attachment)

/-- The type of the reply to a command; providers answer with the text of an error where they
fail. -/
def UploadCommand.Reply : UploadCommand → Type
  | .blobPut _ _ _ | .spawn _ | .saveAttachment _ => Unit
  | .blobGet _ => Option FileData
  | .presignGet _ => Option String
  | .analyze _ _ => Except String VisionAnalysis
  | .transcribe _ _ _ => Except String Transcription
  | .parse _ _ => Except String ParsedDocument
  | .getAttachment _ => Option Attachment

/-- How a program ends that does not end with a value. -/
inductive Failure where
  | storage (message : String)
  | notFound (resourceType id : String)
  | panic

/-- A program of an upload or of a task. -/
abbrev UploadProgram (α : Type) : Type :=
  Program UploadCommand UploadCommand.Reply Failure α

/-- Perform a command. -/
def perform (command : UploadCommand) : UploadProgram command.Reply := Program.call command

/-- Read the record of an attachment, change it and save it. -/
def updateStored (attachmentId : Uuid) (change : Attachment → Attachment) :
    UploadProgram Unit := do
  match ← perform (.getAttachment attachmentId) with
  | none => Program.fail (.notFound "Attachment" attachmentId.toText)
  | some attachment => perform (.saveAttachment (change attachment))

/-- Record what was seen in an image. -/
def updateAttachmentWithVision (attachmentId : Uuid) (description modelName : String) :
    UploadProgram Unit :=
  updateStored attachmentId fun attachment =>
    (attachment.setDescription description).markCompleted modelName

/-- Record what was heard in an audio file. -/
def updateAttachmentWithTranscription (attachmentId : Uuid) (transcript : String)
    (durationSecs : Option ℚ) (modelName : String) : UploadProgram Unit :=
  updateStored attachmentId fun attachment =>
    let withText := attachment.setTranscript transcript
    (match durationSecs with
      | some duration => withText.setDuration duration
      | none => withText).markCompleted modelName

/-- Record what was read in a document. -/
def updateAttachmentWithDocument (attachmentId : Uuid) (description : String) :
    UploadProgram Unit :=
  updateStored attachmentId fun attachment =>
    (attachment.setDescription description).markCompleted "document-parser"

/-- Record that the processing failed. -/
def markAttachmentFailed (attachmentId : Uuid) (error : String) : UploadProgram Unit :=
  updateStored attachmentId fun attachment => attachment.markFailed error

/-- The program of a background task. -/
def backgroundTask : Work → UploadProgram Unit
  | .vision attachmentId data format modelName => do
      match ← perform (.analyze data format) with
      | .ok analysis =>
          updateAttachmentWithVision attachmentId analysis.description modelName
      | .error error =>
          markAttachmentFailed attachmentId
            ("Vision processing failed: " ++ sanitizeVisionError tables error)
  | .transcription attachmentId data format filename modelName => do
      match ← perform (.transcribe data format filename) with
      | .ok result =>
          updateAttachmentWithTranscription attachmentId result.text result.durationSecs modelName
      | .error error =>
          markAttachmentFailed attachmentId
            ("Transcription failed: " ++ sanitizeTranscriptionError tables error)
  | .document attachmentId data format => do
      match ← perform (.parse data format) with
      | .ok parsed =>
          match documentDescription parsed with
          | some description => updateAttachmentWithDocument attachmentId description
          | none => Program.fail .panic
      | .error error =>
          markAttachmentFailed attachmentId
            ("Document parsing failed: " ++ sanitizeDocumentError tables error)

/-- A provider that analyses files. -/
structure Provider (Format : Type) where
  maxSize : Nat
  supportsFormat : Format → Bool
  modelName : String

/-- How files are processed. -/
structure ProcessingConfig where
  syncProcessing : Bool
  /-- The largest document that is parsed. -/
  maxSizeBytes : Nat

/-- The providers that are configured. -/
structure Services where
  vision : Option (Provider ImageFormat)
  visionConfig : Option ProcessingConfig
  transcription : Option (Provider AudioFormat)
  transcriptionConfig : Option ProcessingConfig
  /-- The formats that are parsed. -/
  document : Option (DocumentFormat → Bool)
  documentConfig : Option ProcessingConfig

/-- A file that passed the checks of the request, and what is drawn for its record. -/
structure Upload where
  episodeId : Uuid
  userId : Uuid
  attachmentType : AttachmentType
  mimeType : String
  filename : Option String
  data : FileData
  storageKey : String
  id : Uuid
  now : DateTime

/-- The record of a new attachment. -/
def Upload.attachment (upload : Upload) : Attachment :=
  .new upload.id upload.episodeId upload.userId upload.attachmentType upload.mimeType
    upload.filename upload.data.length upload.storageKey upload.now

/-- The file, if a provider for its type is configured and takes files of its size. -/
def Upload.dataFor {Format : Type} (upload : Upload) (attachmentType : AttachmentType)
    (provider : Option (Provider Format)) (config : Option ProcessingConfig) : Option FileData :=
  if upload.attachmentType = attachmentType then
    match provider, config with
    | some provider, some _ =>
        if provider.maxSize < upload.data.length then none else some upload.data
    | _, _ => none
  else none

variable (services : Services) (upload : Upload)

/-- Process an image if vision is configured. -/
def processVision (attachment : Attachment) : UploadProgram Attachment :=
  match upload.dataFor .image services.vision services.visionConfig, services.vision,
    services.visionConfig with
  | some data, some vision, some config =>
      match ImageFormat.fromMime tables upload.mimeType with
      | some format =>
          if vision.supportsFormat format then
            if config.syncProcessing then do
              match ← perform (.analyze data format) with
              | .ok analysis =>
                  return (attachment.markProcessing.setDescription
                    analysis.description).markCompleted vision.modelName
              | .error error =>
                  return attachment.markProcessing.markFailed
                    ("Vision processing failed: " ++ sanitizeVisionError tables error)
            else do
              perform (.spawn (.vision attachment.id data format vision.modelName))
              return attachment.markProcessing
          else return attachment
      | none => return attachment
  | _, _, _ => return attachment

/-- Process an audio file if transcription is configured. -/
def processTranscription (attachment : Attachment) : UploadProgram Attachment :=
  match upload.dataFor .audio services.transcription services.transcriptionConfig,
    services.transcription, services.transcriptionConfig with
  | some data, some transcription, some config =>
      match AudioFormat.fromMime tables upload.mimeType with
      | some format =>
          if transcription.supportsFormat format then
            if config.syncProcessing then do
              match ← perform (.transcribe data format attachment.filename) with
              | .ok result =>
                  let withText := attachment.markProcessing.setTranscript result.text
                  return (match result.durationSecs with
                    | some duration => withText.setDuration duration
                    | none => withText).markCompleted transcription.modelName
              | .error error =>
                  return attachment.markProcessing.markFailed
                    ("Transcription failed: " ++ sanitizeTranscriptionError tables error)
            else do
              perform (.spawn (.transcription attachment.id data format attachment.filename
                transcription.modelName))
              return attachment.markProcessing
          else return attachment
      | none => return attachment
  | _, _, _ => return attachment

/-- Process a document if a parser is configured. -/
def processDocument (attachment : Attachment) : UploadProgram Attachment :=
  if upload.attachmentType = .document then
    match services.document, services.documentConfig with
    | some supportsFormat, some config =>
        match DocumentFormat.fromMime tables upload.mimeType with
        | some format =>
            if supportsFormat format then
              if config.maxSizeBytes < upload.data.length then return attachment
              else do
                match ← perform (.blobGet upload.storageKey) with
                | some data =>
                    if config.syncProcessing then
                      match ← perform (.parse data format) with
                      | .ok parsed =>
                          match documentDescription parsed with
                          | some description =>
                              return (attachment.markProcessing.setDescription
                                description).markCompleted "document-parser"
                          | none => Program.fail .panic
                      | .error error =>
                          return attachment.markProcessing.markFailed
                            ("Document parsing failed: " ++ sanitizeDocumentError tables error)
                    else do
                      perform (.spawn (.document attachment.id data format))
                      return attachment.markProcessing
                | none => return attachment
            else return attachment
        | none => return attachment
    | _, _ => return attachment
  else return attachment

/-- Store a file, process it or spawn a task that does, and save the record; the response has the
record and a URL. -/
def uploadAttachment : UploadProgram (Attachment × Option String) := do
  perform (.blobPut upload.storageKey upload.data upload.mimeType)
  let seen ← processVision tables services upload upload.attachment
  let heard ← processTranscription tables services upload seen
  let read ← processDocument tables services upload heard
  perform (.saveAttachment read)
  let url ← perform (.presignGet upload.storageKey)
  return (read, url)

/-! ## A request and its task -/

/-- The attachment that a task is for. -/
def Work.attachmentId : Work → Uuid
  | .vision attachmentId _ _ _ => attachmentId
  | .transcription attachmentId _ _ _ _ => attachmentId
  | .document attachmentId _ _ => attachmentId

/-- What the environment decides when a command is performed. -/
structure UploadInput where
  put : Except String Unit
  blob : Option FileData
  presigned : Option String
  vision : Except String VisionAnalysis
  transcription : Except String Transcription
  parsed : Except String ParsedDocument

/-- The reply to a command; the stored attachments are a map. -/
def reply (input : UploadInput) (stored : Uuid → Option Attachment) :
    (command : UploadCommand) → Except Failure command.Reply
  | .blobPut _ _ _ => input.put.mapError fun error => .storage ("Failed to upload: " ++ error)
  | .blobGet _ => .ok input.blob
  | .presignGet _ => .ok input.presigned
  | .analyze _ _ => .ok input.vision
  | .transcribe _ _ _ => .ok input.transcription
  | .parse _ _ => .ok input.parsed
  | .spawn _ | .saveAttachment _ => .ok ()
  | .getAttachment id => .ok (stored id)

/-- The stored attachments after a command. -/
def storedAfter (stored : Uuid → Option Attachment) : UploadCommand → Uuid → Option Attachment
  | .saveAttachment attachment => Function.update stored attachment.id (some attachment)
  | _ => stored

/-- The answer of a provider to a task. -/
inductive TaskResult where
  | vision (answer : Except String VisionAnalysis)
  | transcription (answer : Except String Transcription)
  | document (answer : Except String ParsedDocument)

/-- The answer that a command asks for, if it asks a provider. -/
def resultOf (input : UploadInput) : UploadCommand → Option TaskResult
  | .analyze _ _ => some (.vision input.vision)
  | .transcribe _ _ _ => some (.transcription input.transcription)
  | .parse _ _ => some (.document input.parsed)
  | _ => none

/-- The request, its task when it has been spawned, and what is stored. -/
structure UploadState where
  stored : Uuid → Option Attachment
  request : UploadProgram (Attachment × Option String)
  task : Option (Work × UploadProgram Unit)
  /-- What the provider has answered to the task. -/
  result : Option TaskResult

/-- The request or the task performs its next command. -/
inductive UploadEvent where
  | request (input : UploadInput)
  | task (input : UploadInput)

/-- One step of the request or of the task. -/
def uploadStep (state : UploadState) : UploadEvent → UploadState
  | .request input =>
      match state.request with
      | .perform command continuation =>
          { state with
            stored := storedAfter state.stored command
            request := continuation (reply input state.stored command)
            task := match command with
              | .spawn work => some (work, backgroundTask tables work)
              | _ => state.task }
      | _ => state
  | .task input =>
      match state.task with
      | some (work, .perform command continuation) =>
          { state with
            stored := storedAfter state.stored command
            task := some (work, continuation (reply input state.stored command))
            result := (resultOf input command).or state.result }
      | _ => state

/-- The request begins; its attachment is new to the store. -/
def beginUpload (others : Uuid → Option Attachment) : UploadState where
  stored := Function.update others upload.id none
  request := uploadAttachment tables services upload
  task := none
  result := none

/-- The program has ended. -/
def HasEnded {α : Type} (program : UploadProgram α) : Prop :=
  ∀ command continuation, program ≠ .perform command continuation

/-- The request and its task have ended. -/
def UploadState.Ended (state : UploadState) : Prop :=
  HasEnded state.request ∧ ∀ work program, state.task = some (work, program) → HasEnded program

/-- The record says what the provider answered. -/
def TaskResult.Recorded (attachment : Attachment) : TaskResult → Prop
  | .vision (.ok analysis) =>
      attachment.processingStatus = .completed ∧
        attachment.description = some analysis.description
  | .transcription (.ok result) =>
      attachment.processingStatus = .completed ∧ attachment.transcript = some result.text
  | .document (.ok parsed) =>
      attachment.processingStatus = .completed ∧
        ∃ description, documentDescription parsed = some description ∧
          attachment.description = some description
  | .vision (.error _) | .transcription (.error _) | .document (.error _) =>
      attachment.processingStatus = .failed

/-- If a task was spawned, its result is recorded. -/
def UploadState.Recorded (state : UploadState) : Prop :=
  ∀ work program, state.task = some (work, program) →
    ∃ result attachment, state.result = some result ∧
      state.stored work.attachmentId = some attachment ∧ result.Recorded attachment

/-- A task reads the record only after the request has saved it, and a document of which it is told
can be cut off for its description. -/
def Orderly (state : UploadState) : UploadEvent → Prop
  | .request _ => True
  | .task input =>
      match state.task with
      | some (_, .perform (.getAttachment id) _) => (state.stored id).isSome = true
      | some (_, .perform (.parse _ _) _) =>
          match input.parsed with
          | .ok parsed => (documentDescription parsed).isSome = true
          | .error _ => True
      | _ => True

/-! ## How a request goes on -/

/-- A request has spawned nothing and saved nothing, has spawned its task, or has saved. -/
inductive Stage where
  | fresh
  | launched
  | saved
  deriving DecidableEq

/-- What a request may do: spawn one task, after which it saves the record as being processed. -/
def requestProtocol (id : Uuid) :
    Program.Protocol UploadCommand UploadCommand.Reply Failure Stage where
  start := .fresh
  allowed stage command :=
    match stage, command with
    | .fresh, .getAttachment _ => False
    | .fresh, .saveAttachment attachment => attachment.id = id
    | .fresh, .spawn work => work.attachmentId = id
    | .fresh, _ => True
    | .launched, .saveAttachment attachment =>
        attachment.id = id ∧ attachment.processingStatus = .processing
    | .launched, _ => False
    | .saved, .presignGet _ => True
    | .saved, _ => False
  expected _ command answered :=
    match command, answered with
    | .saveAttachment _, .error _ | .spawn _, .error _ => False
    | _, _ => True
  next stage command _ :=
    match command with
    | .saveAttachment _ => .saved
    | .spawn _ => .launched
    | _ => stage

/-- What a block of the request leaves: the attachment, which is marked when its task was
spawned. -/
def Prepared (upload : Upload) (attachmentType : AttachmentType) (stage : Stage) :
    Except Failure Attachment → Prop
  | .ok attachment => attachment.id = upload.id ∧
      (stage = .fresh ∨ stage = .launched ∧ attachment.processingStatus = .processing ∧
        upload.attachmentType = attachmentType)
  | .error _ => stage = .fresh

variable {tables services upload}

theorem follows_ask {α : Type} {id : Uuid} {post : Stage → Except Failure α → Prop}
    {command : UploadCommand} {next : command.Reply → UploadProgram α}
    (asks : (requestProtocol id).allowed .fresh command)
    (stays : ∀ answered, (requestProtocol id).next .fresh command answered = .fresh)
    (rest : ∀ value, (requestProtocol id).Follows post .fresh (next value))
    (fails : ∀ error, post .fresh (.error error)) :
    (requestProtocol id).Follows post .fresh (perform command >>= next) := by
  refine .bind_call asks (fun value _ => ?_) fun error _ => ?_
  · rw [stays]
    exact rest value
  · rw [stays]
    exact fails error

theorem follows_spawn {work : Work} {attachmentType : AttachmentType} {attachment : Attachment}
    (own : work.attachmentId = upload.id) (mine : attachment.id = upload.id)
    (ofType : upload.attachmentType = attachmentType) :
    (requestProtocol upload.id).Follows (Prepared upload attachmentType) .fresh
      (perform (.spawn work) >>= fun _ => pure attachment.markProcessing) :=
  .bind_call own (fun _ _ => .done ⟨mine, .inr ⟨rfl, rfl, ofType⟩⟩) fun _ never => never.elim

theorem type_of_dataFor {Format : Type} {attachmentType : AttachmentType}
    {provider : Option (Provider Format)} {config : Option ProcessingConfig} {data : FileData}
    (given : upload.dataFor attachmentType provider config = some data) :
    upload.attachmentType = attachmentType := by
  by_contra other
  simp [Upload.dataFor, other] at given

theorem follows_processVision {attachment : Attachment} (own : attachment.id = upload.id) :
    (requestProtocol upload.id).Follows (Prepared upload .image) .fresh
      (processVision tables services upload attachment) := by
  have unchanged : (requestProtocol upload.id).Follows (Prepared upload .image) .fresh
      (pure attachment : UploadProgram Attachment) := .done ⟨own, .inl rfl⟩
  unfold processVision
  split
  · rename_i given _ _
    have ofType := type_of_dataFor given
    split
    · split
      · split
        · refine follows_ask trivial (fun _ => rfl) (fun answered => ?_) fun _ => rfl
          cases answered with
          | ok analysis => exact .done ⟨own, .inl rfl⟩
          | error error => exact .done ⟨own, .inl rfl⟩
        · exact follows_spawn own own ofType
      · exact unchanged
    · exact unchanged
  · exact unchanged

theorem follows_processTranscription {attachment : Attachment} (own : attachment.id = upload.id) :
    (requestProtocol upload.id).Follows (Prepared upload .audio) .fresh
      (processTranscription tables services upload attachment) := by
  have unchanged : (requestProtocol upload.id).Follows (Prepared upload .audio) .fresh
      (pure attachment : UploadProgram Attachment) := .done ⟨own, .inl rfl⟩
  unfold processTranscription
  split
  · rename_i given _ _
    have ofType := type_of_dataFor given
    split
    · split
      · split
        · refine follows_ask trivial (fun _ => rfl) (fun answered => ?_) fun _ => rfl
          cases answered with
          | ok result =>
            obtain ⟨text, _ | duration⟩ := result
            · exact .done ⟨own, .inl rfl⟩
            · exact .done ⟨own, .inl rfl⟩
          | error error => exact .done ⟨own, .inl rfl⟩
        · exact follows_spawn own own ofType
      · exact unchanged
    · exact unchanged
  · exact unchanged

theorem follows_processDocument {attachment : Attachment} (own : attachment.id = upload.id) :
    (requestProtocol upload.id).Follows (Prepared upload .document) .fresh
      (processDocument tables services upload attachment) := by
  have unchanged : (requestProtocol upload.id).Follows (Prepared upload .document) .fresh
      (pure attachment : UploadProgram Attachment) := .done ⟨own, .inl rfl⟩
  unfold processDocument
  split
  · rename_i ofType
    split
    · split
      · split
        · split
          · exact unchanged
          · refine follows_ask trivial (fun _ => rfl) (fun found => ?_) fun _ => rfl
            cases found with
            | none => exact unchanged
            | some data =>
              dsimp only
              split
              · refine follows_ask trivial (fun _ => rfl) (fun answered => ?_) fun _ => rfl
                cases answered with
                | ok parsed =>
                  dsimp only
                  split
                  · exact .done ⟨own, .inl rfl⟩
                  · exact .fail rfl
                | error error => exact .done ⟨own, .inl rfl⟩
              · exact follows_spawn own own ofType
        · exact unchanged
      · exact unchanged
    · exact unchanged
  · exact unchanged

theorem processTranscription_other (other : upload.attachmentType ≠ .audio)
    (attachment : Attachment) :
    processTranscription tables services upload attachment = pure attachment := by
  simp [processTranscription, Upload.dataFor, other]

theorem processDocument_other (other : upload.attachmentType ≠ .document)
    (attachment : Attachment) :
    processDocument tables services upload attachment = pure attachment := by
  simp [processDocument, other]

theorem follows_uploadAttachment :
    (requestProtocol upload.id).Follows (fun stage _ => stage ≠ .launched) .fresh
      (uploadAttachment tables services upload) := by
  have saves {stage : Stage} {attachment : Attachment} (own : attachment.id = upload.id)
      (prepared : stage = .fresh ∨
        stage = .launched ∧ attachment.processingStatus = .processing) :
      (requestProtocol upload.id).Follows (fun stage _ => stage ≠ .launched) stage
        (perform (.saveAttachment attachment) >>= fun _ => do
          let url ← perform (.presignGet upload.storageKey)
          return (attachment, url)) := by
    refine .bind_call ?_ (fun _ _ => ?_) fun _ never => never.elim
    · rcases prepared with rfl | ⟨rfl, marked⟩
      · exact own
      · exact ⟨own, marked⟩
    · exact .bind_call trivial (fun _ _ => .done (by simp [requestProtocol]))
        fun _ _ => by simp [requestProtocol]
  refine follows_ask trivial (fun _ => rfl) (fun _ => ?_) fun _ => by simp
  refine (follows_processVision rfl).bind ?_ ?_
  · rintro _ seen ⟨own, rfl | ⟨rfl, marked, image⟩⟩
    · refine (follows_processTranscription own).bind ?_ ?_
      · rintro _ heard ⟨own, rfl | ⟨rfl, marked, audio⟩⟩
        · refine (follows_processDocument own).bind ?_ ?_
          · rintro stage read ⟨own, prepared⟩
            exact saves own (prepared.imp_right fun launched => ⟨launched.1, launched.2.1⟩)
          · rintro _ error rfl
            simp
        · rw [processDocument_other (by simp [audio])]
          exact saves own (.inr ⟨rfl, marked⟩)
      · rintro _ error rfl
        simp
    · rw [processTranscription_other (by simp [image])]
      simp only [Program.pure_eq, Program.done_bind]
      rw [processDocument_other (by simp [image])]
      exact saves own (.inr ⟨rfl, marked⟩)
  · rintro _ error rfl
    simp

/-! ## How the task goes on -/

/-- The record is not saved, or it is saved as being processed. -/
def Waiting (work : Work) (stored : Uuid → Option Attachment) (stage : Stage) : Prop :=
  stage = .launched ∧ stored work.attachmentId = none ∨
    stage = .saved ∧ ∃ attachment, stored work.attachmentId = some attachment ∧
      attachment.id = work.attachmentId ∧ attachment.processingStatus = .processing

variable (tables) in
/-- Where a task stands that has met no obstacle. -/
inductive Standing (work : Work) (stored : Uuid → Option Attachment) (stage : Stage) :
    Option TaskResult → UploadProgram Unit → Prop
  | asking (waits : Waiting work stored stage) :
      Standing work stored stage none (backgroundTask tables work)
  | reading {result : TaskResult} {change : Attachment → Attachment}
      (records : ∀ attachment, result.Recorded (change attachment))
      (keeps : ∀ attachment, (change attachment).id = attachment.id)
      (waits : Waiting work stored stage) :
      Standing work stored stage (some result) (updateStored work.attachmentId change)
  | writing {result : TaskResult} {attachment : Attachment}
      (records : result.Recorded attachment) (own : attachment.id = work.attachmentId)
      (saved : stage = .saved) :
      Standing work stored stage (some result) (perform (.saveAttachment attachment))
  | recorded {result : TaskResult} {attachment : Attachment}
      (records : result.Recorded attachment) (saved : stage = .saved)
      (found : stored work.attachmentId = some attachment) :
      Standing work stored stage (some result) (.done ())

variable (tables upload) in
/-- Neither the request nor the task has met an obstacle. -/
inductive Fine (state : UploadState) : Prop
  | fresh
      (follows : (requestProtocol upload.id).Follows (fun stage _ => stage ≠ .launched) .fresh
        state.request)
      (alone : state.task = none) (silent : state.result = none)
      (absent : state.stored upload.id = none)
  | plain
      (follows : (requestProtocol upload.id).Follows (fun stage _ => stage ≠ .launched) .saved
        state.request)
      (alone : state.task = none)
  | busy {stage : Stage} {work : Work} {program : UploadProgram Unit}
      (follows : (requestProtocol upload.id).Follows (fun stage _ => stage ≠ .launched) stage
        state.request)
      (spawned : state.task = some (work, program)) (own : work.attachmentId = upload.id)
      (stands : Standing tables work state.stored stage state.result program)

variable (upload) in
/-- The task has ended without a record of its result. -/
inductive Lost (state : UploadState) : Prop
  | mk {stage : Stage} {work : Work} {program : UploadProgram Unit}
      (follows : (requestProtocol upload.id).Follows (fun stage _ => stage ≠ .launched) stage
        state.request)
      (spawned : state.task = some (work, program)) (own : work.attachmentId = upload.id)
      (ended : HasEnded program) (waits : Waiting work state.stored stage)

theorem reply_expected (input : UploadInput) (stored : Uuid → Option Attachment) (id : Uuid)
    (stage : Stage) (command : UploadCommand) :
    (requestProtocol id).expected stage command (reply input stored command) := by
  cases command <;> trivial

theorem Waiting.save {work : Work} {stored : Uuid → Option Attachment} {attachment : Attachment}
    (own : attachment.id = work.attachmentId)
    (marked : attachment.processingStatus = .processing) :
    Waiting work (storedAfter stored (.saveAttachment attachment)) .saved := by
  refine .inr ⟨rfl, attachment, ?_, own, marked⟩
  rw [← own]
  exact Function.update_self _ _ _

theorem Standing.stage_ne_fresh {work : Work} {stored : Uuid → Option Attachment} {stage : Stage}
    {result : Option TaskResult} {program : UploadProgram Unit}
    (stands : Standing tables work stored stage result program) : stage ≠ .fresh := by
  rintro rfl
  cases stands with
  | asking waits => rcases waits with ⟨other, _⟩ | ⟨other, _⟩ <;> cases other
  | reading _ _ waits => rcases waits with ⟨other, _⟩ | ⟨other, _⟩ <;> cases other
  | writing _ _ saved => cases saved
  | recorded _ saved _ => cases saved

theorem Standing.save {work : Work} {stored : Uuid → Option Attachment}
    {result : Option TaskResult} {program : UploadProgram Unit} {attachment : Attachment}
    (stands : Standing tables work stored .launched result program)
    (own : attachment.id = work.attachmentId)
    (marked : attachment.processingStatus = .processing) :
    Standing tables work (storedAfter stored (.saveAttachment attachment)) .saved result
      program := by
  cases stands with
  | asking _ => exact .asking (.save own marked)
  | reading records keeps _ => exact .reading records keeps (.save own marked)
  | writing _ _ saved => cases saved
  | recorded _ saved _ => cases saved

/-- A step of the request meets no obstacle. -/
theorem Fine.request {state : UploadState} (fine : Fine tables upload state)
    (input : UploadInput) : Fine tables upload (uploadStep tables state (.request input)) := by
  obtain ⟨stored, request, task, result⟩ := state
  cases request with
  | done value => exact fine
  | fail error => exact fine
  | perform command continuation =>
    have goesOn := reply_expected input stored upload.id
    cases fine with
    | fresh follows alone silent absent =>
      cases follows with
      | perform allows continues =>
        have next := continues _ (goesOn .fresh command)
        cases command with
        | getAttachment id => exact allows.elim
        | saveAttachment attachment => exact .plain next alone
        | spawn work =>
          cases silent
          have missing : stored work.attachmentId = none := by
            rw [show work.attachmentId = upload.id from allows]
            exact absent
          exact .busy next rfl allows (.asking (.inl ⟨rfl, missing⟩))
        | _ => exact .fresh next alone silent absent
    | plain follows alone =>
      cases follows with
      | perform allows continues =>
        have next := continues _ (goesOn .saved command)
        cases command with
        | presignGet key => exact .plain next alone
        | _ => exact allows.elim
    | @busy stage work program follows spawned own stands =>
      cases follows with
      | perform allows continues =>
        have next := continues _ (goesOn stage command)
        cases stage with
        | fresh => exact absurd rfl stands.stage_ne_fresh
        | launched =>
          cases command with
          | saveAttachment attachment =>
            exact .busy next spawned own
              (stands.save (allows.1.trans own.symm) allows.2)
          | _ => exact allows.elim
        | saved =>
          cases command with
          | presignGet key => exact .busy next spawned own stands
          | _ => exact allows.elim

theorem Lost.step {state : UploadState} (lost : Lost upload state) (event : UploadEvent) :
    Lost upload (uploadStep tables state event) := by
  obtain ⟨stored, request, task, result⟩ := state
  obtain @⟨stage, work, program, follows, spawned, own, ended, waits⟩ := lost
  cases spawned
  cases event with
  | task input =>
    cases program with
    | perform command continuation => exact absurd rfl (ended command continuation)
    | done value => exact ⟨follows, rfl, own, ended, waits⟩
    | fail error => exact ⟨follows, rfl, own, ended, waits⟩
  | request input =>
    cases request with
    | done value => exact ⟨follows, rfl, own, ended, waits⟩
    | fail error => exact ⟨follows, rfl, own, ended, waits⟩
    | perform command continuation =>
      cases follows with
      | perform allows continues =>
        have next := continues _ (reply_expected input stored upload.id stage command)
        rcases waits with ⟨rfl, absent⟩ | ⟨rfl, marked⟩
        · cases command with
          | saveAttachment attachment =>
            exact ⟨next, rfl, own, ended, .save (allows.1.trans own.symm) allows.2⟩
          | _ => exact allows.elim
        · cases command with
          | presignGet key => exact ⟨next, rfl, own, ended, .inr ⟨rfl, marked⟩⟩
          | _ => exact allows.elim

/-- When the provider answers, the task goes on, unless it panics over a document. -/
theorem answered {state : UploadState} {stage : Stage} {work : Work}
    (follows : (requestProtocol upload.id).Follows (fun stage _ => stage ≠ .launched) stage
      state.request)
    (spawned : state.task = some (work, backgroundTask tables work))
    (own : work.attachmentId = upload.id) (waits : Waiting work state.stored stage)
    (input : UploadInput) :
    Orderly state (.task input) ∧ Fine tables upload (uploadStep tables state (.task input)) ∨
      ¬ Orderly state (.task input) ∧ Lost upload (uploadStep tables state (.task input)) := by
  obtain ⟨stored, request, task, result⟩ := state
  obtain ⟨put, blob, presigned, vision, transcription, parsed⟩ := input
  cases spawned
  cases work with
  | vision attachmentId data format modelName =>
    left
    refine ⟨trivial, ?_⟩
    cases vision with
    | ok analysis =>
      exact .busy follows rfl own (.reading (fun _ => ⟨rfl, rfl⟩) (fun _ => rfl) waits)
    | error error =>
      exact .busy follows rfl own (.reading (fun _ => rfl) (fun _ => rfl) waits)
  | transcription attachmentId data format filename modelName =>
    left
    refine ⟨trivial, ?_⟩
    cases transcription with
    | ok answer =>
      obtain ⟨text, _ | duration⟩ := answer
      · exact .busy follows rfl own (.reading (fun _ => ⟨rfl, rfl⟩) (fun _ => rfl) waits)
      · exact .busy follows rfl own (.reading (fun _ => ⟨rfl, rfl⟩) (fun _ => rfl) waits)
    | error error =>
      exact .busy follows rfl own (.reading (fun _ => rfl) (fun _ => rfl) waits)
  | document attachmentId data format =>
    cases parsed with
    | error error =>
      left
      refine ⟨trivial, ?_⟩
      exact .busy follows rfl own (.reading (fun _ => rfl) (fun _ => rfl) waits)
    | ok answer =>
      have next : uploadStep tables
          ⟨stored, request, some (.document attachmentId data format,
            backgroundTask tables (.document attachmentId data format)), result⟩
          (.task ⟨put, blob, presigned, vision, transcription, .ok answer⟩) =
            ⟨stored, request, some (.document attachmentId data format,
              match documentDescription answer with
              | some description => updateAttachmentWithDocument attachmentId description
              | none => Program.fail .panic), some (.document (.ok answer))⟩ := rfl
      rw [next]
      cases described : documentDescription answer with
      | some description =>
        left
        refine ⟨?_, .busy follows rfl own
          (.reading (fun _ => ⟨rfl, description, described, rfl⟩) (fun _ => rfl) waits)⟩
        exact Option.isSome_iff_exists.mpr ⟨description, described⟩
      | none =>
        right
        refine ⟨fun orderly => ?_, ⟨follows, rfl, own, fun _ _ same => ?_, waits⟩⟩
        · have can : (documentDescription answer).isSome = true := orderly
          simp [described] at can
        · cases same

theorem updateStored_eq (attachmentId : Uuid) (change : Attachment → Attachment) :
    ∃ continuation, updateStored attachmentId change =
        .perform (.getAttachment attachmentId) continuation ∧
      continuation (.ok none) = .fail (.notFound "Attachment" attachmentId.toText) ∧
      ∀ attachment : Attachment, continuation (.ok (some attachment)) =
        perform (.saveAttachment (change attachment)) :=
  ⟨_, rfl, rfl, fun _ => rfl⟩

/-- A step of the task meets no obstacle exactly if it is orderly; otherwise its result is
lost. -/
theorem Fine.task {state : UploadState} (fine : Fine tables upload state) (input : UploadInput) :
    Orderly state (.task input) ∧ Fine tables upload (uploadStep tables state (.task input)) ∨
      ¬ Orderly state (.task input) ∧ Lost upload (uploadStep tables state (.task input)) := by
  cases fine with
  | fresh follows alone silent absent =>
    left
    obtain ⟨stored, request, task, result⟩ := state
    cases alone
    exact ⟨trivial, .fresh follows rfl silent absent⟩
  | plain follows alone =>
    left
    obtain ⟨stored, request, task, result⟩ := state
    cases alone
    exact ⟨trivial, .plain follows rfl⟩
  | @busy stage work program follows spawned own stands =>
    obtain ⟨stored, request, task, result⟩ := state
    cases spawned
    cases stands with
    | asking waits => exact answered follows rfl own waits input
    | @reading result change records keeps waits =>
      obtain ⟨continuation, reads, missing, present⟩ :=
        updateStored_eq work.attachmentId change
      have next : uploadStep tables
          ⟨stored, request, some (work, updateStored work.attachmentId change), some result⟩
          (.task input) =
            ⟨stored, request, some (work, continuation (.ok (stored work.attachmentId))),
              some result⟩ := by
        rw [reads]
        rfl
      rw [next]
      rcases waits with ⟨rfl, absent⟩ | ⟨rfl, attachment, found, named, marked⟩
      · right
        have absent : stored work.attachmentId = none := absent
        refine ⟨fun orderly => ?_, ⟨follows, rfl, own, fun _ _ same => ?_,
          .inl ⟨rfl, absent⟩⟩⟩
        · have isThere : (stored work.attachmentId).isSome = true := orderly
          simp [absent] at isThere
        · rw [absent, missing] at same
          cases same
      · left
        have found : stored work.attachmentId = some attachment := found
        refine ⟨Option.isSome_iff_exists.mpr ⟨attachment, found⟩, ?_⟩
        rw [found, present]
        exact .busy follows rfl own
          (.writing (records attachment) ((keeps attachment).trans named) rfl)
    | @writing result attachment records named saved =>
      left
      refine ⟨trivial, .busy follows rfl own (.recorded records saved ?_)⟩
      rw [← named]
      exact Function.update_self _ _ _
    | recorded records saved found =>
      left
      exact ⟨trivial, .busy follows rfl own (.recorded records saved found)⟩

theorem Fine.step {state : UploadState} (fine : Fine tables upload state) (event : UploadEvent) :
    Orderly state event ∧ Fine tables upload (uploadStep tables state event) ∨
      ¬ Orderly state event ∧ Lost upload (uploadStep tables state event) := by
  cases event with
  | request input => exact .inl ⟨trivial, fine.request input⟩
  | task input => exact fine.task input

theorem Lost.finish {state : UploadState} (lost : Lost upload state) (events : List UploadEvent) :
    Lost upload (StateMachine.finish (uploadStep tables) state events) :=
  StateMachine.finish_induction (fun _ event lost => lost.step event) lost events

theorem Fine.finish {state : UploadState} (fine : Fine tables upload state)
    (events : List UploadEvent) :
    StateMachine.Guarded (uploadStep tables) Orderly state events ∧
        Fine tables upload (StateMachine.finish (uploadStep tables) state events) ∨
      ¬ StateMachine.Guarded (uploadStep tables) Orderly state events ∧
        Lost upload (StateMachine.finish (uploadStep tables) state events) := by
  induction events generalizing state with
  | nil => exact .inl ⟨trivial, fine⟩
  | cons event events ih =>
    rcases fine.step event with ⟨orderly, next⟩ | ⟨disorderly, lost⟩
    · rcases ih next with ⟨guarded, last⟩ | ⟨unguarded, last⟩
      · exact .inl ⟨⟨orderly, guarded⟩, last⟩
      · exact .inr ⟨fun guarded => unguarded guarded.2, last⟩
    · exact .inr ⟨fun guarded => disorderly guarded.1, lost.finish events⟩

theorem Fine.recorded {state : UploadState} (fine : Fine tables upload state)
    (ended : state.Ended) : state.Recorded := by
  intro work program spawned
  cases fine with
  | fresh _ alone _ _ => exact nomatch alone.symm.trans spawned
  | plain _ alone => exact nomatch alone.symm.trans spawned
  | @busy stage other running _ also own stands =>
    obtain ⟨rfl, rfl⟩ := Prod.mk.inj (Option.some.inj (also.symm.trans spawned))
    have isOver := ended.2 _ _ spawned
    obtain ⟨stored, request, task, result⟩ := state
    cases stands with
    | asking _ => cases other <;> exact absurd rfl (isOver _ _)
    | reading _ _ _ => exact absurd rfl (isOver _ _)
    | writing _ _ _ => exact absurd rfl (isOver _ _)
    | recorded records _ found => exact ⟨_, _, rfl, found, records⟩

theorem Lost.not_recorded {state : UploadState} (lost : Lost upload state) :
    ¬ state.Recorded := by
  intro recorded
  obtain @⟨stage, work, program, follows, spawned, own, ended, waits⟩ := lost
  obtain ⟨result, attachment, _, found, records⟩ := recorded work program spawned
  rcases waits with ⟨_, absent⟩ | ⟨_, other, stored, _, marked⟩
  · exact nomatch absent.symm.trans found
  · obtain rfl := Option.some.inj (stored.symm.trans found)
    cases result with
    | vision answer => cases answer <;> simp [TaskResult.Recorded, marked] at records
    | transcription answer => cases answer <;> simp [TaskResult.Recorded, marked] at records
    | document answer => cases answer <;> simp [TaskResult.Recorded, marked] at records

/-- When an upload and its task have ended, the record has the status and the text of the task's
result exactly if the task read the record only after the request had saved it, and could cut off
the description of a document. -/
theorem task_recorded_iff_orderly (tables : CharTables) (services : Services) (upload : Upload)
    (others : Uuid → Option Attachment) (events : List UploadEvent)
    (ended : (StateMachine.finish (uploadStep tables)
      (beginUpload tables services upload others) events).Ended) :
    (StateMachine.finish (uploadStep tables)
        (beginUpload tables services upload others) events).Recorded ↔
      StateMachine.Guarded (uploadStep tables) Orderly
        (beginUpload tables services upload others) events := by
  have initially : Fine tables upload (beginUpload tables services upload others) :=
    .fresh follows_uploadAttachment rfl rfl (Function.update_self _ _ _)
  rcases initially.finish events with ⟨guarded, fine⟩ | ⟨unguarded, lost⟩
  · exact iff_of_true (fine.recorded ended) guarded
  · exact iff_of_false lost.not_recorded unguarded

/-- Every text is as it is, and every character is a letter. -/
def plainTables : CharTables where
  toLowercase text := text
  isAlphabetic _ := true
  isAlphanumeric _ := true

/-- Images are described in the background. -/
def describesImages : Services where
  vision := some { maxSize := 100, supportsFormat := fun _ => true, modelName := "llava" }
  visionConfig := some { syncProcessing := false, maxSizeBytes := 0 }
  transcription := none
  transcriptionConfig := none
  document := none
  documentConfig := none

/-- A small picture. -/
def picture : Upload where
  episodeId := 2
  userId := 3
  attachmentType := .image
  mimeType := "image/png"
  filename := none
  data := [137]
  storageKey := "3/1/attachment.png"
  id := 1
  now := 0

/-- The picture shows a cat. -/
def seesCat : UploadInput where
  put := .ok ()
  blob := none
  presigned := none
  vision := .ok ⟨"A cat."⟩
  transcription := .error ""
  parsed := .error ""

/-- The request stores the file, spawns the task, saves the record and answers, and then the task
runs. -/
def taskLast : List UploadEvent :=
  [ .request seesCat, .request seesCat, .request seesCat, .request seesCat,
    .task seesCat, .task seesCat, .task seesCat]

/-- The task runs before the request saves the record. -/
def taskFirst : List UploadEvent :=
  [ .request seesCat, .request seesCat, .task seesCat, .task seesCat, .request seesCat,
    .request seesCat]

/-- A task that runs last records what it saw. -/
theorem task_recorded_iff_orderly_taskLast :
    (StateMachine.finish (uploadStep plainTables)
      (beginUpload plainTables describesImages picture fun _ => none) taskLast).Recorded := by
  refine (task_recorded_iff_orderly plainTables describesImages picture _ taskLast ⟨?_, ?_⟩).mpr
    ⟨trivial, trivial, trivial, trivial, trivial, rfl, trivial, trivial⟩
  · rintro command continuation ⟨⟩
  · rintro work program ⟨⟩ command continuation ⟨⟩

/-- A task that is quick leaves the record as being processed. -/
theorem quick_task_unrecorded :
    ¬ ∀ (tables : CharTables) (services : Services) (upload : Upload)
      (others : Uuid → Option Attachment) (events : List UploadEvent),
      (StateMachine.finish (uploadStep tables)
          (beginUpload tables services upload others) events).Ended →
        (StateMachine.finish (uploadStep tables)
          (beginUpload tables services upload others) events).Recorded := by
  intro always
  have recorded := always plainTables describesImages picture (fun _ => none) taskFirst
    ⟨by rintro command continuation ⟨⟩, by rintro work program ⟨⟩ command continuation ⟨⟩⟩
  obtain ⟨result, attachment, given, found, records⟩ := recorded _ _ rfl
  obtain rfl : TaskResult.vision seesCat.vision = result := Option.some.inj given
  obtain rfl : picture.attachment.markProcessing = attachment := Option.some.inj found
  exact nomatch records.1

end Attachments
end Mnemo
