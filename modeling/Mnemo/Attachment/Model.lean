import Mathlib
import Mnemo.Memory.Model

/-!
# Attachments

Metadata of files that are linked to an episode, and the state of their processing.
-/

namespace Mnemo
namespace Attachments

open Memory (ProcessingStatus)

/-- The type of an attachment. -/
inductive AttachmentType where
  | image
  | audio
  | video
  | document
  deriving DecidableEq, Repr

/-- A binary attachment linked to an episode. -/
structure Attachment where
  id : Uuid
  episodeId : Uuid
  userId : Uuid
  attachmentType : AttachmentType
  mimeType : String
  filename : Option String
  sizeBytes : Nat
  /-- Where the file itself is stored. -/
  storageKey : String
  thumbnailKey : Option String
  durationSecs : Option ℚ
  width : Option Nat
  height : Option Nat
  processingStatus : ProcessingStatus
  processingError : Option String
  processedByModel : Option String
  /-- What a vision model or a document parser found. -/
  description : Option String
  transcript : Option String
  createdAt : DateTime
  deriving DecidableEq

namespace Attachment

/-- A new attachment, whose processing has not begun. -/
def new (id episodeId userId : Uuid) (attachmentType : AttachmentType) (mimeType : String)
    (filename : Option String) (sizeBytes : Nat) (storageKey : String) (now : DateTime) :
    Attachment :=
  { id
    episodeId
    userId
    attachmentType
    mimeType
    filename
    sizeBytes
    storageKey
    thumbnailKey := none
    durationSecs := none
    width := none
    height := none
    processingStatus := .pending
    processingError := none
    processedByModel := none
    description := none
    transcript := none
    createdAt := now }

/-- Mark the attachment as being processed. -/
def markProcessing (attachment : Attachment) : Attachment :=
  { attachment with processingStatus := .processing }

/-- Mark the attachment as processed by a model. -/
def markCompleted (attachment : Attachment) (model : String) : Attachment :=
  { attachment with
    processingStatus := .completed
    processedByModel := some model
    processingError := none }

/-- Mark the processing of the attachment as failed. -/
def markFailed (attachment : Attachment) (error : String) : Attachment :=
  { attachment with
    processingStatus := .failed
    processingError := some error }

/-- Set the description. -/
def setDescription (attachment : Attachment) (description : String) : Attachment :=
  { attachment with description := some description }

/-- Set the transcript. -/
def setTranscript (attachment : Attachment) (transcript : String) : Attachment :=
  { attachment with transcript := some transcript }

/-- Set the duration. -/
def setDuration (attachment : Attachment) (durationSecs : ℚ) : Attachment :=
  { attachment with durationSecs := some durationSecs }

end Attachment
end Attachments
end Mnemo
