import Mnemo.Import.Rows
import Mnemo.Compression.Sweep
import Mnemo.Core.Calendar
import Mnemo.Lib.Lines

/-!
# Payloads of imports

The payload of an import is a JSON value in the format of its source.  A parser makes rows of it:
one for each line, node or chunk that holds a message.
-/

namespace Mnemo
namespace Payload

open Rows (ImportMessage)
open Import (ChatHistorySource)
open Memory (MessageRole)

/-! ## JSON values -/

section Access

/-- The value of a field. -/
def field (key : String) : Json → Option Json
  | .object fields => fields.lookup key
  | _ => none

def asStr : Json → Option String
  | .string value => some value
  | _ => none

def asBool : Json → Option Bool
  | .bool value => some value
  | _ => none

def asArray : Json → Option (List Json)
  | .array items => some items
  | _ => none

/-- A text without white space around it, unless it is blank. -/
def nonBlank (text : String) : Option String :=
  some (Text.trim text) |>.filter fun text => !text.isEmpty

end Access

/-- What the libraries make of texts. -/
structure PayloadReader where
  /-- The JSON value of a text. -/
  fromStr : String → Except String Json
  /-- The floating-point number of a literal. -/
  asF64 : String → ℚ
  /-- The instant of a text in the format of RFC 3339. -/
  parseFromRfc3339 : String → Option DateTime
  calendar : Calendar

/-- The 64-bit integer that a text denotes. -/
def parseI64 (raw : String) : Option Int :=
  let (sign, digits) : Int × List Char :=
    match raw.toList with
    | '-' :: digits => (-1, digits)
    | '+' :: digits => (1, digits)
    | digits => (1, digits)
  let value := sign * (digits.foldl (fun value digit => 10 * value + (digit.toNat - 48)) 0 : Nat)
  if digits.isEmpty || !digits.all Char.isDigit then none
  else if -2 ^ 63 ≤ value ∧ value < 2 ^ 63 then some value
  else none

/-- The role that a text names. -/
def parseRole (input : String) : Option MessageRole :=
  match Text.toAsciiLowercase input with
  | "user" | "human" => some .user
  | "assistant" | "ai" | "model" => some .assistant
  | "system" => some .system
  | "tool" | "function" => some .tool
  | _ => none

section Parsers

variable (reader : PayloadReader)

/-- The instant of a row; a row without one is of now. -/
def parseCreatedAt (now : DateTime) : Option String → Except String DateTime
  | none => .ok now
  | some raw =>
      match (reader.parseFromRfc3339 raw).or ((parseI64 raw).bind reader.calendar.fromTimestamp) with
      | some instant => .ok instant
      | none =>
          .error "invalid created_at timestamp (expected RFC3339 or unix seconds string)"

/-! ## Lines of JSON -/

/-- The values of the lines which are not blank. -/
def parseLines (text : String) : Except String (List Json) :=
  ((Lines.lines text.toList).map String.ofList
      |>.filter fun line => !(Text.trim line).isEmpty).mapM
    fun line => (reader.fromStr line).mapError ("invalid NDJSON row: " ++ ·)

/-- The rows of a payload. -/
def ndjsonRows : Json → Except String (List Json)
  | .string lines => parseLines reader lines
  | .array rows => .ok rows
  | .object fields =>
      match (fields.lookup "messages").bind asArray, (fields.lookup "ndjson").bind asStr with
      | some rows, _ => .ok rows
      | none, some lines => parseLines reader lines
      | none, none => .error "ndjson payload requires string, array, or object.messages"
  | _ => .error "unsupported ndjson payload shape"

/-- The message of a row. -/
def parseRow (now : DateTime) (index : Nat) (row : Json) : Except String ImportMessage := do
  let name := "row " ++ toString (index + 1)
  if !row.isObject then .error (name ++ " is not an object")
  let some content := ((field "content" row).bind asStr).bind nonBlank
    | .error (name ++ " missing content")
  let some roleRaw := (field "role" row).bind asStr
    | .error (name ++ " missing role")
  let some role := parseRole roleRaw
    | .error (name ++ " invalid role")
  let createdAt ← parseCreatedAt reader now
    (((field "created_at" row).or (field "timestamp" row)).bind asStr)
  let session := ((field "session" row).bind asStr).bind nonBlank
  return { session, role, content, createdAt }

/-- The messages of the rows; each row reads the clock for itself. -/
def parseRows (clock : Nat → DateTime) : Nat → List Json → Except String (List ImportMessage)
  | _, [] => .ok []
  | index, row :: rows => do
      let message ← parseRow reader (clock index) index row
      let messages ← parseRows clock (index + 1) rows
      return message :: messages

def parseNdjsonPayload (clock : Nat → DateTime) (payload : Json) :
    Except String (List ImportMessage) := do
  let rows ← ndjsonRows reader payload
  parseRows reader clock 0 rows

/-! ## Exports of conversations -/

/-- The text of a message. -/
def extractChatgptContent (message : Json) : String :=
  match ((field "content" message).bind (field "parts")).bind asArray with
  | some parts => Text.trim ("\n".intercalate (parts.filterMap asStr))
  | none => Text.trim ((((field "content" message).bind (field "text")).bind asStr).getD "")

/-- What a node of a conversation says. -/
structure ChatgptNode where
  role : MessageRole
  content : String
  createTime : Option ℚ

/-- The number of a value. -/
def asF64 : Json → Option ℚ
  | .number literal => some (reader.asF64 literal)
  | _ => none

/-- What a node says, unless it holds no message or a blank one. -/
def chatgptNode (node : Json) : Option ChatgptNode := do
  let message ← field "message" node
  let authorRole ← ((field "author" message).bind (field "role")).bind asStr
  let role ← parseRole authorRole
  let content := extractChatgptContent message
  if (Text.trim content).isEmpty then none
  else
    return { role, content, createTime := (field "create_time" message).bind (asF64 reader) }

/-- The nodes of a conversation which say something. -/
def chatgptNodes (conversation : Json) : List ChatgptNode :=
  match field "mapping" conversation with
  | some (.object mapping) => (mapping.map Prod.snd).filterMap (chatgptNode reader)
  | _ => []

/-- The instant of a message, in whole seconds; one without an instant is of now. -/
def ChatgptNode.createdAt (node : ChatgptNode) (now : DateTime) : DateTime :=
  (node.createTime.bind fun time =>
    reader.calendar.fromTimestamp (Compression.toI64 time)).getD now

/-- The row of a node. -/
def ChatgptNode.message (node : ChatgptNode) (title : Option String) (now : DateTime) :
    ImportMessage :=
  { session := title
    role := node.role
    content := node.content
    createdAt := node.createdAt reader now }

/-- The rows of a conversation in the order of their instants. -/
def importConversation (clock : Nat → DateTime) (conversation : Json) : List ImportMessage :=
  let title := ((field "title" conversation).bind asStr).bind nonBlank
  let extracted := (chatgptNodes reader conversation).mapIdx fun position node =>
    node.message reader title (clock position)
  extracted.mergeSort fun first second => first.createdAt ≤ second.createdAt

/-- The conversations of an export. -/
def conversations : Json → Except String (List Json)
  | .array items => .ok items
  | .object fields =>
      match (fields.lookup "conversations").bind asArray with
      | some items => .ok items
      | none => .ok [.object fields]
  | _ => .error "chatgpt export payload must be an object or array"

def parseChatgptExportPayload (clock : Nat → Nat → DateTime) (payload : Json) :
    Except String (List ImportMessage) := do
  let items ← conversations payload
  let messages := (items.mapIdx fun position => importConversation reader (clock position)).flatten
  if messages.isEmpty then .error "no importable messages found in chatgpt export payload"
  return messages

/-! ## Exports of chunks -/

/-- The text of a chunk, or of its parts. -/
def chunkContent (item : Json) : Option String :=
  (((field "text" item).bind asStr).bind nonBlank).or
    (((field "parts" item).bind asArray).bind fun parts =>
      nonBlank ("\n".intercalate (parts.filterMap fun part => (field "text" part).bind asStr)))

/-- Who says a chunk and what, unless it is a thought or cannot be imported. -/
def geminiChunk (chunk : Json) : Option (MessageRole × String) := do
  if ((field "isThought" chunk).bind asBool).getD false then none
  else
    let roleRaw ← (field "role" chunk).bind asStr
    let role ← parseRole roleRaw
    let content ← chunkContent chunk
    return (role, content)

/-- The chunks of an export. -/
def geminiChunks (payload : Json) : Except String (List Json) :=
  if !payload.isObject then .error "gemini export payload must be an object"
  else
    match ((field "chunkedPrompt" payload).bind (field "chunks")).bind asArray with
    | some chunks => .ok chunks
    | none => .error "gemini export missing chunkedPrompt.chunks"

/-- The rows of the chunks from a position on; their instants are made up. -/
def geminiMessages (baseTime : DateTime) : Nat → List Json → List ImportMessage
  | _, [] => []
  | position, chunk :: chunks =>
      match geminiChunk chunk with
      | some (role, content) =>
          { session := none, role, content, createdAt := baseTime + position * 1000000000 } ::
            geminiMessages baseTime (position + 1) chunks
      | none => geminiMessages baseTime (position + 1) chunks

def parseGeminiExportPayload (baseTime : DateTime) (payload : Json) :
    Except String (List ImportMessage) := do
  let chunks ← geminiChunks payload
  let messages := geminiMessages baseTime 0 chunks
  if messages.isEmpty then .error "no importable messages found in gemini export payload"
  return messages

/-- The rows of a payload; a parser may read the clock at every node. -/
def parseImportMessages (clock : Nat → Nat → DateTime) (payload : Json) :
    ChatHistorySource → Except String (List ImportMessage)
  | .ndjson => parseNdjsonPayload reader (clock 0) payload
  | .chatgptExport => parseChatgptExportPayload reader clock payload
  | .geminiExport => parseGeminiExportPayload (clock 0 0) payload

end Parsers
end Payload
end Mnemo
