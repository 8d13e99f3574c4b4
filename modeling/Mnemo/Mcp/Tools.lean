import Mnemo.Mcp.Server

/-!
# Tool calls

Every tool checks its arguments, sends one request or two, and answers with what the server
responds.
-/

namespace Mnemo
namespace Mcp

/-- The library functions whose results only show in texts and bodies. -/
structure Rendering where
  /-- Print a value over several lines. -/
  pretty : Json → String
  /-- Print a status with its reason. -/
  status : Nat → String
  /-- The number with double precision that a literal stands for. -/
  asF64 : String → Option ℚ
  /-- Print a number with double precision. -/
  shown : ℚ → String
  /-- The literal of a number in single precision. -/
  narrowed : ℚ → String

/-- The answer to a tool call. -/
structure ToolCallResult where
  text : String
  isError : Bool

namespace ToolCallResult

/-- Answer with an error. -/
def error (text : String) : ToolCallResult := ⟨text, true⟩

/-- Answer with a value. -/
def json (rendering : Rendering) (value : Json) : ToolCallResult := ⟨rendering.pretty value, false⟩

end ToolCallResult

/-- Answer the error of a check without a request. -/
def orError : Except String (Conversation ToolCallResult) → Conversation ToolCallResult
  | .ok conversation => conversation
  | .error text => .done (.error text)

/-- The texts of the errors of a request. -/
structure Labels where
  /-- The request got no response. -/
  transport : String
  /-- The server refused. -/
  refused : String
  /-- The body is not a value. -/
  unparsed : String

/-- The texts of most requests. -/
def Labels.standard : Labels :=
  { transport := "HTTP request failed: "
    refused := "Mnemo API error"
    unparsed := "Failed to parse response: " }

/-- An error with the status and body of a response. -/
def refusal (rendering : Rendering) (label : String) (status : Nat) (body : Json) :
    ToolCallResult :=
  .error (label ++ " (" ++ rendering.status status ++ "): " ++ rendering.pretty body)

/-- Send a request and go on with the value the server responds. -/
def sending (rendering : Rendering) (labels : Labels) (request : Request)
    (next : Json → Conversation ToolCallResult) : Conversation ToolCallResult :=
  .perform request fun
    | .error problem => .done (.error (labels.transport ++ problem))
    | .ok response =>
        match response.body with
        | .ok body =>
            if response.isSuccess then next body
            else .done (refusal rendering labels.refused response.status body)
        | .error problem => .done (.error (labels.unparsed ++ problem))

/-- Send a request and answer with the value the server responds. -/
def relay (rendering : Rendering) (request : Request) : Conversation ToolCallResult :=
  sending rendering .standard request fun body => .done (.json rendering body)

/-- Send a request whose response holds no value, and answer with a given one. -/
def confirming (rendering : Rendering) (label : String) (request : Request) (result : Json) :
    Conversation ToolCallResult :=
  .perform request fun
    | .error problem => .done (.error ("HTTP request failed: " ++ problem))
    | .ok response =>
        if response.isSuccess then .done (.json rendering result)
        else
          match response.body with
          | .ok body => .done (refusal rendering label response.status body)
          | .error problem => .done (.error (label ++ " (" ++ rendering.status response.status ++
              ") and response unparseable: " ++ problem))

/-- A text argument that is not blank. -/
def required (arguments : Json) (key problem : String) : Except String String :=
  match arguments.text key with
  | some value => if Text.trim value = "" then .error problem else .ok value
  | none => .error problem

/-- A text argument that may be blank. -/
def given (arguments : Json) (key problem : String) : Except String String :=
  match arguments.text key with
  | some value => .ok value
  | none => .error problem

/-- The user of a call, validated. -/
def namedUser (server : McpServer) (arguments : Json) : Except String String := do
  let user ← server.resolveUser (arguments.text "user")
  validatePathSegment user "user"
  return user

section Handlers

variable (rendering : Rendering) (server : McpServer) (arguments : Json)

/-- Store a memory. -/
def handleRemember : Conversation ToolCallResult := orError do
  let text ← required arguments "text" "'text' argument is required and must be non-empty"
  let user ← namedUser server arguments
  let session := (arguments.text "session").getD "default"
  let body := .object
    [("session", .string session), ("text", .string text), ("user", .string user)]
  return relay rendering (server.post .memory body)

/-- Retrieve context from memory. -/
def handleRecall : Conversation ToolCallResult := orError do
  let query ← required arguments "query" "'query' argument is required and must be non-empty"
  let user ← namedUser server arguments
  let session := (arguments.text "session").getD "default"
  let maxTokens := (arguments.natural "max_tokens").getD 1000
  let body := .object [("max_tokens", .number (toString maxTokens)), ("query", .string query),
    ("session", .string session)]
  return relay rendering (server.post (.context user) body)

/-- Query the knowledge graph. -/
def handleGraphQuery : Conversation ToolCallResult := orError do
  let operation ← given arguments "operation" "'operation' argument is required"
  let user ← namedUser server arguments
  let limit := (arguments.natural "limit").getD 50
  match operation with
  | "list_entities" =>
      return relay rendering (server.get (.entities user limit (arguments.text "entity_type")))
  | "list_edges" => return relay rendering (server.get (.edges user limit))
  | "communities" => return relay rendering (server.get (.communities user))
  | _ => .error ("Unknown operation '" ++ operation ++
      "'. Must be one of: list_entities, list_edges, communities")

/-- Read or update the identity of an agent. -/
def handleAgentIdentity : Conversation ToolCallResult := orError do
  let agentId ← given arguments "agent_id" "'agent_id' argument is required"
  validatePathSegment agentId "agent_id"
  let action ← given arguments "action" "'action' argument is required"
  match action with
  | "get" => return relay rendering (server.get (.identity agentId))
  | "update" =>
      match arguments.get "update" with
      | some update => return relay rendering (server.put (.identity agentId) update)
      | none => .error "'update' argument is required for action=update"
  | _ => .error ("Unknown action '" ++ action ++ "'. Must be 'get' or 'update'")

/-- Read or generate a digest. -/
def handleDigest : Conversation ToolCallResult := orError do
  let user ← namedUser server arguments
  let action ← given arguments "action" "'action' argument is required"
  match action with
  | "get" => return relay rendering (server.get (.digest user))
  | "generate" => return relay rendering (server.post (.digest user) (.object []))
  | _ => .error ("Unknown action '" ++ action ++ "'. Must be 'get' or 'generate'")

/-- Read the coherence report of a user. -/
def handleCoherence : Conversation ToolCallResult := orError do
  let user ← namedUser server arguments
  return relay rendering (server.get (.coherence user))

/-- Check the server. -/
def handleHealth : Conversation ToolCallResult :=
  let labels :=
    { Labels.standard with
      transport := "Cannot reach Mnemo server at " ++ server.config.mnemoBaseUrl ++ ": "
      refused := "Mnemo health check failed" }
  sending rendering labels (server.get .health) fun body => .done (.json rendering body)

/-- Create a region and grant an agent access to it. -/
def handleDelegate : Conversation ToolCallResult := orError do
  let user ← namedUser server arguments
  let regionName ← required arguments "region_name"
    "'region_name' argument is required and must be non-empty"
  let targetAgentId ← required arguments "target_agent_id"
    "'target_agent_id' argument is required and must be non-empty"
  validatePathSegment targetAgentId "target_agent_id"
  let permission := (arguments.text "permission").getD "read"
  if ["read", "write", "manage"].contains permission then
    let regionBody := .object [("name", .string regionName), ("user_id", .string user)]
    let creating := { Labels.standard with refused := "Failed to create region" }
    return sending rendering creating (server.post .regions regionBody) fun region =>
      match region.text "id" with
      | none => .done (.error "Region created but response missing 'id' field")
      | some regionId =>
          let aclBody := .object
            [("agent_id", .string targetAgentId), ("permission", .string permission)]
          let granting : Labels :=
            { transport := "ACL grant HTTP request failed: "
              refused := "Region created but ACL grant failed"
              unparsed := "Failed to parse ACL response: " }
          sending rendering granting (server.post (.acl regionId) aclBody) fun _ =>
            .done (.json rendering (.object [("permission", .string permission),
              ("region_id", .string regionId), ("region_name", .string regionName),
              ("status", .string "delegated"), ("target_agent_id", .string targetAgentId)]))
  else
    .error ("Invalid permission '" ++ permission ++ "'. Must be one of: read, write, manage")

/-- Revoke the access of an agent to a region. -/
def handleRevoke : Conversation ToolCallResult := orError do
  let regionId ← required arguments "region_id"
    "'region_id' argument is required and must be non-empty"
  validatePathSegment regionId "region_id"
  let targetAgentId ← required arguments "target_agent_id"
    "'target_agent_id' argument is required and must be non-empty"
  validatePathSegment targetAgentId "target_agent_id"
  let result := .object [("region_id", .string regionId), ("status", .string "revoked"),
    ("target_agent_id", .string targetAgentId)]
  return confirming rendering "Revoke failed" (server.delete (.aclEntry regionId targetAgentId))
    result

/-- List the regions of a user, or those an agent may see. -/
def handleScopes : Conversation ToolCallResult := orError do
  let user ← namedUser server arguments
  match arguments.text "agent_id" with
  | none => return relay rendering (server.get (.scopes user none))
  | some agentId =>
      validatePathSegment agentId "agent_id"
      return relay rendering (server.get (.scopes user (some agentId)))

/-- The confidence of an experience, between zero and one. -/
def confidenceOf : Except String ℚ :=
  match (arguments.literal "confidence").bind rendering.asF64 with
  | some confidence =>
      if 0 ≤ confidence ∧ confidence ≤ 1 then .ok confidence
      else .error ("'confidence' must be between 0.0 and 1.0, got " ++ rendering.shown confidence)
  | none => .error "'confidence' argument is required"

/-- Record an experience of an agent. -/
def handleExperience : Conversation ToolCallResult := orError do
  let agentId ← required arguments "agent_id" "'agent_id' argument is required"
  validatePathSegment agentId "agent_id"
  let category ← required arguments "category"
    "'category' argument is required and must be non-empty"
  let signal ← required arguments "signal" "'signal' argument is required and must be non-empty"
  let confidence ← confidenceOf rendering arguments
  let evidence := (arguments.texts "evidence_episode_ids").map Json.string
  let body := .object [("category", .string category),
    ("confidence", .number (rendering.narrowed confidence)),
    ("evidence_episode_ids", .array evidence), ("signal", .string signal)]
  return relay rendering (server.post (.experience agentId) body)

/-- Connect entities, or find neighbors and paths. -/
def handleRelate : Conversation ToolCallResult := orError do
  let user ← namedUser server arguments
  let action ← given arguments "action" "'action' argument is required"
  let source ← required arguments "source" "'source' argument is required and must be non-empty"
  match action with
  | "connect" =>
      let target ← required arguments "target"
        "'target' argument is required for 'connect' action"
      let relation ← required arguments "relation"
        "'relation' argument is required for 'connect' action"
      let body := .object [("relation", .string relation), ("source_entity", .string source),
        ("target_entity", .string target)]
      return relay rendering (server.post (.relations user) body)
  | "neighbors" =>
      let depth := (arguments.natural "depth").getD 1
      return relay rendering (server.get (.neighbors user source depth))
  | "path" =>
      let target ← required arguments "target" "'target' argument is required for 'path' action"
      let body := .object [("source", .string source), ("target", .string target)]
      return relay rendering (server.post (.shortestPath user) body)
  | _ => .error ("Unknown action '" ++ action ++
      "'. Must be one of: connect, neighbors, path")

/-- Delete an episode of a user. -/
def handleForget : Conversation ToolCallResult := orError do
  let user ← namedUser server arguments
  let episodeId ← required arguments "episode_id"
    "'episode_id' argument is required and must be non-empty"
  validatePathSegment episodeId "episode_id"
  let reason ← required arguments "reason"
    "'reason' argument is required for audit purposes and must be non-empty"
  let result := .object [("episode_id", .string episodeId), ("reason", .string reason),
    ("status", .string "deleted")]
  return confirming rendering "Delete failed" (server.delete (.userEpisode episodeId user)) result

end Handlers

/-- The short name for a deprecated one. -/
def resolveDeprecatedName : String → Option String
  | "mnemo_remember" => some "remember"
  | "mnemo_recall" => some "recall"
  | "mnemo_graph_query" => some "graph"
  | "mnemo_agent_identity" => some "identity"
  | "mnemo_digest" => some "digest"
  | "mnemo_coherence" => some "coherence"
  | "mnemo_health" => some "health"
  | _ => none

/-- The short name of a tool. -/
def canonicalName (toolName : String) : String := (resolveDeprecatedName toolName).getD toolName

/-- Dispatch a tool call to its handler. -/
def dispatchTool (rendering : Rendering) (server : McpServer) (toolName : String)
    (arguments : Json) : Conversation ToolCallResult :=
  match canonicalName toolName with
  | "remember" => handleRemember rendering server arguments
  | "recall" => handleRecall rendering server arguments
  | "graph" => handleGraphQuery rendering server arguments
  | "identity" => handleAgentIdentity rendering server arguments
  | "digest" => handleDigest rendering server arguments
  | "coherence" => handleCoherence rendering server arguments
  | "health" => handleHealth rendering server
  | "delegate" => handleDelegate rendering server arguments
  | "revoke" => handleRevoke rendering server arguments
  | "scopes" => handleScopes rendering server arguments
  | "experience" => handleExperience rendering server arguments
  | "relate" => handleRelate rendering server arguments
  | "forget" => handleForget rendering server arguments
  | _ => .done (.error ("Unknown tool: " ++ toolName))

end Mcp
end Mnemo
