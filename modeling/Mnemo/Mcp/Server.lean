import Mathlib.Data.Rat.Defs
import Mnemo.Core.Json
import Mnemo.Lib.Program
import Mnemo.Lib.UrlTemplate

/-!
# The adapter for model clients

The adapter answers the tool calls and resource reads of a model with requests to the server.  The
path of a request is put together from fixed text and the identifiers the model names.
-/

namespace Mnemo

namespace Json

/-- The value of a field of an object. -/
def get (key : String) : Json → Option Json
  | .object fields => fields.lookup key
  | _ => none

/-- The text of a field. -/
def text (arguments : Json) (key : String) : Option String :=
  match arguments.get key with
  | some (.string value) => some value
  | _ => none

/-- The unsigned number of 64 bits in a field. -/
def natural (arguments : Json) (key : String) : Option Nat :=
  match arguments.get key with
  | some (.number literal) => literal.toNat?.filter (· < 2 ^ 64)
  | _ => none

/-- The literal of the number in a field. -/
def literal (arguments : Json) (key : String) : Option String :=
  match arguments.get key with
  | some (.number literal) => some literal
  | _ => none

/-- The texts in the list in a field. -/
def texts (arguments : Json) (key : String) : List String :=
  match arguments.get key with
  | some (.array items) => items.filterMap fun item =>
      match item with
      | .string value => some value
      | _ => none
  | _ => []

end Json

namespace Mcp

/-! ## Requests -/

/-- What the adapter asks the server for, with the identifiers that stand in the address. -/
inductive Endpoint
  | memory
  | context (user : String)
  | entities (user : String) (limit : Nat) (entityType : Option String)
  | edges (user : String) (limit : Nat)
  | communities (user : String)
  | identity (agentId : String)
  | digest (user : String)
  | coherence (user : String)
  | health
  | regions
  | acl (regionId : String)
  | aclEntry (regionId targetAgentId : String)
  | scopes (user : String) (agentId : Option String)
  | experience (agentId : String)
  | relations (user : String)
  | neighbors (user source : String) (depth : Nat)
  | shortestPath (user : String)
  | userEpisode (episodeId user : String)
  | userEpisodes (user : String)
  | userRecall (user query : String)
  | userDigest (user : String)
  | episode (episodeId : String)
  | experiences (agentId : String)
  | promotions (agentId : String)
deriving DecidableEq

/-- Encode a text for an address. -/
def urlencode (text : String) : String :=
  String.ofList (PercentEncoding.encode Url.isReserved text.toList)

namespace Endpoint

/-- The path and query of a request. -/
def path : Endpoint → String
  | memory => "/api/v1/memory"
  | context user => "/api/v1/memory/" ++ user ++ "/context"
  | entities user limit entityType =>
      "/api/v1/graph/" ++ user ++ "/entities?limit=" ++ toString limit ++
        match entityType with
        | some entityType => "&type=" ++ entityType
        | none => ""
  | edges user limit => "/api/v1/graph/" ++ user ++ "/edges?limit=" ++ toString limit
  | communities user => "/api/v1/graph/" ++ user ++ "/communities"
  | identity agentId => "/api/v1/agents/" ++ agentId ++ "/identity"
  | digest user => "/api/v1/memory/" ++ user ++ "/digest"
  | coherence user => "/api/v1/users/" ++ user ++ "/coherence"
  | health => "/health"
  | regions => "/api/v1/regions"
  | acl regionId => "/api/v1/regions/" ++ regionId ++ "/acl"
  | aclEntry regionId targetAgentId =>
      "/api/v1/regions/" ++ regionId ++ "/acl/" ++ targetAgentId
  | scopes user agentId =>
      "/api/v1/regions?user_id=" ++ user ++
        match agentId with
        | some agentId => "&agent_id=" ++ agentId
        | none => ""
  | experience agentId => "/api/v1/agents/" ++ agentId ++ "/experience"
  | relations user => "/api/v1/graph/" ++ user ++ "/edges"
  | neighbors user source depth =>
      "/api/v1/graph/" ++ user ++ "/neighbors/" ++ urlencode source ++ "?depth=" ++ toString depth
  | shortestPath user => "/api/v1/graph/" ++ user ++ "/path"
  | userEpisode episodeId user => "/api/v1/episodes/" ++ episodeId ++ "?user=" ++ user
  | userEpisodes user => "/api/v1/users/" ++ user ++ "/episodes?limit=20"
  | userRecall user query =>
      "/api/v1/users/" ++ user ++ "/recall?query=" ++ urlencode query ++ "&limit=20"
  | userDigest user => "/api/v1/users/" ++ user ++ "/digest"
  | episode episodeId => "/api/v1/episodes/" ++ episodeId
  | experiences agentId => "/api/v1/agents/" ++ agentId ++ "/experience?limit=20"
  | promotions agentId => "/api/v1/agents/" ++ agentId ++ "/promotions"

end Endpoint

/-- The methods of requests. -/
inductive Method
  | get
  | post
  | put
  | delete
deriving DecidableEq

/-- A request to the server. -/
structure Request where
  method : Method
  endpoint : Endpoint
  url : String
  apiKey : Option String
  body : Option Json

/-- A response of the server; its body is a value, or the error of reading one. -/
structure Response where
  status : Nat
  body : Except String Json

/-- Whether the server has done what it was asked for. -/
def Response.isSuccess (response : Response) : Bool :=
  200 ≤ response.status && response.status < 300

/-- A conversation with the server; a request that gets no response fails with a text. -/
abbrev Conversation (α : Type) := Program Request (fun _ => Response) String α

/-- Configuration for the adapter. -/
structure McpConfig where
  mnemoBaseUrl : String
  apiKey : Option String
  defaultUser : Option String

/-- The adapter. -/
structure McpServer where
  config : McpConfig

namespace McpServer

/-- Build a request with the key of the configuration. -/
def request (server : McpServer) (method : Method) (endpoint : Endpoint)
    (body : Option Json) : Request :=
  { method, endpoint
    url := server.config.mnemoBaseUrl ++ endpoint.path
    apiKey := server.config.apiKey
    body }

/-- Build a request to read something. -/
def get (server : McpServer) (endpoint : Endpoint) : Request := server.request .get endpoint none

/-- Build a request to create something. -/
def post (server : McpServer) (endpoint : Endpoint) (body : Json) : Request :=
  server.request .post endpoint (some body)

/-- Build a request to replace something. -/
def put (server : McpServer) (endpoint : Endpoint) (body : Json) : Request :=
  server.request .put endpoint (some body)

/-- Build a request to delete something. -/
def delete (server : McpServer) (endpoint : Endpoint) : Request :=
  server.request .delete endpoint none

/-- Resolve a user identifier: the provided one or the default. -/
def resolveUser (server : McpServer) (provided : Option String) : Except String String :=
  match provided.or server.config.defaultUser with
  | some user => .ok user
  | none => .error ("No user specified and MNEMO_MCP_DEFAULT_USER not set. " ++
      "Provide a 'user' argument or set the environment variable.")

end McpServer

/-! ## Identifiers -/

/-- The parts of an address that identifiers must not hold. -/
def holdsIllegal (value : String) : Bool :=
  Text.occursIn ".." value || value.toList.contains '/' || value.toList.contains '\\' ||
    value.toList.contains (Char.ofNat 0)

/-- Validate that an identifier is safe for URL path interpolation. -/
def validatePathSegment (value fieldName : String) : Except String Unit :=
  if value = "" then .error ("'" ++ fieldName ++ "' cannot be empty")
  else if holdsIllegal value then
    .error ("'" ++ fieldName ++ "' contains illegal characters: '" ++ value ++ "'")
  else if 256 < Text.byteLength value then
    .error ("'" ++ fieldName ++ "' exceeds maximum length of 256 characters")
  else .ok ()

/-- Validate that an identifier segment is safe. -/
def validateIdentifier (id fieldName : String) : Except String Unit :=
  if id = "" then .error (fieldName ++ " cannot be empty")
  else if holdsIllegal id then
    .error ("Invalid " ++ fieldName ++ ": '" ++ id ++
      "' contains illegal characters (path traversal not allowed)")
  else if 256 < Text.byteLength id then
    .error (fieldName ++ " exceeds maximum length of 256 characters")
  else .ok ()

/-- What validated identifiers have in common. -/
structure Accepted (value : String) : Prop where
  nonempty : value ≠ ""
  separate : ∀ character ∈ value.toList, Url.isSlash character = false
  dots : value ≠ ".."

theorem accepted_of_not_holdsIllegal {value : String} (nonempty : value ≠ "")
    (legal : holdsIllegal value = false) : Accepted value := by
  simp only [holdsIllegal, Bool.or_eq_false_iff, List.contains_eq_mem, decide_eq_false_iff_not]
    at legal
  obtain ⟨⟨⟨dots, slash⟩, backslash⟩, _⟩ := legal
  refine ⟨nonempty, fun character member => ?_, ?_⟩
  · rw [Url.isSlash, Bool.or_eq_false_iff, beq_eq_false_iff_ne, beq_eq_false_iff_ne]
    exact ⟨fun same => slash (same ▸ member), fun same => backslash (same ▸ member)⟩
  · rintro rfl
    exact absurd dots (by decide)

theorem accepted_of_validatePathSegment {value fieldName : String} {valid : Unit}
    (accepts : validatePathSegment value fieldName = .ok valid) : Accepted value := by
  rw [validatePathSegment] at accepts
  split at accepts
  · exact nomatch accepts
  next nonempty =>
    split at accepts
    · exact nomatch accepts
    next legal => exact accepted_of_not_holdsIllegal nonempty (Bool.eq_false_iff.mpr legal)

theorem accepted_of_validateIdentifier {id fieldName : String} {valid : Unit}
    (accepts : validateIdentifier id fieldName = .ok valid) : Accepted id := by
  rw [validateIdentifier] at accepts
  split at accepts
  · exact nomatch accepts
  next nonempty =>
    split at accepts
    · exact nomatch accepts
    next legal => exact accepted_of_not_holdsIllegal nonempty (Bool.eq_false_iff.mpr legal)

end Mcp
end Mnemo
