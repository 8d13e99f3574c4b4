import Mnemo.Mcp.Resources

/-!
# The addresses of requests

Every request is meant to have the fixed segments of its endpoint with each identifier as one
segment, and the parameters of its endpoint.  Its text is what is written for this template.
-/

namespace Mnemo
namespace Mcp

open Url (Piece Template)

/-- A fixed segment. -/
def fixed (name : String) : Piece := .raw name.toList

/-- An identifier that is put into the address as it is. -/
def identifier (value : String) : Piece := .raw value.toList

/-- A parameter. -/
def parameter (name : String) (value : Piece) : List Char × Piece := (name.toList, value)

/-- The segments below the root of the interface. -/
def api (segments : List Piece) (parameters : List (List Char × Piece)) : Template :=
  ⟨fixed "api" :: fixed "v1" :: segments, parameters⟩

namespace Endpoint

/-- The segments and parameters an endpoint is meant to have. -/
def template : Endpoint → Template
  | memory => api [fixed "memory"] []
  | context user => api [fixed "memory", identifier user, fixed "context"] []
  | entities user limit none =>
      api [fixed "graph", identifier user, fixed "entities"]
        [parameter "limit" (identifier (toString limit))]
  | entities user limit (some entityType) =>
      api [fixed "graph", identifier user, fixed "entities"]
        [parameter "limit" (identifier (toString limit)), parameter "type" (identifier entityType)]
  | edges user limit =>
      api [fixed "graph", identifier user, fixed "edges"]
        [parameter "limit" (identifier (toString limit))]
  | communities user => api [fixed "graph", identifier user, fixed "communities"] []
  | identity agentId => api [fixed "agents", identifier agentId, fixed "identity"] []
  | digest user => api [fixed "memory", identifier user, fixed "digest"] []
  | coherence user => api [fixed "users", identifier user, fixed "coherence"] []
  | health => ⟨[fixed "health"], []⟩
  | regions => api [fixed "regions"] []
  | acl regionId => api [fixed "regions", identifier regionId, fixed "acl"] []
  | aclEntry regionId targetAgentId =>
      api [fixed "regions", identifier regionId, fixed "acl", identifier targetAgentId] []
  | scopes user none => api [fixed "regions"] [parameter "user_id" (identifier user)]
  | scopes user (some agentId) =>
      api [fixed "regions"]
        [parameter "user_id" (identifier user), parameter "agent_id" (identifier agentId)]
  | experience agentId => api [fixed "agents", identifier agentId, fixed "experience"] []
  | relations user => api [fixed "graph", identifier user, fixed "edges"] []
  | neighbors user source depth =>
      api [fixed "graph", identifier user, fixed "neighbors", .encoded source.toList]
        [parameter "depth" (identifier (toString depth))]
  | shortestPath user => api [fixed "graph", identifier user, fixed "path"] []
  | userEpisode episodeId user =>
      api [fixed "episodes", identifier episodeId] [parameter "user" (identifier user)]
  | userEpisodes user =>
      api [fixed "users", identifier user, fixed "episodes"] [parameter "limit" (fixed "20")]
  | userRecall user query =>
      api [fixed "users", identifier user, fixed "recall"]
        [parameter "query" (.encoded query.toList), parameter "limit" (fixed "20")]
  | userDigest user => api [fixed "users", identifier user, fixed "digest"] []
  | episode episodeId => api [fixed "episodes", identifier episodeId] []
  | experiences agentId =>
      api [fixed "agents", identifier agentId, fixed "experience"]
        [parameter "limit" (fixed "20")]
  | promotions agentId => api [fixed "agents", identifier agentId, fixed "promotions"] []

theorem toList_path (endpoint : Endpoint) : endpoint.path.toList = endpoint.template.text := by
  cases endpoint with
  | entities user limit entityType =>
    cases entityType
    all_goals
      delta path template
      dsimp only
      simp [Template.text, Template.writtenSegments, Template.writtenParameters, api, fixed,
        identifier, parameter, Piece.written, Url.joinParameters]
  | scopes user agentId =>
    cases agentId
    all_goals
      delta path template
      dsimp only
      simp [Template.text, Template.writtenSegments, Template.writtenParameters, api, fixed,
        identifier, parameter, Piece.written, Url.joinParameters]
  | _ =>
    delta path template
    dsimp only
    simp [Template.text, Template.writtenSegments, Template.writtenParameters, api, fixed,
      identifier, parameter, Piece.written, Url.joinParameters, urlencode]

end Endpoint

end Mcp
end Mnemo
