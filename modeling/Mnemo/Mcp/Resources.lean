import Mnemo.Mcp.Tools

/-!
# Reading resources

A resource is read by its URI: the identifiers are cut out of it, validated and put into the path
of a request.
-/

namespace Mnemo

namespace Text

/-- What stands before the first separator of a text and after it. -/
def splitOnce (separator : Char) (text : String) : Option (String × String) :=
  match text.toList.dropWhile (· != separator) with
  | [] => none
  | _ :: rest =>
      some (String.ofList (text.toList.takeWhile (· != separator)), String.ofList rest)

/-- Split a text at a separator, into a number of parts at most. -/
def splitn : Nat → Char → String → List String
  | 0, _, _ => []
  | 1, _, text => [text]
  | count + 2, separator, text =>
      match splitOnce separator text with
      | none => [text]
      | some (first, rest) => first :: splitn (count + 1) separator rest

end Text

namespace Mcp

/-- The content of a resource. -/
structure ResourceReadResult where
  uri : String
  mimeType : String
  text : String

/-- Send a request and hand on the value the server responds as the content of a resource. -/
def readFrom (rendering : Rendering) (uri : String) (request : Request) :
    Conversation ResourceReadResult :=
  .perform request fun
    | .error problem => .fail ("HTTP request failed: " ++ problem)
    | .ok response =>
        match response.body with
        | .error problem => .fail ("Failed to parse response: " ++ problem)
        | .ok body =>
            if response.isSuccess then
              .done ⟨uri, "application/json", rendering.pretty body⟩
            else .fail ("Mnemo API error (" ++ rendering.status response.status ++ "): " ++
              rendering.pretty body)

/-- Decode a text of an address; bytes that are no text fail. -/
def urldecode (problem text : String) : Except String String :=
  match String.fromUTF8? (PercentEncoding.decode text.toList).toByteArray with
  | some decoded => .ok decoded
  | none => .error problem

/-- The value of the parameter `q`. -/
def queryParameter (queryString : String) : String :=
  let found := (Text.stripStart queryString "q=").or
    (((queryString.toList.splitOnP (· == '&')).map String.ofList).find?
      (Text.startsWith · "q=") |>.bind (Text.stripStart · "q="))
  found.getD ""

section Readers

variable (rendering : Rendering) (server : McpServer) (uri : String)

/-- Search the memory of a user. -/
def readUserSearch (utf8Error user queryString : String) : Conversation ResourceReadResult :=
  let query := queryParameter queryString
  if query = "" then
    .fail "Search requires a 'q' query parameter (e.g., ?q=search+terms)"
  else
    match urldecode ("Invalid query encoding: " ++ utf8Error) query with
    | .error problem => .fail problem
    | .ok decodedQuery =>
        if 1024 < Text.byteLength decodedQuery then
          .fail "Search query exceeds maximum length of 1024 characters"
        else readFrom rendering uri (server.get (.userRecall user decodedQuery))

/-- Validate an identifier before a resource is read. -/
def validated (id fieldName : String) (next : Conversation ResourceReadResult) :
    Conversation ResourceReadResult :=
  match validateIdentifier id fieldName with
  | .error problem => .fail problem
  | .ok () => next

/-- Parse a resource URI and dispatch to the appropriate handler. -/
def readResource (utf8Error : String) : Conversation ResourceReadResult :=
  match Text.stripStart uri "mnemo://" with
  | none => .fail ("Invalid resource URI: " ++ uri ++ ". Must start with 'mnemo://'")
  | some rest =>
      let (pathPart, queryPart) := (Text.splitOnce '?' rest).getD (rest, "")
      match Text.splitn 4 '/' pathPart with
      | ["users", user, "memory"] =>
          validated user "user" (readFrom rendering uri (server.get (.coherence user)))
      | ["users", user, "episodes"] =>
          validated user "user" (readFrom rendering uri (server.get (.userEpisodes user)))
      | ["users", user, "entities"] =>
          validated user "user" (readFrom rendering uri (server.get (.entities user 50 none)))
      | ["users", user, "search"] =>
          validated user "user" (readUserSearch rendering server uri utf8Error user queryPart)
      | ["users", user, "digest"] =>
          validated user "user" (readFrom rendering uri (server.get (.userDigest user)))
      | ["users", user, "graph", "edges"] =>
          validated user "user" (readFrom rendering uri (server.get (.edges user 100)))
      | ["users", user, "graph", "communities"] =>
          validated user "user" (readFrom rendering uri (server.get (.communities user)))
      | ["episodes", episodeId] =>
          validated episodeId "episode_id" (readFrom rendering uri (server.get (.episode episodeId)))
      | ["agents", agentId, "identity"] =>
          validated agentId "agent_id" (readFrom rendering uri (server.get (.identity agentId)))
      | ["agents", agentId, "experience"] =>
          validated agentId "agent_id" (readFrom rendering uri (server.get (.experiences agentId)))
      | ["agents", agentId, "promotions"] =>
          validated agentId "agent_id" (readFrom rendering uri (server.get (.promotions agentId)))
      | _ => .fail ("Unknown resource URI: " ++ uri)

end Readers

end Mcp
end Mnemo
