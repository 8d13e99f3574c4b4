import Mnemo.Mcp.Confinement

/-!
# Confinement of tool calls and resources

Whatever a model asks for and the server responds, the adapter sends requests for the endpoints of
the tool or the resource with the identifiers it was given, and validation has accepted those in
their paths.  Each request is confined exactly when its parts are plain.
-/

namespace Mnemo
namespace Mcp

/-! ## Tool calls -/

/-- The endpoints a tool may call, with the identifiers among its arguments. -/
inductive Asks (server : McpServer) (arguments : Json) : String → Endpoint → Prop
  | remember : Asks server arguments "remember" .memory
  | recall {user : String} (named : server.resolveUser (arguments.text "user") = .ok user) :
      Asks server arguments "recall" (.context user)
  | entities {user : String} {limit : Nat}
      (named : server.resolveUser (arguments.text "user") = .ok user) :
      Asks server arguments "graph" (.entities user limit (arguments.text "entity_type"))
  | edges {user : String} {limit : Nat}
      (named : server.resolveUser (arguments.text "user") = .ok user) :
      Asks server arguments "graph" (.edges user limit)
  | communities {user : String}
      (named : server.resolveUser (arguments.text "user") = .ok user) :
      Asks server arguments "graph" (.communities user)
  | identity {agentId : String} (agent : arguments.text "agent_id" = some agentId) :
      Asks server arguments "identity" (.identity agentId)
  | digest {user : String} (named : server.resolveUser (arguments.text "user") = .ok user) :
      Asks server arguments "digest" (.digest user)
  | coherence {user : String} (named : server.resolveUser (arguments.text "user") = .ok user) :
      Asks server arguments "coherence" (.coherence user)
  | health : Asks server arguments "health" .health
  | regions : Asks server arguments "delegate" .regions
  /-- The region is the one in the response of the server. -/
  | acl {regionId : String} : Asks server arguments "delegate" (.acl regionId)
  | revoke {regionId targetAgentId : String} (region : arguments.text "region_id" = some regionId)
      (target : arguments.text "target_agent_id" = some targetAgentId) :
      Asks server arguments "revoke" (.aclEntry regionId targetAgentId)
  | scopes {user : String} (named : server.resolveUser (arguments.text "user") = .ok user) :
      Asks server arguments "scopes" (.scopes user (arguments.text "agent_id"))
  | experience {agentId : String} (agent : arguments.text "agent_id" = some agentId) :
      Asks server arguments "experience" (.experience agentId)
  | relations {user : String} (named : server.resolveUser (arguments.text "user") = .ok user) :
      Asks server arguments "relate" (.relations user)
  | neighbors {user source : String} {depth : Nat}
      (named : server.resolveUser (arguments.text "user") = .ok user)
      (start : arguments.text "source" = some source) :
      Asks server arguments "relate" (.neighbors user source depth)
  | shortestPath {user : String}
      (named : server.resolveUser (arguments.text "user") = .ok user) :
      Asks server arguments "relate" (.shortestPath user)
  | forget {user episodeId : String}
      (named : server.resolveUser (arguments.text "user") = .ok user)
      (episode : arguments.text "episode_id" = some episodeId) :
      Asks server arguments "forget" (.userEpisode episodeId user)

/-- A request of the adapter for an endpoint of a kind whose identifiers have been checked. -/
def Sends (server : McpServer) (kind : Endpoint → Prop) (request : Request) : Prop :=
  ∃ method endpoint body, request = server.request method endpoint body ∧ kind endpoint ∧
    endpoint.Checked

section Conversations

variable {rendering : Rendering} {server : McpServer} {arguments : Json}
  {kind : Request → Prop}

theorem performs_sending {labels : Labels} {request : Request}
    {next : Json → Conversation ToolCallResult} (belongs : kind request)
    (continues : ∀ body, (next body).Performs kind) :
    (sending rendering labels request next).Performs kind := by
  refine .perform belongs fun reply => ?_
  cases reply with
  | error problem => exact .done
  | ok response =>
    dsimp only
    split
    · split
      · exact continues _
      · exact .done
    · exact .done

theorem performs_relay {request : Request} (belongs : kind request) :
    (relay rendering request).Performs kind :=
  performs_sending belongs fun _ => .done

theorem performs_confirming {label : String} {request : Request} {result : Json}
    (belongs : kind request) : (confirming rendering label request result).Performs kind := by
  refine .perform belongs fun reply => ?_
  cases reply with
  | error problem => exact .done
  | ok response =>
    dsimp only
    split
    · exact .done
    · split
      · exact .done
      · exact .done

theorem performs_orError_bind {α : Type} {step : Except String α}
    {next : α → Except String (Conversation ToolCallResult)}
    (continues : ∀ value, step = .ok value → (orError (next value)).Performs kind) :
    (orError (step >>= next)).Performs kind := by
  cases step with
  | error problem => exact .done
  | ok value => exact continues value rfl

theorem text_of_given {key problem value : String}
    (gives : given arguments key problem = .ok value) : arguments.text key = some value := by
  rw [given] at gives
  split at gives
  next found => rw [found, Except.ok.inj gives]
  next => exact nomatch gives

theorem text_of_required {key problem value : String}
    (gives : required arguments key problem = .ok value) :
    arguments.text key = some value ∧ value ≠ "" := by
  rw [required] at gives
  split at gives
  next found =>
    split at gives
    · exact nomatch gives
    next visible =>
      obtain rfl := Except.ok.inj gives
      refine ⟨found, ?_⟩
      rintro rfl
      exact visible (by decide)
  next => exact nomatch gives

theorem of_namedUser {user : String} (named : namedUser server arguments = .ok user) :
    server.resolveUser (arguments.text "user") = .ok user ∧ Accepted user := by
  rw [namedUser] at named
  cases resolved : server.resolveUser (arguments.text "user") with
  | error problem =>
    rw [resolved] at named
    exact nomatch named
  | ok value =>
    rw [resolved] at named
    cases valid : validatePathSegment value "user" with
    | error problem =>
      change (validatePathSegment value "user" >>= fun _ => pure value) = _ at named
      rw [valid] at named
      exact nomatch named
    | ok passed =>
      change (validatePathSegment value "user" >>= fun _ => pure value) = _ at named
      rw [valid] at named
      obtain rfl := Except.ok.inj named
      exact ⟨rfl, accepted_of_validatePathSegment valid⟩

end Conversations

section Handlers

variable (rendering : Rendering) (server : McpServer) (arguments : Json)

theorem performs_handleRemember : (handleRemember rendering server arguments).Performs
    (Sends server (Asks server arguments "remember")) := by
  refine performs_orError_bind fun text _ => performs_orError_bind fun user named => ?_
  exact performs_relay ⟨_, _, _, rfl, .remember, trivial⟩

theorem performs_handleRecall : (handleRecall rendering server arguments).Performs
    (Sends server (Asks server arguments "recall")) := by
  refine performs_orError_bind fun query _ => performs_orError_bind fun user named => ?_
  obtain ⟨resolved, accepted⟩ := of_namedUser named
  exact performs_relay ⟨_, _, _, rfl, .recall resolved, accepted⟩

theorem performs_handleGraphQuery : (handleGraphQuery rendering server arguments).Performs
    (Sends server (Asks server arguments "graph")) := by
  refine performs_orError_bind fun operation _ => performs_orError_bind fun user named => ?_
  obtain ⟨resolved, accepted⟩ := of_namedUser named
  dsimp only
  split
  · exact performs_relay ⟨_, _, _, rfl, .entities resolved, accepted⟩
  · exact performs_relay ⟨_, _, _, rfl, .edges resolved, accepted⟩
  · exact performs_relay ⟨_, _, _, rfl, .communities resolved, accepted⟩
  · exact .done

theorem performs_handleAgentIdentity : (handleAgentIdentity rendering server arguments).Performs
    (Sends server (Asks server arguments "identity")) := by
  refine performs_orError_bind fun agentId agent => performs_orError_bind fun _ valid =>
    performs_orError_bind fun action _ => ?_
  have asks : Asks server arguments "identity" (.identity agentId) :=
    .identity (text_of_given agent)
  have accepted := accepted_of_validatePathSegment valid
  split
  · exact performs_relay ⟨_, _, _, rfl, asks, accepted⟩
  · split
    · exact performs_relay ⟨_, _, _, rfl, asks, accepted⟩
    · exact .done
  · exact .done

theorem performs_handleDigest : (handleDigest rendering server arguments).Performs
    (Sends server (Asks server arguments "digest")) := by
  refine performs_orError_bind fun user named => performs_orError_bind fun action _ => ?_
  obtain ⟨resolved, accepted⟩ := of_namedUser named
  split
  · exact performs_relay ⟨_, _, _, rfl, .digest resolved, accepted⟩
  · exact performs_relay ⟨_, _, _, rfl, .digest resolved, accepted⟩
  · exact .done

theorem performs_handleCoherence : (handleCoherence rendering server arguments).Performs
    (Sends server (Asks server arguments "coherence")) := by
  refine performs_orError_bind fun user named => ?_
  obtain ⟨resolved, accepted⟩ := of_namedUser named
  exact performs_relay ⟨_, _, _, rfl, .coherence resolved, accepted⟩

theorem performs_handleHealth : (handleHealth rendering server).Performs
    (Sends server (Asks server arguments "health")) :=
  performs_sending ⟨_, _, _, rfl, .health, trivial⟩ fun _ => .done

theorem performs_handleDelegate : (handleDelegate rendering server arguments).Performs
    (Sends server (Asks server arguments "delegate")) := by
  refine performs_orError_bind fun user _ => performs_orError_bind fun regionName _ =>
    performs_orError_bind fun target _ => performs_orError_bind fun _ _ => ?_
  dsimp only
  split
  · refine performs_sending ⟨_, _, _, rfl, .regions, trivial⟩ fun region => ?_
    split
    · exact .done
    · exact performs_sending ⟨_, _, _, rfl, .acl, trivial⟩ fun _ => .done
  · exact .done

theorem performs_handleRevoke : (handleRevoke rendering server arguments).Performs
    (Sends server (Asks server arguments "revoke")) := by
  refine performs_orError_bind fun regionId region => performs_orError_bind fun _ validRegion =>
    performs_orError_bind fun target agent => performs_orError_bind fun _ validTarget => ?_
  exact performs_confirming ⟨_, _, _, rfl,
    .revoke (text_of_required region).1 (text_of_required agent).1,
    accepted_of_validatePathSegment validRegion, accepted_of_validatePathSegment validTarget⟩

theorem performs_handleScopes : (handleScopes rendering server arguments).Performs
    (Sends server (Asks server arguments "scopes")) := by
  refine performs_orError_bind fun user named => ?_
  obtain ⟨resolved, accepted⟩ := of_namedUser named
  have asks := Asks.scopes resolved
  split
  next none =>
    rw [none] at asks
    exact performs_relay ⟨_, _, _, rfl, asks, accepted⟩
  next agentId agent =>
    rw [agent] at asks
    refine performs_orError_bind fun _ _ => ?_
    exact performs_relay ⟨_, _, _, rfl, asks, accepted⟩

theorem performs_handleExperience : (handleExperience rendering server arguments).Performs
    (Sends server (Asks server arguments "experience")) := by
  refine performs_orError_bind fun agentId agent => performs_orError_bind fun _ valid =>
    performs_orError_bind fun category _ => performs_orError_bind fun signal _ =>
      performs_orError_bind fun confidence _ => ?_
  exact performs_relay ⟨_, _, _, rfl, .experience (text_of_required agent).1,
    accepted_of_validatePathSegment valid⟩

theorem performs_handleRelate : (handleRelate rendering server arguments).Performs
    (Sends server (Asks server arguments "relate")) := by
  refine performs_orError_bind fun user named => performs_orError_bind fun action _ =>
    performs_orError_bind fun source start => ?_
  obtain ⟨resolved, accepted⟩ := of_namedUser named
  obtain ⟨given, nonempty⟩ := text_of_required start
  split
  · refine performs_orError_bind fun target _ => performs_orError_bind fun relation _ => ?_
    exact performs_relay ⟨_, _, _, rfl, .relations resolved, accepted⟩
  · exact performs_relay ⟨_, _, _, rfl, .neighbors resolved given, accepted, nonempty⟩
  · refine performs_orError_bind fun target _ => ?_
    exact performs_relay ⟨_, _, _, rfl, .shortestPath resolved, accepted⟩
  · exact .done

theorem performs_handleForget : (handleForget rendering server arguments).Performs
    (Sends server (Asks server arguments "forget")) := by
  refine performs_orError_bind fun user named => performs_orError_bind fun episodeId episode =>
    performs_orError_bind fun _ valid => performs_orError_bind fun reason _ => ?_
  obtain ⟨resolved, accepted⟩ := of_namedUser named
  exact performs_confirming ⟨_, _, _, rfl, .forget resolved (text_of_required episode).1,
    accepted_of_validatePathSegment valid, accepted⟩

theorem performs_dispatchTool (toolName : String) :
    (dispatchTool rendering server toolName arguments).Performs
      (Sends server (Asks server arguments (canonicalName toolName))) := by
  rw [dispatchTool]
  generalize canonicalName toolName = name
  split
  · exact performs_handleRemember rendering server arguments
  · exact performs_handleRecall rendering server arguments
  · exact performs_handleGraphQuery rendering server arguments
  · exact performs_handleAgentIdentity rendering server arguments
  · exact performs_handleDigest rendering server arguments
  · exact performs_handleCoherence rendering server arguments
  · exact performs_handleHealth rendering server arguments
  · exact performs_handleDelegate rendering server arguments
  · exact performs_handleRevoke rendering server arguments
  · exact performs_handleScopes rendering server arguments
  · exact performs_handleExperience rendering server arguments
  · exact performs_handleRelate rendering server arguments
  · exact performs_handleForget rendering server arguments
  · exact .done

end Handlers

/-! ## Resources -/

/-- Texts with a separator between them. -/
def joined (separator : Char) : List String → String
  | [] => ""
  | [text] => text
  | text :: next :: rest => text ++ String.singleton separator ++ joined separator (next :: rest)

/-- The endpoint of the resource with a path, with the identifiers in it. -/
inductive Describes : List String → Endpoint → Prop
  | memory (user : String) : Describes ["users", user, "memory"] (.coherence user)
  | episodes (user : String) : Describes ["users", user, "episodes"] (.userEpisodes user)
  | entities (user : String) : Describes ["users", user, "entities"] (.entities user 50 none)
  | search (user query : String) : Describes ["users", user, "search"] (.userRecall user query)
  | digest (user : String) : Describes ["users", user, "digest"] (.userDigest user)
  | edges (user : String) : Describes ["users", user, "graph", "edges"] (.edges user 100)
  | communities (user : String) :
      Describes ["users", user, "graph", "communities"] (.communities user)
  | episode (episodeId : String) : Describes ["episodes", episodeId] (.episode episodeId)
  | identity (agentId : String) : Describes ["agents", agentId, "identity"] (.identity agentId)
  | experience (agentId : String) :
      Describes ["agents", agentId, "experience"] (.experiences agentId)
  | promotions (agentId : String) :
      Describes ["agents", agentId, "promotions"] (.promotions agentId)

/-- The endpoint of the resource with a URI, whatever query follows. -/
def Locates (uri : String) (endpoint : Endpoint) : Prop :=
  ∃ parts, Describes parts endpoint ∧ (uri = "mnemo://" ++ joined '/' parts ∨
    ∃ query, uri = "mnemo://" ++ joined '/' parts ++ "?" ++ query)

theorem eq_of_stripStart {text start rest : String}
    (strips : Text.stripStart text start = some rest) : text = start ++ rest := by
  obtain ⟨tail, found, rfl⟩ := Option.map_eq_some_iff.mp strips
  have whole := List.append_eq_of_isPrefixOf?_eq_some found
  rw [← String.toList_inj, String.toList_append, String.toList_ofList, whole]

theorem eq_of_splitOnce {separator : Char} {text first rest : String}
    (splits : Text.splitOnce separator text = some (first, rest)) :
    text = first ++ String.singleton separator ++ rest := by
  rw [Text.splitOnce] at splits
  split at splits
  next => exact nomatch splits
  next mark tail found =>
    obtain ⟨rfl, rfl⟩ := Prod.mk.inj (Option.some.inj splits)
    have whole := List.takeWhile_append_dropWhile (p := (· != separator)) (l := text.toList)
    have same : mark = separator := by
      have stops := List.head?_dropWhile_not (· != separator) text.toList
      rw [found] at stops
      simpa using stops
    rw [← String.toList_inj]
    simp only [String.toList_append, String.toList_ofList, String.toList_singleton]
    rw [found, same] at whole
    rw [List.append_assoc]
    exact whole.symm

theorem joined_splitn (count : Nat) (separator : Char) (text : String) :
    joined separator (Text.splitn (count + 1) separator text) = text := by
  induction count generalizing text with
  | zero => rfl
  | succ count ih =>
    rw [Text.splitn]
    split
    next => rfl
    next first rest splits =>
      obtain ⟨next, more, same⟩ : ∃ next more,
          Text.splitn (count + 1) separator rest = next :: more := by
        cases count with
        | zero => exact ⟨rest, [], rfl⟩
        | succ count =>
          rw [Text.splitn]
          split
          · exact ⟨_, _, rfl⟩
          · exact ⟨_, _, rfl⟩
      rw [same, joined, ← same, ih, ← eq_of_splitOnce splits]

section Readers

variable (rendering : Rendering) (server : McpServer) (uri utf8Error : String)

variable {rendering server uri} in
theorem performs_readFrom {kind : Request → Prop} {request : Request} (belongs : kind request) :
    (readFrom rendering uri request).Performs kind := by
  refine .perform belongs fun reply => ?_
  cases reply with
  | error problem => exact .fail
  | ok response =>
    dsimp only
    split
    · exact .fail
    · split
      · exact .done
      · exact .fail

theorem performs_validated {kind : Request → Prop} {id fieldName : String}
    {next : Conversation ResourceReadResult} (continues : Accepted id → next.Performs kind) :
    (validated id fieldName next).Performs kind := by
  rw [validated]
  split
  · exact .fail
  next valid => exact continues (accepted_of_validateIdentifier valid)

theorem performs_readUserSearch {kind : Request → Prop} {user queryString : String}
    (belongs : ∀ query, kind (server.get (.userRecall user query))) :
    (readUserSearch rendering server uri utf8Error user queryString).Performs kind := by
  rw [readUserSearch]
  split
  · exact .fail
  · split
    · exact .fail
    · split
      · exact .fail
      · exact performs_readFrom (belongs _)

/-- Every request for a resource is for the endpoint of the resource. -/
theorem performs_readResource :
    (readResource rendering server uri utf8Error).Performs (Sends server (Locates uri)) := by
  rw [readResource]
  split
  · exact .fail
  next rest strips =>
    have begins := eq_of_stripStart strips
    dsimp only
    have locates : ∀ {parts endpoint}, Describes parts endpoint →
        Text.splitn 4 '/' ((Text.splitOnce '?' rest).getD (rest, "")).1 = parts →
          Locates uri endpoint := by
      intro parts endpoint describes splits
      have path : joined '/' parts = ((Text.splitOnce '?' rest).getD (rest, "")).1 := by
        rw [← splits, joined_splitn]
      refine ⟨parts, describes, ?_⟩
      rw [begins, path]
      cases found : Text.splitOnce '?' rest with
      | none => exact .inl rfl
      | some halves =>
        refine .inr ⟨halves.2, ?_⟩
        rw [eq_of_splitOnce found]
        simp [String.append_assoc]
    split
    next user splits =>
      exact performs_validated fun accepted =>
        performs_readFrom ⟨_, _, _, rfl, locates (.memory user) splits, accepted⟩
    next user splits =>
      exact performs_validated fun accepted =>
        performs_readFrom ⟨_, _, _, rfl, locates (.episodes user) splits, accepted⟩
    next user splits =>
      exact performs_validated fun accepted =>
        performs_readFrom ⟨_, _, _, rfl, locates (.entities user) splits, accepted⟩
    next user splits =>
      exact performs_validated fun accepted =>
        performs_readUserSearch _ _ _ _ fun query =>
          ⟨_, _, _, rfl, locates (.search user query) splits, accepted⟩
    next user splits =>
      exact performs_validated fun accepted =>
        performs_readFrom ⟨_, _, _, rfl, locates (.digest user) splits, accepted⟩
    next user splits =>
      exact performs_validated fun accepted =>
        performs_readFrom ⟨_, _, _, rfl, locates (.edges user) splits, accepted⟩
    next user splits =>
      exact performs_validated fun accepted =>
        performs_readFrom ⟨_, _, _, rfl, locates (.communities user) splits, accepted⟩
    next episodeId splits =>
      exact performs_validated fun accepted =>
        performs_readFrom ⟨_, _, _, rfl, locates (.episode episodeId) splits, accepted⟩
    next agentId splits =>
      exact performs_validated fun accepted =>
        performs_readFrom ⟨_, _, _, rfl, locates (.identity agentId) splits, accepted⟩
    next agentId splits =>
      exact performs_validated fun accepted =>
        performs_readFrom ⟨_, _, _, rfl, locates (.experience agentId) splits, accepted⟩
    next agentId splits =>
      exact performs_validated fun accepted =>
        performs_readFrom ⟨_, _, _, rfl, locates (.promotions agentId) splits, accepted⟩
    · exact .fail

end Readers

/-! ## Confinement -/

theorem performs_of_sends {server : McpServer} {base : BaseUrl}
    (configured : server.config.mnemoBaseUrl = base.text) {kind : Endpoint → Prop} {α : Type}
    {conversation : Conversation α} (performs : conversation.Performs (Sends server kind)) :
    conversation.Performs fun request =>
      kind request.endpoint ∧ (Confined base request ↔ request.endpoint.Plain) := by
  induction performs with
  | done => exact .done
  | fail => exact .fail
  | perform belongs continues ih =>
    obtain ⟨method, endpoint, body, rfl, asked, checked⟩ := belongs
    exact .perform ⟨asked, confined_iff_plain configured checked method body⟩ ih

/-- Every request that a tool call or the reading of a resource sends is for an endpoint of the
tool or the resource with the identifiers given, and is read as this endpoint exactly when every
identifier is plain where it stands. -/
theorem requests_confined_iff_plain (rendering : Rendering) {server : McpServer} {base : BaseUrl}
    (configured : server.config.mnemoBaseUrl = base.text) :
    (∀ toolName arguments, (dispatchTool rendering server toolName arguments).Performs
      fun request => Asks server arguments (canonicalName toolName) request.endpoint ∧
        (Confined base request ↔ request.endpoint.Plain)) ∧
    ∀ uri utf8Error, (readResource rendering server uri utf8Error).Performs
      fun request => Locates uri request.endpoint ∧
        (Confined base request ↔ request.endpoint.Plain) :=
  ⟨fun toolName arguments =>
    performs_of_sends configured (performs_dispatchTool rendering server arguments toolName),
    fun uri utf8Error =>
      performs_of_sends configured (performs_readResource rendering server uri utf8Error)⟩

/-! ## A local server -/

/-- A server at a local port. -/
def localBase : BaseUrl where
  origin :=
    { scheme := "http".toList
      authority := "localhost:8080".toList
      known := .inl rfl
      nonempty := by decide
      quiet := by simp [Url.endsAuthority, Url.isSlash, Url.isBreak] }
  route := []
  plain := fun segment member => nomatch member

/-- An adapter for the server at a local port. -/
def localServer : McpServer := ⟨⟨"http://localhost:8080", none, some "alice"⟩⟩

/-- A rendering without texts. -/
def blankRendering : Rendering :=
  ⟨fun _ => "", fun _ => "", fun _ => none, fun _ => "", fun _ => ""⟩

/-- A call that retrieves the context of a user of a local server, and the reading of a digest. -/
theorem requests_confined_iff_plain_local :
    "http://localhost:8080" = localBase.text ∧
    ((dispatchTool blankRendering localServer "recall"
      (.object [("query", .string "tea"), ("user", .string "alice")])).Performs fun request =>
        Asks localServer (.object [("query", .string "tea"), ("user", .string "alice")]) "recall"
            request.endpoint ∧
          (Confined localBase request ↔ request.endpoint.Plain)) ∧
    (readResource blankRendering localServer "mnemo://users/alice/digest" "").Performs
      fun request => Locates "mnemo://users/alice/digest" request.endpoint ∧
        (Confined localBase request ↔ request.endpoint.Plain) := by
  have configured : localServer.config.mnemoBaseUrl = localBase.text := by decide +kernel
  have confined := requests_confined_iff_plain blankRendering configured
  exact ⟨configured, confined.1 "recall" _, confined.2 "mnemo://users/alice/digest" ""⟩

/-! ## A region in place of an entry -/

/-- The arguments of a call that revokes access to a region, with a question mark behind its id. -/
def revokeArguments : Json :=
  .object [("region_id", .string "7c9e6679-7425-40de-944b-e07fc1f90ae7?"),
    ("target_agent_id", .string "bot")]

/-- Revoking the access of an agent to a region whose id ends in a question mark deletes the
region. -/
theorem revoke_addresses_region :
    (¬ (dispatchTool blankRendering localServer "revoke" revokeArguments).Performs
      (Confined localBase)) ∧
    (dispatchTool blankRendering localServer "revoke" revokeArguments).Performs fun request =>
      request.method = .delete ∧ (Url.parse request.url.toList).map (·.path) =
        some ["api".toList, "v1".toList, "regions".toList,
          "7c9e6679-7425-40de-944b-e07fc1f90ae7".toList] := by
  have sends : dispatchTool blankRendering localServer "revoke" revokeArguments =
      confirming blankRendering "Revoke failed" (localServer.delete
        (.aclEntry "7c9e6679-7425-40de-944b-e07fc1f90ae7?" "bot"))
        (.object [("region_id", .string "7c9e6679-7425-40de-944b-e07fc1f90ae7?"),
          ("status", .string "revoked"), ("target_agent_id", .string "bot")]) := by
    rfl
  rw [sends]
  refine ⟨fun performs => ?_, performs_confirming ⟨rfl, by decide +kernel⟩⟩
  cases performs with
  | perform belongs _ =>
      obtain ⟨url, parsed, -, -, segments, -⟩ := belongs
      have four : (Url.parse (localServer.delete (.aclEntry
          "7c9e6679-7425-40de-944b-e07fc1f90ae7?" "bot")).url.toList).map (·.path.length) =
            some 4 := by
        decide +kernel
      rw [parsed] at four
      have six := congrArg List.length segments
      have count : url.path.length = 4 := Option.some.inj four
      rw [Url.segments, List.length_map, count] at six
      exact absurd six (by decide)

end Mcp
end Mnemo
