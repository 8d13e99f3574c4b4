import Mnemo.Mcp.Templates

/-!
# Confinement of requests

A request is confined when its address is read as the endpoint it is meant for, with the
identifiers the model named.  Validation keeps identifiers from holding slashes and two dots, so
that a request is confined exactly when the identifiers mean nothing else to a reader of addresses.
-/

namespace Mnemo
namespace Mcp

open Url (Piece Template Origin)

/-! ## Addresses of the server -/

/-- The address of the server: an origin and the segments of a path. -/
structure BaseUrl where
  origin : Origin
  route : List (List Char)
  plain : ∀ segment ∈ route, (Piece.raw segment).PlainSegment ∧ '%' ∉ segment

namespace BaseUrl

/-- The address as it is configured. -/
def text (base : BaseUrl) : String := String.ofList (base.origin.text ++ Url.joinPath base.route)

/-- The segments of the path. -/
def pieces (base : BaseUrl) : List Piece := base.route.map Piece.raw

/-- A template below the address of the server. -/
def below (base : BaseUrl) (template : Template) : Template :=
  ⟨base.pieces ++ template.segments, template.parameters⟩

end BaseUrl

/-- The address of a request is read as its endpoint below the address of the server, with each
identifier as one segment or one value. -/
def Confined (base : BaseUrl) (request : Request) : Prop :=
  ∃ url, Url.parse request.url.toList = some url ∧ url.scheme = base.origin.scheme ∧
    url.authority = base.origin.authority ∧
      (base.below request.endpoint.template).ReadAs url

namespace BaseUrl

variable {base : BaseUrl} {template : Template}

theorem below_text (base : BaseUrl) (template : Template) :
    (base.below template).text = Url.joinPath base.route ++ template.text := by
  have written : base.pieces.map Piece.written = base.route := by
    rw [pieces, List.map_map]
    exact List.map_id base.route
  rw [Template.text, Template.writtenSegments, below, List.map_append, written,
    Url.joinPath_append, List.append_assoc]
  rfl

theorem exists_text (nonempty : template.segments ≠ []) :
    ∃ rest, template.text = '/' :: rest := by
  obtain ⟨piece, pieces, same⟩ := List.exists_cons_of_ne_nil nonempty
  rw [Template.text, Template.writtenSegments, same]
  exact ⟨_, rfl⟩

theorem below_plain_iff (nonempty : template.segments ≠ []) :
    (base.below template).Plain ↔ template.Plain := by
  obtain ⟨rest, text⟩ := exists_text nonempty
  have last : (base.below template).text.getLast? = template.text.getLast? := by
    rw [below_text, text, List.getLast?_append, List.getLast?_cons, Option.some_or]
  constructor
  · rintro ⟨segments, parameters, visible⟩
    exact ⟨fun piece member => segments piece (List.mem_append_right _ member), parameters,
      last ▸ visible⟩
  · rintro ⟨segments, parameters, visible⟩
    refine ⟨fun piece member => ?_, parameters, last ▸ visible⟩
    rcases List.mem_append.mp member with before | after
    · obtain ⟨segment, known, rfl⟩ := List.mem_map.mp before
      exact (base.plain segment known).1
    · exact segments piece after

theorem below_wellFormed (well : template.WellFormed) : (base.below template).WellFormed where
  nonempty := by
    rw [below]
    exact List.append_ne_nil_of_right_ne_nil _ well.nonempty
  separate := by
    intro piece member
    rcases List.mem_append.mp member with before | after
    · obtain ⟨segment, known, rfl⟩ := List.mem_map.mp before
      exact fun character inside => ((base.plain segment known).1.1 character inside).1
    · exact well.separate piece after
  last := by
    intro piece found
    rw [below, List.getLast?_append] at found
    rcases List.getLast?_isSome.mpr well.nonempty |> Option.isSome_iff_exists.mp with ⟨last, same⟩
    rw [same, Option.some_or] at found
    obtain rfl := Option.some.inj found
    exact well.last last same
  named := well.named

theorem parse_text (nonempty : template.segments ≠ []) :
    Url.parse (base.text.toList ++ template.text) =
      some (Url.readRest base.origin.scheme base.origin.authority
        (Url.tidyEnd (base.below template).text)) := by
  have whole : (base.below template).segments ≠ [] :=
    List.append_ne_nil_of_right_ne_nil _ nonempty
  obtain ⟨rest, text⟩ := exists_text whole
  have joined : base.text.toList ++ template.text = base.origin.text ++ '/' :: rest := by
    rw [BaseUrl.text, String.toList_ofList, List.append_assoc, ← below_text, text]
  rw [joined, text]
  exact Origin.parse_append base.origin rest

end BaseUrl

theorem confined_iff_readAs {server : McpServer} {base : BaseUrl}
    (configured : server.config.mnemoBaseUrl = base.text) {endpoint : Endpoint}
    (nonempty : endpoint.template.segments ≠ []) (method : Method) (body : Option Json) :
    Confined base (server.request method endpoint body) ↔
      (base.below endpoint.template).ReadAs (Url.readRest base.origin.scheme
        base.origin.authority (Url.tidyEnd (base.below endpoint.template).text)) := by
  have text : (server.request method endpoint body).url.toList =
      base.text.toList ++ endpoint.template.text := by
    rw [McpServer.request, String.toList_append, configured, Endpoint.toList_path]
  rw [Confined, text, BaseUrl.parse_text nonempty]
  constructor
  · rintro ⟨url, same, -, -, readAs⟩
    obtain rfl := Option.some.inj same
    exact readAs
  · intro readAs
    exact ⟨_, rfl, rfl, rfl, readAs⟩

/-! ## What is checked before a request -/

namespace Endpoint

/-- What the checks of the adapter ensure for the identifiers of a request. -/
def Checked : Endpoint → Prop
  | memory | health | regions | acl _ => True
  | context user | entities user _ _ | edges user _ | communities user | digest user
  | coherence user | relations user | shortestPath user | userEpisodes user | userRecall user _
  | userDigest user | scopes user _ => Accepted user
  | identity agentId | experience agentId | experiences agentId | promotions agentId =>
      Accepted agentId
  | aclEntry regionId targetAgentId => Accepted regionId ∧ Accepted targetAgentId
  | neighbors user source _ => Accepted user ∧ source ≠ ""
  | userEpisode episodeId user => Accepted episodeId ∧ Accepted user
  | episode episodeId => Accepted episodeId

/-- Every part of the request is read as it is meant where it stands: an identifier in the path
holds no slash, question mark, number sign, line break or escape and is not a dot or two; one in
the query holds no ampersand, number sign, plus sign, line break or escape; and the address does
not end in a control character or space. -/
def Plain (endpoint : Endpoint) : Prop := endpoint.template.Plain

theorem segments_ne_nil (endpoint : Endpoint) : endpoint.template.segments ≠ [] := by
  cases endpoint with
  | entities user limit entityType => cases entityType <;> exact List.cons_ne_nil _ _
  | scopes user agentId => cases agentId <;> exact List.cons_ne_nil _ _
  | _ => exact List.cons_ne_nil _ _

/-- No slash is written for a part. -/
def Separate (piece : Piece) : Prop :=
  ∀ character ∈ piece.written, Url.isSlash character = false

theorem separate_fixed {name : String} (plain : name.toList.all (!Url.isSlash ·) = true) :
    Separate (fixed name) := by
  intro character member
  simpa using List.all_eq_true.mp plain character member

theorem separate_encoded (text : List Char) : Separate (.encoded text) :=
  fun character member => ((Url.isQuiet_iff character).mp (Url.isQuiet_of_mem_encode member)).2.1

theorem named (endpoint : Endpoint) :
    ∀ parameter ∈ endpoint.template.parameters, Url.isName parameter.1 = true := by
  cases endpoint with
  | entities user limit entityType =>
    cases entityType <;> simp [template, api, parameter] <;> decide
  | scopes user agentId => cases agentId <;> simp [template, api, parameter] <;> decide
  | _ => simp [template, api, parameter] <;> decide

theorem last {endpoint : Endpoint} (checked : endpoint.Checked) :
    ∀ piece ∈ endpoint.template.segments.getLast?, piece.meaning ≠ [] := by
  have nonempty : ∀ value : String, value ≠ "" → value.toList ≠ [] := by simp
  cases endpoint with
  | entities user limit entityType =>
    cases entityType <;> simp [template, api] <;> decide
  | scopes user agentId => cases agentId <;> simp [template, api] <;> decide
  | aclEntry regionId targetAgentId =>
    rintro piece ⟨⟩
    exact nonempty _ checked.2.nonempty
  | neighbors user source depth =>
    rintro piece ⟨⟩
    exact nonempty _ checked.2
  | userEpisode episodeId user =>
    rintro piece ⟨⟩
    exact nonempty _ checked.1.nonempty
  | episode episodeId =>
    rintro piece ⟨⟩
    exact nonempty _ checked.nonempty
  | _ => simp [template, api, fixed, Piece.meaning]

theorem separate {endpoint : Endpoint} (checked : endpoint.Checked)
    (whole : ∀ regionId, endpoint = .acl regionId →
      ∀ character ∈ regionId.toList, Url.isSlash character = false) :
    ∀ piece ∈ endpoint.template.segments, Separate piece := by
  have ofIdentifier : ∀ value : String, Accepted value → Separate (identifier value) :=
    fun value accepted => accepted.separate
  cases endpoint with
  | acl regionId =>
    have ofRegion : Separate (identifier regionId) := whole regionId rfl
    simp (disch := decide) [template, api, separate_fixed, ofRegion]
  | aclEntry regionId targetAgentId =>
    simp (disch := decide) [template, api, separate_fixed, ofIdentifier _ checked.1,
      ofIdentifier _ checked.2]
  | neighbors user source depth =>
    simp (disch := decide) [template, api, separate_fixed, separate_encoded,
      ofIdentifier _ checked.1]
  | userEpisode episodeId user =>
    simp (disch := decide) [template, api, separate_fixed, ofIdentifier _ checked.1]
  | entities user limit entityType =>
    cases entityType <;>
      simp (disch := decide) [template, api, separate_fixed, ofIdentifier _ checked]
  | scopes user agentId =>
    cases agentId <;> simp (disch := decide) [template, api, separate_fixed]
  | memory | health | regions => simp (disch := decide) [template, api, separate_fixed]
  | _ => simp (disch := decide) [template, api, separate_fixed, ofIdentifier _ checked]

end Endpoint

theorem confined_iff_plain {server : McpServer} {base : BaseUrl}
    (configured : server.config.mnemoBaseUrl = base.text) {endpoint : Endpoint}
    (checked : endpoint.Checked) (method : Method) (body : Option Json) :
    Confined base (server.request method endpoint body) ↔ endpoint.Plain := by
  rw [confined_iff_readAs configured endpoint.segments_ne_nil]
  by_cases whole : ∀ regionId, endpoint = .acl regionId →
      ∀ character ∈ regionId.toList, Url.isSlash character = false
  · have well : endpoint.template.WellFormed :=
      ⟨endpoint.segments_ne_nil, endpoint.separate checked whole, endpoint.last checked,
        endpoint.named⟩
    rw [Template.readAs_iff_plain (BaseUrl.below_wellFormed well),
      BaseUrl.below_plain_iff endpoint.segments_ne_nil]
    rfl
  · -- The region id of a response is not validated: with a slash in it nothing is read as it.
    simp only [not_forall, Bool.not_eq_false] at whole
    obtain ⟨regionId, rfl, slash, member, splits⟩ := whole
    refine iff_of_false ?_ fun plain => ?_
    · have split : (base.below (Endpoint.acl regionId).template).segments =
          (base.pieces ++ [fixed "api", fixed "v1", fixed "regions"]) ++
            .raw regionId.toList :: [fixed "acl"] := by
        simp [BaseUrl.below, Endpoint.template, api, identifier]
      refine Template.not_readAs_of_isSlash split member splits (fun piece known => ?_) _ _
      simp only [List.mem_append, List.mem_cons, List.not_mem_nil, or_false] at known
      rcases known with (before | rfl | rfl | rfl) | rfl
      · obtain ⟨segment, inRoute, rfl⟩ := List.mem_map.mp before
        exact (base.plain segment inRoute).2
      all_goals decide
    · have piece := plain.segments (identifier regionId) (by simp [Endpoint.template, api])
      exact absurd ((piece.1 slash member).1.symm.trans splits) Bool.false_ne_true

end Mcp
end Mnemo
