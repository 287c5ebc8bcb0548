import PgDurable.Library.Json.Codec
import PgDurable.Library.Text
import PgDurable.Library.Url
import PgDurable.Monitoring.Cursor

/-!
# Endpoint requests

An endpoint is a foreign server with a base URL and a way to authenticate, and a user mapping with
the credential. `prepareEndpointRequest` composes the URL of a request from the base and the path
and adds the credential, as a header or to the query. `prepare_request_spec` says what a prepared
request looks like.
-/

namespace PgDurable.Endpoints

open Json Text Urlencoded

/-- What other packages do: parse a URL, accept a header value, and quote a text for a message. -/
structure Packages where
  parse : String → Option Url
  headerValue : String → Bool
  debug : String → String

/-! ## Texts -/

def isControl (c : Char) : Bool := c.toNat < 0x20 || (0x7F ≤ c.toNat && c.toNat ≤ 0x9F)

/-- The text with ASCII letters in lower case. -/
def lower (text : String) : String := String.ofList (text.toList.map Char.toLower)

def eqIgnoreCase (first second : String) : Bool := lower first == lower second

theorem to_lower_to_lower (c : Char) : c.toLower.toLower = c.toLower := by
  have hkeep : ∀ d : Char, ¬ (d.val ≥ 65 ∧ d.val ≤ 90) → d.toLower = d := by
    intro d hd
    delta Char.toLower
    exact dif_neg hd
  by_cases hupper : c.val ≥ 65 ∧ c.val ≤ 90
  · refine hkeep _ ?_
    have hval : c.toLower.val = c.val + 32 := by
      delta Char.toLower
      exact congrArg Char.val (dif_pos hupper)
    have hlow := UInt32.le_iff_toNat_le.1 hupper.1
    have hhigh := UInt32.le_iff_toNat_le.1 hupper.2
    have hA : (65 : UInt32).toNat = 65 := rfl
    have hZ : (90 : UInt32).toNat = 90 := rfl
    have hgap : (32 : UInt32).toNat = 32 := rfl
    rw [hval]
    intro hagain
    have hle := UInt32.le_iff_toNat_le.1 hagain.2
    rw [UInt32.toNat_add] at hle
    omega
  · rw [hkeep c hupper, hkeep c hupper]

theorem lower_lower (text : String) : lower (lower text) = lower text := by
  have hmap : (text.toList.map Char.toLower).map Char.toLower = text.toList.map Char.toLower := by
    rw [List.map_map]
    exact List.map_congr_left fun c _ => to_lower_to_lower c
  rw [lower, lower, String.toList_ofList, hmap]

theorem eq_ignore_case_iff (first second : String) :
    eqIgnoreCase first second = true ↔ lower first = lower second := beq_iff_eq

def stripPrefix (front text : String) : Option String :=
  if front.toList.isPrefixOf text.toList then
    some (String.ofList (text.toList.drop front.toList.length))
  else none

def stripSlash (text : String) : String :=
  if text.toList.getLast? = some '/' then String.ofList text.toList.dropLast else text

/-- The characters of a header name. -/
def isTokenChar (c : Char) : Bool :=
  c.isAlphanum ||
    ['!', '#', '$', '%', '&', '\'', '*', '+', '-', '.', '^', '_', '\x60', '|', '~'].contains c

/-- `HeaderName::from_bytes`: names are kept in lower case. -/
def headerName (name : String) : Option String :=
  if name ≠ "" ∧ name.utf8ByteSize < 2 ^ 16 ∧ name.toList.all isTokenChar then some (lower name)
  else none

/-- The headers that route or frame a request. -/
def framingHeaders : List String :=
  ["host", "content-type", "content-length", "transfer-encoding", "connection",
    "proxy-authorization", "proxy-authenticate", "te", "trailer", "upgrade", "keep-alive"]

/-- The names of the headers of a request. -/
def headerNames (headers : Option Value) : List String :=
  ((headers.bind Value.asObject).getD []).map Prod.fst

/-! ## Options -/

/-- Put a name into a map, in order, unless it is there. -/
def insertNew (name value : String) : List (String × String) → Option (List (String × String))
  | [] => some [(name, value)]
  | entry :: rest =>
      if name = entry.1 then none
      else if name < entry.1 then some ((name, value) :: entry :: rest)
      else (insertNew name value rest).map (entry :: ·)

def parseOptions (options : List String) : Except String (List (String × String)) :=
  options.foldlM
    (fun parsed option =>
      match Monitoring.splitOnce '=' option with
      | none => .error "Invalid endpoint option: expected name=value"
      | some (name, value) =>
          match insertNew name value parsed with
          | none => .error "Duplicate endpoint option"
          | some parsed => .ok parsed)
    []

def required (options : List (String × String)) (name : String) : Except String String :=
  match (options.lookup name).filter (· ≠ "") with
  | some value => .ok value
  | none => .error ("Endpoint option '" ++ name ++ "' is required and must not be empty")

inductive AuthScheme where
  | none
  | bearer
  | header (name : String)
  | query

structure EndpointConfig where
  baseUrl : Option Url
  authScheme : AuthScheme

/-- The base URL of an endpoint. -/
def parseBaseUrl (packages : Packages) (text : String) : Except String Url :=
  if text.toList.any (fun c => isWhitespace c || isControl c) ||
      text.toList.any (fun c => c == '\x7b' || c == '\x7d' || c == '\\') then
    .error "Endpoint base_url must be a literal HTTPS URL"
  else
    match packages.parse text with
    | none => .error "Invalid endpoint base_url"
    | some url =>
        if url.scheme ≠ "https" ∨ url.host.getD "" = "" ∨ url.username ≠ "" ∨ url.password.isSome ∨
            url.query.isSome ∨ url.fragment.isSome then
          .error "Endpoint base_url must be HTTPS without userinfo, query or fragment"
        else .ok url

def parseAuthScheme (options : List (String × String)) : Except String AuthScheme := do
  match ← required options "auth_scheme" with
  | "none" => .ok .none
  | "bearer" => .ok .bearer
  | "query" => .ok .query
  | "header" =>
      match headerName (← required options "header_name") with
      | none => .error "Invalid endpoint header_name"
      | some name =>
          if framingHeaders.contains name then
            .error "Endpoint header_name cannot control HTTP routing or framing"
          else .ok (.header name)
  | "managed-identity" => .error "Managed identity is not supported in this version"
  | _ => .error "Unsupported endpoint auth_scheme; allowed: none, bearer, header, query"

def AuthScheme.isHeader : AuthScheme → Bool
  | .header _ => true
  | _ => false

def AuthScheme.isNone : AuthScheme → Bool
  | .none => true
  | _ => false

/-- The base URL of a server, if it has one. -/
def baseUrlOption (packages : Packages) (options : List (String × String)) :
    Except String (Option Url) :=
  if (options.lookup "base_url").isSome then do
    return some (← parseBaseUrl packages (← required options "base_url"))
  else .ok none

/-- Read the options of the server. -/
def EndpointConfig.fromOptions (packages : Packages) (options : List String) :
    Except String EndpointConfig := do
  let options ← parseOptions options
  if options.any (fun option => !(["base_url", "auth_scheme", "header_name"].contains option.1)) then
    .error "Unsupported endpoint server option; allowed: base_url, auth_scheme, header_name"
  else
    let baseUrl ← baseUrlOption packages options
    let authScheme ← parseAuthScheme options
    if !authScheme.isHeader && (options.lookup "header_name").isSome then
      .error "Endpoint header_name requires auth_scheme 'header'"
    else if baseUrl.isNone && !authScheme.isNone then
      .error "Endpoint base_url is required unless auth_scheme is 'none'"
    else .ok ⟨baseUrl, authScheme⟩

def validateSecretKey (key : String) : Except String Unit :=
  if key = "" ∨ key.toList.contains '=' ∨ key.toList.any isControl then
    .error "Secret keys must be nonempty without control characters or '='"
  else .ok ()

/-- A query without the question mark in front. -/
def stripQuestion (text : String) : String := (stripPrefix "?" text).getD text

/-- The URL whose query a credential is read as. -/
def credentialUrl (packages : Packages) (query : String) : Option Url :=
  packages.parse ("https://endpoint.invalid/?" ++ query)

def validateQueryString (packages : Packages) (query : String) : Except String Unit :=
  if query = "" ∨ query.toList.any (fun c => isWhitespace c || isControl c) ∨
      query.toList.any (fun c => c == '#' || c == '\x7b' || c == '\x7d') then
    .error "Endpoint query_string must be a nonempty encoded query without a fragment"
  else
    match credentialUrl packages query with
    | none => .error "Invalid endpoint query_string"
    | some url =>
        if url.query ≠ some query.toList then
          .error "Endpoint query_string must already be URL-encoded"
        else .ok ()

/-- Check an option of a user mapping. -/
def validateMappingOption (packages : Packages) (name value : String) : Except String Unit :=
  match stripPrefix "secret." name with
  | some key => validateSecretKey key
  | none =>
      if value = "" then .error "Endpoint credential options must not be empty"
      else if name = "token" ∨ name = "header_value" then
        if !packages.headerValue value then .error "Invalid endpoint credential header value"
        else if name = "token" ∧
            (value.toList.any (fun c => 128 ≤ c.toNat) ∨ value.toList.any isWhitespace) then
          .error "Endpoint bearer token must be ASCII without whitespace"
        else .ok ()
      else if name = "query_string" then validateQueryString packages (stripQuestion value)
      else
        .error ("Unsupported endpoint user mapping option; allowed: token, header_value, " ++
          "query_string, secret.<key>")

def validateMappingOptions (packages : Packages) (options : List String) : Except String Unit := do
  let options ← parseOptions options
  forM options fun option => validateMappingOption packages option.1 option.2

/-! ## Credentials -/

inductive EndpointAuth where
  | none
  | bearer (value : String)
  | header (name value : String)
  | query (text : String)

structure ResolvedEndpoint where
  baseUrl : Url
  auth : EndpointAuth

def resolveAuth (packages : Packages) (scheme : AuthScheme) (mapping : List String) :
    Except String EndpointAuth := do
  validateMappingOptions packages mapping
  let mapping ← parseOptions mapping
  match scheme with
  | .none => .ok .none
  | .bearer =>
      let token ← required mapping "token"
      if packages.headerValue ("Bearer " ++ token) then .ok (.bearer ("Bearer " ++ token))
      else .error "Invalid endpoint bearer token"
  | .header name =>
      let value ← required mapping "header_value"
      if packages.headerValue value then .ok (.header name value)
      else .error "Invalid endpoint credential header value"
  | .query => do return .query (stripQuestion (← required mapping "query_string"))

/-- The credential of an endpoint; without one, the mapping of the caller is not asked for. -/
def endpointAuth (packages : Packages) (scheme : AuthScheme)
    (mapping : Except String (List String)) : Except String EndpointAuth :=
  if scheme.isNone then .ok .none else do resolveAuth packages scheme (← mapping)

/-- The endpoint of a server, with the mapping of the caller where it has a credential. -/
def resolveEndpoint (packages : Packages) (server : String) (config : EndpointConfig)
    (mapping : Except String (List String)) : Except String ResolvedEndpoint :=
  match config.baseUrl with
  | none =>
      .error ("Endpoint server " ++ packages.debug server ++
        " has no base_url; it can only be used for named secrets")
  | some baseUrl => do
      let auth ← endpointAuth packages config.authScheme mapping
      return ⟨baseUrl, auth⟩

/-! ## Requests -/

def validateEndpointPath (path : String) : Except String Unit :=
  if !("/".toList.isPrefixOf path.toList) || "//".toList.isPrefixOf path.toList ||
      path.toList.any (fun c => c == '\\' || c == '#') ||
      path.toList.any (fun c => isControl c || isWhitespace c) then
    .error ("Endpoint path must start with one slash and contain no backslash, fragment or " ++
      "whitespace")
  else if ((path.toList.takeWhile (· != '?')).splitOn '/').any fun segment =>
      let decoded := percentDecode (utf8 segment)
      decoded == [0x2E] || decoded == [0x2E, 0x2E] || decoded.contains 0x2F ||
        decoded.contains 0x5C then
    .error "Endpoint path cannot contain traversal segments or encoded separators"
  else .ok ()

/-- Whether two origins are the same; an origin unlike every other is unlike itself. -/
def sameOrigin (first second : Url) : Bool :=
  first.origin.isSome && first.origin == second.origin

def composeEndpointUrl (packages : Packages) (base : Url) (path : String) : Except String Url := do
  validateEndpointPath path
  match packages.parse (stripSlash base.asStr ++ path) with
  | none => .error "Invalid endpoint request URL"
  | some composed =>
      if !sameOrigin composed base ||
          !((stripSlash base.path ++ "/").toList.isPrefixOf composed.path.toList) then
        .error "Endpoint path cannot escape its base URL"
      else .ok composed

structure EndpointRequest where
  url : Url
  credentialHeader : Option (String × String)

/-- The name of the header that carries the credential. -/
def EndpointAuth.credentialName : EndpointAuth → Option String
  | .bearer _ => some "authorization"
  | .header name _ => some name
  | _ => Option.none

/-- Extend the query of a URL. -/
def extendQuery (url : Url) (text : List Char) : Url :=
  url.setQuery
    (match url.query.filter (!·.isEmpty) with
    | some existing => existing ++ '&' :: text
    | none => text)

def prepareEndpointRequest (packages : Packages) (endpoint : ResolvedEndpoint) (path : String)
    (headers : Option Value) : Except String EndpointRequest := do
  let url ← composeEndpointUrl packages endpoint.baseUrl path
  if (headerNames headers).any fun name =>
      eqIgnoreCase name "host" || endpoint.auth.credentialName.any (eqIgnoreCase name) then
    .error "Request headers cannot override endpoint routing or authentication"
  else
    match endpoint.auth with
    | .none => .ok ⟨url, none⟩
    | .bearer value => .ok ⟨url, some ("authorization", value)⟩
    | .header name value => .ok ⟨url, some (name, value)⟩
    | .query query =>
        match credentialUrl packages query with
        | none => .error "Invalid endpoint credential query"
        | some credential =>
            if url.queryPairs.any fun pair =>
                (credential.queryPairs.map Prod.fst).contains pair.1 then
              .error "Request query cannot override endpoint credential parameters"
            else .ok ⟨extendQuery url query.toList, none⟩

/-! ## What the checks establish -/

theorem parse_base_url_scheme {packages : Packages} {text : String} {url : Url}
    (h : parseBaseUrl packages text = .ok url) : url.scheme = "https" := by
  unfold parseBaseUrl at h
  split at h
  · cases h
  · split at h
    · cases h
    · split at h
      · cases h
      · next hchecks =>
          rw [← Except.ok.inj h]
          exact of_not_not fun hscheme => hchecks (.inl hscheme)

/-- Base URLs are HTTPS. -/
theorem from_options_scheme {packages : Packages} {options : List String} {config : EndpointConfig}
    (h : EndpointConfig.fromOptions packages options = .ok config) {base : Url}
    (hbase : config.baseUrl = some base) : base.scheme = "https" := by
  obtain ⟨parsed, -, h⟩ := bind_eq_ok h
  split at h
  · cases h
  · obtain ⟨baseUrl, hurl, h⟩ := bind_eq_ok h
    obtain ⟨scheme, -, h⟩ := bind_eq_ok h
    split at h
    · cases h
    · split at h
      · cases h
      · have hconfig : config.baseUrl = baseUrl := by rw [← Except.ok.inj h]
        rw [hconfig] at hbase
        rw [hbase] at hurl
        unfold baseUrlOption at hurl
        split at hurl
        · obtain ⟨text, -, hurl⟩ := bind_eq_ok hurl
          obtain ⟨url, hparse, hurl⟩ := bind_eq_ok hurl
          have hsome : some url = some base := Except.ok.inj hurl
          rw [← Option.some.inj hsome]
          exact parse_base_url_scheme hparse
        · cases hurl

theorem for_m_ok {α : Type} {check : α → Except String Unit} {items : List α}
    (h : forM items check = .ok ()) : ∀ item ∈ items, check item = .ok () := by
  induction items with
  | nil => exact fun _ hitem => absurd hitem List.not_mem_nil
  | cons first items ih =>
      rw [List.forM_cons] at h
      obtain ⟨_, hfirst, hrest⟩ := bind_eq_ok h
      intro item hitem
      rcases List.mem_cons.1 hitem with rfl | hlater
      · exact hfirst
      · exact ih hrest item hlater

theorem mem_of_lookup {β : Type} {options : List (String × β)} {name : String} {value : β}
    (h : options.lookup name = some value) : (name, value) ∈ options := by
  induction options with
  | nil => cases h
  | cons entry options ih =>
      by_cases hname : name = entry.1
      · rw [List.lookup_cons, beq_iff_eq.2 hname] at h
        have hvalue : entry.2 = value := Option.some.inj h
        rw [hname, ← hvalue]
        exact List.mem_cons_self
      · rw [List.lookup_cons, beq_eq_false_iff_ne.2 hname] at h
        exact List.mem_cons_of_mem _ (ih h)

theorem required_ok {options : List (String × String)} {name value : String}
    (h : required options name = .ok value) :
    (name, value) ∈ options ∧ value ≠ "" := by
  unfold required at h
  split at h
  · next found hfound =>
      obtain ⟨hlookup, hvalue⟩ := Option.filter_eq_some_iff.1 hfound
      rw [← Except.ok.inj h]
      exact ⟨mem_of_lookup hlookup, of_decide_eq_true hvalue⟩
  · cases h

/-- A credential for the query is a query that parses to itself. -/
theorem resolve_auth_query {packages : Packages} {scheme : AuthScheme} {mapping : List String}
    {query : String} (h : resolveAuth packages scheme mapping = .ok (.query query)) :
    ∃ url, credentialUrl packages query = some url ∧ url.query = some query.toList := by
  obtain ⟨_, hvalid, h⟩ := bind_eq_ok h
  obtain ⟨options, hoptions, h⟩ := bind_eq_ok h
  obtain ⟨parsed, hparsed, hvalid⟩ := bind_eq_ok hvalid
  have hsame : parsed = options := Except.ok.inj (hparsed.symm.trans hoptions)
  cases scheme with
  | none => cases h
  | bearer =>
      obtain ⟨token, -, h⟩ := bind_eq_ok h
      split at h
      · cases h
      · cases h
  | header name =>
      obtain ⟨value, -, h⟩ := bind_eq_ok h
      split at h
      · cases h
      · cases h
  | query =>
      obtain ⟨value, hvalue, h⟩ := bind_eq_ok h
      have hquery : stripQuestion value = query := EndpointAuth.query.inj (Except.ok.inj h)
      have hcheck : validateMappingOption packages "query_string" value = .ok () :=
        for_m_ok hvalid ("query_string", value) (hsame ▸ (required_ok hvalue).1)
      have hplain : stripPrefix "secret." "query_string" = none := by decide
      have hkind : validateQueryString packages query = .ok () := by
        unfold validateMappingOption at hcheck
        rw [hplain] at hcheck
        dsimp only at hcheck
        rw [if_neg (required_ok hvalue).2, if_neg (by decide), if_pos rfl, hquery] at hcheck
        exact hcheck
      unfold validateQueryString at hkind
      split at hkind
      · cases hkind
      · split at hkind
        · cases hkind
        · next url hurl =>
            split at hkind
            · cases hkind
            · next hself => exact ⟨url, hurl, of_not_not hself⟩

/-- Both URLs of one origin have one scheme. -/
theorem same_origin_scheme {first second : Url} (h : sameOrigin first second = true) :
    first.scheme = second.scheme := by
  unfold sameOrigin at h
  rw [Bool.and_eq_true, beq_iff_eq] at h
  have horigin : ∀ url : Url, ∀ origin, url.origin = some origin → origin.1 = url.scheme := by
    intro url origin horigin
    obtain ⟨port, -, hsome⟩ := Option.bind_eq_some_iff.1 horigin
    rw [← Option.some.inj hsome]
  obtain ⟨origin, hfirst⟩ := Option.isSome_iff_exists.1 h.1
  rw [← horigin first origin hfirst, horigin second origin (h.2 ▸ hfirst)]

theorem compose_scheme {packages : Packages} {base composed : Url} {path : String}
    (h : composeEndpointUrl packages base path = .ok composed) : composed.scheme = base.scheme := by
  obtain ⟨_, -, h⟩ := bind_eq_ok h
  split at h
  · cases h
  · next url hurl =>
      split at h
      · cases h
      · next hchecks =>
          have hurl : url = composed := Except.ok.inj h
          rw [Bool.not_eq_true, Bool.or_eq_false_iff, Bool.not_eq_false', ] at hchecks
          rw [← hurl]
          exact same_origin_scheme hchecks.1

/-- Extending a query by an encoded one adds its names and values. -/
theorem query_pairs_extend (url : Url) {text : List Char}
    (htext : text.all (queryAllowed (isSpecial url.scheme)) = true) :
    (extendQuery url text).queryPairs = url.queryPairs ++ pairs (utf8 text) := by
  have hset : ∀ query : List Char, query.all (queryAllowed (isSpecial url.scheme)) = true →
      (url.setQuery query).queryPairs = pairs (utf8 query) := by
    intro query hquery
    show pairs (utf8 (encodeQuery (isSpecial url.scheme) query)) = _
    rw [encode_query_of_encoded hquery]
  have hamp : queryAllowed (isSpecial url.scheme) '&' = true := by
    cases isSpecial url.scheme <;> rfl
  unfold extendQuery
  cases hquery : url.query with
  | none =>
      have hpairs : url.queryPairs = [] := by rw [Url.queryPairs, hquery]; rfl
      rw [hpairs]
      exact hset text htext
  | some existing =>
      have hexisting := url.query_encoded existing hquery
      have hpairs : url.queryPairs = pairs (utf8 existing) := by rw [Url.queryPairs, hquery]; rfl
      cases existing with
      | nil =>
          rw [hpairs]
          exact hset text htext
      | cons c existing =>
          rw [hpairs, ← pairs_join]
          refine hset ((c :: existing) ++ '&' :: text) ?_
          rw [List.all_append, hexisting, List.all_cons, hamp, htext]
          rfl

/-- The names and values that a credential adds to the query. -/
def EndpointAuth.pairs : EndpointAuth → List (String × String)
  | .query text => Urlencoded.pairs (utf8 text.toList)
  | _ => []

/-- A prepared request has the URL of its endpoint and path, with the credential behind what the
path asks for. No header of the request carries the host or the credential, and no parameter of
its query one of the credential. -/
theorem prepare_request_spec {packages : Packages} {endpoint : ResolvedEndpoint} {path : String}
    {headers : Option Value} {request : EndpointRequest}
    (hscheme : endpoint.baseUrl.scheme = "https")
    (hquery : ∀ query, endpoint.auth = .query query →
      ∃ url, credentialUrl packages query = some url ∧ url.query = some query.toList ∧
        url.scheme = "https")
    (h : prepareEndpointRequest packages endpoint path headers = .ok request) :
    ∃ composed, composeEndpointUrl packages endpoint.baseUrl path = .ok composed ∧
      request.url.SameTarget composed ∧
      request.url.queryPairs = composed.queryPairs ++ endpoint.auth.pairs ∧
      (∀ pair ∈ composed.queryPairs, ∀ credential ∈ endpoint.auth.pairs,
        pair.1 ≠ credential.1) ∧
      request.credentialHeader.map Prod.fst = endpoint.auth.credentialName ∧
      ∀ name ∈ headerNames headers, lower name ≠ "host" ∧
        ∀ credential, endpoint.auth.credentialName = some credential →
          lower name ≠ lower credential := by
  obtain ⟨composed, hcomposed, h⟩ := bind_eq_ok h
  refine ⟨composed, hcomposed, ?_⟩
  split at h
  · cases h
  next hheaders =>
  have hnames : ∀ name ∈ headerNames headers, lower name ≠ "host" ∧
      ∀ credential, endpoint.auth.credentialName = some credential →
        lower name ≠ lower credential := by
    intro name hname
    rw [Bool.not_eq_true, List.any_eq_false] at hheaders
    have hfree := hheaders name hname
    rw [Bool.not_eq_true, Bool.or_eq_false_iff] at hfree
    refine ⟨fun heq => ?_, fun credential hcredential heq => ?_⟩
    · have hhost : lower "host" = "host" := by decide
      rw [eqIgnoreCase, heq, hhost, beq_self_eq_true] at hfree
      cases hfree.1
    · have hother : eqIgnoreCase name credential = true := by
        rw [eqIgnoreCase, heq, beq_self_eq_true]
      rw [hcredential, Option.any_some, hother] at hfree
      cases hfree.2
  have hself : composed.SameTarget composed := ⟨rfl, rfl, rfl, rfl⟩
  cases hauth : endpoint.auth with
  | none =>
      rw [hauth] at h hnames
      rw [← Except.ok.inj h]
      exact ⟨hself, (List.append_nil _).symm, (by intro _ _ _ hnone; cases hnone), rfl, hnames⟩
  | bearer value =>
      rw [hauth] at h hnames
      rw [← Except.ok.inj h]
      exact ⟨hself, (List.append_nil _).symm, (by intro _ _ _ hnone; cases hnone), rfl, hnames⟩
  | header name value =>
      rw [hauth] at h hnames
      rw [← Except.ok.inj h]
      exact ⟨hself, (List.append_nil _).symm, (by intro _ _ _ hnone; cases hnone), rfl, hnames⟩
  | query query =>
      rw [hauth] at h hnames
      obtain ⟨credential, hcredential, hencoded, hhttps⟩ := hquery query hauth
      dsimp only at h
      rw [hcredential] at h
      dsimp only at h
      split at h
      · cases h
      next hfree =>
      have hpairs : credential.queryPairs = (EndpointAuth.query query).pairs := by
        rw [Url.queryPairs, hencoded]
        rfl
      have hallowed : query.toList.all (queryAllowed (isSpecial composed.scheme)) = true := by
        rw [compose_scheme hcomposed, hscheme, ← hhttps]
        exact credential.query_encoded _ hencoded
      rw [← Except.ok.inj h]
      refine ⟨⟨rfl, rfl, rfl, rfl⟩, query_pairs_extend composed hallowed, ?_, rfl, hnames⟩
      intro pair hpair other hother heq
      rw [Bool.not_eq_true, List.any_eq_false] at hfree
      refine hfree pair hpair ?_
      rw [List.contains_iff_mem, hpairs, heq]
      exact List.mem_map_of_mem hother

end PgDurable.Endpoints
