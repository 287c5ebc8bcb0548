import PgDurable.Activities.HttpResponse
import PgDurable.Activities.Multipart
import PgDurable.Endpoints.Secrets
import PgDurable.Requests.Ssrf

/-!
# Sending requests

What the two HTTP activities do before a request leaves: check the privilege, the options and the
destination, put the secrets in, choose the client, and check the privilege again.
`requests_contained` says where a request of restricted mode can go.
-/

namespace PgDurable.Requests

open Json Text Endpoints

/-! ## Clients -/

/-- How an HTTP client reaches a destination. -/
structure HttpClient where
  followsRedirects : Bool
  usesProxies : Bool
  resolve : String → Except String (List SocketAddr)

def buildClient (addresses : String → Except String (List SocketAddr)) :
    HttpSecurity → Except String HttpClient
  | .disabled => .error "Blocked: outbound HTTP requests are disabled."
  | .restricted => .ok ⟨false, false, SsrfSafeResolver.resolve addresses⟩
  | .unrestricted => .ok ⟨false, true, addresses⟩

/-- The addresses that a client connects to. It resolves names only. -/
def HttpClient.connectsTo (client : HttpClient) (hosts : Hosts) (url : Url) :
    Except String (List IpAddr) :=
  match hosts.of url with
  | some (.domain name) => (client.resolve name).map (·.map (·.ip))
  | some (.ipv4 address) => .ok [.v4 address]
  | some (.ipv6 address) => .ok [.v6 address]
  | none => .error "builder error"

/-! ## Configurations -/

/-- The options of a request and its response. `responseHeaders` are the names of an allow-list. -/
structure BodyOptions extends HttpBodyOptions where
  maxRequestBytes : Option Nat
  responseHeaders : Option (List String)
  into : Option String

def BodyOptions.validate (options : BodyOptions) : Except String Unit := do
  if options.mode = .sink then
    match options.into with
    | some table =>
        if (trim table.toList).isEmpty || table.toList.contains '\x00' then
          throw "response 'sink' requires 'into' naming a schema-qualified table"
    | none => throw "response 'sink' requires 'into' naming a schema-qualified table"
  else if options.into.isSome then throw "'into' is only valid with response 'sink'"
  if (options.responseHeaders.getD []).any fun name => (headerName name).isNone then
    throw "response_headers must contain valid HTTP header names"

/-- What a request carries. -/
inductive Payload where
  | body (text : Option String)
  | parts (parts : List MultipartPart)

def Payload.isMultipart : Payload → Bool
  | .body _ => false
  | .parts _ => true

def Payload.hasBody : Payload → Bool
  | .body text => text.isSome
  | .parts _ => false

/-- The configuration of an HTTP or multipart node. -/
structure RequestConfig where
  url : String
  endpoint : Option String
  method : String
  headers : Option Value
  payload : Payload
  submittedBy : Option String
  secretOptions : SecretOptions
  bodyOptions : BodyOptions

/-- Check the form of a request. -/
def SecretOptions.validateForm (options : SecretOptions) (method : String) (headers : Option Value) :
    Except String Unit := do
  if !(["POST", "PUT", "PATCH"].contains method) then throw "Form fields require POST, PUT or PATCH"
  forM ((options.formFields.getD []).map Prod.fst) fun name =>
    if name = "" ∨ name.toList.any isControl then
      .error "Form field names must be nonempty without control characters"
    else if options.secretBindings.any fun bindings => (bindings.form.map Prod.fst).contains name then
      .error "A form field cannot have both an ordinary value and a secret binding"
    else .ok ()
  forM ((headers.bind Value.asObject).getD []) fun (name, value) =>
    if eqIgnoreCase name "content-length" || eqIgnoreCase name "transfer-encoding" then
      .error "Form requests cannot override HTTP body framing"
    else if eqIgnoreCase name "content-type" &&
        !(value.asStr.any fun value => eqIgnoreCase value "application/x-www-form-urlencoded") then
      .error "Form requests require application/x-www-form-urlencoded Content-Type"
    else .ok ()

def SecretOptions.validate (packages : Packages) (options : SecretOptions) (method : String)
    (payload : Payload) (headers : Option Value) : Except String Unit := do
  options.secretBindings.elim (.ok ()) (·.validate packages)
  if options.formMode then
    if payload.isMultipart || payload.hasBody then
      throw "Form fields cannot be combined with a raw body or multipart request"
    SecretOptions.validateForm options method headers

/-! ## Services -/

/-- The row of an endpoint server. -/
structure ServerRow where
  correctWrapper : Bool
  permitted : Bool
  options : Option (List String)

/-- What a request is prepared with: the packages, the catalog of the caller's database and name
resolution. -/
structure Services where
  packages : Packages
  hosts : Hosts
  client : MultipartClient
  /-- Why a text is no URL. -/
  urlError : String → String
  /-- Whether the role may execute a function, asked before the request and again when it is sent. -/
  privileged : Bool → String → String → Except String (Option Bool)
  server : String → Except String (Option ServerRow)
  mapping : String → Except String (List String)
  addresses : String → Except String (List SocketAddr)

/-- The function that a request needs, as users write it. -/
def requiredFunction (multipart endpoint : Bool) : String :=
  match multipart, endpoint with
  | false, false => "df.http(text,text,text,jsonb,integer)"
  | false, true => "df.http(df.http_endpoint,text,text,jsonb,integer)"
  | true, false => "df.http_multipart(text,text,jsonb,jsonb,integer)"
  | true, true => "df.http_multipart(df.http_endpoint,text,jsonb,jsonb,integer)"

def checkHttpPrivilege (services : Services) (again : Bool) (submittedBy : String)
    (endpoint multipart : Bool) : Except String Unit := do
  match ← services.privileged again submittedBy (requiredFunction multipart endpoint) with
  | some true => pure ()
  | _ =>
      throw ("Blocked: role '" ++ submittedBy ++ "' does not have EXECUTE privilege on " ++
        (if multipart then "df.http_multipart" else "df.http") ++
        "() for this request. Required function: " ++ requiredFunction multipart endpoint ++
        ". Use df.grant_usage with include_http => true to allow HTTP requests.")

def loadServer (services : Services) (server : String) : Except String EndpointConfig := do
  match ← services.server server with
  | none => throw "Endpoint server does not exist"
  | some row =>
      if !row.correctWrapper then throw "Endpoint server must use pg_durable_fdw"
      else if !row.permitted then throw "Permission denied: endpoint server USAGE is required"
      else EndpointConfig.fromOptions services.packages (row.options.getD [])

def parseRequestUrl (services : Services) (text : String) : Except String Url :=
  match services.packages.parse text with
  | some url => .ok url
  | none => .error ("Blocked: malformed URL (" ++ services.urlError text ++ ").")

def prepareRequest (services : Services) (config : RequestConfig) :
    Except String EndpointRequest :=
  match config.endpoint with
  | some server => do
      validateEndpointPath config.url
      let endpoint ← resolveEndpoint services.packages server (← loadServer services server)
        (services.mapping server)
      prepareEndpointRequest services.packages endpoint config.url config.headers
  | none => do return ⟨← parseRequestUrl services config.url, none⟩

/-! ## The request that is sent -/

/-- A request with the client that sends it. -/
structure Outgoing where
  client : HttpClient
  method : String
  url : Url
  headers : List (String × String)
  body : Option (List FormPart ⊕ List Char)

/-- The methods of a request, and the error of every other. -/
def checkMethod (payload : Payload) (method : String) : Except String Unit :=
  match payload with
  | .body _ =>
      if ["GET", "POST", "PUT", "DELETE", "PATCH"].contains method then .ok ()
      else .error ("Unsupported HTTP method: " ++ method)
  | .parts _ =>
      if ["POST", "PUT", "PATCH"].contains method then .ok ()
      else .error ("Unsupported HTTP method for multipart: " ++ method)

/-- The headers of the configuration. The content type of a form or multipart request is its own. -/
def ordinaryHeaders (config : RequestConfig) (form : Bool) : List (String × String) :=
  ((config.headers.bind Value.asObject).getD []).filterMap fun (name, value) =>
    if (form || config.payload.isMultipart) && eqIgnoreCase name "content-type" then none
    else value.asStr.map fun text => (name, text)

/-- The body, with the header that goes with it. -/
def requestBody (services : Services) (config : RequestConfig) (formBody : Option (List Char)) :
    Except String (List (String × String) × Option (List FormPart ⊕ List Char)) := do
  match config.payload, formBody with
  | .parts parts, _ =>
      let form ← buildMultipartRequest services.client parts config.bodyOptions.maxRequestBytes
      pure ([], some (.inl form))
  | .body _, some form =>
      checkRequestBytes config.bodyOptions.maxRequestBytes (String.ofList form).utf8ByteSize
      pure ([("content-type", "application/x-www-form-urlencoded")], some (.inr form))
  | .body (some text), none =>
      checkRequestBytes config.bodyOptions.maxRequestBytes text.utf8ByteSize
      pure ([], some (.inr text.toList))
  | .body none, none => pure ([], none)

/-- Check and build the request of a node. -/
def outgoingRequest (services : Services) (policy : HttpPolicy) (config : RequestConfig) :
    Except String Outgoing := do
  let some auditUser := config.submittedBy
    | throw ("Blocked: " ++ (if config.payload.isMultipart then "HTTP_MULTIPART" else "HTTP") ++
        " node has no submitted_by — cannot verify privilege")
  checkHttpPrivilege services false auditUser config.endpoint.isSome config.payload.isMultipart
  SecretOptions.validate services.packages config.secretOptions config.method config.payload
    config.headers
  config.bodyOptions.validate
  let prepared ← prepareRequest services config
  validateScheme prepared.url policy.security
  validateAllowlist services.hosts prepared.url policy
  let (prepared, resolved) ← config.secretOptions.resolve services.packages services.mapping prepared
    config.headers
  let client ← buildClient services.addresses policy.security
  checkMethod config.payload config.method
  let (contentType, body) ← requestBody services config resolved.formBody
  checkHttpPrivilege services true auditUser config.endpoint.isSome config.payload.isMultipart
  return ⟨client, config.method, prepared.url, ordinaryHeaders config resolved.formBody.isSome ++
    prepared.credentialHeader.toList ++ resolved.headers ++ contentType, body⟩

/-! ## Where requests go -/

theorem same_target_extend (url : Url) (text : List Char) :
    (extendQuery url text).SameTarget url := ⟨rfl, rfl, rfl, rfl⟩

/-- The request of an endpoint stays at its origin, below its path. -/
def StaysAt (base url : Url) : Prop :=
  ∃ composed, url.SameTarget composed ∧ sameOrigin composed base = true ∧
    (stripSlash base.path ++ "/").toList <+: url.path.toList

theorem prepare_endpoint_stays {packages : Packages} {endpoint : ResolvedEndpoint} {path : String}
    {headers : Option Value} {request : EndpointRequest}
    (h : prepareEndpointRequest packages endpoint path headers = .ok request) :
    StaysAt endpoint.baseUrl request.url := by
  obtain ⟨composed, hcomposed, h⟩ := bind_eq_ok h
  -- Credentials change headers or the query, never where the request goes.
  have htarget : request.url.SameTarget composed := by
    have hself : composed.SameTarget composed := ⟨rfl, rfl, rfl, rfl⟩
    split at h
    · cases h
    split at h
    · cases h
      exact hself
    · cases h
      exact hself
    · cases h
      exact hself
    · split at h
      · cases h
      split at h
      · cases h
      cases h
      exact same_target_extend composed _
  obtain ⟨⟨⟩, -, hcomposed⟩ := bind_eq_ok hcomposed
  split at hcomposed
  · cases hcomposed
  next url hurl =>
  split at hcomposed
  · cases hcomposed
  next hchecks =>
  cases hcomposed
  rw [Bool.not_eq_true, Bool.or_eq_false_iff, Bool.not_eq_false', Bool.not_eq_false'] at hchecks
  refine ⟨_, htarget, hchecks.1, ?_⟩
  rw [htarget.2.2.2]
  exact List.isPrefixOf_iff_prefix.1 hchecks.2

theorem resolve_same_target {packages : Packages}
    {mappings : String → Except String (List String)} {options : SecretOptions}
    {request : EndpointRequest} {headers : Option Value}
    {result : EndpointRequest × ResolvedBindings}
    (h : options.resolve packages mappings request headers = .ok result) :
    result.1.url.SameTarget request.url := by
  obtain ⟨⟨⟩, -, h⟩ := bind_eq_ok h
  obtain ⟨catalog, hcatalog, h⟩ := bind_eq_ok h
  obtain ⟨-, -, htarget, -⟩ := materialize_spec hcatalog h
  exact htarget

theorem check_privilege_ok {services : Services} {again : Bool} {submittedBy : String}
    {endpoint multipart : Bool}
    (h : checkHttpPrivilege services again submittedBy endpoint multipart = .ok ()) :
    services.privileged again submittedBy (requiredFunction multipart endpoint) =
      .ok (some true) := by
  obtain ⟨granted, hgranted, h⟩ := bind_eq_ok h
  rw [hgranted]
  split at h
  · rfl
  · cases h

/-- What has been checked of a request that is sent. -/
structure Checked (services : Services) (policy : HttpPolicy) (config : RequestConfig)
    (outgoing : Outgoing) : Prop where
  privileged : ∃ auditUser, config.submittedBy = some auditUser ∧ ∀ again,
    services.privileged again auditUser (requiredFunction config.payload.isMultipart
      config.endpoint.isSome) = .ok (some true)
  destination : ∃ prepared : EndpointRequest, prepareRequest services config = .ok prepared ∧
    outgoing.url.SameTarget prepared.url ∧ validateScheme prepared.url policy.security = .ok () ∧
    validateAllowlist services.hosts prepared.url policy = .ok ()
  client : buildClient services.addresses policy.security = .ok outgoing.client

theorem outgoing_checked {services : Services} {policy : HttpPolicy} {config : RequestConfig}
    {outgoing : Outgoing} (h : outgoingRequest services policy config = .ok outgoing) :
    Checked services policy config outgoing := by
  unfold outgoingRequest at h
  split at h
  swap
  · cases h
  next auditUser huser =>
  obtain ⟨⟨⟩, hfirst, h⟩ := bind_eq_ok h
  obtain ⟨⟨⟩, -, h⟩ := bind_eq_ok h
  obtain ⟨⟨⟩, -, h⟩ := bind_eq_ok h
  obtain ⟨prepared, hprepared, h⟩ := bind_eq_ok h
  obtain ⟨⟨⟩, hscheme, h⟩ := bind_eq_ok h
  obtain ⟨⟨⟩, hallowed, h⟩ := bind_eq_ok h
  obtain ⟨⟨request, resolved⟩, hresolved, h⟩ := bind_eq_ok h
  obtain ⟨client, hclient, h⟩ := bind_eq_ok h
  obtain ⟨⟨⟩, -, h⟩ := bind_eq_ok h
  obtain ⟨⟨contentType, body⟩, -, h⟩ := bind_eq_ok h
  obtain ⟨⟨⟩, hagain, h⟩ := bind_eq_ok h
  cases h
  refine ⟨⟨auditUser, huser, fun again => ?_⟩, ⟨prepared, hprepared, resolve_same_target hresolved,
    hscheme, hallowed⟩, hclient⟩
  cases again with
  | false => exact check_privilege_ok hfirst
  | true => exact check_privilege_ok hagain

theorem scheme_https {url : Url} (h : validateScheme url .restricted = .ok ()) :
    url.scheme = "https" := by
  unfold validateScheme validateSchemeValue at h
  dsimp only at h
  split at h
  · next heq => exact heq
  · cases h
  · cases h

/-- A request of an endpoint stays at the base URL of a server that its user may use. -/
theorem prepared_stays {services : Services} {config : RequestConfig} {prepared : EndpointRequest}
    (h : prepareRequest services config = .ok prepared) {server : String}
    (hserver : config.endpoint = some server) :
    ∃ row base scheme, services.server server = .ok (some row) ∧ row.correctWrapper = true ∧
      row.permitted = true ∧
      EndpointConfig.fromOptions services.packages (row.options.getD []) = .ok ⟨some base, scheme⟩ ∧
      StaysAt base prepared.url := by
  unfold prepareRequest at h
  rw [hserver] at h
  obtain ⟨⟨⟩, -, h⟩ := bind_eq_ok h
  obtain ⟨endpointConfig, hload, h⟩ := bind_eq_ok h
  obtain ⟨endpoint, hendpoint, h⟩ := bind_eq_ok h
  have hstays := prepare_endpoint_stays h
  obtain ⟨found, hrow, hload⟩ := bind_eq_ok hload
  split at hload
  · cases hload
  next row =>
  split_ifs at hload with hwrapper hpermitted
  obtain ⟨baseUrl, scheme⟩ := endpointConfig
  have hbase : baseUrl = some endpoint.baseUrl := (resolve_endpoint_ok hendpoint).1
  rw [Bool.not_eq_true', Bool.not_eq_false] at hwrapper hpermitted
  exact ⟨row, endpoint.baseUrl, scheme, hrow, hwrapper, hpermitted, hbase ▸ hload, hstays⟩

theorem stays_same_target {base url other : Url} (h : StaysAt base url)
    (htarget : other.SameTarget url) : StaysAt base other := by
  obtain ⟨composed, hcomposed, horigin, hpath⟩ := h
  obtain ⟨hscheme, hhost, hport, hsame⟩ := htarget
  refine ⟨composed, ⟨hscheme.trans hcomposed.1, hhost.trans hcomposed.2.1,
    hport.trans hcomposed.2.2.1, hsame.trans hcomposed.2.2.2⟩, horigin, ?_⟩
  rw [hsame]
  exact hpath

/-- The safe resolver leads to addresses outside of the blocks only. -/
theorem connects_unrestricted {addresses : String → Except String (List SocketAddr)}
    {hosts : Hosts} {url : Url} {name : String} (hname : hosts.of url = some (.domain name))
    {ips : List IpAddr}
    (h : HttpClient.connectsTo ⟨false, false, SsrfSafeResolver.resolve addresses⟩ hosts url =
      .ok ips) : ips ≠ [] ∧ ∀ ip ∈ ips, restriction ip = none := by
  unfold HttpClient.connectsTo at h
  rw [hname] at h
  dsimp only at h
  cases hfound : addresses name with
  | error error =>
      have hfailed : SsrfSafeResolver.resolve addresses name = .error error := by
        rw [SsrfSafeResolver.resolve, hfound]
        rfl
      rw [hfailed] at h
      cases h
  | ok found =>
      cases hresolved : SsrfSafeResolver.resolve addresses name with
      | error error =>
          rw [hresolved] at h
          cases h
      | ok addrs =>
          rw [hresolved] at h
          cases h
          obtain ⟨hsome, rfl⟩ := ((resolve_safe addresses hfound).1 addrs).1 hresolved
          refine ⟨fun hnil => hsome (List.map_eq_nil_iff.1 hnil), fun ip hip => ?_⟩
          obtain ⟨addr, haddr, rfl⟩ := List.mem_map.1 hip
          exact Option.isNone_iff_eq_none.1 (List.mem_filter.1 haddr).2

/-- No request leaves when requests are disabled. In restricted mode a request goes by HTTPS to a
host that an entry of the allow-list covers, without redirects or proxies, and to addresses outside
of the blocks; that of an endpoint stays at the base URL of a server its user may use. In every mode
the privilege is there when the request is checked and when it is sent. -/
theorem requests_contained {services : Services} {policy : HttpPolicy} {value : String}
    {config : RequestConfig} {outgoing : Outgoing}
    (hparse : DomainAllowlist.parse services.hosts services.packages.debug value =
      .ok policy.allowedDomains)
    (h : outgoingRequest services policy config = .ok outgoing) :
    policy.security ≠ .disabled ∧
      (∃ auditUser, config.submittedBy = some auditUser ∧ ∀ again,
        services.privileged again auditUser (requiredFunction config.payload.isMultipart
          config.endpoint.isSome) = .ok (some true)) ∧
      (∀ server, config.endpoint = some server → ∃ row base scheme,
        services.server server = .ok (some row) ∧ row.correctWrapper = true ∧
        row.permitted = true ∧ EndpointConfig.fromOptions services.packages
          (row.options.getD []) = .ok ⟨some base, scheme⟩ ∧ StaysAt base outgoing.url) ∧
      (policy.security = .restricted →
        outgoing.url.scheme = "https" ∧
        (∃ host, services.hosts.of outgoing.url = some (.domain host) ∧
          ∃ entry ∈ entriesOf value, Covers services.hosts entry host) ∧
        outgoing.client.followsRedirects = false ∧ outgoing.client.usesProxies = false ∧
        ∀ ips, outgoing.client.connectsTo services.hosts outgoing.url = .ok ips →
          ips ≠ [] ∧ ∀ ip ∈ ips, restriction ip = none) := by
  obtain ⟨hprivileged, ⟨prepared, hprepared, htarget, hscheme, hallowed⟩, hclient⟩ :=
    outgoing_checked h
  refine ⟨fun hdisabled => ?_, hprivileged, fun server hserver => ?_, fun hrestricted => ?_⟩
  · rw [hdisabled] at hclient
    cases hclient
  · obtain ⟨row, base, scheme, hrow, hwrapper, hpermitted, hoptions, hstays⟩ :=
      prepared_stays hprepared hserver
    exact ⟨row, base, scheme, hrow, hwrapper, hpermitted, hoptions,
      stays_same_target hstays htarget⟩
  · rw [hrestricted] at hscheme hclient
    have hsafe : outgoing.client = ⟨false, false, SsrfSafeResolver.resolve services.addresses⟩ :=
      (Except.ok.inj hclient).symm
    -- The list is asked about the prepared URL; resolving secrets leaves its host.
    have hvalid : policy.allowedDomains.validate services.hosts prepared.url = .ok () := by
      unfold validateAllowlist at hallowed
      rw [hrestricted] at hallowed
      exact hallowed
    obtain ⟨host, hhost, hcovered⟩ := (validate_iff hparse prepared.url).1 hvalid
    have hsame : services.hosts.of outgoing.url = some (.domain host) := by
      rw [← hhost, Hosts.of, Hosts.of, htarget.2.1]
    rw [hsafe]
    exact ⟨htarget.1.trans (scheme_https hscheme), ⟨host, hsame, hcovered⟩, rfl, rfl,
      fun ips hips => connects_unrestricted hsame hips⟩

/-! ## A request of an endpoint -/

/-- Names are resolved to a private and a public address. -/
def plainServices : Services where
  packages := plainPackages
  hosts := ⟨fun text => some (.domain text), .domain⟩
  client := ⟨fun _ => .ok (), fun _ => .ok none⟩
  urlError := fun _ => "relative URL without a base"
  privileged := fun _ _ _ => .ok (some true)
  server := fun _ => .ok (some ⟨true, true, some ["base_url=https://v1.api.example/in",
    "auth_scheme=query"]⟩)
  mapping := plainMapping
  addresses := fun _ => .ok [⟨.v4 0x0A000001#32, 0⟩, ⟨.v4 0x08080808#32, 0⟩]

def plainConfig : RequestConfig where
  url := "/items?page=2"
  endpoint := some "api"
  method := "POST"
  headers := some (.object [("Accept", .string "text/plain")])
  payload := .body (some "1")
  submittedBy := some "alice"
  secretOptions := plainOptions
  bodyOptions := ⟨⟨none, none⟩, some 10, none, none⟩

def examplePolicy : HttpPolicy := ⟨.restricted, ⟨["api.github.com"], [".api.example"]⟩⟩

theorem plain_request_contained :
    ∃ outgoing, outgoingRequest plainServices examplePolicy plainConfig = .ok outgoing ∧
      outgoing.url.scheme = "https" ∧
      ∀ ips, outgoing.client.connectsTo plainServices.hosts outgoing.url = .ok ips →
        ∀ ip ∈ ips, restriction ip = none := by
  have hparse : DomainAllowlist.parse plainServices.hosts plainServices.packages.debug
      "api.github.com, *.api.example" = .ok examplePolicy.allowedDomains := by rfl
  have hsucceeds : (outgoingRequest plainServices examplePolicy plainConfig).isOk = true := by
    decide +kernel
  cases hresult : outgoingRequest plainServices examplePolicy plainConfig with
  | error message =>
      rw [hresult] at hsucceeds
      cases hsucceeds
  | ok outgoing =>
      obtain ⟨-, -, -, hrestricted⟩ := requests_contained hparse hresult
      obtain ⟨hscheme, -, -, -, hips⟩ := hrestricted rfl
      exact ⟨outgoing, rfl, hscheme, fun ips h => (hips ips h).2⟩

end PgDurable.Requests
