import Mathlib.Data.List.Dedup
import PgDurable.Endpoints.Prepare

/-!
# Secret bindings

Secrets of named servers are bound to headers, query parameters and form fields of a request.
`SecretOptions.resolve` checks where they go, looks them up and puts them in.
`credentials_unambiguous` says that the request, the credential of its endpoint and its secrets
never share a header or a parameter.
-/

namespace PgDurable.Endpoints

open Json Urlencoded

structure SecretReference where
  server : String
  key : String
  valuePrefix : String

def SecretReference.validate (reference : SecretReference) : Except String Unit :=
  if reference.server = "" ∨ reference.server.toList.any isControl then
    .error ("Secret references require a nonempty server name without control characters")
  else validateSecretKey reference.key

/-- The bindings of a request. Maps list their entries in key order. -/
structure SecretBindings where
  headers : List (String × SecretReference)
  query : List (String × SecretReference)
  form : List (String × SecretReference)

def credentialHeaderName (name : String) : Except String String :=
  match headerName name with
  | none => .error "Invalid credential header name"
  | some name =>
      if framingHeaders.contains name then
        .error "Credential headers cannot control HTTP routing or framing"
      else .ok name

/-- Check the headers; `seen` are the names so far. -/
def validateHeaders (packages : Packages) :
    List String → List (String × SecretReference) → Except String Unit
  | _, [] => .ok ()
  | seen, (name, reference) :: rest => do
      reference.validate
      let name ← credentialHeaderName name
      if seen.contains name then .error "Duplicate secret header binding (case-insensitive)"
      else if !packages.headerValue reference.valuePrefix then .error "Invalid secret header prefix"
      else validateHeaders packages (name :: seen) rest

def validateField (field : String × SecretReference) : Except String Unit := do
  field.2.validate
  if field.1 = "" ∨ field.1.toList.any isControl then
    .error "Secret field names must be nonempty without control characters"
  else if field.2.valuePrefix ≠ "" then
    .error "Secret prefixes are supported only in header bindings"
  else .ok ()

def SecretBindings.validate (packages : Packages) (bindings : SecretBindings) :
    Except String Unit := do
  validateHeaders packages [] bindings.headers
  forM (bindings.query ++ bindings.form) validateField

structure SecretOptions where
  secretBindings : Option SecretBindings
  formFields : Option (List (String × String))

def SecretOptions.formMode (options : SecretOptions) : Bool :=
  options.formFields.isSome || options.secretBindings.any (!·.form.isEmpty)

structure ResolvedBindings where
  headers : List (String × String)
  formBody : Option (List Char)

/-! ## Destinations -/

def SecretBindings.active (bindings : SecretBindings) : Bool :=
  !bindings.headers.isEmpty || !bindings.query.isEmpty || !bindings.form.isEmpty

def SecretOptions.validateDestinations (packages : Packages) (options : SecretOptions)
    (request : EndpointRequest) (headers : Option Value) : Except String Unit :=
  match options.secretBindings with
  | none => .ok ()
  | some bindings => do
      bindings.validate packages
      if (headerNames headers).any fun name =>
          (bindings.active && eqIgnoreCase name "host") ||
            bindings.headers.any fun binding => eqIgnoreCase name binding.1 then
        .error "Secret bindings conflict with ordinary request headers or Host"
      else if request.credentialHeader.any fun header =>
          bindings.headers.any fun binding => eqIgnoreCase binding.1 header.1 then
        .error "Secret binding cannot override endpoint authentication"
      else if request.url.queryPairs.any fun pair =>
          (bindings.query.map Prod.fst).contains pair.1 then
        .error "Secret binding conflicts with an existing query parameter"
      else .ok ()

/-! ## Values -/

/-- The secrets of a server: the options of the caller's mapping that are named so. -/
def resolveNamedSecrets (mapping : Except String (List String)) :
    Except String (List (String × String)) := do
  let options ← parseOptions (← mapping)
  return options.filterMap fun option =>
    (stripPrefix "secret." option.1).map fun key => (key, option.2)

/-- Look up a secret. -/
def lookupSecret (packages : Packages) (catalog : List (String × List (String × String)))
    (slot name : String) (reference : SecretReference) : Except String String :=
  match (catalog.lookup reference.server).bind (·.lookup reference.key) with
  | some secret => .ok secret
  | none =>
      .error ("Referenced secret key is missing: " ++ slot ++ "[" ++ packages.debug name ++
        "], server " ++ packages.debug reference.server ++ ", key " ++
        packages.debug reference.key)

/-- Put a field into a map, in order. -/
def insertField (name value : String) : List (String × String) → List (String × String)
  | [] => [(name, value)]
  | entry :: rest =>
      if name = entry.1 then (name, value) :: rest
      else if name < entry.1 then (name, value) :: entry :: rest
      else entry :: insertField name value rest

def materializeHeader (packages : Packages) (catalog : List (String × List (String × String)))
    (binding : String × SecretReference) : Except String (String × String) := do
  let name ← credentialHeaderName binding.1
  let secret ← lookupSecret packages catalog "headers" binding.1 binding.2
  if packages.headerValue (binding.2.valuePrefix ++ secret) then
    .ok (name, binding.2.valuePrefix ++ secret)
  else
    .error ("Resolved secret is not a valid HTTP header value: headers[" ++
      packages.debug binding.1 ++ "], server " ++ packages.debug binding.2.server ++ ", key " ++
      packages.debug binding.2.key)

def materializeField (packages : Packages) (catalog : List (String × List (String × String)))
    (slot : String) (binding : String × SecretReference) : Except String (String × String) := do
  return (binding.1, ← lookupSecret packages catalog slot binding.1 binding.2)

/-- Put the secrets in. The values of headers are marked sensitive. -/
def SecretOptions.materialize (packages : Packages) (options : SecretOptions)
    (request : EndpointRequest) (catalog : List (String × List (String × String))) :
    Except String (EndpointRequest × ResolvedBindings) :=
  let formBody (fields : List (String × String)) : Option (List Char) :=
    if options.formMode then some (serializeText fields) else none
  match options.secretBindings with
  | none => .ok (request, ⟨[], formBody (options.formFields.getD [])⟩)
  | some bindings => do
      let headers ← bindings.headers.mapM (materializeHeader packages catalog)
      let query ← bindings.query.mapM (materializeField packages catalog "query")
      let form ← bindings.form.mapM (materializeField packages catalog "form")
      let url := if query.isEmpty then request.url else extendQuery request.url (serializeText query)
      return (⟨url, request.credentialHeader⟩, ⟨headers, formBody
        (form.foldl (fun fields entry => insertField entry.1 entry.2 fields)
          (options.formFields.getD []))⟩)

/-- The servers that the bindings refer to, in order. -/
def SecretBindings.servers (bindings : SecretBindings) : List String :=
  (((bindings.headers ++ bindings.query ++ bindings.form).map (·.2.server)).dedup).mergeSort
    (· ≤ ·)

/-- The secrets of the servers. -/
def loadSecrets (packages : Packages) (mappings : String → Except String (List String))
    (servers : List String) : Except String (List (String × List (String × String))) :=
  servers.mapM fun server =>
    match resolveNamedSecrets (mappings server) with
    | .ok secrets => .ok (server, secrets)
    | .error error => .error ("Secret server " ++ packages.debug server ++ ": " ++ error)

def SecretOptions.resolve (packages : Packages) (mappings : String → Except String (List String))
    (options : SecretOptions) (request : EndpointRequest) (headers : Option Value) :
    Except String (EndpointRequest × ResolvedBindings) := do
  options.validateDestinations packages request headers
  let catalog ← loadSecrets packages mappings (options.secretBindings.elim [] (·.servers))
  options.materialize packages request catalog

/-! ## Where secrets go -/

/-- No two of the names are one header. -/
def NoSharedHeader (first second : List String) : Prop :=
  ∀ name ∈ first, ∀ other ∈ second, lower name ≠ lower other

/-- No name is in both. -/
def NoSharedName (first second : List (String × String)) : Prop :=
  ∀ entry ∈ first, ∀ other ∈ second, entry.1 ≠ other.1

def SecretOptions.headerBindings (options : SecretOptions) : List (String × SecretReference) :=
  options.secretBindings.elim [] SecretBindings.headers

def SecretOptions.queryBindings (options : SecretOptions) : List (String × SecretReference) :=
  options.secretBindings.elim [] SecretBindings.query

/-- Checked bindings meet neither the headers of the request, nor its credential, nor its query. -/
theorem destinations_free {packages : Packages} {options : SecretOptions}
    {request : EndpointRequest} {headers : Option Value}
    (h : options.validateDestinations packages request headers = .ok ()) :
    NoSharedHeader (headerNames headers) (options.headerBindings.map Prod.fst) ∧
      NoSharedHeader (request.credentialHeader.toList.map Prod.fst)
        (options.headerBindings.map Prod.fst) ∧
      ∀ pair ∈ request.url.queryPairs, ∀ binding ∈ options.queryBindings, pair.1 ≠ binding.1 := by
  unfold SecretOptions.validateDestinations at h
  unfold SecretOptions.headerBindings SecretOptions.queryBindings
  cases hbindings : options.secretBindings with
  | none =>
      exact ⟨(by intro _ _ _ hnone; cases hnone), (by intro _ _ _ hnone; cases hnone),
        (by intro _ _ _ hnone; cases hnone)⟩
  | some bindings =>
      rw [hbindings] at h
      obtain ⟨_, -, h⟩ := bind_eq_ok h
      split at h
      · cases h
      next hheaders =>
      split at h
      · cases h
      next hcredential =>
      split at h
      · cases h
      next hquery =>
      refine ⟨?_, ?_, ?_⟩
      · intro name hname other hother heq
        obtain ⟨binding, hbinding, rfl⟩ := List.mem_map.1 hother
        refine hheaders (List.any_eq_true.2 ⟨name, hname, ?_⟩)
        rw [Bool.or_eq_true]
        exact .inr (List.any_eq_true.2 ⟨binding, hbinding, (eq_ignore_case_iff _ _).2 heq⟩)
      · intro name hname other hother heq
        obtain ⟨binding, hbinding, rfl⟩ := List.mem_map.1 hother
        obtain ⟨header, hheader, rfl⟩ := List.mem_map.1 hname
        rw [Option.mem_toList.1 hheader, Option.any_some] at hcredential
        exact hcredential (List.any_eq_true.2
          ⟨binding, hbinding, (eq_ignore_case_iff _ _).2 heq.symm⟩)
      · intro pair hpair binding hbinding heq
        refine hquery (List.any_eq_true.2 ⟨pair, hpair, ?_⟩)
        rw [List.contains_iff_mem, heq]
        exact List.mem_map_of_mem hbinding

/-! ## What is put in -/

/-- The value of a secret in the mapping of its server. -/
def secretValue (mappings : String → Except String (List String)) (reference : SecretReference) :
    Option String :=
  (resolveNamedSecrets (mappings reference.server)).toOption.bind (·.lookup reference.key)

/-- Every server in the catalog has the secrets of its mapping. -/
theorem load_secrets_ok {packages : Packages}
    {mappings : String → Except String (List String)} {servers : List String}
    {catalog : List (String × List (String × String))}
    (h : loadSecrets packages mappings servers = .ok catalog) :
    ∀ entry ∈ catalog, resolveNamedSecrets (mappings entry.1) = .ok entry.2 := by
  have hloaded := (map_m_eq_ok_iff _ _).1 h
  induction hloaded with
  | nil => exact fun _ hnone => absurd hnone List.not_mem_nil
  | @cons server entry servers catalog hentry hrest ih =>
      intro other hother
      rcases List.mem_cons.1 hother with rfl | hlater
      · split at hentry
        · next secrets hsecrets =>
            rw [← Except.ok.inj hentry]
            exact hsecrets
        · cases hentry
      · exact ih ((map_m_eq_ok_iff _ _).2 hrest) other hlater

/-- What is looked up is the secret of the mapping. -/
theorem lookup_secret_ok {packages : Packages} {mappings : String → Except String (List String)}
    {servers : List String} {catalog : List (String × List (String × String))}
    (hcatalog : loadSecrets packages mappings servers = .ok catalog) {slot name : String}
    {reference : SecretReference} {secret : String}
    (h : lookupSecret packages catalog slot name reference = .ok secret) :
    secretValue mappings reference = some secret := by
  unfold lookupSecret at h
  split at h
  · next found hfound =>
      obtain ⟨secrets, hserver, hkey⟩ := Option.bind_eq_some_iff.1 hfound
      have hresolved : resolveNamedSecrets (mappings reference.server) = .ok secrets :=
        load_secrets_ok hcatalog _ (mem_of_lookup hserver)
      rw [secretValue, hresolved, ← Except.ok.inj h]
      exact hkey
  · cases h

/-- The header of a binding has its name in lower case. -/
theorem materialize_header_name {packages : Packages}
    {catalog : List (String × List (String × String))} {binding : String × SecretReference}
    {header : String × String} (h : materializeHeader packages catalog binding = .ok header) :
    header.1 = lower binding.1 := by
  obtain ⟨name, hname, h⟩ := bind_eq_ok h
  obtain ⟨secret, -, h⟩ := bind_eq_ok h
  have hheader : header.1 = name := by
    split at h
    · rw [← Except.ok.inj h]
    · cases h
  unfold credentialHeaderName headerName at hname
  rw [hheader]
  split at hname
  · cases hname
  next found hfound =>
  split at hname
  · cases hname
  split at hfound
  · rw [← Except.ok.inj hname, ← Option.some.inj hfound]
  · cases hfound

theorem materialize_header_names {packages : Packages}
    {catalog : List (String × List (String × String))} {bindings : List (String × SecretReference)}
    {headers : List (String × String)}
    (h : List.Forall₂ (fun binding header => materializeHeader packages catalog binding = .ok header)
      bindings headers) :
    headers.map Prod.fst = bindings.map fun binding => lower binding.1 := by
  induction h with
  | nil => rfl
  | cons hheader _ ih => rw [List.map_cons, List.map_cons, materialize_header_name hheader, ih]

/-- What a request looks like when its secrets are in. -/
theorem materialize_spec {packages : Packages} {mappings : String → Except String (List String)}
    {servers : List String} {catalog : List (String × List (String × String))}
    (hcatalog : loadSecrets packages mappings servers = .ok catalog) {options : SecretOptions}
    {request : EndpointRequest} {result : EndpointRequest × ResolvedBindings}
    (h : options.materialize packages request catalog = .ok result) :
    ∃ secrets, List.Forall₂ (fun binding secret => secret.1 = binding.1 ∧
        secretValue mappings binding.2 = some secret.2) options.queryBindings secrets ∧
      result.1.url.SameTarget request.url ∧
      result.1.url.queryPairs = request.url.queryPairs ++ secrets ∧
      result.1.credentialHeader = request.credentialHeader ∧
      result.2.headers.map Prod.fst = options.headerBindings.map fun binding => lower binding.1 := by
  unfold SecretOptions.materialize at h
  unfold SecretOptions.queryBindings SecretOptions.headerBindings
  cases hbindings : options.secretBindings with
  | none =>
      rw [hbindings] at h
      rw [← Except.ok.inj h]
      exact ⟨[], .nil, ⟨rfl, rfl, rfl, rfl⟩, (List.append_nil _).symm, rfl, rfl⟩
  | some bindings =>
      rw [hbindings] at h
      obtain ⟨headers, hheaders, h⟩ := bind_eq_ok h
      obtain ⟨secrets, hsecrets, h⟩ := bind_eq_ok h
      obtain ⟨form, -, h⟩ := bind_eq_ok h
      have hquery : List.Forall₂ (fun (binding : String × SecretReference)
          (secret : String × String) =>
          secret.1 = binding.1 ∧ secretValue mappings binding.2 = some secret.2)
          bindings.query secrets := by
        refine ((map_m_eq_ok_iff _ _).1 hsecrets).imp fun binding secret hfield => ?_
        obtain ⟨value, hvalue, hpair⟩ := bind_eq_ok hfield
        rw [← Except.ok.inj hpair]
        exact ⟨rfl, lookup_secret_ok hcatalog hvalue⟩
      have hnames : headers.map Prod.fst = bindings.headers.map fun binding => lower binding.1 :=
        materialize_header_names ((map_m_eq_ok_iff _ _).1 hheaders)
      rw [← Except.ok.inj h]
      refine ⟨secrets, hquery, ?_, ?_, rfl, hnames⟩
      · cases secrets with
        | nil => exact ⟨rfl, rfl, rfl, rfl⟩
        | cons secret secrets => exact ⟨rfl, rfl, rfl, rfl⟩
      · cases secrets with
        | nil => exact (List.append_nil _).symm
        | cons secret secrets =>
            have hpairs := query_pairs_extend request.url
              (serialize_text_encoded (isSpecial request.url.scheme) (secret :: secrets))
            rw [serialize_text_utf8, pairs_serialize] at hpairs
            exact hpairs

theorem resolve_endpoint_ok {packages : Packages} {server : String} {config : EndpointConfig}
    {mapping : Except String (List String)} {endpoint : ResolvedEndpoint}
    (h : resolveEndpoint packages server config mapping = .ok endpoint) :
    config.baseUrl = some endpoint.baseUrl ∧ ∀ query, endpoint.auth = .query query →
      ∃ url, credentialUrl packages query = some url ∧ url.query = some query.toList := by
  unfold resolveEndpoint at h
  split at h
  · cases h
  next base hbase =>
  obtain ⟨auth, hauth, h⟩ := bind_eq_ok h
  rw [← Except.ok.inj h]
  refine ⟨hbase, fun query hquery => ?_⟩
  have hsame : auth = .query query := hquery
  rw [hsame] at hauth
  unfold endpointAuth at hauth
  split at hauth
  · cases hauth
  · obtain ⟨options, -, hauth⟩ := bind_eq_ok hauth
    exact resolve_auth_query hauth

/-- The later list of a correspondence holds nothing without a source. -/
theorem exists_source {α β : Type} {R : α → β → Prop} {sources : List α} {images : List β}
    (h : List.Forall₂ R sources images) : ∀ image ∈ images, ∃ source ∈ sources, R source image := by
  induction h with
  | nil => exact fun _ hnone => absurd hnone List.not_mem_nil
  | cons hfirst _ ih =>
      intro image himage
      rcases List.mem_cons.1 himage with rfl | hlater
      · exact ⟨_, List.mem_cons_self, hfirst⟩
      · obtain ⟨source, hsource, hrelated⟩ := ih image hlater
        exact ⟨source, List.mem_cons_of_mem _ hsource, hrelated⟩

/-- The request of an endpoint with its secrets in: the URL leads where the endpoint and the path
say, its query holds what the path asks for, then the credential, then the secrets, and none of the
three shares a parameter or a header with another. -/
theorem credentials_unambiguous (packages : Packages)
    (hhttps : ∀ text url, "https://".toList.isPrefixOf text.toList = true →
      packages.parse text = some url → url.scheme = "https")
    {serverOptions : List String} {config : EndpointConfig}
    (hconfig : EndpointConfig.fromOptions packages serverOptions = .ok config) {server : String}
    {mappings : String → Except String (List String)} {endpoint : ResolvedEndpoint}
    (hendpoint : resolveEndpoint packages server config (mappings server) = .ok endpoint)
    {path : String} {headers : Option Value} {request : EndpointRequest}
    (hprepare : prepareEndpointRequest packages endpoint path headers = .ok request)
    {options : SecretOptions} {result : EndpointRequest × ResolvedBindings}
    (hresolve : options.resolve packages mappings request headers = .ok result) :
    ∃ composed secrets, composeEndpointUrl packages endpoint.baseUrl path = .ok composed ∧
      List.Forall₂ (fun binding secret => secret.1 = binding.1 ∧
        secretValue mappings binding.2 = some secret.2) options.queryBindings secrets ∧
      result.1.url.SameTarget composed ∧
      result.1.url.queryPairs = composed.queryPairs ++ endpoint.auth.pairs ++ secrets ∧
      NoSharedName composed.queryPairs endpoint.auth.pairs ∧
      NoSharedName composed.queryPairs secrets ∧ NoSharedName endpoint.auth.pairs secrets ∧
      (∀ name ∈ headerNames headers, lower name ≠ "host") ∧
      NoSharedHeader (headerNames headers) (result.1.credentialHeader.toList.map Prod.fst) ∧
      NoSharedHeader (headerNames headers) (result.2.headers.map Prod.fst) ∧
      NoSharedHeader (result.1.credentialHeader.toList.map Prod.fst)
        (result.2.headers.map Prod.fst) := by
  obtain ⟨hbase, hquery⟩ := resolve_endpoint_ok hendpoint
  have hcredential : ∀ query, endpoint.auth = .query query →
      ∃ url, credentialUrl packages query = some url ∧ url.query = some query.toList ∧
        url.scheme = "https" := by
    intro query hauth
    obtain ⟨url, hurl, hself⟩ := hquery query hauth
    refine ⟨url, hurl, hself, hhttps _ _ ?_ hurl⟩
    rw [String.toList_append]
    rfl
  obtain ⟨composed, hcomposed, htarget, hpairs, hfree, hheader, hnames⟩ :=
    prepare_request_spec (from_options_scheme hconfig hbase) hcredential hprepare
  obtain ⟨_, hdestinations, hresolve⟩ := bind_eq_ok hresolve
  obtain ⟨catalog, hcatalog, hresolve⟩ := bind_eq_ok hresolve
  obtain ⟨hrequest, hcredentials, hparameters⟩ := destinations_free hdestinations
  obtain ⟨secrets, hsecrets, htarget', hpairs', hkept, hbound⟩ :=
    materialize_spec hcatalog hresolve
  have hbound_name : ∀ name ∈ result.2.headers.map Prod.fst,
      ∃ binding ∈ options.headerBindings.map Prod.fst, lower name = lower binding := by
    intro name hname
    rw [hbound] at hname
    obtain ⟨binding, hbinding, rfl⟩ := List.mem_map.1 hname
    exact ⟨binding.1, List.mem_map_of_mem hbinding, lower_lower _⟩
  have hsecret_name : ∀ pair ∈ request.url.queryPairs, ∀ secret ∈ secrets, pair.1 ≠ secret.1 := by
    intro pair hpair secret hsecret heq
    obtain ⟨binding, hbinding, hsame⟩ := exists_source hsecrets secret hsecret
    exact hparameters pair hpair binding hbinding (heq.trans hsame.1)
  refine ⟨composed, secrets, hcomposed, hsecrets, ?_, ?_, hfree, ?_, ?_,
    fun name hname => (hnames name hname).1, ?_, ?_, ?_⟩
  · exact ⟨htarget'.1.trans htarget.1, htarget'.2.1.trans htarget.2.1,
      htarget'.2.2.1.trans htarget.2.2.1, htarget'.2.2.2.trans htarget.2.2.2⟩
  · rw [hpairs', hpairs]
  · intro pair hpair
    exact hsecret_name pair (by rw [hpairs]; exact List.mem_append_left _ hpair)
  · intro pair hpair
    exact hsecret_name pair (by rw [hpairs]; exact List.mem_append_right _ hpair)
  · intro name hname other hother
    obtain ⟨header, hheader', rfl⟩ := List.mem_map.1 hother
    rw [hkept] at hheader'
    refine (hnames name hname).2 header.1 ?_
    rw [← hheader, Option.mem_toList.1 hheader']
    rfl
  · intro name hname other hother heq
    obtain ⟨binding, hbinding, hlower⟩ := hbound_name other hother
    exact hrequest name hname binding hbinding (heq.trans hlower)
  · intro name hname other hother heq
    obtain ⟨binding, hbinding, hlower⟩ := hbound_name other hother
    rw [hkept] at hname
    exact hcredentials name hname binding hbinding (heq.trans hlower)

/-! ## A request -/

def plainPackages : Packages :=
  ⟨parsePlain, fun value => value.toList.all fun c => 32 ≤ c.toNat && c.toNat < 127, fun text => text⟩

def plainMapping (_ : String) : Except String (List String) :=
  .ok ["query_string=?sig=x%26y", "secret.key=s3 cret&="]

def plainOptions : SecretOptions :=
  ⟨some ⟨[("X-Key", ⟨"api", "key", "Key "⟩)], [("to ken", ⟨"api", "key", ""⟩)], []⟩, none⟩

/-- A request with a credential and a secret in its query and a secret in a header. -/
def plainRequest : Except String (EndpointRequest × ResolvedBindings) := do
  let config ← EndpointConfig.fromOptions plainPackages
    ["base_url=https://api.example", "auth_scheme=query"]
  let endpoint ← resolveEndpoint plainPackages "api" config (plainMapping "api")
  let request ← prepareEndpointRequest plainPackages endpoint "/v1?page=2"
    (some (.object [("Accept", .string "text/plain")]))
  plainOptions.resolve plainPackages plainMapping request
    (some (.object [("Accept", .string "text/plain")]))

theorem plain_request_unambiguous :
    ∃ result composed credential secrets, plainRequest = .ok result ∧
      result.1.url.queryPairs = composed ++ credential ++ secrets ∧
      NoSharedName composed credential ∧ NoSharedName composed secrets ∧
      NoSharedName credential secrets := by
  have hsucceeds : plainRequest.isOk = true := by decide +kernel
  cases hresult : plainRequest with
  | error message =>
      rw [hresult] at hsucceeds
      cases hsucceeds
  | ok result =>
      have hrun := hresult
      unfold plainRequest at hrun
      obtain ⟨config, hconfig, hrest⟩ := bind_eq_ok hrun
      obtain ⟨endpoint, hendpoint, hrest⟩ := bind_eq_ok hrest
      obtain ⟨request, hrequest, hresolve⟩ := bind_eq_ok hrest
      obtain ⟨composed, secrets, -, -, -, hpairs, hfree, hfirst, hsecond, -⟩ :=
        credentials_unambiguous plainPackages (fun _ _ _ => parse_plain_scheme) hconfig hendpoint
          hrequest hresolve
      exact ⟨result, composed.queryPairs, endpoint.auth.pairs, secrets, rfl, hpairs, hfree, hfirst,
        hsecond⟩

end PgDurable.Endpoints
