import PgDurable.Dsl.Acceptance
import PgDurable.Explain.Stored
import PgDurable.Requests.Ssrf

/-!
# Builders

The functions that users write a workflow with. Each takes the texts of its steps and returns the
text of a node. `to_json_denotes` says that this text is read as that node wherever a step is
expected; each `…_describes` says that the node has its steps as children.
-/

namespace PgDurable.Dsl

open Json Text Requests

/-! ## Nodes -/

def thenNode (a b : Durofut) : Durofut :=
  { Durofut.default "THEN" with leftNode := some a.intoRaw, rightNode := some b.intoRaw }

def sleepNode (seconds : Int) : Durofut :=
  { Durofut.default "SLEEP" with query := some (toString seconds) }

def waitScheduleNode (cronExpr : String) : Durofut :=
  { Durofut.default "WAIT_SCHEDULE" with
    query := some (print (.object [("cron_expr", .string cronExpr)])) }

def loopConfig : Value := .object [("continue_on_failure", .bool true)]

def loopNode (body : Durofut) (condition : Option Durofut) (continueOnFailure : Bool) : Durofut :=
  { Durofut.default "LOOP" with
    leftNode := some body.intoRaw
    conditionNode := condition.map Durofut.intoRaw
    query := if continueOnFailure then some (print loopConfig) else none }

def breakNode (value : Option String) : Durofut :=
  { Durofut.default "BREAK" with
    query := some (print (.object [("break_value", encodeOptionString value)])) }

def ifNode (condition thenBranch elseBranch : Durofut) : Durofut :=
  { Durofut.default "IF" with
    leftNode := some thenBranch.intoRaw
    rightNode := some elseBranch.intoRaw
    conditionNode := some condition.intoRaw }

def ifRowsConfig (resultName : String) : Value :=
  .object [("condition_type", .string "result_has_rows"), ("result_name", .string resultName)]

def ifRowsNode (resultName : String) (thenBranch elseBranch : Durofut) : Durofut :=
  { Durofut.default "IF" with
    leftNode := some thenBranch.intoRaw
    rightNode := some elseBranch.intoRaw
    query := some (print (ifRowsConfig resultName)) }

/-- A join of two branches and more. -/
def joinNode (a b : Durofut) (more : List Durofut) : Durofut :=
  { Durofut.default "JOIN" with
    leftNode := some a.intoRaw
    rightNode := some b.intoRaw
    extraNodes := more.map Durofut.intoRaw }

def raceNode (a b : Durofut) : Durofut :=
  { Durofut.default "RACE" with leftNode := some a.intoRaw, rightNode := some b.intoRaw }

def signalNode (name : String) (timeoutSeconds : Option Int) : Durofut :=
  { Durofut.default "SIGNAL" with
    query := some (print (.object [("signal_name", .string name),
      ("timeout_seconds", timeoutSeconds.elim .null fun timeout =>
        .number (Number.ofNat timeout.toNat))])) }

/-- A value of type `jsonb`, whose objects name no key twice. -/
structure JsonB where
  value : Value
  well_formed : value.WellFormed

/-- The arguments of a request. -/
structure HttpArguments where
  url : String
  method : String
  headers : Option JsonB
  timeoutSeconds : Int
  endpoint : Option String

/-- `str::to_uppercase` on the texts that become the name of a method: besides the characters that
become one letter, two become `ST`. -/
def uppercase (text : String) : String :=
  String.ofList (text.toList.flatMap fun c =>
    if c = '\ufb05' ∨ c = '\ufb06' then ['S', 'T'] else [NodeStatus.toUppercase c])

/-- The configuration of a request. -/
def httpConfig (request : HttpArguments) (payload : String × Value) : Value :=
  .object ([("url", .string request.url), ("method", .string (uppercase request.method)), payload,
    ("headers", request.headers.elim .null (·.value)),
    ("timeout_seconds", .number (Number.ofNat request.timeoutSeconds.toNat))] ++
    (request.endpoint.map fun server => ("endpoint", Value.string server)).toList)

def requestNode (nodeType : String) (request : HttpArguments) (payload : String × Value) : Durofut :=
  { Durofut.default nodeType with query := some (print (httpConfig request payload)) }

/-! ## Builders -/

section Builders

variable (marker : Option String) (checkCron : String → Except String Unit)
variable (security : HttpSecurity)

def sql (query : String) : String := (sqlNode query).toJson

def thenFn (a b : String) : Except String String := do
  let a ← ensure marker a
  let b ← ensure marker b
  return (thenNode a b).toJson

def asNamed (fut name : String) : Except String String := do
  (validateResultName name).mapError ("df.as: " ++ ·)
  let durofut ← ensure marker fut
  return { durofut with resultName := some name : Durofut }.toJson

def sleep (seconds : Int) : Except String String :=
  if seconds < 0 then .error "Sleep duration must be non-negative"
  else .ok (sleepNode seconds).toJson

/-- `checkCron` is whether the `cron` package reads an expression. -/
def waitForSchedule (cronExpr : String) : Except String String :=
  match checkCron ("0 " ++ cronExpr) with
  | .error error => .error ("Invalid cron expression '" ++ cronExpr ++ "': " ++ error)
  | .ok () => .ok (waitScheduleNode cronExpr).toJson

def buildLoop (body : String) (condition : Option String) (continueOnFailure : Bool) :
    Except String String := do
  let body ← ensure marker body
  let condition ← condition.mapM (ensure marker)
  return (loopNode body condition continueOnFailure).toJson

def breakFn (value : Option String) : String := (breakNode value).toJson

def ifFn (condition thenBranch elseBranch : String) : Except String String := do
  let condition ← ensure marker condition
  let thenBranch ← ensure marker thenBranch
  let elseBranch ← ensure marker elseBranch
  return (ifNode condition thenBranch elseBranch).toJson

def ifRowsFn (resultName thenBranch elseBranch : String) : Except String String := do
  let thenBranch ← ensure marker thenBranch
  let elseBranch ← ensure marker elseBranch
  return (ifRowsNode resultName thenBranch elseBranch).toJson

def join (a b : String) : Except String String := do
  let a ← ensure marker a
  let b ← ensure marker b
  return (joinNode a b []).toJson

def join3 (a b c : String) : Except String String := do
  let a ← ensure marker a
  let b ← ensure marker b
  let c ← ensure marker c
  return (joinNode a b [c]).toJson

def race (a b : String) : Except String String := do
  let a ← ensure marker a
  let b ← ensure marker b
  return (raceNode a b).toJson

def waitForSignal (name : String) (timeoutSeconds : Option Int) : Except String String :=
  if name = "" then .error "Signal name cannot be empty"
  else if timeoutSeconds.any (· ≤ 0) then .error "Timeout must be positive"
  else .ok (signalNode name timeoutSeconds).toJson

/-- The checks that requests share. -/
def checkHttpArguments (helperName : String) (methods : List String) (methodError : String)
    (request : HttpArguments) : Except String Unit :=
  if security = .disabled then
    .error (helperName ++ " is disabled. Configure pg_durable.http_security = 'restricted' " ++
      "and restart the server to enable outbound HTTP requests.")
  else do
    -- The scheme of a URL with placeholders is not known before they are filled in.
    if request.endpoint.isNone ∧ !request.url.toList.contains '\x7b' then
      precheckUrlScheme request.url security
    if !methods.contains (uppercase request.method) then throw methodError
    else if request.timeoutSeconds ≤ 0 then throw "Timeout must be positive"

def httpNode (request : HttpArguments) (body : Option String) : Except String String := do
  checkHttpArguments security "df.http()" ["GET", "POST", "PUT", "DELETE", "PATCH"]
    ("Invalid HTTP method: " ++ request.method ++ ". Must be GET, POST, PUT, DELETE, or PATCH")
    request
  return (requestNode "HTTP" request ("body", encodeOptionString body)).toJson

def httpMultipartNode (request : HttpArguments) (parts : Option JsonB) : Except String String := do
  checkHttpArguments security "df.http_multipart()" ["POST", "PUT", "PATCH"]
    ("Invalid HTTP method for multipart: " ++ request.method ++ ". Must be POST, PUT, or PATCH")
    request
  match parts with
  | none => throw "parts is required and cannot be NULL"
  | some parts =>
      match parts.value.asArray with
      | none => throw "parts must be a JSON array of part objects"
      | some [] => throw "parts must contain at least one part"
      | some (_ :: _) =>
          return (requestNode "HTTP_MULTIPART" request ("parts", parts.value)).toJson

end Builders

/-! ## Texts and the nodes they are read as -/

/-- The text is read as the node wherever a step is expected. -/
def Denotes (text : String) (node : Durofut) : Prop :=
  ∀ marker, nonFutureHelperName marker text = none →
    ensure marker text = .ok node ∧ ensureStrict marker text = .ok node

theorem to_json_denotes {node : Durofut} (h : node.nodeType ∈ validNodeTypes) :
    Denotes node.toJson node := by
  have hread : readDurofut node.toJson.toList = .ok node := by
    rw [Durofut.toJson, String.toList_ofList, read_durofut_write]
  have hvalid : validNodeTypes.contains node.nodeType = true := List.contains_iff_mem.2 h
  intro marker hmarker
  constructor
  · rw [ensure, hmarker, hread]
    dsimp only
    rw [if_pos hvalid]
  · rw [ensureStrict, hmarker, hread]
    dsimp only
    rw [if_pos hvalid]

/-- What a text denotes is what it is read as. -/
theorem Denotes.ensured {marker : Option String} {text : String} {node other : Durofut}
    (h : Denotes text node) (hensure : ensure marker text = .ok other) : other = node := by
  cases hmarker : nonFutureHelperName marker text with
  | some helperName =>
      rw [ensure, hmarker] at hensure
      cases hensure
  | none => exact Except.ok.inj (hensure.symm.trans (h marker hmarker).1)

/-- A text that is SQL: it is no node, and no object that names a type. -/
structure SqlText where
  text : String
  unread : ∃ message, readDurofut text.toList = .error message
  untyped : namedType text = none

theorem sql_text_denotes (sql : SqlText) : Denotes sql.text (sqlNode sql.text) := by
  obtain ⟨message, hunread⟩ := sql.unread
  intro marker hmarker
  constructor
  · rw [ensure, hmarker, hunread]
    dsimp only
    rw [sql.untyped]
    rfl
  · rw [ensureStrict, hmarker, hunread]
    dsimp only
    rw [sql.untyped]

/-! ## The children of a node -/

def leafTypes : List String :=
  ["SQL", "SLEEP", "WAIT_SCHEDULE", "BREAK", "HTTP", "HTTP_MULTIPART", "SIGNAL"]

/-- A node with nothing but a query. -/
structure Leaf (node : Durofut) : Prop where
  node_type : node.nodeType ∈ leafTypes
  left_node : node.leftNode = none
  right_node : node.rightNode = none
  condition_node : node.conditionNode = none
  extra_nodes : node.extraNodes = []
  query : node.query.isSome

theorem leaf_types_sound : ∀ nodeType ∈ leafTypes, nodeType ∈ validNodeTypes ∧
    supportsCondition nodeType = false ∧ nodeType ≠ "JOIN" := by
  decide

theorem leaf_slots {node : Durofut} (h : Leaf node) :
    childSlots node = [] ∧ conditionSlots node = [] ∧ extraSlots node = [] := by
  obtain ⟨-, hno, hjoin⟩ := leaf_types_sound _ h.node_type
  have hcondition : conditionSlots node = [] := by
    rw [conditionSlots, if_neg (by rw [hno]; exact Bool.false_ne_true)]
  have hextra : extraSlots node = [] := by rw [extraSlots, if_neg hjoin]
  refine ⟨?_, hcondition, hextra⟩
  rw [childSlots, hcondition, hextra, leftSlots, rightSlots, h.left_node, h.right_node]
  rfl

theorem leaf_describes {node : Durofut} (h : Leaf node) : Describes node [] := by
  obtain ⟨hvalid, hno, hjoin⟩ := leaf_types_sound _ h.node_type
  obtain ⟨hslots, hcondition, hextra⟩ := leaf_slots h
  refine ⟨hvalid, ?_, fun hne => absurd ?_ hne, ?_⟩
  · rw [validateConfigChildren, h.condition_node, h.extra_nodes]
    show rejectEmbeddedConfigChildren node = _
    unfold rejectEmbeddedConfigChildren
    cases node.query.bind parse with
    | none => rfl
    | some config =>
        dsimp only
        rw [hno, beq_false_of_ne hjoin]
        rfl
  · rw [hcondition, hextra]
    rfl
  · rw [hslots]
    exact .nil

/-- A node whose configuration has no children. -/
theorem config_valid {node : Durofut} (config : Value)
    (hcondition : node.conditionNode.isSome = true → supportsCondition node.nodeType = true)
    (hextra : node.extraNodes ≠ [] → node.nodeType = "JOIN")
    (hquery : node.query = none ∨ (node.query = some (print config) ∧ config.WellFormed ∧
      config.get? "condition_node" = none ∧ config.get? "extra_nodes" = none)) :
    validateConfigChildren node = .ok () := by
  have hno : (node.conditionNode.isSome && !supportsCondition node.nodeType) = false := by
    rw [Bool.and_eq_false_iff, Bool.not_eq_false']
    by_cases hsome : node.conditionNode.isSome = true
    · exact .inr (hcondition hsome)
    · exact .inl (Bool.not_eq_true _ ▸ hsome)
  have hjoin : (!node.extraNodes.isEmpty && node.nodeType != "JOIN") = false := by
    rw [Bool.and_eq_false_iff, Bool.not_eq_false', List.isEmpty_iff]
    by_cases hnil : node.extraNodes = []
    · exact .inl hnil
    · exact .inr (by rw [hextra hnil]; rfl)
  rw [validateConfigChildren, hno, hjoin]
  show rejectEmbeddedConfigChildren node = _
  unfold rejectEmbeddedConfigChildren
  rcases hquery with hquery | ⟨hquery, hwf, hconfig⟩
  · rw [hquery]
    rfl
  rw [hquery, Option.bind_some]
  cases hparse : parse (print config) with
  | none => rfl
  | some read =>
      obtain ⟨rfl, -⟩ := (parse_print_iff hwf).1 hparse
      dsimp only
      rw [hconfig.1, hconfig.2]
      simp

theorem child_slot (node : Durofut) (segment : String) :
    Durofut.childFromRaw (segment, node.intoRaw).2 = .ok node := child_from_raw_into_raw node

theorem then_describes (a b : Durofut) : Describes (thenNode a b) [a, b] where
  node_type := (by decide : "THEN" ∈ validNodeTypes)
  config := rfl
  object := fun h => absurd rfl h
  children := .cons (child_slot a "left") (.cons (child_slot b "right") .nil)

theorem race_describes (a b : Durofut) : Describes (raceNode a b) [a, b] where
  node_type := (by decide : "RACE" ∈ validNodeTypes)
  config := rfl
  object := fun h => absurd rfl h
  children := .cons (child_slot a "left") (.cons (child_slot b "right") .nil)

theorem if_describes (condition thenBranch elseBranch : Durofut) :
    Describes (ifNode condition thenBranch elseBranch) [thenBranch, elseBranch, condition] where
  node_type := (by decide : "IF" ∈ validNodeTypes)
  config := rfl
  object := fun _ => ⟨_, rfl⟩
  children := .cons (child_slot thenBranch "left") (.cons (child_slot elseBranch "right")
    (.cons (child_slot condition "condition_node") .nil))

theorem if_rows_describes (resultName : String) (thenBranch elseBranch : Durofut) :
    Describes (ifRowsNode resultName thenBranch elseBranch) [thenBranch, elseBranch] where
  node_type := (by decide : "IF" ∈ validNodeTypes)
  config := config_valid (ifRowsConfig resultName)
    (fun _ => rfl) (fun h => absurd rfl h)
    (.inr ⟨rfl, ⟨(by decide : ["condition_type", "result_name"].Nodup), trivial, trivial, trivial⟩,
      rfl, rfl⟩)
  object := fun h => absurd rfl h
  children := .cons (child_slot thenBranch "left") (.cons (child_slot elseBranch "right") .nil)

theorem loop_config_well_formed : loopConfig.WellFormed :=
  ⟨(by decide : ["continue_on_failure"].Nodup), trivial, trivial⟩

theorem loop_describes (body : Durofut) (condition : Option Durofut) (continueOnFailure : Bool) :
    Describes (loopNode body condition continueOnFailure) (body :: condition.toList) where
  node_type := (by decide : "LOOP" ∈ validNodeTypes)
  config := config_valid loopConfig (fun _ => rfl)
    (fun h => absurd rfl h) (by
      cases continueOnFailure
      · exact .inl rfl
      · exact .inr ⟨rfl, loop_config_well_formed, rfl, rfl⟩)
  object := by
    intro _
    cases continueOnFailure with
    | false => exact ⟨_, rfl⟩
    | true =>
        have hread : fromStr (print loopConfig) = .ok loopConfig :=
          (from_str_print_iff loop_config_well_formed).2 ⟨rfl, by decide⟩
        refine ⟨[("continue_on_failure", .bool true)], ?_⟩
        show (queryConfig (loopNode body condition true) >>= _) = _
        rw [queryConfig, loopNode]
        dsimp only
        rw [if_pos rfl]
        dsimp only
        rw [hread]
        rfl
  children := by
    cases condition with
    | none => exact .cons (child_slot body "left") .nil
    | some condition =>
        exact .cons (child_slot body "left") (.cons (child_slot condition "condition_node") .nil)

theorem extra_children_slots (nodes : List Durofut) (start : Nat) :
    List.Forall₂ (fun slot child => Durofut.childFromRaw slot.2 = .ok child)
      (((nodes.map Durofut.intoRaw).zipIdx start).map fun (raw, i) =>
        ("extra_nodes[" ++ toString i ++ "]", raw)) nodes := by
  induction nodes generalizing start with
  | nil => exact .nil
  | cons node nodes ih => exact .cons (child_from_raw_into_raw node) (ih (start + 1))

theorem join_describes (a b : Durofut) (more : List Durofut) :
    Describes (joinNode a b more) (a :: b :: more) where
  node_type := (by decide : "JOIN" ∈ validNodeTypes)
  config := config_valid .null (fun h => (by cases h)) (fun _ => rfl) (.inl rfl)
  object := fun _ => ⟨_, rfl⟩
  children := .cons (child_slot a "left") (.cons (child_slot b "right") (extra_children_slots more 0))

/-- A name changes nothing for the children. -/
theorem named_describes {node : Durofut} {children : List Durofut} (h : Describes node children)
    (name : String) : Describes { node with resultName := some name } children :=
  ⟨h.node_type, h.config, h.object, h.children⟩

end PgDurable.Dsl
