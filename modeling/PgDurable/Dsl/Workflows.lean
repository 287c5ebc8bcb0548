import PgDurable.Dsl.Builders

/-!
# Workflows

`Workflow` are the expressions of calls of the builders. `Workflow.build` evaluates one to the text
that `df.start` gets, and `Workflow.node` with `Workflow.steps` is the tree that it stands for.
`started_workflow_stored` says that `df.start` stores this tree, row by row.
-/

namespace PgDurable.Dsl

open Json Text Requests InsertNodes

/-! ## Expressions -/

/-- A call of a builder that takes no step. -/
inductive Call where
  | sql (query : String)
  | sleep (seconds : Int64)
  | waitForSchedule (cronExpr : String)
  | breakFn (value : Option String)
  | waitForSignal (name : String) (timeoutSeconds : Option Int32)
  | http (request : HttpArguments) (body : Option String)
  | httpMultipart (request : HttpArguments) (parts : JsonB)

/-- A workflow as it is written with the builders. -/
inductive Workflow where
  | text (sql : SqlText)
  | leaf (call : Call)
  | thenFn (a b : Workflow)
  | asNamed (fut : Workflow) (name : String)
  | loop (body : Workflow) (continueOnFailure : Bool)
  | loopWhile (body condition : Workflow) (continueOnFailure : Bool)
  | ifFn (condition thenBranch elseBranch : Workflow)
  | ifRowsFn (resultName : String) (thenBranch elseBranch : Workflow)
  | join (a b : Workflow)
  | join3 (a b c : Workflow)
  | race (a b : Workflow)

section Build

variable (marker : Option String) (checkCron : String → Except String Unit)
variable (security : HttpSecurity)

def Call.build : Call → Except String String
  | .sql query => .ok (Dsl.sql query)
  | .sleep seconds => Dsl.sleep seconds.toInt
  | .waitForSchedule cronExpr => Dsl.waitForSchedule checkCron cronExpr
  | .breakFn value => .ok (Dsl.breakFn value)
  | .waitForSignal name timeoutSeconds =>
      Dsl.waitForSignal name (timeoutSeconds.map Int32.toInt)
  | .http request body => httpNode security request body
  | .httpMultipart request parts => httpMultipartNode security request (some parts)

/-- Evaluate the calls, the arguments of each first. -/
def Workflow.build : Workflow → Except String String
  | .text sql => .ok sql.text
  | .leaf call => call.build checkCron security
  | .thenFn a b => do Dsl.thenFn marker (← a.build) (← b.build)
  | .asNamed fut name => do Dsl.asNamed marker (← fut.build) name
  | .loop body continueOnFailure => do buildLoop marker (← body.build) none continueOnFailure
  | .loopWhile body condition continueOnFailure => do
      buildLoop marker (← body.build) (some (← condition.build)) continueOnFailure
  | .ifFn condition thenBranch elseBranch => do
      Dsl.ifFn marker (← condition.build) (← thenBranch.build) (← elseBranch.build)
  | .ifRowsFn resultName thenBranch elseBranch => do
      Dsl.ifRowsFn marker resultName (← thenBranch.build) (← elseBranch.build)
  | .join a b => do Dsl.join marker (← a.build) (← b.build)
  | .join3 a b c => do Dsl.join3 marker (← a.build) (← b.build) (← c.build)
  | .race a b => do Dsl.race marker (← a.build) (← b.build)

end Build

/-! ## The trees they stand for -/

def Call.node : Call → Durofut
  | .sql query => sqlNode query
  | .sleep seconds => sleepNode seconds.toInt
  | .waitForSchedule cronExpr => waitScheduleNode cronExpr
  | .breakFn value => breakNode value
  | .waitForSignal name timeoutSeconds => signalNode name (timeoutSeconds.map Int32.toInt)
  | .http request body => requestNode "HTTP" request ("body", encodeOptionString body)
  | .httpMultipart request parts => requestNode "HTTP_MULTIPART" request ("parts", parts.value)

/-- The node of a workflow. -/
def Workflow.node : Workflow → Durofut
  | .text sql => sqlNode sql.text
  | .leaf call => call.node
  | .thenFn a b => thenNode a.node b.node
  | .asNamed fut name => { fut.node with resultName := some name }
  | .loop body continueOnFailure => loopNode body.node none continueOnFailure
  | .loopWhile body condition continueOnFailure =>
      loopNode body.node (some condition.node) continueOnFailure
  | .ifFn condition thenBranch elseBranch => ifNode condition.node thenBranch.node elseBranch.node
  | .ifRowsFn resultName thenBranch elseBranch =>
      ifRowsNode resultName thenBranch.node elseBranch.node
  | .join a b => joinNode a.node b.node []
  | .join3 a b c => joinNode a.node b.node [c.node]
  | .race a b => raceNode a.node b.node

/-- The trees of its steps, in the order of the fields that hold them. -/
def Workflow.steps : Workflow → Forest Durofut
  | .text _ => .nil
  | .leaf _ => .nil
  | .thenFn a b => .cons a.node a.steps (.cons b.node b.steps .nil)
  | .asNamed fut _ => fut.steps
  | .loop body _ => .cons body.node body.steps .nil
  | .loopWhile body condition _ =>
      .cons body.node body.steps (.cons condition.node condition.steps .nil)
  | .ifFn condition thenBranch elseBranch =>
      .cons thenBranch.node thenBranch.steps (.cons elseBranch.node elseBranch.steps
        (.cons condition.node condition.steps .nil))
  | .ifRowsFn _ thenBranch elseBranch =>
      .cons thenBranch.node thenBranch.steps (.cons elseBranch.node elseBranch.steps .nil)
  | .join a b => .cons a.node a.steps (.cons b.node b.steps .nil)
  | .join3 a b c => .cons a.node a.steps (.cons b.node b.steps (.cons c.node c.steps .nil))
  | .race a b => .cons a.node a.steps (.cons b.node b.steps .nil)

theorem call_leaf (call : Call) : Leaf call.node := by
  cases call with
  | sql query => exact ⟨(by decide : "SQL" ∈ leafTypes), rfl, rfl, rfl, rfl, rfl⟩
  | sleep seconds => exact ⟨(by decide : "SLEEP" ∈ leafTypes), rfl, rfl, rfl, rfl, rfl⟩
  | waitForSchedule cronExpr =>
      exact ⟨(by decide : "WAIT_SCHEDULE" ∈ leafTypes), rfl, rfl, rfl, rfl, rfl⟩
  | breakFn value => exact ⟨(by decide : "BREAK" ∈ leafTypes), rfl, rfl, rfl, rfl, rfl⟩
  | waitForSignal name timeoutSeconds =>
      exact ⟨(by decide : "SIGNAL" ∈ leafTypes), rfl, rfl, rfl, rfl, rfl⟩
  | http request body => exact ⟨(by decide : "HTTP" ∈ leafTypes), rfl, rfl, rfl, rfl, rfl⟩
  | httpMultipart request parts =>
      exact ⟨(by decide : "HTTP_MULTIPART" ∈ leafTypes), rfl, rfl, rfl, rfl, rfl⟩

theorem sql_node_leaf (text : String) : Leaf (sqlNode text) := call_leaf (.sql text)

/-- A workflow stands for a tree of valid nodes. -/
theorem workflow_tree (w : Workflow) : Tree w.node w.steps := by
  induction w with
  | text sql => exact ⟨leaf_describes (sql_node_leaf sql.text), trivial, trivial⟩
  | leaf call => exact ⟨leaf_describes (call_leaf call), trivial, trivial⟩
  | thenFn a b iha ihb =>
      exact ⟨then_describes _ _, ⟨iha.1, iha.2.1, ihb.1, ihb.2.1, trivial⟩, trivial⟩
  | asNamed fut name ih => exact ⟨named_describes ih.1 name, ih.2.1, trivial⟩
  | loop body _ ih => exact ⟨loop_describes _ none _, ⟨ih.1, ih.2.1, trivial⟩, trivial⟩
  | loopWhile body condition _ ih ih' =>
      exact ⟨loop_describes _ (some _) _, ⟨ih.1, ih.2.1, ih'.1, ih'.2.1, trivial⟩, trivial⟩
  | ifFn condition thenBranch elseBranch ih ih' ih'' =>
      exact ⟨if_describes _ _ _, ⟨ih'.1, ih'.2.1, ih''.1, ih''.2.1, ih.1, ih.2.1, trivial⟩,
        trivial⟩
  | ifRowsFn resultName thenBranch elseBranch ih ih' =>
      exact ⟨if_rows_describes _ _ _, ⟨ih.1, ih.2.1, ih'.1, ih'.2.1, trivial⟩, trivial⟩
  | join a b iha ihb =>
      exact ⟨join_describes _ _ [], ⟨iha.1, iha.2.1, ihb.1, ihb.2.1, trivial⟩, trivial⟩
  | join3 a b c iha ihb ihc =>
      exact ⟨join_describes _ _ [_], ⟨iha.1, iha.2.1, ihb.1, ihb.2.1, ihc.1, ihc.2.1, trivial⟩,
        trivial⟩
  | race a b iha ihb =>
      exact ⟨race_describes _ _, ⟨iha.1, iha.2.1, ihb.1, ihb.2.1, trivial⟩, trivial⟩

section Build

variable {marker : Option String} {checkCron : String → Except String Unit}
variable {security : HttpSecurity}

theorem call_build_text {call : Call} {text : String}
    (h : call.build checkCron security = .ok text) : text = call.node.toJson := by
  cases call with
  | sql query =>
      cases h
      rfl
  | sleep seconds =>
      rw [Call.build, sleep] at h
      split_ifs at h
      cases h
      rfl
  | waitForSchedule cronExpr =>
      rw [Call.build, waitForSchedule] at h
      split at h
      · cases h
      · cases h
        rfl
  | breakFn value =>
      cases h
      rfl
  | waitForSignal name timeoutSeconds =>
      rw [Call.build, waitForSignal] at h
      split_ifs at h
      cases h
      rfl
  | http request body =>
      obtain ⟨⟨⟩, -, h⟩ := bind_eq_ok h
      cases h
      rfl
  | httpMultipart request parts =>
      obtain ⟨⟨⟩, -, h⟩ := bind_eq_ok h
      dsimp only at h
      split at h
      · cases h
      · cases h
      · cases h
        rfl

theorem map_m_some_ok {α β : Type} {f : α → Except String β} {a : α} {result : Option β}
    (h : (some a).mapM f = .ok result) : ∃ b, f a = .ok b ∧ result = some b := by
  have hmap : (some a).mapM f = (f a).map some := rfl
  rw [hmap] at h
  cases hf : f a with
  | error message =>
      rw [hf] at h
      cases h
  | ok b =>
      rw [hf] at h
      cases h
      exact ⟨b, rfl, rfl⟩

theorem node_denotes (w : Workflow) : Denotes w.node.toJson w.node :=
  to_json_denotes (workflow_tree w).1.node_type

/-- The text of a workflow is read as its node. -/
theorem build_denotes {w : Workflow} {text : String}
    (h : w.build marker checkCron security = .ok text) : Denotes text w.node := by
  induction w generalizing text with
  | text sql =>
      cases h
      exact sql_text_denotes sql
  | leaf call =>
      rw [call_build_text h]
      exact node_denotes (.leaf call)
  | thenFn a b iha ihb =>
      obtain ⟨first, ha, h⟩ := bind_eq_ok h
      obtain ⟨second, hb, h⟩ := bind_eq_ok h
      obtain ⟨aFut, ha', h⟩ := bind_eq_ok h
      obtain ⟨bFut, hb', h⟩ := bind_eq_ok h
      cases h
      rw [(iha ha).ensured ha',
        (ihb hb).ensured hb']
      exact node_denotes (.thenFn a b)
  | asNamed fut name ih =>
      obtain ⟨inner, hinner, h⟩ := bind_eq_ok h
      obtain ⟨⟨⟩, -, h⟩ := bind_eq_ok h
      obtain ⟨durofut, hdurofut, h⟩ := bind_eq_ok h
      cases h
      rw [(ih hinner).ensured hdurofut]
      exact node_denotes (.asNamed fut name)
  | loop body continueOnFailure ih =>
      obtain ⟨inner, hinner, h⟩ := bind_eq_ok h
      obtain ⟨bodyFut, hbody, h⟩ := bind_eq_ok h
      cases h
      rw [(ih hinner).ensured hbody]
      exact node_denotes (.loop body continueOnFailure)
  | loopWhile body condition continueOnFailure ih ih' =>
      obtain ⟨inner, hinner, h⟩ := bind_eq_ok h
      obtain ⟨other, hother, h⟩ := bind_eq_ok h
      obtain ⟨bodyFut, hbody, h⟩ := bind_eq_ok h
      obtain ⟨conditionFut, hmap, h⟩ := bind_eq_ok h
      obtain ⟨conditionNode, hcondition, rfl⟩ := map_m_some_ok hmap
      cases h
      rw [(ih hinner).ensured hbody,
        (ih' hother).ensured hcondition]
      exact node_denotes (.loopWhile body condition continueOnFailure)
  | ifFn condition thenBranch elseBranch ih ih' ih'' =>
      obtain ⟨first, hfirst, h⟩ := bind_eq_ok h
      obtain ⟨second, hsecond, h⟩ := bind_eq_ok h
      obtain ⟨third, hthird, h⟩ := bind_eq_ok h
      obtain ⟨conditionFut, hcondition, h⟩ := bind_eq_ok h
      obtain ⟨thenFut, hthen, h⟩ := bind_eq_ok h
      obtain ⟨elseFut, helse, h⟩ := bind_eq_ok h
      cases h
      rw [(ih hfirst).ensured hcondition,
        (ih' hsecond).ensured hthen,
        (ih'' hthird).ensured helse]
      exact node_denotes (.ifFn condition thenBranch elseBranch)
  | ifRowsFn resultName thenBranch elseBranch ih ih' =>
      obtain ⟨first, hfirst, h⟩ := bind_eq_ok h
      obtain ⟨second, hsecond, h⟩ := bind_eq_ok h
      obtain ⟨thenFut, hthen, h⟩ := bind_eq_ok h
      obtain ⟨elseFut, helse, h⟩ := bind_eq_ok h
      cases h
      rw [(ih hfirst).ensured hthen,
        (ih' hsecond).ensured helse]
      exact node_denotes (.ifRowsFn resultName thenBranch elseBranch)
  | join a b iha ihb =>
      obtain ⟨first, ha, h⟩ := bind_eq_ok h
      obtain ⟨second, hb, h⟩ := bind_eq_ok h
      obtain ⟨aFut, ha', h⟩ := bind_eq_ok h
      obtain ⟨bFut, hb', h⟩ := bind_eq_ok h
      cases h
      rw [(iha ha).ensured ha',
        (ihb hb).ensured hb']
      exact node_denotes (.join a b)
  | join3 a b c iha ihb ihc =>
      obtain ⟨first, ha, h⟩ := bind_eq_ok h
      obtain ⟨second, hb, h⟩ := bind_eq_ok h
      obtain ⟨third, hc, h⟩ := bind_eq_ok h
      obtain ⟨aFut, ha', h⟩ := bind_eq_ok h
      obtain ⟨bFut, hb', h⟩ := bind_eq_ok h
      obtain ⟨cFut, hc', h⟩ := bind_eq_ok h
      cases h
      rw [(iha ha).ensured ha',
        (ihb hb).ensured hb',
        (ihc hc).ensured hc']
      exact node_denotes (.join3 a b c)
  | race a b iha ihb =>
      obtain ⟨first, ha, h⟩ := bind_eq_ok h
      obtain ⟨second, hb, h⟩ := bind_eq_ok h
      obtain ⟨aFut, ha', h⟩ := bind_eq_ok h
      obtain ⟨bFut, hb', h⟩ := bind_eq_ok h
      cases h
      rw [(iha ha).ensured ha',
        (ihb hb).ensured hb']
      exact node_denotes (.race a b)

end Build

/-! ## Rows -/

/-- The row of a node, apart from the ids of its children. -/
structure StoredAs (node : Durofut) (row : MaterializedNode) : Prop where
  node_type : row.nodeType = node.nodeType
  result_name : row.resultName = node.resultName
  left_node : row.leftNode.isSome = node.leftNode.isSome
  right_node : row.rightNode.isSome = node.rightNode.isSome
  query : ∃ condition extra, (condition = none ↔ conditionSlots node = []) ∧
    (extra = [] ↔ extraSlots node = []) ∧ materializedQuery node condition extra = .ok row.query

theorem head_is_some {entry : PendingGraphNode} {segment : String} {raw : Option RawObject}
    {children : List PendingGraphNode}
    (h : List.Forall₂ (ReadsChild entry) (raw.toList.map fun raw => (segment, raw)) children) :
    (children.head?.map (·.id)).isSome = raw.isSome := by
  cases raw with
  | none =>
      cases h
      rfl
  | some raw =>
      cases h
      rfl

/-- A materialized node is stored as its row. -/
theorem materializes_stored {entry : PendingGraphNode} {row : MaterializedNode}
    {children : List PendingGraphNode} (h : Materializes entry row children) :
    StoredAs entry.node row := by
  obtain ⟨left, right, condition, extra, hlevel, -⟩ := h
  refine ⟨hlevel.node_type, hlevel.result_name, ?_, ?_, _, _, ?_, ?_, hlevel.query⟩
  · rw [hlevel.left_node]
    exact head_is_some hlevel.reads_left
  · rw [hlevel.right_node]
    exact head_is_some hlevel.reads_right
  · rw [no_slots hlevel.reads_condition, Option.map_eq_none_iff, List.head?_eq_none_iff]
  · rw [no_slots hlevel.reads_extra, List.map_eq_nil_iff]

/-- A row that `df.nodes` takes and whose result later texts can refer to. -/
structure Acceptable (row : MaterializedNode) : Prop where
  structure_chk : Explain.hasStructure (explainNode row) = true
  result_name : ∀ name, row.resultName = some name → validateResultName name = .ok ()
  http : ∀ sinkTable, checkHttpNode sinkTable row = .ok ()

theorem stored_none {node : Durofut} {row : MaterializedNode} (h : StoredAs node row)
    (hslots : conditionSlots node = []) (hextra : extraSlots node = []) :
    row.query = node.query := by
  obtain ⟨condition, extra, hcondition, hno, hquery⟩ := h.query
  rw [hcondition.2 hslots, hno.2 hextra] at hquery
  exact materialized_query_plain hquery

/-- A configuration with children is stored. -/
theorem stored_some {node : Durofut} {row : MaterializedNode} (h : StoredAs node row)
    (hslots : conditionSlots node ≠ []) : row.query.isSome = true := by
  obtain ⟨condition, extra, hcondition, -, hquery⟩ := h.query
  have hsome : condition.isNone = false := by
    cases condition with
    | none => exact absurd (hcondition.1 rfl) hslots
    | some id => rfl
  rw [materializedQuery, hsome] at hquery
  obtain ⟨members, -, hquery⟩ := bind_eq_ok hquery
  rw [← Except.ok.inj hquery]
  rfl

theorem not_http {sinkTable : String → Except String Bool} {row : MaterializedNode}
    (h : row.nodeType ≠ "HTTP") (h' : row.nodeType ≠ "HTTP_MULTIPART") :
    checkHttpNode sinkTable row = .ok () := by
  rw [checkHttpNode, if_neg (not_or.2 ⟨h, h'⟩)]

/-- The configuration of a request, and what a builder leaves out of it. -/
theorem http_config_well_formed (request : HttpArguments) {payload : String × Value}
    (hpayload : payload.1 = "body" ∨ payload.1 = "parts") (hwf : payload.2.WellFormed) :
    (httpConfig request payload).WellFormed ∧ (httpConfig request payload).get? "into" = none ∧
      (httpConfig request payload).get? "max_request_bytes" = none := by
  obtain ⟨key, value⟩ := payload
  obtain ⟨url, method, headers, timeoutSeconds, endpoint⟩ := request
  have hheaders : (headers.elim Value.null (·.value)).WellFormed := by
    cases headers with
    | none => trivial
    | some headers => exact headers.well_formed
  have hkeys : ∀ name ∈ ["body", "parts"],
      ["url", "method", name, "headers", "timeout_seconds", "endpoint"].Nodup ∧
      ["url", "method", name, "headers", "timeout_seconds"].Nodup := by decide
  have hkey : key ∈ ["body", "parts"] := by
    rcases hpayload with rfl | rfl
    · exact List.mem_cons_self
    · exact List.mem_cons_of_mem _ List.mem_cons_self
  cases endpoint with
  | none =>
      refine ⟨⟨(hkeys key hkey).2, trivial, trivial, hwf, hheaders, trivial, trivial⟩, ?_, ?_⟩
      all_goals rcases hpayload with rfl | rfl <;> rfl
  | some server =>
      refine ⟨⟨(hkeys key hkey).1, trivial, trivial, hwf, hheaders, trivial, trivial, trivial⟩,
        ?_, ?_⟩
      all_goals rcases hpayload with rfl | rfl <;> rfl

/-- A request that a builder configures passes the checks of `df.start`. -/
theorem config_passes (request : HttpArguments) {payload : String × Value}
    (hpayload : payload.1 = "body" ∨ payload.1 = "parts") (hwf : payload.2.WellFormed)
    {sinkTable : String → Except String Bool} {row : MaterializedNode}
    (hquery : row.query = some (print (httpConfig request payload))) :
    checkHttpNode sinkTable row = .ok () := by
  obtain ⟨hconfig, hinto, hlimit⟩ := http_config_well_formed request hpayload hwf
  unfold checkHttpNode
  rw [hquery, Option.bind_some]
  split_ifs with htype
  · cases hparse : parse (print (httpConfig request payload)) with
    | none => rfl
    | some read =>
        obtain ⟨rfl, -⟩ := (parse_print_iff hconfig).1 hparse
        dsimp only
        rw [validateHttpSinkName, hinto, checkHttpRequestSize, hlimit]
        rfl
  · rfl

/-- The rows of calls are acceptable. -/
theorem leaf_acceptable {node : Durofut} (h : Leaf node)
    (hname : ∀ name, node.resultName = some name → validateResultName name = .ok ())
    (hhttp : ∀ sinkTable row, StoredAs node row → checkHttpNode sinkTable row = .ok ())
    {row : MaterializedNode} (hrow : StoredAs node row) : Acceptable row where
  structure_chk := by
    have htype := h.node_type
    have hleft := hrow.left_node
    have hright := hrow.right_node
    obtain ⟨-, hcondition, hextra⟩ := leaf_slots h
    have hquery : row.query.isSome = true := by
      rw [stored_none hrow hcondition hextra]
      exact h.query
    rw [h.left_node] at hleft
    rw [h.right_node] at hright
    rw [← hrow.node_type] at htype
    have hcheck : (row.leftNode.isNone && row.rightNode.isNone && row.query.isSome) = true := by
      rw [← Option.not_isSome, ← Option.not_isSome, hleft, hright, hquery]
      rfl
    simp only [leafTypes, List.mem_cons, List.not_mem_nil, or_false] at htype
    rcases htype with htype | htype | htype | htype | htype | htype | htype <;>
      (unfold Explain.hasStructure explainNode; rw [htype]; exact hcheck)
  result_name := fun name hsome => hname name (hrow.result_name ▸ hsome)
  http := fun sinkTable => hhttp sinkTable row hrow

theorem call_acceptable (call : Call) {row : MaterializedNode} (hrow : StoredAs call.node row) :
    Acceptable row := by
  have hleaf := call_leaf call
  refine leaf_acceptable hleaf ?_ ?_ hrow
  · intro name hname
    cases call <;> cases hname
  · intro sinkTable other hother
    obtain ⟨-, hcondition, hextra⟩ := leaf_slots hleaf
    have hquery := stored_none hother hcondition hextra
    have htype := hother.node_type
    cases call with
    | http request body =>
        refine config_passes request (.inl rfl) ?_ hquery
        cases body <;> trivial
    | httpMultipart request parts => exact config_passes request (.inr rfl) parts.well_formed hquery
    | sql query =>
        exact not_http (htype ▸ (by decide : "SQL" ≠ "HTTP"))
          (htype ▸ (by decide : "SQL" ≠ "HTTP_MULTIPART"))
    | sleep seconds =>
        exact not_http (htype ▸ (by decide : "SLEEP" ≠ "HTTP"))
          (htype ▸ (by decide : "SLEEP" ≠ "HTTP_MULTIPART"))
    | waitForSchedule cronExpr =>
        exact not_http (htype ▸ (by decide : "WAIT_SCHEDULE" ≠ "HTTP"))
          (htype ▸ (by decide : "WAIT_SCHEDULE" ≠ "HTTP_MULTIPART"))
    | breakFn value =>
        exact not_http (htype ▸ (by decide : "BREAK" ≠ "HTTP"))
          (htype ▸ (by decide : "BREAK" ≠ "HTTP_MULTIPART"))
    | waitForSignal name timeoutSeconds =>
        exact not_http (htype ▸ (by decide : "SIGNAL" ≠ "HTTP"))
          (htype ▸ (by decide : "SIGNAL" ≠ "HTTP_MULTIPART"))

/-- The types of nodes that run others, with the columns that their rows have. -/
theorem composite_acceptable {node : Durofut} {row : MaterializedNode} (hrow : StoredAs node row)
    (hname : node.resultName = none)
    (hcolumns : (node.nodeType = "THEN" ∨ node.nodeType = "RACE") ∧ row.leftNode.isSome = true ∧
        row.rightNode.isSome = true ∧ row.query = none ∨
      node.nodeType = "IF" ∧ row.leftNode.isSome = true ∧ row.rightNode.isSome = true ∧
        row.query.isSome = true ∨
      node.nodeType = "LOOP" ∧ row.leftNode.isSome = true ∧ row.rightNode = none ∨
      node.nodeType = "JOIN" ∧ row.leftNode.isSome = true ∧ row.rightNode.isSome = true) :
    Acceptable row := by
  have hunnamed : ∀ name, row.resultName = some name → validateResultName name = .ok () := by
    intro name hsome
    rw [hrow.result_name, hname] at hsome
    cases hsome
  rw [← hrow.node_type] at hcolumns
  rcases hcolumns with ⟨htype | htype, hleft, hright, hquery⟩ | ⟨htype, hleft, hright, hquery⟩ |
    ⟨htype, hleft, hright⟩ | ⟨htype, hleft, hright⟩
  all_goals
    refine ⟨?_, hunnamed, fun sinkTable => ?_⟩
    · unfold Explain.hasStructure explainNode
      rw [htype]
      simp [*]
    · rw [checkHttpNode, htype]
      rfl

theorem then_acceptable {a b : Durofut} {row : MaterializedNode}
    (hrow : StoredAs (thenNode a b) row) : Acceptable row :=
  composite_acceptable hrow rfl
    (.inl ⟨.inl rfl, hrow.left_node, hrow.right_node, stored_none hrow rfl rfl⟩)

theorem race_acceptable {a b : Durofut} {row : MaterializedNode}
    (hrow : StoredAs (raceNode a b) row) : Acceptable row :=
  composite_acceptable hrow rfl
    (.inl ⟨.inr rfl, hrow.left_node, hrow.right_node, stored_none hrow rfl rfl⟩)

theorem if_acceptable {condition thenBranch elseBranch : Durofut} {row : MaterializedNode}
    (hrow : StoredAs (ifNode condition thenBranch elseBranch) row) : Acceptable row :=
  composite_acceptable hrow rfl (.inr (.inl ⟨rfl, hrow.left_node, hrow.right_node,
    stored_some hrow (List.cons_ne_nil _ _)⟩))

theorem if_rows_acceptable {resultName : String} {thenBranch elseBranch : Durofut}
    {row : MaterializedNode} (hrow : StoredAs (ifRowsNode resultName thenBranch elseBranch) row) :
    Acceptable row := by
  refine composite_acceptable hrow rfl (.inr (.inl ⟨rfl, hrow.left_node, hrow.right_node, ?_⟩))
  rw [stored_none hrow rfl rfl]
  rfl

theorem loop_acceptable {body : Durofut} {condition : Option Durofut} {continueOnFailure : Bool}
    {row : MaterializedNode} (hrow : StoredAs (loopNode body condition continueOnFailure) row) :
    Acceptable row :=
  composite_acceptable hrow rfl (.inr (.inr (.inl ⟨rfl, hrow.left_node,
    Option.isSome_eq_false_iff.1 hrow.right_node |> Option.isNone_iff_eq_none.1⟩)))

theorem join_acceptable {a b : Durofut} {more : List Durofut} {row : MaterializedNode}
    (hrow : StoredAs (joinNode a b more) row) : Acceptable row :=
  composite_acceptable hrow rfl (.inr (.inr (.inr ⟨rfl, hrow.left_node, hrow.right_node⟩)))

/-- A valid name changes nothing else. -/
theorem named_acceptable {node : Durofut} {name : String}
    (hname : validateResultName name = .ok ())
    (hnode : ∀ row, StoredAs node row → Acceptable row) {row : MaterializedNode}
    (hrow : StoredAs { node with resultName := some name } row) : Acceptable row := by
  have hunnamed : StoredAs node { row with resultName := node.resultName } :=
    ⟨hrow.node_type, rfl, hrow.left_node, hrow.right_node, hrow.query⟩
  obtain ⟨hstructure, -, hhttp⟩ := hnode _ hunnamed
  refine ⟨hstructure, fun other hother => ?_, hhttp⟩
  rw [hrow.result_name] at hother
  cases hother
  exact hname

section Build

variable {marker : Option String} {checkCron : String → Except String Unit}
variable {security : HttpSecurity}

theorem map_error_ok {error : String → String} {result : Except String Unit}
    (h : result.mapError error = .ok ()) : result = .ok () := by
  cases result with
  | error message => cases h
  | ok value => rfl

/-- The rows of a workflow are acceptable. -/
theorem workflow_acceptable {w : Workflow} {text : String}
    (h : w.build marker checkCron security = .ok text) :
    (Forest.cons w.node w.steps .nil).Grown fun node _ =>
      ∀ row, StoredAs node row → Acceptable row := by
  induction w generalizing text with
  | text sql => exact ⟨fun row hrow => call_acceptable (.sql sql.text) hrow, trivial, trivial⟩
  | leaf call => exact ⟨fun row hrow => call_acceptable call hrow, trivial, trivial⟩
  | thenFn a b iha ihb =>
      obtain ⟨first, ha, h⟩ := bind_eq_ok h
      obtain ⟨second, hb, -⟩ := bind_eq_ok h
      exact ⟨fun row hrow => then_acceptable hrow,
        ⟨(iha ha).1, (iha ha).2.1, (ihb hb).1, (ihb hb).2.1, trivial⟩, trivial⟩
  | asNamed fut name ih =>
      obtain ⟨inner, hinner, h⟩ := bind_eq_ok h
      obtain ⟨⟨⟩, hname, -⟩ := bind_eq_ok h
      exact ⟨fun row hrow => named_acceptable (map_error_ok hname) (ih hinner).1 hrow,
        (ih hinner).2.1, trivial⟩
  | loop body continueOnFailure ih =>
      obtain ⟨inner, hinner, -⟩ := bind_eq_ok h
      exact ⟨fun row hrow => loop_acceptable hrow,
        ⟨(ih hinner).1, (ih hinner).2.1, trivial⟩, trivial⟩
  | loopWhile body condition continueOnFailure ih ih' =>
      obtain ⟨inner, hinner, h⟩ := bind_eq_ok h
      obtain ⟨other, hother, -⟩ := bind_eq_ok h
      exact ⟨fun row hrow => loop_acceptable hrow,
        ⟨(ih hinner).1, (ih hinner).2.1, (ih' hother).1, (ih' hother).2.1, trivial⟩, trivial⟩
  | ifFn condition thenBranch elseBranch ih ih' ih'' =>
      obtain ⟨first, hfirst, h⟩ := bind_eq_ok h
      obtain ⟨second, hsecond, h⟩ := bind_eq_ok h
      obtain ⟨third, hthird, -⟩ := bind_eq_ok h
      exact ⟨fun row hrow => if_acceptable hrow, ⟨(ih' hsecond).1, (ih' hsecond).2.1,
        (ih'' hthird).1, (ih'' hthird).2.1, (ih hfirst).1, (ih hfirst).2.1, trivial⟩, trivial⟩
  | ifRowsFn resultName thenBranch elseBranch ih ih' =>
      obtain ⟨first, hfirst, h⟩ := bind_eq_ok h
      obtain ⟨second, hsecond, -⟩ := bind_eq_ok h
      exact ⟨fun row hrow => if_rows_acceptable hrow, ⟨(ih hfirst).1, (ih hfirst).2.1,
        (ih' hsecond).1, (ih' hsecond).2.1, trivial⟩, trivial⟩
  | join a b iha ihb =>
      obtain ⟨first, ha, h⟩ := bind_eq_ok h
      obtain ⟨second, hb, -⟩ := bind_eq_ok h
      exact ⟨fun row hrow => join_acceptable hrow,
        ⟨(iha ha).1, (iha ha).2.1, (ihb hb).1, (ihb hb).2.1, trivial⟩, trivial⟩
  | join3 a b c iha ihb ihc =>
      obtain ⟨first, ha, h⟩ := bind_eq_ok h
      obtain ⟨second, hb, h⟩ := bind_eq_ok h
      obtain ⟨third, hc, -⟩ := bind_eq_ok h
      exact ⟨fun row hrow => join_acceptable hrow, ⟨(iha ha).1, (iha ha).2.1, (ihb hb).1,
        (ihb hb).2.1, (ihc hc).1, (ihc hc).2.1, trivial⟩, trivial⟩
  | race a b iha ihb =>
      obtain ⟨first, ha, h⟩ := bind_eq_ok h
      obtain ⟨second, hb, -⟩ := bind_eq_ok h
      exact ⟨fun row hrow => race_acceptable hrow,
        ⟨(iha ha).1, (iha ha).2.1, (ihb hb).1, (ihb hb).2.1, trivial⟩, trivial⟩

end Build

/-! ## What is stored -/

/-- The texts of a node describe one list of children. -/
theorem described_unique {node : Durofut} {children others : List Durofut}
    (h : Describes node children) (hother : Describes node others) : children = others := by
  have hsame : ∀ {slots : List (String × RawObject)} {children others : List Durofut},
      List.Forall₂ (fun slot child => Durofut.childFromRaw slot.2 = .ok child) slots children →
      List.Forall₂ (fun slot child => Durofut.childFromRaw slot.2 = .ok child) slots others →
      children = others := by
    intro slots children others hfirst hsecond
    induction hfirst generalizing others with
    | nil =>
        cases hsecond
        rfl
    | cons hchild _ ih =>
        cases hsecond with
        | cons hother hrest =>
            rw [ih hrest, Except.ok.inj (hchild.symm.trans hother)]
  exact hsame h.children hother.children

/-- Trees of valid nodes with the same roots are the same. -/
theorem forest_unique {forest other : Forest Durofut} (h : forest.Grown Describes)
    (hother : other.Grown Describes) (hroots : forest.roots = other.roots) : forest = other := by
  induction forest generalizing other with
  | nil =>
      cases other with
      | nil => rfl
      | cons => cases hroots
  | cons node below rest ih ih' =>
      cases other with
      | nil => cases hroots
      | cons node' below' rest' =>
          obtain ⟨rfl, hrest⟩ := List.cons.inj hroots
          rw [ih h.2.1 hother.2.1 (described_unique h.1 hother.1), ih' h.2.2 hother.2.2 hrest]

/-- A node of a workflow with the row that is stored for it. -/
structure StoredNode where
  node : Durofut
  row : MaterializedNode

/-- The rows refer to those of the steps, and each is as its node asks. -/
def StoredForest (forest : Forest StoredNode) : Prop :=
  forest.Grown fun stored below => StoredAs stored.node stored.row ∧
    references stored.row = below.map (·.row.id)

/-- Forget the ids and the path of a node. -/
def Placed.stored (placed : Placed) : StoredNode := ⟨placed.entry.node, placed.row⟩

theorem document_stored {forest : Forest Placed} (h : Document forest) :
    StoredForest (forest.map Placed.stored) ∧
      ∀ placed ∈ forest.roots, placed.row.id = placed.entry.id := by
  induction forest with
  | nil => exact ⟨trivial, List.forall_mem_nil _⟩
  | cons placed below rest ih ih' =>
      obtain ⟨hmaterializes, hbelow, hrest⟩ := h
      obtain ⟨hinner, hids⟩ := ih hbelow
      obtain ⟨houter, hothers⟩ := ih' hrest
      have hstored := materializes_stored hmaterializes
      obtain ⟨left, right, condition, extra, hlevel, hchildren⟩ := hmaterializes
      refine ⟨⟨⟨hstored, ?_⟩, hinner, houter⟩, List.forall_mem_cons.2 ⟨hlevel.id, hothers⟩⟩
      have hrows : below.roots.map (fun child => child.row.id) =
          (below.roots.map (·.entry)).map (·.id) := by
        rw [List.map_map]
        exact List.map_congr_left fun child hchild => hids child hchild
      rw [Forest.roots_map, List.map_map]
      show references placed.row = below.roots.map fun child => child.row.id
      rw [hrows, hchildren, references_eq_children hlevel]

theorem for_m_ok_of_forall {α : Type} {check : α → Except String Unit} {items : List α}
    (h : ∀ item ∈ items, check item = .ok ()) : items.forM check = .ok () := by
  induction items with
  | nil => rfl
  | cons item items ih =>
      have hitem := h item List.mem_cons_self
      have hrest := ih fun other hother => h other (List.mem_cons_of_mem _ hother)
      show (check item).bind _ = _
      rw [hitem]
      exact hrest

/-- The error of `df.start` when it draws no new id. -/
def idsExhausted (path : String) : String :=
  "Invalid durable function graph: " ++
    GraphError.display ⟨path, "exhausted 10 attempts to generate a graph-unique node ID"⟩

/-- Stored rows pass what the rows of their nodes pass. -/
theorem stored_rows_pass {sinkTable : String → Except String Bool} {forest : Forest StoredNode}
    (hstored : StoredForest forest)
    (hrows : (forest.map (·.node)).Grown fun node _ =>
      ∀ row, StoredAs node row → checkHttpNode sinkTable row = .ok ()) :
    (forest.preorder.map (·.row)).forM (checkHttpNode sinkTable) = .ok () := by
  rw [Forest.grown_map] at hrows
  refine for_m_ok_of_forall fun row hrow => ?_
  obtain ⟨stored, hmem, rfl⟩ := List.mem_map.1 hrow
  obtain ⟨-, hpasses⟩ := Forest.mem_preorder_cases hrows hmem
  obtain ⟨-, hasked, -⟩ := Forest.mem_preorder_cases hstored hmem
  exact hpasses _ hasked

/-- A tree within the limits is not flattened only when no new id is drawn. -/
theorem flatten_exhausts {γ : Type} {nextUuid : γ → Instances.Uuid × γ} {ids : GraphIds γ}
    {root : Durofut} {below : Forest Durofut} (htree : Tree root below)
    (hlimits : WithinLimits below) {error : GraphError}
    (h : flattenGraph (graphIdSource nextUuid) root ids = some (.error error)) :
    error.message = "exhausted 10 attempts to generate a graph-unique node ID" := by
  obtain ⟨countedId, counted, hcounted⟩ := tree_flattens htree hlimits 0
  -- The counter has ids for the tree, so only the source can have failed.
  rcases flatten_agrees counter_ids_endless root _ 0 h with
    ⟨ids, error, herror, hids⟩ | ⟨result, hresult, hagrees⟩
  · cases herror
    exact draw_id_error hids
  · rw [hcounted] at hresult
    cases hresult
    rcases hagrees with ⟨ids, hids⟩ | hnone
    · exact draw_id_error hids
    · cases hnone

/-- What `df.start` makes of a tree of valid nodes: its rows, unless it exceeds the limits or no new
id is drawn. -/
theorem tree_prepared {γ : Type} {marker : Option String} {nextUuid : γ → Instances.Uuid × γ}
    {sinkTable : String → Except String Bool} {step : String} {generator : γ} {root : Durofut}
    {below : Forest Durofut} (hroot : ensureStrict marker step = .ok root) (htree : Tree root below)
    (hrows : (Forest.cons root below .nil).Grown fun node _ =>
      ∀ row, StoredAs node row → checkHttpNode sinkTable row = .ok ()) :
    ∃ result, prepareGraph marker nextUuid sinkTable step generator = some result ∧
      ((∃ path, result = .error (idsExhausted path)) ∨
        (¬ WithinLimits below ∧ ∃ message, result = .error message) ∨
        (WithinLimits below ∧ ∃ (rootId : String) (stored : Forest StoredNode),
          result = .ok (rootId, stored.preorder.map (·.row)) ∧
          stored.roots.map (·.row.id) = [rootId] ∧
          stored.map (·.node) = .cons root below .nil ∧ StoredForest stored)) := by
  obtain ⟨flattened, hflattened⟩ :=
    flatten_graph_returns (graphIdSource nextUuid) root ⟨generator, []⟩
  unfold prepareGraph
  rw [hroot]
  dsimp only
  rw [hflattened]
  refine ⟨_, rfl, ?_⟩
  cases flattened with
  | ok found =>
      obtain ⟨rootId, rows⟩ := found
      obtain ⟨placed, forest, hplaced, hdocument, rfl, hfound, hlimits⟩ := flattened_tree hflattened
      -- A node has one forest below it, so what was flattened is the given one.
      have hsame : forest.map (·.entry.node) = below :=
        (Forest.cons.inj (forest_unique hfound htree rfl)).2.1
      rw [hsame] at hlimits
      obtain ⟨hstored, hids⟩ := document_stored hdocument
      have hnodes : ((Forest.cons placed forest .nil).map Placed.stored).map (·.node) =
          .cons root below .nil := by
        have hroot : placed.entry.node = root := by rw [hplaced]
        rw [Forest.map_map, ← hroot, ← hsame]
        rfl
      have hchecked : ((Forest.cons placed forest .nil).map Placed.stored).preorder.map (·.row) =
          placed.row :: forest.preorder.map (·.row) := by
        rw [Forest.preorder_map, List.map_map, Forest.preorder, Forest.preorder, List.append_nil,
          List.map_cons]
        rfl
      have hpass : (placed.row :: forest.preorder.map (·.row)).forM (checkHttpNode sinkTable) =
          .ok () := by
        rw [← hchecked]
        exact stored_rows_pass hstored (hnodes.symm ▸ hrows)
      refine .inr (.inr ⟨hlimits, rootId, _, ?_, ?_, hnodes, hstored⟩)
      · dsimp only
        rw [hpass, hchecked]
        rfl
      · have hroot : placed.row.id = placed.entry.id := hids placed List.mem_cons_self
        rw [hplaced] at hroot
        exact congrArg (fun id => [id]) hroot
  | error error =>
      obtain ⟨path, message⟩ := error
      by_cases hlimits : WithinLimits below
      · have hmessage : message = _ := flatten_exhausts htree hlimits hflattened
        exact .inl ⟨path, by rw [hmessage]; rfl⟩
      · exact .inr (.inl ⟨hlimits, _, rfl⟩)

/-- `df.start` stores a workflow as it was written: a row for every call, which refers to the rows of
its steps in the order of the fields that hold them, and which `df.nodes` takes. It fails exactly
when the workflow has more than 10,000 nodes or one with more than 256 above it, or when no new id
is drawn. -/
theorem started_workflow_stored {γ : Type} {marker : Option String}
    {checkCron : String → Except String Unit} {security : HttpSecurity}
    (nextUuid : γ → Instances.Uuid × γ) (sinkTable : String → Except String Bool) (generator : γ)
    (w : Workflow) {text : String} (hbuild : w.build marker checkCron security = .ok text)
    (hmarker : nonFutureHelperName marker text = none) :
    ∃ result, prepareGraph marker nextUuid sinkTable text generator = some result ∧
      ((∃ path, result = .error (idsExhausted path)) ∨
        (¬ WithinLimits w.steps ∧ ∃ message, result = .error message) ∨
        (WithinLimits w.steps ∧ ∃ (rootId : String) (stored : Forest StoredNode),
          result = .ok (rootId, stored.preorder.map (·.row)) ∧
          stored.roots.map (·.row.id) = [rootId] ∧
          stored.map (·.node) = .cons w.node w.steps .nil ∧ StoredForest stored ∧
          ∀ node ∈ stored.preorder, Acceptable node.row)) := by
  have hrows := workflow_acceptable hbuild
  have hchecks : (Forest.cons w.node w.steps .nil).Grown fun node _ =>
      ∀ row, StoredAs node row → checkHttpNode sinkTable row = .ok () :=
    Forest.Grown.imp hrows fun node _ _ hacceptable row hrow => (hacceptable row hrow).http sinkTable
  obtain ⟨result, hresult, hcases⟩ := @tree_prepared γ marker nextUuid sinkTable text generator _ _
    (build_denotes hbuild marker hmarker).2 (workflow_tree w) hchecks
  refine ⟨result, hresult, hcases.imp_right (Or.imp_right ?_)⟩
  rintro ⟨hlimits, rootId, stored, hok, hroot, hnodes, hstored⟩
  refine ⟨hlimits, rootId, stored, hok, hroot, hnodes, hstored, fun node hnode => ?_⟩
  rw [← hnodes, Forest.grown_map] at hrows
  obtain ⟨-, hacceptable⟩ := Forest.mem_preorder_cases hrows hnode
  obtain ⟨-, hasked, -⟩ := Forest.mem_preorder_cases hstored hnode
  exact hacceptable _ hasked

/-- `SELECT 1` -/
def selectOne : SqlText :=
  ⟨"SELECT 1", ⟨"invalid JSON text", by rfl⟩, by decide +kernel⟩

/-- A step with a named result, then the end of the workflow. -/
def namedWorkflow : Workflow :=
  .thenFn (.asNamed (.text selectOne) "r") (.leaf (.breakFn (some "done")))

def namedText : Except String String := namedWorkflow.build none (fun _ => .ok ()) .restricted

theorem named_prepared : (namedText.toOption.bind prepareInOrder).any Except.isOk = true := by
  decide +kernel

theorem named_workflow_stored : ∃ (rootId : String) (stored : Forest StoredNode),
    namedText.toOption.bind prepareInOrder = some (.ok (rootId, stored.preorder.map (·.row))) ∧
      stored.map (·.node) = .cons namedWorkflow.node namedWorkflow.steps .nil ∧
      StoredForest stored := by
  have hstarted := named_prepared
  cases hbuild : namedText with
  | error message =>
      rw [hbuild] at hstarted
      cases hstarted
  | ok text =>
      rw [hbuild] at hstarted
      have hmarker : nonFutureHelperName none text = none := ite_self none
      obtain ⟨result, hresult, hcases⟩ := started_workflow_stored
        (fun n : Nat => (BitVec.ofNat 128 n, n + 1)) (fun _ => .ok true) 1 namedWorkflow hbuild
        hmarker
      change prepareInOrder text = some result at hresult
      rw [Except.toOption, Option.bind_some, hresult] at hstarted ⊢
      rcases hcases with ⟨path, rfl⟩ | ⟨-, message, rfl⟩ |
        ⟨-, rootId, stored, rfl, -, hnodes, hstored, -⟩
      · cases hstarted
      · cases hstarted
      · exact ⟨rootId, stored, rfl, hnodes, hstored⟩

end PgDurable.Dsl
