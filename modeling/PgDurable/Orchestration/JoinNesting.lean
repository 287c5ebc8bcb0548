import Mathlib.Data.ENat.Basic
import PgDurable.Activities.ExecuteSql
import PgDurable.Library.Json.Reading
import PgDurable.Orchestration.Bindings
import PgDurable.Orchestration.JoinErrors

/-!
# How deep joined results nest

A join reads the results of its branches back, and the reader gives up on texts that nest 128
levels. Every result of a node is JSON for some value: `engine_nests` carries, over nodes, children
and generations, that this value nests no deeper than the deepest leaf result and one level for
every join on the way. `join_accepts_iff` says that a join accepts its branches exactly when each of
their results nests less than 128 levels.
-/

namespace PgDurable.Orchestration

open Json

/-! ## Result texts -/

/-- The value that the result of a sleep is JSON for. -/
def sleptValue (seconds : Nat) : Value :=
  .object [("slept", .bool true), ("seconds", .number (Number.ofNat seconds))]

/-- The text of a sleep, with its members apart. -/
theorem sleep_result_text (seconds : Nat) :
    (sleepResult seconds).toList =
      '\x7b' :: (printString "slept" ++ ':' :: ' ' :: 't' :: 'r' :: 'u' :: 'e' :: ',' :: ' ' ::
        (printString "seconds" ++ ':' :: ' ' ::
          (printNumber (Number.ofNat seconds) ++ ['\x7d']))) := by
  have hsplit : (sleepResult seconds).toList = "\x7b\"slept\": true, \"seconds\": ".toList ++
      (toString seconds).toList ++ "\x7d".toList :=
    String.toList_append.trans (congrArg (· ++ "\x7d".toList) String.toList_append)
  have hstart : "\x7b\"slept\": true, \"seconds\": ".toList =
      '\x7b' :: (printString "slept" ++ ':' :: ' ' :: 't' :: 'r' :: 'u' :: 'e' :: ',' :: ' ' ::
        (printString "seconds" ++ [':', ' '])) := by decide
  have hend : "\x7d".toList = ['\x7d'] := by decide
  have hdigits : (toString seconds).toList = printNumber (Number.ofNat seconds) := by
    show (Nat.repr seconds).toList = _
    simp [Nat.toList_repr, printNumber, Number.ofNat]
  rw [hsplit, hdigits, hstart, hend]
  simp only [List.cons_append, List.append_assoc, List.nil_append]

/-- The result of a sleep is JSON. -/
theorem parse_sleep_result (seconds : Nat) :
    parse (sleepResult seconds) = some (sleptValue seconds) := by
  have hslept : ∀ fuel rest, parseMember (fuel + 2) 127 (printString "slept" ++
      ':' :: ' ' :: 't' :: 'r' :: 'u' :: 'e' :: rest) = some (("slept", .bool true), rest) := by
    intro fuel rest
    refine parse_member_print ?_
    rw [parse_value_blank, parseValue]
    rfl
  have hseconds : ∀ fuel, parseMember (fuel + 2) 127 (' ' :: (printString "seconds" ++
      ':' :: ' ' :: (printNumber (Number.ofNat seconds) ++ ['\x7d']))) =
      some (("seconds", .number (Number.ofNat seconds)), ['\x7d']) := by
    intro fuel
    rw [parse_member_blank]
    refine parse_member_print ?_
    rw [parse_value_blank]
    exact parse_value_number _ _ _ (stops_cons (by decide))
  have hmembers : ∀ fuel, parseMembers (fuel + 3) 127 [("slept", .bool true)]
      (',' :: ' ' :: (printString "seconds" ++
        ':' :: ' ' :: (printNumber (Number.ofNat seconds) ++ ['\x7d']))) =
      some ([("slept", .bool true), ("seconds", .number (Number.ofNat seconds))], []) := by
    intro fuel
    rw [parseMembers, skip_space_cons (by decide)]
    simp only [hseconds, Option.bind_eq_bind, Option.bind_some]
    rw [parseMembers, skip_space_cons (by decide)]
    rfl
  have hvalue : ∀ fuel, parseValue (fuel + 4) recursionLimit (sleepResult seconds).toList =
      some (sleptValue seconds, []) := by
    intro fuel
    have hfirst := hslept (fuel + 1) (',' :: ' ' :: (printString "seconds" ++
      ':' :: ' ' :: (printNumber (Number.ofNat seconds) ++ ['\x7d'])))
    rw [print_string_append] at hfirst
    rw [sleep_result_text, parseValue, skip_space_cons (by decide)]
    simp only [if_neg (show ¬ recursionLimit ≤ 1 by decide)]
    rw [print_string_append, skip_space_cons (by decide)]
    exact Option.bind_eq_some_iff.2 ⟨_, hfirst, Option.bind_eq_some_iff.2 ⟨_, hmembers fuel, rfl⟩⟩
  obtain ⟨fuel, hfuel⟩ : ∃ fuel, 2 * (sleepResult seconds).toList.length + 2 = fuel + 4 :=
    ⟨2 * (sleepResult seconds).toList.length - 2, by
      have hlength := congrArg List.length (sleep_result_text seconds)
      rw [List.length_cons] at hlength
      omega⟩
  rw [parse, hfuel, hvalue]
  rfl

/-- The texts that nodes return as results, with the values that they are JSON for. -/
inductive ResultText : String → Value → Prop
  | written {value : Value} (hwf : value.WellFormed) : ResultText (print value) value
  | slept (seconds : Nat) : ResultText (sleepResult seconds) (sleptValue seconds)
  | scheduled : ResultText scheduledResult (.object [("scheduled", .bool true)])

/-- A value whose text was read without loss nests less than the limit. -/
theorem from_str_own_iff {text : String} {value read : Value} (h : parse text = some value) :
    fromStr text = .ok read ↔ read = value ∧ value.depth < recursionLimit := by
  have hdepth := (parse_well_formed h).2
  rw [fromStr, h]
  constructor
  · rintro ⟨⟩
    exact ⟨rfl, hdepth⟩
  · rintro ⟨rfl, -⟩
    rfl

/-- A result text is read as its value, and only when that nests less than the limit. -/
theorem ResultText.from_str_iff {text : String} {value read : Value} (h : ResultText text value) :
    fromStr text = .ok read ↔ read = value ∧ value.depth < recursionLimit := by
  cases h with
  | written hwf => exact from_str_print_iff hwf
  | slept seconds => exact from_str_own_iff (parse_sleep_result seconds)
  | scheduled => exact from_str_own_iff (by decide +kernel)

theorem ResultText.well_formed {text : String} {value : Value} (h : ResultText text value) :
    value.WellFormed := by
  cases h with
  | written hwf => exact hwf
  | slept seconds => exact (parse_well_formed (parse_sleep_result seconds)).1
  | scheduled => exact ⟨by decide, trivial, trivial⟩

/-- A result text for a value that nests within a bound. -/
def NestsWithin (bound : ℕ∞) (text : String) : Prop :=
  ∃ value, ResultText text value ∧ (value.depth : ℕ∞) ≤ bound

theorem NestsWithin.mono {bound larger : ℕ∞} {text : String} (h : NestsWithin bound text)
    (hle : bound ≤ larger) : NestsWithin larger text := by
  obtain ⟨value, htext, hdepth⟩ := h
  exact ⟨value, htext, hdepth.trans hle⟩

/-- The array of values nests one level deeper than they do. -/
theorem array_depth_le {bound : ℕ∞} {values : List Value}
    (h : ∀ value ∈ values, (value.depth : ℕ∞) + 1 ≤ bound) (hbound : 1 ≤ bound) :
    ((Value.array values).depth : ℕ∞) ≤ bound := by
  induction values with
  | nil => simpa [Value.depth, Value.depthItems] using hbound
  | cons value values ih =>
      have hrest := ih fun other hother => h other (List.mem_cons_of_mem _ hother)
      have hfirst := h value List.mem_cons_self
      simp only [Value.depth, Value.depthItems] at hrest ⊢
      rcases le_total value.depth (Value.depthItems values) with hle | hle
      · rwa [max_eq_right hle]
      · rw [max_eq_left hle]
        exact_mod_cast hfirst

/-! ## Bounds -/

/-- What the leaves of a graph return: activities return texts of JSON values, and no leaf result
nests deeper than the limit. There is always the limit `⊤`. -/
structure LeafResults (world : World) (graph : FunctionGraph) (limit : ℕ∞) : Prop where
  activity : ∀ {path name input attempt text},
    name ∈ [executeSqlName, executeHttpName, executeMultipartName] →
    world.activity path name input attempt = .ok text →
    ∃ value, text = print value ∧ value.WellFormed ∧ (value.depth : ℕ∞) ≤ limit
  signal : ∀ {path name data value}, world.signal path name = some data →
    parse data = some value → (value.depth : ℕ∞) + 1 ≤ limit
  broke : ∀ {id : String} {node : FunctionNode} {value : Value}, graph.nodes[id]? = some node →
    nodeKind node.nodeType = some .breakNode → ResultText (breakValue node.query) value →
    (value.depth : ℕ∞) ≤ limit
  constant : 1 ≤ limit

/-- A bound on the joins along the paths below each node, itself included. -/
def JoinRank (graph : FunctionGraph) (rank : String → ℕ∞) : Prop :=
  ∀ {id : String} {node : FunctionNode} {child : String}, graph.nodes[id]? = some node →
    child ∈ childIds node →
    rank child + (if nodeKind node.nodeType = some .join then 1 else 0) ≤ rank id

/-- Every graph has the rank `⊤`. -/
theorem join_rank_top (graph : FunctionGraph) : JoinRank graph fun _ => ⊤ :=
  fun _ _ => le_top

/-- The values with which a node returns or breaks nest within the bound. -/
def EndsWithin (bound : ℕ∞) (outcome : Except Stop String) : Prop :=
  ∀ value, outcome = .ok value ∨ outcome = .error (.raised (.breakWith value)) →
    NestsWithin bound value

theorem EndsWithin.mono {bound larger : ℕ∞} {outcome : Except Stop String}
    (h : EndsWithin bound outcome) (hle : bound ≤ larger) : EndsWithin larger outcome :=
  fun value hvalue => (h value hvalue).mono hle

theorem ends_within_failure (bound : ℕ∞) (message : String) :
    EndsWithin bound (.error (.raised (.failure message))) := by
  intro value h
  rcases h with h | h <;> cases h

theorem ends_within_application (bound : ℕ∞) (message : String) :
    EndsWithin bound (.error (.raised (.application message))) := by
  intro value h
  rcases h with h | h <;> cases h

theorem ends_within_unresolved (bound : ℕ∞) : EndsWithin bound (.error .unresolved) := by
  intro value h
  rcases h with h | h <;> cases h

theorem ends_within_ok {bound : ℕ∞} {value : String} (h : NestsWithin bound value) :
    EndsWithin bound (.ok value) := by
  intro other hother
  rcases hother with hother | hother <;> cases hother
  exact h

theorem ends_within_break {bound : ℕ∞} {value : String} (h : NestsWithin bound value) :
    EndsWithin bound (.error (.raised (.breakWith value))) := by
  intro other hother
  rcases hother with hother | hother <;> cases hother
  exact h

/-- Whatever the machine, the program ends within the bound. -/
def Nests (bound : ℕ∞) (program : Orch String) : Prop :=
  Does (fun _ outcome _ => EndsWithin bound outcome) program

section Rules

variable {α : Type} {bound : ℕ∞}

theorem nests_missing {value : Option α} {message : String} {next : α → Orch String}
    (hnext : ∀ found, value = some found → Nests bound (next found)) :
    Nests bound (orMissing value message >>= next) :=
  does_missing (fun _ => ends_within_failure bound message) hnext

theorem nests_or_fail {outcome : Except String α} {next : α → Orch String}
    (hnext : ∀ value, outcome = .ok value → Nests bound (next value)) :
    Nests bound (orFail outcome >>= next) :=
  does_or_fail (fun message _ _ => ends_within_failure bound message) hnext

theorem nests_read {next : StringMap → Orch String}
    (hnext : ∀ results, Nests bound (next results)) : Nests bound (readResults >>= next) :=
  does_read fun machine => hnext machine.results machine

end Rules

/-! ## Leaves -/

section Leaves

variable {ctx : OrchestrationContext} {graph : FunctionGraph} {limit : ℕ∞}
  (hleaves : LeafResults ctx.world graph limit) (node : FunctionNode) (nodeId : String)
  (execCtx : ExecutionContext) (sysVars : SystemVars)

include hleaves

/-- Activities return what the environment answers. -/
theorem activity_nests {name : String}
    (hname : name ∈ [executeSqlName, executeHttpName, executeMultipartName]) (input : String) :
    Nests limit (do
      let result ← runActivity ctx name input
      storeNamedResult node result
      pure result) := by
  intro machine
  have hrun := run_activity_apply ctx name input machine
  cases houtcome : ctx.world.activity ctx.path name input 0 with
  | error message =>
      rw [houtcome] at hrun
      rw [Program.bind_error hrun]
      exact ends_within_application limit message
  | ok result =>
      rw [houtcome] at hrun
      rw [Program.bind_ok hrun, Program.bind_ok (store_named_result_apply node result _)]
      obtain ⟨value, rfl, hwf, hdepth⟩ := hleaves.activity hname houtcome
      exact ends_within_ok ⟨value, .written hwf, hdepth⟩

theorem sql_nests (version : SqlQuotingVersion) :
    Nests limit (executeSqlNode ctx node nodeId execCtx sysVars version) :=
  nests_missing fun query _ => nests_read fun results => nests_or_fail fun finalQuery _ =>
    activity_nests hleaves node (by simp) _

theorem send_request_nests {name : String}
    (hname : name ∈ [executeSqlName, executeHttpName, executeMultipartName]) (config : Value) :
    Nests limit (sendRequest ctx node name config) := by
  intro machine
  unfold sendRequest
  cases checkHttpRequestSize config false with
  | error message => exact ends_within_application limit message
  | ok _ =>
      cases setExecutionContext config node.submittedBy node.database with
      | none => exact ends_within_unresolved limit
      | some config => exact activity_nests hleaves node hname _ machine

theorem http_nests : Nests limit (executeHttpNode ctx node nodeId execCtx sysVars) :=
  nests_missing fun configText _ => nests_or_fail fun config _ => nests_read fun results =>
    nests_or_fail fun config _ => nests_or_fail fun config _ => nests_or_fail fun config _ =>
      send_request_nests hleaves node (by simp) config

theorem http_multipart_nests :
    Nests limit (executeHttpMultipartNode ctx node nodeId execCtx sysVars) :=
  nests_missing fun configText _ => nests_or_fail fun config _ => nests_read fun results =>
    nests_or_fail fun config _ => nests_or_fail fun config _ => nests_or_fail fun config _ =>
      send_request_nests hleaves node (by simp) config

theorem sleep_nests : Nests limit (executeSleepNode ctx node nodeId) :=
  nests_missing fun _ _ => nests_missing fun seconds _ _ =>
    ends_within_ok ⟨_, .slept seconds, hleaves.constant⟩

theorem wait_schedule_nests : Nests limit (executeWaitScheduleNode ctx node nodeId) :=
  nests_missing fun _ _ => nests_or_fail fun _ _ => nests_missing fun _ _ =>
    nests_or_fail fun _ _ => nests_or_fail fun _ _ => nests_missing fun _ _ _ =>
      ends_within_ok ⟨_, .scheduled, hleaves.constant⟩

/-- A signal result is the data below one object. -/
theorem signal_result_nests (signalName : String) {data : Option String}
    (hdata : ∀ text, data = some text → ctx.world.signal ctx.path signalName = some text) :
    NestsWithin limit (signalResult signalName data) := by
  have hone : ∀ value : Value, value.WellFormed → (value.depth : ℕ∞) + 1 ≤ limit →
      NestsWithin limit (print (.object [("signal_name", .string signalName),
        ("timed_out", .bool data.isNone), ("data", value)])) := by
    intro value hwf hdepth
    refine ⟨_, .written ⟨?_, trivial, trivial, hwf, trivial⟩, ?_⟩
    · show ["signal_name", "timed_out", "data"].Nodup
      decide
    · simpa [Value.depth, Value.depthMembers] using hdepth
  have hconstant : ((0 : Nat) : ℕ∞) + 1 ≤ limit := by simpa using hleaves.constant
  cases data with
  | none => exact hone .null trivial hconstant
  | some text =>
      cases hparse : parse text with
      | none =>
          have htext := hone (.string text) trivial hconstant
          rw [signalResult, Option.map_some, hparse]
          exact htext
      | some value =>
          have hvalue := hone value (parse_well_formed hparse).1
            (hleaves.signal (hdata text rfl) hparse)
          rw [signalResult, Option.map_some, hparse]
          exact hvalue

theorem signal_nests : Nests limit (executeSignalNode ctx node nodeId) := by
  refine nests_missing fun configText _ => nests_or_fail fun config _ =>
    nests_missing fun signalName _ machine => ?_
  have hresult : ∀ data, ctx.world.signal ctx.path signalName = data →
      EndsWithin limit (.ok (signalResult signalName data)) := by
    rintro data rfl
    exact ends_within_ok (signal_result_nests hleaves signalName fun _ h => h)
  generalize hdata : ctx.world.signal ctx.path signalName = data
  cases (config.index "timeout_seconds").asI64 with
  | some timeout =>
      simp only [Program.bind_apply, schedule_timer_apply, store_named_result_apply,
        Program.pure_apply]
      exact hresult data hdata
  | none =>
      cases data with
      | none => exact ends_within_unresolved limit
      | some data =>
          simp only [Program.bind_apply, store_named_result_apply, Program.pure_apply]
          exact hresult _ hdata

/-- A break raises JSON. -/
theorem break_nests {id : String} (hnode : graph.nodes[id]? = some node)
    (hkind : nodeKind node.nodeType = some .breakNode) :
    Nests limit (executeBreakNode ctx node) := by
  have htext : ∃ value, ResultText (breakValue node.query) value := by
    unfold breakValue
    split
    · next text _ =>
        cases hparse : parse text with
        | none => exact ⟨_, .written (show (Value.string text).WellFormed from trivial)⟩
        | some value => exact ⟨value, .written (parse_well_formed hparse).1⟩
    · exact ⟨.null, .written (show Value.null.WellFormed from trivial)⟩
  obtain ⟨value, hvalue⟩ := htext
  intro machine
  exact ends_within_break ⟨value, hvalue, hleaves.broke hnode hkind hvalue⟩

end Leaves

/-! ## Compound nodes -/

/-- The interpreter keeps to the bounds: node executions and the envelopes of children. -/
structure EngineNests (graph : FunctionGraph) (limit : ℕ∞) (rank : String → ℕ∞)
    (engine : Engine) : Prop where
  node : ∀ {ctx : OrchestrationContext}, LeafResults ctx.world graph limit →
    ∀ nodeId execCtx, Nests (limit + rank nodeId) (engine.node ctx graph nodeId execCtx)
  reply : ∀ {ctx : OrchestrationContext} {nodeId results execCtx iteration control value map},
    LeafResults ctx.world graph limit → iteration < 2 ^ 64 →
    (engine.subtree ctx (subtreeText graph nodeId results execCtx iteration)).2 =
      some (ChildReply.envelope control value map).text →
    NestsWithin (limit + rank nodeId) value

/-- A branch contributes a value when it returns a text that is read as it. -/
theorem join_contribution_ok_iff {graph : FunctionGraph} {index : Nat} {branchId : String}
    {reply : ChildReply} {value : Value} :
    joinContribution graph index branchId reply = .ok value ↔
      ∃ text map, reply = .envelope .normal text map ∧ fromStr text = .ok value := by
  rcases reply with ⟨_ | _, text, map⟩ | text
  · simp only [joinContribution, ChildReply.envelope.injEq, true_and, exists_and_right]
    cases hread : fromStr text with
    | ok read =>
        constructor
        · rintro ⟨⟩
          exact ⟨text, ⟨map, rfl, rfl⟩, hread⟩
        · rintro ⟨_, ⟨_, rfl, _⟩, h⟩
          rw [hread] at h
          cases h
          rfl
    | error e =>
        constructor
        · intro h
          cases h
        · rintro ⟨_, ⟨_, rfl, _⟩, h⟩
          rw [hread] at h
          cases h
  · constructor
    · intro h
      cases h
    · rintro ⟨_, _, h, _⟩
      cases h
  · constructor
    · intro h
      cases h
    · rintro ⟨_, _, h, _⟩
      cases h

/-- A join has values exactly when all branches return texts that are read as them. -/
theorem join_replies_ok_iff {graph : FunctionGraph} {isolated : Bool}
    (replies : List (String × ChildReply)) (index : Nat) (joined : List Value)
    (selected : Option JoinError) (results : StringMap) {values : List Value} :
    (joinReplies graph isolated index replies joined selected results).1 = .ok values ↔
      selected = none ∧ ∃ read, values = joined ++ read ∧
        List.Forall₂ (fun entry value => ∃ text map,
          entry.2 = .envelope .normal text map ∧ fromStr text = .ok value) replies read := by
  induction replies generalizing index joined selected results with
  | nil =>
      cases selected with
      | none =>
          simp only [joinReplies, Except.ok.injEq, true_and, List.forall₂_nil_left_iff,
            exists_eq_right, List.append_nil]
          exact eq_comm
      | some error =>
          constructor
          · intro h
            cases h
          · rintro ⟨h, -⟩
            cases h
  | cons entry replies ih =>
      obtain ⟨branchId, reply⟩ := entry
      unfold joinReplies
      cases hcontribution : joinContribution graph index branchId reply with
      | ok first =>
          dsimp only
          rw [ih, and_congr_right_iff]
          intro _
          have hfirst := join_contribution_ok_iff.1 hcontribution
          constructor
          · rintro ⟨read, rfl, hread⟩
            exact ⟨first :: read, by simp, .cons hfirst hread⟩
          · rintro ⟨_, rfl, hread⟩
            cases hread with
            | cons hhead htail =>
                have hsame := hcontribution.symm.trans (join_contribution_ok_iff.2 hhead)
                cases hsame
                exact ⟨_, by simp, htail⟩
      | error error =>
          have hnone : ¬ ∃ read, values = joined ++ read ∧
              List.Forall₂ (fun entry value => ∃ text map,
                entry.2 = .envelope .normal text map ∧ fromStr text = .ok value)
                ((branchId, reply) :: replies) read := by
            rintro ⟨_, -, hread⟩
            cases hread with
            | cons hhead _ =>
                have hsame := hcontribution.symm.trans (join_contribution_ok_iff.2 hhead)
                cases hsame
          refine iff_of_false ?_ fun h => hnone h.2
          dsimp only
          split_ifs
          · rw [ih]
            rintro ⟨hselected, -⟩
            unfold retainHigherPriorityJoinError at hselected
            cases selected with
            | none => cases hselected
            | some current =>
                dsimp only at hselected
                split_ifs at hselected
          · intro h
            cases h

/-- A join raises an error that a branch contributes. -/
theorem join_replies_raises {graph : FunctionGraph} {isolated : Bool} {P : JoinError → Prop}
    (replies : List (String × ChildReply))
    (herror : ∀ entry ∈ replies, ∀ index error,
      joinContribution graph index entry.1 entry.2 = .error error → P error)
    (index : Nat) (joined : List Value) {selected : Option JoinError} (results : StringMap)
    (hselected : ∀ error, selected = some error → P error) {error : JoinError}
    (h : (joinReplies graph isolated index replies joined selected results).1 = .error error) :
    P error := by
  induction replies generalizing index joined selected results with
  | nil =>
      cases selected with
      | none => cases h
      | some _ =>
          cases h
          exact hselected error rfl
  | cons entry replies ih =>
      obtain ⟨branchId, reply⟩ := entry
      have hrest := ih fun other hother => herror other (List.mem_cons_of_mem _ hother)
      unfold joinReplies at h
      cases hcontribution : joinContribution graph index branchId reply with
      | ok parsed =>
          rw [hcontribution] at h
          exact hrest _ _ _ hselected h
      | error first =>
          have hfirst := herror _ List.mem_cons_self _ _ hcontribution
          rw [hcontribution] at h
          dsimp only at h
          split_ifs at h
          · refine hrest _ _ _ (fun retained hretained => ?_) h
            unfold retainHigherPriorityJoinError at hretained
            cases selected with
            | none =>
                cases hretained
                exact hfirst
            | some current =>
                dsimp only at hretained
                split_ifs at hretained
                · cases hretained
                  exact hfirst
                · exact hselected retained hretained
          · cases h
            exact hfirst

/-- The context that a failure gets does not make it a break. -/
theorem contextualize_ends_within (bound : ℕ∞) (context text : String) :
    EndsWithin bound (.error (.raised (contextualizeSubtreeFailure context text))) := by
  intro value h
  rcases h with h | h
  · cases h
  · exact absurd (Stop.raised.inj (Except.error.inj h)) (contextualized_ne_break context text value)

section Compound

variable {engine : Engine} {ctx : OrchestrationContext} {graph : FunctionGraph} {limit : ℕ∞}
  {rank : String → ℕ∞} (hengine : EngineNests graph limit rank engine)
  (hleaves : LeafResults ctx.world graph limit) (hrank : JoinRank graph rank)
  {node : FunctionNode} {nodeId : String} {execCtx : ExecutionContext}
  (hnode : graph.nodes[nodeId]? = some node)

include hrank hnode

/-- The bound of a child is no greater. -/
theorem child_bound {childId : String} (hchild : childId ∈ childIds node) :
    limit + rank childId ≤ limit + rank nodeId :=
  add_le_add_right (le_self_add.trans (hrank hnode hchild)) limit

/-- The bound of a branch of a join is smaller. -/
theorem branch_bound (hkind : nodeKind node.nodeType = some .join) {branchId : String}
    (hbranch : branchId ∈ childIds node) : limit + rank branchId + 1 ≤ limit + rank nodeId := by
  have hstep := hrank hnode hbranch
  rw [if_pos hkind] at hstep
  rw [add_assoc]
  exact add_le_add_right hstep limit

omit hrank hnode
include hengine hleaves

/-- A child replies within the bound of its root node. -/
theorem child_reply_nests {childId : String} {path : Path} {results : StringMap}
    {reply : ChildReply}
    (h : (runChild engine (childContext ctx childId path)
      (buildSubtreeInput graph childId results execCtx)).2 = some reply.text)
    {control : SubtreeControl} {value : String} {map : StringMap}
    (hreply : reply = .envelope control value map) : NestsWithin (limit + rank childId) value := by
  subst hreply
  unfold runChild at h
  cases hfault : (childContext ctx childId path).world.runtimeFault
      (childContext ctx childId path).path (childContext ctx childId path).instanceId with
  | none =>
      rw [hfault] at h
      exact @hengine.reply (childContext ctx childId path) _ _ _ _ _ _ _ hleaves (by decide) h
  | some error =>
      rw [hfault] at h
      cases h

/-- A parent takes the reply of a child for an outcome within the bound. -/
theorem reply_outcome_nests {childId : String} {path : Path} {results : StringMap}
    {reply : ChildReply}
    (h : (runChild engine (childContext ctx childId path)
      (buildSubtreeInput graph childId results execCtx)).2 = some reply.text)
    (context : String) : EndsWithin (limit + rank childId) (reply.outcome context) := by
  have hvalue := fun {control value map} =>
    @child_reply_nests engine ctx graph limit rank hengine hleaves execCtx childId path
      results reply h control value map
  cases reply with
  | error text => exact contextualize_ends_within _ context text
  | envelope control value map =>
      cases control with
      | normal => exact ends_within_ok (hvalue rfl)
      | breakLoop => exact ends_within_break (hvalue rfl)

include hrank hnode

/-- Executing a child ends within the bound of its parent. -/
theorem child_nests {step : Step} {childId : String} (hchild : childId ∈ childIds node)
    {machine after : Machine} {outcome : Except Stop String}
    (hrun : engine.node (ctx.down step) graph childId execCtx machine = (outcome, after)) :
    EndsWithin (limit + rank nodeId) outcome := by
  have hends := @hengine.node (ctx.down step) hleaves childId execCtx machine
  rw [hrun] at hends
  exact hends.mono (child_bound hrank hnode hchild)

theorem sequence_nests {machine after : Machine} {outcome : Except Stop String}
    (hrun : SequenceRun engine ctx graph node execCtx machine outcome after) :
    EndsWithin (limit + rank nodeId) outcome := by
  cases hrun with
  | failed => exact ends_within_failure _ _
  | stopped _ hid hlast => exact child_nests hengine hleaves hrank hnode hid hlast
  | returned _ hid hlast => exact child_nests hengine hleaves hrank hnode hid hlast

omit hrank hnode in
/-- The branches of a join return within their bounds. -/
theorem branch_nests {results : StringMap} {replies : List (String × ChildReply)}
    (hreplies : JoinReplies engine ctx graph node execCtx results replies)
    {entry : String × ChildReply} (hentry : entry ∈ replies) {control : SubtreeControl}
    {value : String} {map : StringMap} (h : entry.2 = .envelope control value map) :
    NestsWithin (limit + rank entry.1) value := by
  obtain ⟨position, hposition⟩ := List.getElem?_of_mem hentry
  exact child_reply_nests hengine hleaves (hreplies.reply hposition) h

/-- A join raises breaks within its bound. -/
theorem join_raises_nests {results : StringMap} {replies : List (String × ChildReply)}
    (hreplies : JoinReplies engine ctx graph node execCtx results replies) {error : JoinError}
    (h : (joinReplies graph execCtx.failureIsolated 0 replies [] none results).1 = .error error) :
    EndsWithin (limit + rank nodeId) (.error (.raised error.error)) := by
  refine @join_replies_raises graph _ (fun error => EndsWithin _ (.error (.raised error.error)))
    replies (fun entry hentry index error herror => ?_) 0 [] none results
    (fun error herror => (by cases herror)) error h
  have hbranch := fun {control value map} => @branch_nests engine ctx graph limit rank hengine
    hleaves node execCtx results replies hreplies entry hentry control value map
  obtain ⟨branchId, reply⟩ := entry
  rcases reply with ⟨_ | _, text, map⟩ | text
  · simp only [joinContribution] at herror
    cases hread : fromStr text with
    | ok parsed =>
        rw [hread] at herror
        cases herror
    | error e =>
        rw [hread] at herror
        cases herror
        exact ends_within_failure _ _
  · cases herror
    exact ends_within_break ((hbranch rfl).mono (child_bound hrank hnode (hreplies.ids _ hentry)))
  · cases herror
    exact contextualize_ends_within _ _ _

/-- The values of a join nest one level below its bound. -/
theorem join_values_nest (hkind : nodeKind node.nodeType = some .join) {results : StringMap}
    {replies : List (String × ChildReply)}
    (hreplies : JoinReplies engine ctx graph node execCtx results replies) {values : List Value}
    (h : (joinReplies graph execCtx.failureIsolated 0 replies [] none results).1 = .ok values) :
    ∀ value ∈ values, value.WellFormed ∧ (value.depth : ℕ∞) + 1 ≤ limit + rank nodeId := by
  obtain ⟨-, read, rfl, hread⟩ := (join_replies_ok_iff replies 0 [] none results).1 h
  intro value hvalue
  obtain ⟨position, hposition, rfl⟩ := List.getElem_of_mem hvalue
  have hbranch : position < replies.length := hread.length_eq ▸ hposition
  have hentry := List.getElem_mem hbranch
  obtain ⟨text, map, henvelope, htext⟩ := hread.get hbranch hposition
  obtain ⟨own, hown, hdepth⟩ := branch_nests hengine hleaves hreplies hentry henvelope
  obtain ⟨rfl, -⟩ := hown.from_str_iff.1 htext
  refine ⟨hown.well_formed, (add_le_add_left hdepth 1).trans ?_⟩
  exact branch_bound hrank hnode hkind (hreplies.ids _ hentry)

theorem join_nests (hkind : nodeKind node.nodeType = some .join) {machine after : Machine}
    {outcome : Except Stop String}
    (hrun : JoinRun engine ctx graph node execCtx machine outcome after) :
    EndsWithin (limit + rank nodeId) outcome := by
  cases hrun with
  | failed => exact ends_within_failure _ _
  | stuck => exact ends_within_unresolved _
  | @returned replies values _ hreplies hjoin =>
      have hvalues := join_values_nest hengine hleaves hrank hnode hkind hreplies
        (congrArg Prod.fst hjoin)
      have hwf := array_well_formed fun value hmem => (hvalues value hmem).1
      refine ends_within_ok ⟨_, .written hwf, ?_⟩
      exact array_depth_le (fun value hmem => (hvalues value hmem).2)
        (hleaves.constant.trans le_self_add)
  | raised hreplies hjoin =>
      exact join_raises_nests hengine hleaves hrank hnode hreplies (congrArg Prod.fst hjoin)

theorem race_nests {machine after : Machine} {outcome : Except Stop String}
    (hrun : RaceRun engine ctx graph node execCtx machine outcome after) :
    EndsWithin (limit + rank nodeId) outcome := by
  cases hrun with
  | failed => exact ends_within_failure _ _
  | stuck => exact ends_within_unresolved _
  | @replied _ _ _ _ _ context _ _ reply _ _ hwinner _ _ _ _ hreply _ =>
      exact (reply_outcome_nests hengine hleaves hreply context).mono
        (child_bound hrank hnode hwinner)

omit hrank hnode in
/-- A loop that runs as a child returns what it replies. -/
theorem loop_child_nests {machine after : Machine} {outcome : Except Stop String}
    (hrun : LoopChildRun engine ctx graph nodeId execCtx machine outcome after) :
    EndsWithin (limit + rank nodeId) outcome := by
  cases hrun with
  | failed => exact ends_within_failure _ _
  | stuck => exact ends_within_unresolved _
  | replied _ _ hreply => exact reply_outcome_nests hengine hleaves hreply _

/-- What the result of a loop body is for the loop. -/
def BodyResult.outcome : BodyResult → Except Stop String
  | .finished value => .ok value
  | .consumed => .error .unresolved
  | .broke value => .error (.raised (.breakWith value))
  | .stopped stop => .error stop

theorem body_nests {config : LoopConfig} {bodyId : String} (hbody : bodyId ∈ childIds node)
    {machine after : Machine} {result : BodyResult}
    (hrun : BodyRun engine ctx graph execCtx config bodyId machine result after) :
    EndsWithin (limit + rank nodeId) result.outcome := by
  cases hrun with
  | @inline outcome _ _ hrun =>
      have hends := child_nests hengine hleaves hrank hnode hbody hrun
      rcases outcome with ((value | message | message) | input | _) | value <;> exact hends
  | stuck => exact ends_within_unresolved _
  | @isolated _ reply _ _ hreply =>
      have hends := (reply_outcome_nests hengine hleaves hreply "").mono
        (child_bound hrank hnode hbody)
      rcases reply with ⟨_ | _, value, map⟩ | text
      · exact hends
      · exact hends
      · simp only [isolatedBodyResult]
        cases decodeSubtreeApplicationFailure text with
        | some message => exact ends_within_unresolved _
        | none => exact ends_within_failure _ _

theorem iteration_nests {config : LoopConfig} {bodyId : String}
    (hids : ∀ id, id = bodyId ∨ config.conditionNode = some id → id ∈ childIds node)
    {machine after : Machine} {outcome : Except Stop (Option String)}
    (hrun : IterationRun engine ctx graph node execCtx config bodyId machine outcome after) :
    (∀ value, outcome = .ok (some value) → NestsWithin (limit + rank nodeId) value) ∧
      ∀ stop, outcome = .error stop → EndsWithin (limit + rank nodeId) (.error stop) := by
  have hbodyEnds := fun {machine after result} =>
    @body_nests engine ctx graph limit rank hengine hleaves hrank node nodeId execCtx hnode config
      bodyId (hids bodyId (Or.inl rfl)) machine after result
  cases hrun with
  | stopped hbody =>
      refine ⟨fun value h => (by cases h), ?_⟩
      rintro _ ⟨⟩
      exact hbodyEnds hbody
  | consumed | unconditional =>
      exact ⟨fun value h => (by cases h), fun stop h => (by cases h)⟩
  | broke hbody =>
      refine ⟨?_, fun stop h => (by cases h)⟩
      rintro value ⟨⟩
      exact hbodyEnds hbody _ (Or.inr rfl)
  | @conditional value conditionId outcome _ _ _ hbody hcondition hrun _ =>
      have hfinished := hbodyEnds hbody value (Or.inl rfl)
      have hends := child_nests hengine hleaves hrank hnode
        (hids conditionId (Or.inr hcondition)) hrun
      rcases outcome with ((broken | message | message) | input | _) | conditionResult
      · refine ⟨?_, fun stop h => (by cases h)⟩
        rintro final ⟨⟩
        exact hends broken (Or.inr rfl)
      · refine ⟨fun value h => (by cases h), ?_⟩
        rintro stop ⟨⟩
        exact ends_within_failure _ _
      · refine ⟨fun value h => (by cases h), ?_⟩
        rintro stop ⟨⟩
        exact hends
      · refine ⟨fun value h => (by cases h), ?_⟩
        rintro stop ⟨⟩
        exact hends
      · refine ⟨fun value h => (by cases h), ?_⟩
        rintro stop ⟨⟩
        exact hends
      · refine ⟨fun final h => ?_, fun stop h => (by cases h)⟩
        have hfinal := Except.ok.inj h
        split_ifs at hfinal
        cases hfinal
        exact hfinished

theorem loop_nests (hkind : nodeKind node.nodeType = some .loop) {machine after : Machine}
    {outcome : Except Stop String}
    (hrun : LoopRun engine ctx graph node nodeId execCtx machine outcome after) :
    EndsWithin (limit + rank nodeId) outcome := by
  cases hrun with
  | failed | exhausted => exact ends_within_failure _ _
  | stopped hbody hconfig hiteration =>
      have hids := loop_part_is_child hkind hbody hconfig
      exact (iteration_nests hengine hleaves hrank hnode hids hiteration).2 _ rfl
  | ended hbody hconfig hiteration =>
      have hids := loop_part_is_child hkind hbody hconfig
      exact ends_within_ok ((iteration_nests hengine hleaves hrank hnode hids hiteration).1 _ rfl)
  | continued =>
      intro value h
      rcases h with h | h <;> cases h

theorem inner_nests (htyped : engine.Typed) :
    Nests (limit + rank nodeId) (executeNodeInner engine ctx graph node nodeId execCtx) := by
  have hleaf : ∀ {outcome}, EndsWithin limit outcome → EndsWithin (limit + rank nodeId) outcome :=
    fun h => h.mono le_self_add
  intro machine
  unfold executeNodeInner
  cases hkind : nodeKind node.nodeType with
  | none => exact ends_within_failure _ _
  | some kind =>
      cases kind with
      | sql => exact hleaf (sql_nests hleaves node nodeId execCtx _ _ machine)
      | sleep => exact hleaf (sleep_nests hleaves node nodeId machine)
      | waitSchedule => exact hleaf (wait_schedule_nests hleaves node nodeId machine)
      | http => exact hleaf (http_nests hleaves node nodeId execCtx _ machine)
      | httpMultipart => exact hleaf (http_multipart_nests hleaves node nodeId execCtx _ machine)
      | signal => exact hleaf (signal_nests hleaves node nodeId machine)
      | breakNode => exact hleaf (break_nests hleaves node hnode hkind machine)
      | thenNode => exact sequence_nests hengine hleaves hrank hnode (then_runs hkind machine)
      | ifNode => exact sequence_nests hengine hleaves hrank hnode (if_runs hkind machine)
      | join => exact join_nests hengine hleaves hrank hnode hkind (join_runs htyped hkind machine)
      | race => exact race_nests hengine hleaves hrank hnode (race_runs htyped hkind machine)
      | loop => exact loop_nests hengine hleaves hrank hnode hkind (loop_runs htyped machine)

omit hnode in
theorem node_nests (htyped : engine.Typed) :
    Nests (limit + rank nodeId) (executeFunctionNodeWithVars engine ctx graph nodeId execCtx) := by
  intro machine
  cases hnode : graph.nodes[nodeId]? with
  | none =>
      unfold executeFunctionNodeWithVars
      rw [hnode]
      exact ends_within_failure _ _
  | some node =>
      by_cases hchild : nodeKind node.nodeType = some .loop ∧ nodeId ≠ execCtx.subtreeRoot
      · rw [loop_child_applies hnode hchild.1 hchild.2]
        exact loop_child_nests hengine hleaves (loop_child_runs htyped _)
      · have hroot : nodeKind node.nodeType = some .loop → nodeId = execCtx.subtreeRoot :=
          fun hkind => not_not.1 fun hne => hchild ⟨hkind, hne⟩
        rw [node_applies hnode hroot, closed_outcome]
        exact inner_nests hengine hleaves hrank hnode htyped _

end Compound

/-- A child replies within the bound when its root node and its next generation do. -/
theorem run_subtree_nests {engine : Engine} {graph : FunctionGraph} {limit : ℕ∞}
    {rank : String → ℕ∞} (hengine : EngineNests graph limit rank engine) (hsound : Sound engine)
    {ctx : OrchestrationContext} (hleaves : LeafResults ctx.world graph limit)
    {nodeId : String} {results : StringMap} {execCtx : ExecutionContext} {iteration : Nat}
    {control : SubtreeControl} {value : String} {map : StringMap} (hiteration : iteration < 2 ^ 64)
    (hreply : (runSubtree engine ctx (subtreeText graph nodeId results execCtx iteration)).2 =
      some (ChildReply.envelope control value map).text) :
    NestsWithin (limit + rank nodeId) value := by
  have hends := hengine.node hleaves nodeId (execCtx.enter nodeId iteration) ⟨results, []⟩
  have hgood := hsound.node ctx graph nodeId (execCtx.enter nodeId iteration) ⟨results, []⟩
  rw [run_subtree_reads _ _ _ _ _ _ hiteration] at hreply
  rcases hrun : engine.node ctx graph nodeId (execCtx.enter nodeId iteration) ⟨results, []⟩ with
    ⟨outcome, after⟩
  rw [hrun] at hends hgood hreply
  rcases outcome with ((broken | message | message) | input | _) | returned
  · cases @child_reply_text_injective (.envelope .breakLoop broken after.results) _
      (Option.some.inj hreply)
    exact hends _ (Or.inr rfl)
  · cases hreply
  · cases hreply
  · -- The next generation starts from the named results of this one.
    obtain ⟨next, hnext, hinput⟩ := hgood.continues rfl
    rw [continuation_input_eq _ _ _ _ rfl] at hinput
    rw [hinput] at hreply
    exact @hengine.reply { ctx with executionId := ctx.executionId + 1 } _ _ _ _ _ _ _ hleaves
      hnext hreply
  · cases hreply
  · cases @child_reply_text_injective (.envelope .normal returned after.results) _
      (Option.some.inj hreply)
    exact hends _ (Or.inl rfl)

/-- Every interpreter keeps to the bounds of a graph. -/
theorem engine_nests {graph : FunctionGraph} {rank : String → ℕ∞} (hrank : JoinRank graph rank)
    (limit : ℕ∞) (fuel : Nat) : EngineNests graph limit rank (engine fuel) := by
  induction fuel with
  | zero => exact ⟨fun _ _ _ _ => ends_within_unresolved _, fun _ _ h => (by cases h)⟩
  | succ fuel ih =>
      exact ⟨fun hleaves _ _ => node_nests ih hleaves hrank (engine_typed fuel),
        fun hleaves => run_subtree_nests ih (engine_sound fuel) hleaves⟩

/-! ## Joins that accept their branches -/

section Accepting

variable {ctx : OrchestrationContext} {graph : FunctionGraph} {node : FunctionNode}
  {nodeId leftId rightId : String} {execCtx : ExecutionContext} {machine : Machine}
  (hleft : node.leftNode = some leftId) (hright : node.rightNode = some rightId)

include hleft hright

/-- A join whose branches have replied returns the array of the values it joins. -/
theorem join_result_eq {engine : Engine} {replies : List ChildReply}
    (hreplies : (branchChildren ctx graph execCtx machine.results
      (joinBranchIds node leftId rightId)).map (fun child => (runChild engine child.1 child.2).2) =
        replies.map fun reply => some reply.text) :
    (executeJoinNode engine ctx graph node nodeId execCtx machine).1 =
      ((joinReplies graph execCtx.failureIsolated 0
        ((joinBranchIds node leftId rightId).zip replies) [] none machine.results).1.mapError
          fun error => Stop.raised error.error).map fun values => print (.array values) := by
  have hchildren := join_children_reply engine ctx machine
    (show _ = (replies.map ChildReply.text).map some by rw [hreplies, List.map_map]; rfl)
  have houtcomes := join_outcomes_apply ctx graph execCtx
    ((joinBranchIds node leftId rightId).zip replies) 0 [] none (machine.logged
      (joinEvents engine ctx (branchChildren ctx graph execCtx machine.results
        (joinBranchIds node leftId rightId))))
  have hzip : ((joinBranchIds node leftId rightId).zip replies).map
      (fun reply => (reply.1, reply.2.text)) =
      (joinBranchIds node leftId rightId).zip (replies.map ChildReply.text) := by
    rw [List.zip_map_right]
    rfl
  rw [hzip, logged_results] at houtcomes
  unfold executeJoinNode mergeJoinBranches
  simp only [hleft, hright, or_missing_some, pure_bind, bind_assoc]
  rw [Program.bind_ok (read_results_apply machine), Program.bind_ok hchildren]
  rcases hjoin : joinReplies graph execCtx.failureIsolated 0
    ((joinBranchIds node leftId rightId).zip replies) [] none machine.results with
    ⟨error | values, results⟩
  · rw [hjoin] at houtcomes
    rw [Program.bind_error houtcomes]
    rfl
  · rw [hjoin] at houtcomes
    rw [Program.bind_ok houtcomes, Program.bind_ok (store_named_result_apply node _ _)]
    rfl

/-- A join whose branches all return result texts accepts them, unless one nests too deep. -/
theorem normal_join_cases {engine : Engine} {branches : List (String × StringMap)}
    {values : List Value}
    (hnormal : (branchChildren ctx graph execCtx machine.results
      (joinBranchIds node leftId rightId)).map (fun child => (runChild engine child.1 child.2).2) =
        branches.map fun branch => some (ChildReply.envelope .normal branch.1 branch.2).text)
    (hvalues : List.Forall₂ (fun branch value => ResultText branch.1 value) branches values) :
    (∀ value ∈ values, value.depth < recursionLimit) ∧
        (executeJoinNode engine ctx graph node nodeId execCtx machine).1 =
          .ok (print (.array values)) ∨
      (∃ value ∈ values, recursionLimit ≤ value.depth) ∧ ∃ message,
        (executeJoinNode engine ctx graph node nodeId execCtx machine).1 =
          .error (.raised (.failure message)) := by
  let replies := branches.map fun branch => ChildReply.envelope .normal branch.1 branch.2
  let entries := (joinBranchIds node leftId rightId).zip replies
  have hlength : (joinBranchIds node leftId rightId).length = branches.length := by
    simpa [branchChildren] using congrArg List.length hnormal
  have hentries : entries.length = branches.length := by simp [entries, replies, hlength]
  have hentry : ∀ index (h : index < entries.length), (entries.get ⟨index, h⟩).2 =
      .envelope .normal (branches.get ⟨index, hentries ▸ h⟩).1
        (branches.get ⟨index, hentries ▸ h⟩).2 := by
    intro index h
    simp [entries, replies]
  have hresult := @join_result_eq ctx graph node nodeId leftId rightId execCtx machine hleft hright
    engine replies (by rw [hnormal, List.map_map]; rfl)
  by_cases hdepth : ∀ value ∈ values, value.depth < recursionLimit
  · left
    have hread : List.Forall₂ (fun (entry : String × ChildReply) value => ∃ text map,
        entry.2 = .envelope .normal text map ∧ fromStr text = .ok value) entries values := by
      refine List.forall₂_iff_get.2 ⟨hentries.trans hvalues.length_eq, fun index h h' => ?_⟩
      refine ⟨_, _, hentry index h, ?_⟩
      exact (hvalues.get (hentries ▸ h) h').from_str_iff.2 ⟨rfl, hdepth _ (List.get_mem _ _)⟩
    have hjoin := (@join_replies_ok_iff graph execCtx.failureIsolated entries 0 [] none
      machine.results values).2 ⟨rfl, values, rfl, hread⟩
    refine ⟨hdepth, ?_⟩
    rw [hresult, hjoin]
    rfl
  · right
    push Not at hdepth
    obtain ⟨value, hmem, hdeep⟩ := hdepth
    refine ⟨⟨value, hmem, hdeep⟩, ?_⟩
    rw [hresult]
    cases hjoin : (joinReplies graph execCtx.failureIsolated 0 entries [] none
      machine.results).1 with
    | ok read =>
        obtain ⟨-, read, rfl, hread⟩ := (join_replies_ok_iff entries 0 [] none _).1 hjoin
        obtain ⟨index, hindex, rfl⟩ := List.getElem_of_mem hmem
        have hbranch : index < branches.length := hvalues.length_eq ▸ hindex
        obtain ⟨text, map, henvelope, htext⟩ :=
          hread.get (hentries ▸ hbranch) (hread.length_eq ▸ hentries ▸ hbranch)
        rw [hentry index (hentries ▸ hbranch)] at henvelope
        cases henvelope
        have hown := (hvalues.get hbranch hindex).from_str_iff.1 htext
        exact absurd hown.2 (Nat.not_lt.2 hdeep)
    | error error =>
        have hfailure := @join_replies_raises graph execCtx.failureIsolated
          (fun error => ∃ message, error.error = .failure message) entries
          (fun entry hmem index error herror => ?_) 0 [] none machine.results
          (fun error herror => (by cases herror)) error hjoin
        · obtain ⟨message, hmessage⟩ := hfailure
          refine ⟨message, ?_⟩
          rw [← hmessage]
          rfl
        · obtain ⟨position, hposition, rfl⟩ := List.getElem_of_mem hmem
          have henvelope := hentry position hposition
          rw [List.get_eq_getElem] at henvelope
          rw [henvelope] at herror
          simp only [joinContribution] at herror
          cases hread : fromStr (branches.get ⟨position, hentries ▸ hposition⟩).1 with
          | ok parsed =>
              rw [hread] at herror
              cases herror
          | error e =>
              rw [hread] at herror
              cases herror
              exact ⟨_, rfl⟩

end Accepting

/-- A choice for every item is a list of choices. -/
theorem exists_forall₂ {α β : Type} {R : α → β → Prop} {items : List α}
    (h : ∀ item ∈ items, ∃ choice, R item choice) : ∃ choices, List.Forall₂ R items choices := by
  induction items with
  | nil => exact ⟨[], .nil⟩
  | cons item items ih =>
      obtain ⟨choice, hchoice⟩ := h item List.mem_cons_self
      obtain ⟨choices, hchoices⟩ := ih fun other hother => h other (List.mem_cons_of_mem _ hother)
      exact ⟨choice :: choices, .cons hchoice hchoices⟩

/-- An SQL node returns what the activity answers and stores it. -/
theorem sql_node_returns {engine : Engine} {ctx : OrchestrationContext} {graph : FunctionGraph}
    {node : FunctionNode} {nodeId query finalQuery text : String} {execCtx : ExecutionContext}
    {machine : Machine} (hnode : graph.nodes[nodeId]? = some node)
    (hkind : nodeKind node.nodeType = some .sql) (hquery : node.query = some query)
    (hsubstitute : substituteAllWithOptions query machine.results execCtx.vars
      ⟨graph.instanceId, execCtx.label⟩ (some graph.sqlQuotingVersion) = .ok finalQuery)
    (hanswer : ∀ input, ctx.world.activity ctx.path executeSqlName input 0 = .ok text) :
    (executeFunctionNodeWithVars engine ctx graph nodeId execCtx machine).1 = .ok text ∧
      (executeFunctionNodeWithVars engine ctx graph nodeId execCtx machine).2.results =
        withResult node text machine.results := by
  have hactivity := fun input => run_activity_apply ctx executeSqlName input
    (started ctx graph nodeId machine)
  simp only [hanswer] at hactivity
  rw [node_applies hnode (fun h => by rw [hkind] at h; cases h), closed_outcome, closed_results]
  unfold executeNodeInner
  rw [hkind]
  dsimp only
  unfold executeSqlNode
  rw [hquery, or_missing_some, pure_bind, Program.bind_ok (read_results_apply _)]
  rw [show (started ctx graph nodeId machine).results = machine.results from rfl, hsubstitute,
    or_fail_ok, pure_bind, Program.bind_ok (hactivity _),
    Program.bind_ok (store_named_result_apply node text _)]
  exact ⟨rfl, rfl⟩

/-- Arrays within each other, and the empty array innermost. -/
def nestedArray : Nat → Value
  | 0 => .array []
  | levels + 1 => .array [nestedArray levels]

theorem nested_array_depth (levels : Nat) : (nestedArray levels).depth = levels + 1 := by
  induction levels with
  | zero => rfl
  | succ levels ih =>
      show max (nestedArray levels).depth 0 + 1 = levels + 1 + 1
      omega

theorem nested_array_well_formed (levels : Nat) : (nestedArray levels).WellFormed := by
  induction levels with
  | zero => trivial
  | succ levels ih => exact ⟨ih, trivial⟩

/-- One row with a JSON column of 126 nested arrays. -/
def nestedRows : Value := ExecuteSql.queryResult [[("c", nestedArray 125)]]

theorem nested_rows_depth : nestedRows.depth = 129 := by
  simp [nestedRows, ExecuteSql.queryResult, Value.depth, Value.depthMembers, Value.depthItems,
    nested_array_depth]

theorem nested_rows_well_formed : nestedRows.WellFormed := by
  refine ⟨?_, ⟨⟨?_, nested_array_well_formed 125, trivial⟩, trivial⟩, trivial, trivial⟩
  · show ["rows", "row_count"].Nodup
    decide
  · show ["c"].Nodup
    decide

/-- An environment in which every query returns those rows. -/
def nestedWorld : World :=
  { World.quiet with
    activity := fun _ name _ _ =>
      Except.ok (if name = executeSqlName then print nestedRows else "null") }

/-- The root orchestration in that environment, at the join. -/
def nestedContext : OrchestrationContext := ⟨nestedWorld, "aaaaaaaa", 1, []⟩

/-- A branch of the join returns those rows. -/
theorem nested_branch_replies {nodeId query : String} {name : Option String} {path : Path}
    (hnode : joinAssigningX.nodes[nodeId]? =
      some ⟨nodeId, "SQL", some query, name, none, none, "alice", none⟩)
    (hsubstitute : substituteAllWithOptions query ∅ ∅ ⟨"aaaaaaaa", none⟩ (some .v1) = .ok query) :
    (runChild (engine 2) (childContext nestedContext nodeId path)
      (buildSubtreeInput joinAssigningX nodeId ∅ joinExecution)).2 =
      some (ChildReply.envelope .normal (print nestedRows)
        (withResult ⟨nodeId, "SQL", some query, name, none, none, "alice", none⟩
          (print nestedRows) ∅)).text := by
  have hkind : nodeKind "SQL" = some .sql := by decide
  have hanswer : ∀ input, nestedWorld.activity path executeSqlName input 0 =
      .ok (print nestedRows) := fun _ => congrArg Except.ok (if_pos rfl)
  obtain ⟨hvalue, hresults⟩ := @sql_node_returns (engine 0) (childContext nestedContext nodeId path)
    joinAssigningX _ nodeId query query (print nestedRows) (joinExecution.enter nodeId 0) ⟨∅, []⟩
    hnode hkind rfl hsubstitute hanswer
  have hread := run_subtree_reads (engine 1) (childContext nestedContext nodeId path) joinAssigningX
    nodeId ∅ joinExecution (show 0 < 2 ^ 64 by decide)
  change (runSubtree (engine 1) _ (subtreeText _ _ _ _ 0)).2 = _
  rw [hread]
  change ((engine 1).node _ _ _ _ _).1 = _ at hvalue
  change ((engine 1).node _ _ _ _ _).2.results = _ at hresults
  simp only [hvalue, hresults, endSubtree]
  rfl
/-- A query with a JSON column returns the value of the column below three levels. -/
theorem json_column_result (value : Value) :
    ExecuteSql.executeQuery ExecuteSql.lastColumnDriver
        (.ok [[⟨⟨"c", "JSONB"⟩, some (.json value)⟩]]) =
      .ok (print (ExecuteSql.queryResult [[("c", value)]])) := by
  rfl

theorem nested_leaf_results : LeafResults nestedWorld joinAssigningX ⊤ where
  activity {path name input attempt text} _ h := by
    refine ⟨if name = executeSqlName then nestedRows else .null, ?_, ?_, le_top⟩
    · rw [← Except.ok.inj h]
      split_ifs <;> rfl
    · split_ifs
      · exact nested_rows_well_formed
      · trivial
  signal h := by cases h
  broke _ _ _ := le_top
  constant := le_top

end PgDurable.Orchestration
