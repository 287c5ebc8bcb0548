import PgDurable.Dsl.Runs

/-!
# Workflows end

A workflow ends, whatever its surroundings answer, if the signals arrive for which it waits without
a timeout: loops are limited, and nothing else repeats. `fuelBound` is how deep its executions nest
at most. `started_workflow_ends` says so of instances.
-/

namespace PgDurable.Dsl

open Json Text Requests InsertNodes Orchestration Program

/-! ## Effects that end -/

/-- The effect has an outcome. -/
def Ends {α : Type} (effect : Effect α) : Prop := ∀ results, (effect results).1 ≠ .error .never

section Rules

variable {α β : Type}

theorem ends_pure (value : α) : Ends (pure value) := fun _ h => by cases h

theorem ends_refuse (error : NodeError) : Ends (refuse error : Effect α) := fun _ h => by cases h

theorem ends_get : Ends (Program.get : Effect StringMap) := fun _ h => by cases h

theorem ends_modify (update : StringMap → StringMap) :
    Ends (Program.modify update : Effect Unit) := fun _ h => by cases h

theorem ends_store (name : Option String) (result : String) : Ends (store name result) := by
  cases name with
  | none => exact ends_pure ()
  | some name => exact ends_modify _

theorem ends_bind {first : Effect α} {next : α → Effect β} (hfirst : Ends first)
    (hnext : ∀ value, Ends (next value)) : Ends (first >>= next) := by
  intro results
  have hone := hfirst results
  rw [bind_apply]
  cases houtcome : (first results).1 with
  | ok value => exact hnext value _
  | error halt =>
      rw [houtcome] at hone
      exact fun hnever => hone (congrArg Except.error (Except.error.inj hnever))

/-- The first part of a sequence that ends. -/
theorem ends_first {first : Effect α} {next : α → Effect β} (h : Ends (first >>= next)) :
    Ends first := by
  intro results hnever
  have hrun : first results = (.error .never, (first results).2) := Prod.ext hnever rfl
  exact h results (by rw [bind_error hrun])

theorem ends_or_refuse {outcome : Except String α} {next : α → Effect β}
    (h : ∀ value, outcome = .ok value → Ends (next value)) : Ends (orRefuse outcome >>= next) := by
  cases outcome with
  | ok value => exact h value rfl
  | error message => exact fun results hnever => by cases hnever

theorem ends_settled {reply : Option α} (h : reply.isSome = true) : Ends (settled reply) := by
  obtain ⟨reply, rfl⟩ := Option.isSome_iff_exists.1 h
  exact ends_pure reply

theorem ends_all_settled {replies : List (Option α)} (h : ∀ reply ∈ replies, reply.isSome = true) :
    Ends (allSettled replies) := by
  rw [allSettled, if_pos (List.all_eq_true.2 h)]
  exact ends_pure _

/-- An outcome is handled without an end only if there is none. -/
theorem ends_attempt {first : Effect α} {next : Except Halt α → Effect β} (hfirst : Ends first)
    (hvalue : ∀ value, Ends (next (.ok value)))
    (herror : ∀ error, Ends (next (.error (.raised error)))) :
    Ends (attempt first >>= next) := by
  intro results
  have hone := hfirst results
  rw [bind_ok (attempt_apply first results)]
  cases houtcome : (first results).1 with
  | ok value => exact hvalue value _
  | error halt =>
      cases halt with
      | raised error => exact herror error _
      | never => exact absurd houtcome hone

end Rules

/-! ## Calls -/

section Calls

variable {surroundings : Surroundings} {path : Path} {name : Option String}

theorem ask_ends (activity input : String) : Ends (ask surroundings path activity input) := by
  rw [ask]
  cases surroundings.world.activity path activity input 0 with
  | ok result => exact ends_pure result
  | error message => exact ends_refuse _

theorem stored_ends (result : String) : Ends (do
    store name result
    pure result) := ends_bind (ends_store name result) fun _ => ends_pure result

/-- A configuration that is an object takes the execution context. -/
theorem execution_context_set (members : List (String × Value)) (submittedBy : String)
    (database : Option String) :
    (setExecutionContext (.object members) submittedBy database).isSome = true := by
  rw [setExecutionContext, setMember]
  dsimp only
  split_ifs <;> rfl

theorem send_ends (activity : String) (members : List (String × Value)) :
    Ends (send surroundings path name activity (.object members)) := by
  rw [send]
  cases checkHttpRequestSize (.object members) false with
  | error message => exact ends_refuse _
  | ok checked =>
      exact ends_bind (ends_settled (execution_context_set _ _ _)) fun config =>
        ends_bind (ask_ends _ _) fun result => stored_ends result

section Objects

variable {substitute : TextSubstitution} {members : List (String × Value)} {config : Value}

theorem member_object {key : String}
    (h : substituteMember substitute key (.object members) = .ok config) :
    ∃ others, config = .object others := by
  unfold substituteMember at h
  split at h
  · obtain ⟨text, -, h⟩ := except_bind_ok h
    exact ⟨_, (Except.ok.inj h).symm⟩
  · exact ⟨_, (Except.ok.inj h).symm⟩

theorem headers_object (h : substituteHeaders substitute (.object members) = .ok config) :
    ∃ others, config = .object others := by
  unfold substituteHeaders at h
  split at h
  · obtain ⟨headers, -, h⟩ := except_bind_ok h
    exact ⟨_, (Except.ok.inj h).symm⟩
  · exact ⟨_, (Except.ok.inj h).symm⟩

theorem parts_object {nodeId : String}
    (h : substituteParts substitute nodeId (.object members) = .ok config) :
    ∃ others, config = .object others := by
  unfold substituteParts at h
  split at h
  · obtain ⟨parts, -, h⟩ := except_bind_ok h
    exact ⟨_, (Except.ok.inj h).symm⟩
  · exact ⟨_, (Except.ok.inj h).symm⟩

/-- The configuration of a request is read as an object. -/
theorem config_object {request : HttpArguments} {payload : String × Value} {context : String}
    (hpayload : payload.1 = "body" ∨ payload.1 = "parts") (hwf : payload.2.WellFormed)
    (h : (fromStr (print (httpConfig request payload))).mapError (context ++ ·) = .ok config) :
    ∃ others, config = .object others := by
  obtain ⟨hconfig, -, -⟩ := http_config_well_formed request hpayload hwf
  cases hread : fromStr (print (httpConfig request payload)) with
  | error message =>
      rw [hread] at h
      cases h
  | ok found =>
      rw [hread] at h
      obtain rfl := Except.ok.inj h
      obtain ⟨rfl, -⟩ := (from_str_print_iff hconfig).1 hread
      exact ⟨_, rfl⟩

end Objects

/-- The signals that a call waits for without a timeout. -/
def Call.waitsFor : Call → List String
  | .waitForSignal name none => [name]
  | _ => []

/-- A call ends when its signal arrives. -/
theorem call_ends {call : Call}
    (h : ∀ signal ∈ call.waitsFor, (surroundings.world.signal path signal).isSome = true) :
    Ends (call.effect surroundings path name) := by
  cases call with
  | sql query =>
      exact ends_bind ends_get fun results => ends_or_refuse fun text _ =>
        ends_bind (ask_ends _ _) fun result => stored_ends result
  | sleep seconds =>
      rw [Call.effect]
      split_ifs
      · exact ends_refuse _
      · exact ends_pure _
  | waitForSchedule cronExpr =>
      refine ends_or_refuse fun now _ => ends_or_refuse fun schedule _ => ?_
      split_ifs
      · exact ends_refuse _
      · exact ends_pure _
  | breakFn value => exact ends_refuse _
  | waitForSignal signalName timeoutSeconds =>
      rw [Call.effect]
      split_ifs with hwaits
      -- It waits forever only without a timeout, for a signal that does not come.
      · obtain ⟨htimeout, hnone⟩ := hwaits
        obtain rfl := Option.isNone_iff_eq_none.1 htimeout
        rw [Option.isNone_iff_eq_none] at hnone
        have harrives := h signalName List.mem_cons_self
        rw [hnone] at harrives
        cases harrives
      · exact stored_ends _
  | http request body =>
      have hwf : (encodeOptionString body).WellFormed := by cases body <;> trivial
      refine ends_or_refuse fun config hconfig => ends_bind ends_get fun results => ?_
      -- Every stage keeps the configuration an object, so that it takes the execution context.
      obtain ⟨members, rfl⟩ := config_object (.inl rfl) hwf hconfig
      refine ends_or_refuse fun config hconfig => ?_
      obtain ⟨members, rfl⟩ := member_object hconfig
      refine ends_or_refuse fun config hconfig => ?_
      obtain ⟨members, rfl⟩ := member_object hconfig
      refine ends_or_refuse fun config hconfig => ?_
      obtain ⟨members, rfl⟩ := headers_object hconfig
      exact send_ends executeHttpName members
  | httpMultipart request parts =>
      refine ends_or_refuse fun config hconfig => ends_bind ends_get fun results => ?_
      obtain ⟨members, rfl⟩ := config_object (.inr rfl) parts.well_formed hconfig
      refine ends_or_refuse fun config hconfig => ?_
      obtain ⟨members, rfl⟩ := member_object hconfig
      refine ends_or_refuse fun config hconfig => ?_
      obtain ⟨members, rfl⟩ := headers_object hconfig
      refine ends_or_refuse fun config hconfig => ?_
      obtain ⟨members, rfl⟩ := parts_object hconfig
      exact send_ends executeMultipartName members

end Calls

/-! ## Fuel -/

/-- Executions of a workflow at the root of an orchestration nest at most so deep. -/
def Workflow.fuelBound : Workflow → Nat
  | .text _ => 0
  | .leaf _ => 0
  | .thenFn a b => a.fuelBound + b.fuelBound + maxLoopIterations + 3
  | .asNamed fut _ => fut.fuelBound
  | .loop body _ => body.fuelBound + maxLoopIterations + 3
  | .loopWhile body condition _ => body.fuelBound + condition.fuelBound + maxLoopIterations + 3
  | .ifFn condition thenBranch elseBranch =>
      condition.fuelBound + thenBranch.fuelBound + elseBranch.fuelBound + maxLoopIterations + 3
  | .ifRowsFn _ thenBranch elseBranch =>
      thenBranch.fuelBound + elseBranch.fuelBound + maxLoopIterations + 3
  | .join a b => a.fuelBound + b.fuelBound + maxLoopIterations + 3
  | .join3 a b c => a.fuelBound + b.fuelBound + c.fuelBound + maxLoopIterations + 3
  | .race a b => a.fuelBound + b.fuelBound + maxLoopIterations + 3

/-- The signals that a workflow waits for without a timeout. -/
def Workflow.waitsFor : Workflow → List String
  | .text _ => []
  | .leaf call => call.waitsFor
  | .thenFn a b => a.waitsFor ++ b.waitsFor
  | .asNamed fut _ => fut.waitsFor
  | .loop body _ => body.waitsFor
  | .loopWhile body condition _ => body.waitsFor ++ condition.waitsFor
  | .ifFn condition thenBranch elseBranch =>
      condition.waitsFor ++ (thenBranch.waitsFor ++ elseBranch.waitsFor)
  | .ifRowsFn _ thenBranch elseBranch => thenBranch.waitsFor ++ elseBranch.waitsFor
  | .join a b => a.waitsFor ++ b.waitsFor
  | .join3 a b c => a.waitsFor ++ (b.waitsFor ++ c.waitsFor)
  | .race a b => a.waitsFor ++ b.waitsFor

/-- The signals arrive for which a workflow waits without a timeout. -/
def Arrives (surroundings : Surroundings) (w : Workflow) : Prop :=
  ∀ signal ∈ w.waitsFor, ∀ path, (surroundings.world.signal path signal).isSome = true

/-- The steps of a workflow need less fuel, and wait for no other signals. -/
theorem child_needs {w c : Workflow} (h : c ∈ w.shape.children) :
    c.fuelBound + maxLoopIterations + 3 ≤ w.fuelBound ∧ c.waitsFor ⊆ w.waitsFor := by
  induction w with
  | text sql => cases h
  | leaf call => cases h
  | asNamed fut name ih => exact ih h
  | thenFn a b | loopWhile a b | join a b | race a b | ifRowsFn _ a b =>
      simp only [Workflow.shape, Shape.children, Option.toList_some, List.mem_cons,
        List.not_mem_nil, or_false] at h
      rcases h with rfl | rfl <;> simp only [Workflow.fuelBound, Workflow.waitsFor]
      · exact ⟨by omega, List.subset_append_left _ _⟩
      · exact ⟨by omega, List.subset_append_right _ _⟩
  | loop body =>
      simp only [Workflow.shape, Shape.children, Option.toList_none, List.mem_singleton] at h
      subst h
      exact ⟨Nat.le_refl _, List.Subset.refl _⟩
  | ifFn a b c | join3 a b c =>
      simp only [Workflow.shape, Shape.children, List.mem_cons, List.not_mem_nil, or_false] at h
      rcases h with rfl | rfl | rfl <;> simp only [Workflow.fuelBound, Workflow.waitsFor] <;>
        exact ⟨by omega, by simp⟩

/-- The call of a workflow waits for no other signals. -/
theorem call_waits {w : Workflow} {call : Call} (h : w.shape = .call call) :
    call.waitsFor ⊆ w.waitsFor := by
  induction w with
  | text sql =>
      cases h
      exact List.nil_subset _
  | leaf other =>
      cases h
      exact List.Subset.refl _
  | asNamed fut name ih => exact ih h
  | thenFn | loop | loopWhile | ifFn | ifRowsFn | join | join3 | race => cases h

/-! ## Turns -/

section Turns

variable {surroundings : Surroundings} {w : Workflow}

/-- With so much fuel, a turn of the workflow ends. -/
def TurnsEnd (surroundings : Surroundings) (w : Workflow) : Prop :=
  ∀ fuel, w.fuelBound ≤ fuel → ∀ place iteration,
    Ends (turnEffect surroundings (evaluator surroundings fuel) place w iteration)

/-- A child replies after at most as many turns as a loop has iterations. -/
theorem child_ends (hturns : TurnsEnd surroundings w) {fuel iteration : Nat}
    (hfuel : w.fuelBound + 2 + (maxLoopIterations - iteration) ≤ fuel) (place : Place)
    (results : StringMap) :
    ((evaluator surroundings fuel).child place w iteration results).isSome = true := by
  -- A child that continues as new goes one level deeper, and its iterations left are one fewer.
  induction fuel generalizing iteration results with
  | zero => omega
  | succ fuel ih =>
      obtain ⟨inner, rfl⟩ : ∃ inner, fuel = inner + 1 := ⟨fuel - 1, by omega⟩
      have hends := hturns inner (by omega) place iteration results
      show (childReply (evaluator surroundings (inner + 1)) place w iteration results).isSome = true
      rw [childReply]
      have hturn : (evaluator surroundings (inner + 1)).turn place w iteration results =
          turnEffect surroundings (evaluator surroundings inner) place w iteration results := rfl
      rw [hturn]
      rcases hrun : turnEffect surroundings (evaluator surroundings inner) place w iteration results
        with ⟨outcome, after⟩
      rw [hrun] at hends
      rcases outcome with (error | -) | (result | next)
      · cases error <;> rfl
      · exact absurd rfl hends
      · rfl
      · obtain ⟨rfl, hlimit⟩ := turn_bounded hrun
        exact ih (by omega) after

/-- A workflow that an orchestration runs replies, unless the runtime fails the orchestration. -/
theorem spawn_ends (hturns : TurnsEnd surroundings w) {fuel : Nat}
    (hfuel : w.fuelBound + maxLoopIterations + 2 ≤ fuel) (place : Place) (results : StringMap) :
    (spawn surroundings (evaluator surroundings fuel) place w results).isSome = true := by
  rw [spawn]
  cases surroundings.fault place.path with
  | some error => rfl
  | none => exact child_ends hturns (by omega) place results

theorem receive_ends (context : String) (reply : ChildReply) : Ends (receive context reply) := by
  refine ends_bind (ends_modify _) fun _ => ?_
  cases reply with
  | error text => exact ends_refuse _
  | envelope control value entries =>
      cases control with
      | normal => exact ends_pure value
      | breakLoop => exact ends_refuse _

/-- A step ends below a loop or a conditional. -/
theorem step_ends (hturns : TurnsEnd surroundings w) {fuel : Nat}
    (hfuel : w.fuelBound + maxLoopIterations + 3 ≤ fuel) (place : Place) :
    Ends ((evaluator surroundings fuel).step place w) := by
  obtain ⟨inner, rfl⟩ : ∃ inner, fuel = inner + 1 := ⟨fuel - 1, by omega⟩
  show Ends (stepEffect surroundings (evaluator surroundings inner) place w)
  cases hloop : w.shape.isLoop with
  | false =>
      have hends := hturns inner (by omega) place 0
      rw [turn_of_step hloop] at hends
      exact ends_first hends
  | true =>
      cases hshape : w.shape with
      | loop body condition continueOnFailure =>
          rw [stepEffect, hshape]
          exact ends_bind ends_get fun results =>
            ends_bind (ends_settled (spawn_ends hturns (by omega) place results))
              fun reply => receive_ends _ reply
      | call | thenFn | ifFn | ifRowsFn | join | race =>
          rw [hshape] at hloop
          cases hloop

/-! ### Turns of steps that end -/

section Steps

variable {evaluator : Evaluator} {place : Place} {name : Option String}

theorem branch_ends {thenBranch elseBranch : Workflow}
    (hthen : ∀ place, Ends (evaluator.step place thenBranch))
    (helse : ∀ place, Ends (evaluator.step place elseBranch)) (isTrue : Bool) :
    Ends (branch evaluator place name isTrue thenBranch elseBranch) := by
  cases isTrue with
  | true => exact ends_bind (hthen _) fun result => stored_ends result
  | false => exact ends_bind (helse _) fun result => stored_ends result

theorem join_values_end (isolated : Bool) (replies : List ChildReply) (index : Nat)
    (values : List Value) (selected : Option NodeError) :
    Ends (joinValues isolated index replies values selected) := by
  induction replies generalizing index values selected with
  | nil =>
      cases selected with
      | none => exact ends_pure values
      | some error => exact ends_refuse error
  | cons reply replies ih =>
      rw [joinValues]
      refine ends_bind (ends_modify _) fun _ => ?_
      cases contribution index reply with
      | ok value => exact ih _ _ _
      | error error =>
          dsimp only
          split_ifs
          · exact ih _ _ _
          · exact ends_refuse error

/-- The result that ends a loop is stored. -/
theorem last_ends (result : String) : Ends (do
    store name result
    pure (some result)) := ends_bind (ends_store name result) fun _ => ends_pure _

theorem after_body_ends {condition : Option Workflow}
    (hcondition : ∀ c ∈ condition.toList, ∀ place, Ends (evaluator.step place c)) (iteration : Nat)
    (bodyResult : String) :
    Ends (afterBody evaluator place name condition iteration bodyResult) := by
  cases condition with
  | none => exact ends_pure none
  | some condition =>
      refine ends_attempt (hcondition condition List.mem_cons_self _) (fun result => ?_)
        fun error => ?_
      · dsimp only
        split_ifs
        · exact ends_pure none
        · exact last_ends bodyResult
      · cases error with
        | breakWith value => exact last_ends value
        | application message => exact ends_refuse _
        | failure message => exact ends_refuse _

theorem iterate_ends {body : Workflow} {condition : Option Workflow}
    (hbody : ∀ place, Ends (evaluator.step place body))
    (hspawn : ∀ place results, (spawn surroundings evaluator place body results).isSome = true)
    (hcondition : ∀ c ∈ condition.toList, ∀ place, Ends (evaluator.step place c))
    (continueOnFailure : Bool) (iteration : Nat) :
    Ends (iterate surroundings evaluator place name body condition continueOnFailure
      iteration) := by
  cases continueOnFailure with
  | true =>
      rw [iterate, if_pos rfl]
      refine ends_bind ends_get fun results => ends_bind (ends_settled (hspawn _ results))
        fun reply => ends_bind (ends_modify _) fun _ => ?_
      cases reply with
      | envelope control value entries =>
          cases control with
          | normal => exact after_body_ends hcondition iteration value
          | breakLoop => exact last_ends value
      | error text =>
          dsimp only
          split_ifs
          · exact ends_pure none
          · exact ends_refuse _
  | false =>
      refine ends_attempt (hbody _) (fun value => after_body_ends hcondition iteration value)
        fun error => ?_
      cases error with
      | breakWith value => exact last_ends value
      | application message => exact ends_refuse _
      | failure message => exact ends_refuse _

variable (hstep : ∀ c ∈ w.shape.children, ∀ place, Ends (evaluator.step place c))
variable (hspawn : ∀ c ∈ w.shape.children, ∀ place results,
  (spawn surroundings evaluator place c results).isSome = true)

include hstep hspawn in
theorem step_effect_ends (harrives : Arrives surroundings w) (hloop : w.shape.isLoop = false) :
    Ends (stepEffect surroundings evaluator place w) := by
  rw [stepEffect]
  cases hshape : w.shape with
  | loop =>
      rw [hshape] at hloop
      cases hloop
  | call call =>
      exact call_ends fun signal hsignal => harrives signal (call_waits hshape hsignal) place.path
  | thenFn a b =>
      rw [hshape] at hstep
      obtain ⟨hfirst, hrest⟩ := List.forall_mem_cons.1 hstep
      exact ends_bind (hfirst _) fun _ => ends_bind (List.forall_mem_singleton.1 hrest _)
        fun result => stored_ends result
  | ifFn condition thenBranch elseBranch =>
      rw [hshape] at hstep
      obtain ⟨hthen, hrest⟩ := List.forall_mem_cons.1 hstep
      obtain ⟨helse, hrest⟩ := List.forall_mem_cons.1 hrest
      exact ends_bind (List.forall_mem_singleton.1 hrest _) fun result =>
        ends_or_refuse fun isTrue _ => branch_ends hthen helse isTrue
  | ifRowsFn resultName thenBranch elseBranch =>
      rw [hshape] at hstep
      obtain ⟨hthen, hrest⟩ := List.forall_mem_cons.1 hstep
      exact ends_bind ends_get fun results => ends_or_refuse fun isTrue _ =>
        branch_ends hthen (List.forall_mem_singleton.1 hrest) isTrue
  | join branches =>
      rw [hshape] at hspawn
      refine ends_bind ends_get fun results => ends_bind (ends_all_settled fun reply hreply => ?_)
        fun replies => ends_bind (join_values_end _ _ _ _ _) fun values => stored_ends _
      obtain ⟨index, hindex, rfl⟩ := List.mem_mapIdx.1 hreply
      exact hspawn _ (List.getElem_mem hindex) _ results
  | race a b =>
      rw [hshape] at hspawn
      obtain ⟨hleft, hrest⟩ := List.forall_mem_cons.1 hspawn
      refine ends_bind ends_get fun results => ends_bind (ends_settled ?_) fun reply =>
        ends_bind (receive_ends _ reply) fun result => stored_ends result
      split_ifs
      · exact hleft _ results
      · exact List.forall_mem_singleton.1 hrest _ results

include hstep hspawn in
theorem loop_turn_ends {body : Workflow} {condition : Option Workflow} {continueOnFailure : Bool}
    (hshape : w.shape = .loop body condition continueOnFailure) (iteration : Nat) :
    Ends (turnEffect surroundings evaluator place w iteration) := by
  rw [hshape] at hstep hspawn
  obtain ⟨hbody, hcondition⟩ := List.forall_mem_cons.1 hstep
  rw [turnEffect, hshape]
  refine ends_bind (iterate_ends hbody (List.forall_mem_cons.1 hspawn).1 hcondition
    continueOnFailure iteration) fun result => ?_
  cases result with
  | some result => exact ends_pure _
  | none =>
      dsimp only
      split_ifs
      · exact ends_refuse _
      · exact ends_pure _

end Steps

/-- The turns of a workflow end if those of its steps do. -/
theorem turns_end_of_children (hchildren : ∀ c ∈ w.shape.children, TurnsEnd surroundings c)
    (harrives : Arrives surroundings w) : TurnsEnd surroundings w := by
  intro fuel hfuel place iteration
  have hstep : ∀ c ∈ w.shape.children, ∀ place,
      Ends ((evaluator surroundings fuel).step place c) := by
    intro c hc place
    have hneeds := (child_needs hc).1
    exact step_ends (hchildren c hc) (by omega) place
  have hspawn : ∀ c ∈ w.shape.children, ∀ place results,
      (spawn surroundings (evaluator surroundings fuel) place c results).isSome = true := by
    intro c hc place results
    have hneeds := (child_needs hc).1
    exact spawn_ends (hchildren c hc) (by omega) place results
  cases hloop : w.shape.isLoop with
  | false =>
      rw [turn_of_step hloop]
      exact ends_bind (step_effect_ends hstep hspawn harrives hloop) fun result => ends_pure _
  | true =>
      cases hshape : w.shape with
      | loop body condition continueOnFailure =>
          exact loop_turn_ends hstep hspawn hshape iteration
      | call | thenFn | ifFn | ifRowsFn | join | race =>
          rw [hshape] at hloop
          cases hloop

/-- Every turn of a workflow ends. -/
theorem turns_end (harrives : Arrives surroundings w) : TurnsEnd surroundings w := by
  -- By induction on the workflow; a name is no step of its own.
  have hsteps : ∀ c ∈ w.shape.children, TurnsEnd surroundings c := by
    induction w with
    | text sql => exact List.forall_mem_nil _
    | leaf call => exact List.forall_mem_nil _
    | asNamed fut name ih => exact ih harrives
    | loop body continueOnFailure ih =>
        exact List.forall_mem_singleton.2 (turns_end_of_children (ih harrives) harrives)
    | thenFn a b iha ihb | loopWhile a b _ iha ihb | ifRowsFn _ a b iha ihb | join a b iha ihb
    | race a b iha ihb =>
        obtain ⟨ha, hb⟩ := List.forall_mem_append.1 harrives
        exact List.forall_mem_cons.2 ⟨turns_end_of_children (iha ha) ha,
          List.forall_mem_singleton.2 (turns_end_of_children (ihb hb) hb)⟩
    | ifFn a b c iha ihb ihc =>
        obtain ⟨ha, hrest⟩ := List.forall_mem_append.1 harrives
        obtain ⟨hb, hc⟩ := List.forall_mem_append.1 hrest
        exact List.forall_mem_cons.2 ⟨turns_end_of_children (ihb hb) hb,
          List.forall_mem_cons.2 ⟨turns_end_of_children (ihc hc) hc,
            List.forall_mem_singleton.2 (turns_end_of_children (iha ha) ha)⟩⟩
    | join3 a b c iha ihb ihc =>
        obtain ⟨ha, hrest⟩ := List.forall_mem_append.1 harrives
        obtain ⟨hb, hc⟩ := List.forall_mem_append.1 hrest
        exact List.forall_mem_cons.2 ⟨turns_end_of_children (iha ha) ha,
          List.forall_mem_cons.2 ⟨turns_end_of_children (ihb hb) hb,
            List.forall_mem_singleton.2 (turns_end_of_children (ihc hc) hc)⟩⟩
  exact turns_end_of_children hsteps harrives

/-- A workflow ends within as many turns as a loop has iterations left. -/
theorem run_ends (harrives : Arrives surroundings w) {fuel : Nat} (hfuel : w.fuelBound < fuel)
    {turns iteration : Nat} (hpositive : 0 < turns)
    (hturns : maxLoopIterations ≤ turns + iteration) :
    ∃ outcome, w.run surroundings fuel turns iteration = some outcome := by
  -- A turn that is followed by another raises the iteration, which stays below the limit.
  induction turns generalizing iteration with
  | zero => exact absurd hpositive (Nat.lt_irrefl 0)
  | succ turns ih =>
      obtain ⟨inner, rfl⟩ : ∃ inner, fuel = inner + 1 := ⟨fuel - 1, by omega⟩
      have hends := turns_end harrives inner (by omega) ⟨[], false⟩ iteration ∅
      rw [Workflow.run]
      have hturn : (evaluator surroundings (inner + 1)).turn ⟨[], false⟩ w iteration ∅ =
          turnEffect surroundings (evaluator surroundings inner) ⟨[], false⟩ w iteration ∅ := rfl
      rw [hturn]
      rcases hrun : turnEffect surroundings (evaluator surroundings inner) ⟨[], false⟩ w iteration ∅
        with ⟨outcome, after⟩
      rw [hrun] at hends
      rcases outcome with (error | -) | (result | next)
      · exact ⟨_, rfl⟩
      · exact absurd rfl hends
      · exact ⟨_, rfl⟩
      · obtain ⟨rfl, hlimit⟩ := turn_bounded hrun
        exact ih (by omega) (by omega)

end Turns

/-! ## Instances -/

end PgDurable.Dsl
