import PgDurable.Dsl.Workflows
import PgDurable.Library.Simulation
import PgDurable.Orchestration.Children

/-!
# What a workflow does

`Workflow.run` evaluates a workflow as it is written. It knows no rows, configurations, ids of
children, inputs, envelopes, statuses or history: a step takes the named results and leaves others,
with a value, an error, or no outcome at all. `evaluator fuel` nests at most `fuel` steps.
-/

namespace PgDurable.Dsl

open Json Text Orchestration

/-! ## Workflows without their names -/

/-- The outermost call of a workflow. -/
inductive Shape where
  | call (call : Call)
  | thenFn (a b : Workflow)
  | loop (body : Workflow) (condition : Option Workflow) (continueOnFailure : Bool)
  | ifFn (condition thenBranch elseBranch : Workflow)
  | ifRowsFn (resultName : String) (thenBranch elseBranch : Workflow)
  | join (branches : List Workflow)
  | race (a b : Workflow)

/-- A text is a call of `df.sql`. -/
def Workflow.shape : Workflow → Shape
  | .text sql => .call (.sql sql.text)
  | .leaf call => .call call
  | .thenFn a b => .thenFn a b
  | .asNamed fut _ => fut.shape
  | .loop body continueOnFailure => .loop body none continueOnFailure
  | .loopWhile body condition continueOnFailure => .loop body (some condition) continueOnFailure
  | .ifFn condition thenBranch elseBranch => .ifFn condition thenBranch elseBranch
  | .ifRowsFn resultName thenBranch elseBranch => .ifRowsFn resultName thenBranch elseBranch
  | .join a b => .join [a, b]
  | .join3 a b c => .join [a, b, c]
  | .race a b => .race a b

/-- The name of the result. A name that is given last is the one that counts. -/
def Workflow.name : Workflow → Option String
  | .asNamed _ name => some name
  | _ => none

/-! ## Effects -/

/-- How a step ends without a value. -/
inductive Halt where
  | raised (error : NodeError)
  | never

/-- What a step does to the named results. -/
abbrev Effect := Program StringMap Halt

def refuse {α : Type} (error : NodeError) : Effect α := Program.exit (.raised error)

/-- A helper whose errors are failures of the step. -/
def orRefuse {α : Type} : Except String α → Effect α
  | .ok value => pure value
  | .error message => refuse (.failure message)

/-- A value that may never be there. -/
def settled {α : Type} : Option α → Effect α
  | some value => pure value
  | none => Program.exit .never

/-- Values of which every one is there. -/
def allSettled {α : Type} (values : List (Option α)) : Effect (List α) :=
  if values.all Option.isSome then pure (values.filterMap id) else Program.exit .never

def store (name : Option String) (result : String) : Effect Unit :=
  match name with
  | some name => Program.modify fun results => results.insert name result
  | none => pure ()

/-- What the surroundings of an instance answer. -/
structure Surroundings where
  world : World
  /-- The error with which the runtime fails the orchestration of a step. -/
  fault : Path → Option String
  /-- The id of a step in messages. -/
  stepId : Path → String
  instanceId : String
  label : Option String
  vars : StringMap
  submittedBy : String
  database : Option String
  version : SqlQuotingVersion

/-! ## Calls -/

section Calls

variable (surroundings : Surroundings) (path : Path) (name : Option String)

/-- Ask for an activity. -/
def ask (activity input : String) : Effect String :=
  match surroundings.world.activity path activity input 0 with
  | .ok result => pure result
  | .error message => refuse (.application message)

/-- The references of a text that is no SQL. -/
def substituteText (results : StringMap) (text : String) : Except String String :=
  substituteAllRaw text results surroundings.vars ⟨surroundings.instanceId, surroundings.label⟩

/-- Send a request whose references are substituted. -/
def send (activity : String) (config : Value) : Effect String :=
  match checkHttpRequestSize config false with
  | .error message => refuse (.application message)
  | .ok () => do
      let config ← settled (setExecutionContext config surroundings.submittedBy
        surroundings.database)
      let result ← ask surroundings path activity (print config)
      store name result
      pure result

/-- What a call does. -/
def Call.effect : Call → Effect String
  | .sql query => do
      let results ← Program.get
      let query ← orRefuse (substituteAllWithOptions query results surroundings.vars
        ⟨surroundings.instanceId, surroundings.label⟩ (some surroundings.version))
      let result ← ask surroundings path executeSqlName (executeSqlInput query
        surroundings.submittedBy surroundings.database surroundings.version)
      store name result
      pure result
  | .sleep seconds =>
      if seconds.toInt < 0 then
        refuse (.failure ("Invalid sleep duration: " ++ toString seconds.toInt))
      else pure (sleepResult seconds.toInt.toNat)
  | .waitForSchedule cronExpr => do
      let now ← orRefuse ((surroundings.world.utcNow path 0).mapError
        ("WAIT_SCHEDULE failed to read deterministic clock: " ++ ·))
      let schedule ← orRefuse ((surroundings.world.cronNext ("0 " ++ cronExpr)).mapError
        (("Invalid cron expression '" ++ cronExpr ++ "': ") ++ ·))
      if (schedule now).isNone then
        refuse (.failure ("No upcoming schedule found for '" ++ cronExpr ++ "'"))
      else pure scheduledResult
  | .breakFn value =>
      refuse (.breakWith (value.elim "null" fun text => print ((parse text).getD (.string text))))
  | .waitForSignal signalName timeoutSeconds => do
      let data := surroundings.world.signal path signalName
      if timeoutSeconds.isNone ∧ data.isNone then Program.exit .never
      else
        let result := signalResult signalName data
        store name result
        pure result
  | .http request body => do
      let config ← orRefuse ((fromStr (print (httpConfig request
        ("body", encodeOptionString body)))).mapError ("Invalid HTTP config: " ++ ·))
      let results ← Program.get
      let config ← orRefuse (substituteMember (substituteText surroundings results) "body" config)
      let config ← orRefuse (substituteMember (substituteText surroundings results) "url" config)
      let config ← orRefuse (substituteHeaders (substituteText surroundings results) config)
      send surroundings path name executeHttpName config
  | .httpMultipart request parts => do
      let config ← orRefuse ((fromStr (print (httpConfig request ("parts", parts.value)))).mapError
        ("Invalid multipart HTTP config: " ++ ·))
      let results ← Program.get
      let config ← orRefuse (substituteMember (substituteText surroundings results) "url" config)
      let config ← orRefuse (substituteHeaders (substituteText surroundings results) config)
      let config ← orRefuse (substituteParts (substituteText surroundings results)
        (surroundings.stepId path) config)
      send surroundings path name executeMultipartName config

end Calls

/-! ## Steps that take others -/

/-- Where a step is evaluated. -/
structure Place where
  path : Path
  /-- An enclosing loop may go on after a failure of the step. -/
  isolated : Bool

def Place.down (place : Place) (step : Orchestration.Step) : Place :=
  { place with path := place.path ++ [step] }

/-- What is left of an iteration of a workflow that an orchestration runs. -/
inductive Turn where
  | done (result : String)
  | again (iteration : Nat)

/-- The evaluation of a step among others, of a turn of an orchestration, and of an orchestration to
its end. -/
structure Evaluator where
  step : Place → Workflow → Effect String
  turn : Place → Workflow → Nat → Effect Turn
  child : Place → Workflow → Nat → StringMap → Option ChildReply

section Steps

variable (surroundings : Surroundings) (evaluator : Evaluator) (place : Place)
variable (name : Option String)

/-- Run a workflow in an orchestration of its own, unless the runtime fails that. -/
def spawn (place : Place) (w : Workflow) (results : StringMap) : Option ChildReply :=
  match surroundings.fault place.path with
  | some error => some (.error error)
  | none => evaluator.child place w 0 results

/-- Take the reply of an orchestration for the step that runs it. -/
def receive (context : String) (reply : ChildReply) : Effect String := do
  Program.modify reply.merge
  match reply with
  | .envelope .normal value _ => pure value
  | .envelope .breakLoop value _ => refuse (.breakWith value)
  | .error text => refuse (contextualizeSubtreeFailure context text)

/-- One of two branches. -/
def branch (isTrue : Bool) (thenBranch elseBranch : Workflow) : Effect String := do
  let result ← if isTrue then evaluator.step (place.down .ifThen) thenBranch
    else evaluator.step (place.down .ifElse) elseBranch
  store name result
  pure result

/-- What a reply contributes to a join. -/
def contribution (index : Nat) : ChildReply → Except NodeError Value
  | .envelope .normal value _ =>
      (fromStr value).mapError fun error => .failure ("JOIN branch " ++ toString (index + 1) ++
        " result parse error: " ++ error)
  | .envelope .breakLoop value _ => .error (.breakWith value)
  | .error text => .error
      (contextualizeSubtreeFailure ("JOIN branch " ++ toString (index + 1) ++ " failed") text)

/-- The error that weighs more; the first of equal ones. -/
def heavier (selected : Option NodeError) (candidate : NodeError) : NodeError :=
  match selected with
  | some error => if joinPriority candidate > joinPriority error then candidate else error
  | none => candidate

/-- The values of a join. An enclosing loop that goes on after failures gets the error that weighs
most, any other the first one. -/
def joinValues (isolated : Bool) : Nat → List ChildReply → List Value → Option NodeError →
    Effect (List Value)
  | _, [], values, none => pure values
  | _, [], _, some error => refuse error
  | index, reply :: replies, values, selected => do
      Program.modify reply.merge
      match contribution index reply with
      | .ok value => joinValues isolated (index + 1) replies (values ++ [value]) selected
      | .error error =>
          if isolated then
            joinValues isolated (index + 1) replies values (some (heavier selected error))
          else refuse error

/-- What a step does. A loop runs in an orchestration of its own. -/
def stepEffect (w : Workflow) : Effect String :=
  match w.shape with
  | .call call => call.effect surroundings place.path w.name
  | .thenFn a b => do
      let _ ← evaluator.step (place.down .thenLeft) a
      let result ← evaluator.step (place.down .thenRight) b
      store w.name result
      pure result
  | .loop _ _ _ => do
      let results ← Program.get
      let reply ← settled (spawn surroundings evaluator place w results)
      receive "Loop sub-orchestration failed" reply
  | .ifFn condition thenBranch elseBranch => do
      let result ← evaluator.step (place.down .ifCondition) condition
      let isTrue ← orRefuse (evaluateCondition result)
      branch evaluator place w.name isTrue thenBranch elseBranch
  | .ifRowsFn resultName thenBranch elseBranch => do
      let results ← Program.get
      let isTrue ← orRefuse (resultHasRows (ifRowsConfig resultName) results)
      branch evaluator place w.name isTrue thenBranch elseBranch
  | .join branches => do
      let results ← Program.get
      let replies ← allSettled (branches.mapIdx fun index b =>
        spawn surroundings evaluator (place.down (.branch index)) b results)
      let values ← joinValues place.isolated 0 replies [] none
      let result := print (.array values)
      store w.name result
      pure result
  | .race a b => do
      let results ← Program.get
      let leftWins := surroundings.world.leftWins place.path
      let reply ← settled (if leftWins then
          spawn surroundings evaluator (place.down (.branch 0)) a results
        else spawn surroundings evaluator (place.down (.branch 1)) b results)
      let result ←
        receive (if leftWins then "RACE left branch failed" else "RACE right branch failed") reply
      store w.name result
      pure result

/-! ## Loops -/

/-- What follows the body of a loop: its result ends the loop, or `none`. -/
def afterBody (condition : Option Workflow) (iteration : Nat) (bodyResult : String) :
    Effect (Option String) :=
  match condition with
  | none => pure none
  | some condition => do
      match ← Program.attempt
          (evaluator.step (place.down (.loopCondition iteration)) condition) with
      | .ok result =>
          if (evaluateCondition result).toOption.getD false then pure none
          else do
            store name bodyResult
            pure (some bodyResult)
      | .error (.raised (.breakWith value)) => do
          store name value
          pure (some value)
      | .error (.raised (.application message)) => refuse (.failure message)
      | .error halt => Program.exit halt

/-- An iteration of a loop. -/
def iterate (body : Workflow) (condition : Option Workflow) (continueOnFailure : Bool)
    (iteration : Nat) : Effect (Option String) :=
  if continueOnFailure then do
    let results ← Program.get
    let reply ← settled
      (spawn surroundings evaluator ⟨place.path ++ [.loopBody iteration], true⟩ body results)
    Program.modify reply.merge
    match reply with
    | .envelope .normal value _ => afterBody evaluator place name condition iteration value
    | .envelope .breakLoop value _ => do
        store name value
        pure (some value)
    | .error text =>
        if (decodeSubtreeApplicationFailure text).isSome then pure none
        else refuse (.failure text)
  else do
    match ← Program.attempt (evaluator.step (place.down (.loopBody iteration)) body) with
    | .ok value => afterBody evaluator place name condition iteration value
    | .error (.raised (.breakWith value)) => do
        store name value
        pure (some value)
    | .error halt => Program.exit halt

def tooManyIterations : String :=
  "Loop exceeded maximum iteration count of " ++ toString maxLoopIterations ++
    ". Use df.break() to exit the loop or restructure the workflow."

/-- A turn of an orchestration: an iteration of a loop, or all of another workflow. -/
def turnEffect (w : Workflow) (iteration : Nat) : Effect Turn :=
  match w.shape with
  | .loop body condition continueOnFailure => do
      match ← iterate surroundings evaluator place w.name body condition continueOnFailure
          iteration with
      | some result => pure (.done result)
      | none =>
          if iteration + 1 ≥ maxLoopIterations then refuse (.failure tooManyIterations)
          else pure (.again (iteration + 1))
  | _ => do
      let result ← stepEffect surroundings evaluator place w
      pure (.done result)

/-- What an orchestration replies, turn after turn. -/
def childReply (w : Workflow) (iteration : Nat) (results : StringMap) : Option ChildReply :=
  match evaluator.turn place w iteration results with
  | (.ok (.done result), results) => some (.envelope .normal result results)
  | (.ok (.again iteration), results) => evaluator.child place w iteration results
  | (.error (.raised (.breakWith value)), results) => some (.envelope .breakLoop value results)
  | (.error (.raised (.application message)), _) =>
      some (.error (encodeSubtreeApplicationFailure message))
  | (.error (.raised (.failure message)), _) => some (.error message)
  | (.error .never, _) => none

end Steps

/-! ## Workflows -/

/-- Evaluation that nests at most `fuel` steps. -/
def evaluator (surroundings : Surroundings) : Nat → Evaluator
  | 0 => ⟨fun _ _ => Program.exit .never, fun _ _ _ => Program.exit .never, fun _ _ _ _ => none⟩
  | fuel + 1 => ⟨stepEffect surroundings (evaluator surroundings fuel),
      turnEffect surroundings (evaluator surroundings fuel),
      childReply (evaluator surroundings fuel)⟩

/-- The result of an instance, in at most so many turns. Each turn starts without named results. -/
def Workflow.run (w : Workflow) (surroundings : Surroundings) (fuel : Nat) :
    (turns iteration : Nat) → Option (Except String String)
  | 0, _ => none
  | turns + 1, iteration =>
      match ((evaluator surroundings fuel).turn ⟨[], false⟩ w iteration ∅).1 with
      | .ok (.done result) => some (functionResult (.ok result))
      | .ok (.again iteration) => w.run surroundings fuel turns iteration
      | .error (.raised error) => some (functionResult (.error error))
      | .error .never => none

end PgDurable.Dsl
