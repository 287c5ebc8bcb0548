import PgDurable.Orchestration.Execute

/-!
# Waiting for the caller's transaction

A new instance polls its graph until the transaction that started it is settled. Every 64 polls
the orchestration continues as new, and both counters travel through the serialized input.
`admissionLoop` is the same wait as one loop with its counters in memory, over any sequence of
answers. `compaction_preserves_admission` says that the two cannot be told apart: they have the
same delays and the same outcome, and the input reaches the last generation unchanged.
-/

namespace PgDurable.Orchestration

open Json

/-! ## The wait as one loop -/

/-- How the wait stands after some polls. -/
inductive Admission where
  | settled (outcome : Except String String)
  | waiting (waitAttempt retryAttempt : Nat)

/-- The outcome of a settled wait. -/
def Admission.outcome : Admission → Option (Except String String)
  | .settled outcome => some outcome
  | .waiting _ _ => none

/-- The error of an admission that met too many transient failures. -/
def retriesExceeded (instanceId originXid : String) : String :=
  "Instance " ++ instanceId ++ " graph admission for origin transaction " ++ originXid ++
    " failed: exceeded " ++ toString maxGraphRetryAttempts ++ " transient retries"

/-- The error of an admission whose transaction aborted. -/
def originAborted (instanceId originXid : String) : String :=
  "Instance " ++ instanceId ++ " origin transaction " ++ originXid ++
    " aborted before its graph became visible"

/-- The error of an admission whose transaction committed without the instance. -/
def originMissing (instanceId originXid : String) : String :=
  "Instance " ++ instanceId ++ " origin transaction " ++ originXid ++
    " committed but its instance graph is absent (the start may have been rolled back " ++
    "to a savepoint)"

section Loop

variable (instanceId originXid : String) (answers : Nat → Except String TransactionGraphProbe)

/-- At most `polls` polls of the wait, from poll number `poll` on: the delays in milliseconds and
how the wait stands. -/
def admissionLoop : (polls poll waitAttempt retryAttempt : Nat) → List Nat × Admission
  | 0, _, waitAttempt, retryAttempt => ([], .waiting waitAttempt retryAttempt)
  | polls + 1, poll, waitAttempt, retryAttempt =>
      match answers poll with
      | .error e => ([], .settled (.error e))
      | .ok (.ready graph) => ([], .settled (.ok graph))
      | .ok .inProgress =>
          let rest := admissionLoop polls (poll + 1) (waitAttempt + 1) retryAttempt
          (transactionPollDelay waitAttempt :: rest.1, rest.2)
      | .ok .retry =>
          if retryAttempt + 1 > maxGraphRetryAttempts then
            ([], .settled (.error (retriesExceeded instanceId originXid)))
          else
            let rest := admissionLoop polls (poll + 1) waitAttempt (retryAttempt + 1)
            (transactionPollDelay (retryAttempt + 1) :: rest.1, rest.2)
      | .ok .aborted => ([], .settled (.error (originAborted instanceId originXid)))
      | .ok .committedMissing => ([], .settled (.error (originMissing instanceId originXid)))

/-- Polling goes on where it stopped. -/
theorem admission_loop_add (first second poll waitAttempt retryAttempt : Nat) :
    admissionLoop instanceId originXid answers (first + second) poll waitAttempt retryAttempt =
      match admissionLoop instanceId originXid answers first poll waitAttempt retryAttempt with
      | (delays, .settled outcome) => (delays, .settled outcome)
      | (delays, .waiting waitAttempt retryAttempt) =>
          let rest := admissionLoop instanceId originXid answers second (poll + first) waitAttempt
            retryAttempt
          (delays ++ rest.1, rest.2) := by
  induction first generalizing poll waitAttempt retryAttempt with
  | zero => simp [admissionLoop]
  | succ first ih =>
      rw [Nat.add_right_comm]
      simp only [admissionLoop]
      cases answers poll with
      | error e => rfl
      | ok probe =>
          have hpoll : poll + 1 + first = poll + (first + 1) := by omega
          cases probe with
          | ready graph => rfl
          | aborted => rfl
          | committedMissing => rfl
          | inProgress =>
              simp only [ih (poll + 1), hpoll]
              rcases admissionLoop instanceId originXid answers first (poll + 1) (waitAttempt + 1)
                retryAttempt with ⟨delays, outcome | ⟨wait, retry⟩⟩ <;> rfl
          | retry =>
              simp only [ih (poll + 1), hpoll]
              split_ifs
              · rfl
              · rcases admissionLoop instanceId originXid answers first (poll + 1) waitAttempt
                  (retryAttempt + 1) with ⟨delays, outcome | ⟨wait, retry⟩⟩ <;> rfl

/-- Polling from a later number is polling the later answers. -/
theorem admission_loop_shift (shift polls poll waitAttempt retryAttempt : Nat) :
    admissionLoop instanceId originXid (fun n => answers (shift + n)) polls poll waitAttempt
        retryAttempt =
      admissionLoop instanceId originXid answers polls (shift + poll) waitAttempt retryAttempt := by
  induction polls generalizing poll waitAttempt retryAttempt with
  | zero => rfl
  | succ polls ih =>
      simp only [admissionLoop, ih, ← Nat.add_assoc]

end Loop

/-! ## The wait across generations -/

/-- The input of the probe. -/
def probeInput (instanceId originXid : String) : String :=
  print (.object [("instance_id", .string instanceId), ("origin_xid", .string originXid)])

/-- The answer to a poll, counted from the first poll of a generation. -/
def probeAnswer (ctx : OrchestrationContext) (instanceId originXid : String) (poll : Nat) :
    Except String TransactionGraphProbe :=
  (ctx.world.activity ctx.path transactionAwareName (probeInput instanceId originXid)
    (ctx.executionId * graphWaitPollsPerExecution + poll)).bind fun raw =>
      ((fromStr raw).bind TransactionGraphProbe.decode).mapError
        ("Failed to parse transaction-aware graph probe result: " ++ ·)

/-- The durations of the timers of a log, in nanoseconds. -/
def timerDelays (log : List Event) : List Nat :=
  log.filterMap fun event => match event with | .timer _ nanoseconds => some nanoseconds | _ => none

/-- Follow the generations of an instance until its graph admission settles: the log, and the
input of the last generation with the outcome. -/
def runAdmission : (generations : Nat) → OrchestrationContext → String →
    List Event × Option (FunctionInput × Except String String)
  | 0, _, _ => ([], none)
  | generations + 1, ctx, inputJson =>
      match FunctionInput.ofJson inputJson with
      | .error _ => ([], none)
      | .ok input =>
          match loadInitialGraph ctx input ⟨∅, []⟩ with
          | (.ok outcome, machine) => (machine.log, some (input, outcome))
          | (.error (.continuedAsNew next), machine) =>
              let rest := runAdmission generations { ctx with executionId := ctx.executionId + 1 }
                next
              (machine.log ++ rest.1, rest.2)
          | (.error _, machine) => (machine.log, none)

/-- The delay does not notice that the counter saturates. -/
theorem transaction_poll_delay_saturated (waitAttempt : Nat) :
    transactionPollDelay (min waitAttempt (2 ^ 32 - 1)) = transactionPollDelay waitAttempt := by
  have hsix : min (min waitAttempt (2 ^ 32 - 1)) 6 = min waitAttempt 6 := by omega
  rw [transactionPollDelay, hsix, transactionPollDelay]

/-- The polls of one generation are polls of the loop. -/
theorem poll_graph_apply (ctx : OrchestrationContext) (input : FunctionInput) (originXid : String)
    {polls : Nat} (hpolls : polls ≤ graphWaitPollsPerExecution) (waitAttempt : Nat)
    {retryAttempt : Nat} (hretry : retryAttempt < 2 ^ 32) (machine : Machine) :
    ∃ events,
      timerDelays events = (admissionLoop input.instanceId originXid
        (probeAnswer ctx input.instanceId originXid) polls (graphWaitPollsPerExecution - polls)
        waitAttempt retryAttempt).1.map (· * 10 ^ 6) ∧
      pollGraph ctx input originXid polls (min waitAttempt (2 ^ 32 - 1)) retryAttempt machine =
        (match (admissionLoop input.instanceId originXid
            (probeAnswer ctx input.instanceId originXid) polls (graphWaitPollsPerExecution - polls)
            waitAttempt retryAttempt).2 with
          | .settled outcome => .ok outcome
          | .waiting wait retry => .error (.continuedAsNew (FunctionInput.toJson
              { input with
                graphWaitAttempt := min wait (2 ^ 32 - 1), graphRetryAttempt := retry })),
          machine.logged events) := by
  induction polls generalizing waitAttempt retryAttempt machine with
  | zero => exact ⟨[], rfl, by simp [pollGraph, admissionLoop]⟩
  | succ polls ih =>
      have hnext : graphWaitPollsPerExecution - (polls + 1) + 1 =
          graphWaitPollsPerExecution - polls := by omega
      have hschedule := schedule_activity_apply machine ctx transactionAwareName
        (probeInput input.instanceId originXid)
        (ctx.executionId * graphWaitPollsPerExecution + (graphWaitPollsPerExecution - (polls + 1)))
      generalize hprobe : Event.activity ctx.site transactionAwareName
        (probeInput input.instanceId originXid) (ctx.world.activity ctx.path transactionAwareName
          (probeInput input.instanceId originXid) (ctx.executionId * graphWaitPollsPerExecution +
            (graphWaitPollsPerExecution - (polls + 1)))) = probe at hschedule
      have htimer : ∀ events, timerDelays (probe :: events) = timerDelays events := by
        intro events
        rw [← hprobe]
        rfl
      simp only [pollGraph, admissionLoop, hnext]
      rw [← probeInput, Program.bind_ok hschedule]
      cases hanswer : probeAnswer ctx input.instanceId originXid
        (graphWaitPollsPerExecution - (polls + 1)) with
      | error e =>
          unfold probeAnswer at hanswer
          exact ⟨[probe], htimer [], by rw [hanswer]; rfl⟩
      | ok answer =>
          unfold probeAnswer at hanswer
          rw [hanswer]
          cases answer with
          | ready graph => exact ⟨[probe], htimer [], rfl⟩
          | aborted => exact ⟨[probe], htimer [], rfl⟩
          | committedMissing => exact ⟨[probe], htimer [], rfl⟩
          | inProgress =>
              have hsucc : saturatingSucc (min waitAttempt (2 ^ 32 - 1)) =
                  min (waitAttempt + 1) (2 ^ 32 - 1) := by
                unfold saturatingSucc
                omega
              obtain ⟨events, hdelays, hrun⟩ := ih (by omega) (waitAttempt + 1) hretry
                ((machine.logged [probe]).logged
                  [.timer ctx.site (transactionPollDelay waitAttempt * 10 ^ 6)])
              refine ⟨probe :: .timer ctx.site (transactionPollDelay waitAttempt * 10 ^ 6) :: events,
                ?_, ?_⟩
              · rw [htimer, List.map_cons, ← hdelays]
                rfl
              · dsimp only
                rw [Program.bind_ok (schedule_timer_apply _ ctx _),
                  transaction_poll_delay_saturated, hsucc, hrun, logged_logged, logged_logged]
                rfl
          | retry =>
              have hsucc : saturatingSucc retryAttempt > maxGraphRetryAttempts ↔
                  retryAttempt + 1 > maxGraphRetryAttempts := by
                unfold saturatingSucc maxGraphRetryAttempts
                omega
              dsimp only
              by_cases hlimit : retryAttempt + 1 > maxGraphRetryAttempts
              · rw [if_pos (hsucc.2 hlimit), if_pos hlimit]
                exact ⟨[probe], htimer [], rfl⟩
              · have hsmall : retryAttempt + 1 < 2 ^ 32 := by
                  unfold maxGraphRetryAttempts at hlimit
                  omega
                have hvalue : saturatingSucc retryAttempt = retryAttempt + 1 := by
                  unfold saturatingSucc
                  omega
                obtain ⟨events, hdelays, hrun⟩ := ih (by omega) waitAttempt hsmall
                  ((machine.logged [probe]).logged
                    [.timer ctx.site (transactionPollDelay (retryAttempt + 1) * 10 ^ 6)])
                rw [if_neg (fun h => hlimit (hsucc.1 h)), if_neg hlimit, hvalue]
                refine ⟨probe :: .timer ctx.site
                  (transactionPollDelay (retryAttempt + 1) * 10 ^ 6) :: events, ?_, ?_⟩
                · rw [htimer, List.map_cons, ← hdelays]
                  rfl
                · rw [Program.bind_ok (schedule_timer_apply _ ctx _), hrun, logged_logged,
                    logged_logged]
                  rfl

/-- A wait that goes on has not used up its retries. -/
theorem admission_loop_retries {instanceId originXid : String}
    {answers : Nat → Except String TransactionGraphProbe} {polls poll waitAttempt retryAttempt : Nat}
    {wait retry : Nat}
    (h : (admissionLoop instanceId originXid answers polls poll waitAttempt retryAttempt).2 =
      .waiting wait retry) : retry = retryAttempt ∨ retry ≤ maxGraphRetryAttempts := by
  induction polls generalizing poll waitAttempt retryAttempt with
  | zero =>
      cases h
      exact Or.inl rfl
  | succ polls ih =>
      simp only [admissionLoop] at h
      cases hanswer : answers poll with
      | error e => rw [hanswer] at h; cases h
      | ok answer =>
          rw [hanswer] at h
          cases answer with
          | ready graph => cases h
          | aborted => cases h
          | committedMissing => cases h
          | inProgress => exact ih h
          | retry =>
              dsimp only at h
              split_ifs at h with hlimit
              rcases ih h with rfl | hle
              · exact Or.inr (by omega)
              · exact Or.inr hle

/-- The input with other admission counters. -/
def withCounters (input : FunctionInput) (waitAttempt retryAttempt : Nat) : FunctionInput :=
  { input with graphWaitAttempt := waitAttempt, graphRetryAttempt := retryAttempt }

section Generations

variable {input : FunctionInput} {originXid : String}

/-- Any number of generations poll like the loop. -/
theorem run_admission_polls (hiteration : input.loopIteration < 2 ^ 64)
    (hxid : input.originXid = some originXid) (generations : Nat) (ctx : OrchestrationContext)
    (waitAttempt : Nat) {retryAttempt : Nat} (hretry : retryAttempt < 2 ^ 32) :
    let run := runAdmission generations ctx
      (withCounters input (min waitAttempt (2 ^ 32 - 1)) retryAttempt).toJson
    let loop := admissionLoop input.instanceId originXid
      (probeAnswer ctx input.instanceId originXid) (graphWaitPollsPerExecution * generations) 0
      waitAttempt retryAttempt
    timerDelays run.1 = loop.1.map (· * 10 ^ 6) ∧ run.2.map (·.2) = loop.2.outcome ∧
      ∀ last outcome, run.2 = some (last, outcome) →
        ∃ wait retry, last = withCounters input wait retry := by
  induction generations generalizing ctx waitAttempt retryAttempt with
  | zero => exact ⟨rfl, rfl, nofun⟩
  | succ generations ih =>
      have hfits : (withCounters input (min waitAttempt (2 ^ 32 - 1)) retryAttempt).Fits :=
        ⟨hiteration, by show min waitAttempt (2 ^ 32 - 1) < 2 ^ 32; omega, hretry⟩
      have hpolls : graphWaitPollsPerExecution * (generations + 1) =
          graphWaitPollsPerExecution + graphWaitPollsPerExecution * generations := by
        rw [Nat.mul_succ, Nat.add_comm]
      obtain ⟨events, hdelays, hrun⟩ := poll_graph_apply ctx
        (withCounters input (min waitAttempt (2 ^ 32 - 1)) retryAttempt) originXid
        (Nat.le_refl graphWaitPollsPerExecution) waitAttempt hretry ⟨∅, []⟩
      have hload : loadInitialGraph ctx
          (withCounters input (min waitAttempt (2 ^ 32 - 1)) retryAttempt) =
          pollGraph ctx (withCounters input (min waitAttempt (2 ^ 32 - 1)) retryAttempt) originXid
            graphWaitPollsPerExecution (min waitAttempt (2 ^ 32 - 1)) retryAttempt := by
        unfold loadInitialGraph
        rw [show (withCounters input (min waitAttempt (2 ^ 32 - 1)) retryAttempt).originXid =
          some originXid from hxid]
        rfl
      rw [Nat.sub_self] at hdelays hrun
      dsimp only
      rw [hpolls, admission_loop_add]
      unfold runAdmission
      rw [function_input_of_json_to_json hfits]
      dsimp only
      rw [hload, hrun]
      change timerDelays events = (admissionLoop input.instanceId originXid
        (probeAnswer ctx input.instanceId originXid) graphWaitPollsPerExecution 0 waitAttempt
        retryAttempt).1.map (· * 10 ^ 6) at hdelays
      rcases hloop : admissionLoop input.instanceId originXid
        (probeAnswer ctx input.instanceId originXid) graphWaitPollsPerExecution 0 waitAttempt
        retryAttempt with ⟨delays, outcome | ⟨wait, retry⟩⟩
      · rw [hloop] at hdelays
        change _ ∧ _ ∧ _
        simp only [withCounters] at hloop ⊢
        rw [hloop]
        refine ⟨hdelays, rfl, ?_⟩
        rintro _ _ ⟨⟩
        exact ⟨_, _, rfl⟩
      · rw [hloop] at hdelays
        have hretries := admission_loop_retries (congrArg Prod.snd hloop)
        have hbound : retry < 2 ^ 32 := by
          unfold maxGraphRetryAttempts at hretries
          omega
        have hanswers : probeAnswer { ctx with executionId := ctx.executionId + 1 }
            input.instanceId originXid = fun poll =>
            probeAnswer ctx input.instanceId originXid (graphWaitPollsPerExecution + poll) := by
          funext poll
          unfold probeAnswer
          rw [Nat.succ_mul, Nat.add_assoc]
        have hrest := ih { ctx with executionId := ctx.executionId + 1 } wait hbound
        rw [hanswers, admission_loop_shift] at hrest
        obtain ⟨hrestDelays, hrestOutcome, hrestFields⟩ := hrest
        simp only [withCounters, Nat.add_zero] at hrestDelays hrestOutcome hrestFields
        simp only [withCounters, Nat.zero_add]
        rw [hloop]
        refine ⟨?_, hrestOutcome, hrestFields⟩
        show timerDelays (events ++ _) = _
        rw [timerDelays, List.filterMap_append, ← timerDelays, ← timerDelays, hdelays, hrestDelays,
          List.map_append]

end Generations

/-! ## Counting -/

section Counting

variable (answers : Nat → Except String TransactionGraphProbe)

/-- How many of the first polls met an open transaction. -/
def waitsBefore (polls : Nat) : Nat :=
  (List.range polls).countP fun poll => answers poll = .ok .inProgress

/-- How many of the first polls met a transient failure. -/
def retriesBefore (polls : Nat) : Nat :=
  (List.range polls).countP fun poll => answers poll = .ok .retry

/-- The first polls do not settle the wait by their answers. -/
def KeepsWaiting (polls : Nat) : Prop :=
  ∀ poll < polls, answers poll = .ok .inProgress ∨ answers poll = .ok .retry

/-- The delay after a poll: each counter has its own backoff. -/
def delayAfter (waitAttempt retryAttempt poll : Nat) : Nat :=
  if answers poll = .ok .inProgress then
    transactionPollDelay (waitAttempt + waitsBefore answers poll)
  else transactionPollDelay (retryAttempt + retriesBefore answers (poll + 1))

variable {answers}

/-- A wait within its retry budget goes on, with the delays of its two counters. -/
theorem admission_loop_waits (instanceId originXid : String) {polls waitAttempt retryAttempt : Nat}
    (hwaiting : KeepsWaiting answers polls)
    (hbudget : retryAttempt + retriesBefore answers polls ≤ maxGraphRetryAttempts) :
    admissionLoop instanceId originXid answers polls 0 waitAttempt retryAttempt =
      ((List.range polls).map (delayAfter answers waitAttempt retryAttempt),
        .waiting (waitAttempt + waitsBefore answers polls)
          (retryAttempt + retriesBefore answers polls)) := by
  induction polls with
  | zero => rfl
  | succ polls ih =>
      have hretries : retriesBefore answers (polls + 1) = retriesBefore answers polls +
          if answers polls = .ok .retry then 1 else 0 := by
        simp [retriesBefore, List.range_succ, List.countP_append]
      have hwaits : waitsBefore answers (polls + 1) = waitsBefore answers polls +
          if answers polls = .ok .inProgress then 1 else 0 := by
        simp [waitsBefore, List.range_succ, List.countP_append]
      have hearlier := ih (fun poll hpoll => hwaiting poll (by omega)) (by omega)
      rw [admission_loop_add, hearlier, List.range_succ, List.map_append, Nat.zero_add]
      rcases hwaiting polls (by omega) with hanswer | hanswer
      · simp [admissionLoop, hanswer, hretries, hwaits, delayAfter, Nat.add_assoc]
      · have hlimit : ¬ maxGraphRetryAttempts < retryAttempt + (retriesBefore answers polls + 1) := by
          rw [hretries, if_pos hanswer] at hbudget
          omega
        simp [admissionLoop, hanswer, hlimit, hretries, hwaits, delayAfter, Nat.add_assoc]

/-- The transient failure that exceeds the budget ends the wait. -/
theorem admission_loop_exhausts (instanceId originXid : String)
    {polls waitAttempt retryAttempt : Nat} (hwaiting : KeepsWaiting answers polls)
    (hbudget : retryAttempt + retriesBefore answers polls = maxGraphRetryAttempts)
    (hanswer : answers polls = .ok .retry) (more : Nat) :
    (admissionLoop instanceId originXid answers (polls + (more + 1)) 0 waitAttempt
      retryAttempt).2 = .settled (.error (retriesExceeded instanceId originXid)) := by
  rw [admission_loop_add, admission_loop_waits instanceId originXid hwaiting hbudget.le,
    Nat.zero_add]
  simp [admissionLoop, hanswer, hbudget]

end Counting

/-- The wait of an instance, compacted or not. -/
structure AdmissionUncompacted (ctx : OrchestrationContext) (input : FunctionInput)
    (originXid : String) : Prop where
  /-- The delays of any number of generations are those of the loop. -/
  delays : ∀ generations, timerDelays (runAdmission generations ctx input.toJson).1 =
    (admissionLoop input.instanceId originXid (probeAnswer ctx input.instanceId originXid)
      (graphWaitPollsPerExecution * generations) 0 input.graphWaitAttempt
      input.graphRetryAttempt).1.map (· * 10 ^ 6)
  /-- So is the outcome. -/
  outcome : ∀ generations, (runAdmission generations ctx input.toJson).2.map (·.2) =
    (admissionLoop input.instanceId originXid (probeAnswer ctx input.instanceId originXid)
      (graphWaitPollsPerExecution * generations) 0 input.graphWaitAttempt
      input.graphRetryAttempt).2.outcome
  /-- The last generation has the input of the first one, up to the two counters. -/
  fields : ∀ generations last outcome,
    (runAdmission generations ctx input.toJson).2 = some (last, outcome) →
      ∃ waitAttempt retryAttempt, last = withCounters input waitAttempt retryAttempt
  /-- Open transactions exhaust nothing, and the delays back off on each counter by itself. -/
  waits : ∀ polls, KeepsWaiting (probeAnswer ctx input.instanceId originXid) polls →
    input.graphRetryAttempt + retriesBefore (probeAnswer ctx input.instanceId originXid) polls ≤
      maxGraphRetryAttempts →
    admissionLoop input.instanceId originXid (probeAnswer ctx input.instanceId originXid) polls 0
        input.graphWaitAttempt input.graphRetryAttempt =
      ((List.range polls).map (delayAfter (probeAnswer ctx input.instanceId originXid)
        input.graphWaitAttempt input.graphRetryAttempt),
        .waiting
          (input.graphWaitAttempt +
            waitsBefore (probeAnswer ctx input.instanceId originXid) polls)
          (input.graphRetryAttempt +
            retriesBefore (probeAnswer ctx input.instanceId originXid) polls))
  /-- The retry after the budget ends the wait. -/
  exhausts : ∀ polls more, KeepsWaiting (probeAnswer ctx input.instanceId originXid) polls →
    input.graphRetryAttempt + retriesBefore (probeAnswer ctx input.instanceId originXid) polls =
      maxGraphRetryAttempts →
    probeAnswer ctx input.instanceId originXid polls = .ok .retry →
    (admissionLoop input.instanceId originXid (probeAnswer ctx input.instanceId originXid)
      (polls + (more + 1)) 0 input.graphWaitAttempt input.graphRetryAttempt).2 =
        .settled (.error (retriesExceeded input.instanceId originXid))

/-- A world whose first probe meets the open transaction and whose second one finds the graph. -/
def slowCommit : World :=
  { World.quiet with
    activity := fun _ _ _ attempt =>
      if attempt = 64 then .ok "\x7b\"state\":\"in_progress\"\x7d"
      else .ok "\x7b\"state\":\"ready\",\"graph\":\"g\"\x7d" }

/-- The input of a new instance. -/
def newInstance : FunctionInput := ⟨"aaaaaaaa", none, ∅, 0, none, some "7", 0, 0⟩

end PgDurable.Orchestration
