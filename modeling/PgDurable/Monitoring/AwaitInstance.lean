import Mathlib.Algebra.Order.Ring.Int
import Mathlib.Data.Int.ConditionallyCompleteOrder
import Mathlib.Data.List.Basic
import Mathlib.Data.Set.Lattice

/-!
# Waiting for an instance

`awaitInstance` polls the status of an instance ten times a second. The bound on the polls and the
counter are 32-bit integers, and builds differ in what they do when a product or a sum does not fit.
`honoured_iff` says for which timeouts the call polls as often as it promises.
-/

namespace PgDurable.AwaitInstance

/-! ## 32-bit integers -/

/-- The value of an `i32`. -/
def Fits (n : Int) : Prop := -2 ^ 31 ≤ n ∧ n < 2 ^ 31

instance (n : Int) : Decidable (Fits n) := inferInstanceAs (Decidable (_ ∧ _))

/-- Builds check arithmetic, or wrap around. -/
inductive Build where
  | checked
  | wrapping
  deriving DecidableEq

/-- What an operation with this result leaves: nothing where a checked build panics. -/
def Build.result (build : Build) (n : Int) : Option Int :=
  if Fits n then some n
  else
    match build with
    | checked => none
    | wrapping => some (n.bmod (2 ^ 32))

theorem Build.result_of_fits (build : Build) {n : Int} (h : Fits n) : build.result n = some n :=
  if_pos h

/-- No build leaves a result that does not fit. -/
theorem Build.result_ne (build : Build) {n : Int} (h : ¬ Fits n) : build.result n ≠ some n := by
  unfold Build.result
  rw [if_neg h]
  cases build with
  | checked => exact fun heq => (by cases heq)
  | wrapping =>
      intro heq
      have hwrapped : n.bmod (2 ^ 32) = n := Option.some.inj heq
      refine h ⟨?_, ?_⟩
      · rw [← hwrapped]
        exact Int.le_bmod (by decide)
      · rw [← hwrapped]
        exact Int.bmod_lt (by decide)

/-! ## Polling -/

/-- `to_lowercase`, as far as it decides: no character but an ASCII letter has a letter of the three
final statuses as its lower case. -/
def lowercase (status : String) : String := String.ofList (status.toList.map Char.toLower)

def isTerminal (status : String) : Bool :=
  ["completed", "failed", "cancelled"].contains (lowercase status)

/-- How a call ends. -/
inductive Outcome where
  | returned (status : String)
  | timedOut (message : String)
  | failed (message : String)
  | refused (message : String)
  /-- A checked build panicked. -/
  | overflowed
  deriving DecidableEq

structure Call where
  instanceId : String
  timeoutSeconds : Int

/-- The bound on the polls. -/
def maxAttempts (build : Build) (timeoutSeconds : Int) : Option Int :=
  build.result (timeoutSeconds * 10)

/-- The error of a call that times out. -/
def Call.timeoutError (call : Call) (status : String) : String :=
  "Timeout after " ++ toString call.timeoutSeconds ++ "s waiting for instance " ++
    call.instanceId ++ " (status: " ++ status ++ "). Check if background worker is running."

/-- One poll with what the query observes: the end of the call, or the new count of attempts. -/
def poll (build : Build) (call : Call) (maxAttempts attempts : Int) :
    Except String (Option String) → Outcome ⊕ Int
  | .error e => .inl (.failed ("Failed to query status: " ++ e))
  | .ok none => .inl (.failed ("Instance not found: " ++ call.instanceId))
  | .ok (some status) =>
      if isTerminal status then .inl (.returned (lowercase status))
      else
        match build.result (attempts + 1) with
        | none => .inl .overflowed
        | some next =>
            if next ≥ maxAttempts then .inl (.timedOut (call.timeoutError status)) else .inr next

/-- The polling loop, with at most `fuel` polls: how it ends, and after how many polls in all. -/
def pollLoop (build : Build) (call : Call) (maxAttempts : Int)
    (observe : Nat → Except String (Option String)) : Nat → Nat → Int → Option (Outcome × Nat)
  | 0, _, _ => none
  | fuel + 1, polls, attempts =>
      match poll build call maxAttempts attempts (observe polls) with
      | .inl outcome => some (outcome, polls + 1)
      | .inr next => pollLoop build call maxAttempts observe fuel (polls + 1) next

/-- Wait until the instance ends. `observe` is what the polls see, one after the other. -/
def awaitInstance (build : Build) (inWorkflow : Bool) (call : Call)
    (observe : Nat → Except String (Option String)) (fuel : Nat) : Option (Outcome × Nat) :=
  if inWorkflow then
    some (.refused ("df.await_instance() cannot be called inside a workflow - it would block a " ++
      "worker thread (and self-deadlock if waiting on the current instance). Use df.signal() " ++
      "and df.wait_for_signal() for cross-workflow coordination."), 0)
  else if call.timeoutSeconds ≤ 0 then some (.refused "Timeout must be positive", 0)
  else
    match maxAttempts build call.timeoutSeconds with
    | none => some (.overflowed, 0)
    | some bound => pollLoop build call bound observe fuel 0 0

/-! ## Honoured timeouts -/

/-- The polls see these statuses. -/
def observed (statuses : Nat → String) : Nat → Except String (Option String) :=
  fun index => .ok (some (statuses index))

/-- A build honours a timeout: the bound is ten times the timeout, the first final status within so
many polls is returned at its poll, and without one the call times out after exactly so many. -/
structure Honoured (build : Build) (timeoutSeconds : Int) : Prop where
  bound : maxAttempts build timeoutSeconds = some (10 * timeoutSeconds)
  returned : ∀ instanceId statuses (k : Nat), (k : Int) < 10 * timeoutSeconds →
    isTerminal (statuses k) → (∀ j < k, ¬ isTerminal (statuses j)) → ∀ fuel > k,
      awaitInstance build false ⟨instanceId, timeoutSeconds⟩ (observed statuses) fuel =
        some (.returned (lowercase (statuses k)), k + 1)
  timedOut : ∀ instanceId statuses (n : Nat), (n : Int) = 10 * timeoutSeconds →
    (∀ j < n, ¬ isTerminal (statuses j)) → ∀ fuel ≥ n,
      ∃ status, awaitInstance build false ⟨instanceId, timeoutSeconds⟩ (observed statuses) fuel =
        some (.timedOut (Call.timeoutError ⟨instanceId, timeoutSeconds⟩ status), n)

section Loop

variable (build : Build) (call : Call) {bound : Int} (hbound : Fits bound)

include hbound

/-- A poll of a status that is not final counts, below the bound. -/
theorem poll_counts {polls : Nat} (hbelow : (polls : Int) + 1 < bound) {status : String}
    (hstatus : ¬ isTerminal status) :
    poll build call bound polls (.ok (some status)) = .inr ((polls + 1 : Nat) : Int) := by
  have hfits : Fits ((polls : Int) + 1) := ⟨by omega, lt_trans hbelow hbound.2⟩
  have hmore : ¬ (polls : Int) + 1 ≥ bound := not_le.2 hbelow
  simp only [poll, if_neg hstatus, build.result_of_fits hfits, if_neg hmore]
  rfl

variable {statuses : Nat → String}

/-- Polls of statuses that are not final leave the counter at their number. -/
theorem loop_continues (count : Nat) : ∀ polls : Nat, ((polls + count : Nat) : Int) < bound →
    (∀ j, polls ≤ j → j < polls + count → ¬ isTerminal (statuses j)) → ∀ fuel,
      pollLoop build call bound (observed statuses) (fuel + count) polls polls =
        pollLoop build call bound (observed statuses) fuel (polls + count)
          ((polls + count : Nat) : Int) := by
  induction count with
  | zero => exact fun _ _ _ _ => rfl
  | succ count ih =>
      intro polls hbelow hstatuses fuel
      have hfirst : ¬ isTerminal (statuses polls) := hstatuses polls le_rfl (by omega)
      have hstep : poll build call bound polls (observed statuses polls) =
          .inr ((polls + 1 : Nat) : Int) := poll_counts build call hbound (by omega) hfirst
      have hlater := ih (polls + 1) (by omega)
        (fun j hj hj' => hstatuses j (by omega) (by omega)) fuel
      have hsum : polls + (count + 1) = polls + 1 + count := by omega
      show pollLoop build call bound (observed statuses) (fuel + count + 1) polls polls = _
      rw [pollLoop, hstep, hsum]
      exact hlater

/-- The first final status below the bound is returned at its poll. -/
theorem loop_returns {k : Nat} (hk : (k : Int) < bound) (hterminal : isTerminal (statuses k))
    (hbefore : ∀ j < k, ¬ isTerminal (statuses j)) {fuel : Nat} (hfuel : fuel > k) :
    pollLoop build call bound (observed statuses) fuel 0 0 =
      some (.returned (lowercase (statuses k)), k + 1) := by
  obtain ⟨extra, rfl⟩ := Nat.exists_eq_add_of_lt hfuel
  have hsum : k + extra + 1 = extra + 1 + k := by omega
  have hpolls := loop_continues build call hbound k 0 (by omega)
    (fun j _ hj => hbefore j (by omega)) (extra + 1)
  rw [Nat.zero_add] at hpolls
  rw [hsum]
  refine hpolls.trans ?_
  simp only [pollLoop, observed, poll, hterminal, if_true]

/-- Without a final status the loop times out at the bound. -/
theorem loop_times_out {n : Nat} (hn : (n : Int) = bound) (hpos : 0 < n)
    (hstatuses : ∀ j < n, ¬ isTerminal (statuses j)) {fuel : Nat} (hfuel : fuel ≥ n) :
    ∃ status, pollLoop build call bound (observed statuses) fuel 0 0 =
      some (.timedOut (call.timeoutError status), n) := by
  obtain ⟨last, rfl⟩ := Nat.exists_eq_succ_of_ne_zero (Nat.ne_of_gt hpos)
  obtain ⟨extra, rfl⟩ := Nat.exists_eq_add_of_le hfuel
  have hsum : last.succ + extra = extra + 1 + last := by omega
  have hpolls := loop_continues build call hbound last 0 (by omega)
    (fun j _ hj => hstatuses j (by omega)) (extra + 1)
  rw [Nat.zero_add] at hpolls
  have hlast : ¬ isTerminal (statuses last) := hstatuses last (Nat.lt_succ_self last)
  have hcount : (last : Int) + 1 = bound := by omega
  have hend : poll build call bound last (observed statuses last) =
      .inl (.timedOut (call.timeoutError (statuses last))) := by
    simp only [poll, observed, if_neg hlast, hcount, build.result_of_fits hbound, ge_iff_le,
      le_refl, if_true]
  refine ⟨statuses last, ?_⟩
  rw [hsum]
  refine hpolls.trans ?_
  rw [pollLoop, hend]

end Loop

/-- A timeout is honoured, in every build, exactly if ten times it fits into 32 bits. -/
theorem honoured_iff (build : Build) {timeoutSeconds : Int} (hpositive : 0 < timeoutSeconds) :
    Honoured build timeoutSeconds ↔ timeoutSeconds ≤ 214748364 := by
  have hproduct : timeoutSeconds * 10 = 10 * timeoutSeconds := mul_comm _ _
  have hfits : Fits (10 * timeoutSeconds) ↔ timeoutSeconds ≤ 214748364 := by
    unfold Fits
    omega
  constructor
  · intro h
    by_contra hlarge
    have hbound := h.bound
    rw [maxAttempts, hproduct] at hbound
    exact build.result_ne (mt hfits.1 hlarge) hbound
  · intro hsmall
    have hbound : maxAttempts build timeoutSeconds = some (10 * timeoutSeconds) := by
      rw [maxAttempts, hproduct]
      exact build.result_of_fits (hfits.2 hsmall)
    have hrun : ∀ instanceId statuses fuel,
        awaitInstance build false ⟨instanceId, timeoutSeconds⟩ (observed statuses) fuel =
          pollLoop build ⟨instanceId, timeoutSeconds⟩ (10 * timeoutSeconds) (observed statuses)
            fuel 0 0 := by
      intro instanceId statuses fuel
      simp only [awaitInstance, Bool.false_eq_true, if_false, if_neg (not_le.2 hpositive), hbound]
    constructor
    case bound => exact hbound
    case returned =>
      intro instanceId statuses k hk hterminal hbefore fuel hfuel
      rw [hrun]
      exact loop_returns build _ (hfits.2 hsmall) hk hterminal hbefore hfuel
    case timedOut =>
      intro instanceId statuses n hn hstatuses fuel hfuel
      rw [hrun]
      exact loop_times_out build _ (hfits.2 hsmall) hn (by omega) hstatuses hfuel

/-- The theorem at the default timeout. -/
theorem default_timeout_honoured : 0 < (30 : Int) ∧ Honoured .wrapping 30 :=
  ⟨by decide, (honoured_iff .wrapping (by decide)).2 (by decide)⟩

/-- At the first larger timeout one build times out after one poll, and the other panics. -/
theorem large_timeout_not_honoured :
    Fits 214748365 ∧
      awaitInstance .wrapping false ⟨"a1b2c3d4", 214748365⟩ (observed fun _ => "running") 1 =
        some (.timedOut (Call.timeoutError ⟨"a1b2c3d4", 214748365⟩ "running"), 1) ∧
      awaitInstance .checked false ⟨"a1b2c3d4", 214748365⟩ (observed fun _ => "running") 1 =
        some (.overflowed, 0) ∧
      ¬ Honoured .wrapping 214748365 ∧ ¬ Honoured .checked 214748365 := by
  refine ⟨by decide, by decide +kernel, by decide +kernel, fun h => ?_, fun h => ?_⟩
  · exact absurd h.bound (by decide)
  · exact absurd h.bound (by decide)

end PgDurable.AwaitInstance
