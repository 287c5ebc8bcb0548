import PgDurable.Library.Program

/-!
# Simulation of programs

A concrete program simulates an abstract one if it ends alike and leaves the state alike. `view` is
what the abstract program sees of the state, and `stop` and `value` are what its exits and its
values are in the concrete one. There is one rule for each way to make a program, so a simulation is
proved along the program.
-/

namespace PgDurable.Program

variable {σ τ ε δ α β γ κ : Type}

/-- An outcome in the words of the concrete program. -/
def reword (stop : δ → ε) (value : β → α) : Except δ β → Except ε α
  | .ok result => .ok (value result)
  | .error early => .error (stop early)

/-- The concrete program simulates the abstract one. -/
def Simulates (view : σ → τ) (stop : δ → ε) (value : β → α) (concrete : Program σ ε α)
    (abstract : Program τ δ β) : Prop :=
  ∀ state, (concrete state).1 = reword stop value (abstract (view state)).1 ∧
    view (concrete state).2 = (abstract (view state)).2

section Rules

variable {view : σ → τ} {stop : δ → ε} {value : β → α}

theorem simulates_pure (result : β) :
    Simulates view stop value (pure (value result)) (pure result) := fun _ => ⟨rfl, rfl⟩

theorem simulates_exit (early : δ) :
    Simulates view stop value (exit (stop early)) (exit early) := fun _ => ⟨rfl, rfl⟩

theorem simulates_modify {update : σ → σ} {update' : τ → τ}
    (h : ∀ state, view (update state) = update' (view state)) :
    Simulates view stop id (modify update) (modify update') := fun state => ⟨rfl, h state⟩

/-- A sequence simulates a sequence. -/
theorem simulates_bind {value' : κ → γ} {first : Program σ ε α} {next : α → Program σ ε γ}
    {first' : Program τ δ β} {next' : β → Program τ δ κ}
    (hfirst : Simulates view stop value first first')
    (hnext : ∀ result, Simulates view stop value' (next (value result)) (next' result)) :
    Simulates view stop value' (first >>= next) (first' >>= next') := by
  intro state
  obtain ⟨houtcome, hview⟩ := hfirst state
  rw [bind_apply, bind_apply, houtcome, ← hview]
  cases (first' (view state)).1 with
  | ok result => exact hnext result _
  | error early => exact ⟨rfl, rfl⟩

/-- A program that reads what is visible of the state. -/
theorem simulates_read {read : Program σ ε τ} {next : τ → Program σ ε α}
    {next' : τ → Program τ δ β} (hread : ∀ state, read state = (.ok (view state), state))
    (hnext : ∀ seen, Simulates view stop value (next seen) (next' seen)) :
    Simulates view stop value (read >>= next) (get >>= next') := by
  intro state
  rw [bind_ok (hread state), bind_ok (get_apply _)]
  exact hnext _ state

/-- A program that starts with what is not visible. -/
theorem simulates_silent {first : Program σ ε γ} {result : γ} {next : γ → Program σ ε α}
    {abstract : Program τ δ β}
    (hfirst : ∀ state, ∃ after, first state = (.ok result, after) ∧ view after = view state)
    (hnext : Simulates view stop value (next result) abstract) :
    Simulates view stop value (first >>= next) abstract := by
  intro state
  obtain ⟨after, hrun, hview⟩ := hfirst state
  rw [bind_ok hrun, ← hview]
  exact hnext after

/-- A program that ends before it does anything visible. -/
theorem simulates_stopped {first : Program σ ε γ} {next : γ → Program σ ε α} {early : δ}
    (hfirst : ∀ state, ∃ after, first state = (.error (stop early), after) ∧
      view after = view state) :
    Simulates view stop value (first >>= next) (exit early) := by
  intro state
  obtain ⟨after, hrun, hview⟩ := hfirst state
  rw [bind_error hrun]
  exact ⟨rfl, hview⟩

/-- Outcomes that are values simulate outcomes that are values. -/
theorem simulates_attempt {concrete : Program σ ε α} {abstract : Program τ δ β}
    (h : Simulates view stop value concrete abstract) :
    Simulates view stop (reword stop value) (attempt concrete) (attempt abstract) :=
  fun state => ⟨congrArg Except.ok (h state).1, (h state).2⟩

end Rules

end PgDurable.Program
