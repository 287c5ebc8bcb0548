import Mathlib.Algebra.Order.Ring.Int
import Mathlib.Data.Int.ConditionallyCompleteOrder
import Mathlib.Data.Set.Lattice
import Mathlib.Logic.Basic

/-!
# Programs with state and early exit

A program reads and updates a state and ends with a value or with an early exit; the state it
leaves is kept in both cases. `bind_apply` executes a sequence symbolically. `Moves R` says that a
program moves the state along the relation `R`, whatever its outcome.
-/

namespace PgDurable

/-- A program over states `σ` that ends with a value or with an exit of type `ε`. -/
def Program (σ ε α : Type) := σ → Except ε α × σ

namespace Program

variable {σ ε α β : Type}

/-- Sequencing stops at the first exit. -/
instance : Monad (Program σ ε) where
  pure value := fun state => (.ok value, state)
  bind first next := fun state =>
    match first state with
    | (.ok value, state) => next value state
    | (.error stop, state) => (.error stop, state)

/-- Read the state. -/
def get : Program σ ε σ := fun state => (.ok state, state)

/-- Update the state. -/
def modify (update : σ → σ) : Program σ ε Unit := fun state => (.ok (), update state)

/-- Exit early. -/
def exit (stop : ε) : Program σ ε α := fun state => (.error stop, state)

/-- Run a program and turn its exit into a value. -/
def attempt (program : Program σ ε α) : Program σ ε (Except ε α) := fun state =>
  (.ok (program state).1, (program state).2)

@[simp] theorem pure_apply (value : α) (state : σ) :
    (pure value : Program σ ε α) state = (.ok value, state) := rfl

@[simp] theorem get_apply (state : σ) : (get : Program σ ε σ) state = (.ok state, state) := rfl

@[simp] theorem modify_apply (update : σ → σ) (state : σ) :
    (modify update : Program σ ε Unit) state = (.ok (), update state) := rfl

@[simp] theorem exit_apply (stop : ε) (state : σ) :
    (exit stop : Program σ ε α) state = (.error stop, state) := rfl

@[simp] theorem attempt_apply (program : Program σ ε α) (state : σ) :
    attempt program state = (.ok (program state).1, (program state).2) := rfl

/-- A sequence runs its first program and then, on a value, the next one. -/
theorem bind_apply (first : Program σ ε α) (next : α → Program σ ε β) (state : σ) :
    (first >>= next) state =
      match (first state).1 with
      | .ok value => next value (first state).2
      | .error stop => (.error stop, (first state).2) := by
  change (match first state with
    | (.ok value, state) => next value state
    | (.error stop, state) => (.error stop, state)) = _
  obtain ⟨outcome, after⟩ := first state
  cases outcome <;> rfl

/-- A sequence whose first program ends with a value. -/
theorem bind_ok {first : Program σ ε α} {next : α → Program σ ε β} {state after : σ} {value : α}
    (h : first state = (.ok value, after)) : (first >>= next) state = next value after := by
  rw [bind_apply, h]

/-- A sequence whose first program exits. -/
theorem bind_error {first : Program σ ε α} {next : α → Program σ ε β} {state after : σ}
    {stop : ε} (h : first state = (.error stop, after)) :
    (first >>= next) state = (.error stop, after) := by
  rw [bind_apply, h]

/-- Programs obey the monad laws. -/
instance : LawfulMonad (Program σ ε) :=
  LawfulMonad.mk' (Program σ ε)
    (fun program => by
      funext state
      change (program >>= pure) state = _
      rw [bind_apply]
      obtain ⟨outcome, after⟩ := program state
      cases outcome <;> rfl)
    (fun _ _ => rfl)
    (fun first second third => by
      funext state
      simp only [bind_apply]
      cases (first state).1 <;> rfl)

/-! ## Moving along relations -/

/-- The program moves the state along `R` whatever its outcome. -/
def Moves (R : σ → σ → Prop) (program : Program σ ε α) : Prop :=
  ∀ state, R state (program state).2

section Moves

variable {R S T : σ → σ → Prop}

/-- A program moves along every larger relation. -/
theorem Moves.mono {program : Program σ ε α} (h : Moves R program)
    (hRS : ∀ {before after}, R before after → S before after) : Moves S program :=
  fun state => hRS (h state)

/-- A sequence moves along both relations, or stops after the first. -/
theorem moves_bind {first : Program σ ε α} {next : α → Program σ ε β}
    (hstop : ∀ {before after}, R before after → T before after)
    (htrans : ∀ {before middle after}, R before middle → S middle after → T before after)
    (hfirst : Moves R first) (hnext : ∀ value, Moves S (next value)) :
    Moves T (first >>= next) := by
  intro state
  have hone := hfirst state
  rw [bind_apply]
  cases (first state).1 with
  | ok value => exact htrans hone (hnext value _)
  | error stop => exact hstop hone

end Moves

end Program

end PgDurable
