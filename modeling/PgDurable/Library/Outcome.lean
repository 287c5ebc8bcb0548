import Mathlib.Algebra.Order.Ring.Int
import Mathlib.Data.Int.ConditionallyCompleteOrder
import Mathlib.Data.List.Basic
import Mathlib.Data.Set.Lattice

/-!
# Recursion with fuel

`Outcome` is how a recursion ends that spends a unit of fuel at every call: the fuel runs out, or
the computation panics, or it returns. `Approximates` orders outcomes by what more fuel may change,
and `concat_ends` puts together what ends piece by piece.
-/

namespace PgDurable

inductive Outcome (α : Type) where
  | exhausted
  | panicked
  | done (value : α)
  deriving DecidableEq

namespace Outcome

variable {α β γ : Type}

protected def bind : Outcome α → (α → Outcome β) → Outcome β
  | exhausted, _ => exhausted
  | panicked, _ => panicked
  | done value, next => next value

instance : Monad Outcome where
  pure := done
  bind := Outcome.bind

theorem bind_eq_done {first : Outcome α} {next : α → Outcome β} {result : β}
    (h : first.bind next = done result) : ∃ value, first = done value ∧ next value = done result := by
  cases first with
  | exhausted => cases h
  | panicked => cases h
  | done value => exact ⟨value, rfl, h⟩

theorem bind_eq_exhausted {first : Outcome α} {next : α → Outcome β}
    (h : first.bind next = exhausted) :
    first = exhausted ∨ ∃ value, first = done value ∧ next value = exhausted := by
  cases first with
  | exhausted => exact .inl rfl
  | panicked => cases h
  | done value => exact .inr ⟨value, rfl, h⟩

theorem bind_eq_panicked {first : Outcome α} {next : α → Outcome β}
    (h : first.bind next = panicked) :
    first = panicked ∨ ∃ value, first = done value ∧ next value = panicked := by
  cases first with
  | exhausted => cases h
  | panicked => exact .inl rfl
  | done value => exact .inr ⟨value, rfl, h⟩

/-- A computation that does not run out of fuel and does not panic returns. -/
theorem returns_of_ends {outcome : Outcome α} (hends : outcome ≠ exhausted)
    (hpanics : outcome ≠ panicked) : ∃ value, outcome = done value := by
  cases outcome with
  | exhausted => exact absurd rfl hends
  | panicked => exact absurd rfl hpanics
  | done value => exact ⟨value, rfl⟩

/-- The outcome is the one with more fuel, unless fuel ran out. -/
def Approximates (less more : Outcome α) : Prop := less = exhausted ∨ less = more

theorem Approximates.refl (outcome : Outcome α) : outcome.Approximates outcome := .inr rfl

theorem Approximates.trans {first second third : Outcome α} (h : first.Approximates second)
    (h' : second.Approximates third) : first.Approximates third := by
  rcases h with h | h
  · exact .inl h
  · rw [h]
    exact h'

theorem Approximates.done {less more : Outcome α} (h : less.Approximates more) {value : α}
    (hless : less = done value) : more = .done value := by
  rcases h with h | h
  · rw [h] at hless
    cases hless
  · rw [← h, hless]

theorem Approximates.ends {less more : Outcome α} (h : less.Approximates more)
    (hless : less ≠ exhausted) : more ≠ exhausted := by
  rcases h with h | h
  · exact absurd h hless
  · rwa [← h]

theorem Approximates.bind {less more : Outcome α} {next next' : α → Outcome β}
    (h : less.Approximates more) (hnext : ∀ value, (next value).Approximates (next' value)) :
    (less.bind next).Approximates (more.bind next') := by
  rcases h with rfl | rfl
  · exact .inl rfl
  · cases less with
    | exhausted => exact .inl rfl
    | panicked => exact .inr rfl
    | done value => exact hnext value

/-! ## Lists -/

/-- Run the items one after the other and join what they return. -/
def concat : List α → (α → Outcome (List β)) → Outcome (List β)
  | [], _ => done []
  | item :: items, run => do
      let first ← run item
      let others ← concat items run
      return first ++ others

/-- What holds of no items, and of an item with what it returns in front of others, holds of all
items with what they return. -/
theorem concat_induction {P : List α → List β → Prop} {run : α → Outcome (List β)} (hnil : P [] [])
    (hcons : ∀ item part items others, run item = done part → P items others →
      P (item :: items) (part ++ others))
    {items : List α} {result : List β} (h : concat items run = done result) : P items result := by
  induction items generalizing result with
  | nil =>
      rw [← done.inj h]
      exact hnil
  | cons item items ih =>
      obtain ⟨first, hfirst, h⟩ := bind_eq_done h
      obtain ⟨others, hothers, h⟩ := bind_eq_done h
      rw [← done.inj h]
      exact hcons _ _ _ _ hfirst (ih hothers)

/-- What is returned was returned for an item. -/
theorem mem_concat {run : α → Outcome (List β)} {items : List α} {result : List β}
    (h : concat items run = done result) {value : β} (hvalue : value ∈ result) :
    ∃ item ∈ items, ∃ part, run item = done part ∧ value ∈ part := by
  refine concat_induction (P := fun items result => value ∈ result →
    ∃ item ∈ items, ∃ part, run item = done part ∧ value ∈ part) ?_ ?_ h hvalue
  · exact fun hnone => absurd hnone List.not_mem_nil
  · intro item part items others hitem ih hvalue
    rcases List.mem_append.1 hvalue with hown | hlater
    · exact ⟨item, List.mem_cons_self, part, hitem, hown⟩
    · obtain ⟨other, hother, hrest⟩ := ih hlater
      exact ⟨other, List.mem_cons_of_mem _ hother, hrest⟩

theorem concat_eq_exhausted {items : List α} {run : α → Outcome (List β)}
    (h : concat items run = exhausted) : ∃ item ∈ items, run item = exhausted := by
  induction items with
  | nil => cases h
  | cons item items ih =>
      rcases bind_eq_exhausted h with hfirst | ⟨first, -, h⟩
      · exact ⟨item, List.mem_cons_self, hfirst⟩
      rcases bind_eq_exhausted h with hothers | ⟨others, -, h⟩
      · obtain ⟨other, hother, hother'⟩ := ih hothers
        exact ⟨other, List.mem_cons_of_mem _ hother, hother'⟩
      · cases h

theorem concat_eq_panicked {items : List α} {run : α → Outcome (List β)}
    (h : concat items run = panicked) : ∃ item ∈ items, run item = panicked := by
  induction items with
  | nil => cases h
  | cons item items ih =>
      rcases bind_eq_panicked h with hfirst | ⟨first, -, h⟩
      · exact ⟨item, List.mem_cons_self, hfirst⟩
      rcases bind_eq_panicked h with hothers | ⟨others, -, h⟩
      · obtain ⟨other, hother, hother'⟩ := ih hothers
        exact ⟨other, List.mem_cons_of_mem _ hother, hother'⟩
      · cases h

theorem concat_approximates {items : List α} {run run' : α → Outcome (List β)}
    (h : ∀ item, (run item).Approximates (run' item)) :
    (concat items run).Approximates (concat items run') := by
  induction items with
  | nil => exact .refl _
  | cons item items ih => exact (h item).bind fun _ => ih.bind fun _ => .refl _

/-- A family of outcomes that only grows with fuel. -/
def GrowsWithFuel (run : Nat → Outcome α) : Prop := ∀ fuel, (run fuel).Approximates (run (fuel + 1))

theorem GrowsWithFuel.approximates {run : Nat → Outcome α} (h : GrowsWithFuel run) {less more : Nat}
    (hle : less ≤ more) : (run less).Approximates (run more) := by
  induction hle with
  | refl => exact .refl _
  | step _ ih => exact ih.trans (h _)

/-- Where every item ends with some fuel, all of them do with enough. -/
theorem concat_ends {items : List α} {run : Nat → α → Outcome (List β)}
    (hgrows : ∀ item, GrowsWithFuel fun fuel => run fuel item)
    (h : ∀ item ∈ items, ∃ fuel, run fuel item ≠ exhausted) :
    ∃ fuel, concat items (run fuel) ≠ exhausted := by
  have hmost : ∃ fuel, ∀ item ∈ items, run fuel item ≠ exhausted := by
    induction items with
    | nil => exact ⟨0, fun _ hnone => absurd hnone List.not_mem_nil⟩
    | cons item items ih =>
        obtain ⟨fuel, hfirst⟩ := h item List.mem_cons_self
        obtain ⟨fuel', hothers⟩ := ih fun other hother => h other (List.mem_cons_of_mem _ hother)
        refine ⟨max fuel fuel', List.forall_mem_cons.2 ⟨?_, ?_⟩⟩
        · exact ((hgrows item).approximates (Nat.le_max_left _ _)).ends hfirst
        · exact fun other hother =>
            ((hgrows other).approximates (Nat.le_max_right _ _)).ends (hothers other hother)
  obtain ⟨fuel, hfuel⟩ := hmost
  refine ⟨fuel, fun hexhausted => ?_⟩
  obtain ⟨item, hitem, hitem'⟩ := concat_eq_exhausted hexhausted
  exact hfuel item hitem hitem'

end Outcome

end PgDurable
