import Mathlib.Algebra.Order.Ring.Int
import Mathlib.Data.Int.ConditionallyCompleteOrder
import Mathlib.Data.List.Induction
import Mathlib.Data.Set.Lattice
import Mathlib.Order.Defs.LinearOrder

/-!
# Registers that keep the newest write

A register that rejects a write whose key is older than the key it holds and accepts every other
write. `foldl_newest` says what any finite sequence of writes leaves behind: what the
last-arriving write among those with the greatest key left when it arrived.
-/

namespace PgDurable.Newest

variable {α κ σ : Type} [LinearOrder κ] {key : α → κ}

/-- `write` is the last of the writes with the greatest key: nothing before it is newer and
everything after it is older. -/
structure IsNewest (key : α → κ) (writes before : List α) (write : α) (after : List α) :
    Prop where
  split : writes = before ++ write :: after
  before_le : ∀ other ∈ before, key other ≤ key write
  after_lt : ∀ other ∈ after, key other < key write

/-- The newest write is one of the writes. -/
theorem IsNewest.mem {writes before after : List α} {write : α}
    (h : IsNewest key writes before write after) : write ∈ writes := by
  rw [h.split]
  simp

/-- No write has a greater key than the newest one. -/
theorem IsNewest.le {writes before after : List α} {write : α}
    (h : IsNewest key writes before write after) : ∀ other ∈ writes, key other ≤ key write := by
  intro other hother
  rw [h.split, List.mem_append, List.mem_cons] at hother
  rcases hother with hother | rfl | hother
  · exact h.before_le other hother
  · exact le_refl _
  · exact le_of_lt (h.after_lt other hother)

/-- Any other write with the greatest key arrives before the newest one. -/
theorem IsNewest.later {writes before after front rest : List α} {write other : α}
    (h : IsNewest key writes before write after) (hsplit : writes = front ++ other :: rest)
    (hkey : key write ≤ key other) : other = write ∨ write ∈ rest := by
  have heq : before ++ write :: after = front ++ other :: rest := h.split.symm.trans hsplit
  rcases List.append_eq_append_iff.1 heq with ⟨gap, hfront, hrest⟩ | ⟨gap, hbefore, hrest⟩
  · cases gap with
    | nil => exact Or.inl (List.cons.inj hrest).1.symm
    | cons first gap =>
        have hafter : other ∈ after := by
          rw [(List.cons.inj hrest).2]
          simp
        exact absurd (h.after_lt other hafter) (not_lt_of_ge hkey)
  · cases gap with
    | nil => exact Or.inl (List.cons.inj hrest).1
    | cons first gap =>
        right
        rw [(List.cons.inj hrest).2]
        simp

/-- The newest of the images is the image of the newest. -/
theorem IsNewest.of_map {β : Type} {f : β → α} {others : List β} {before after : List α}
    {write : α} (h : IsNewest key (others.map f) before write after) :
    ∃ front other rest, IsNewest (fun other => key (f other)) others front other rest ∧
      f other = write := by
  obtain ⟨front, tail, hsplit, rfl, htail⟩ := List.map_eq_append_iff.1 h.split
  obtain ⟨other, rest, rfl, rfl, rfl⟩ := List.map_eq_cons_iff.1 htail
  refine ⟨front, other, rest, ⟨hsplit, ?_, ?_⟩, rfl⟩
  · exact fun earlier hmem => h.before_le _ (List.mem_map_of_mem hmem)
  · exact fun later hmem => h.after_lt _ (List.mem_map_of_mem hmem)

/-- A later write that is not older becomes the newest one. -/
theorem IsNewest.accept {writes before after : List α} {write later : α}
    (h : IsNewest key writes before write after) (hlater : key write ≤ key later) :
    IsNewest key (writes ++ [later]) writes later [] where
  split := rfl
  before_le := fun other hother => le_trans (h.le other hother) hlater
  after_lt := by simp

/-- A later write that is older leaves the newest one. -/
theorem IsNewest.reject {writes before after : List α} {write later : α}
    (h : IsNewest key writes before write after) (hlater : key later < key write) :
    IsNewest key (writes ++ [later]) before write (after ++ [later]) where
  split := by simp [h.split]
  before_le := h.before_le
  after_lt := by
    intro other hother
    rw [List.mem_append, List.mem_singleton] at hother
    rcases hother with hother | rfl
    · exact h.after_lt other hother
    · exact hlater

/-- Folding a register over writes leaves what the newest write left. `held` is the key a state
holds, and `Inv` is an invariant of the states that the acceptance rule may use. -/
theorem foldl_newest (step : σ → α → σ) (held : σ → Option κ) (Inv : σ → Prop)
    {writes : List α} {start : σ} (hstart : held start = none) (hinv : Inv start)
    (hne : writes ≠ [])
    (haccept : ∀ write ∈ writes, ∀ state, Inv state →
      (∀ old, held state = some old → old ≤ key write) →
      held (step state write) = some (key write) ∧ Inv (step state write))
    (hreject : ∀ write ∈ writes, ∀ state old, Inv state → held state = some old →
      key write < old → step state write = state) :
    ∃ before write after, IsNewest key writes before write after ∧
      Inv (before.foldl step start) ∧
      (∀ old, held (before.foldl step start) = some old → old ≤ key write) ∧
      writes.foldl step start = step (before.foldl step start) write := by
  induction writes using List.reverseRecOn with
  | nil => exact absurd rfl hne
  | append_singleton writes later ih =>
      rw [List.foldl_append, List.foldl_cons, List.foldl_nil]
      by_cases hempty : writes = []
      · subst hempty
        exact ⟨[], later, [], ⟨rfl, by simp, by simp⟩, hinv, by simp [hstart], rfl⟩
      · obtain ⟨before, write, after, hnewest, hbefore, hadmitted, hfold⟩ := ih hempty
          (fun write hmem => haccept write (by simp [hmem]))
          (fun write hmem => hreject write (by simp [hmem]))
        obtain ⟨hheld, hstep⟩ := haccept write (by simp [hnewest.mem]) _ hbefore hadmitted
        rw [← hfold] at hheld hstep
        rcases lt_or_ge (key later) (key write) with hold | hnew
        · refine ⟨before, write, after ++ [later], hnewest.reject hold, hbefore, hadmitted, ?_⟩
          rw [hreject later (by simp) _ _ hstep hheld hold, hfold]
        · refine ⟨writes, later, [], hnewest.accept hnew, hstep, fun old hold => ?_, rfl⟩
          rw [hheld, Option.some.injEq] at hold
          exact hold ▸ hnew

end PgDurable.Newest
