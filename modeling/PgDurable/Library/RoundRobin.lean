import Mathlib.Algebra.Order.Ring.Int
import Mathlib.Data.Int.ConditionallyCompleteOrder
import Mathlib.Data.List.Nodup
import Mathlib.Data.Prod.Lex
import Mathlib.Data.Set.Lattice

/-!
# Taking turns in rounds

Members take turns in rounds, and within a round in their order. A member that a turn finishes has
no further turn. `count_between` says that between two turns of a member every other member has
exactly one turn, unless it was finished before.
-/

namespace PgDurable.RoundRobin

variable {κ : Type}

/-- A turn of a member, with the members that are registered at the time and whether the turn
finishes the member. -/
structure Turn (κ : Type) where
  round : Nat
  member : κ
  registered : List κ
  finished : Bool

/-- The place of a turn in the order of all turns. -/
def Turn.slot (turn : Turn κ) : Nat ×ₗ κ := toLex (turn.round, turn.member)

/-- The member has its turn in the round, unless an earlier one finished it. -/
def Served (turns : List (Turn κ)) (round : Nat) (member : κ) : Prop :=
  ∃ turn ∈ turns, turn.member = member ∧
    (turn.round = round ∨ turn.round < round ∧ turn.finished = true)

variable [LinearOrder κ]

/-- Turns in order that leave out no registered member. -/
structure TakesTurns (turns : List (Turn κ)) : Prop where
  sorted : turns.Pairwise fun first second => first.slot < second.slot
  ended : turns.Pairwise fun first second => first.finished = true → second.member ≠ first.member
  own : ∀ turn ∈ turns, turn.member ∈ turn.registered
  served : ∀ turn ∈ turns, ∀ member ∈ turn.registered, ∀ round,
    toLex (round, member) ≤ turn.slot → Served turns round member

variable {turns front between back : List (Turn κ)} {first second turn : Turn κ} {member : κ}

theorem Served.mono {turns' : List (Turn κ)} {round : Nat} (h : Served turns round member)
    (hturns : ∀ turn ∈ turns, turn ∈ turns') : Served turns' round member := by
  obtain ⟨turn, hturn, hserved⟩ := h
  exact ⟨turn, hturns turn hturn, hserved⟩

/-- Another turn at the end. -/
theorem TakesTurns.snoc (h : TakesTurns turns)
    (hlast : ∀ earlier ∈ turns, earlier.slot < turn.slot)
    (hended : ∀ earlier ∈ turns, earlier.finished = true → turn.member ≠ earlier.member)
    (hown : turn.member ∈ turn.registered)
    (hserved : ∀ member ∈ turn.registered, ∀ round, toLex (round, member) ≤ turn.slot →
      Served (turns ++ [turn]) round member) : TakesTurns (turns ++ [turn]) where
  sorted := List.pairwise_append.2 ⟨h.sorted, List.pairwise_singleton _ _, fun earlier hearlier last
    hlast' => by rw [List.mem_singleton.1 hlast']; exact hlast earlier hearlier⟩
  ended := List.pairwise_append.2 ⟨h.ended, List.pairwise_singleton _ _, fun earlier hearlier last
    hlast' => by rw [List.mem_singleton.1 hlast']; exact hended earlier hearlier⟩
  own := List.forall_mem_append.2 ⟨h.own, List.forall_mem_singleton.2 hown⟩
  served := List.forall_mem_append.2 ⟨fun earlier hearlier member hmember round hround =>
    (h.served earlier hearlier member hmember round hround).mono fun _ hturn =>
      List.mem_append_left _ hturn, List.forall_mem_singleton.2 hserved⟩

theorem slot_lt_iff {first second : Turn κ} : first.slot < second.slot ↔
    first.round < second.round ∨ first.round = second.round ∧ first.member < second.member :=
  Prod.Lex.toLex_lt_toLex

/-- A turn with an earlier place stands in front. -/
theorem mem_front (hsorted : (front ++ first :: back).Pairwise fun a b => a.slot < b.slot)
    (hturn : turn ∈ front ++ first :: back) (hlt : turn.slot < first.slot) : turn ∈ front := by
  obtain ⟨-, hbehind, -⟩ := List.pairwise_append.1 hsorted
  rcases List.mem_append.1 hturn with hfront | hrest
  · exact hfront
  rcases List.mem_cons.1 hrest with rfl | hback
  · exact absurd hlt (lt_irrefl _)
  · exact absurd hlt (lt_asymm ((List.pairwise_cons.1 hbehind).1 turn hback))

/-- A turn with a later place stands behind. -/
theorem mem_back (hsorted : (front ++ first :: back).Pairwise fun a b => a.slot < b.slot)
    (hturn : turn ∈ front ++ first :: back) (hlt : first.slot < turn.slot) : turn ∈ back := by
  obtain ⟨-, -, hbefore⟩ := List.pairwise_append.1 hsorted
  rcases List.mem_append.1 hturn with hfront | hrest
  · exact absurd hlt (lt_asymm (hbefore turn hfront first List.mem_cons_self))
  rcases List.mem_cons.1 hrest with rfl | hback
  · exact absurd hlt (lt_irrefl _)
  · exact hback

/-- A member's next turn is in the next round. -/
theorem next_round (h : TakesTurns (front ++ first :: (between ++ second :: back)))
    (hsame : first.member = second.member) (hnone : first.member ∉ between.map (·.member)) :
    second.round = first.round + 1 := by
  obtain ⟨hsorted, hended, hown, hserved⟩ := h
  have hbehind := (List.pairwise_append.1 hsorted).2.1
  have hlt : first.slot < second.slot :=
    (List.pairwise_cons.1 hbehind).1 second (List.mem_append_right _ List.mem_cons_self)
  have hround : first.round < second.round := by
    rcases slot_lt_iff.1 hlt with hlt | ⟨-, hlt⟩
    · exact hlt
    · rw [hsame] at hlt
      exact absurd hlt (lt_irrefl _)
  have hsecond : second ∈ front ++ first :: (between ++ second :: back) :=
    List.mem_append_right _ (List.mem_cons_of_mem _ (List.mem_append_right _ List.mem_cons_self))
  have hslot : toLex (first.round + 1, second.member) ≤ second.slot := by
    refine Prod.Lex.toLex_le_toLex.2 ?_
    rcases Nat.lt_or_eq_of_le hround with hlt | heq
    · exact .inl hlt
    · exact .inr ⟨heq, le_refl _⟩
  obtain ⟨turn, hturn, hmember, hcase⟩ :=
    hserved second hsecond second.member (hown second hsecond) _ hslot
  -- The turns up to the second one, as the front of it.
  rw [← List.cons_append, ← List.append_assoc] at hsorted hended hturn
  rcases hcase with hnext | ⟨hearlier, hfinished⟩
  · by_contra hne
    have hbefore : turn.slot < second.slot := slot_lt_iff.2 (.inl (by omega))
    have hfront := mem_front hsorted hturn hbefore
    have hafter : first.slot < turn.slot := slot_lt_iff.2 (.inl (by omega))
    have hmem := mem_back (hsorted.sublist (List.sublist_append_left _ _)) hfront hafter
    exact hnone (List.mem_map.2 ⟨turn, hmem, hmember.trans hsame.symm⟩)
  · have hbefore : turn.slot < second.slot := slot_lt_iff.2 (.inl (by omega))
    have hfront := mem_front hsorted hturn hbefore
    have hlater := (List.pairwise_append.1 hended).2.2 turn hfront second List.mem_cons_self
    exact absurd hmember.symm (hlater hfinished)

/-- Between two turns of a member in successive rounds there is place for one turn of another. -/
theorem place_between (hround : second.round = first.round + 1)
    (hsame : first.member = second.member) {other : κ} (hne : other ≠ first.member) :
    ∃ round, toLex (round, other) ≤ second.slot ∧ ∀ turn : Turn κ, turn.member = other →
      (first.slot < turn.slot ∧ turn.slot < second.slot ↔ turn.round = round) ∧
      (turn.round < round → turn.slot < first.slot) := by
  rcases lt_or_gt_of_ne hne with hlt | hlt
  · refine ⟨first.round + 1, Prod.Lex.toLex_le_toLex.2 (.inr ⟨hround.symm, ?_⟩), ?_⟩
    · rw [← hsame]
      exact hlt.le
    · intro turn hturn
      have hnot : ¬ first.member < other := lt_asymm hlt
      rw [slot_lt_iff, slot_lt_iff, slot_lt_iff, hturn, ← hsame, hround]
      simp only [hlt, hnot, and_true, and_false, or_false]
      omega
  · refine ⟨first.round, Prod.Lex.toLex_le_toLex.2 (.inl (by rw [hround]; omega)), ?_⟩
    intro turn hturn
    have hnot : ¬ other < first.member := lt_asymm hlt
    rw [slot_lt_iff, slot_lt_iff, slot_lt_iff, hturn, ← hsame, hround]
    simp only [hlt, hnot, and_true, and_false, or_false]
    omega

/-- Between two turns of a member every other registered member has one turn, unless an earlier
turn finished it. -/
theorem count_between (h : TakesTurns (front ++ first :: (between ++ second :: back)))
    (hsame : first.member = second.member) (hnone : first.member ∉ between.map (·.member))
    {other : κ} (hother : other ∈ second.registered) (hne : other ≠ first.member) :
    (between.map (·.member)).count other =
      if ∃ turn ∈ front, turn.member = other ∧ turn.finished = true then 0 else 1 := by
  have hround := next_round h hsame hnone
  obtain ⟨hsorted, hended, hown, hserved⟩ := h
  have hsecond : second ∈ front ++ first :: (between ++ second :: back) :=
    List.mem_append_right _ (List.mem_cons_of_mem _ (List.mem_append_right _ List.mem_cons_self))
  have hbehind := List.pairwise_cons.1 (List.pairwise_append.1 hsorted).2.1
  have hinside : ∀ turn ∈ between, first.slot < turn.slot ∧ turn.slot < second.slot :=
    fun turn hturn => ⟨hbehind.1 turn (List.mem_append_left _ hturn),
      (List.pairwise_append.1 hbehind.2).2.2 turn hturn second List.mem_cons_self⟩
  have hnodup : (between.map (·.member)).Nodup := by
    refine List.pairwise_map.2 ((List.pairwise_append.1 hbehind.2).1.imp_of_mem ?_)
    intro a b ha hb hlt heq
    have hne' : b.member ≠ first.member := fun h => hnone (List.mem_map.2 ⟨b, hb, h⟩)
    obtain ⟨round, -, hplace⟩ := place_between hround hsame hne'
    have hrounds : a.round = b.round :=
      ((hplace a heq).1.1 (hinside a ha)).trans ((hplace b rfl).1.1 (hinside b hb)).symm
    have hslots : a.slot = b.slot := by rw [Turn.slot, Turn.slot, hrounds, heq]
    exact absurd hlt (by rw [hslots]; exact lt_irrefl _)
  obtain ⟨round, hslot, hplace⟩ := place_between hround hsame hne
  obtain ⟨turn, hturn, hmember, hcase⟩ := hserved second hsecond other hother round hslot
  obtain ⟨hiff, hearly⟩ := hplace turn hmember
  rcases hcase with hin | ⟨hearlier, hfinished⟩
  · -- The other member has its turn between the two.
    obtain ⟨hafter, hbefore⟩ := hiff.2 hin
    have hback := mem_back hsorted hturn hafter
    have hmem : turn ∈ between := mem_front hbehind.2 hback hbefore
    rw [List.count_eq_one_of_mem hnodup (List.mem_map.2 ⟨turn, hmem, hmember⟩), if_neg]
    rintro ⟨earlier, hfront, hsame', hfinished⟩
    have hlater : turn ∈ first :: (between ++ second :: back) := List.mem_cons_of_mem _ hback
    have hno := (List.pairwise_append.1 hended).2.2 earlier hfront turn hlater hfinished
    exact hno (hmember.trans hsame'.symm)
  · -- It was finished before the first.
    have hfront := mem_front hsorted hturn (hearly hearlier)
    rw [if_pos ⟨turn, hfront, hmember, hfinished⟩]
    refine List.count_eq_zero_of_not_mem fun hmem => ?_
    obtain ⟨later, hlater, hsame'⟩ := List.mem_map.1 hmem
    have hno := (List.pairwise_append.1 hended).2.2 turn hfront later
      (List.mem_cons_of_mem _ (List.mem_append_left _ hlater)) hfinished
    exact hno (hsame'.trans hmember.symm)

end PgDurable.RoundRobin
