import Mathlib.Data.Fintype.Card
import Mathlib.Data.List.Count
import Mathlib.Data.Set.Finite.List
import PgDurable.Library.Tree

/-!
# Unfolding a graph

A graph gives every node the list of nodes it refers to. `Unfolds` follows the references from a
list of roots down, once for every way to come to a node, and `visits` are those below one node.
This ends where no cycle is reachable (`acc_iff_no_cycle`), and on a tree it comes to every node
once (`count_tree`).
-/

namespace PgDurable.Unfolding

open Relation

variable {α : Type} (next : α → List α)

/-- A node refers to another. -/
def Refers (a b : α) : Prop := b ∈ next a

/-- The visits that the references below the roots give, in order. -/
inductive Unfolds : List α → List α → Prop where
  | nil : Unfolds [] []
  | cons {a : α} {roots below others : List α} :
      Unfolds (next a) below → Unfolds roots others → Unfolds (a :: roots) (a :: (below ++ others))

variable {next}

theorem Unfolds.append {roots roots' visits visits' : List α} (h : Unfolds next roots visits)
    (h' : Unfolds next roots' visits') : Unfolds next (roots ++ roots') (visits ++ visits') := by
  induction h with
  | nil => exact h'
  | cons hbelow _ _ ih =>
      rw [List.cons_append, List.cons_append, List.append_assoc]
      exact .cons hbelow ih

theorem Unfolds.single {a : α} {below : List α} (h : Unfolds next (next a) below) :
    Unfolds next [a] (a :: below) := by
  have hcons : Unfolds next [a] (a :: (below ++ [])) := .cons h .nil
  rw [List.append_nil] at hcons
  exact hcons

theorem unfolds_all {roots : List α} (h : ∀ a ∈ roots, ∃ visits, Unfolds next [a] visits) :
    ∃ visits, Unfolds next roots visits := by
  induction roots with
  | nil => exact ⟨[], .nil⟩
  | cons a roots ih =>
      obtain ⟨first, hfirst⟩ := h a List.mem_cons_self
      obtain ⟨others, hothers⟩ := ih fun b hb => h b (List.mem_cons_of_mem _ hb)
      exact ⟨first ++ others, hfirst.append hothers⟩

theorem Unfolds.unique {roots visits visits' : List α} (h : Unfolds next roots visits)
    (h' : Unfolds next roots visits') : visits = visits' := by
  induction h generalizing visits' with
  | nil =>
      cases h'
      rfl
  | cons _ _ hbelow hothers =>
      cases h' with
      | cons hbelow' hothers' => rw [hbelow hbelow', hothers hothers']

/-! ## Ends and cycles -/

/-- Where the references end, there is an unfolding. -/
theorem exists_unfolds {a : α} (h : Acc (fun b a => Refers next a b) a) :
    ∃ visits, Unfolds next [a] visits := by
  induction h with
  | intro a _ ih =>
      have hnext : ∃ below, Unfolds next (next a) below := unfolds_all ih
      obtain ⟨below, hbelow⟩ := hnext
      exact ⟨_, hbelow.single⟩

theorem not_self_of_acc {r : α → α → Prop} {a : α} (h : Acc r a) : ¬ r a a := by
  induction h with
  | intro a _ ih => exact fun hself => ih a hself hself

theorem no_cycle_of_acc {root a : α} (h : Acc (fun b a => Refers next a b) root)
    (hreach : ReflTransGen (Refers next) root a) : ¬ TransGen (Refers next) a a := by
  have ha : Acc (fun b a => Refers next a b) a := by
    induction hreach with
    | refl => exact h
    | tail _ hstep ih => exact ih.inv hstep
  exact fun hcycle => not_self_of_acc ha.transGen (transGen_swap.2 hcycle)

/-- Among finitely many nodes that refer to any, the references end if they have no cycle. -/
theorem acc_of_no_cycle {support : List α} (hsupport : ∀ a, next a ≠ [] → a ∈ support) {root : α}
    (h : ∀ a, ReflTransGen (Refers next) root a → ¬ TransGen (Refers next) a a) :
    Acc (fun b a => Refers next a b) root := by
  -- What lies below what is reachable is a strict order on the support.
  let below (b a : {a // a ∈ support}) : Prop :=
    ReflTransGen (Refers next) root a ∧ TransGen (Refers next) a.1 b.1
  have htrans : IsTrans {a // a ∈ support} below :=
    ⟨fun _ _ _ hab hbc => ⟨hbc.1, hbc.2.trans hab.2⟩⟩
  have hirrefl : Std.Irrefl below := ⟨fun a ha => h a.1 ha.1 ha.2⟩
  have hfinite : Finite {a // a ∈ support} := List.finite_toSet support
  have hwf : WellFounded below := Finite.wellFounded_of_trans_of_irrefl below
  have hempty : ∀ a, a ∉ support → Acc (fun b a => Refers next a b) a := by
    intro a ha
    refine .intro a fun b hb => ?_
    have hnone : next a = [] := not_not.1 fun hne => ha (hsupport a hne)
    rw [Refers, hnone] at hb
    exact absurd hb List.not_mem_nil
  have hmember : ∀ a : {a // a ∈ support}, ReflTransGen (Refers next) root a →
      Acc (fun b a => Refers next a b) a.1 := by
    intro a
    induction a using hwf.induction with
    | _ a ih =>
        intro hreach
        refine .intro a.1 fun b hb => ?_
        by_cases hb' : b ∈ support
        · exact ih ⟨b, hb'⟩ ⟨hreach, .single hb⟩ (hreach.tail hb)
        · exact hempty b hb'
  by_cases hroot : root ∈ support
  · exact hmember ⟨root, hroot⟩ .refl
  · exact hempty root hroot

/-- Among finitely many nodes that refer to any, the references end exactly if no cycle is
reachable. -/
theorem acc_iff_no_cycle {support : List α} (hsupport : ∀ a, next a ≠ [] → a ∈ support) (root : α) :
    Acc (fun b a => Refers next a b) root ↔
      ∀ a, ReflTransGen (Refers next) root a → ¬ TransGen (Refers next) a a :=
  ⟨fun h _ hreach => no_cycle_of_acc h hreach, acc_of_no_cycle hsupport⟩

/-! ## Visits of a node -/

open Classical in
/-- The visits below a node, where the references end. -/
noncomputable def visits (next : α → List α) (a : α) : List α :=
  if h : ∃ visits, Unfolds next [a] visits then h.choose else []

theorem unfolds_visits {a : α} (h : Acc (fun b a => Refers next a b) a) :
    Unfolds next [a] (visits next a) := by
  have hexists := exists_unfolds h
  rw [visits, dif_pos hexists]
  exact hexists.choose_spec

theorem unfolds_flat_map {roots : List α} (h : ∀ a ∈ roots, Acc (fun b a => Refers next a b) a) :
    Unfolds next roots (roots.flatMap (visits next)) := by
  induction roots with
  | nil => exact .nil
  | cons a roots ih =>
      exact (unfolds_visits (h a List.mem_cons_self)).append
        (ih fun b hb => h b (List.mem_cons_of_mem _ hb))

/-- The visits of a node are the node and the visits of the nodes it refers to. -/
theorem visits_eq {a : α} (h : Acc (fun b a => Refers next a b) a) :
    visits next a = a :: (next a).flatMap (visits next) :=
  (unfolds_visits h).unique (unfolds_flat_map fun _ hb => h.inv hb).single

/-- The visits of a node are the nodes it reaches. -/
theorem mem_visits_iff {a b : α} (h : Acc (fun b a => Refers next a b) a) :
    b ∈ visits next a ↔ ReflTransGen (Refers next) a b := by
  induction h with
  | intro a hbelow ih =>
      rw [visits_eq (.intro a hbelow), List.mem_cons, ReflTransGen.cases_head_iff, List.mem_flatMap]
      constructor
      · intro hmem
        rcases hmem with rfl | ⟨child, hchild, hmem⟩
        · exact .inl rfl
        · exact .inr ⟨child, hchild, (ih child hchild).1 hmem⟩
      · intro hreach
        rcases hreach with rfl | ⟨child, hchild, hreach⟩
        · exact .inl rfl
        · exact .inr ⟨child, hchild, (ih child hchild).2 hreach⟩

/-! ## Trees -/

/-- The visits are the roots and what every visit refers to. -/
theorem Unfolds.perm {roots visits : List α} (h : Unfolds next roots visits) :
    visits.Perm (roots ++ visits.flatMap next) := by
  induction h with
  | nil => exact List.Perm.refl _
  | @cons a roots below others _ _ hbelow hothers =>
      have hvisits : (a :: (below ++ others)).flatMap next =
          next a ++ below.flatMap next ++ others.flatMap next := by
        rw [List.flatMap_cons, List.flatMap_append, List.append_assoc]
      rw [hvisits, List.cons_append]
      refine List.Perm.cons a ?_
      exact (hbelow.append hothers).trans (List.perm_append_comm_assoc _ _ _)

/-- Every node but the root is referred to once, by one node, and the root is not. -/
structure IsTree (next : α → List α) (root : α) : Prop where
  tree : RootedTree (Refers next) root
  nodup : ∀ a, (next a).Nodup

variable [DecidableEq α]

theorem count_flat_map_parent (h : IsTree next root) {parent a : α} (ha : Refers next parent a)
    (visits : List α) : (visits.flatMap next).count a = visits.count parent := by
  induction visits with
  | nil => rfl
  | cons b visits ih =>
      rw [List.flatMap_cons, List.count_append, ih, List.count_cons]
      by_cases hb : b = parent
      · rw [hb, List.count_eq_one_of_mem (h.nodup parent) ha, beq_self_eq_true, if_pos rfl]
        omega
      · have hnone : a ∉ next b := fun hmem => hb (h.tree.unique hmem ha)
        rw [List.count_eq_zero_of_not_mem hnone, if_neg (by rw [beq_iff_eq]; exact hb)]
        omega

/-- On a tree every node below the root is visited once. -/
theorem count_tree {root : α} (h : IsTree next root)
    (hacc : Acc (fun b a => Refers next a b) root) {a : α}
    (ha : ReflTransGen (Refers next) root a) : (visits next root).count a = 1 := by
  have hcount : ∀ a, (visits next root).count a =
      [root].count a + ((visits next root).flatMap next).count a := by
    intro a
    rw [← List.count_append]
    exact (unfolds_visits hacc).perm.count_eq a
  induction ha with
  | refl =>
      have hnone : root ∉ (visits next root).flatMap next := by
        intro hmem
        obtain ⟨parent, -, hparent⟩ := List.mem_flatMap.1 hmem
        exact h.tree.root parent hparent
      rw [hcount, List.count_eq_zero_of_not_mem hnone, List.count_singleton_self]
  | @tail parent a _ hstep ih =>
      have hne : a ∉ [root] := by
        intro hmem
        rw [List.mem_singleton.1 hmem] at hstep
        exact h.tree.root parent hstep
      rw [hcount, List.count_eq_zero_of_not_mem hne, count_flat_map_parent h hstep, ih]

end PgDurable.Unfolding
