import Mathlib.Algebra.Order.Ring.Int
import Mathlib.Data.Int.ConditionallyCompleteOrder
import Mathlib.Data.Set.Lattice
import Mathlib.Logic.Relation

/-!
# Rooted trees

A relation in which every element has at most one parent and the root has none. What is reachable
from the root is then a tree: it has no cycles, and what lies below two siblings is disjoint.
-/

namespace PgDurable

open Relation

variable {α : Type*}

/-- Every element has at most one parent, and the root has none. -/
structure RootedTree (child : α → α → Prop) (root : α) : Prop where
  unique : ∀ {parent other a}, child parent a → child other a → parent = other
  root : ∀ parent, ¬ child parent root

namespace RootedTree

variable {child : α → α → Prop} {root parent a b c : α}

/-- Nothing below the root lies on a cycle. -/
theorem acyclic (h : RootedTree child root) (ha : ReflTransGen child root a) :
    ¬ TransGen child a a := by
  induction ha with
  | refl =>
      intro hcycle
      obtain ⟨last, -, hlast⟩ := TransGen.tail'_iff.1 hcycle
      exact h.root last hlast
  | tail _ hstep ih =>
      intro hcycle
      obtain ⟨last, hto, hlast⟩ := TransGen.tail'_iff.1 hcycle
      cases h.unique hlast hstep
      exact ih (TransGen.head' hstep hto)

/-- A sibling is not reachable. -/
theorem not_reaches_sibling (h : RootedTree child root) (hparent : ReflTransGen child root parent)
    (ha : child parent a) (hb : child parent b) (hne : a ≠ b) : ¬ ReflTransGen child a b := by
  intro hreach
  rcases hreach.cases_tail with heq | ⟨last, hto, hlast⟩
  · exact hne heq.symm
  · cases h.unique hlast hb
    exact h.acyclic hparent (TransGen.head' ha hto)

/-- What lies below two siblings is disjoint. -/
theorem disjoint_siblings (h : RootedTree child root) (hparent : ReflTransGen child root parent)
    (ha : child parent a) (hb : child parent b) (hne : a ≠ b) (hac : ReflTransGen child a c) :
    ¬ ReflTransGen child b c := by
  intro hbc
  have hunique : Relator.RightUnique (Function.swap child) := fun _ _ _ hp hq => h.unique hp hq
  rcases ReflTransGen.total_of_right_unique hunique hac.swap hbc.swap with hab | hba
  · exact h.not_reaches_sibling hparent hb ha hne.symm hab.swap
  · exact h.not_reaches_sibling hparent ha hb hne hba.swap

end RootedTree

end PgDurable
