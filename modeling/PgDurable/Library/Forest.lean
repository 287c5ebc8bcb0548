import PgDurable.Library.Unfolding

/-!
# Forests

A forest is its first tree and the trees after it. `preorder` has every node in front of what is
below it. `children` has the nodes below the roots with the children of a node together, which is
the order in which a walk meets them that takes up all children of a node before it goes down.
`Forest.unfolds` says that the preorder of a forest are the visits of its references.
-/

namespace PgDurable

open Unfolding

/-- A node, the forest below it and the trees beside it. -/
inductive Forest (α : Type) where
  | nil
  | cons (a : α) (below rest : Forest α)

namespace Forest

variable {α β : Type}

def roots : Forest α → List α
  | nil => []
  | cons a _ rest => a :: rest.roots

/-- Every node in front of those below it. -/
def preorder : Forest α → List α
  | nil => []
  | cons a below rest => a :: (below.preorder ++ rest.preorder)

/-- The nodes below the roots, those of one parent together. -/
def children : Forest α → List α
  | nil => []
  | cons _ below rest => below.roots ++ below.children ++ rest.children

def append : Forest α → Forest α → Forest α
  | nil, other => other
  | cons a below rest, other => cons a below (rest.append other)

/-- The number of levels. -/
def height : Forest α → Nat
  | nil => 0
  | cons _ below rest => max (below.height + 1) rest.height

def map (f : α → β) : Forest α → Forest β
  | nil => nil
  | cons a below rest => cons (f a) (below.map f) (rest.map f)

/-- The node at a position: the index of its root, then that of a child on every level below. -/
def nodeAt : Forest α → Nat → List Nat → Option α
  | nil, _, _ => none
  | cons a _ _, 0, [] => some a
  | cons _ below _, 0, index :: position => below.nodeAt index position
  | cons _ _ rest, index + 1, position => rest.nodeAt index position

/-- The children of every node are some that it may have. -/
def Grown (grows : α → List α → Prop) : Forest α → Prop
  | nil => True
  | cons a below rest => grows a below.roots ∧ below.Grown grows ∧ rest.Grown grows

variable {grows : α → List α → Prop}

@[simp] theorem roots_append (forest other : Forest α) :
    (forest.append other).roots = forest.roots ++ other.roots := by
  induction forest with
  | nil => rfl
  | cons a below rest _ ih => rw [append, roots, ih, roots, List.cons_append]

@[simp] theorem preorder_append (forest other : Forest α) :
    (forest.append other).preorder = forest.preorder ++ other.preorder := by
  induction forest with
  | nil => rfl
  | cons a below rest _ ih =>
      rw [append, preorder, ih, preorder, List.cons_append, List.append_assoc]

@[simp] theorem children_append (forest other : Forest α) :
    (forest.append other).children = forest.children ++ other.children := by
  induction forest with
  | nil => rfl
  | cons a below rest _ ih => simp only [append, children, ih, List.append_assoc]

@[simp] theorem grown_append (forest other : Forest α) :
    (forest.append other).Grown grows ↔ forest.Grown grows ∧ other.Grown grows := by
  induction forest with
  | nil => exact ⟨fun h => ⟨trivial, h⟩, fun h => h.2⟩
  | cons a below rest _ ih => rw [append, Grown, ih, Grown, and_assoc, and_assoc]

@[simp] theorem roots_map (f : α → β) (forest : Forest α) :
    (forest.map f).roots = forest.roots.map f := by
  induction forest with
  | nil => rfl
  | cons a below rest _ ih => rw [map, roots, ih, roots, List.map_cons]

@[simp] theorem preorder_map (f : α → β) (forest : Forest α) :
    (forest.map f).preorder = forest.preorder.map f := by
  induction forest with
  | nil => rfl
  | cons a below rest ih ih' => rw [map, preorder, ih, ih', preorder, List.map_cons, List.map_append]

@[simp] theorem children_map (f : α → β) (forest : Forest α) :
    (forest.map f).children = forest.children.map f := by
  induction forest with
  | nil => rfl
  | cons a below rest ih ih' => simp only [map, children, roots_map, ih, ih', List.map_append]

@[simp] theorem height_map (f : α → β) (forest : Forest α) :
    (forest.map f).height = forest.height := by
  induction forest with
  | nil => rfl
  | cons a below rest ih ih' => rw [map, height, ih, ih', height]

@[simp] theorem map_map {γ : Type} (g : β → γ) (f : α → β) (forest : Forest α) :
    (forest.map f).map g = forest.map (g ∘ f) := by
  induction forest with
  | nil => rfl
  | cons a below rest ih ih' => rw [map, map, ih, ih', map, Function.comp_apply]

/-- What is relabelled to a tree in front of others is one. -/
theorem map_eq_cons {f : α → β} {forest : Forest α} {b : β} {below rest : Forest β}
    (h : forest.map f = cons b below rest) : ∃ (a : α) (below' rest' : Forest α),
      forest = cons a below' rest' ∧ f a = b ∧ below'.map f = below ∧ rest'.map f = rest := by
  cases forest with
  | nil => cases h
  | cons a below' rest' =>
      obtain ⟨ha, hbelow, hrest⟩ := Forest.cons.inj h
      exact ⟨a, below', rest', rfl, ha, hbelow, hrest⟩

/-- Relabelled nodes grow from relabelled nodes. -/
theorem grown_map {grows : β → List β → Prop} {f : α → β} {forest : Forest α} :
    (forest.map f).Grown grows ↔ forest.Grown fun a below => grows (f a) (below.map f) := by
  induction forest with
  | nil => exact Iff.rfl
  | cons a below rest ih ih' => rw [map, Grown, Grown, ih, ih', roots_map]

/-- A forest is cut between two roots. -/
theorem split_roots {forest : Forest α} {first others : List α}
    (h : forest.roots = first ++ others) :
    ∃ below rest : Forest α, forest = below.append rest ∧ below.roots = first ∧
      rest.roots = others := by
  induction first generalizing forest with
  | nil => exact ⟨nil, forest, rfl, rfl, h⟩
  | cons a first ih =>
      cases forest with
      | nil => cases h
      | cons b inner rest =>
          obtain ⟨rfl, hrest⟩ := List.cons.inj h
          obtain ⟨below, others', rfl, hbelow, hothers⟩ := ih hrest
          exact ⟨cons b inner below, others', rfl, congrArg (b :: ·) hbelow, hothers⟩

/-- The nodes are the roots and those below them. -/
theorem preorder_perm (forest : Forest α) :
    forest.preorder.Perm (forest.roots ++ forest.children) := by
  induction forest with
  | nil => exact List.Perm.refl _
  | cons a below rest hbelow hrest =>
      have hjoin : (below.preorder ++ rest.preorder).Perm
          ((below.roots ++ below.children) ++ (rest.roots ++ rest.children)) := hbelow.append hrest
      have hswap : ((below.roots ++ below.children) ++ (rest.roots ++ rest.children)).Perm
          (rest.roots ++ ((below.roots ++ below.children) ++ rest.children)) :=
        List.perm_append_comm_assoc _ _ _
      exact List.Perm.cons a (hjoin.trans hswap)

theorem preorder_length (forest : Forest α) :
    forest.preorder.length = forest.roots.length + forest.children.length := by
  rw [forest.preorder_perm.length_eq, List.length_append]

/-- If the references of every node name its children, the preorder are the visits. -/
theorem unfolds {name : α → β} {next : β → List β} {forest : Forest α}
    (h : forest.Grown fun a below => next (name a) = below.map name) :
    Unfolds next (forest.roots.map name) (forest.preorder.map name) := by
  induction forest with
  | nil => exact .nil
  | cons a below rest hbelow hrest =>
      obtain ⟨hnext, hgrown, hothers⟩ := h
      rw [roots, preorder, List.map_cons, List.map_cons, List.map_append]
      refine .cons ?_ (hrest hothers)
      rw [hnext]
      exact hbelow hgrown

/-- What holds wherever the first growth condition does. -/
theorem Grown.imp {grows' : α → List α → Prop} {forest : Forest α} (h : forest.Grown grows)
    (himp : ∀ a ∈ forest.preorder, ∀ below, grows a below → grows' a below) :
    forest.Grown grows' := by
  induction forest with
  | nil => trivial
  | cons a below rest hbelow hrest =>
      obtain ⟨hgrows, hinner, hothers⟩ := h
      refine ⟨himp a List.mem_cons_self _ hgrows, hbelow hinner fun b hb => ?_,
        hrest hothers fun b hb => ?_⟩
      · exact himp b (List.mem_cons_of_mem _ (List.mem_append_left _ hb))
      · exact himp b (List.mem_cons_of_mem _ (List.mem_append_right _ hb))

/-- Every node below the roots is a child of a node. -/
theorem mem_preorder_cases {a : α} {forest : Forest α} (h : forest.Grown grows)
    (ha : a ∈ forest.preorder) : ∃ below, grows a below := by
  induction forest with
  | nil => cases ha
  | cons b below rest hbelow hrest =>
      obtain ⟨hgrows, hinner, hothers⟩ := h
      rcases List.mem_cons.1 ha with rfl | ha
      · exact ⟨_, hgrows⟩
      rcases List.mem_append.1 ha with ha | ha
      · exact hbelow hinner ha
      · exact hrest hothers ha

end Forest

/-! ## Visits without repetition -/

namespace Unfolding

open Relation

variable {α : Type} {next next' : α → List α} {root : α} {roots visits : List α}

/-- What a visited node refers to is visited. -/
theorem Unfolds.closed (h : Unfolds next roots visits) {a b : α} (ha : a ∈ visits)
    (hb : b ∈ next a) : b ∈ visits :=
  h.perm.mem_iff.2 (List.mem_append_right _ (List.mem_flatMap.2 ⟨a, ha, hb⟩))

/-- Without repetition, references point forward. -/
theorem Unfolds.forward (h : Unfolds next roots visits) (hnodup : visits.Nodup) :
    visits.Pairwise fun earlier later => earlier ∉ next later := by
  induction h with
  | nil => exact .nil
  | @cons a roots below others hbelow hothers ih ih' =>
      obtain ⟨ha, hnodup⟩ := List.nodup_cons.1 hnodup
      obtain ⟨hnodupBelow, hnodupOthers, hdisjoint⟩ := List.nodup_append.1 hnodup
      refine .cons (fun b hb hmem => ha ?_) (List.pairwise_append.2
        ⟨ih hnodupBelow, ih' hnodupOthers, fun x hx y hy hmem => ?_⟩)
      · rcases List.mem_append.1 hb with hb | hb
        · exact List.mem_append_left _ (hbelow.closed hb hmem)
        · exact List.mem_append_right _ (hothers.closed hb hmem)
      · exact hdisjoint x hx x (hothers.closed hy hmem) rfl

/-- Visits without repetition are those of a tree. -/
theorem Unfolds.is_tree (h : Unfolds next [root] visits) (hnodup : visits.Nodup)
    (hsupport : ∀ a, a ∉ visits → next a = []) : IsTree next root := by
  have hall : ([root] ++ visits.flatMap next).Nodup := h.perm.nodup_iff.1 hnodup
  obtain ⟨-, hreferences, hroot⟩ := List.nodup_append.1 hall
  obtain ⟨heach, hpairs⟩ := List.nodup_flatMap.1 hreferences
  have hvisited : ∀ {a b}, b ∈ next a → a ∈ visits := by
    intro a b hb
    by_contra hnone
    rw [hsupport a hnone] at hb
    cases hb
  refine ⟨⟨fun {parent other a} hparent hother => ?_, fun parent hparent => ?_⟩, fun a => ?_⟩
  · by_contra hne
    have hsymm : Std.Symm (Function.onFun List.Disjoint next) := ⟨fun _ _ h => h.symm⟩
    exact hpairs.forall (hvisited hparent) (hvisited hother) hne hparent hother
  · exact hroot root List.mem_cons_self root
      (List.mem_flatMap.2 ⟨parent, hvisited hparent, hparent⟩) rfl
  · by_cases ha : a ∈ visits
    · exact heach a ha
    · rw [hsupport a ha]
      exact List.nodup_nil

/-- Following only some of the references of a tree is following a tree. -/
theorem IsTree.restrict (h : IsTree next root) (hsub : ∀ a, (next' a).Subperm (next a)) :
    IsTree next' root where
  tree := ⟨fun {_ _ _} hparent hother => h.tree.unique ((hsub _).subset hparent)
    ((hsub _).subset hother), fun parent hparent => h.tree.root parent ((hsub _).subset hparent)⟩
  nodup := fun a => by
    obtain ⟨some, hperm, hsublist⟩ := hsub a
    exact hperm.nodup_iff.1 ((h.nodup a).sublist hsublist)

end Unfolding

end PgDurable
