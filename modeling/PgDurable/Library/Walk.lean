import Mathlib.Algebra.Order.Ring.Int
import Mathlib.Data.Int.ConditionallyCompleteOrder
import Mathlib.Data.List.Nodup
import Mathlib.Data.List.Perm.Basic
import Mathlib.Data.Set.Lattice
import Mathlib.Logic.Relation

/-!
# Walks with a work stack and a visited set

A walk pops a frame, skips it when its node was visited before and otherwise records the visit and
pushes the node's children with the attribute they inherit. The graph is arbitrary: cycles, shared
children and nodes without any entry are all allowed.

`Step` lets the pending frames be taken in any order and `step` takes the last pushed one.
`Invariant` holds along every run, `visited_iff_path` says that a finished walk visited exactly the
nodes with a path from the root, and `run_finishes` that the walk finishes within `bound` steps.
-/

namespace PgDurable.Walk

variable {ν α β : Type}

/-- A graph whose nodes hand an attribute down to their children. -/
structure Graph (ν α : Type) where
  children : ν → List ν
  inherit : α → ν → α

/-- The pending frames, next one first, and the visits made so far, latest first. -/
structure State (ν α : Type) where
  stack : List (ν × α)
  visits : List (ν × α)

/-- The nodes visited so far. -/
def State.visited (state : State ν α) : List ν := state.visits.map (·.1)

/-- The node of a visit is visited. -/
theorem visited_of_visit {state : State ν α} {node : ν} {attr : α}
    (h : (node, attr) ∈ state.visits) : node ∈ state.visited :=
  List.mem_map_of_mem (f := Prod.fst) h

/-- A visited node has its visit. -/
theorem visit_of_visited {state : State ν α} {node : ν} (h : node ∈ state.visited) :
    ∃ attr, (node, attr) ∈ state.visits := by
  obtain ⟨⟨_, attr⟩, hvisit, rfl⟩ := List.mem_map.1 h
  exact ⟨attr, hvisit⟩

/-- The nodes visited or pending. -/
def State.known (state : State ν α) : List ν := state.visited ++ state.stack.map (·.1)

/-- The frames a node hands to its children, last child first: a stack pops them in that order. -/
def Graph.frames (graph : Graph ν α) (node : ν) (attr : α) : List (ν × α) :=
  (graph.children node).reverse.map fun child => (child, graph.inherit attr node)

section Steps

variable [DecidableEq ν]

/-- Take one frame of a state whose other pending frames are `rest`. -/
def Graph.take (graph : Graph ν α) (frame : ν × α) (rest visits : List (ν × α)) : State ν α :=
  if frame.1 ∈ visits.map (·.1) then ⟨rest, visits⟩
  else ⟨graph.frames frame.1 frame.2 ++ rest, frame :: visits⟩

/-- Take the frame on top of the stack. -/
def Graph.step (graph : Graph ν α) (state : State ν α) : State ν α :=
  match state.stack with
  | [] => state
  | frame :: rest => graph.take frame rest state.visits

/-- Take at most `fuel` frames. -/
def Graph.run (graph : Graph ν α) : Nat → State ν α → State ν α
  | 0, state => state
  | fuel + 1, state => graph.run fuel (graph.step state)

/-- The walk before its first step. -/
def start (root : ν) (attr : α) : State ν α := ⟨[(root, attr)], []⟩

/-- One step that takes any pending frame and leaves the others in any order. -/
def Graph.Step (graph : Graph ν α) (before after : State ν α) : Prop :=
  ∃ frame rest, before.stack.Perm (frame :: rest) ∧
    after.stack.Perm (graph.take frame rest before.visits).stack ∧
    after.visits = (graph.take frame rest before.visits).visits

/-- Any number of steps. -/
def Graph.Steps (graph : Graph ν α) : State ν α → State ν α → Prop :=
  Relation.ReflTransGen graph.Step

/-- Stack steps are steps. -/
theorem step_of_cons {graph : Graph ν α} {state : State ν α} (h : state.stack ≠ []) :
    graph.Step state (graph.step state) := by
  obtain ⟨stack, visits⟩ := state
  cases stack with
  | nil => exact absurd rfl h
  | cons frame rest => exact ⟨frame, rest, List.Perm.refl _, List.Perm.refl _, rfl⟩

/-- A stack run is a run. -/
theorem steps_run (graph : Graph ν α) (fuel : Nat) (state : State ν α) :
    graph.Steps state (graph.run fuel state) := by
  induction fuel generalizing state with
  | zero => exact Relation.ReflTransGen.refl
  | succ fuel ih =>
      by_cases hstack : state.stack = []
      · have hstay : graph.step state = state := by simp [Graph.step, hstack]
        rw [Graph.run, hstay]
        exact ih state
      · exact Relation.ReflTransGen.head (step_of_cons hstack) (ih _)

end Steps

/-! ## Paths -/

/-- `path` lists the proper ancestors of `node` on a way down from `root`, root first. -/
inductive PathTo (children : ν → List ν) (root : ν) : List ν → ν → Prop
  | root : PathTo children root [] root
  | child {path : List ν} {parent node : ν} (hparent : PathTo children root path parent)
      (hchild : node ∈ children parent) : PathTo children root (path ++ [parent]) node

/-- What holds along every walk from `root`. -/
structure Invariant (graph : Graph ν α) (root : ν) (attr : α) (state : State ν α) : Prop where
  /-- Every frame carries the attribute inherited along some path. -/
  along_path : ∀ frame ∈ state.stack ++ state.visits, ∃ path,
    PathTo graph.children root path frame.1 ∧ frame.2 = path.foldl graph.inherit attr
  root_known : root ∈ state.known
  children_known : ∀ node ∈ state.visited, ∀ child ∈ graph.children node, child ∈ state.known
  nodup : state.visited.Nodup

/-- The invariant holds at the start. -/
theorem invariant_start (graph : Graph ν α) (root : ν) (attr : α) :
    Invariant graph root attr (start root attr) where
  along_path := by
    intro frame hframe
    simp only [start, List.append_nil, List.mem_singleton] at hframe
    subst hframe
    exact ⟨[], PathTo.root, rfl⟩
  root_known := by simp [State.known, start]
  children_known := by simp [State.visited, start]
  nodup := by simp [State.visited, start]

section Invariants

variable [DecidableEq ν] {graph : Graph ν α} {root : ν} {attr : α}

/-- What one step does: the frame was visited before and is dropped, or it is visited now. -/
theorem step_cases {before after : State ν α} (h : graph.Step before after) :
    ∃ frame rest, before.stack.Perm (frame :: rest) ∧
      ((frame.1 ∈ before.visited ∧ after.stack.Perm rest ∧ after.visits = before.visits) ∨
        (frame.1 ∉ before.visited ∧
          after.stack.Perm (graph.frames frame.1 frame.2 ++ rest) ∧
          after.visits = frame :: before.visits)) := by
  obtain ⟨frame, rest, hbefore, hafter, hvisits⟩ := h
  refine ⟨frame, rest, hbefore, ?_⟩
  unfold Graph.take at hafter hvisits
  split at hafter
  · rename_i hvisited
    rw [if_pos hvisited] at hvisits
    exact Or.inl ⟨hvisited, hafter, hvisits⟩
  · rename_i hnew
    rw [if_neg hnew] at hvisits
    exact Or.inr ⟨hnew, hafter, hvisits⟩

/-- A known node stays known. -/
theorem step_known {before after : State ν α} (h : graph.Step before after) {node : ν}
    (hnode : node ∈ before.known) : node ∈ after.known := by
  obtain ⟨frame, rest, hbefore, hcase⟩ := step_cases h
  have hstack : node ∈ before.visited ∨ node = frame.1 ∨ node ∈ rest.map (·.1) := by
    simpa [State.known, (hbefore.map (·.1)).mem_iff] using hnode
  rcases hcase with ⟨hvisited, hafter, hvisits⟩ | ⟨hnew, hafter, hvisits⟩
  · have hsame : after.visited = before.visited := by rw [State.visited, hvisits, State.visited]
    rw [State.known, List.mem_append, hsame, (hafter.map (·.1)).mem_iff]
    rcases hstack with hold | rfl | hrest
    · exact Or.inl hold
    · exact Or.inl hvisited
    · exact Or.inr hrest
  · have hcons : after.visited = frame.1 :: before.visited := by
      rw [State.visited, hvisits, State.visited, List.map_cons]
    rw [State.known, List.mem_append, hcons, (hafter.map (·.1)).mem_iff, List.map_append,
      List.mem_append, List.mem_cons]
    rcases hstack with hold | rfl | hrest
    · exact Or.inl (Or.inr hold)
    · exact Or.inl (Or.inl rfl)
    · exact Or.inr (Or.inr hrest)

/-- One step keeps the invariant. -/
theorem step_invariant {before after : State ν α} (h : graph.Step before after)
    (hinv : Invariant graph root attr before) : Invariant graph root attr after := by
  have hknown : ∀ {node : ν}, node ∈ before.known → node ∈ after.known := step_known h
  obtain ⟨frame, rest, hbefore, hcase⟩ := step_cases h
  have hold : ∀ other, other = frame ∨ other ∈ rest ∨ other ∈ before.visits → ∃ path,
      PathTo graph.children root path other.1 ∧ other.2 = path.foldl graph.inherit attr := by
    intro other hother
    refine hinv.along_path other ?_
    rw [List.mem_append, hbefore.mem_iff, List.mem_cons, or_assoc]
    exact hother
  rcases hcase with ⟨hvisited, hafter, hvisits⟩ | ⟨hnew, hafter, hvisits⟩
  · have hsame : after.visited = before.visited := by rw [State.visited, hvisits, State.visited]
    refine ⟨fun other hother => hold other (Or.inr ?_), hknown hinv.root_known,
      fun node hnode child hchild => hknown (hinv.children_known node (hsame ▸ hnode) child hchild),
      hsame ▸ hinv.nodup⟩
    rwa [List.mem_append, hafter.mem_iff, hvisits] at hother
  · have hcons : after.visited = frame.1 :: before.visited := by
      rw [State.visited, hvisits, State.visited, List.map_cons]
    refine ⟨fun other hother => ?_, hknown hinv.root_known, fun node hnode child hchild => ?_, ?_⟩
    · rw [List.mem_append, hafter.mem_iff, List.mem_append, hvisits, List.mem_cons] at hother
      rcases hother with (hchild | hrest) | rfl | hvisit
      · simp only [Graph.frames, List.mem_map, List.mem_reverse] at hchild
        obtain ⟨child, hchild, rfl⟩ := hchild
        obtain ⟨path, hpath, hattr⟩ := hold frame (Or.inl rfl)
        exact ⟨path ++ [frame.1], PathTo.child hpath hchild, by simp [hattr]⟩
      · exact hold other (Or.inr (Or.inl hrest))
      · exact hold other (Or.inl rfl)
      · exact hold other (Or.inr (Or.inr hvisit))
    · rw [hcons, List.mem_cons] at hnode
      rcases hnode with rfl | hnode
      · have hpushed : child ∈ after.stack.map (·.1) := by
          rw [(hafter.map (·.1)).mem_iff]
          simp [Graph.frames, hchild]
        exact List.mem_append_right _ hpushed
      · exact hknown (hinv.children_known node hnode child hchild)
    · rw [hcons]
      exact List.nodup_cons.2 ⟨hnew, hinv.nodup⟩

/-- Every run keeps the invariant. -/
theorem steps_invariant {state : State ν α} (h : graph.Steps (start root attr) state) :
    Invariant graph root attr state := by
  induction h with
  | refl => exact invariant_start graph root attr
  | tail _ hstep ih => exact step_invariant hstep ih

/-- A finished walk visited exactly the nodes with a path from the root. -/
theorem visited_iff_path {state : State ν α} (h : graph.Steps (start root attr) state)
    (hdone : state.stack = []) {node : ν} :
    node ∈ state.visited ↔ ∃ path, PathTo graph.children root path node := by
  have hinv := steps_invariant h
  have hvisited : ∀ other, other ∈ state.known → other ∈ state.visited := by
    simp [State.known, hdone]
  constructor
  · intro hnode
    obtain ⟨attr', hvisit⟩ := visit_of_visited hnode
    obtain ⟨path, hpath, -⟩ := hinv.along_path (node, attr') (List.mem_append_right _ hvisit)
    exact ⟨path, hpath⟩
  · rintro ⟨path, hpath⟩
    induction hpath with
    | root => exact hvisited _ hinv.root_known
    | child _ hchild ih => exact hvisited _ (hinv.children_known _ ih _ hchild)

end Invariants

/-! ## Termination -/

section Termination

variable [DecidableEq ν] {graph : Graph ν α} {ids : List ν}

/-- The pushes that the unvisited nodes of `ids` can still make. -/
def Graph.pushesLeft (graph : Graph ν α) (ids visited : List ν) : Nat :=
  ((ids.filter (· ∉ visited)).map fun node => (graph.children node).length).sum

/-- The steps a walk has left at most: the pending frames and the pushes still to come. -/
def Graph.weight (graph : Graph ν α) (ids : List ν) (state : State ν α) : Nat :=
  state.stack.length + graph.pushesLeft ids state.visited

/-- The steps that any walk makes at most. -/
def Graph.bound (graph : Graph ν α) (ids : List ν) : Nat :=
  1 + (ids.map fun node => (graph.children node).length).sum

/-- A node that is not listed has no pushes to spend. -/
theorem pushes_left_outside {visited : List ν} {node : ν} (hnode : node ∉ ids) :
    graph.pushesLeft ids (node :: visited) = graph.pushesLeft ids visited := by
  have hsame : ids.filter (· ∉ node :: visited) = ids.filter (· ∉ visited) := by
    refine List.filter_congr fun other hother => ?_
    have hne : other ≠ node := fun heq => hnode (heq ▸ hother)
    simp [hne]
  rw [Graph.pushesLeft, hsame, Graph.pushesLeft]

/-- The first listed node counts while it is not visited. -/
theorem pushes_left_cons (first : ν) (visited : List ν) :
    graph.pushesLeft (first :: ids) visited =
      (if first ∈ visited then 0 else (graph.children first).length) +
        graph.pushesLeft ids visited := by
  by_cases hfirst : first ∈ visited <;> simp [Graph.pushesLeft, hfirst]

/-- Visiting a node spends its pushes. -/
theorem pushes_left_visit {visited : List ν} {node : ν} (hnodup : ids.Nodup)
    (houtside : node ∉ ids → graph.children node = []) (hnew : node ∉ visited) :
    (graph.children node).length + graph.pushesLeft ids (node :: visited) =
      graph.pushesLeft ids visited := by
  induction ids with
  | nil => simp [Graph.pushesLeft, houtside List.not_mem_nil]
  | cons first ids ih =>
      obtain ⟨hfirst, hrest⟩ := List.nodup_cons.1 hnodup
      rw [pushes_left_cons, pushes_left_cons]
      by_cases heq : first = node
      · subst heq
        rw [if_pos List.mem_cons_self, if_neg hnew, pushes_left_outside hfirst]
        omega
      · have hrec := ih hrest fun hnode => houtside (by simp [hnode, Ne.symm heq])
        simp only [List.mem_cons, heq, false_or]
        omega

/-- Every step in every order spends one unit of the weight. -/
theorem step_weight {before after : State ν α} (hnodup : ids.Nodup)
    (houtside : ∀ node, node ∉ ids → graph.children node = [])
    (h : graph.Step before after) :
    graph.weight ids after + 1 = graph.weight ids before := by
  obtain ⟨frame, rest, hbefore, hcase⟩ := step_cases h
  have hlength := hbefore.length_eq
  rw [List.length_cons] at hlength
  rcases hcase with ⟨-, hafter, hvisits⟩ | ⟨hnew, hafter, hvisits⟩
  · have hrest := hafter.length_eq
    simp only [Graph.weight, State.visited, hvisits]
    omega
  · have hrest := hafter.length_eq
    have hspend := pushes_left_visit hnodup (houtside frame.1) hnew
    simp only [Graph.frames, List.length_append, List.length_map, List.length_reverse] at hrest
    simp only [Graph.weight, State.visited, hvisits, List.map_cons] at hspend ⊢
    omega

/-- A run with enough fuel for the weight empties the stack. -/
theorem run_empties {fuel : Nat} {state : State ν α} (hnodup : ids.Nodup)
    (houtside : ∀ node, node ∉ ids → graph.children node = [])
    (hfuel : graph.weight ids state ≤ fuel) : (graph.run fuel state).stack = [] := by
  induction fuel generalizing state with
  | zero =>
      have hzero : state.stack.length = 0 := by
        simp only [Graph.weight] at hfuel
        omega
      exact List.length_eq_zero_iff.1 hzero
  | succ fuel ih =>
      by_cases hstack : state.stack = []
      · have hstay : graph.step state = state := by simp [Graph.step, hstack]
        have hrun : ∀ fuel, graph.run fuel state = state := by
          intro fuel
          induction fuel with
          | zero => rfl
          | succ fuel ih => rw [Graph.run, hstay, ih]
        rw [hrun, hstack]
      · have hstep : graph.Step state (graph.step state) := step_of_cons hstack
        have hspend := step_weight hnodup houtside hstep
        exact ih (by omega)

/-- The walk from any root finishes within its bound. -/
theorem run_finishes (root : ν) (attr : α) (hnodup : ids.Nodup)
    (houtside : ∀ node, node ∉ ids → graph.children node = []) :
    (graph.run (graph.bound ids) (start root attr)).stack = [] := by
  refine run_empties hnodup houtside ?_
  simp [Graph.weight, Graph.bound, Graph.pushesLeft, State.visited, start]

end Termination

/-! ## Walks that carry less -/

/-- Apply a function to the attributes of a state. -/
def State.map (f : α → β) (state : State ν α) : State ν β :=
  ⟨state.stack.map fun frame => (frame.1, f frame.2),
    state.visits.map fun frame => (frame.1, f frame.2)⟩

/-- A walk whose attribute is a function of another walk's attribute follows it. -/
theorem run_map [DecidableEq ν] {graph : Graph ν α} {graph' : Graph ν β} (f : α → β)
    (hchildren : graph'.children = graph.children)
    (hinherit : ∀ attr node, graph'.inherit (f attr) node = f (graph.inherit attr node))
    (fuel : Nat) (state : State ν α) :
    graph'.run fuel (state.map f) = (graph.run fuel state).map f := by
  induction fuel generalizing state with
  | zero => rfl
  | succ fuel ih =>
      have hstep : graph'.step (state.map f) = (graph.step state).map f := by
        obtain ⟨stack, visits⟩ := state
        cases stack with
        | nil => rfl
        | cons frame rest =>
            simp only [Graph.step, State.map, List.map_cons, Graph.take, List.map_map,
              Function.comp_def]
            split
            · rfl
            · simp [Graph.frames, hchildren, hinherit]
      rw [Graph.run, hstep, ih, Graph.run]

end PgDurable.Walk
