import Mathlib.Algebra.Order.Ring.Int
import Mathlib.Data.Int.ConditionallyCompleteOrder
import Mathlib.Data.Set.Lattice
import Mathlib.Logic.Function.Basic
import Mathlib.Logic.Relation

/-!
# Programs that run among others

A program of type `Asks` runs by asking questions; each question is one atomic step on a world that
other programs and other events change too. A `System` is a world with any number of threads, each
idle or inside of a program, and its steps interleave them in every order.

`Safe` is the rely-guarantee condition on one program: whatever the others do within `rely`, every
question it asks does within `guar`, and it ends in `post`. The rules `safe_done`, `safe_ask` and
`safe_bind` prove it along the program text. `Discipline.safe` says that when the threads and the
surroundings respect each other, an invariant of the world holds in every reachable state and every
running program stays safe there.
-/

namespace PgDurable

open Relation

/-- A program that asks questions of type `Q`, reads answers of type `A`, and ends with a result. -/
inductive Asks (Q : Type) (A : Q → Type) (R : Type) where
  | done (result : R)
  | ask (question : Q) (next : A question → Asks Q A R)

namespace Asks

variable {Q : Type} {A : Q → Type} {R S W : Type}

/-- Run the second program after the first. -/
def andThen : Asks Q A R → (R → Asks Q A S) → Asks Q A S
  | done result, rest => rest result
  | ask question next, rest => ask question fun answer => (next answer).andThen rest

/-- Programs are sequenced by their results. -/
instance : Monad (Asks Q A) where
  pure := done
  bind := andThen

/-- The program that asks one question. -/
def question (q : Q) : Asks Q A (A q) := ask q done

/-- A program that has ended goes on with the rest. -/
theorem pure_bind (result : R) (rest : R → Asks Q A S) :
    ((pure result : Asks Q A R) >>= rest) = rest result := rfl

/-! ## Rely and guarantee -/

/-- In every world that `rely` leads to, each question acts within `guar`, and the program ends in
`post`. -/
def Safe (rely : W → W → Prop) (act guar : W → (q : Q) → A q → W → Prop) (post : R → W → Prop) :
    Asks Q A R → W → Prop
  | done result, world => ∀ reached, ReflTransGen rely world reached → post result reached
  | ask q next, world => ∀ reached, ReflTransGen rely world reached →
      ∀ answer after, act reached q answer after →
        guar reached q answer after ∧ Safe rely act guar post (next answer) after

section Rules

variable {rely : W → W → Prop} {act guar : W → (q : Q) → A q → W → Prop} {post : R → W → Prop}
variable {P : W → Prop} {world : W}

/-- What the others do within `rely` keeps a program safe. -/
theorem Safe.mono_world {program : Asks Q A R} {reached : W}
    (h : Safe rely act guar post program world) (hrely : ReflTransGen rely world reached) :
    Safe rely act guar post program reached := by
  cases program with
  | done result => exact fun later hlater => h later (hrely.trans hlater)
  | ask q next => exact fun later hlater => h later (hrely.trans hlater)

/-- Fewer actions are safe. -/
theorem Safe.of_act {act' : W → (q : Q) → A q → W → Prop} {program : Asks Q A R}
    (h : Safe rely act guar post program world)
    (hact : ∀ {w q answer w'}, act' w q answer w' → act w q answer w') :
    Safe rely act' guar post program world := by
  induction program generalizing world with
  | done result => exact h
  | ask q next ih =>
      intro reached hrely answer after hstep
      obtain ⟨hguar, hnext⟩ := h reached hrely answer after (hact hstep)
      exact ⟨hguar, ih answer hnext⟩

/-- What holds and is stable holds wherever `rely` leads. -/
theorem stable_reached {reached : W} (hstable : ∀ w w', P w → rely w w' → P w') (h : P world)
    (hrely : ReflTransGen rely world reached) : P reached := by
  induction hrely with
  | refl => exact h
  | tail _ hstep ih => exact hstable _ _ ih hstep

/-- A program has ended safely when a stable fact gives its postcondition. -/
theorem safe_done {result : R} (hstable : ∀ w w', P w → rely w w' → P w') (h : P world)
    (hpost : ∀ w, P w → post result w) : Safe rely act guar post (done result) world :=
  fun _ hrely => hpost _ (stable_reached hstable h hrely)

/-- A question is safe when a stable fact makes each of its actions respect the guarantee and
leaves the rest of the program safe. -/
theorem safe_ask {q : Q} {next : A q → Asks Q A R} (hstable : ∀ w w', P w → rely w w' → P w')
    (h : P world)
    (hact : ∀ w answer w', P w → act w q answer w' →
      guar w q answer w' ∧ Safe rely act guar post (next answer) w') :
    Safe rely act guar post (ask q next) world :=
  fun _ hrely answer _ hanswer =>
    hact _ answer _ (stable_reached hstable h hrely) hanswer

/-- A sequence is safe when the first program is, and the rest is from wherever it ends. -/
theorem safe_bind {first : Asks Q A R} {rest : R → Asks Q A S} {post' : S → W → Prop}
    (hfirst : Safe rely act guar post first world)
    (hrest : ∀ result w, post result w → Safe rely act guar post' (rest result) w) :
    Safe rely act guar post' (first >>= rest) world := by
  induction first generalizing world with
  | done result => exact hrest result world (hfirst world .refl)
  | ask q next ih =>
      intro reached hrely answer after hact
      obtain ⟨hguar, hnext⟩ := hfirst reached hrely answer after hact
      exact ⟨hguar, ih answer hnext⟩

/-- A fallible sequence is safe when the first program is, and the rest is from wherever it ends
with a value; an error ends the sequence. -/
theorem safe_except_bind {ε α β : Type} {first : ExceptT ε (Asks Q A) α}
    {rest : α → ExceptT ε (Asks Q A) β} {mid : Except ε α → W → Prop}
    {post' : Except ε β → W → Prop} (hfirst : Safe rely act guar mid first.run world)
    (herror : ∀ e w, mid (.error e) w → Safe rely act guar post' (done (.error e)) w)
    (hrest : ∀ value w, mid (.ok value) w → Safe rely act guar post' (rest value).run w) :
    Safe rely act guar post' (first >>= rest).run world := by
  refine safe_bind hfirst fun result w hmid => ?_
  cases result with
  | error e => exact herror e w hmid
  | ok value => exact hrest value w hmid

/-- A program with its error rewritten. -/
theorem safe_adapt {ε ε' α : Type} {program : ExceptT ε (Asks Q A) α} {f : ε → ε'}
    {mid : Except ε α → W → Prop} {post' : Except ε' α → W → Prop}
    (hprogram : Safe rely act guar mid program.run world)
    (hpost : ∀ result w, mid result w → Safe rely act guar post' (done (result.mapError f)) w) :
    Safe rely act guar post' (program.adapt f).run world :=
  safe_bind hprogram hpost

end Rules

end Asks

/-! ## Threads -/

variable {ι W Q R : Type} {A : Q → Type}

/-- A world with its threads, each idle or inside of a program, and the results so far. -/
structure System (ι W Q : Type) (A : Q → Type) (R : Type) where
  world : W
  running : ι → Option (Asks Q A R)
  ended : List (ι × R)

/-- The moves of a system: what happens without any thread, the programs a thread may start, what
it may do in between, and what its questions do. -/
structure Interleaving (ι W Q : Type) (A : Q → Type) (R : Type) where
  event : W → W → Prop
  call : ι → Asks Q A R → Prop
  command : ι → W → W → Prop
  act : ι → W → (q : Q) → A q → W → Prop

/-- What a step of a system was. -/
inductive Label (ι Q : Type) (A : Q → Type) (R : Type) where
  | event
  | call (thread : ι)
  | command (thread : ι)
  | act (thread : ι) (q : Q) (answer : A q)
  | finish (thread : ι) (result : R)

variable [DecidableEq ι]

/-- One step of a system. -/
inductive System.Step (moves : Interleaving ι W Q A R) :
    System ι W Q A R → Label ι Q A R → System ι W Q A R → Prop
  | event {s : System ι W Q A R} {world : W} :
      moves.event s.world world → Step moves s .event { s with world }
  | call {s : System ι W Q A R} {i : ι} {program : Asks Q A R} :
      s.running i = none → moves.call i program →
      Step moves s (.call i) { s with running := Function.update s.running i (some program) }
  | command {s : System ι W Q A R} {i : ι} {world : W} :
      s.running i = none → moves.command i s.world world →
      Step moves s (.command i) { s with world }
  | act {s : System ι W Q A R} {i : ι} {q : Q} {next : A q → Asks Q A R} {answer : A q} {world : W} :
      s.running i = some (.ask q next) → moves.act i s.world q answer world →
      Step moves s (.act i q answer)
        { s with world, running := Function.update s.running i (some (next answer)) }
  | finish {s : System ι W Q A R} {i : ι} {result : R} :
      s.running i = some (.done result) →
      Step moves s (.finish i result)
        { s with running := Function.update s.running i none, ended := (i, result) :: s.ended }

/-- The states that a system reaches. -/
def System.Reaches (moves : Interleaving ι W Q A R) : System ι W Q A R → System ι W Q A R → Prop :=
  ReflTransGen fun s s' => ∃ label, System.Step moves s label s'

/-- One program running alone among the events. -/
inductive Asks.Runs (event : W → W → Prop) (act : W → (q : Q) → A q → W → Prop) :
    W → Asks Q A R → W → R → Prop
  | done {world : W} {result : R} : Runs event act world (.done result) world result
  | event {world after final : W} {program : Asks Q A R} {result : R} :
      event world after → Runs event act after program final result →
      Runs event act world program final result
  | ask {world after final : W} {q : Q} {next : A q → Asks Q A R} {answer : A q} {result : R} :
      act world q answer after → Runs event act after (next answer) final result →
      Runs event act world (.ask q next) final result

/-- A thread inside of a program takes it to its end. -/
theorem System.reaches_finish {moves : Interleaving ι W Q A R} {i : ι} {world final : W}
    {program : Asks Q A R} {result : R} {running : ι → Option (Asks Q A R)} {ended : List (ι × R)}
    (hrun : Asks.Runs moves.event (moves.act i) world program final result)
    (hidle : running i = none) :
    System.Reaches moves ⟨world, Function.update running i (some program), ended⟩
      ⟨final, running, (i, result) :: ended⟩ := by
  induction hrun with
  | @done world result =>
      have hstep : System.Step moves
          ⟨world, Function.update running i (some (.done result)), ended⟩ (.finish i result)
          ⟨world, Function.update (Function.update running i (some (.done result))) i none,
            (i, result) :: ended⟩ := .finish (by simp)
      rw [Function.update_idem, ← hidle, Function.update_eq_self] at hstep
      exact .single ⟨_, hstep⟩
  | event hevent _ ih => exact .head ⟨_, .event hevent⟩ ih
  | @ask world after final q next answer result hact _ ih =>
      have hstep : System.Step moves
          ⟨world, Function.update running i (some (.ask q next)), ended⟩ (.act i q answer)
          ⟨after, Function.update (Function.update running i (some (.ask q next))) i
            (some (next answer)), ended⟩ := .act (by simp) hact
      rw [Function.update_idem] at hstep
      exact .head ⟨_, hstep⟩ ih

/-- An idle thread starts a program and takes it to its end. -/
theorem System.reaches_call {moves : Interleaving ι W Q A R} {s : System ι W Q A R} {i : ι}
    {final : W} {program : Asks Q A R} {result : R} (hidle : s.running i = none)
    (hcall : moves.call i program)
    (hrun : Asks.Runs moves.event (moves.act i) s.world program final result) :
    System.Reaches moves s ⟨final, s.running, (i, result) :: s.ended⟩ :=
  .head ⟨_, .call hidle hcall⟩ (System.reaches_finish hrun hidle)

/-- An invariant with the rely, the guarantee and the idle assertion of every thread: each move
keeps the invariant and is within what the other threads rely on, each program that an idle thread
may start is safe under the invariant, and its end leaves the thread idle again. -/
structure Discipline (moves : Interleaving ι W Q A R) (inv : W → Prop) (rely : ι → W → W → Prop)
    (guar : ι → W → (q : Q) → A q → W → Prop) (idle : ι → W → Prop) (post : ι → R → W → Prop) :
    Prop where
  event : ∀ {w w'}, inv w → moves.event w w' → inv w' ∧ ∀ i, ReflTransGen (rely i) w w'
  command : ∀ {i w w'}, inv w → idle i w → moves.command i w w' →
    (inv w' ∧ idle i w') ∧ ∀ j, j ≠ i → ReflTransGen (rely j) w w'
  act : ∀ {i w q answer w'}, inv w → guar i w q answer w' →
    inv w' ∧ ∀ j, j ≠ i → ReflTransGen (rely j) w w'
  call : ∀ {i program w}, inv w → idle i w → moves.call i program →
    Asks.Safe (rely i) (fun w q answer w' => inv w ∧ moves.act i w q answer w') (guar i) (post i)
      program w
  finish : ∀ {i result w}, post i result w → idle i w
  stable : ∀ {i w w'}, idle i w → rely i w w' → idle i w'

namespace Discipline

variable {moves : Interleaving ι W Q A R} {inv : W → Prop} {rely : ι → W → W → Prop}
variable {guar : ι → W → (q : Q) → A q → W → Prop} {idle : ι → W → Prop}
variable {post : ι → R → W → Prop}

/-- An idle thread is idle, and a program that runs is safe. -/
def ThreadSafe (moves : Interleaving ι W Q A R) (inv : W → Prop) (rely : ι → W → W → Prop)
    (guar : ι → W → (q : Q) → A q → W → Prop) (idle : ι → W → Prop) (post : ι → R → W → Prop)
    (i : ι) (world : W) : Option (Asks Q A R) → Prop
  | none => idle i world
  | some program =>
      Asks.Safe (rely i) (fun w q answer w' => inv w ∧ moves.act i w q answer w') (guar i) (post i)
        program world

/-- Every thread is safe where the system is. -/
def AllSafe (moves : Interleaving ι W Q A R) (inv : W → Prop) (rely : ι → W → W → Prop)
    (guar : ι → W → (q : Q) → A q → W → Prop) (idle : ι → W → Prop) (post : ι → R → W → Prop)
    (s : System ι W Q A R) : Prop :=
  ∀ i, ThreadSafe moves inv rely guar idle post i s.world (s.running i)

omit [DecidableEq ι] in
/-- What the others do keeps a thread safe. -/
theorem thread_safe_reached (d : Discipline moves inv rely guar idle post) {i : ι}
    {world reached : W} {running : Option (Asks Q A R)}
    (h : ThreadSafe moves inv rely guar idle post i world running)
    (hrely : ReflTransGen (rely i) world reached) :
    ThreadSafe moves inv rely guar idle post i reached running := by
  cases running with
  | none => exact Asks.stable_reached (P := idle i) (fun _ _ => d.stable) h hrely
  | some program => exact Asks.Safe.mono_world h hrely

/-- One step keeps the invariant and the safety of every thread. -/
theorem step_safe (d : Discipline moves inv rely guar idle post) {s s' : System ι W Q A R}
    {label : Label ι Q A R} (hstep : System.Step moves s label s') (hinv : inv s.world)
    (hsafe : AllSafe moves inv rely guar idle post s) :
    inv s'.world ∧ AllSafe moves inv rely guar idle post s' := by
  cases hstep with
  | event hevent =>
      obtain ⟨hinv', hrely⟩ := d.event hinv hevent
      exact ⟨hinv', fun i => d.thread_safe_reached (hsafe i) (hrely i)⟩
  | @call i program hidle hcall =>
      refine ⟨hinv, fun j => ?_⟩
      rcases eq_or_ne j i with rfl | hne
      · have hj := hsafe j
        rw [hidle] at hj
        show ThreadSafe moves inv rely guar idle post j s.world
          (Function.update s.running j (some program) j)
        rw [Function.update_self]
        exact d.call hinv hj hcall
      · simpa [hne] using hsafe j
  | @command i world hidle hcommand =>
      have hi := hsafe i
      rw [hidle] at hi
      obtain ⟨⟨hinv', hi'⟩, hrely⟩ := d.command hinv hi hcommand
      refine ⟨hinv', fun j => ?_⟩
      rcases eq_or_ne j i with rfl | hne
      · show ThreadSafe moves inv rely guar idle post j world (s.running j)
        rw [hidle]
        exact hi'
      · exact d.thread_safe_reached (hsafe j) (hrely j hne)
  | @act i q next answer world hrunning hact =>
      have hi := hsafe i
      rw [hrunning] at hi
      obtain ⟨hguar, hnext⟩ := hi _ .refl answer world ⟨hinv, hact⟩
      obtain ⟨hinv', hrely⟩ := d.act hinv hguar
      refine ⟨hinv', fun j => ?_⟩
      rcases eq_or_ne j i with rfl | hne
      · show ThreadSafe moves inv rely guar idle post j world
          (Function.update s.running j (some (next answer)) j)
        rw [Function.update_self]
        exact hnext
      · simpa [hne] using d.thread_safe_reached (hsafe j) (hrely j hne)
  | @finish i result hrunning =>
      have hi := hsafe i
      rw [hrunning] at hi
      refine ⟨hinv, fun j => ?_⟩
      rcases eq_or_ne j i with rfl | hne
      · show ThreadSafe moves inv rely guar idle post j s.world
          (Function.update s.running j none j)
        rw [Function.update_self]
        exact d.finish (hi _ .refl)
      · simpa [hne] using hsafe j

/-- From an idle start, every reachable state keeps the invariant, and every running program is
safe there. -/
theorem safe (d : Discipline moves inv rely guar idle post) {s s' : System ι W Q A R}
    (hinv : inv s.world) (hidle : ∀ i, s.running i = none ∧ idle i s.world)
    (hrun : System.Reaches moves s s') :
    inv s'.world ∧ AllSafe moves inv rely guar idle post s' := by
  induction hrun with
  | refl =>
      refine ⟨hinv, fun i => ?_⟩
      rw [(hidle i).1]
      exact (hidle i).2
  | tail _ hstep ih =>
      obtain ⟨label, hstep⟩ := hstep
      exact d.step_safe hstep ih.1 ih.2

/-- Every question that is asked in a reachable state acts within the guarantee of its thread. -/
theorem guarantee (d : Discipline moves inv rely guar idle post) {s s' after : System ι W Q A R}
    {i : ι} {q : Q} {answer : A q} (hinv : inv s.world)
    (hidle : ∀ i, s.running i = none ∧ idle i s.world) (hrun : System.Reaches moves s s')
    (hstep : System.Step moves s' (.act i q answer) after) :
    guar i s'.world q answer after.world := by
  cases hstep with
  | act hrunning hact =>
      obtain ⟨hinv', hsafe⟩ := d.safe hinv hidle hrun
      have hi := hsafe i
      rw [hrunning] at hi
      exact (hi _ .refl answer _ ⟨hinv', hact⟩).1

/-- Postconditions that no move undoes hold of every result in every later state. -/
theorem ended (d : Discipline moves inv rely guar idle post) {s s' : System ι W Q A R}
    (hinv : inv s.world) (hidle : ∀ i, s.running i = none ∧ idle i s.world) (hnone : s.ended = [])
    (hevent : ∀ {i r w w'}, post i r w → moves.event w w' → post i r w')
    (hcommand : ∀ {i r j w w'}, post i r w → moves.command j w w' → post i r w')
    (hact : ∀ {i r j w q answer w'}, post i r w → guar j w q answer w' → post i r w')
    (hrun : System.Reaches moves s s') :
    ∀ i result, (i, result) ∈ s'.ended → post i result s'.world := by
  induction hrun with
  | refl => exact fun i result hmem => absurd hmem (by simp [hnone])
  | @tail before _ hbefore hstep ih =>
      obtain ⟨label, hstep⟩ := hstep
      obtain ⟨hinv', hsafe⟩ := d.safe hinv hidle hbefore
      intro i result hmem
      cases hstep with
      | event hmoves => exact hevent (ih i result hmem) hmoves
      | call _ _ => exact ih i result hmem
      | command _ hmoves => exact hcommand (ih i result hmem) hmoves
      | @act j q next answer world hrunning hmoves =>
          have hj := hsafe j
          rw [hrunning] at hj
          exact hact (ih i result hmem) (hj _ .refl _ _ ⟨hinv', hmoves⟩).1
      | @finish j last hrunning =>
          rcases List.mem_cons.mp hmem with heq | hmem
          · obtain ⟨rfl, rfl⟩ := Prod.mk.inj heq
            have hi := hsafe i
            rw [hrunning] at hi
            exact hi _ .refl
          · exact ih i result hmem

end Discipline

end PgDurable
