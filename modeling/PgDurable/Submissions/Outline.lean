import PgDurable.Submissions.Start

/-!
# A proof outline of `df.start`

`Point` lists the points of `df.start` between its statements. An `Outline` says what holds at each
point and that every statement leads from one point to the next, or to a failure. `start_safe` says
that an outline makes the program safe; `cleanup_safe` says that a cleanup pass needs no outline,
because its statements check themselves what they rely on. Each property of the system is proved by
giving the assertions it needs.
-/

namespace PgDurable.Submissions

open Instances

variable {ι : Type} [DecidableEq ι]

/-- The points of a session: between calls, and inside of `df.start` with the transaction open, the
lock taken, the instance ids listed and counted, the limits passed, an id reserved, the id claimed,
its work queued, or with an error on its way out. -/
inductive Point where
  | idle
  | opened
  | locked
  | listed (given : Finset RootId)
  | counted (counts : Nat × Nat)
  | admitted
  | reserved (row : OwnedId)
  | claimed (row : OwnedId)
  | queued
  | failed

/-- The points at which a statement may fail. -/
def Point.fallible : Point → Bool
  | .idle | .queued | .failed => false
  | _ => true

/-- No limit applies to the start. -/
def Unlimited (limits : Limits) (isSuper : Bool) : Prop :=
  isSuper = true ∨ limits.maxConcurrentPerUser = 0 ∧ limits.maxInstancesPerUser = 0

/-- The counts are under the limits. -/
def Under (limits : Limits) (counts : Nat × Nat) : Prop :=
  (0 < limits.maxInstancesPerUser → counts.1 < limits.maxInstancesPerUser) ∧
    (0 < limits.maxConcurrentPerUser → counts.2 < limits.maxConcurrentPerUser)

/-- The statements that need no assertion to respect the others. -/
def Statement.unguarded : Statement → Bool
  | .claimInstance _ | .enqueue => false
  | _ => true

/-- The statements of a cleanup pass. -/
def Statement.maintenance : Statement → Bool
  | .submissionPage _ | .retiredSubmissions _ | .submissionsWithoutMetadata _
  | .deleteSubmissions _ | .commitDelete => true
  | _ => false

/-- What holds at each point is stable, and each statement leads from one point to the next. -/
structure Outline (i : ι) (limits : Limits) (isSuper : Bool) (owner : Owner)
    (rely : Cluster ι → Cluster ι → Prop)
    (guar : Cluster ι → (q : Statement) → q.Answer → Cluster ι → Prop)
    (holds : Point → Cluster ι → Prop) : Prop where
  stable : ∀ p w w', holds p w → rely w w' → holds p w'
  fails : ∀ {p w}, p.fallible = true → holds p w → holds .failed w
  unguarded : ∀ {w q answer w'}, q.unguarded = true → Act i w q answer w' → guar w q answer w'
  unlimited : ∀ {w}, Unlimited limits isSuper → holds .opened w → holds .admitted w
  opens : ∀ {w answer w'}, holds .idle w → Act i w .openTransaction answer w' → holds .opened w'
  lock : ∀ {w w'}, holds .opened w → Act i w (.acquireInstanceQuotaLock owner) (.ok ()) w' →
    holds .locked w'
  list : ∀ {w given w'}, holds .locked w → Act i w (.currentInstanceIds owner) (.ok given) w' →
    holds (.listed given) w'
  count : ∀ {w given counts w'}, holds (.listed given) w →
    Act i w (.submissionCounts given owner (decide (0 < limits.maxConcurrentPerUser)))
      (.ok counts) w' → holds (.counted counts) w'
  under : ∀ {w counts}, holds (.counted counts) w → Under limits counts → holds .admitted w
  reserve : ∀ {w row w'}, holds .admitted w → row.owner = owner →
    Act i w (.reserveSubmission row) (.ok true) w' → holds (.reserved row) w'
  claim : ∀ {w row answer w'}, holds (.reserved row) w → Act i w (.claimInstance row) answer w' →
    guar w (.claimInstance row) answer w' ∧ (answer = .ok true → holds (.claimed row) w')
  release : ∀ {w row answer w'}, holds (.reserved row) w → Act i w .rollbackReservation answer w' →
    holds .admitted w'
  unwind : ∀ {w answer w'}, holds .failed w → Act i w .rollbackReservation answer w' →
    holds .failed w'
  enqueue : ∀ {w row answer w'}, holds (.claimed row) w → Act i w .enqueue answer w' →
    guar w .enqueue answer w' ∧ holds .failed w' ∧ (answer = .ok () → holds .queued w')
  raise : ∀ {w answer w'}, holds .failed w → Act i w .raise answer w' → holds .idle w'
  finish : ∀ {w}, holds .queued w → holds .idle w

/-- A program among the statements of thread `i`, under an invariant. -/
abbrev SafeRun {α : Type} (i : ι) (inv : Cluster ι → Prop) (rely : Cluster ι → Cluster ι → Prop)
    (guar : Cluster ι → (q : Statement) → q.Answer → Cluster ι → Prop)
    (post : α → Cluster ι → Prop) (program : Asks Statement Statement.Answer α)
    (w : Cluster ι) : Prop :=
  Asks.Safe rely (fun w q answer w' => inv w ∧ Act i w q answer w') guar post program w

/-- The point that a program reaches with a value; an error is on its way out. -/
def Reached (holds : Point → Cluster ι → Prop) {α : Type} (next : α → Point) :
    Except String α → Cluster ι → Prop
  | .ok value => holds (next value)
  | .error _ => holds .failed

/-- A statement that fails without effect leaves everything as it was. -/
theorem refused_eq {i : ι} {w w' : Cluster ι} {q : Statement} {e : String}
    (hq : q.refusable = true) (hstep : Act i w q (.error e) w') : w' = w := by
  cases hstep <;> first | rfl | nomatch hq

section Walk

variable {i : ι} {limits : Limits} {isSuper : Bool} {owner : Owner}
variable {inv : Cluster ι → Prop} {rely : Cluster ι → Cluster ι → Prop}
variable {guar : Cluster ι → (q : Statement) → q.Answer → Cluster ι → Prop}
variable {holds : Point → Cluster ι → Prop} {w : Cluster ι}

/-- A program that has failed. -/
theorem safe_error (outline : Outline i limits isSuper owner rely guar holds) {α : Type}
    {next : α → Point} (e : String) (h : holds .failed w) :
    SafeRun i inv rely guar (Reached holds next) (.done (.error e)) w :=
  Asks.safe_done (outline.stable .failed) h fun _ h => h

/-- A program that has ended with a value. -/
theorem safe_value (outline : Outline i limits isSuper owner rely guar holds) {α : Type}
    {next : α → Point} {value : α} (h : holds (next value) w) :
    SafeRun i inv rely guar (Reached holds next) (.done (.ok value)) w :=
  Asks.safe_done (outline.stable (next value)) h fun _ h => h

/-- A sequence passes through the point that its first program reaches. -/
theorem safe_then (outline : Outline i limits isSuper owner rely guar holds) {α β : Type}
    {first : Submit α} {rest : α → Submit β} {middle : α → Point} {next : β → Point}
    (hfirst : SafeRun i inv rely guar (Reached holds middle) first.run w)
    (hrest : ∀ value w, holds (middle value) w →
      SafeRun i inv rely guar (Reached holds next) (rest value).run w) :
    SafeRun i inv rely guar (Reached holds next) (first >>= rest).run w :=
  Asks.safe_except_bind hfirst (fun e _ hfailed => safe_error outline e hfailed) hrest

/-- Naming an error changes nothing else. -/
theorem safe_naming (outline : Outline i limits isSuper owner rely guar holds) {α : Type}
    {next : α → Point} {label : String} {program : Submit α}
    (h : SafeRun i inv rely guar (Reached holds next) program.run w) :
    SafeRun i inv rely guar (Reached holds next) (naming label program).run w := by
  refine Asks.safe_adapt h fun result w hresult => ?_
  cases result with
  | ok value => exact safe_value outline hresult
  | error e => exact safe_error outline _ hresult

/-- One statement leads from a point to the next. -/
theorem safe_run (outline : Outline i limits isSuper owner rely guar holds) {q : Statement}
    (p : Point) (next : q.Value → Point) (h : holds p w)
    (hguar : ∀ {w answer w'}, holds p w → Act i w q answer w' → guar w q answer w')
    (hok : ∀ {w value w'}, holds p w → Act i w q (.ok value) w' → holds (next value) w')
    (herror : ∀ {w e w'}, holds p w → Act i w q (.error e) w' → holds .failed w') :
    SafeRun i inv rely guar (Reached holds next) (run q).run w := by
  refine Asks.safe_ask (outline.stable p) h fun w answer w' hp hstep => ⟨hguar hp hstep.2, ?_⟩
  cases answer with
  | ok value => exact safe_value outline (hok hp hstep.2)
  | error e => exact safe_error outline e (herror hp hstep.2)

/-- One unguarded statement that may fail without effect. -/
theorem safe_refusable (outline : Outline i limits isSuper owner rely guar holds) {q : Statement}
    (p : Point) (next : q.Value → Point) (h : holds p w) (hp : p.fallible = true)
    (hq : q.unguarded = true) (hrefusable : q.refusable = true)
    (hok : ∀ {w value w'}, holds p w → Act i w q (.ok value) w' → holds (next value) w') :
    SafeRun i inv rely guar (Reached holds next) (run q).run w := by
  refine safe_run outline p next h (fun _ hstep => outline.unguarded hq hstep) hok fun h hstep => ?_
  rw [refused_eq hrefusable hstep]
  exact outline.fails hp h

/-- A guarded program: an error rolls the reservation back. -/
theorem safe_guarded (outline : Outline i limits isSuper owner rely guar holds) {α : Type}
    {next : α → Point} {program : Submit α}
    (h : SafeRun i inv rely guar (Reached holds next) program.run w) :
    SafeRun i inv rely guar (Reached holds next) (guarded program).run w := by
  refine Asks.safe_bind h fun result w hresult => ?_
  cases result with
  | ok value => exact safe_value outline hresult
  | error e =>
      exact Asks.safe_ask (outline.stable .failed) hresult fun w answer w' hfailed hstep =>
        ⟨outline.unguarded rfl hstep.2, safe_error outline e (outline.unwind hfailed hstep.2)⟩

/-- A start passes the limits only where the outline says so. -/
theorem enforce_safe (outline : Outline i limits isSuper owner rely guar holds)
    (userName : String) (h : holds .opened w) :
    SafeRun i inv rely guar (Reached holds fun _ => .admitted)
      (enforceInstanceLimits limits owner userName).run w := by
  rw [enforceInstanceLimits]
  split
  · next hnone => exact safe_value outline (outline.unlimited (.inr hnone) h)
  · refine safe_then outline (safe_refusable outline .opened (fun _ => .locked) h rfl rfl rfl
      fun h hstep => outline.lock h hstep) fun _ w hlocked => ?_
    refine safe_then outline (safe_refusable outline .locked .listed hlocked rfl rfl rfl
      fun h hstep => outline.list h hstep) fun given w hlisted => ?_
    refine safe_then outline (safe_naming outline (safe_refusable outline (.listed given) .counted
      hlisted rfl rfl rfl fun h hstep => outline.count h hstep)) fun counts w hcounted => ?_
    have hfailed : holds .failed w := outline.fails rfl hcounted
    split
    · exact safe_error outline _ hfailed
    · next hretained =>
      split
      · exact safe_error outline _ hfailed
      · next hactive =>
        have hunder : Under limits counts := by
          constructor <;> intro hpositive <;> omega
        exact safe_value outline (outline.under hcounted hunder)

/-- A start is admitted only where the outline says so. -/
theorem limit_caller_safe (outline : Outline i limits isSuper owner rely guar holds)
    (userName : String) (h : holds .opened w) :
    SafeRun i inv rely guar (Reached holds fun _ => .admitted)
      (limitCaller limits isSuper owner userName).run w := by
  rw [limitCaller]
  split
  · next hsuper => exact safe_value outline (outline.unlimited (.inl hsuper) h)
  · exact enforce_safe outline userName h

/-- One attempt ends with the id claimed, or where it began. -/
theorem try_claim_safe (outline : Outline i limits isSuper owner rely guar holds)
    {row : OwnedId} (hrow : row.owner = owner) (h : holds .admitted w) :
    SafeRun i inv rely guar
      (Reached holds fun claimed => if claimed then .claimed row else .admitted)
      (tryClaim row).run w := by
  refine safe_then outline (safe_refusable outline .admitted
    (fun reserved => if reserved then .reserved row else .admitted) h rfl rfl rfl ?_)
    fun reserved w hreserved => ?_
  · intro w reserved w' hadmitted hstep
    cases hstep with
    | reserve hfree hkept hnew => exact outline.reserve hadmitted hrow (.reserve hfree hkept hnew)
    | reserveConflict hkept hold => exact hadmitted
  cases reserved with
  | false => exact safe_value outline hreserved
  | true =>
      refine safe_then outline (safe_guarded outline (safe_run outline (.reserved row)
        (fun claimed => if claimed then .claimed row else .reserved row) hreserved
        (fun hreserved hstep => (outline.claim hreserved hstep).1) ?_ ?_))
        fun claimed w hclaimed => ?_
      · intro w claimed w' hreserved hstep
        cases claimed with
        | true => exact (outline.claim hreserved hstep).2 rfl
        | false =>
            cases hstep with
            | claimConflict hold => exact hreserved
      · intro w e w' hreserved hstep
        rw [refused_eq rfl hstep]
        exact outline.fails rfl hreserved
      cases claimed with
      | true => exact safe_value outline hclaimed
      | false =>
          exact safe_then outline (safe_naming outline (safe_run outline (.reserved row)
            (fun _ => .admitted) hclaimed (fun _ hstep => outline.unguarded rfl hstep)
            (fun hreserved hstep => outline.release hreserved hstep)
            (fun hreserved hstep => outline.fails rfl (outline.release hreserved hstep))))
            fun _ w hadmitted => safe_value outline hadmitted

/-- The attempts end with an id claimed. -/
theorem pick_id_safe (outline : Outline i limits isSuper owner rely guar holds) (attempts : Nat)
    (h : holds .admitted w) :
    SafeRun i inv rely guar (Reached holds fun id => .claimed ⟨id, owner.role⟩)
      (pickIdWithRetry owner.origin owner.role attempts).run w := by
  induction attempts generalizing w with
  | zero => exact safe_error outline _ (outline.fails rfl h)
  | succ attempts ih =>
      refine safe_then outline (safe_run outline .admitted (fun _ => .admitted) h
        (fun _ hstep => outline.unguarded rfl hstep) ?_ ?_) fun candidate w hadmitted => ?_
      · intro w candidate w' hadmitted hstep
        cases hstep with
        | shortId candidate => exact hadmitted
      · intro w e w' hadmitted hstep
        cases hstep with
        | refused hrefusable => nomatch hrefusable
      · refine safe_then outline (try_claim_safe outline rfl hadmitted) fun claimed w hclaimed => ?_
        cases claimed with
        | true => exact safe_value outline hclaimed
        | false => exact ih hclaimed

/-- `df.start` without the handling of its error. -/
theorem start_body_safe (outline : Outline i limits isSuper owner rely guar holds)
    (userName : String) (h : holds .opened w) :
    SafeRun i inv rely guar (Reached holds fun _ => .queued)
      (startInCallerTransaction limits isSuper owner userName).run w := by
  refine safe_then outline (limit_caller_safe outline userName h) fun _ w hadmitted => ?_
  refine safe_then outline (safe_naming outline (pick_id_safe outline maxIdAttempts hadmitted))
    fun id w hclaimed => ?_
  refine safe_then outline (safe_guarded outline (safe_refusable outline
    (.claimed ⟨id, owner.role⟩) (fun _ => .claimed ⟨id, owner.role⟩) hclaimed rfl rfl rfl ?_))
    fun _ w hclaimed => ?_
  · intro w value w' hclaimed hstep
    cases hstep with
    | insertNodes => exact hclaimed
  · exact safe_then outline (safe_naming outline (safe_run outline (.claimed ⟨id, owner.role⟩)
      (fun _ => .queued) hclaimed (fun hclaimed hstep => (outline.enqueue hclaimed hstep).1)
      (fun hclaimed hstep => (outline.enqueue hclaimed hstep).2.2 rfl)
      (fun hclaimed hstep => (outline.enqueue hclaimed hstep).2.1)))
      fun _ w hqueued => safe_value outline hqueued

/-- `df.start` is safe by its outline and leaves its session idle. -/
theorem start_safe (outline : Outline i limits isSuper owner rely guar holds)
    (userName : String) (h : holds .idle w) :
    SafeRun i inv rely guar (fun _ => holds .idle) (start limits isSuper owner userName) w := by
  refine Asks.safe_ask (outline.stable .idle) h
    fun w answer w' hidle hstep => ⟨outline.unguarded rfl hstep.2, ?_⟩
  show SafeRun i inv rely guar (fun _ => holds .idle)
    ((startInCallerTransaction limits isSuper owner userName).run >>= _) w'
  refine Asks.safe_bind (start_body_safe outline userName (outline.opens hidle hstep.2))
    fun result w hresult => ?_
  cases result with
  | ok id => exact Asks.safe_done (outline.stable .queued) hresult fun _ h => outline.finish h
  | error e =>
      exact Asks.safe_ask (outline.stable .failed) hresult fun w answer w' hfailed hstep =>
        ⟨outline.unguarded rfl hstep.2, Asks.safe_done (outline.stable .idle)
          (outline.raise hfailed hstep.2) fun _ h => h⟩

/-! ## Cleanup passes -/

variable {P : Cluster ι → Prop}

/-- One statement of a cleanup pass that keeps a stable assertion, whatever it answers. -/
theorem safe_keeps {q : Statement} (hstable : ∀ w w', P w → rely w w' → P w') (h : P w)
    (hact : ∀ {w q answer w'}, q.maintenance = true → inv w → P w → Act i w q answer w' →
      guar w q answer w' ∧ P w')
    (hq : q.maintenance = true) : SafeRun i inv rely guar (fun _ => P) (run q).run w := by
  refine Asks.safe_ask hstable h fun w answer w' hP hstep => ?_
  obtain ⟨hguar, hP'⟩ := hact hq hstep.1 hP hstep.2
  exact ⟨hguar, Asks.safe_done hstable hP' fun _ h => h⟩

/-- The metadata checks of a cleanup pass keep it. -/
theorem removable_safe (hstable : ∀ w w', P w → rely w w' → P w') (h : P w)
    (hact : ∀ {w q answer w'}, q.maintenance = true → inv w → P w → Act i w q answer w' →
      guar w q answer w' ∧ P w')
    (retired : List RootId) (origins : List (Option Origin)) :
    SafeRun i inv rely guar (fun _ => P) (removableSubmissions retired origins) w := by
  induction origins generalizing w with
  | nil => exact Asks.safe_done hstable h fun _ h => h
  | cons origin origins ih =>
      refine Asks.safe_bind (safe_keeps hstable h hact rfl) fun _ w h => ?_
      exact Asks.safe_bind (ih h) fun _ w h => Asks.safe_done hstable h fun _ h => h

/-- A cleanup pass is safe without an outline: every statement keeps what holds of its thread. -/
theorem cleanup_safe (hstable : ∀ w w', P w → rely w w' → P w') (h : P w)
    (hact : ∀ {w q answer w'}, q.maintenance = true → inv w → P w → Act i w q answer w' →
      guar w q answer w' ∧ P w')
    (cursor : String) : SafeRun i inv rely guar (fun _ => P) (cleanup cursor) w := by
  have hdone : ∀ {α : Type} {value : α} {w}, P w →
      SafeRun i inv rely guar (fun _ => P) (.done value) w :=
    fun h => Asks.safe_done hstable h fun _ h => h
  have hdelete : ∀ removable w, P w →
      SafeRun i inv rely guar (fun _ => P) (deleteRemovable removable).run w := by
    intro removable w h
    rw [deleteRemovable]
    split
    · exact hdone h
    · exact Asks.safe_except_bind (safe_keeps hstable h hact rfl) (fun _ _ h => hdone h)
        fun _ w h => safe_keeps hstable h hact rfl
  have hpass : SafeRun i inv rely guar (fun _ => P) (cleanupSubmissions cursor).run w := by
    refine Asks.safe_except_bind (safe_keeps hstable h hact rfl) (fun _ _ h => hdone h)
      fun ids w h => ?_
    refine Asks.safe_except_bind (safe_keeps hstable h hact rfl) (fun _ _ h => hdone h)
      fun retired w h => ?_
    have hremovable : SafeRun i inv rely guar (fun _ => P) (ExceptT.lift (removableSubmissions retired
        (retired.map RootId.origin).dedup) : Submit (List RootId)).run w :=
      Asks.safe_bind (removable_safe hstable h hact retired _) fun removable w h => hdone h
    refine Asks.safe_except_bind hremovable (fun _ _ h => hdone h) fun removable w h => ?_
    refine Asks.safe_except_bind (hdelete removable w h) (fun _ _ h => hdone h) fun _ w h => ?_
    split <;> exact hdone h
  exact Asks.safe_bind hpass fun _ _ h => hdone h

end Walk

end PgDurable.Submissions
