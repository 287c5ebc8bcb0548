import PgDurable.Submissions.Outline

/-!
# The submission ledger makes engine ids unique

`Keys` is what the unique indexes and the row locks of the tables keep: a reserved id is in no
committed row, no two threads reserve, delete or claim one id, and a ledger row is deleted only
while the engine holds nothing for it. `Accounted` says that all work of the engine is in the
ledger.

`ledger_unique` says that both hold in every reachable state, that a start is queued only for an id
without queued work, engine state or committed instance row, and that a reservation that is not
committed leaves no ledger row.
-/

namespace PgDurable.Submissions

open Cluster Instances

variable {ι : Type}

/-- What unique indexes and row locks keep. -/
structure Keys (w : Cluster ι) : Prop where
  reserved_fresh : ∀ {i row}, w.reserved i = some row → row.id ∉ ids w.ledger
  reserved_distinct : ∀ {i j row other}, w.reserved i = some row → w.reserved j = some other →
    row.id = other.id → i = j
  deleting_recorded : ∀ {i id}, id ∈ w.deleting i → id ∈ ids w.ledger
  deleting_distinct : ∀ {i j id}, id ∈ w.deleting i → id ∈ w.deleting j → i = j
  deleting_idle : ∀ {i id}, id ∈ w.deleting i → (w.engine id).hasWork = false
  claimed_distinct : ∀ {i j row other}, row ∈ rowsOf (w.frames i) → other ∈ rowsOf (w.frames j) →
    row.id = other.id → i = j ∧ row = other
  claimed_fresh : ∀ {i id}, id ∈ ids (rowsOf (w.frames i)) → id ∉ ids w.instances

/-- Every root with queued work or engine state has a ledger row. -/
def Accounted (w : Cluster ι) : Prop :=
  ∀ id, (w.engine id).hasWork = true → id ∈ ids w.ledger

/-! ## Rows -/

@[simp] theorem mem_ids {rows : Finset OwnedId} {id : RootId} :
    id ∈ ids rows ↔ ∃ row ∈ rows, row.id = id := by
  simp [ids]

/-- The rows of a transaction by its subtransactions. -/
theorem rows_of_append (inner outer : List Frame) :
    rowsOf (inner ++ outer) = rowsOf inner ∪ rowsOf outer := by
  induction inner with
  | nil => simp [rowsOf]
  | cons frame inner ih => simp [rowsOf, ih, Finset.union_assoc]

/-- Ids of more rows. -/
theorem ids_mono {rows more : Finset OwnedId} (h : rows ⊆ more) : ids rows ⊆ ids more :=
  Finset.image_subset_image h

variable [DecidableEq ι] {i : ι} {w w' : Cluster ι}

/-! ## The steps of a cluster keep the keys -/

/-- A transaction that keeps or drops its rows, or writes a fresh one. -/
theorem keys_set_frames (hkeys : Keys w) {frames : List Frame} (new : Finset OwnedId)
    (hrows : rowsOf frames ⊆ new ∪ rowsOf (w.frames i))
    (hone : ∀ row ∈ new, ∀ other ∈ new, row = other)
    (hfree : ∀ row ∈ new, ∀ j, row.id ∉ ids (rowsOf (w.frames j)))
    (hfresh : ∀ row ∈ new, row.id ∉ ids w.instances) : Keys (w.setFrames i frames) := by
  have hcases : ∀ {j row}, row ∈ rowsOf ((w.setFrames i frames).frames j) →
      row ∈ rowsOf (w.frames j) ∨ j = i ∧ row ∈ new := by
    intro j row hrow
    rcases eq_or_ne j i with rfl | hne
    · rw [set_frames_self] at hrow
      rcases Finset.mem_union.mp (hrows hrow) with hnew | hold
      · exact .inr ⟨rfl, hnew⟩
      · exact .inl hold
    · rw [set_frames_of_ne hne] at hrow
      exact .inl hrow
  refine { hkeys with claimed_distinct := ?_, claimed_fresh := ?_ }
  · intro j k row other hrow hother hid
    rcases hcases hrow with hold | ⟨hj, hnew⟩
    · rcases hcases hother with hold' | ⟨hk, hnew'⟩
      · exact hkeys.claimed_distinct hold hold' hid
      · exact absurd (mem_ids.mpr ⟨row, hold, hid⟩) (hfree other hnew' j)
    · rcases hcases hother with hold' | ⟨hk, hnew'⟩
      · exact absurd (mem_ids.mpr ⟨other, hold', hid.symm⟩) (hfree row hnew k)
      · exact ⟨hj.trans hk.symm, hone row hnew other hnew'⟩
  · intro j id hclaimed
    obtain ⟨row, hrow, rfl⟩ := mem_ids.mp hclaimed
    rcases hcases hrow with hold | ⟨-, hnew⟩
    · exact hkeys.claimed_fresh (mem_ids.mpr ⟨row, hold, rfl⟩)
    · exact hfresh row hnew

/-- A transaction that keeps or drops its rows. -/
theorem keys_set_frames_of_subset (hkeys : Keys w) {frames : List Frame}
    (h : rowsOf frames ⊆ rowsOf (w.frames i)) : Keys (w.setFrames i frames) :=
  keys_set_frames hkeys ∅ (h.trans Finset.subset_union_right) (by simp) (by simp)
    (Finset.forall_mem_empty_iff _ |>.mpr trivial)

/-- A reservation that is given up. -/
theorem keys_release (hkeys : Keys w) : Keys (w.setReserved i none) := by
  have hold : ∀ {j row}, (w.setReserved i none).reserved j = some row → w.reserved j = some row := by
    intro j row hrow
    rcases eq_or_ne j i with rfl | hne
    · simp at hrow
    · simpa [hne] using hrow
  exact { hkeys with
    reserved_fresh := fun hrow => hkeys.reserved_fresh (hold hrow)
    reserved_distinct := fun hrow hother => hkeys.reserved_distinct (hold hrow) (hold hother) }

/-- A reservation of a fresh id. -/
theorem keys_reserve (hkeys : Keys w) {row : OwnedId}
    (hfree : ∀ j, j ≠ i → ∀ other, w.reserved j = some other → other.id ≠ row.id)
    (hnew : row.id ∉ ids w.ledger) : Keys (w.setReserved i (some row)) := by
  have hcases : ∀ {j other}, (w.setReserved i (some row)).reserved j = some other →
      j = i ∧ other = row ∨ j ≠ i ∧ w.reserved j = some other := by
    intro j other hother
    rcases eq_or_ne j i with rfl | hne
    · exact .inl ⟨rfl, by simpa [eq_comm] using hother⟩
    · exact .inr ⟨hne, by simpa [hne] using hother⟩
  exact { hkeys with
    reserved_fresh := by
      intro j other hother
      rcases hcases hother with ⟨-, rfl⟩ | ⟨-, hother⟩
      · exact hnew
      · exact hkeys.reserved_fresh hother
    reserved_distinct := by
      intro j k first second hfirst hsecond heq
      rcases hcases hfirst with ⟨hj, hrow⟩ | ⟨hj, hold⟩ <;>
        rcases hcases hsecond with ⟨hk, hrow'⟩ | ⟨hk, hold'⟩
      · exact hj.trans hk.symm
      · exact absurd (heq.symm.trans (congrArg OwnedId.id hrow)) (hfree k hk second hold')
      · exact absurd (heq.trans (congrArg OwnedId.id hrow')) (hfree j hj first hold)
      · exact hkeys.reserved_distinct hold hold' heq }

omit [DecidableEq ι] in
/-- An engine record changes, for an id that no cleanup is deleting. -/
theorem keys_set_engine (hkeys : Keys w) {id : RootId} {record : EngineRecord}
    (h : (w.engine id).hasWork = true ∨ id ∉ ids w.ledger ∨ record.hasWork = false) :
    Keys (w.setEngine id record) := by
  refine { hkeys with deleting_idle := ?_ }
  intro j other hother
  rcases eq_or_ne other id with rfl | hne
  · rcases h with hwork | hnew | hidle
    · exact absurd hwork (by simp [hkeys.deleting_idle hother])
    · exact absurd (hkeys.deleting_recorded hother) hnew
    · simpa using hidle
  · simpa [hne] using hkeys.deleting_idle hother

/-- The commit of a submission. -/
theorem keys_commit_submission (hkeys : Keys w) {row : OwnedId} (hrow : w.reserved i = some row) :
    Keys (w.commitSubmission i row) := by
  have hnew := hkeys.reserved_fresh hrow
  have hrest : Keys ((w.setReserved i none).setEngine row.id
      { w.engine row.id with queued := true }) :=
    keys_set_engine (keys_release hkeys) (.inr (.inl hnew))
  refine { hrest with reserved_fresh := ?_, deleting_recorded := ?_ }
  · intro j other hother hmem
    have hne : j ≠ i := by
      rintro rfl
      simp [commitSubmission, setEngine, setReserved] at hother
    have hheld : w.reserved j = some other := by
      simpa [commitSubmission, setEngine, setReserved, hne] using hother
    obtain ⟨found, hfound, hid⟩ := mem_ids.mp hmem
    rcases Finset.mem_insert.mp hfound with heq | hold
    · exact hne (hkeys.reserved_distinct hheld hrow (hid.symm.trans (congrArg OwnedId.id heq)))
    · exact hkeys.reserved_fresh hheld (mem_ids.mpr ⟨found, hold, hid⟩)
  · intro j id hid
    exact ids_mono (Finset.subset_insert _ _) (hkeys.deleting_recorded hid)

/-- A cleanup that gives its deletions up. -/
theorem keys_keep_deleted (hkeys : Keys w) : Keys (w.setDeleting i ∅) := by
  have hold : ∀ {j id}, id ∈ (w.setDeleting i ∅).deleting j → id ∈ w.deleting j := by
    intro j id hid
    rcases eq_or_ne j i with rfl | hne
    · simp at hid
    · simpa [hne] using hid
  exact { hkeys with
    deleting_recorded := fun hid => hkeys.deleting_recorded (hold hid)
    deleting_distinct := fun hi hj => hkeys.deleting_distinct (hold hi) (hold hj)
    deleting_idle := fun hid => hkeys.deleting_idle (hold hid) }

/-- The deletion of rows without work, which no other cleanup is deleting. -/
theorem keys_delete (hkeys : Keys w) {removed : Finset RootId}
    (hfree : ∀ j, j ≠ i → ∀ id ∈ removed, id ∉ w.deleting j)
    (hrecorded : ∀ id ∈ removed, id ∈ ids w.ledger)
    (hidle : ∀ id ∈ removed, (w.engine id).hasWork = false) :
    Keys (w.setDeleting i removed) := by
  have hcases : ∀ {j id}, id ∈ (w.setDeleting i removed).deleting j →
      j = i ∧ id ∈ removed ∨ j ≠ i ∧ id ∈ w.deleting j := by
    intro j id hid
    rcases eq_or_ne j i with rfl | hne
    · exact .inl ⟨rfl, by simpa using hid⟩
    · exact .inr ⟨hne, by simpa [hne] using hid⟩
  exact { hkeys with
    deleting_recorded := by
      intro j id hid
      rcases hcases hid with ⟨-, hid⟩ | ⟨-, hid⟩
      · exact hrecorded id hid
      · exact hkeys.deleting_recorded hid
    deleting_distinct := by
      intro j k id hj hk
      rcases hcases hj with ⟨hji, hnew⟩ | ⟨hji, hold⟩ <;>
        rcases hcases hk with ⟨hki, hnew'⟩ | ⟨hki, hold'⟩
      · exact hji.trans hki.symm
      · exact absurd hold' (hfree k hki id hnew)
      · exact absurd hold (hfree j hji id hnew')
      · exact hkeys.deleting_distinct hold hold'
    deleting_idle := by
      intro j id hid
      rcases hcases hid with ⟨-, hid⟩ | ⟨-, hid⟩
      · exact hidle id hid
      · exact hkeys.deleting_idle hid }

/-- The commit of a cleanup. -/
theorem keys_commit_deleted (hkeys : Keys w) : Keys (w.commitDeleted i) := by
  have hrest := keys_keep_deleted (i := i) hkeys
  refine { hrest with reserved_fresh := ?_, deleting_recorded := ?_ }
  · intro j row hrow hmem
    exact hkeys.reserved_fresh hrow (ids_mono (Finset.filter_subset _ _) hmem)
  · intro j id hid
    obtain ⟨row, hrow, hrowid⟩ := mem_ids.mp (hrest.deleting_recorded hid)
    refine mem_ids.mpr ⟨row, Finset.mem_filter.mpr ⟨hrow, fun hdeleted => ?_⟩, hrowid⟩
    -- another cleanup deletes the id, so this one does not
    have hne : j ≠ i := by
      rintro rfl
      simp [commitDeleted, setDeleting] at hid
    have hid : id ∈ w.deleting j := by
      simpa [commitDeleted, setDeleting, hne] using hid
    exact hne (hkeys.deleting_distinct hid (hrowid ▸ hdeleted))

/-- Every statement keeps the keys. -/
theorem act_keys (hkeys : Keys w) {q : Statement} {answer : q.Answer}
    (hstep : Act i w q answer w') : Keys w' := by
  cases hstep with
  | refused | currentIds | counts | shortId | reserveConflict | claimConflict | insertNodes | page
  | retired | withoutMetadata => exact hkeys
  | openTransaction =>
      apply keys_set_frames_of_subset hkeys
      split
      · simp [rowsOf, Frame.empty]
      · exact subset_rfl
  | acquireLock _ hframes =>
      apply keys_set_frames_of_subset hkeys
      rw [hframes]
      exact subset_rfl
  | reserve hfree _ hnew => exact keys_reserve hkeys hfree hnew
  | rollbackReservation => exact keys_release hkeys
  | @claim row frame outer hfree hnew hframes =>
      have hsingle : ∀ {P : OwnedId → Prop}, P row → ∀ other ∈ ({row} : Finset OwnedId), P other :=
        fun hP other hother => Finset.mem_singleton.mp hother ▸ hP
      refine keys_set_frames hkeys {row} ?_ (by simp) (hsingle fun j => ?_) (hsingle ?_)
      · rw [hframes]
        simp [rowsOf]
      · rcases eq_or_ne j i with rfl | hne
        · exact fun hold => hnew (ids_mono Finset.subset_union_right hold)
        · exact hfree j hne
      · exact fun hold => hnew (ids_mono Finset.subset_union_left hold)
  | enqueue hrow => exact keys_commit_submission hkeys hrow
  | enqueueFailed => exact keys_release hkeys
  | raise _ hframes =>
      apply keys_set_frames_of_subset hkeys
      rw [hframes, rows_of_append]
      exact Finset.subset_union_right
  | delete hfree =>
      refine keys_delete hkeys (fun j hj id hid => hfree j hj id ?_) (fun id hid => ?_)
        (fun id hid => (Finset.mem_filter.mp hid).2)
      · exact List.mem_toFinset.mp
          (Finset.mem_inter.mp (Finset.mem_filter.mp hid).1).1
      · exact (Finset.mem_inter.mp (Finset.mem_filter.mp hid).1).2
  | commitDelete => exact keys_commit_deleted hkeys
  | commitDeleteFailed => exact keys_keep_deleted hkeys

/-- What a session does to its transaction keeps the keys. -/
theorem command_keys (hkeys : Keys w) (hstep : Command i w w') : Keys w' := by
  cases hstep with
  | begin => exact keys_set_frames_of_subset hkeys (by simp [rowsOf, Frame.empty])
  | savepoint => exact keys_set_frames_of_subset hkeys (by simp [rowsOf, Frame.empty])
  | release hframes =>
      apply keys_set_frames_of_subset hkeys
      rw [hframes]
      simp [rowsOf, Frame.merge, Finset.union_assoc]
  | rollback hframes =>
      apply keys_set_frames_of_subset hkeys
      rw [hframes, rows_of_append]
      exact Finset.subset_union_right
  | commit =>
      have hrest : Keys (w.setFrames i []) :=
        keys_set_frames_of_subset hkeys (by simp [rowsOf])
      refine { hrest with claimed_fresh := ?_ }
      intro j id hid hmem
      have hne : j ≠ i := by
        rintro rfl
        simp [setFrames, rowsOf] at hid
      have hclaimed : id ∈ ids (rowsOf (w.frames j)) := by
        simpa [setFrames, hne] using hid
      obtain ⟨row, hrow, hrowid⟩ := mem_ids.mp hmem
      rcases Finset.mem_union.mp hrow with hold | hnew
      · exact hkeys.claimed_fresh hclaimed (mem_ids.mpr ⟨row, hold, hrowid⟩)
      · obtain ⟨other, hother, hotherid⟩ := mem_ids.mp hclaimed
        exact hne (hkeys.claimed_distinct hother hnew (hotherid.trans hrowid.symm)).1

omit [DecidableEq ι] in
/-- The engine and the retention keep the keys. -/
theorem event_keys (hkeys : Keys w) (hstep : EngineEvent w w') : Keys w' := by
  cases hstep with
  | acknowledge hqueued _ _ =>
      exact keys_set_engine hkeys (.inl (by simp [EngineRecord.hasWork, hqueued]))
  | progress hpresent _ _ =>
      exact keys_set_engine hkeys (.inl (by simp [EngineRecord.hasWork, hpresent]))
  | deleteInstance _ => exact keys_set_engine hkeys (.inr (.inr rfl))
  | removeRows =>
      refine { hkeys with claimed_fresh := ?_ }
      exact fun hid hmem => hkeys.claimed_fresh hid (ids_mono Finset.sdiff_subset hmem)

/-! ## The work of the engine stays in the ledger -/

/-- Every statement keeps the work accounted for. -/
theorem act_accounted (hkeys : Keys w) (h : Accounted w) {q : Statement} {answer : q.Answer}
    (hstep : Act i w q answer w') : Accounted w' := by
  cases hstep with
  | @enqueue row _ hrow =>
      intro id hwork
      rcases eq_or_ne id row.id with rfl | hne
      · exact mem_ids.mpr ⟨row, Finset.mem_insert_self _ _, rfl⟩
      · have hold : (w.engine id).hasWork = true := by
          simpa [commitSubmission, setEngine, setReserved, hne] using hwork
        exact ids_mono (Finset.subset_insert _ _) (h id hold)
  | commitDelete =>
      intro id hwork
      obtain ⟨row, hrow, hid⟩ := mem_ids.mp (h id hwork)
      refine mem_ids.mpr ⟨row, Finset.mem_filter.mpr ⟨hrow, fun hdeleted => ?_⟩, hid⟩
      have hidle := hkeys.deleting_idle hdeleted
      have hold : (w.engine id).hasWork = true := hwork
      rw [hid, hold] at hidle
      nomatch hidle
  | _ => exact h

omit [DecidableEq ι] in
/-- The engine makes no work out of nothing. -/
theorem event_accounted (h : Accounted w) (hstep : EngineEvent w w') : Accounted w' := by
  have hset : ∀ {id record}, (w.engine id).hasWork = true ∨ record.hasWork = false →
      Accounted (w.setEngine id record) := by
    intro id record hrecord other hwork
    rcases eq_or_ne other id with rfl | hne
    · rcases hrecord with hold | hidle
      · exact h other hold
      · exact absurd hwork (by simp [hidle])
    · exact h other (by simpa [hne] using hwork)
  cases hstep with
  | acknowledge hqueued _ _ => exact hset (.inl (by simp [EngineRecord.hasWork, hqueued]))
  | progress hpresent _ _ => exact hset (.inl (by simp [EngineRecord.hasWork, hpresent]))
  | deleteInstance _ => exact hset (.inr rfl)
  | removeRows => exact h

/-- Sessions do not touch the ledger or the engine. -/
theorem command_accounted (h : Accounted w) (hstep : Command i w w') : Accounted w' := by
  cases hstep <;> exact h

/-! ## Threads -/

/-- The transaction and the reservation of a thread are its own. -/
def SameThread (i : ι) (w w' : Cluster ι) : Prop :=
  w'.frames i = w.frames i ∧ w'.reserved i = w.reserved i

/-- A statement changes only what belongs to its thread. -/
theorem act_same_thread {j : ι} (hne : j ≠ i) {q : Statement} {answer : q.Answer}
    (hstep : Act i w q answer w') : SameThread j w w' := by
  cases hstep <;>
    simp [SameThread, hne, setFrames, setReserved, setDeleting, setEngine, commitSubmission,
      commitDeleted]

/-- A session changes only its own transaction. -/
theorem command_same_thread {j : ι} (hne : j ≠ i) (hstep : Command i w w') :
    SameThread j w w' := by
  cases hstep <;> simp [SameThread, hne, setFrames]

omit [DecidableEq ι] in
/-- The engine changes no transaction. -/
theorem event_same_thread {j : ι} (hstep : EngineEvent w w') : SameThread j w w' := by
  cases hstep <;> exact ⟨rfl, rfl⟩

/-- A thread queues work only for an id that it has claimed. -/
def QueuesClaimed (i : ι) (w : Cluster ι) (q : Statement) : Prop :=
  q = .enqueue → ∀ row, w.reserved i = some row → row.id ∈ ids (rowsOf (w.frames i))

/-- What holds of the reservation and the claim of a start. -/
def ClaimAt (i : ι) : Point → Cluster ι → Prop
  | .reserved row, w => w.reserved i = some row
  | .claimed row, w => w.reserved i = some row ∧ row.id ∈ ids (rowsOf (w.frames i))
  | _, _ => True

/-- A row that is claimed is in the transaction of the caller, and the reservation is as it was. -/
theorem claim_claims {row : OwnedId} (hstep : Act i w (.claimInstance row) (.ok true) w') :
    row ∈ rowsOf (w'.frames i) ∧ w'.reserved i = w.reserved i := by
  cases hstep with
  | claim hfree hnew hframes => exact ⟨by simp [rowsOf], rfl⟩

/-- The outline of a start for its reservation and its claim. -/
theorem claim_outline (limits : Limits) (isSuper : Bool) (owner : Owner) :
    Outline i limits isSuper owner (SameThread i)
      (fun w q answer w' => Act i w q answer w' ∧ QueuesClaimed i w q) (ClaimAt i) where
  stable := by
    intro p w w' h hrely
    cases p with
    | reserved row =>
        show w'.reserved i = some row
        rw [hrely.2]
        exact h
    | claimed row =>
        show w'.reserved i = some row ∧ row.id ∈ ids (rowsOf (w'.frames i))
        rw [hrely.1, hrely.2]
        exact h
    | _ => trivial
  fails _ _ := trivial
  unguarded := fun hq hstep => ⟨hstep, fun henqueue => by subst henqueue; nomatch hq⟩
  unlimited _ _ := trivial
  opens _ _ := trivial
  lock _ _ := trivial
  list _ _ := trivial
  count _ _ := trivial
  under _ _ := trivial
  reserve := by
    intro w row w' _ _ hstep
    cases hstep with
    | reserve => exact set_reserved_self
  claim := by
    intro w row answer w' hreserved hstep
    refine ⟨⟨hstep, nofun⟩, fun hanswer => ?_⟩
    subst hanswer
    obtain ⟨hclaimed, hsame⟩ := claim_claims hstep
    exact ⟨hsame.trans hreserved, mem_ids.mpr ⟨row, hclaimed, rfl⟩⟩
  release _ _ := trivial
  unwind _ _ := trivial
  enqueue := by
    intro w row answer w' hclaimed hstep
    refine ⟨⟨hstep, fun _ found hfound => ?_⟩, trivial, fun _ => trivial⟩
    have hrow : row = found := Option.some.inj (hclaimed.1.symm.trans hfound)
    exact hrow ▸ hclaimed.2
  raise _ _ := trivial
  finish _ := trivial

/-- The threads of the cluster keep the keys and account for all work. -/
theorem ledger_discipline (limits : Limits) (isSuper : Nat → Bool) :
    Discipline (submissions ι limits isSuper) (fun w => Keys w ∧ Accounted w) SameThread
      (fun i w q answer w' => Act i w q answer w' ∧ QueuesClaimed i w q) (fun _ _ => True)
      (fun _ _ _ => True) where
  event := fun ⟨hkeys, haccounted⟩ hstep =>
    ⟨⟨event_keys hkeys hstep, event_accounted haccounted hstep⟩,
      fun _ => .single (event_same_thread hstep)⟩
  command := fun ⟨hkeys, haccounted⟩ _ hstep =>
    ⟨⟨⟨command_keys hkeys hstep, command_accounted haccounted hstep⟩, trivial⟩,
      fun _ hne => .single (command_same_thread hne hstep)⟩
  act := fun ⟨hkeys, haccounted⟩ hstep =>
    ⟨⟨act_keys hkeys hstep.1, act_accounted hkeys haccounted hstep.1⟩,
      fun _ hne => .single (act_same_thread hne hstep.1)⟩
  call := by
    rintro i program w - - (⟨owner, userName, rfl⟩ | ⟨cursor, rfl⟩)
    · exact start_safe (claim_outline limits (isSuper owner.role) owner) userName trivial
    · refine cleanup_safe (P := fun _ => True) (fun _ _ _ _ => trivial) trivial ?_ cursor
      intro w q answer w' hq _ _ hstep
      refine ⟨⟨hstep, fun henqueue => ?_⟩, trivial⟩
      subst henqueue
      nomatch hq
  finish := fun _ => trivial
  stable := fun _ _ => trivial

/-! ## Unique ids -/

/-- A step that queues the start of an id does so while the engine holds nothing for the id, and
no committed instance row has it. -/
def QueuesFresh (s : System ι (Cluster ι) Statement Statement.Answer Finished)
    (label : Label ι Statement Statement.Answer Finished)
    (after : System ι (Cluster ι) Statement Statement.Answer Finished) : Prop :=
  ∀ i answer row, label = .act i .enqueue answer → s.world.reserved i = some row →
    row ∈ after.world.ledger →
    (s.world.engine row.id).hasWork = false ∧ row.id ∉ ids s.world.instances

/-- A step that ends a reservation commits it together with the queued work, or leaves no ledger
row for its id. -/
def ReleasesCleanly (s after : System ι (Cluster ι) Statement Statement.Answer Finished) : Prop :=
  ∀ i row, s.world.reserved i = some row → after.world.reserved i ≠ some row →
    row ∈ after.world.ledger ∧ (after.world.engine row.id).queued = true ∨
      row.id ∉ ids after.world.ledger

/-- A statement that ends a reservation. -/
theorem act_releases (hkeys : Keys w) {q : Statement} {answer : q.Answer} {j : ι} {row : OwnedId}
    (hstep : Act i w q answer w') (hrow : w.reserved j = some row)
    (hend : w'.reserved j ≠ some row) :
    row ∈ w'.ledger ∧ (w'.engine row.id).queued = true ∨ row.id ∉ ids w'.ledger := by
  have hij : j = i := by
    by_contra hne
    exact hend ((act_same_thread hne hstep).2.trans hrow)
  subst hij
  have hfresh := hkeys.reserved_fresh hrow
  cases hstep with
  | @enqueue committed _ hreserved =>
      have heq : committed = row := Option.some.inj (hreserved.symm.trans hrow)
      subst heq
      exact .inl ⟨Finset.mem_insert_self _ _, by simp [commitSubmission, setEngine]⟩
  | commitDelete =>
      exact .inr fun hmem => hfresh (ids_mono (Finset.filter_subset _ _) hmem)
  | _ => exact .inr hfresh

/-- From any state in which the tables are consistent and every root with queued work or engine
state has a ledger row, in every interleaving of starts, callers, cleanups, retention and the
engine: every root with work keeps a ledger row; a start is queued only for an id without queued
work, engine state or committed instance row; and a reservation that is not committed leaves no
ledger row. -/
theorem ledger_unique (limits : Limits) (isSuper : Nat → Bool)
    {s s' : System ι (Cluster ι) Statement Statement.Answer Finished}
    (hidle : ∀ i, s.running i = none) (hkeys : Keys s.world) (haccounted : Accounted s.world)
    (hrun : System.Reaches (submissions ι limits isSuper) s s') :
    Accounted s'.world ∧ ∀ label after, System.Step (submissions ι limits isSuper) s' label after →
      QueuesFresh s' label after ∧ ReleasesCleanly s' after := by
  have hdiscipline : Discipline (submissions ι limits isSuper) _ _ _ _ _ :=
    ledger_discipline limits isSuper
  have hstart : ∀ i, s.running i = none ∧ True := fun i => ⟨hidle i, trivial⟩
  obtain ⟨hkeys', haccounted'⟩ := (hdiscipline.safe ⟨hkeys, haccounted⟩ hstart hrun).1
  refine ⟨haccounted', fun label after hstep => ⟨?_, ?_⟩⟩
  · intro i answer row hlabel hrow _
    subst hlabel
    have hclaimed := (hdiscipline.guarantee ⟨hkeys, haccounted⟩ hstart hrun hstep).2 rfl row hrow
    refine ⟨?_, hkeys'.claimed_fresh hclaimed⟩
    by_contra hwork
    exact hkeys'.reserved_fresh hrow (haccounted' row.id (by simpa using hwork))
  · intro i row hrow hend
    cases hstep with
    | event hevent => exact absurd ((event_same_thread hevent).2.trans hrow) hend
    | call _ _ => exact absurd hrow hend
    | @command j world _ hcommand =>
        have hsame : world.reserved i = s'.world.reserved i := by
          cases hcommand <;> rfl
        exact absurd (hsame.trans hrow) hend
    | act _ hact => exact act_releases hkeys' hact hrow hend
    | finish _ => exact absurd hrow hend

section FirstStart

/-- A cluster without any submission. -/
def emptyCluster : Cluster Nat :=
  ⟨∅, fun _ => none, fun _ => ∅, ∅, fun _ => [], fun _ => EngineRecord.empty⟩

/-- The row of a start in the worker's own database. -/
def firstRow : OwnedId := ⟨⟨none, ⟨"0a1b2c3d", rfl, rfl⟩⟩, 10⟩

/-- The cluster with that row reserved by the first session. -/
def reservedCluster : Cluster Nat :=
  (emptyCluster.setFrames 0 [Frame.empty]).setReserved 0 (some firstRow)

/-- The cluster with that row claimed. -/
def claimedCluster : Cluster Nat :=
  reservedCluster.setFrames 0 [⟨insert firstRow ∅, ∅⟩]

/-- The first start of the cluster reserves, claims and queues an id. -/
theorem first_start_runs : Asks.Runs EngineEvent (Act 0) emptyCluster
    (start ⟨0, 0⟩ true ⟨none, 10⟩ "postgres") (claimedCluster.commitSubmission 0 firstRow)
    (.started (.ok firstRow.id)) := by
  have hopen : Act 0 emptyCluster .openTransaction (.ok ())
      (emptyCluster.setFrames 0 [Frame.empty]) := .openTransaction
  have hreserve : Act 0 (emptyCluster.setFrames 0 [Frame.empty]) (.reserveSubmission firstRow)
      (.ok true) reservedCluster := by
    refine .reserve ?_ ?_ ?_ <;> simp [emptyCluster, setFrames]
  have hclaim : Act 0 reservedCluster (.claimInstance firstRow) (.ok true) claimedCluster := by
    refine @Act.claim _ _ 0 _ _ Frame.empty [] ?_ ?_ ?_
    · intro j hne
      simp [reservedCluster, emptyCluster, setReserved, setFrames, hne, rowsOf]
    · simp [reservedCluster, emptyCluster, setReserved, setFrames, rowsOf, Frame.empty]
    · rfl
  have hnodes : Act 0 claimedCluster .insertNodes (.ok ()) claimedCluster := .insertNodes
  have henqueue : Act 0 claimedCluster .enqueue (.ok ())
      (claimedCluster.commitSubmission 0 firstRow) := .enqueue rfl
  exact .ask hopen (.ask (.shortId firstRow.id.localId) (.ask hreserve (.ask hclaim
    (.ask hnodes (.ask henqueue .done)))))

/-- After the first start its work is queued, and accounted for in the ledger. -/
theorem first_start_accounted :
    Accounted (claimedCluster.commitSubmission 0 firstRow) ∧
      ((claimedCluster.commitSubmission 0 firstRow).engine firstRow.id).hasWork = true := by
  have hrun : System.Reaches (submissions Nat ⟨0, 0⟩ fun _ => true)
      ⟨emptyCluster, fun _ => none, []⟩
      ⟨claimedCluster.commitSubmission 0 firstRow, fun _ => none,
        [(0, .started (.ok firstRow.id))]⟩ :=
    System.reaches_call rfl (.inl ⟨_, _, rfl⟩) first_start_runs
  have hkeys : Keys emptyCluster := by
    constructor <;> simp [emptyCluster, rowsOf]
  have haccounted : Accounted emptyCluster := fun _ hwork => nomatch hwork
  refine ⟨(ledger_unique ⟨0, 0⟩ (fun _ => true) (fun _ => rfl) hkeys haccounted hrun).1, ?_⟩
  simp [commitSubmission, EngineRecord.hasWork]

end FirstStart

end PgDurable.Submissions
