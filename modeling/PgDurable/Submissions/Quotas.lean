import PgDurable.Submissions.Ledger

/-!
# Admission quotas under concurrency

A start counts the ids of its owner under the owner's quota lock. The lock belongs to the
subtransaction that writes the instance row, and the ledger row is committed before the lock can be
released, so whoever counts next sees the start: in the ledger, in a committed row, or among its
own rows.

`quotas_hold` says that in every interleaving the ids of an owner in committed instance rows or in
the ledger never exceed the limit on instances, nor the active ones the limit on concurrent ones,
unless they did so at the start of the run.
-/

namespace PgDurable.Submissions

open Cluster Instances

variable {ι : Type} (o : Owner)

/-! ## Ids of an owner -/

@[simp] theorem mem_ids_of {rows : Finset OwnedId} {id : RootId} :
    id ∈ idsOf o rows ↔ ∃ row ∈ rows, row.owner = o ∧ row.id = id := by
  simp [idsOf, and_assoc]

/-- Ids of an owner in more rows. -/
theorem ids_of_mono {rows more : Finset OwnedId} (h : rows ⊆ more) :
    idsOf o rows ⊆ idsOf o more :=
  ids_mono (Finset.filter_subset_filter _ h)

/-- Ids of an owner are ids. -/
theorem ids_of_subset (rows : Finset OwnedId) : idsOf o rows ⊆ ids rows :=
  ids_mono (Finset.filter_subset _ _)

theorem ids_of_union (rows more : Finset OwnedId) :
    idsOf o (rows ∪ more) = idsOf o rows ∪ idsOf o more := by
  ext id
  simp only [mem_ids_of, Finset.mem_union]
  grind

/-- The ids of an owner in the open transaction of a thread. -/
def own (w : Cluster ι) (i : ι) : Finset RootId := idsOf o (rowsOf (w.frames i))

/-! ## Assertions -/

/-- The active ids among the rows of subtransactions are owned by committed rows or the ledger. -/
def Recorded (frames : List Frame) (w : Cluster ι) : Prop :=
  ∀ id ∈ idsOf o (rowsOf frames), (w.engine id).active = true → id ∈ w.owned o

/-- Nothing is added to the committed rows and the ledger, and no owned id becomes active. -/
structure Shrinks (w w' : Cluster ι) : Prop where
  instances : idsOf o w'.instances ⊆ idsOf o w.instances
  ledger : idsOf o w'.ledger ⊆ idsOf o w.ledger
  active : ∀ id ∈ w'.owned o, (w'.engine id).active = true → (w.engine id).active = true

/-- What a thread relies on: its transaction and its reservation are its own, the counts do not
grow while it holds the lock, and its recorded rows stay recorded. -/
structure QuotaRely (i : ι) (w w' : Cluster ι) : Prop where
  same : SameThread i w w'
  shrinks : w.Holds i o → Shrinks o w w'
  recorded : ∀ id ∈ own o w i, ((w.engine id).active = true → id ∈ w.owned o) →
    (w'.engine id).active = true → id ∈ w'.owned o

/-- The innermost subtransaction of a thread has taken the lock. -/
def TopLocked (i : ι) (w : Cluster ι) : Prop :=
  ∃ frame outer, w.frames i = frame :: outer ∧ o ∈ frame.locks

variable (m c : Nat)

/-- A start under both limits, with the lock in its hands. -/
structure Admitted (i : ι) (w : Cluster ι) : Prop where
  locked : TopLocked o i w
  retained : (w.owned o ∪ own o w i).card < m
  active : (w.activeOwned o).card < c

/-- The invariant: the lock is exclusive and covers all uncommitted rows, and the counts are within
bounds, also when a transaction commits. -/
structure Within (w : Cluster ι) : Prop where
  keys : Keys w
  exclusive : ∀ {i j}, w.Holds i o → w.Holds j o → i = j
  locked : ∀ {i frame row}, frame ∈ w.frames i → row ∈ frame.rows → row.owner = o →
    o ∈ frame.locks
  retained : (w.owned o).card ≤ m
  pending : ∀ i, (w.owned o ∪ own o w i).card ≤ m
  active : (w.activeOwned o).card ≤ c

variable [DecidableEq ι]

/-- What a thread guarantees: it claims and queues ids of the owner only when it is admitted. -/
structure QuotaGuar (i : ι) (w : Cluster ι) (q : Statement) (answer : q.Answer)
    (w' : Cluster ι) : Prop where
  act : Act i w q answer w'
  claims : ∀ row, q = .claimInstance row → row.owner = o → Admitted o m c i w
  queues : q = .enqueue → ∀ row, w.reserved i = some row →
    row ∈ rowsOf (w.frames i) ∧ (row.owner = o → w.Holds i o ∧ (w.activeOwned o).card < c)

omit [DecidableEq ι] in
/-- The lock of the innermost subtransaction is held. -/
theorem TopLocked.holds {o : Owner} {i : ι} {w : Cluster ι} (h : TopLocked o i w) :
    w.Holds i o := by
  obtain ⟨frame, outer, hframes, hlock⟩ := h
  exact ⟨frame, by simp [hframes], hlock⟩

section Bounds

variable {o} {m c} {i j : ι} {w w' : Cluster ι}

omit [DecidableEq ι] in
/-- Nothing is owned that was not. -/
theorem Shrinks.owned (h : Shrinks o w w') : w'.owned o ⊆ w.owned o :=
  Finset.union_subset_union h.instances h.ledger

omit [DecidableEq ι] in
/-- Nothing is active that was not. -/
theorem Shrinks.active_owned (h : Shrinks o w w') : w'.activeOwned o ⊆ w.activeOwned o := by
  intro id hid
  obtain ⟨howned, hactive⟩ := Finset.mem_filter.mp hid
  exact Finset.mem_filter.mpr ⟨h.owned howned, h.active id howned hactive⟩

omit [DecidableEq ι] in
/-- The same tables shrink. -/
theorem shrinks_of_same (hinstances : w'.instances = w.instances) (hledger : w'.ledger = w.ledger)
    (hengine : w'.engine = w.engine) : Shrinks o w w' where
  instances := by rw [hinstances]
  ledger := by rw [hledger]
  active := by
    intro id _ hactive
    rwa [hengine] at hactive

omit [DecidableEq ι] in
/-- The invariant where only the counts change, downwards. -/
theorem within_of_shrinks (hwithin : Within o m c w) (hkeys : Keys w')
    (hframes : w'.frames = w.frames) (h : Shrinks o w w') : Within o m c w' where
  keys := hkeys
  exclusive := by
    unfold Holds
    rw [hframes]
    exact hwithin.exclusive
  locked := by
    rw [hframes]
    exact hwithin.locked
  retained := (Finset.card_le_card h.owned).trans hwithin.retained
  pending := by
    intro i
    rw [own, hframes]
    exact (Finset.card_le_card (Finset.union_subset_union_left h.owned)).trans (hwithin.pending i)
  active := (Finset.card_le_card h.active_owned).trans hwithin.active

omit [DecidableEq ι] in
/-- Subtransactions without a row of the owner. -/
theorem ids_of_eq_empty {frames : List Frame}
    (h : ∀ frame ∈ frames, ∀ row ∈ frame.rows, row.owner ≠ o) : idsOf o (rowsOf frames) = ∅ := by
  induction frames with
  | nil => rfl
  | cons frame frames ih =>
      rw [rowsOf, ids_of_union, ih fun other hother => h other (.tail _ hother),
        Finset.union_empty, Finset.eq_empty_iff_forall_notMem]
      intro id hid
      obtain ⟨row, hrow, howner, -⟩ := (mem_ids_of o).mp hid
      exact h frame (.head _) row hrow howner

omit [DecidableEq ι] in
/-- A thread without the lock has no uncommitted row of the owner. -/
theorem own_eq_empty (hwithin : Within o m c w) (h : ¬ w.Holds i o) : own o w i = ∅ :=
  ids_of_eq_empty fun frame hframe _ hrow howner =>
    h ⟨frame, hframe, hwithin.locked hframe hrow howner⟩

/-- The invariant where a transaction changes. -/
theorem within_set_frames (hwithin : Within o m c w) {frames : List Frame}
    (hkeys : Keys (w.setFrames i frames))
    (hlocks : ∀ frame ∈ frames, o ∈ frame.locks → w.Holds i o ∨ ∀ k, k ≠ i → ¬ w.Holds k o)
    (hlocked : ∀ frame ∈ frames, ∀ row ∈ frame.rows, row.owner = o → o ∈ frame.locks)
    (hpending : (w.owned o ∪ idsOf o (rowsOf frames)).card ≤ m) :
    Within o m c (w.setFrames i frames) where
  keys := hkeys
  exclusive := by
    have hholds : ∀ {j}, (w.setFrames i frames).Holds j o →
        w.Holds j o ∨ j = i ∧ ∀ k, k ≠ i → ¬ w.Holds k o := by
      rintro j ⟨frame, hframe, hlock⟩
      rcases eq_or_ne j i with rfl | hne
      · rw [set_frames_self] at hframe
        exact (hlocks frame hframe hlock).imp_right fun hfree => ⟨rfl, hfree⟩
      · rw [set_frames_of_ne hne] at hframe
        exact .inl ⟨frame, hframe, hlock⟩
    intro j k hj hk
    rcases hholds hj with hj | ⟨hji, hfree⟩ <;> rcases hholds hk with hk | ⟨hki, hfree'⟩
    · exact hwithin.exclusive hj hk
    · by_contra hne
      exact hfree' j (fun hji => hne (hji.trans hki.symm)) hj
    · by_contra hne
      exact hfree k (fun hki => hne (hji.trans hki.symm)) hk
    · exact hji.trans hki.symm
  locked := by
    intro j frame row hframe hrow howner
    rcases eq_or_ne j i with rfl | hne
    · rw [set_frames_self] at hframe
      exact hlocked frame hframe row hrow howner
    · rw [set_frames_of_ne hne] at hframe
      exact hwithin.locked hframe hrow howner
  retained := hwithin.retained
  pending := by
    intro j
    rcases eq_or_ne j i with rfl | hne
    · rw [own, set_frames_self]
      exact hpending
    · rw [own, set_frames_of_ne hne]
      exact hwithin.pending j
  active := hwithin.active

/-- The invariant where a transaction drops subtransactions or opens an empty one. -/
theorem within_drop_frames (hwithin : Within o m c w) {frames : List Frame}
    (hkeys : Keys (w.setFrames i frames))
    (hframes : ∀ frame ∈ frames, frame ∈ w.frames i ∨ frame = Frame.empty)
    (hrows : rowsOf frames ⊆ rowsOf (w.frames i)) : Within o m c (w.setFrames i frames) := by
  refine within_set_frames hwithin hkeys ?_ ?_ ?_
  · intro frame hframe hlock
    rcases hframes frame hframe with hold | rfl
    · exact .inl ⟨frame, hold, hlock⟩
    · cases hlock
  · intro frame hframe row hrow howner
    rcases hframes frame hframe with hold | rfl
    · exact hwithin.locked hold hrow howner
    · cases hrow
  · refine (Finset.card_le_card ?_).trans (hwithin.pending i)
    exact Finset.union_subset_union_right (ids_of_mono o hrows)

omit [DecidableEq ι] in
/-- What another thread sees of a step that leaves the tables alone. -/
theorem rely_of_same (hsame : SameThread j w w') (hinstances : w'.instances = w.instances)
    (hledger : w'.ledger = w.ledger) (hengine : w'.engine = w.engine) : QuotaRely o j w w' where
  same := hsame
  shrinks _ := shrinks_of_same hinstances hledger hengine
  recorded := by
    intro id _ hrecorded hactive
    rw [hengine] at hactive
    rw [owned, hinstances, hledger]
    exact hrecorded hactive

/-- The invariant where a start queues its work. -/
theorem within_commit_submission (hwithin : Within o m c w) {row : OwnedId}
    (hrow : w.reserved i = some row) (hclaimed : row ∈ rowsOf (w.frames i))
    (hadmitted : row.owner = o → w.Holds i o ∧ (w.activeOwned o).card < c) :
    Within o m c (w.commitSubmission i row) ∧
      ∀ j, j ≠ i → QuotaRely o j w (w.commitSubmission i row) := by
  have hkeys := hwithin.keys
  have hengine : ∀ {id}, id ≠ row.id → (w.commitSubmission i row).engine id = w.engine id :=
    fun hne => set_engine_of_ne hne
  have hledger : w.owned o ⊆ (w.commitSubmission i row).owned o :=
    Finset.union_subset_union_right (ids_of_mono o (Finset.subset_insert _ _))
  have hnew : row.id ∉ w.owned o := by
    intro hmem
    rcases Finset.mem_union.mp hmem with hmem | hmem
    · exact hkeys.claimed_fresh (mem_ids.mpr ⟨row, hclaimed, rfl⟩) (ids_of_subset o _ hmem)
    · exact hkeys.reserved_fresh hrow (ids_of_subset o _ hmem)
  have howned : ∀ {id}, id ∈ (w.commitSubmission i row).owned o →
      id ∈ w.owned o ∨ row.owner = o ∧ id = row.id := by
    intro id hid
    rcases Finset.mem_union.mp hid with hid | hid
    · exact .inl (Finset.mem_union_left _ hid)
    · obtain ⟨found, hfound, hfoundowner, rfl⟩ := (mem_ids_of o).mp hid
      rcases Finset.mem_insert.mp hfound with rfl | hold
      · exact .inr ⟨hfoundowner, rfl⟩
      · exact .inl (Finset.mem_union_right _ ((mem_ids_of o).mpr ⟨found, hold, hfoundowner, rfl⟩))
  -- whatever is owned now was owned or pending in this thread
  have hsubset : (w.commitSubmission i row).owned o ⊆ w.owned o ∪ own o w i := by
    intro id hid
    rcases howned hid with hold | ⟨howner, rfl⟩
    · exact Finset.mem_union_left _ hold
    · exact Finset.mem_union_right _ ((mem_ids_of o).mpr ⟨row, hclaimed, howner, rfl⟩)
  refine ⟨⟨keys_commit_submission hkeys hrow, hwithin.exclusive, hwithin.locked, ?_, ?_, ?_⟩, ?_⟩
  · exact (Finset.card_le_card hsubset).trans (hwithin.pending i)
  · intro j
    by_cases howner : row.owner = o
    · rcases eq_or_ne j i with rfl | hne
      · exact (Finset.card_le_card (Finset.union_subset hsubset Finset.subset_union_right)).trans
          (hwithin.pending j)
      · have hempty : own o w j = ∅ := own_eq_empty hwithin fun hj =>
          hne (hwithin.exclusive hj (hadmitted howner).1)
        show ((w.commitSubmission i row).owned o ∪ own o w j).card ≤ m
        rw [hempty, Finset.union_empty]
        exact (Finset.card_le_card hsubset).trans (hwithin.pending i)
    · refine (Finset.card_le_card (Finset.union_subset_union_left fun id hid => ?_)).trans
        (hwithin.pending j)
      exact (howned hid).resolve_right fun h => howner h.1
  · by_cases howner : row.owner = o
    · have hinsert : (w.commitSubmission i row).activeOwned o ⊆
          insert row.id (w.activeOwned o) := by
        intro id hid
        obtain ⟨hid, hactive⟩ := Finset.mem_filter.mp hid
        rcases eq_or_ne id row.id with rfl | hne
        · exact Finset.mem_insert_self _ _
        · rw [hengine hne] at hactive
          exact Finset.mem_insert_of_mem (Finset.mem_filter.mpr
            ⟨(howned hid).resolve_right fun h => hne h.2, hactive⟩)
      have hcard := (Finset.card_le_card hinsert).trans (Finset.card_insert_le _ _)
      have hroom := (hadmitted howner).2
      omega
    · refine (Finset.card_le_card fun id hid => ?_).trans hwithin.active
      obtain ⟨hid, hactive⟩ := Finset.mem_filter.mp hid
      have hold := (howned hid).resolve_right fun h => howner h.1
      rw [hengine fun heq => hnew (heq ▸ hold)] at hactive
      exact Finset.mem_filter.mpr ⟨hold, hactive⟩
  · intro j hne
    refine ⟨act_same_thread hne (.enqueue hrow : Act i w .enqueue (.ok ()) _), fun hj => ?_, ?_⟩
    · have howner : row.owner ≠ o := fun howner =>
        hne (hwithin.exclusive hj (hadmitted howner).1)
      refine ⟨subset_rfl, fun id hid => ?_, fun id hid hactive => ?_⟩
      · obtain ⟨found, hfound, hfoundowner, rfl⟩ := (mem_ids_of o).mp hid
        rcases Finset.mem_insert.mp hfound with rfl | hold
        · exact absurd hfoundowner howner
        · exact (mem_ids_of o).mpr ⟨found, hold, hfoundowner, rfl⟩
      · have hold := (howned hid).resolve_right fun h => howner h.1
        rwa [hengine fun heq => hnew (heq ▸ hold)] at hactive
    · intro id hid hrecorded hactive
      obtain ⟨other, hother, -, rfl⟩ := (mem_ids_of o).mp hid
      have hdistinct : other.id ≠ row.id := fun heq =>
        hne (hkeys.claimed_distinct hother hclaimed heq).1
      rw [hengine hdistinct] at hactive
      exact hledger (hrecorded hactive)

/-- The deletions of a cleanup spare active ids. -/
theorem active_not_deleted (hwithin : Within o m c w) {id : RootId}
    (hactive : (w.engine id).active = true) (hledger : id ∈ idsOf o w.ledger) :
    id ∈ idsOf o (w.commitDeleted i).ledger := by
  obtain ⟨row, hrow, howner, rfl⟩ := (mem_ids_of o).mp hledger
  refine (mem_ids_of o).mpr
    ⟨row, Finset.mem_filter.mpr ⟨hrow, fun hdeleted => ?_⟩, howner, rfl⟩
  have hidle := hwithin.keys.deleting_idle hdeleted
  simp_all [EngineRecord.hasWork, EngineRecord.active, EngineRecord.executionStatus]

/-- The invariant where a cleanup commits its deletions. -/
theorem within_commit_deleted (hwithin : Within o m c w) :
    Within o m c (w.commitDeleted i) ∧ ∀ j, j ≠ i → QuotaRely o j w (w.commitDeleted i) := by
  have hshrinks : Shrinks o w (w.commitDeleted i) :=
    ⟨subset_rfl, ids_of_mono o (Finset.filter_subset _ _), fun _ _ h => h⟩
  refine ⟨within_of_shrinks hwithin (keys_commit_deleted hwithin.keys) rfl hshrinks, ?_⟩
  intro j hne
  refine ⟨act_same_thread hne (.commitDelete : Act i w .commitDelete (.ok ()) _),
    fun _ => hshrinks, fun id _ hrecorded hactive => ?_⟩
  rcases Finset.mem_union.mp (hrecorded hactive) with hinstance | hledger
  · exact Finset.mem_union_left _ hinstance
  · exact Finset.mem_union_right _ (active_not_deleted hwithin hactive hledger)

/-- Every guarded statement keeps the invariant, and is within what the others rely on. -/
theorem guar_within {q : Statement} {answer : q.Answer} (hwithin : Within o m c w)
    (hguar : QuotaGuar o m c i w q answer w') :
    Within o m c w' ∧ ∀ j, j ≠ i → QuotaRely o j w w' := by
  obtain ⟨hstep, hclaims, hqueues⟩ := hguar
  have hkeys := act_keys hwithin.keys hstep
  have hthread : ∀ j, j ≠ i → SameThread j w w' := fun j hne => act_same_thread hne hstep
  cases hstep with
  | refused | currentIds | counts | shortId | reserveConflict | claimConflict | insertNodes | page
  | retired | withoutMetadata =>
      exact ⟨hwithin, fun j hne => rely_of_same (hthread j hne) rfl rfl rfl⟩
  | openTransaction =>
      refine ⟨within_drop_frames hwithin hkeys ?_ ?_,
        fun j hne => rely_of_same (hthread j hne) rfl rfl rfl⟩
      · intro frame hframe
        split at hframe
        · exact .inr (List.mem_singleton.mp hframe)
        · exact .inl hframe
      · split
        · simp [rowsOf, Frame.empty]
        · exact subset_rfl
  | @acquireLock owner frame outer hfree hframes =>
      refine ⟨within_set_frames hwithin hkeys ?_ ?_ ?_,
        fun j hne => rely_of_same (hthread j hne) rfl rfl rfl⟩
      · intro other hother hlock
        rcases List.mem_cons.mp hother with rfl | hother
        · rcases Finset.mem_insert.mp hlock with rfl | hlock
          · exact .inr hfree
          · exact .inl ⟨frame, by simp [hframes], hlock⟩
        · exact .inl ⟨other, by simp [hframes, hother], hlock⟩
      · intro other hother row hrow howner
        rcases List.mem_cons.mp hother with rfl | hother
        · exact Finset.mem_insert_of_mem
            (hwithin.locked (by rw [hframes]; exact .head _) hrow howner)
        · exact hwithin.locked (by rw [hframes]; exact .tail _ hother) hrow howner
      · have hpending := hwithin.pending i
        rw [own, hframes] at hpending
        exact hpending
  | reserve | rollbackReservation | enqueueFailed | delete | commitDeleteFailed =>
      exact ⟨within_of_shrinks hwithin hkeys rfl (shrinks_of_same rfl rfl rfl),
        fun j hne => rely_of_same (hthread j hne) rfl rfl rfl⟩
  | @claim row frame outer hfree hnew hframes =>
      refine ⟨within_set_frames hwithin hkeys ?_ ?_ ?_,
        fun j hne => rely_of_same (hthread j hne) rfl rfl rfl⟩
      · intro other hother hlock
        rcases List.mem_cons.mp hother with rfl | hother
        · exact .inl ⟨frame, by simp [hframes], hlock⟩
        · exact .inl ⟨other, by simp [hframes, hother], hlock⟩
      · intro other hother found hfound howner
        rcases List.mem_cons.mp hother with rfl | hother
        · rcases Finset.mem_insert.mp hfound with rfl | hfound
          · obtain ⟨top, rest, htop, hlock⟩ := (hclaims _ rfl howner).locked
            rw [hframes] at htop
            exact (List.cons.inj htop).1 ▸ hlock
          · have hframe : frame ∈ w.frames i := by rw [hframes]; exact .head _
            have hlock : o ∈ frame.locks := hwithin.locked hframe hfound howner
            exact hlock
        · exact hwithin.locked (by rw [hframes]; exact .tail _ hother) hfound howner
      · have hrows : rowsOf ({ frame with rows := insert row frame.rows } :: outer) =
            insert row (rowsOf (w.frames i)) := by
          rw [hframes, rowsOf, rowsOf, Finset.insert_union]
        rw [hrows]
        by_cases howner : row.owner = o
        · have hinsert : idsOf o (insert row (rowsOf (w.frames i))) = insert row.id (own o w i) := by
            simp [idsOf, ids, own, Finset.filter_insert, howner]
          have hroom := (hclaims row rfl howner).retained
          rw [hinsert, Finset.union_insert]
          have hcard := Finset.card_insert_le row.id (w.owned o ∪ own o w i)
          omega
        · have hsame : idsOf o (insert row (rowsOf (w.frames i))) = own o w i := by
            simp [idsOf, ids, own, Finset.filter_insert, howner]
          rw [hsame]
          exact hwithin.pending i
  | enqueue hrow =>
      obtain ⟨hclaimed, hadmitted⟩ := hqueues rfl _ hrow
      exact within_commit_submission hwithin hrow hclaimed hadmitted
  | raise _ hframes =>
      refine ⟨within_drop_frames hwithin hkeys (fun frame hframe => .inl ?_) ?_,
        fun j hne => rely_of_same (hthread j hne) rfl rfl rfl⟩
      · rw [hframes]
        exact List.mem_append_right _ hframe
      · rw [hframes, rows_of_append]
        exact Finset.subset_union_right
  | commitDelete => exact within_commit_deleted hwithin

omit [DecidableEq ι] in
/-- The invariant where a session commits: the rows it adds are counted already. -/
theorem within_commit (hwithin : Within o m c w) (hidle : Recorded o (w.frames i) w)
    (hkeys : Keys w') (hthread : ∀ j, j ≠ i → SameThread j w w') (hself : w'.frames i = [])
    (hother : ∀ {j}, j ≠ i → w'.frames j = w.frames j) (hengine : w'.engine = w.engine)
    (hledger : w'.ledger = w.ledger)
    (hrows : w'.instances = w.instances ∪ rowsOf (w.frames i)) :
    (Within o m c w' ∧ Recorded o (w'.frames i) w') ∧ ∀ j, j ≠ i → QuotaRely o j w w' := by
  have hinstances : idsOf o w'.instances = idsOf o w.instances ∪ own o w i := by
    rw [hrows]
    exact ids_of_union o _ _
  have howned : w'.owned o = w.owned o ∪ own o w i := by
    rw [owned, owned, hinstances, hledger, Finset.union_right_comm]
  have hownself : own o w' i = ∅ := by
    rw [own, hself]
    rfl
  have hownother : ∀ {j}, j ≠ i → own o w' j = own o w j := by
    intro j hne
    rw [own, hother hne, own]
  have hactive : w'.activeOwned o ⊆ w.activeOwned o := by
    intro id hid
    obtain ⟨hid, hactive⟩ := Finset.mem_filter.mp hid
    rw [howned] at hid
    rw [hengine] at hactive
    refine Finset.mem_filter.mpr ⟨?_, hactive⟩
    rcases Finset.mem_union.mp hid with hid | hid
    · exact hid
    · exact hidle id hid hactive
  -- only one of two threads has uncommitted rows of the owner
  have hempty : ∀ {j}, j ≠ i → own o w i = ∅ ∨ own o w j = ∅ := by
    intro j hne
    by_cases hi : w.Holds i o
    · exact .inr (own_eq_empty hwithin fun hj => hne (hwithin.exclusive hj hi))
    · exact .inl (own_eq_empty hwithin hi)
  have hholds : ∀ {j}, w'.Holds j o → w.Holds j o := by
    rintro j ⟨frame, hframe, hlock⟩
    rcases eq_or_ne j i with rfl | hne
    · rw [hself] at hframe
      cases hframe
    · exact ⟨frame, hother hne ▸ hframe, hlock⟩
  refine ⟨⟨⟨hkeys, ?_, ?_, ?_, ?_, (Finset.card_le_card hactive).trans hwithin.active⟩, ?_⟩, ?_⟩
  · intro j k hj hk
    exact hwithin.exclusive (hholds hj) (hholds hk)
  · intro j frame row hframe hrow howner
    rcases eq_or_ne j i with rfl | hne
    · rw [hself] at hframe
      cases hframe
    · exact hwithin.locked (hother hne ▸ hframe) hrow howner
  · rw [howned]
    exact hwithin.pending i
  · intro j
    rcases eq_or_ne j i with rfl | hne
    · rw [howned, hownself, Finset.union_empty]
      exact hwithin.pending j
    · rw [howned, hownother hne]
      rcases hempty hne with hnone | hnone
      · rw [hnone, Finset.union_empty]
        exact hwithin.pending j
      · rw [hnone, Finset.union_empty]
        exact hwithin.pending i
  · rw [hself]
    exact fun id hid => absurd hid (by simp [rowsOf])
  · intro j hne
    refine ⟨hthread j hne, fun hj => ⟨?_, by rw [hledger], ?_⟩, ?_⟩
    · have hnone : own o w i = ∅ := own_eq_empty hwithin fun hi => hne (hwithin.exclusive hj hi)
      rw [hinstances, hnone, Finset.union_empty]
    · intro id _ hactive
      rwa [hengine] at hactive
    · intro id _ hrecorded hactive
      rw [hengine] at hactive
      rw [howned]
      exact Finset.mem_union_left _ (hrecorded hactive)

/-- The invariant where a session changes its transaction between two calls. -/
theorem command_within (hwithin : Within o m c w) (hidle : Recorded o (w.frames i) w)
    (hstep : Command i w w') :
    (Within o m c w' ∧ Recorded o (w'.frames i) w') ∧ ∀ j, j ≠ i → QuotaRely o j w w' := by
  have hkeys := command_keys hwithin.keys hstep
  have hthread : ∀ j, j ≠ i → SameThread j w w' := fun j hne => command_same_thread hne hstep
  have hfewer : ∀ {frames : List Frame}, rowsOf frames ⊆ rowsOf (w.frames i) →
      Recorded o ((w.setFrames i frames).frames i) (w.setFrames i frames) := by
    intro frames hrows id hid
    rw [set_frames_self] at hid
    exact hidle id (ids_of_mono o hrows hid)
  cases hstep with
  | begin hnone =>
      refine ⟨⟨within_drop_frames hwithin hkeys (fun frame hframe =>
        .inr (List.mem_singleton.mp hframe)) ?_, hfewer ?_⟩,
        fun j hne => rely_of_same (hthread j hne) rfl rfl rfl⟩ <;> simp [rowsOf, Frame.empty]
  | savepoint hopen =>
      refine ⟨⟨within_drop_frames hwithin hkeys (fun frame hframe =>
        (List.mem_cons.mp hframe).symm) ?_, hfewer ?_⟩,
        fun j hne => rely_of_same (hthread j hne) rfl rfl rfl⟩ <;> simp [rowsOf, Frame.empty]
  | @release inner outer rest hframes =>
      have hrows : rowsOf (inner.merge outer :: rest) = rowsOf (w.frames i) := by
        rw [hframes]
        simp [rowsOf, Frame.merge, Finset.union_assoc]
      have hinner : inner ∈ w.frames i := by rw [hframes]; exact .head _
      have houter : outer ∈ w.frames i := by rw [hframes]; exact .tail _ (.head _)
      have hrest : ∀ frame ∈ rest, frame ∈ w.frames i := by
        intro frame hframe
        rw [hframes]
        exact .tail _ (.tail _ hframe)
      refine ⟨⟨within_set_frames hwithin hkeys ?_ ?_ ?_, hfewer hrows.subset⟩,
        fun j hne => rely_of_same (hthread j hne) rfl rfl rfl⟩
      · intro frame hframe hlock
        rcases List.mem_cons.mp hframe with rfl | hframe
        · rcases Finset.mem_union.mp hlock with hlock | hlock
          · exact .inl ⟨inner, hinner, hlock⟩
          · exact .inl ⟨outer, houter, hlock⟩
        · exact .inl ⟨frame, hrest frame hframe, hlock⟩
      · intro frame hframe row hrow howner
        rcases List.mem_cons.mp hframe with rfl | hframe
        · rcases Finset.mem_union.mp hrow with hrow | hrow
          · exact Finset.mem_union_left _ (hwithin.locked hinner hrow howner)
          · exact Finset.mem_union_right _ (hwithin.locked houter hrow howner)
        · exact hwithin.locked (hrest frame hframe) hrow howner
      · rw [hrows]
        exact hwithin.pending i
  | @rollback inner outer hframes =>
      have hrows : rowsOf outer ⊆ rowsOf (w.frames i) := by
        rw [hframes, rows_of_append]
        exact Finset.subset_union_right
      refine ⟨⟨within_drop_frames hwithin hkeys (fun frame hframe => .inl ?_) hrows,
        hfewer hrows⟩, fun j hne => rely_of_same (hthread j hne) rfl rfl rfl⟩
      rw [hframes]
      exact List.mem_append_right _ hframe
  | commit =>
      refine within_commit hwithin hidle hkeys hthread set_frames_self
        (fun hne => set_frames_of_ne hne) rfl rfl rfl

omit [DecidableEq ι] in
/-- The engine makes nothing active. -/
theorem event_active (hstep : EngineEvent w w') (id : RootId)
    (h : (w'.engine id).active = true) : (w.engine id).active = true := by
  have hset : ∀ {other : RootId} {record : EngineRecord},
      (record.active = true → (w.engine other).active = true) →
      ((w.setEngine other record).engine id).active = true → (w.engine id).active = true := by
    intro other record hrecord hactive
    rcases eq_or_ne id other with rfl | hne
    · exact hrecord (by simpa using hactive)
    · simpa [hne] using hactive
  cases hstep with
  | acknowledge hqueued habsent hpresent =>
      refine hset (fun _ => ?_) h
      simp [EngineRecord.active, EngineRecord.executionStatus, habsent, hqueued]
  | @progress other record hpresent hpresent' hended =>
      refine hset (fun hactive => ?_) h
      by_contra hterminal
      -- an execution that has ended keeps its status
      cases hstatus : (w.engine other).status with
      | none =>
          simp [EngineRecord.active, EngineRecord.executionStatus, hpresent, hstatus] at hterminal
      | some status =>
          have hended' : isTerminal status = true := by
            simpa [EngineRecord.active, EngineRecord.executionStatus, hpresent, hstatus]
              using hterminal
          have hkept := hended status hstatus hended'
          simp [EngineRecord.active, EngineRecord.executionStatus, hpresent', hkept, hended']
            at hactive
  | deleteInstance hinactive => exact hset (fun hactive => absurd hactive (by decide)) h
  | removeRows => exact h

omit [DecidableEq ι] in
/-- The engine and the retention keep the invariant, and are within what every thread relies on. -/
theorem event_within (hwithin : Within o m c w) (hstep : EngineEvent w w') :
    Within o m c w' ∧ ∀ j, QuotaRely o j w w' := by
  have hledger : w'.ledger = w.ledger := by cases hstep <;> rfl
  have hframes : w'.frames = w.frames := by cases hstep <;> rfl
  have hinstances : w'.instances ⊆ w.instances := by
    cases hstep with
    | removeRows => exact Finset.sdiff_subset
    | _ => exact subset_rfl
  have hshrinks : Shrinks o w w' :=
    ⟨ids_of_mono o hinstances, by rw [hledger], fun id _ h => event_active hstep id h⟩
  refine ⟨within_of_shrinks hwithin (event_keys hwithin.keys hstep) hframes hshrinks, fun j => ?_⟩
  refine ⟨event_same_thread hstep, fun _ => hshrinks, fun id hid hrecorded hactive => ?_⟩
  rcases Finset.mem_union.mp (hrecorded (event_active hstep id hactive)) with hinstance | hkept
  · exact absurd (ids_of_subset o _ hinstance)
      (hwithin.keys.claimed_fresh (ids_of_subset o _ hid))
  · exact Finset.mem_union_right _ (hledger ▸ hkept)

end Bounds

/-! ## The outline of a start -/

/-- The transaction of a thread is open, and its rows are recorded. -/
def OpenRecorded (i : ι) (w : Cluster ι) : Prop := w.frames i ≠ [] ∧ Recorded o (w.frames i) w

/-- The rows outside of the innermost subtransaction are recorded. -/
def OuterRecorded (i : ι) (w : Cluster ι) : Prop :=
  ∃ top outer, w.frames i = top :: outer ∧ Recorded o outer w

/-- A claimed row is the only one with its id; the other rows are recorded. -/
structure ClaimedRow (i : ι) (row : OwnedId) (w : Cluster ι) : Prop where
  reserved : w.reserved i = some row
  claimed : row ∈ rowsOf (w.frames i)
  unique : ∀ other ∈ rowsOf (w.frames i), other.id = row.id → other = row
  recorded : ∀ id ∈ own o w i, id ≠ row.id → (w.engine id).active = true → id ∈ w.owned o
  outer : OuterRecorded o i w

/-- What holds at the points of a start for the quotas of `o`; a start of another owner has only
to keep what is recorded. -/
def QuotaAt (i : ι) (owner : Owner) : Point → Cluster ι → Prop
  | .idle, w | .queued, w => Recorded o (w.frames i) w
  | .opened, w => OpenRecorded o i w
  | .locked, w => OpenRecorded o i w ∧ (owner = o → TopLocked o i w)
  | .listed given, w => OpenRecorded o i w ∧ (owner = o → TopLocked o i w ∧
      idsOf o w.instances ∪ own o w i ⊆ given)
  | .counted counts, w => OpenRecorded o i w ∧ (owner = o → TopLocked o i w ∧
      (w.owned o ∪ own o w i).card ≤ counts.1 ∧ (w.activeOwned o).card ≤ counts.2)
  | .admitted, w => OpenRecorded o i w ∧ (owner = o → Admitted o m c i w)
  | .reserved row, w => OpenRecorded o i w ∧ w.reserved i = some row ∧ row.owner = owner ∧
      (owner = o → Admitted o m c i w)
  | .claimed row, w => ClaimedRow o i row w ∧ row.owner = owner ∧
      (owner = o → TopLocked o i w ∧ (w.activeOwned o).card < c)
  | .failed, w => OuterRecorded o i w

section Start

variable {o} {m c} {i : ι} {w w' : Cluster ι} {limits : Limits} {isSuper : Bool} {owner : Owner}

omit [DecidableEq ι] in
/-- Rows of subtransactions stay recorded. -/
theorem Recorded.stable {frames : List Frame} (h : Recorded o frames w)
    (hframes : rowsOf frames ⊆ rowsOf (w.frames i)) (hrely : QuotaRely o i w w') :
    Recorded o frames w' :=
  fun id hid => hrely.recorded id (ids_of_mono o hframes hid) (h id hid)

omit [DecidableEq ι] in
theorem OpenRecorded.stable (h : OpenRecorded o i w) (hrely : QuotaRely o i w w') :
    OpenRecorded o i w' := by
  rw [OpenRecorded, hrely.same.1]
  exact ⟨h.1, h.2.stable subset_rfl hrely⟩

omit [DecidableEq ι] in
theorem OuterRecorded.stable (h : OuterRecorded o i w) (hrely : QuotaRely o i w w') :
    OuterRecorded o i w' := by
  obtain ⟨top, outer, hframes, hrecorded⟩ := h
  refine ⟨top, outer, hrely.same.1.trans hframes, hrecorded.stable ?_ hrely⟩
  rw [hframes]
  exact Finset.subset_union_right

omit [DecidableEq ι] in
theorem TopLocked.stable (h : TopLocked o i w) (hrely : QuotaRely o i w w') :
    TopLocked o i w' := by
  obtain ⟨frame, outer, hframes, hlock⟩ := h
  exact ⟨frame, outer, hrely.same.1.trans hframes, hlock⟩

omit [DecidableEq ι] in
/-- The open rows of a thread stay. -/
theorem QuotaRely.own_eq (hrely : QuotaRely o i w w') : own o w' i = own o w i := by
  rw [own, hrely.same.1, own]

omit [DecidableEq ι] in
/-- While the lock is held, the counts do not grow. -/
theorem QuotaRely.counts (hrely : QuotaRely o i w w') (hlocked : TopLocked o i w) :
    (w'.owned o ∪ own o w' i).card ≤ (w.owned o ∪ own o w i).card ∧
      (w'.activeOwned o).card ≤ (w.activeOwned o).card := by
  have hshrinks := hrely.shrinks hlocked.holds
  rw [hrely.own_eq]
  exact ⟨Finset.card_le_card (Finset.union_subset_union_left hshrinks.owned),
    Finset.card_le_card hshrinks.active_owned⟩

omit [DecidableEq ι] in
theorem Admitted.stable (h : Admitted o m c i w) (hrely : QuotaRely o i w w') :
    Admitted o m c i w' where
  locked := h.locked.stable hrely
  retained := (hrely.counts h.locked).1.trans_lt h.retained
  active := (hrely.counts h.locked).2.trans_lt h.active

omit [DecidableEq ι] in
theorem ClaimedRow.stable {row : OwnedId} (h : ClaimedRow o i row w)
    (hrely : QuotaRely o i w w') : ClaimedRow o i row w' where
  reserved := hrely.same.2.trans h.reserved
  claimed := by
    rw [hrely.same.1]
    exact h.claimed
  unique := by
    rw [hrely.same.1]
    exact h.unique
  recorded := by
    intro id hid hne
    rw [hrely.own_eq] at hid
    exact hrely.recorded id hid (h.recorded id hid hne)
  outer := h.outer.stable hrely

omit [DecidableEq ι] in
/-- What holds at a point is stable. -/
theorem quota_at_stable (p : Point) (h : QuotaAt o m c i owner p w) (hrely : QuotaRely o i w w') :
    QuotaAt o m c i owner p w' := by
  cases p with
  | idle | queued =>
      show Recorded o (w'.frames i) w'
      rw [hrely.same.1]
      exact Recorded.stable h subset_rfl hrely
  | opened => exact OpenRecorded.stable h hrely
  | locked => exact ⟨h.1.stable hrely, fun howner => (h.2 howner).stable hrely⟩
  | listed given =>
      refine ⟨h.1.stable hrely, fun howner => ⟨(h.2 howner).1.stable hrely, ?_⟩⟩
      rw [hrely.own_eq]
      exact (Finset.union_subset_union_left
        (hrely.shrinks (h.2 howner).1.holds).instances).trans (h.2 howner).2
  | counted counts =>
      refine ⟨h.1.stable hrely, fun howner => ?_⟩
      obtain ⟨hlocked, hretained, hactive⟩ := h.2 howner
      have hcounts := hrely.counts hlocked
      exact ⟨hlocked.stable hrely, hcounts.1.trans hretained, hcounts.2.trans hactive⟩
  | admitted => exact ⟨h.1.stable hrely, fun howner => (h.2 howner).stable hrely⟩
  | reserved row =>
      exact ⟨h.1.stable hrely, hrely.same.2.trans h.2.1, h.2.2.1,
        fun howner => (h.2.2.2 howner).stable hrely⟩
  | claimed row =>
      refine ⟨h.1.stable hrely, h.2.1, fun howner => ?_⟩
      obtain ⟨hlocked, hactive⟩ := h.2.2 howner
      exact ⟨hlocked.stable hrely, (hrely.counts hlocked).2.trans_lt hactive⟩
  | failed => exact OuterRecorded.stable h hrely

omit [DecidableEq ι] in
/-- In an open transaction with recorded rows, the outer ones are recorded. -/
theorem OpenRecorded.outer (h : OpenRecorded o i w) : OuterRecorded o i w := by
  obtain ⟨hopen, hrecorded⟩ := h
  cases hframes : w.frames i with
  | nil => exact absurd hframes hopen
  | cons top outer =>
      refine ⟨top, outer, hframes, fun id hid => hrecorded id (ids_of_mono o ?_ hid)⟩
      rw [hframes]
      exact Finset.subset_union_right

/-- The outline of a start for the quotas. -/
theorem quota_outline (hlimits : 0 < limits.maxInstancesPerUser ∧ 0 < limits.maxConcurrentPerUser)
    (hbounds : limits.maxInstancesPerUser ≤ m ∧ limits.maxConcurrentPerUser ≤ c)
    (hsuper : owner = o → isSuper = false) :
    Outline i limits isSuper owner (QuotaRely o i) (QuotaGuar o m c i) (QuotaAt o m c i owner) where
  stable p _ _ h hrely := quota_at_stable p h hrely
  fails := by
    intro p w hp h
    cases p with
    | opened => exact OpenRecorded.outer h
    | claimed row => exact h.1.outer
    | locked | listed | counted | admitted | reserved => exact h.1.outer
    | idle | queued | failed => cases hp
  unguarded := by
    intro w q answer w' hq hstep
    refine ⟨hstep, fun row heq => ?_, fun heq => ?_⟩ <;>
    · subst heq
      cases hq
  unlimited := by
    intro w hunlimited h
    refine ⟨h, fun howner => ?_⟩
    rcases hunlimited with hyes | ⟨hnone, -⟩
    · rw [hsuper howner] at hyes
      cases hyes
    · omega
  opens := by
    intro w answer w' h hstep
    cases hstep with
    | refused hrefusable => cases hrefusable
    | openTransaction =>
        refine ⟨?_, fun id hid => ?_⟩
        · rw [set_frames_self]
          split
          · simp
          · next hopen => simpa using hopen
        · rw [set_frames_self] at hid
          split at hid
          · simp [rowsOf, Frame.empty] at hid
          · exact h id hid
  lock := by
    intro w w' h hstep
    cases hstep with
    | @acquireLock _ frame outer hfree hframes =>
        refine ⟨⟨by simp, fun id hid => ?_⟩, fun howner => ?_⟩
        · rw [set_frames_self] at hid
          refine h.2 id ?_
          rw [hframes]
          exact hid
        · exact ⟨_, outer, set_frames_self, by simp [howner]⟩
  list := by
    intro w given w' h hstep
    cases hstep with
    | currentIds =>
        refine ⟨h.1, fun howner => ⟨h.2 howner, ?_⟩⟩
        rw [howner, own, ← ids_of_union]
  count := by
    intro w given counts w' h hstep
    cases hstep with
    | counts =>
        refine ⟨h.1, fun howner => ⟨(h.2 howner).1, ?_, ?_⟩⟩
        · refine Finset.card_le_card ?_
          rw [howner, owned, Finset.union_right_comm]
          exact Finset.union_subset_union_left (h.2 howner).2
        · simp only [Cluster.submissionCounts, hlimits.2, decide_true, if_true]
          refine Finset.card_le_card (Finset.filter_subset_filter _ ?_)
          rw [howner, owned]
          exact Finset.union_subset_union_left
            (Finset.subset_union_left.trans (h.2 howner).2)
  under := by
    intro w counts h hunder
    refine ⟨h.1, fun howner => ?_⟩
    obtain ⟨hlocked, hretained, hactive⟩ := h.2 howner
    have hfirst := hunder.1 hlimits.1
    have hsecond := hunder.2 hlimits.2
    exact ⟨hlocked, by omega, by omega⟩
  reserve := by
    intro w row w' h hrow hstep
    cases hstep with
    | reserve =>
        exact ⟨h.1, set_reserved_self, hrow, fun howner =>
          ⟨(h.2 howner).locked, (h.2 howner).retained, (h.2 howner).active⟩⟩
  claim := by
    intro w row answer w' h hstep
    obtain ⟨hopen, hreserved, hrow, hadmitted⟩ := h
    refine ⟨⟨hstep, ?_, fun heq => (by cases heq)⟩, fun hanswer => ?_⟩
    · intro other heq howner
      obtain rfl : row = other := by simpa using heq
      exact hadmitted (hrow.symm.trans howner)
    · subst hanswer
      cases hstep with
      | @claim _ frame outer hfree hnew hframes =>
          have hrows : rowsOf ((w.setFrames i ({ frame with rows := insert row frame.rows } ::
              outer)).frames i) = insert row (rowsOf (w.frames i)) := by
            rw [set_frames_self, hframes, rowsOf, rowsOf, Finset.insert_union]
          have hfresh : ∀ other ∈ rowsOf (w.frames i), other.id ≠ row.id := fun other hother heq =>
            hnew (mem_ids.mpr ⟨other, Finset.mem_union_right _ hother, heq⟩)
          refine ⟨⟨hreserved, ?_, ?_, ?_, ?_⟩, hrow, fun howner => ⟨?_, (hadmitted howner).active⟩⟩
          · rw [hrows]
            exact Finset.mem_insert_self _ _
          · intro other hother heq
            rw [hrows] at hother
            exact (Finset.mem_insert.mp hother).resolve_right fun hold => hfresh other hold heq
          · intro id hid hne
            rw [own, hrows] at hid
            obtain ⟨other, hother, howner, rfl⟩ := (mem_ids_of o).mp hid
            rcases Finset.mem_insert.mp hother with rfl | hold
            · exact absurd rfl hne
            · exact hopen.2 _ ((mem_ids_of o).mpr ⟨other, hold, howner, rfl⟩)
          · refine ⟨_, outer, set_frames_self, fun id hid => hopen.2 id (ids_of_mono o ?_ hid)⟩
            rw [hframes]
            exact Finset.subset_union_right
          · obtain ⟨top, rest, htop, hlock⟩ := (hadmitted howner).locked
            rw [hframes] at htop
            exact ⟨_, outer, set_frames_self, (List.cons.inj htop).1 ▸ hlock⟩
  release := by
    intro w row answer w' h hstep
    cases hstep with
    | refused hrefusable => cases hrefusable
    | rollbackReservation =>
        exact ⟨h.1, fun howner => ⟨(h.2.2.2 howner).locked, (h.2.2.2 howner).retained,
          (h.2.2.2 howner).active⟩⟩
  unwind := by
    intro w answer w' h hstep
    cases hstep with
    | refused hrefusable => cases hrefusable
    | rollbackReservation => exact h
  enqueue := by
    intro w row answer w' h hstep
    obtain ⟨hclaimed, hrow, hadmitted⟩ := h
    refine ⟨⟨hstep, fun _ heq => (by cases heq), fun _ other hother => ?_⟩, ?_⟩
    · obtain rfl : row = other := Option.some.inj (hclaimed.reserved.symm.trans hother)
      exact ⟨hclaimed.claimed, fun howner => ⟨(hadmitted (hrow.symm.trans howner)).1.holds,
        (hadmitted (hrow.symm.trans howner)).2⟩⟩
    · cases hstep with
      | refused hrefusable => cases hrefusable
      | enqueueFailed => exact ⟨hclaimed.outer, fun heq => by cases heq⟩
      | @enqueue other _ hother =>
          obtain rfl : row = other := Option.some.inj (hclaimed.reserved.symm.trans hother)
          have hrecorded : Recorded o (w.frames i) (w.commitSubmission i row) := by
            intro id hid hactive
            rcases eq_or_ne id row.id with rfl | hne
            · obtain ⟨found, hfound, howner, hid⟩ := (mem_ids_of o).mp hid
              obtain rfl := hclaimed.unique found hfound hid
              exact Finset.mem_union_right _ ((mem_ids_of o).mpr
                ⟨found, Finset.mem_insert_self _ _, howner, rfl⟩)
            · have hengine : (w.commitSubmission i row).engine id = w.engine id :=
                set_engine_of_ne hne
              rw [hengine] at hactive
              exact Finset.union_subset_union_right (ids_of_mono o (Finset.subset_insert _ _))
                (hclaimed.recorded id hid hne hactive)
          obtain ⟨top, outer, hframes, -⟩ := hclaimed.outer
          refine ⟨⟨top, outer, hframes, fun id hid => hrecorded id (ids_of_mono o ?_ hid)⟩,
            fun _ => hrecorded⟩
          rw [hframes]
          exact Finset.subset_union_right
  raise := by
    intro w answer w' h hstep
    obtain ⟨top, outer, hframes, hrecorded⟩ := h
    cases hstep with
    | refused hrefusable => cases hrefusable
    | @raise inner rest hinner hsplit =>
        intro id hid
        rw [set_frames_self] at hid
        refine hrecorded id (ids_of_mono o ?_ hid)
        cases inner with
        | nil => exact absurd rfl hinner
        | cons frame inner =>
            have houter : outer = inner ++ rest := (List.cons.inj (hframes.symm.trans hsplit)).2
            rw [houter, rows_of_append]
            exact Finset.subset_union_right
  finish := fun h => h

end Start

/-! ## The quotas hold -/

/-- A cleanup pass keeps the rows of its thread recorded. -/
theorem maintenance_recorded {i : ι} {w w' : Cluster ι} {q : Statement} {answer : q.Answer}
    (hwithin : Within o m c w) (hq : q.maintenance = true) (h : Recorded o (w.frames i) w)
    (hstep : Act i w q answer w') : Recorded o (w'.frames i) w' := by
  cases hstep with
  | refused | page | retired | withoutMetadata | delete | commitDeleteFailed => exact h
  | commitDelete =>
      intro id hid hactive
      rcases Finset.mem_union.mp (h id hid hactive) with hinstance | hledger
      · exact Finset.mem_union_left _ hinstance
      · exact Finset.mem_union_right _ (active_not_deleted hwithin hactive hledger)
  | _ => cases hq

/-- The threads of the cluster keep within the limits. -/
theorem quota_discipline {limits : Limits} {isSuper : Nat → Bool}
    (hlimits : 0 < limits.maxInstancesPerUser ∧ 0 < limits.maxConcurrentPerUser)
    (hbounds : limits.maxInstancesPerUser ≤ m ∧ limits.maxConcurrentPerUser ≤ c)
    (hsuper : isSuper o.role = false) :
    Discipline (submissions ι limits isSuper) (Within o m c) (QuotaRely o) (QuotaGuar o m c)
      (fun i w => Recorded o (w.frames i) w) (fun i _ w => Recorded o (w.frames i) w) where
  event := fun hwithin hstep =>
    ⟨(event_within hwithin hstep).1, fun i => .single ((event_within hwithin hstep).2 i)⟩
  command := fun hwithin hidle hstep =>
    ⟨(command_within hwithin hidle hstep).1,
      fun j hne => .single ((command_within hwithin hidle hstep).2 j hne)⟩
  act := fun hwithin hguar =>
    ⟨(guar_within hwithin hguar).1, fun j hne => .single ((guar_within hwithin hguar).2 j hne)⟩
  call := by
    rintro i program w hwithin hidle (⟨owner, userName, rfl⟩ | ⟨cursor, rfl⟩)
    · exact start_safe (quota_outline hlimits hbounds fun howner => howner ▸ hsuper) userName hidle
    · refine cleanup_safe (P := fun w => Recorded o (w.frames i) w) (fun w w' h hrely => ?_) hidle ?_
        cursor
      · rw [hrely.same.1]
        exact h.stable subset_rfl hrely
      · intro w q answer w' hq hwithin h hstep
        refine ⟨⟨hstep, fun row heq => ?_, fun heq => ?_⟩,
          maintenance_recorded o m c hwithin hq h hstep⟩ <;>
        · subst heq
          cases hq
  finish := fun h => h
  stable := by
    intro i w w' h hrely
    rw [hrely.same.1]
    exact h.stable subset_rfl hrely

/-- No open transaction has started an instance of the owner or holds its lock. -/
def Quiet (w : Cluster ι) : Prop :=
  ∀ i, ∀ frame ∈ w.frames i, o ∉ frame.locks ∧ ∀ row ∈ frame.rows, row.owner ≠ o

omit [DecidableEq ι] in
/-- In a quiet state no transaction has ids of the owner. -/
theorem Quiet.own_eq_empty {o : Owner} {w : Cluster ι} (h : Quiet o w) (i : ι) : own o w i = ∅ :=
  ids_of_eq_empty fun frame hframe => (h i frame hframe).2

omit [DecidableEq ι] in
/-- A quiet state is within any limits that its counts are within. -/
theorem Quiet.within {o : Owner} {w : Cluster ι} (h : Quiet o w) (hkeys : Keys w) (m c : Nat) :
    Within o (max m (w.owned o).card) (max c (w.activeOwned o).card) w where
  keys := hkeys
  exclusive := by
    intro i j hi hj
    obtain ⟨frame, hframe, hlock⟩ := hi
    exact absurd hlock (h i frame hframe).1
  locked := by
    intro i frame row hframe hrow howner
    exact absurd howner ((h i frame hframe).2 row hrow)
  retained := le_max_right _ _
  pending := by
    intro i
    rw [h.own_eq_empty, Finset.union_empty]
    exact le_max_right _ _
  active := le_max_right _ _

/-- With both limits set, in every interleaving from a state without open starts of the owner: the
number of its ids in committed instance rows or in the ledger exceeds the limit on instances only
if it did so at the start, and the number of active ones the limit on concurrent ones. -/
theorem quotas_hold {limits : Limits} {isSuper : Nat → Bool} {owner : Owner}
    {s s' : System ι (Cluster ι) Statement Statement.Answer Finished}
    (hlimits : 0 < limits.maxInstancesPerUser ∧ 0 < limits.maxConcurrentPerUser)
    (hsuper : isSuper owner.role = false) (hidle : ∀ i, s.running i = none)
    (hkeys : Keys s.world) (hquiet : Quiet owner s.world)
    (hrun : System.Reaches (submissions ι limits isSuper) s s') :
    (s'.world.owned owner).card ≤ max limits.maxInstancesPerUser (s.world.owned owner).card ∧
      (s'.world.activeOwned owner).card ≤
        max limits.maxConcurrentPerUser (s.world.activeOwned owner).card := by
  have hwithin := hquiet.within hkeys limits.maxInstancesPerUser limits.maxConcurrentPerUser
  have hstart : ∀ i, s.running i = none ∧ Recorded owner (s.world.frames i) s.world := by
    intro i
    refine ⟨hidle i, fun id hid => ?_⟩
    have hempty : idsOf owner (rowsOf (s.world.frames i)) = ∅ := hquiet.own_eq_empty i
    rw [hempty] at hid
    cases hid
  have hend := ((quota_discipline owner _ _ hlimits ⟨le_max_left _ _, le_max_left _ _⟩
    hsuper).safe hwithin hstart hrun).1
  exact ⟨hend.retained, hend.active⟩

section LimitedStart

/-- The cluster with the quota lock of a role taken by the first session. -/
def lockedCluster : Cluster Nat :=
  (emptyCluster.setFrames 0 [Frame.empty]).setFrames 0 [⟨∅, insert ⟨none, 10⟩ ∅⟩]

/-- The cluster with the row of that start reserved and claimed under the lock. -/
def admittedCluster : Cluster Nat :=
  (lockedCluster.setReserved 0 (some firstRow)).setFrames 0
    [⟨insert firstRow ∅, insert ⟨none, 10⟩ ∅⟩]

/-- A role that may have one instance starts it. -/
theorem limited_start_runs : Asks.Runs EngineEvent (Act 0) emptyCluster
    (start ⟨1, 1⟩ false ⟨none, 10⟩ "app") (admittedCluster.commitSubmission 0 firstRow)
    (.started (.ok firstRow.id)) := by
  have hopen : Act 0 emptyCluster .openTransaction (.ok ())
      (emptyCluster.setFrames 0 [Frame.empty]) := .openTransaction
  have hlock : Act 0 (emptyCluster.setFrames 0 [Frame.empty])
      (.acquireInstanceQuotaLock ⟨none, 10⟩) (.ok ()) lockedCluster := by
    refine @Act.acquireLock _ _ 0 _ _ Frame.empty [] ?_ set_frames_self
    intro j hne hholds
    obtain ⟨frame, hframe, -⟩ := hholds
    rw [set_frames_of_ne hne] at hframe
    cases hframe
  have hreserve : Act 0 lockedCluster (.reserveSubmission firstRow) (.ok true)
      (lockedCluster.setReserved 0 (some firstRow)) := by
    refine .reserve ?_ ?_ ?_ <;> simp [lockedCluster, emptyCluster, setFrames]
  have hclaim : Act 0 (lockedCluster.setReserved 0 (some firstRow)) (.claimInstance firstRow)
      (.ok true) admittedCluster := by
    refine @Act.claim _ _ 0 _ _ ⟨∅, insert ⟨none, 10⟩ ∅⟩ [] ?_ ?_ ?_
    · intro j hne
      simp [lockedCluster, emptyCluster, setReserved, setFrames, hne, rowsOf]
    · simp [lockedCluster, emptyCluster, setReserved, setFrames, rowsOf]
    · rfl
  have henqueue : Act 0 admittedCluster .enqueue (.ok ())
      (admittedCluster.commitSubmission 0 firstRow) := .enqueue rfl
  exact .ask hopen (.ask hlock (.ask .currentIds (.ask .counts
    (.ask (.shortId firstRow.id.localId) (.ask hreserve (.ask hclaim
      (.ask .insertNodes (.ask henqueue .done))))))))

/-- The role has used up its limits then. -/
theorem limited_start_within :
    ((admittedCluster.commitSubmission 0 firstRow).owned ⟨none, 10⟩).card ≤ 1 ∧
      ((admittedCluster.commitSubmission 0 firstRow).activeOwned ⟨none, 10⟩).card ≤ 1 ∧
      firstRow.id ∈ (admittedCluster.commitSubmission 0 firstRow).activeOwned ⟨none, 10⟩ := by
  have hrun : System.Reaches (submissions Nat ⟨1, 1⟩ fun _ => false)
      ⟨emptyCluster, fun _ => none, []⟩
      ⟨admittedCluster.commitSubmission 0 firstRow, fun _ => none,
        [(0, .started (.ok firstRow.id))]⟩ :=
    System.reaches_call rfl (.inl ⟨_, _, rfl⟩) limited_start_runs
  have hkeys : Keys emptyCluster := by
    constructor <;> simp [emptyCluster, rowsOf]
  have hquiet : Quiet ⟨none, 10⟩ emptyCluster := by
    intro i frame hframe
    cases hframe
  have hbounds := quotas_hold (by decide) rfl (fun _ => rfl) hkeys hquiet hrun
  refine ⟨hbounds.1, hbounds.2, ?_⟩
  simp [activeOwned, owned, commitSubmission, EngineRecord.active, EngineRecord.executionStatus,
    admittedCluster, lockedCluster, emptyCluster, setFrames, setReserved, EngineRecord.empty,
    firstRow, OwnedId.owner]

end LimitedStart

end PgDurable.Submissions
