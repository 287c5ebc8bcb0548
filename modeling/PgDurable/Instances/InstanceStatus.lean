import PgDurable.Library.Json.RoundTrip

/-!
# The status of an instance

Two writers change the status of a `df.instances` row: the worker, through the
update-instance-status activity, and `df.cancel` in a backend. Each write is one `UPDATE` whose
guard passes over terminal rows. `first_terminal_wins` says for every sequence of writes what the
row ends with: the first terminal write that reaches it decides the status and the completion
time, and nothing changes the row afterwards.
-/

namespace PgDurable.Instances

open Json

/-- The columns of a `df.instances` row that status writes touch. -/
structure InstanceRow where
  id : String
  status : String
  completedAt : Option Int
  updatedAt : Int
  deriving DecidableEq

/-- The statuses that no write may change. -/
def isFinalStatus (status : String) : Bool := ["completed", "failed", "cancelled"].contains status

/-- The input of the update-instance-status activity. -/
structure InstanceStatusInput where
  instanceId : String
  status : String
  deriving DecidableEq

/-- Read the input object. -/
def InstanceStatusInput.ofJson (inputJson : String) : Except String InstanceStatusInput := do
  let input ← (fromStr inputJson).mapError ("Failed to parse status update input: " ++ ·)
  let some instanceId := (input.index "instance_id").asStr | throw "Missing instance_id"
  let some status := (input.index "status").asStr | throw "Missing status"
  pure ⟨instanceId, status⟩

/-- The `UPDATE` of the activity at a moment. Only `completed` sets the completion time. -/
def updateInstanceStatus (input : InstanceStatusInput) (now : Int) (row : InstanceRow) :
    InstanceRow :=
  if row.id = input.instanceId ∧ isFinalStatus row.status = false then
    if input.status = "completed" then
      { row with status := input.status, completedAt := some now, updatedAt := now }
    else { row with status := input.status, updatedAt := now }
  else row

/-- The `UPDATE` of `df.cancel` at a moment. -/
def cancel (instanceId : String) (now : Int) (row : InstanceRow) : InstanceRow :=
  if row.id = instanceId ∧ isFinalStatus row.status = false then
    { row with status := "cancelled", updatedAt := now }
  else row

/-- A write that reaches the table: the input text of a worker's activity, or a cancellation. -/
inductive InstanceWrite where
  | worker (inputJson : String)
  | cancel (instanceId : String)
  deriving DecidableEq

/-- The effect of a write at a moment; an input that does not parse has none. -/
def applyInstanceWrite (row : InstanceRow) (write : InstanceWrite × Int) : InstanceRow :=
  match write.1 with
  | .worker inputJson =>
      match InstanceStatusInput.ofJson inputJson with
      | .ok input => updateInstanceStatus input write.2 row
      | .error _ => row
  | .cancel instanceId => Instances.cancel instanceId write.2 row

/-- The row and the status that a write asks for. -/
def InstanceWrite.request : InstanceWrite → Option InstanceStatusInput
  | .worker inputJson => (InstanceStatusInput.ofJson inputJson).toOption
  | .cancel instanceId => some ⟨instanceId, "cancelled"⟩

/-! ## Sequences of writes -/

/-- Both writers do the same kind of guarded update. -/
theorem apply_instance_write_eq (row : InstanceRow) (write : InstanceWrite × Int) :
    applyInstanceWrite row write =
      match write.1.request with
      | some input => updateInstanceStatus input write.2 row
      | none => row := by
  obtain ⟨write, now⟩ := write
  cases write with
  | worker inputJson =>
      simp only [applyInstanceWrite, InstanceWrite.request]
      cases InstanceStatusInput.ofJson inputJson <;> rfl
  | cancel instanceId =>
      show Instances.cancel instanceId now row = updateInstanceStatus ⟨instanceId, "cancelled"⟩ now row
      simp [Instances.cancel, updateInstanceStatus]

/-- A write changes no id. -/
theorem apply_instance_write_id (row : InstanceRow) (write : InstanceWrite × Int) :
    (applyInstanceWrite row write).id = row.id := by
  rw [apply_instance_write_eq]
  cases write.1.request with
  | none => rfl
  | some input =>
      show (updateInstanceStatus input write.2 row).id = row.id
      unfold updateInstanceStatus
      split_ifs <;> rfl

/-- A final row stays as it is. -/
theorem apply_final {row : InstanceRow} (h : isFinalStatus row.status) (write : InstanceWrite × Int) :
    applyInstanceWrite row write = row := by
  rw [apply_instance_write_eq]
  cases write.1.request with
  | none => rfl
  | some input => simp [updateInstanceStatus, h]

/-- A final row stays as it is for every sequence of writes. -/
theorem foldl_final {row : InstanceRow} (h : isFinalStatus row.status)
    (arrival : List (InstanceWrite × Int)) : arrival.foldl applyInstanceWrite row = row := by
  induction arrival with
  | nil => rfl
  | cons write arrival ih => rw [List.foldl_cons, apply_final h, ih]

/-- The status and the moment of a write that ends the instance. -/
def InstanceWrite.ends (id : String) (write : InstanceWrite × Int) : Option (String × Int) :=
  write.1.request.bind fun input =>
    if id = input.instanceId ∧ isFinalStatus input.status then some (input.status, write.2) else none

/-- What a write does to a row that is not final. -/
theorem apply_open {row : InstanceRow} (h : isFinalStatus row.status = false)
    (write : InstanceWrite × Int) :
    match InstanceWrite.ends row.id write with
    | some (status, now) => isFinalStatus status ∧ applyInstanceWrite row write =
        { row with
          status := status
          completedAt := if status = "completed" then some now else row.completedAt
          updatedAt := now }
    | none => isFinalStatus (applyInstanceWrite row write).status = false ∧
        (applyInstanceWrite row write).completedAt = row.completedAt := by
  rw [apply_instance_write_eq]
  unfold InstanceWrite.ends
  cases write.1.request with
  | none => exact ⟨h, rfl⟩
  | some input =>
      by_cases hid : row.id = input.instanceId
      · cases hfinal : isFinalStatus input.status with
        | true =>
            simp only [Option.bind_some, hid, hfinal, updateInstanceStatus, h, and_self, if_true,
              true_and]
            split_ifs <;> rfl
        | false =>
            have hcompleted : input.status ≠ "completed" := by
              intro heq
              rw [heq] at hfinal
              exact absurd hfinal (by decide)
            simp [updateInstanceStatus, hid, h, hfinal, hcompleted]
      · simp [updateInstanceStatus, hid, h]

/-- The first terminal write decides, and nothing changes the row afterwards. -/
structure FirstTerminalWins (row : InstanceRow) (arrival : List (InstanceWrite × Int)) : Prop where
  /-- Once the status is final the whole row stays, whatever arrives. -/
  final : ∀ earlier later, arrival = earlier ++ later →
    isFinalStatus (earlier.foldl applyInstanceWrite row).status →
    arrival.foldl applyInstanceWrite row = earlier.foldl applyInstanceWrite row
  /-- The status is that of the first terminal write. -/
  first : ∀ {status now}, arrival.findSome? (InstanceWrite.ends row.id) = some (status, now) →
    (arrival.foldl applyInstanceWrite row).status = status
  /-- Without a terminal write the row does not become final. -/
  stillOpen : arrival.findSome? (InstanceWrite.ends row.id) = none →
    isFinalStatus (arrival.foldl applyInstanceWrite row).status = false
  /-- The completion time is the moment at which the status became `completed`. -/
  completedAt : ∀ now, (arrival.foldl applyInstanceWrite row).completedAt = some now ↔
    arrival.findSome? (InstanceWrite.ends row.id) = some ("completed", now)

/-- What a sequence of writes leaves of a row that is not final. -/
theorem foldl_open (arrival : List (InstanceWrite × Int)) {row : InstanceRow}
    (hstatus : isFinalStatus row.status = false) (hcompleted : row.completedAt = none) :
    match arrival.findSome? (InstanceWrite.ends row.id) with
    | some (status, now) => (arrival.foldl applyInstanceWrite row).status = status ∧
        (arrival.foldl applyInstanceWrite row).completedAt =
          if status = "completed" then some now else none
    | none => isFinalStatus (arrival.foldl applyInstanceWrite row).status = false ∧
        (arrival.foldl applyInstanceWrite row).completedAt = none := by
  -- On the arrivals: the row stays open up to the first terminal write and is final from there.
  induction arrival generalizing row with
  | nil => exact ⟨hstatus, hcompleted⟩
  | cons write arrival ih =>
      have hstep := apply_open hstatus write
      rw [List.foldl_cons, List.findSome?_cons]
      cases hwrite : InstanceWrite.ends row.id write with
      | none =>
          rw [hwrite] at hstep
          have hrest := ih hstep.1 (hstep.2.trans hcompleted)
          rwa [apply_instance_write_id] at hrest
      | some ended =>
          obtain ⟨status, now⟩ := ended
          rw [hwrite] at hstep
          obtain ⟨hended, hrow⟩ := hstep
          rw [foldl_final (by rw [hrow]; exact hended), hrow]
          exact ⟨rfl, by rw [hcompleted]⟩

/-- The law holds for every sequence of writes to a row that has not ended. -/
theorem first_terminal_wins {row : InstanceRow} (hstatus : isFinalStatus row.status = false)
    (hcompleted : row.completedAt = none) (arrival : List (InstanceWrite × Int)) :
    FirstTerminalWins row arrival := by
  have hrow := foldl_open arrival hstatus hcompleted
  refine ⟨?_, ?_, ?_, ?_⟩
  · rintro earlier later rfl h
    rw [List.foldl_append, foldl_final h]
  · intro status now hfound
    rw [hfound] at hrow
    exact hrow.1
  · intro hfound
    rw [hfound] at hrow
    exact hrow.1
  · intro moment
    cases hfound : arrival.findSome? (InstanceWrite.ends row.id) with
    | none =>
        rw [hfound] at hrow
        simp [hrow.2]
    | some ended =>
        obtain ⟨status, now⟩ := ended
        rw [hfound] at hrow
        rw [hrow.2]
        by_cases hname : status = "completed" <;> simp [hname]

/-- A row that was just inserted. -/
def pendingRow : InstanceRow := ⟨"aaaaaaaa", "pending", none, 0⟩

/-- The theorem at a cancellation that overtakes the worker's `completed`. -/
theorem cancel_overtakes_completed :
    (List.foldl applyInstanceWrite pendingRow
      [(.worker "\x7b\"instance_id\":\"aaaaaaaa\",\"status\":\"running\"\x7d", 1),
        (.cancel "aaaaaaaa", 2),
        (.worker "\x7b\"instance_id\":\"aaaaaaaa\",\"status\":\"completed\"\x7d", 3)]).status =
      "cancelled" :=
  @FirstTerminalWins.first _ _ (first_terminal_wins (by decide) rfl _) "cancelled" 2
    (by decide +kernel)

end PgDurable.Instances
