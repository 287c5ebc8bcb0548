import PgDurable.Library.Keyset

/-!
# Sweeping a table page by page

A sweep takes the first names of the expired rows behind a cursor, deletes those rows, moves the
cursor to the last name and goes on until a page is short. Whether a row is expired may depend on
the whole table. `sweep_leaves` says that a sweep leaves exactly the rows that were not expired at
its start, if deleting expired rows changes the expiry of no other row.
-/

namespace PgDurable.Sweep

open Keyset

variable {α ι κ : Type} [DecidableEq ι] [LinearOrder κ]

/-- Delete the rows with these names. -/
def deleteNames (name : α → ι) (names : List ι) (rows : List α) : List α :=
  rows.filter fun row => !names.contains (name row)

/-- The first names of the expired rows behind the cursor, in order. -/
def expiredPage (name : α → ι) (order : ι → κ) (expired : List α → α → Bool) (limit : Nat)
    (rows : List α) (cursor : Option ι) : List ι :=
  ((orderBy order ((rows.filter (expired rows)).map name)).filter fun other =>
    cursor.all fun last => order last < order other).take limit

/-- A sweep over pages: it ends with a page that is shorter than the limit. -/
inductive Sweeps (name : α → ι) (takes : List α → Option ι → List ι → Prop) (limit : Nat) :
    List α → Option ι → List α → Prop
  | last {rows : List α} {cursor : Option ι} {names : List ι} (htakes : takes rows cursor names)
      (hshort : names.length < limit) :
      Sweeps name takes limit rows cursor (deleteNames name names rows)
  | more {rows final : List α} {cursor : Option ι} {names : List ι} {last : ι}
      (htakes : takes rows cursor names) (hfull : ¬ names.length < limit)
      (hlast : names.getLast? = some last)
      (hrest : Sweeps name takes limit (deleteNames name names rows) (some last) final) :
      Sweeps name takes limit rows cursor final

/-- Deleting expired rows changes the expiry of no other row. -/
def Steady (expired : List α → α → Bool) (rows : List α) : Prop :=
  ∀ kept : α → Bool, (∀ row ∈ rows, kept row = false → expired rows row = true) →
    ∀ row ∈ rows, kept row = true → expired (rows.filter kept) row = expired rows row

section Pages

variable {name : α → ι} {order : ι → κ} {expired : List α → α → Bool}
  {takes : List α → Option ι → List ι → Prop} {limit : Nat} {rows : List α}

/-- The names of the expired rows, in order. -/
def expiredNames (name : α → ι) (order : ι → κ) (expired : List α → α → Bool) (rows : List α) :
    List ι :=
  orderBy order ((rows.filter (expired rows)).map name)

/-- Where a sweep stands: some of the expired rows are deleted, and the cursor is the last of
their names. -/
structure Stands (name : α → ι) (order : ι → κ) (expired : List α → α → Bool) (rows : List α)
    (deleted remaining : List ι) (current : List α) (cursor : Option ι) : Prop where
  split : expiredNames name order expired rows = deleted ++ remaining
  current : current = deleteNames name deleted rows
  cursor : cursor = deleted.getLast?

theorem Stands.sublist {deleted remaining : List ι} {current : List α} {cursor : Option ι}
    (h : Stands name order expired rows deleted remaining current cursor) :
    current.Sublist rows := by
  rw [h.current]
  exact List.filter_sublist

omit [DecidableEq ι] in
theorem mem_expired_names {other : ι} :
    other ∈ expiredNames name order expired rows ↔
      ∃ row ∈ rows, expired rows row = true ∧ name row = other := by
  rw [expiredNames, (order_by_perm _ _).mem_iff, List.mem_map]
  simp only [List.mem_filter, and_assoc]

omit [DecidableEq ι] [LinearOrder κ] in
theorem expired_keys_nodup (expired : List α → α → Bool) (horder : Function.Injective order)
    (hnames : (rows.map name).Nodup) :
    (((rows.filter (expired rows)).map name).map order).Nodup :=
  (hnames.sublist (List.filter_sublist.map _)).map horder

/-- What remains is what is expired in the current table. -/
theorem expired_names_of_stands (horder : Function.Injective order)
    (hnames : (rows.map name).Nodup) (hsteady : Steady expired rows) {deleted remaining : List ι}
    {current : List α} {cursor : Option ι}
    (h : Stands name order expired rows deleted remaining current cursor) :
    expiredNames name order expired current = remaining := by
  have hkeys := expired_keys_nodup expired horder hnames
  have hlt := order_by_lt hkeys
  rw [← expiredNames, h.split] at hlt
  have hdeleted : ∀ row ∈ rows, (!deleted.contains (name row)) = false →
      expired rows row = true := by
    intro row hrow hgone
    have hmem : name row ∈ expiredNames name order expired rows := by
      rw [h.split]
      exact List.mem_append_left _ (by simpa using hgone)
    obtain ⟨other, hother, hexpired, hsame⟩ := mem_expired_names.1 hmem
    rwa [List.inj_on_of_nodup_map hnames hother hrow hsame] at hexpired
  have hcurrent : current.filter (expired current) =
      (rows.filter (expired rows)).filter fun row => !deleted.contains (name row) := by
    rw [h.current, deleteNames, List.filter_filter, List.filter_filter]
    refine List.filter_congr fun row hrow => ?_
    by_cases hkept : (!deleted.contains (name row)) = true
    · rw [hsteady _ hdeleted row hrow hkept, Bool.and_comm]
    · rw [Bool.not_eq_true] at hkept
      rw [hkept, Bool.and_false, Bool.false_and]
  rw [expiredNames, hcurrent]
  have hmap := List.filter_map (f := name) (p := fun other => !deleted.contains other)
    (l := rows.filter (expired rows))
  rw [show (fun row => !deleted.contains (name row)) =
    (fun other => !deleted.contains other) ∘ name from rfl, ← hmap, order_by_filter hkeys,
    ← expiredNames, h.split, List.filter_append]
  have hnone : deleted.filter (fun other => !deleted.contains other) = [] :=
    List.filter_eq_nil_iff.2 fun other hmem => by simp [hmem]
  have hall : remaining.filter (fun other => !deleted.contains other) = remaining := by
    refine List.filter_eq_self.2 fun other hmem => ?_
    have hbehind := fun earlier hearlier =>
      (List.pairwise_append.1 hlt).2.2 earlier hearlier other hmem
    have hother : other ∉ deleted := fun hmem' => lt_irrefl _ (hbehind other hmem')
    simpa using hother
  rw [hnone, hall, List.nil_append]

/-- The page of a sweep is the start of what remains. -/
theorem page_of_stands (horder : Function.Injective order) (hnames : (rows.map name).Nodup)
    (hsteady : Steady expired rows) {deleted remaining : List ι} {current : List α}
    {cursor : Option ι}
    (h : Stands name order expired rows deleted remaining current cursor) :
    expiredPage name order expired limit current cursor = remaining.take limit := by
  have hlt := order_by_lt (expired_keys_nodup expired horder hnames)
  rw [← expiredNames, h.split] at hlt
  rw [expiredPage, ← expiredNames, expired_names_of_stands horder hnames hsteady h]
  congr 1
  refine List.filter_eq_self.2 fun other hmem => ?_
  rw [h.cursor]
  cases hlast : deleted.getLast? with
  | none => rfl
  | some last =>
      have hbefore := (List.pairwise_append.1 hlt).2.2 last (List.mem_of_getLast? hlast) other hmem
      exact decide_eq_true hbefore

/-- A full page moves the sweep on. -/
theorem Stands.advance {deleted remaining : List ι} {current : List α} {cursor : Option ι}
    {last : ι} (h : Stands name order expired rows deleted remaining current cursor)
    (hlast : (remaining.take limit).getLast? = some last) :
    Stands name order expired rows (deleted ++ remaining.take limit) (remaining.drop limit)
      (deleteNames name (remaining.take limit) current) (some last) := by
  refine ⟨by rw [h.split, List.append_assoc, List.take_append_drop], ?_, ?_⟩
  · rw [h.current, deleteNames, deleteNames, deleteNames, List.filter_filter]
    refine List.filter_congr fun row _ => ?_
    simp [Bool.and_comm]
  · rw [List.getLast?_append, hlast]
    rfl

/-- A sweep that goes on from where it stands leaves the rows that were not expired at its start. -/
theorem sweep_on_leaves (horder : Function.Injective order) (hnames : (rows.map name).Nodup)
    (hsteady : Steady expired rows)
    (htakes : ∀ current cursor names, current.Sublist rows → takes current cursor names →
      names = expiredPage name order expired limit current cursor)
    {cursor : Option ι} {current final : List α} {deleted remaining : List ι}
    (h : Stands name order expired rows deleted remaining current cursor)
    (hsweep : Sweeps name takes limit current cursor final) :
    final = rows.filter fun row => !expired rows row := by
  induction hsweep generalizing deleted remaining with
  | @last current cursor names hpage hshort =>
      rw [htakes _ _ _ h.sublist hpage, page_of_stands horder hnames hsteady h] at hshort ⊢
      -- a short page is all that remains
      rw [List.length_take] at hshort
      rw [List.take_of_length_le (by omega), h.current, deleteNames, deleteNames, List.filter_filter]
      refine List.filter_congr fun row hrow => ?_
      have hmem : name row ∈ expiredNames name order expired rows ↔ expired rows row = true := by
        rw [mem_expired_names]
        constructor
        · rintro ⟨other, hother, hexpired, hsame⟩
          rwa [List.inj_on_of_nodup_map hnames hother hrow hsame] at hexpired
        · exact fun hexpired => ⟨row, hrow, hexpired, rfl⟩
      rw [h.split, List.mem_append] at hmem
      rw [Bool.eq_iff_iff, Bool.and_eq_true, Bool.not_eq_true', Bool.not_eq_true', Bool.not_eq_true',
        ← Bool.not_eq_true (expired rows row), ← hmem]
      simp [and_comm]
  | @more current final cursor names last hpage hfull hlast _ ih =>
      rw [htakes _ _ _ h.sublist hpage, page_of_stands horder hnames hsteady h] at hlast ih
      exact ih (h.advance hlast)

/-- A sweep that takes nonempty pages ends. -/
theorem exists_sweep_on (hlimit : 0 < limit) (horder : Function.Injective order)
    (hnames : (rows.map name).Nodup) (hsteady : Steady expired rows)
    (htakes : ∀ current cursor, current.Sublist rows →
      takes current cursor (expiredPage name order expired limit current cursor))
    {cursor : Option ι} {current : List α} {deleted remaining : List ι}
    (h : Stands name order expired rows deleted remaining current cursor) :
    ∃ final, Sweeps name takes limit current cursor final := by
  induction hlength : remaining.length using Nat.strong_induction_on
    generalizing deleted remaining current cursor with
  | _ length ih =>
      have hpage := @page_of_stands _ _ _ _ _ _ _ _ limit _ horder hnames hsteady _ _ _ _ h
      by_cases hshort : (remaining.take limit).length < limit
      · exact ⟨_, .last (htakes _ _ h.sublist) (by rwa [hpage])⟩
      · rw [List.length_take] at hshort
        have hne : remaining.take limit ≠ [] := by
          intro hempty
          have hzero := congrArg List.length hempty
          rw [List.length_take, List.length_nil] at hzero
          omega
        obtain ⟨front, last, hlast⟩ :=
          List.eq_nil_or_concat' (remaining.take limit) |>.resolve_left hne
        have hget : (remaining.take limit).getLast? = some last := by
          rw [hlast, List.getLast?_concat]
        obtain ⟨final, hfinal⟩ := ih (remaining.drop limit).length
          (by rw [List.length_drop]; omega) (h.advance hget) rfl
        refine ⟨final, .more (htakes _ _ h.sublist) ?_ ?_ (hpage ▸ hfinal)⟩
        · rw [hpage, List.length_take]
          exact hshort
        · rw [hpage, hget]

/-- A sweep that starts without a cursor ends, and leaves the rows that were not expired. -/
theorem sweep_leaves (horder : Function.Injective order) (hnames : (rows.map name).Nodup)
    (hsteady : Steady expired rows)
    (htakes : ∀ current cursor names, current.Sublist rows → (takes current cursor names ↔
      names = expiredPage name order expired limit current cursor)) :
    (0 < limit → ∃ final, Sweeps name takes limit rows none final) ∧
      ∀ final, Sweeps name takes limit rows none final →
        final = rows.filter fun row => !expired rows row := by
  have hstands : Stands name order expired rows [] (expiredNames name order expired rows) rows
      none := ⟨rfl, by simp [deleteNames], rfl⟩
  constructor
  · exact fun hlimit => exists_sweep_on hlimit horder hnames hsteady
      (fun _ _ hsub => (htakes _ _ _ hsub).2 rfl) hstands
  · exact fun final => sweep_on_leaves horder hnames hsteady
      (fun _ _ _ hsub => (htakes _ _ _ hsub).1) hstands

end Pages

end PgDurable.Sweep
