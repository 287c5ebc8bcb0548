import Mathlib.Algebra.Order.Ring.Int
import Mathlib.Data.Int.ConditionallyCompleteOrder
import Mathlib.Data.List.Sort
import Mathlib.Data.Set.Lattice
import Mathlib.Order.Defs.LinearOrder

/-!
# Keyset pagination

Rows in the order of a key, read page by page: a page ends with a cursor for its last row when rows
remain, and the next page starts behind that row. `follows_iff` says when a reader who follows the
cursors gets every row once: exactly when the cursor of every last row is accepted.
-/

namespace PgDurable.Keyset

variable {α κ γ ε : Type}

/-! ## Rows in order -/

section Order

variable [LinearOrder κ] {key : α → κ} {rows : List α}

/-- The rows in ascending order of their keys. -/
def orderBy (key : α → κ) (rows : List α) : List α :=
  rows.mergeSort fun a b => decide (key a ≤ key b)

theorem order_by_perm (key : α → κ) (rows : List α) : (orderBy key rows).Perm rows :=
  List.mergeSort_perm _ _

theorem order_by_le (key : α → κ) (rows : List α) :
    (orderBy key rows).Pairwise fun a b => key a ≤ key b := by
  have h := @List.pairwise_mergeSort _ (fun a b => decide (key a ≤ key b))
    (fun a b c hab hbc => decide_eq_true (le_trans (of_decide_eq_true hab) (of_decide_eq_true hbc)))
    (fun a b => by simpa using le_total (key a) (key b)) rows
  exact h.imp fun hab => of_decide_eq_true hab

/-- Rows with different keys are strictly ordered. -/
theorem order_by_lt (hkeys : (rows.map key).Nodup) :
    (orderBy key rows).Pairwise fun a b => key a < key b := by
  have hnodup : ((orderBy key rows).map key).Nodup :=
    ((order_by_perm key rows).map key).nodup_iff.2 hkeys
  have hne : (orderBy key rows).Pairwise fun a b => key a ≠ key b := List.pairwise_map.1 hnodup
  exact (order_by_le key rows).imp₂ (fun _ _ hle hne => lt_of_le_of_ne hle hne) hne

/-- A list in strict order is the ordered form of any rearrangement of it. -/
theorem order_by_eq_of_perm {sorted : List α} (hkeys : (rows.map key).Nodup)
    (hsorted : sorted.Pairwise fun a b => key a < key b) (hperm : sorted.Perm rows) :
    orderBy key rows = sorted := by
  refine ((order_by_perm key rows).trans hperm.symm).eq_of_pairwise ?_ (order_by_lt hkeys) hsorted
  exact fun a b _ _ hab hba => absurd (hab.trans hba) (lt_irrefl _)

/-- The order does not depend on how the rows were arranged. -/
theorem order_by_congr {others : List α} (hkeys : (rows.map key).Nodup) (hperm : rows.Perm others) :
    orderBy key rows = orderBy key others := by
  refine order_by_eq_of_perm hkeys (order_by_lt ((hperm.map key).nodup_iff.1 hkeys)) ?_
  exact (order_by_perm key others).trans hperm.symm

/-- Filtering keeps the order. -/
theorem order_by_filter (hkeys : (rows.map key).Nodup) (p : α → Bool) :
    orderBy key (rows.filter p) = (orderBy key rows).filter p := by
  refine order_by_eq_of_perm ?_ ((order_by_lt hkeys).filter p)
    ((order_by_perm key rows).filter p)
  exact hkeys.sublist ((List.filter_sublist).map key)

/-- In strict order, the rows with a greater key than a row's are those behind it. -/
theorem filter_behind {front rest : List α} {row : α} (p : α → Bool)
    (hp : ∀ other, p other = true ↔ key row < key other)
    (h : (front ++ row :: rest).Pairwise fun a b => key a < key b) :
    (front ++ row :: rest).filter p = rest := by
  obtain ⟨-, hrest, hfront⟩ := List.pairwise_append.1 h
  have hnone : front.filter p = [] := by
    refine List.filter_eq_nil_iff.2 fun other hmem htrue => ?_
    exact absurd ((hp other).1 htrue) (lt_asymm (hfront other hmem row (.head _)))
  have hrow : p row = false := by
    rw [Bool.eq_false_iff]
    exact fun htrue => lt_irrefl _ ((hp row).1 htrue)
  have hall : rest.filter p = rest :=
    List.filter_eq_self.2 fun other hmem => (hp other).2 ((List.pairwise_cons.1 hrest).1 other hmem)
  rw [List.filter_append, hnone, List.filter_cons_of_neg (by rw [hrow]; decide), hall,
    List.nil_append]

end Order

/-! ## Pages -/

/-- A page of at most `size` of the remaining rows, and the cursor of its last row when more remain. -/
def page (size : Nat) (cursor : α → γ) (remaining : List α) : List α × Option γ :=
  (remaining.take size,
    if remaining.length > size then (remaining.take size).getLast?.map cursor else none)

/-- A reader who follows the cursors gets these pages. -/
inductive Follows (fetch : Option γ → Except ε (List α × Option γ)) :
    Option γ → List (List α) → Prop
  | last {cursor : Option γ} {rows : List α} (hfetch : fetch cursor = .ok (rows, none)) :
      Follows fetch cursor [rows]
  | more {cursor : Option γ} {rows : List α} {next : γ} {pages : List (List α)}
      (hfetch : fetch cursor = .ok (rows, some next)) (hrest : Follows fetch (some next) pages) :
      Follows fetch cursor (rows :: pages)

/-- Fetching reads the rows in pages of `size`; only some rows have a cursor that is accepted. -/
structure Reads (fetch : Option γ → Except ε (List α × Option γ)) (rows : List α) (size : Nat)
    (cursor : α → γ) (Accepted : α → Prop) : Prop where
  first : fetch none = .ok (page size cursor rows)
  next : ∀ {front row rest}, rows = front ++ row :: rest → Accepted row →
    fetch (some (cursor row)) = .ok (page size cursor rest)
  refused : ∀ row ∈ rows, ¬ Accepted row → ∀ answer, fetch (some (cursor row)) ≠ .ok answer

section Pages

variable {fetch : Option γ → Except ε (List α × Option γ)} {rows : List α} {size : Nat}
  {cursor : α → γ} {Accepted : α → Prop}

/-- The last row of a page that more rows follow. -/
theorem page_more (cursor : α → γ) {remaining : List α} (hsize : 0 < size)
    (hmore : size < remaining.length) :
    ∃ front row rest, remaining = front ++ row :: rest ∧ (front ++ [row]).length = size ∧
      remaining[size - 1]? = some row ∧
      page size cursor remaining = (front ++ [row], some (cursor row)) := by
  have hlast : size - 1 < remaining.length := by omega
  refine ⟨remaining.take (size - 1), remaining[size - 1], remaining.drop size, ?_, ?_, ?_, ?_⟩
  · have hdrop := List.drop_eq_getElem_cons hlast
    rw [show size - 1 + 1 = size by omega] at hdrop
    rw [← hdrop, List.take_append_drop]
  · rw [List.length_append, List.length_take, List.length_singleton]
    omega
  · exact List.getElem?_eq_getElem hlast
  · have htake : remaining.take size = remaining.take (size - 1) ++ [remaining[size - 1]] := by
      have h := List.take_succ_eq_append_getElem hlast
      rwa [show size - 1 + 1 = size by omega] at h
    rw [page, if_pos hmore, htake, List.getLast?_concat]
    rfl

/-- The rows behind a page are numbered on from its end. -/
theorem row_behind_page {head rest : List α} (hsize : 0 < size) (hhead : head.length = size)
    (count : Nat) :
    (head ++ rest)[(count + 1 + 1) * size - 1]? = rest[(count + 1) * size - 1]? := by
  have hpos : 0 < (count + 1) * size := Nat.mul_pos (Nat.succ_pos _) hsize
  have hindex : (count + 1 + 1) * size = (count + 1) * size + size := Nat.succ_mul _ _
  rw [List.getElem?_append_right (by omega)]
  congr 1
  omega

/-- Reading on from a suffix of the rows. -/
theorem follows_suffix_iff (hsize : 0 < size) (hreads : Reads fetch rows size cursor Accepted)
    {remaining earlier : List α} {start : Option γ} (hrows : rows = earlier ++ remaining)
    (hfetch : fetch start = .ok (page size cursor remaining)) :
    (∃ pages, Follows fetch start pages ∧ pages.flatten = remaining) ↔
      ∀ count row, remaining[(count + 1) * size - 1]? = some row →
        (count + 1) * size < remaining.length → Accepted row := by
  induction hlength : remaining.length using Nat.strong_induction_on
    generalizing remaining earlier start with
  | _ length ih =>
      subst hlength
      by_cases hmore : size < remaining.length
      · obtain ⟨front, row, rest, hsplit, hfront, hrow, hpage⟩ :=
          page_more cursor hsize hmore
        have hwhole : rows = (earlier ++ front) ++ row :: rest := by
          rw [hrows, hsplit, List.append_assoc]
        have hhead : remaining = (front ++ [row]) ++ rest := by rw [hsplit, List.append_assoc]; rfl
        have hlength : remaining.length = size + rest.length := by
          rw [hhead, List.length_append, hfront]
        have hbehind : Accepted row → ((∃ pages, Follows fetch (some (cursor row)) pages ∧
            pages.flatten = rest) ↔ ∀ count other, rest[(count + 1) * size - 1]? = some other →
              (count + 1) * size < rest.length → Accepted other) := by
          intro haccepted
          have hrest : rows = (earlier ++ (front ++ [row])) ++ rest := by
            rw [hrows, hhead, ← List.append_assoc]
          exact ih rest.length (by omega) hrest (hreads.next hwhole haccepted) rfl
        rw [hpage] at hfetch
        constructor
        · rintro ⟨pages, hfollows, hflatten⟩ count other hother hcount
          cases hfollows with
          | last hlast =>
              rw [hfetch] at hlast
              cases hlast
          | @more _ _ _ pages hnext hrest =>
              rw [hfetch] at hnext
              cases hnext
              have haccepted : Accepted row := by
                by_contra hrefused
                have hmem : row ∈ rows := by
                  rw [hwhole]
                  exact List.mem_append_right _ (.head _)
                cases hrest with
                | last hlast => exact hreads.refused row hmem hrefused _ hlast
                | more hmore => exact hreads.refused row hmem hrefused _ hmore
              cases count with
              | zero =>
                  rw [Nat.zero_add, Nat.one_mul, hrow] at hother
                  exact Option.some.inj hother ▸ haccepted
              | succ count =>
                  rw [List.flatten_cons, hhead] at hflatten
                  rw [hhead, row_behind_page hsize hfront] at hother
                  rw [hlength, Nat.succ_mul] at hcount
                  exact (hbehind haccepted).1 ⟨pages, hrest, List.append_cancel_left hflatten⟩
                    count other hother (by omega)
        · intro haccepted
          have hfirst : Accepted row := haccepted 0 row
            (by rw [Nat.zero_add, Nat.one_mul]; exact hrow) (by omega)
          obtain ⟨pages, hfollows, hflatten⟩ := (hbehind hfirst).2 fun count other hother hcount => by
            refine haccepted (count + 1) other ?_ ?_
            · rw [hhead, row_behind_page hsize hfront, hother]
            · rw [hlength, Nat.succ_mul]
              omega
          refine ⟨_, .more hfetch hfollows, ?_⟩
          rw [List.flatten_cons, hflatten, ← hhead]
      · have hpage : page size cursor remaining = (remaining, none) := by
          rw [page, if_neg hmore, List.take_of_length_le (by omega)]
        rw [hpage] at hfetch
        refine iff_of_true ⟨[remaining], .last hfetch, by simp⟩ fun count row _ hcount => ?_
        have hle : size ≤ (count + 1) * size := Nat.le_mul_of_pos_left _ (Nat.succ_pos _)
        omega

/-- A reader who follows the cursors gets every row once, in order, exactly when the cursor of
every row that ends a page before the last one is accepted. -/
theorem follows_iff (hsize : 0 < size) (hreads : Reads fetch rows size cursor Accepted) :
    (∃ pages, Follows fetch none pages ∧ pages.flatten = rows) ↔
      ∀ count row, rows[(count + 1) * size - 1]? = some row →
        (count + 1) * size < rows.length → Accepted row :=
  follows_suffix_iff hsize hreads (List.nil_append rows).symm hreads.first

end Pages

end PgDurable.Keyset
