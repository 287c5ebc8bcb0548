import Mathlib.Algebra.Order.Ring.Int
import Mathlib.Data.Int.ConditionallyCompleteOrder
import Mathlib.Data.List.Induction
import Mathlib.Data.Set.Lattice
import Std.Data.ExtTreeMap.Lemmas

/-!
# Copies of a map, updated apart and laid over each other

`overlay base top` puts the entries of one map over those of another. Several parties may each
update a copy of one map; laying the whole copies over the original, one after another, keeps all
updates only under a condition: `merge_keeps_updates_iff`. A copy carries the old entries too, and
they hide what earlier copies updated.
-/

namespace PgDurable

open Std

variable {κ β : Type} {cmp : κ → κ → Ordering} [TransCmp cmp]

/-! ## Updates made apart -/

/-- One party alone updates the key, to this value. -/
def UpdatedOnlyBy (updates : List (ExtTreeMap κ β cmp)) (index : Nat) (key : κ) (value : β) :
    Prop :=
  updates[index]?.bind (·[key]?) = some value ∧
    ∀ other, other ≠ index → updates[other]?.bind (·[key]?) = none

/-- The merged map has every update that one party alone makes, and its other entries are those of
the original. -/
structure KeepsUpdates (base : ExtTreeMap κ β cmp) (updates : List (ExtTreeMap κ β cmp))
    (merged : ExtTreeMap κ β cmp) : Prop where
  updated : ∀ {index : Nat} {key : κ} {value : β}, UpdatedOnlyBy updates index key value →
    merged[key]? = some value
  untouched : ∀ {key : κ}, (∀ update ∈ updates, update[key]? = none) → merged[key]? = base[key]?

/-- No later copy hides an update: the key is new, or the last party updates it, or the value is
the old one. -/
def NothingHidden (base : ExtTreeMap κ β cmp) (updates : List (ExtTreeMap κ β cmp)) : Prop :=
  ∀ {index : Nat} {key : κ} {value : β}, UpdatedOnlyBy updates index key value →
    base[key]? = none ∨ index + 1 = updates.length ∨ base[key]? = some value

/-- The only update of a key is the last one. -/
theorem find_updated_only_by {updates : List (ExtTreeMap κ β cmp)} {index : Nat} {key : κ}
    {value : β} (h : UpdatedOnlyBy updates index key value) :
    updates.reverse.findSome? (·[key]?) = some value := by
  obtain ⟨hvalue, honly⟩ := h
  obtain ⟨update, hupdate, hget⟩ := Option.bind_eq_some_iff.1 hvalue
  cases hfound : updates.reverse.findSome? (·[key]?) with
  | none =>
      have hnone := List.findSome?_eq_none_iff.1 hfound update
        (List.mem_reverse.2 (List.mem_of_getElem? hupdate))
      rw [hget] at hnone
      cases hnone
  | some found =>
      obtain ⟨other, hother, hread⟩ := List.exists_of_findSome?_eq_some hfound
      obtain ⟨place, hplace⟩ := List.getElem?_of_mem (List.mem_reverse.1 hother)
      have hsame : place = index := by
        by_contra hne
        have hnone := honly place hne
        simp [hplace, hread] at hnone
      subst hsame
      rw [hplace, Option.some.injEq] at hupdate
      rw [← hread, hupdate, hget]

/-- What the last copy says of a key that one party alone updates. -/
theorem last_updated_only_by {updates : List (ExtTreeMap κ β cmp)} {index : Nat} {key : κ}
    {value : β} (h : UpdatedOnlyBy updates index key value) :
    updates.getLast?.bind (·[key]?) = if index + 1 = updates.length then some value else none := by
  rw [List.getLast?_eq_getElem?]
  split_ifs with hlast
  · rw [show updates.length - 1 = index by omega, h.1]
  · refine h.2 _ ?_
    have hbound : index < updates.length := by
      obtain ⟨update, hupdate, -⟩ := Option.bind_eq_some_iff.1 h.1
      exact (List.getElem?_eq_some_iff.1 hupdate).1
    omega

/-! ## Overlays -/

variable [DecidableEq κ] [LawfulEqCmp cmp]

/-- Put the entries of one map over those of another. -/
def overlay (base top : ExtTreeMap κ β cmp) : ExtTreeMap κ β cmp := base.insertMany top.toList

/-- The upper entry is read where there is one. -/
@[simp] theorem get_overlay (base top : ExtTreeMap κ β cmp) (key : κ) :
    (overlay base top)[key]? = top[key]?.or base[key]? := by
  have hmem : ∀ value, (key, value) ∈ top.toList ↔ top[key]? = some value :=
    fun value => ExtTreeMap.mem_toList_iff_getElem?_eq_some
  cases htop : top[key]? with
  | none =>
      refine ExtTreeMap.getElem?_insertMany_list_of_contains_eq_false ?_
      rw [List.contains_eq_mem, decide_eq_false_iff_not, List.mem_map]
      rintro ⟨⟨found, value⟩, hfound, rfl⟩
      simp [(hmem value).1 hfound] at htop
  | some value =>
      exact ExtTreeMap.getElem?_insertMany_list_of_mem ReflCmp.compare_self
        ExtTreeMap.distinct_keys_toList ((hmem value).2 htop)

/-- After laying maps over each other the last entry is read. -/
theorem get_foldl_overlay (base : ExtTreeMap κ β cmp) (tops : List (ExtTreeMap κ β cmp))
    (key : κ) :
    (tops.foldl overlay base)[key]? = (tops.reverse.findSome? (·[key]?)).or base[key]? := by
  induction tops generalizing base with
  | nil => simp
  | cons top tops ih =>
      rw [List.foldl_cons, ih, List.reverse_cons, List.findSome?_append, get_overlay,
        Option.or_assoc, List.findSome?_singleton]

/-- Lay the updated copies of a map over it, one after another. -/
def mergeCopies (base : ExtTreeMap κ β cmp) (updates : List (ExtTreeMap κ β cmp)) :
    ExtTreeMap κ β cmp :=
  (updates.map (overlay base)).foldl overlay base

/-- For a new key the last update counts. For an old key only the last copy counts, because every
copy has an entry. -/
theorem get_merge_copies (base : ExtTreeMap κ β cmp) (updates : List (ExtTreeMap κ β cmp))
    (key : κ) :
    (mergeCopies base updates)[key]? =
      match base[key]? with
      | none => updates.reverse.findSome? (·[key]?)
      | some old => some ((updates.getLast?.bind (·[key]?)).getD old) := by
  rw [mergeCopies, get_foldl_overlay]
  cases hbase : base[key]? with
  | none => simp [← List.map_reverse, List.findSome?_map, Function.comp_def, hbase]
  | some old =>
      cases updates using List.reverseRecOn with
      | nil => simp
      | append_singleton updates last => cases hlast : last[key]? <;> simp [hbase, hlast]

/-- Merging whole copies keeps the updates exactly when no later copy hides one. -/
theorem merge_keeps_updates_iff (base : ExtTreeMap κ β cmp)
    (updates : List (ExtTreeMap κ β cmp)) :
    KeepsUpdates base updates (mergeCopies base updates) ↔ NothingHidden base updates := by
  constructor
  · intro h index key value honly
    have hmerged := h.updated honly
    rw [get_merge_copies, last_updated_only_by honly] at hmerged
    cases hbase : base[key]? with
    | none => exact Or.inl rfl
    | some old =>
        rw [hbase] at hmerged
        by_cases hlast : index + 1 = updates.length
        · exact Or.inr (Or.inl hlast)
        · exact Or.inr (Or.inr (by simpa [hlast] using hmerged))
  · intro h
    refine ⟨fun {index key value} honly => ?_, fun {key} hnone => ?_⟩
    · rw [get_merge_copies, last_updated_only_by honly, find_updated_only_by honly]
      rcases h honly with hbase | hlast | hbase
      · rw [hbase]
      · cases base[key]? <;> simp [hlast]
      · rw [hbase]
        split_ifs <;> rfl
    · have hfind : updates.reverse.findSome? (·[key]?) = none :=
        List.findSome?_eq_none_iff.2 fun update hmem => hnone update (List.mem_reverse.1 hmem)
      have hlast : updates.getLast?.bind (·[key]?) = none := by
        cases hupdate : updates.getLast? with
        | none => rfl
        | some update => exact hnone update (List.mem_of_getLast? hupdate)
      rw [get_merge_copies, hfind, hlast]
      cases base[key]? <;> rfl

end PgDurable
