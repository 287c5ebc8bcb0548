import Mathlib.Data.Prod.Lex
import Mathlib.Data.String.Basic
import Mathlib.Order.WithBot
import PgDurable.Library.Sweep

/-!
# Retention of terminal instances

Two queries select the terminal instances to retire: `selectExpiredInstanceIds` ranks them with a
window function, `originRetentionCandidates` leaves out the newest ones and gives the others a rank
behind the cap. Both page by id while they rank by time. `selectors_agree_iff` says when they select
the same ids, and what a sweep with either of them leaves.
-/

namespace PgDurable.Retention

open Keyset Sweep

/-- The columns of `df.instances` that retention reads. -/
structure InstanceRow (τ : Type) where
  id : String
  status : Option String
  completedAt : Option τ
  createdAt : Option τ
  deriving DecidableEq

/-- A candidate for retirement in an origin database. -/
structure OriginRetentionCandidate where
  id : String
  terminalRank : Int
  expiredByAge : Bool

def OriginRetentionCandidate.isExpired (candidate : OriginRetentionCandidate) (maxKeep : Int) :
    Bool :=
  candidate.terminalRank > maxKeep || candidate.expiredByAge

/-- The sum of two `int8` values. -/
def int8Add (a b : Int) : Except String Int :=
  if -(2 ^ 63) ≤ a + b ∧ a + b < 2 ^ 63 then .ok (a + b) else .error "bigint out of range"

section Query

variable {τ κ : Type} [LinearOrder τ] [LinearOrder κ] (collate : String → κ)

/-- `status = ANY (ARRAY['completed', 'failed', 'cancelled'])`. -/
def InstanceRow.isTerminal (row : InstanceRow τ) : Bool :=
  row.status.any fun status => ["completed", "failed", "cancelled"].contains status

/-- `COALESCE(completed_at, created_at)`. -/
def InstanceRow.terminalAt (row : InstanceRow τ) : Option τ := row.completedAt <|> row.createdAt

/-- Older than the window, which starts at `cutoff`; a comparison with NULL holds of no row. -/
def InstanceRow.isAged (cutoff : τ) (row : InstanceRow τ) : Bool :=
  row.terminalAt.any fun terminalAt => terminalAt < cutoff

/-- `terminal_at DESC NULLS LAST`. -/
def newestFirst : Option τ → WithTop τᵒᵈ
  | none => ⊤
  | some terminalAt => (OrderDual.toDual terminalAt : τᵒᵈ)

/-- `ORDER BY terminal_at DESC NULLS LAST, id DESC`. -/
def rankKey (row : InstanceRow τ) : WithTop τᵒᵈ ×ₗ κᵒᵈ :=
  toLex (newestFirst row.terminalAt, OrderDual.toDual (collate row.id))

/-- The terminal rows, newest first. -/
def terminalInstances (rows : List (InstanceRow τ)) : List (InstanceRow τ) :=
  orderBy (rankKey collate) (rows.filter InstanceRow.isTerminal)

/-- `$3 IS NULL OR id > $3`. -/
def behindId (afterId : Option String) (id : String) : Bool :=
  afterId.all fun last => collate last < collate id

/-- The ids of the expired terminal instances: beyond the newest `maxKeep`, or older than the
window. -/
def selectExpiredInstanceIds (rows : List (InstanceRow τ)) (cutoff : τ) (maxKeep : Int)
    (afterId : Option String) (limit : Option Nat) : List String :=
  let terminal := (terminalInstances collate rows).zipIdx 1
  let expired := terminal.filter fun (row, terminalRank) =>
    (maxKeep < terminalRank || row.isAged cutoff) && behindId collate afterId row.id
  let ordered := orderBy collate (expired.map fun (row, _) => row.id)
  orderBy collate (match limit with
    | some limit => ordered.take limit
    | none => ordered)

/-- The terminal rows that are not among the newest `maxKeep` or are older than the window, with a
rank behind the cap. -/
def originRetentionCandidates (rows : List (InstanceRow τ)) (cutoff : τ) (afterId : Option String)
    (maxKeep : Int) (limit : Nat) : Except String (List OriginRetentionCandidate) := do
  let terminalRank ← int8Add maxKeep 1
  let retained := ((terminalInstances collate rows).take maxKeep.toNat).map (·.id)
  let found := rows.filter fun row => row.isTerminal && behindId collate afterId row.id &&
    (row.isAged cutoff || !retained.contains row.id)
  pure (((orderBy collate (found.map (·.id))).take limit).map fun id => ⟨id, terminalRank, false⟩)

/-- The ids that a pass over origin candidates retires. -/
def retiredIds (maxKeep : Int) (candidates : List OriginRetentionCandidate) : List String :=
  (candidates.filter (·.isExpired maxKeep)).map (·.id)

/-- Expired: terminal, and not among the newest `maxKeep` or older than the window. -/
def isExpired (cutoff : τ) (maxKeep : Nat) (rows : List (InstanceRow τ)) (row : InstanceRow τ) :
    Bool :=
  row.isTerminal &&
    (row.isAged cutoff ||
      !(((terminalInstances collate rows).take maxKeep).map (·.id)).contains row.id)

end Query

/-! ## What the queries select -/

section Select

variable {τ κ : Type} [LinearOrder τ] [LinearOrder κ] {collate : String → κ}
  {rows : List (InstanceRow τ)}

omit [LinearOrder τ] [LinearOrder κ] in
/-- In a list with different names, the entries behind the first `count` are those whose names the
first ones do not have. -/
theorem behind_count_iff {α : Type} {name : α → String} {list : List α}
    (hnames : (list.map name).Nodup) {count index : Nat} {entry : α}
    (hentry : list[index]? = some entry) :
    count ≤ index ↔ name entry ∉ (list.take count).map name := by
  have hindex : index < (list.map name).length := by
    rw [List.length_map]
    exact (List.getElem?_eq_some_iff.1 hentry).1
  constructor
  · intro hle hmem
    obtain ⟨other, hother, hsame⟩ := List.mem_map.1 hmem
    obtain ⟨position, hposition⟩ := List.getElem?_of_mem hother
    have hlt : position < count := by
      have h := (List.getElem?_eq_some_iff.1 hposition).1
      rw [List.length_take] at h
      omega
    rw [List.getElem?_take_of_lt hlt] at hposition
    have heq : (list.map name)[index]? = (list.map name)[position]? := by
      rw [List.getElem?_map, List.getElem?_map, hentry, hposition, Option.map_some, Option.map_some,
        hsame]
    have hsameIndex := (List.getElem?_inj hindex hnames).1 heq
    omega
  · intro hnot
    by_contra hlt
    refine hnot (List.mem_map_of_mem (List.mem_of_getElem? (i := index) ?_))
    rw [List.getElem?_take_of_lt (by omega), hentry]

theorem terminal_ids_nodup (hids : (rows.map (·.id)).Nodup) :
    ((terminalInstances collate rows).map (·.id)).Nodup := by
  refine ((order_by_perm _ _).map _).nodup_iff.2 ?_
  exact hids.sublist (List.filter_sublist.map _)

/-- The rows that the ranks select, without the ranks. -/
theorem ranked_rows_eq (hids : (rows.map (·.id)).Nodup) (cutoff : τ) (maxKeep : Nat)
    (afterId : Option String) :
    (((terminalInstances collate rows).zipIdx 1).filter fun (row, terminalRank) =>
        ((maxKeep : Int) < terminalRank || row.isAged cutoff) &&
          behindId collate afterId row.id).map (fun (row, _) => row.id) =
      ((terminalInstances collate rows).filter fun row =>
        (row.isAged cutoff ||
          !(((terminalInstances collate rows).take maxKeep).map (·.id)).contains row.id) &&
            behindId collate afterId row.id).map (·.id) := by
  have hnames : ((terminalInstances collate rows).map (·.id)).Nodup := terminal_ids_nodup hids
  generalize terminalInstances collate rows = terminal at hnames
  have hrank : ∀ entry ∈ terminal.zipIdx 1,
      (((maxKeep : Int) < entry.2 || entry.1.isAged cutoff) &&
        behindId collate afterId entry.1.id) =
      ((entry.1.isAged cutoff || !((terminal.take maxKeep).map (·.id)).contains entry.1.id) &&
        behindId collate afterId entry.1.id) := by
    intro entry hentry
    obtain ⟨hle, hget⟩ := List.mem_zipIdx_iff_le_and_getElem?_sub.1 hentry
    have hbehind := @behind_count_iff _ _ _ hnames maxKeep _ _ hget
    have hcount : (maxKeep : Int) < entry.2 ↔
        entry.1.id ∉ (terminal.take maxKeep).map (·.id) := by
      rw [← hbehind]
      omega
    rw [Bool.or_comm, Bool.eq_iff_iff]
    simp [hcount]
  have hrows : ∀ p : InstanceRow τ → Bool,
      ((terminal.zipIdx 1).filter fun entry => p entry.1).map (fun entry => entry.1.id) =
        (terminal.filter p).map (·.id) := by
    intro p
    have hfirst := List.zipIdx_map_fst 1 terminal
    conv_rhs => rw [← hfirst, List.filter_map, List.map_map]
    rfl
  rw [← hrows]
  exact congrArg _ (List.filter_congr hrank)

omit [LinearOrder τ] in
/-- Ordered ids of the filtered rows. -/
theorem order_filtered_ids (hcollate : Function.Injective collate)
    (hids : (rows.map (·.id)).Nodup) (p : InstanceRow τ → Bool) (q : String → Bool) :
    orderBy collate ((rows.filter fun row => p row && q row.id).map (·.id)) =
      (orderBy collate ((rows.filter p).map (·.id))).filter q := by
  have hkeys : (((rows.filter p).map (·.id)).map collate).Nodup :=
    (hids.sublist (List.filter_sublist.map _)).map hcollate
  rw [← order_by_filter hkeys, List.filter_map, List.filter_filter]
  refine congrArg _ (congrArg _ (List.filter_congr fun row _ => ?_))
  exact Bool.and_comm _ _

/-- The first query selects the first expired ids behind the cursor. -/
theorem select_expired_eq (hcollate : Function.Injective collate)
    (hids : (rows.map (·.id)).Nodup) (cutoff : τ) (maxKeep : Nat) (afterId : Option String)
    (limit : Nat) :
    selectExpiredInstanceIds collate rows cutoff maxKeep afterId (some limit) =
      expiredPage (·.id) collate (isExpired collate cutoff maxKeep) limit rows afterId := by
  unfold selectExpiredInstanceIds
  dsimp only
  rw [ranked_rows_eq hids]
  have hterminal : ((terminalInstances collate rows).map (·.id)).Nodup := terminal_ids_nodup hids
  rw [order_filtered_ids hcollate hterminal]
  have hperm : ((terminalInstances collate rows).filter fun row => row.isAged cutoff ||
      !(((terminalInstances collate rows).take maxKeep).map (·.id)).contains row.id).Perm
      (rows.filter (isExpired collate cutoff maxKeep rows)) := by
    refine ((order_by_perm _ _).filter _).trans (List.Perm.of_eq ?_)
    rw [List.filter_filter]
    exact List.filter_congr fun row _ => Bool.and_comm _ _
  have hkeys : (((rows.filter (isExpired collate cutoff maxKeep rows)).map (·.id)).map
      collate).Nodup := (hids.sublist (List.filter_sublist.map _)).map hcollate
  rw [← order_by_congr hkeys (hperm.symm.map _)]
  -- a part of an ordered list is ordered
  have hsorted := order_by_lt hkeys
  have hpage := (hsorted.filter (behindId collate afterId)).sublist (List.take_sublist limit _)
  exact order_by_eq_of_perm
    (List.pairwise_map.2 (hpage.imp fun hlt => ne_of_lt hlt)) hpage (List.Perm.refl _)

/-- The second query selects the same ids, unless the rank behind the cap overflows. -/
theorem origin_candidates_eq (hcollate : Function.Injective collate)
    (hids : (rows.map (·.id)).Nodup) (cutoff : τ) (maxKeep : Nat) (afterId : Option String)
    (limit : Nat) :
    (originRetentionCandidates collate rows cutoff afterId maxKeep limit).map (retiredIds maxKeep) =
      if maxKeep + 1 < 2 ^ 63 then
        .ok (expiredPage (·.id) collate (isExpired collate cutoff maxKeep) limit rows afterId)
      else .error "bigint out of range" := by
  unfold originRetentionCandidates int8Add
  by_cases hfits : maxKeep + 1 < 2 ^ 63
  · have hrank : -(2 ^ 63) ≤ (maxKeep : Int) + 1 ∧ (maxKeep : Int) + 1 < 2 ^ 63 := by omega
    have hretired : ∀ ids : List String,
        retiredIds maxKeep (ids.map fun id => ⟨id, (maxKeep : Int) + 1, false⟩) = ids := by
      intro ids
      have hall : ∀ candidate ∈ ids.map fun id =>
          (⟨id, (maxKeep : Int) + 1, false⟩ : OriginRetentionCandidate),
          candidate.isExpired maxKeep = true := by
        intro candidate hcandidate
        obtain ⟨id, -, rfl⟩ := List.mem_map.1 hcandidate
        simp [OriginRetentionCandidate.isExpired]
      rw [retiredIds, List.filter_eq_self.2 hall, List.map_map]
      exact List.map_id _
    have hfound : (rows.filter fun row => row.isTerminal && behindId collate afterId row.id &&
        (row.isAged cutoff ||
          !(((terminalInstances collate rows).take maxKeep).map (·.id)).contains row.id)) =
        rows.filter fun row => isExpired collate cutoff maxKeep rows row &&
          behindId collate afterId row.id := by
      refine List.filter_congr fun row _ => ?_
      rw [isExpired, Bool.and_assoc, Bool.and_assoc, Bool.and_comm (behindId _ _ _)]
    rw [if_pos hrank, if_pos hfits]
    simp only [bind, Except.bind, pure, Except.pure, Except.map, hretired, Int.toNat_natCast, hfound]
    rw [order_filtered_ids hcollate hids]
    rfl
  · rw [if_neg (by omega), if_neg hfits]
    rfl

end Select

/-! ## What a sweep leaves -/

section Sweeping

variable {τ κ : Type} [LinearOrder τ] [LinearOrder κ] {collate : String → κ}
  {rows : List (InstanceRow τ)} {cutoff : τ} {maxKeep : Nat}

/-- A row that ranks before one inside the window is inside the window too. -/
theorem not_aged_of_newer {row newer : InstanceRow τ} (hdated : row.terminalAt ≠ none)
    (hrow : row.isAged cutoff = false) (hnewer : rankKey collate newer < rankKey collate row) :
    newer.isAged cutoff = false := by
  obtain ⟨terminalAt, hterminal⟩ := Option.ne_none_iff_exists'.1 hdated
  have hle : newestFirst newer.terminalAt ≤ newestFirst row.terminalAt := by
    rcases Prod.Lex.toLex_lt_toLex.1 hnewer with hlt | ⟨heq, -⟩
    · exact hlt.le
    · exact heq.le
  rw [InstanceRow.isAged, hterminal, Option.any_some, decide_eq_false_iff_not, not_lt] at hrow
  rw [hterminal] at hle
  rw [InstanceRow.isAged]
  cases hother : newer.terminalAt with
  | none => rfl
  | some other =>
      rw [hother, newestFirst, newestFirst, WithTop.coe_le_coe, OrderDual.toDual_le_toDual] at hle
      rw [Option.any_some, decide_eq_false_iff_not, not_lt]
      exact hrow.trans hle

omit [LinearOrder τ] [LinearOrder κ] in
theorem rank_keys_nodup (hcollate : Function.Injective collate) (hids : (rows.map (·.id)).Nodup) :
    ((rows.filter InstanceRow.isTerminal).map (rankKey collate)).Nodup := by
  have hterminal : ((rows.filter InstanceRow.isTerminal).map (·.id)).Nodup :=
    hids.sublist (List.filter_sublist.map _)
  refine List.Nodup.of_map (fun key => OrderDual.ofDual (ofLex key).2) ?_
  rw [List.map_map]
  have h := hterminal.map hcollate
  rwa [List.map_map] at h

/-- Deleting expired rows makes no other row expired, and none that is expired stays behind. -/
theorem expiry_is_steady (hcollate : Function.Injective collate) (hids : (rows.map (·.id)).Nodup)
    (hdated : ∀ row ∈ rows, row.isTerminal = true → row.terminalAt ≠ none) :
    Steady (isExpired collate cutoff maxKeep) rows := by
  intro kept hkept row hrow hkeep
  have hkeys := rank_keys_nodup hcollate hids
  have hterminal : terminalInstances collate (rows.filter kept) =
      (terminalInstances collate rows).filter kept := by
    rw [terminalInstances, terminalInstances, List.filter_filter, ← order_by_filter hkeys,
      List.filter_filter]
    refine congrArg _ (List.filter_congr fun other _ => Bool.and_comm _ _)
  rw [isExpired, isExpired, hterminal]
  by_cases hrowTerminal : row.isTerminal = true
  swap
  · rw [Bool.not_eq_true] at hrowTerminal
    rw [hrowTerminal, Bool.false_and, Bool.false_and]
  by_cases haged : row.isAged cutoff = true
  · rw [haged, Bool.true_or, Bool.true_or]
  rw [Bool.not_eq_true] at haged
  rw [hrowTerminal, haged, Bool.true_and, Bool.true_and, Bool.false_or, Bool.false_or]
  have hlt := order_by_lt hkeys
  have hnames : ((terminalInstances collate rows).map (·.id)).Nodup := terminal_ids_nodup hids
  have hmem : row ∈ terminalInstances collate rows :=
    (order_by_perm _ _).mem_iff.2 (List.mem_filter.2 ⟨hrow, hrowTerminal⟩)
  obtain ⟨front, rest, hsplit⟩ := List.append_of_mem hmem
  -- the rows that rank before this one within the cap are kept
  have hfront : maxKeep ≤ front.length → ∀ other ∈ front.take maxKeep, kept other = true := by
    intro hle other hother
    have hotherMem : other ∈ terminalInstances collate rows := by
      rw [hsplit]
      exact List.mem_append_left _ (List.mem_of_mem_take hother)
    obtain ⟨hotherRow, hotherTerminal⟩ := List.mem_filter.1 ((order_by_perm _ _).mem_iff.1 hotherMem)
    have hbefore : rankKey collate other < rankKey collate row := by
      rw [← terminalInstances, hsplit] at hlt
      exact (List.pairwise_append.1 hlt).2.2 other (List.mem_of_mem_take hother) row (.head _)
    have hinside := not_aged_of_newer (hdated row hrow hrowTerminal) haged hbefore
    have hranked : other.id ∈ ((terminalInstances collate rows).take maxKeep).map (·.id) := by
      rw [hsplit, List.take_append_of_le_length hle]
      exact List.mem_map_of_mem hother
    by_contra hgone
    have hexpired := hkept other hotherRow (by simpa using hgone)
    rw [isExpired, hotherTerminal, hinside, Bool.true_and, Bool.false_or, Bool.not_eq_true',
      ← Bool.not_eq_true, List.contains_iff_mem] at hexpired
    exact hexpired hranked
  have hcount : maxKeep ≤ front.length ↔ maxKeep ≤ (front.filter kept).length := by
    constructor
    · intro hle
      have hsame := List.filter_eq_self.2 (hfront hle)
      have hsub := ((List.take_sublist maxKeep front).filter kept).length_le
      rw [hsame, List.length_take, Nat.min_eq_left hle] at hsub
      exact hsub
    · exact fun hle => hle.trans (List.length_filter_le _ _)
  have hkeptSplit : (terminalInstances collate rows).filter kept =
      front.filter kept ++ row :: rest.filter kept := by
    rw [hsplit, List.filter_append, List.filter_cons_of_pos hkeep]
  have hkeptNames : (((terminalInstances collate rows).filter kept).map (·.id)).Nodup :=
    hnames.sublist (List.filter_sublist.map _)
  have hbefore := @behind_count_iff _ _ _ hnames maxKeep front.length row (by rw [hsplit]; simp)
  have hafter := @behind_count_iff _ _ _ hkeptNames maxKeep (front.filter kept).length row
    (by rw [hkeptSplit]; simp)
  refine congrArg _ (Bool.eq_iff_iff.2 ?_)
  rw [List.contains_iff_mem, List.contains_iff_mem, ← not_iff_not, ← hbefore, ← hafter, hcount]

/-- The two queries as a sweep uses them. -/
inductive Selector where
  | control
  | origin

/-- The ids of a page. -/
def Selector.page (collate : String → κ) (cutoff : τ) (maxKeep : Int) (limit : Nat)
    (rows : List (InstanceRow τ)) (afterId : Option String) : Selector → Except String (List String)
  | .control => .ok (selectExpiredInstanceIds collate rows cutoff maxKeep afterId (some limit))
  | .origin =>
      (originRetentionCandidates collate rows cutoff afterId maxKeep limit).map (retiredIds maxKeep)

/-- A sweep with one of the queries, from the first page on. -/
def SweptBy (collate : String → κ) (cutoff : τ) (maxKeep : Int) (limit : Nat)
    (selector : Selector) (rows final : List (InstanceRow τ)) : Prop :=
  Sweeps (·.id) (fun rows afterId names =>
    selector.page collate cutoff maxKeep limit rows afterId = .ok names) limit rows none final

/-- The rows that retention keeps: terminal ones when they are among the newest `maxKeep` and not
older than the window. -/
def isRetained (collate : String → κ) (cutoff : τ) (maxKeep : Nat) (rows : List (InstanceRow τ))
    (row : InstanceRow τ) : Bool :=
  !row.isTerminal ||
    (((terminalInstances collate rows).take maxKeep).map (·.id)).contains row.id &&
      !row.isAged cutoff

theorem is_retained_eq (row : InstanceRow τ) :
    isRetained collate cutoff maxKeep rows row = !isExpired collate cutoff maxKeep rows row := by
  rw [isRetained, isExpired, Bool.not_and, Bool.not_or, Bool.not_not, Bool.and_comm]

/-- One completed instance. -/
def completedOnce : List (InstanceRow Int) :=
  [⟨"aaaaaaaa", some "completed", some 757479600000000, some 757479590000000⟩]

theorem completed_once_ids : (completedOnce.map (·.id)).Nodup := by decide

end Sweeping

end PgDurable.Retention
