import Mathlib.Algebra.Order.BigOperators.Group.Finset
import PgDurable.Instances.RetentionPass
import PgDurable.Library.RoundRobin

/-!
# A cycle of the retention sweep

A cycle calls `sweepRegisteredOrigins` from a fresh cursor for as long as there is more to do. While
it runs, origins may only be removed, and every origin has finitely many instances that expire.
`retention_cycle` says that a cycle ends, that no pass repeats an instance, that every pass goes on
where the last one of the origin stopped, and that the origins take turns.
-/

namespace PgDurable.Retention

open Instances Keyset RoundRobin

variable {τ κ : Type} [LinearOrder τ] [LinearOrder κ] (collate : OriginKey → String → κ)

/-! ## Cycles -/

/-- The calls of a cycle so far, each of which returned that there is more to do, with the cursor
they leave and the passes they made. -/
inductive Cycle : List (Call τ) → OriginRetentionCursor → List Pass → Prop
  | start : Cycle [] .default []
  | call {calls : List (Call τ)} {cursor next : OriginRetentionCursor} {passes : List Pass}
      {call : Call τ} (hcycle : Cycle calls cursor passes)
      (hcall : sweepRegisteredOrigins collate call cursor = .ok (true, next)) :
      Cycle (calls ++ [call]) next (passes ++ passesOf collate call cursor)

/-- What a cycle may meet: origins of databases, of which some may be removed, and instances that
have different ids and expire only if they are among finitely many. -/
structure Environment (origins : Finset OriginKey) (expired : OriginKey → Finset String)
    (calls : List (Call τ)) : Prop where
  origins : ∀ call ∈ calls, ∀ key ∈ call.registered, key ∈ origins ∧ 0 < (ofLex key).1
  removed : calls.Pairwise fun first second => ∀ key ∈ second.registered, key ∈ first.registered
  ids : ∀ call ∈ calls, ∀ origin, ((call.satellite origin).rows.map (·.id)).Nodup
  expired : ∀ call ∈ calls, ∀ key origin, originOf key = .ok origin →
    ∀ row ∈ (call.satellite origin).rows,
      isExpired (collate key) (call.satellite origin).cutoff terminalInstanceMaxKeep
        (call.satellite origin).rows row = true → row.id ∈ expired key

/-- The instances that passes came to, with their origins. -/
def visits (passes : List Pass) : List (OriginKey × String) :=
  passes.flatMap fun pass => pass.visited.map (pass.origin, ·)

/-- The ids that passes over an origin came to. -/
def visitedIds (passes : List Pass) (key : OriginKey) : List String :=
  ((visits passes).filter fun visit => visit.1 = key).map (·.2)

/-! ## The visits of passes -/

variable {collate} {passes : List Pass} {pass : Pass} {key : OriginKey}

theorem visits_append (passes passes' : List Pass) :
    visits (passes ++ passes') = visits passes ++ visits passes' :=
  List.flatMap_append

theorem visited_ids_append (passes passes' : List Pass) (key : OriginKey) :
    visitedIds (passes ++ passes') key = visitedIds passes key ++ visitedIds passes' key := by
  rw [visitedIds, visits_append, List.filter_append, List.map_append]
  rfl

theorem visits_single (pass : Pass) : visits [pass] = pass.visited.map (pass.origin, ·) :=
  List.append_nil _

theorem visited_ids_own (pass : Pass) : visitedIds [pass] pass.origin = pass.visited := by
  rw [visitedIds, visits_single, List.filter_map, List.map_map]
  have hall : pass.visited.filter ((fun visit => decide (visit.1 = pass.origin)) ∘
      (pass.origin, ·)) = pass.visited :=
    List.filter_eq_self.2 fun _ _ => decide_eq_true rfl
  rw [hall]
  exact List.map_id _

theorem visited_ids_other (hkey : key ≠ pass.origin) : visitedIds [pass] key = [] := by
  rw [visitedIds, visits_single, List.filter_map]
  have hnone : pass.visited.filter ((fun visit => decide (visit.1 = key)) ∘
      (pass.origin, ·)) = [] :=
    List.filter_eq_nil_iff.2 fun _ _ h => hkey (of_decide_eq_true h).symm
  rw [hnone]
  rfl

theorem mem_visited_ids {id : String} : id ∈ visitedIds passes key ↔ (key, id) ∈ visits passes := by
  rw [visitedIds, List.mem_map]
  constructor
  · rintro ⟨⟨origin, id'⟩, hvisit, rfl⟩
    obtain ⟨hvisit, hkey⟩ := List.mem_filter.1 hvisit
    have hsame : origin = key := of_decide_eq_true hkey
    rw [hsame] at hvisit
    exact hvisit
  · exact fun h => ⟨(key, id), List.mem_filter.2 ⟨h, decide_eq_true rfl⟩, rfl⟩

/-! ## Where a cycle stands -/

/-- The turn that a pass in a round is. -/
def turnOf (stamped : Nat × Pass) : Turn OriginKey :=
  ⟨stamped.1, stamped.2.origin, stamped.2.registered, stamped.2.finished⟩

/-- What holds after the calls of a cycle so far: `stamped` are the passes with their rounds,
`round` is the current one, and `count` is the number of calls. -/
structure Stands (collate : OriginKey → String → κ) (origins : Finset OriginKey)
    (expired : OriginKey → Finset String) (registered : List OriginKey)
    (cursor : OriginRetentionCursor) (stamped : List (Nat × Pass)) (round count : Nat) : Prop where
  /-- Passes come to the ids of an origin in order. -/
  increasing : (visits (stamped.map (·.2))).Pairwise fun first second =>
    first.1 = second.1 → collate first.1 first.2 < collate second.1 second.2
  among : ∀ visit ∈ visits (stamped.map (·.2)), visit.1 ∈ origins ∧ visit.2 ∈ expired visit.1
  /-- A pending origin has the last id that its passes came to. -/
  pending : ∀ key last, cursor.pending.lookup key = some last →
    (visitedIds (stamped.map (·.2)) key).getLast? = some last
  /-- An origin that had a pass is finished, pending or removed. -/
  resumable : ∀ turn ∈ stamped, turn.2.origin ∈ cursor.finished ∨
    cursor.pending.lookup turn.2.origin ≠ none ∨ turn.2.origin ∉ registered
  disjoint : ∀ key ∈ cursor.finished, cursor.pending.lookup key = none
  finished : ∀ key, key ∈ cursor.finished ↔
    ∃ turn ∈ stamped, turn.2.origin = key ∧ turn.2.finished = true
  /-- The round has come to the origins up to the current one. -/
  visited : ∀ key ∈ registered, key ≤ cursor.origin → key ∈ cursor.visited
  turns : TakesTurns (stamped.map turnOf)
  latest : ∀ turn ∈ stamped, (turnOf turn).slot ≤ toLex (round, cursor.origin)
  above : ∀ turn ∈ stamped, noOrigin < turn.2.origin
  served : ∀ key ∈ registered, ∀ r, toLex (r, key) ≤ toLex (round, cursor.origin) →
    Served (stamped.map turnOf) r key
  previous : ∀ front turn back, stamped = front ++ turn :: back →
    turn.2.previous = (visitedIds (front.map (·.2)) turn.2.origin).getLast?
  facts : ∀ turn ∈ stamped, PassFacts collate expired turn.2
  /-- A round has at most one call for each origin and one to end it. -/
  calls : count ≤ round * (origins.card + 1) + (origins.filter (· ≤ cursor.origin)).card
  /-- A round that leaves an origin pending has come to an instance. -/
  rounds : round ≤ (visits (stamped.map (·.2))).length
  progress : (∃ key ∈ cursor.visited, cursor.pending.lookup key ≠ none) →
    round + 1 ≤ (visits (stamped.map (·.2))).length

variable {origins : Finset OriginKey} {expired : OriginKey → Finset String}
  {registered registered' : List OriginKey} {cursor next : OriginRetentionCursor}
  {stamped : List (Nat × Pass)} {round count : Nat}

theorem stands_start (registered : List OriginKey)
    (hregistered : ∀ key ∈ registered, noOrigin < key) :
    Stands collate origins expired registered .default [] 0 0 where
  increasing := .nil
  among _ hnone := absurd hnone List.not_mem_nil
  pending _ _ hnone := by cases hnone
  resumable _ hnone := absurd hnone List.not_mem_nil
  disjoint _ hnone := absurd hnone (Finset.notMem_empty _)
  finished key := ⟨fun hnone => absurd hnone (Finset.notMem_empty _), fun ⟨_, hnone, _⟩ =>
    absurd hnone List.not_mem_nil⟩
  visited key hkey hle := absurd (hregistered key hkey) (not_lt.2 hle)
  turns := ⟨.nil, .nil, fun _ hnone => absurd hnone List.not_mem_nil,
    fun _ hnone => absurd hnone List.not_mem_nil⟩
  latest _ hnone := absurd hnone List.not_mem_nil
  above _ hnone := absurd hnone List.not_mem_nil
  served key hkey r hle := by
    rcases Prod.Lex.toLex_le_toLex.1 hle with hlt | ⟨-, hle⟩
    · exact absurd hlt (Nat.not_lt_zero _)
    · exact absurd (hregistered key hkey) (not_lt.2 hle)
  previous _ _ _ hnone :=
    absurd hnone (List.append_ne_nil_of_right_ne_nil _ (List.cons_ne_nil _ _)).symm
  facts _ hnone := absurd hnone List.not_mem_nil
  calls := Nat.zero_le _
  rounds := Nat.le_refl 0
  progress h := by
    obtain ⟨_, hnone, -⟩ := h
    exact absurd hnone (Finset.notMem_empty _)

/-- Removing registrations changes nothing. -/
theorem Stands.remove (h : Stands collate origins expired registered cursor stamped round count)
    (hremoved : ∀ key ∈ registered', key ∈ registered) :
    Stands collate origins expired registered' cursor stamped round count :=
  { h with
    resumable := fun turn hturn => (h.resumable turn hturn).imp_right fun hcase =>
      hcase.imp_right fun hnone hkey => hnone (hremoved _ hkey)
    visited := fun key hkey => h.visited key (hremoved key hkey)
    served := fun key hkey => h.served key (hremoved key hkey) }

/-! ## Moving to the next origin -/

section Next

variable (h : Stands collate origins expired registered cursor stamped round count)
  (hlt : cursor.origin < key)
  (hleast : ∀ other ∈ registered, cursor.origin < other → key ≤ other)

include h hlt hleast

omit hlt in
theorem Stands.visited_next : ∀ other ∈ registered, other ≤ key →
    other ∈ insert key cursor.visited := by
  intro other hother hle
  by_cases hcursor : other ≤ cursor.origin
  · exact Finset.mem_insert_of_mem (h.visited other hother hcursor)
  · rw [le_antisymm hle (hleast other hother (not_le.1 hcursor))]
    exact Finset.mem_insert_self _ _

omit hlt in
theorem Stands.served_next {turns : List (Turn OriginKey)}
    (hturns : ∀ turn ∈ stamped.map turnOf, turn ∈ turns) (hkey : Served turns round key) :
    ∀ other ∈ registered, ∀ r, toLex (r, other) ≤ toLex (round, key) → Served turns r other := by
  intro other hother r hle
  rcases Prod.Lex.toLex_le_toLex.1 hle with hround | ⟨hround, hle⟩
  · exact (h.served other hother r (Prod.Lex.toLex_le_toLex.2 (.inl hround))).mono hturns
  · simp only at hround hle
    by_cases hcursor : other ≤ cursor.origin
    · have hserved := h.served other hother r (Prod.Lex.toLex_le_toLex.2 (.inr ⟨hround, hcursor⟩))
      exact hserved.mono hturns
    · rw [hround, le_antisymm hle (hleast other hother (not_le.1 hcursor))]
      exact hkey

omit hleast in
theorem Stands.latest_next : ∀ turn ∈ stamped, (turnOf turn).slot < toLex (round, key) :=
  fun turn hturn =>
    lt_of_le_of_lt (h.latest turn hturn) (Prod.Lex.toLex_lt_toLex.2 (.inr ⟨rfl, hlt⟩))

omit hleast in
theorem Stands.calls_next (hkey : key ∈ origins) :
    count + 1 ≤ round * (origins.card + 1) + (origins.filter (· ≤ key)).card := by
  have hsubset : origins.filter (· ≤ cursor.origin) ⊂ origins.filter (· ≤ key) := by
    refine Finset.ssubset_iff_of_subset ?_ |>.2 ⟨key, ?_, ?_⟩
    · exact Finset.monotone_filter_right _ fun other _ hle => le_trans hle hlt.le
    · exact Finset.mem_filter.2 ⟨hkey, le_refl _⟩
    · exact fun hmem => absurd (Finset.mem_filter.1 hmem).2 (not_le.2 hlt)
  have hcard := Finset.card_lt_card hsubset
  have hcalls := h.calls
  omega

/-- Passing over a finished origin. -/
theorem Stands.skip (hkey : key ∈ origins) (hfinished : key ∈ cursor.finished) :
    Stands collate origins expired registered { cursor with
      visited := insert key cursor.visited, origin := key, afterId := none } stamped round
      (count + 1) where
  increasing := h.increasing
  among := h.among
  pending := h.pending
  resumable := h.resumable
  disjoint := h.disjoint
  finished := h.finished
  visited := h.visited_next hleast
  turns := h.turns
  latest turn hturn := (h.latest_next hlt turn hturn).le
  above := h.above
  served := by
    refine h.served_next hleast (fun _ hturn => hturn) ?_
    obtain ⟨turn, hturn, horigin, hdone⟩ := (h.finished key).1 hfinished
    have hround : turn.1 ≤ round := by
      rcases Prod.Lex.toLex_le_toLex.1 (h.latest turn hturn) with hlt | ⟨heq, -⟩
      · exact Nat.le_of_lt hlt
      · exact Nat.le_of_eq heq
    refine ⟨turnOf turn, List.mem_map_of_mem hturn, horigin, ?_⟩
    rcases Nat.lt_or_eq_of_le hround with hlt | heq
    · exact .inr ⟨hlt, hdone⟩
    · exact .inl heq
  previous := h.previous
  facts := h.facts
  calls := h.calls_next hlt hkey
  rounds := h.rounds
  progress := by
    rintro ⟨other, hother, hpending⟩
    refine h.progress ⟨other, ?_, hpending⟩
    rcases Finset.mem_insert.1 hother with rfl | hold
    · exact absurd (h.disjoint other hfinished) hpending
    · exact hold

end Next

/-! ## A pass -/

/-- The ids of an origin are in order. -/
theorem Stands.ids_increasing
    (h : Stands collate origins expired registered cursor stamped round count) (key : OriginKey) :
    (visitedIds (stamped.map (·.2)) key).Pairwise fun first second =>
      collate key first < collate key second := by
  refine List.pairwise_map.2 ((h.increasing.filter _).imp_of_mem ?_)
  intro first second hfirst hsecond himp
  have hfirst' : first.1 = key := of_decide_eq_true (List.mem_filter.1 hfirst).2
  have hsecond' : second.1 = key := of_decide_eq_true (List.mem_filter.1 hsecond).2
  have hlt := himp (hfirst'.trans hsecond'.symm)
  rw [hfirst', hsecond'] at hlt
  exact hlt

/-- In a list in order, nothing is behind the last. -/
theorem le_of_get_last {order : String → κ} {ids : List String}
    (h : ids.Pairwise fun first second => order first < order second) {last : String}
    (hlast : ids.getLast? = some last) : ∀ id ∈ ids, order id ≤ order last := by
  obtain ⟨front, rfl⟩ := List.getLast?_eq_some_iff.1 hlast
  intro id hid
  rcases List.mem_append.1 hid with hfront | hsame
  · exact ((List.pairwise_append.1 h).2.2 id hfront last List.mem_cons_self).le
  · rw [List.mem_singleton.1 hsame]

section Serve

omit [LinearOrder τ]

variable {call : Call τ} (h : Stands collate origins expired registered cursor stamped round count)
  (hserves : Serves call cursor pass next) (hregistered : pass.origin ∈ registered)

include h hserves hregistered

/-- A pass goes on where the last pass over its origin stopped. -/
theorem Stands.previous_pass :
    pass.previous = (visitedIds (stamped.map (·.2)) pass.origin).getLast? := by
  rw [hserves.previous]
  cases hlookup : cursor.pending.lookup pass.origin with
  | some last => exact (h.pending _ _ hlookup).symm
  | none =>
      -- An open origin that is not pending had no pass.
      have hnone : visitedIds (stamped.map (·.2)) pass.origin = [] := by
        refine List.eq_nil_iff_forall_not_mem.2 fun id hid => ?_
        obtain ⟨earlier, hearlier, hvisit⟩ := List.mem_flatMap.1 (mem_visited_ids.1 hid)
        obtain ⟨_, -, hsame⟩ := List.mem_map.1 hvisit
        obtain ⟨turn, hturn, rfl⟩ := List.mem_map.1 hearlier
        have horigin : turn.2.origin = pass.origin := congrArg Prod.fst hsame
        rcases h.resumable turn hturn with hdone | hpending | hremoved
        · rw [horigin] at hdone
          exact hserves.open_origin hdone
        · rw [horigin] at hpending
          exact hpending hlookup
        · rw [horigin] at hremoved
          exact hremoved hregistered
      rw [hnone]
      rfl

variable (hfacts : PassFacts collate expired pass)

include hfacts

/-- A pass comes to ids behind all that were come to before. -/
theorem Stands.increasing_pass :
    (visits (stamped.map (·.2) ++ [pass])).Pairwise fun first second =>
      first.1 = second.1 → collate first.1 first.2 < collate second.1 second.2 := by
  rw [visits_append, visits_single]
  refine List.pairwise_append.2 ⟨h.increasing, ?_, ?_⟩
  · refine List.pairwise_map.2 (hfacts.increasing.imp ?_)
    exact fun hlt _ => hlt
  · intro earlier hearlier later hlater hsame
    obtain ⟨id, hid, rfl⟩ := List.mem_map.1 hlater
    replace hsame : earlier.1 = pass.origin := hsame
    have hmem : earlier.2 ∈ visitedIds (stamped.map (·.2)) pass.origin := by
      refine mem_visited_ids.2 ?_
      rw [← hsame]
      exact hearlier
    obtain ⟨last, hlast⟩ := Option.ne_none_iff_exists'.1
      (mt List.getLast?_eq_none_iff.1 (List.ne_nil_of_mem hmem))
    have hprevious := h.previous_pass hserves hregistered
    rw [hlast] at hprevious
    have hle := le_of_get_last (h.ids_increasing pass.origin) hlast earlier.2 hmem
    rw [hsame]
    exact lt_of_le_of_lt hle (hfacts.behind last hprevious id hid)

omit hregistered hfacts in
theorem Stands.pending_pass : ∀ key last, next.pending.lookup key = some last →
    (visitedIds (stamped.map (·.2) ++ [pass]) key).getLast? = some last := by
  intro key last hlookup
  rw [hserves.pending] at hlookup
  rw [visited_ids_append]
  by_cases hkey : key = pass.origin
  · rw [if_pos hkey] at hlookup
    cases hfinished : pass.finished with
    | true =>
        rw [hfinished, if_pos rfl] at hlookup
        cases hlookup
    | false =>
        rw [hfinished, if_neg Bool.false_ne_true] at hlookup
        rw [hkey, visited_ids_own, List.getLast?_append, hlookup]
        rfl
  · rw [if_neg hkey] at hlookup
    rw [visited_ids_other hkey, List.append_nil]
    exact h.pending key last hlookup

theorem Stands.serve (hcall : call.registered = registered) (hkey : pass.origin ∈ origins)
    (habove : noOrigin < pass.origin) (hlt : cursor.origin < pass.origin)
    (hleast : ∀ other ∈ registered, cursor.origin < other → pass.origin ≤ other) :
    Stands collate origins expired registered next (stamped ++ [(round, pass)]) round
      (count + 1) := by
  have hpasses : (stamped ++ [(round, pass)]).map (·.2) = stamped.map (·.2) ++ [pass] :=
    List.map_append
  have hturns : (stamped ++ [(round, pass)]).map turnOf =
      stamped.map turnOf ++ [turnOf (round, pass)] :=
    List.map_append
  have hvisits : (visits (stamped.map (·.2) ++ [pass])).length =
      (visits (stamped.map (·.2))).length + pass.visited.length := by
    rw [visits_append, List.length_append, visits_single, List.length_map]
  have hserved := h.served_next hleast
    (fun turn hturn => List.mem_append_left [turnOf (round, pass)] hturn)
    ⟨turnOf (round, pass), List.mem_append_right _ List.mem_cons_self, rfl, .inl rfl⟩
  have hlookup := hserves.pending
  have hfinished := hserves.finished
  constructor
  · rw [hpasses]
    exact h.increasing_pass hserves hregistered hfacts
  · rw [hpasses, visits_append]
    refine List.forall_mem_append.2 ⟨h.among, fun visit hvisit => ?_⟩
    rw [visits_single] at hvisit
    obtain ⟨id, hid, rfl⟩ := List.mem_map.1 hvisit
    exact ⟨hkey, hfacts.expired id hid⟩
  · rw [hpasses]
    exact h.pending_pass hserves
  · -- The origin of the pass is finished or pending.
    have hown : pass.origin ∈ next.finished ∨ next.pending.lookup pass.origin ≠ none := by
      rw [hfinished, hlookup, if_pos rfl]
      cases hdone : pass.finished with
      | true => exact .inl (Finset.mem_insert_self _ _)
      | false => exact .inr (mt List.getLast?_eq_none_iff.1 (hfacts.moved hdone))
    refine List.forall_mem_append.2 ⟨fun turn hturn => ?_,
      List.forall_mem_singleton.2 (hown.imp_right .inl)⟩
    by_cases horigin : turn.2.origin = pass.origin
    · rw [horigin]
      exact hown.imp_right .inl
    · rw [hlookup, if_neg horigin, hfinished]
      refine (h.resumable turn hturn).imp_left fun hold => ?_
      split
      · exact Finset.mem_insert_of_mem hold
      · exact hold
  · intro key hmem
    rw [hfinished] at hmem
    rw [hlookup]
    by_cases horigin : key = pass.origin
    · rw [if_pos horigin]
      cases hdone : pass.finished with
      | true => rfl
      | false =>
          rw [hdone, if_neg Bool.false_ne_true, horigin] at hmem
          exact absurd hmem hserves.open_origin
    · rw [if_neg horigin]
      refine h.disjoint key ?_
      split at hmem
      · exact (Finset.mem_insert.1 hmem).resolve_left horigin
      · exact hmem
  · intro key
    rw [hfinished]
    cases hdone : pass.finished with
    | true =>
        rw [if_pos rfl, Finset.mem_insert, h.finished]
        constructor
        · rintro (rfl | ⟨turn, hturn, hold⟩)
          · exact ⟨_, List.mem_append_right _ List.mem_cons_self, rfl, hdone⟩
          · exact ⟨turn, List.mem_append_left _ hturn, hold⟩
        · rintro ⟨turn, hturn, horigin, hold⟩
          rcases List.mem_append.1 hturn with hturn | hnew
          · exact .inr ⟨turn, hturn, horigin, hold⟩
          · rw [List.mem_singleton.1 hnew] at horigin
            exact .inl horigin.symm
    | false =>
        rw [if_neg Bool.false_ne_true, h.finished]
        constructor
        · rintro ⟨turn, hturn, hold⟩
          exact ⟨turn, List.mem_append_left _ hturn, hold⟩
        · rintro ⟨turn, hturn, horigin, hold⟩
          rcases List.mem_append.1 hturn with hturn | hnew
          · exact ⟨turn, hturn, horigin, hold⟩
          · rw [List.mem_singleton.1 hnew, hdone] at hold
            cases hold
  · rw [hserves.origin, hserves.visited]
    exact h.visited_next hleast
  · rw [hturns]
    refine h.turns.snoc ?_ ?_ ?_ ?_
    · intro earlier hearlier
      obtain ⟨turn, hturn, rfl⟩ := List.mem_map.1 hearlier
      exact h.latest_next hlt turn hturn
    · intro earlier hearlier hdone hsame
      obtain ⟨turn, hturn, rfl⟩ := List.mem_map.1 hearlier
      exact hserves.open_origin ((h.finished _).2 ⟨turn, hturn, hsame.symm, hdone⟩)
    · show pass.origin ∈ pass.registered
      rw [hserves.registered, hcall]
      exact hregistered
    · show ∀ member ∈ pass.registered, _
      rw [hserves.registered, hcall]
      exact hserved
  · rw [hserves.origin]
    refine List.forall_mem_append.2 ⟨fun turn hturn => (h.latest_next hlt turn hturn).le,
      List.forall_mem_singleton.2 (le_refl _)⟩
  · exact List.forall_mem_append.2 ⟨h.above, List.forall_mem_singleton.2 habove⟩
  · rw [hturns, hserves.origin]
    exact hserved
  · intro front turn back hsplit
    rcases List.eq_nil_or_concat back with rfl | ⟨back, last, rfl⟩
    · obtain ⟨hfront, hturn⟩ := List.append_inj' hsplit rfl
      rw [← hfront, ← List.head_eq_of_cons_eq hturn]
      exact h.previous_pass hserves hregistered
    · rw [List.concat_eq_append, ← List.cons_append, ← List.append_assoc] at hsplit
      exact h.previous front turn back (List.append_inj' hsplit rfl).1
  · exact List.forall_mem_append.2 ⟨h.facts, List.forall_mem_singleton.2 hfacts⟩
  · rw [hserves.origin]
    exact h.calls_next hlt hkey
  · rw [hpasses, hvisits]
    exact h.rounds.trans (Nat.le_add_right _ _)
  · rintro ⟨key, hmem, hpending⟩
    rw [hpasses, hvisits]
    rw [hserves.visited] at hmem
    rw [hlookup] at hpending
    have hrounds := h.rounds
    by_cases horigin : key = pass.origin
    · -- A pass that leaves its origin pending has come to an instance.
      rw [if_pos horigin] at hpending
      have hvisited : pass.visited ≠ [] := by
        cases hdone : pass.finished with
        | true =>
            rw [hdone] at hpending
            exact absurd rfl hpending
        | false => exact hfacts.moved hdone
      have hlength := List.length_pos_iff.2 hvisited
      omega
    · rw [if_neg horigin] at hpending
      have hprogress :=
        h.progress ⟨key, (Finset.mem_insert.1 hmem).resolve_left horigin, hpending⟩
      omega

end Serve

/-! ## The end of a round -/

/-- A round that leaves an origin pending is followed by another. -/
theorem Stands.next_round (h : Stands collate origins expired registered cursor stamped round count)
    (hregistered : ∀ key ∈ registered, noOrigin < key)
    (hnone : ∀ key ∈ registered, ¬ cursor.origin < key) (hend : cursor.finishRound = (true, next)) :
    Stands collate origins expired registered next stamped (round + 1) (count + 1) := by
  have hnext : cursor.finishRound.2 = next := congrArg Prod.snd hend
  have hlookup : ∀ key, next.pending.lookup key =
      if key ∈ cursor.visited then cursor.pending.lookup key else none := by
    intro key
    rw [← hnext]
    show (cursor.pending.filter fun entry => decide (entry.1 ∈ cursor.visited)).lookup key = _
    rw [lookup_filter (fun key => decide (key ∈ cursor.visited))]
    simp only [decide_eq_true_eq]
  have horigin : next.origin = noOrigin := by rw [← hnext]; rfl
  have hvisited : next.visited = ∅ := by rw [← hnext]; rfl
  have hfinished : next.finished = cursor.finished := by rw [← hnext]; rfl
  -- An origin is pending that the round has come to.
  have hpending : ∃ key ∈ cursor.visited, cursor.pending.lookup key ≠ none := by
    have hmore : (!(cursor.pending.filter fun entry => decide (entry.1 ∈ cursor.visited)).isEmpty) =
        true := congrArg Prod.fst hend
    rw [Bool.not_eq_true', List.isEmpty_eq_false_iff] at hmore
    obtain ⟨entry, hentry⟩ := List.exists_mem_of_ne_nil _ hmore
    obtain ⟨hentry, hmem⟩ := List.mem_filter.1 hentry
    exact ⟨entry.1, of_decide_eq_true hmem, lookup_ne_none hentry⟩
  have hprogress := h.progress hpending
  constructor
  · exact h.increasing
  · exact h.among
  · intro key last hkey
    rw [hlookup] at hkey
    split at hkey
    · exact h.pending key last hkey
    · cases hkey
  · intro turn hturn
    rw [hfinished, hlookup]
    rcases h.resumable turn hturn with hdone | hold | hremoved
    · exact .inl hdone
    · -- An origin that the round has not come to is not registered any more.
      by_cases hmem : turn.2.origin ∈ cursor.visited
      · rw [if_pos hmem]
        exact .inr (.inl hold)
      · refine .inr (.inr fun hkey => hmem ?_)
        exact h.visited _ hkey (not_lt.1 (hnone _ hkey))
    · exact .inr (.inr hremoved)
  · intro key hkey
    rw [hfinished] at hkey
    rw [hlookup, h.disjoint key hkey, ite_self]
  · rw [hfinished]
    exact h.finished
  · intro key hkey hle
    rw [horigin] at hle
    exact absurd (hregistered key hkey) (not_lt.2 hle)
  · exact h.turns
  · intro turn hturn
    refine (h.latest turn hturn).trans (Prod.Lex.toLex_le_toLex.2 (.inl (Nat.lt_succ_self _)))
  · exact h.above
  · intro key hkey r hle
    rw [horigin] at hle
    refine h.served key hkey r (Prod.Lex.toLex_le_toLex.2 ?_)
    rcases Prod.Lex.toLex_le_toLex.1 hle with hlt | ⟨-, hle⟩
    · rcases Nat.lt_or_eq_of_le (Nat.le_of_lt_succ hlt) with hlt | heq
      · exact .inl hlt
      · exact .inr ⟨heq, not_lt.1 (hnone key hkey)⟩
    · exact absurd (hregistered key hkey) (not_lt.2 hle)
  · exact h.previous
  · exact h.facts
  · have hcalls := h.calls
    have hcard := Finset.card_filter_le origins (· ≤ cursor.origin)
    have hround : (round + 1) * (origins.card + 1) =
        round * (origins.card + 1) + (origins.card + 1) := Nat.succ_mul _ _
    omega
  · exact hprogress
  · rintro ⟨key, hmem, -⟩
    rw [hvisited] at hmem
    exact absurd hmem (Finset.notMem_empty key)

/-! ## All calls of a cycle -/

theorem no_origin_lt (hkey : 0 < (ofLex key).1) : noOrigin < key :=
  Prod.Lex.toLex_lt_toLex.2 (.inl hkey)

theorem Environment.earlier {calls : List (Call τ)} {call : Call τ}
    (h : Environment collate origins expired (calls ++ [call])) :
    Environment collate origins expired calls where
  origins earlier hearlier := h.origins earlier (List.mem_append_left _ hearlier)
  removed := (List.pairwise_append.1 h.removed).1
  ids earlier hearlier := h.ids earlier (List.mem_append_left _ hearlier)
  expired earlier hearlier := h.expired earlier (List.mem_append_left _ hearlier)

/-- Every call keeps to where a cycle stands, for the registrations that are still there. -/
theorem cycle_stands (hcollate : ∀ key, Function.Injective (collate key)) {calls : List (Call τ)}
    (henv : Environment collate origins expired calls) (h : Cycle collate calls cursor passes) :
    ∃ stamped round, stamped.map (·.2) = passes ∧ ∀ registered : List OriginKey,
      (∀ key ∈ registered, noOrigin < key) →
      (∀ call ∈ calls, ∀ key ∈ registered, key ∈ call.registered) →
      Stands collate origins expired registered cursor stamped round calls.length := by
  induction h with
  | start => exact ⟨[], 0, rfl, fun registered hregistered _ => stands_start registered hregistered⟩
  | @call calls cursor next passes call hcycle hcall ih =>
      obtain ⟨stamped, round, hpasses, hstands⟩ := ih henv.earlier
      have hmem : call ∈ calls ++ [call] := List.mem_append_right _ List.mem_cons_self
      have habove : ∀ key ∈ call.registered, noOrigin < key :=
        fun key hkey => no_origin_lt (henv.origins call hmem key hkey).2
      have hnow := hstands call.registered habove fun earlier hearlier key hkey =>
        (List.pairwise_append.1 henv.removed).2.2 earlier hearlier call List.mem_cons_self key hkey
      have hlength : (calls ++ [call]).length = calls.length + 1 := by simp
      have hremove : ∀ registered : List OriginKey,
          (∀ call' ∈ calls ++ [call], ∀ key ∈ registered, key ∈ call'.registered) →
          ∀ key ∈ registered, key ∈ call.registered := fun _ hall => hall call hmem
      rw [hlength]
      rcases sweep_cases hcall with ⟨hnone, hno, hend⟩ | ⟨key, hkey, hlt, hleast, hcase⟩
      · refine ⟨stamped, round + 1, by rw [hno, List.append_nil, hpasses], ?_⟩
        exact fun registered _ hall =>
          (hnow.next_round habove hnone hend).remove (hremove registered hall)
      rcases hcase with ⟨hfinished, hno, rfl⟩ | ⟨pass, origin, horigin, hpass, hone, hserves⟩
      · refine ⟨stamped, round, by rw [hno, List.append_nil, hpasses], ?_⟩
        exact fun registered _ hall => (hnow.skip hlt hleast (henv.origins call hmem key hkey).1
          hfinished).remove (hremove registered hall)
      · obtain ⟨rfl, hopen⟩ := pass_at_origin hpass
        have hfacts := pass_facts hcollate (henv.ids call hmem origin)
          (henv.expired call hmem pass.origin origin horigin) hopen horigin hpass
        refine ⟨stamped ++ [(round, pass)], round, ?_, fun registered _ hall =>
          (hnow.serve hserves hkey hfacts rfl (henv.origins call hmem _ hkey).1 (habove _ hkey) hlt
            hleast).remove (hremove registered hall)⟩
        rw [hone, List.map_append, hpasses]
        rfl

/-! ## What a cycle does -/

/-- A cycle comes to every instance at most once. -/
theorem Stands.visits_le
    (h : Stands collate origins expired registered cursor stamped round count) :
    (visits (stamped.map (·.2))).length ≤ ∑ key ∈ origins, (expired key).card := by
  have hnodup : (visits (stamped.map (·.2))).Nodup := by
    refine h.increasing.imp ?_
    rintro first second hlt rfl
    exact lt_irrefl _ (hlt rfl)
  have hsubset : (visits (stamped.map (·.2))).toFinset ⊆
      origins.biUnion fun key => (expired key).image (key, ·) := by
    intro visit hvisit
    obtain ⟨horigin, hid⟩ := h.among visit (List.mem_toFinset.1 hvisit)
    exact Finset.mem_biUnion.2 ⟨visit.1, horigin, Finset.mem_image.2 ⟨visit.2, hid, rfl⟩⟩
  calc (visits (stamped.map (·.2))).length
      = (visits (stamped.map (·.2))).toFinset.card := (List.toFinset_card_of_nodup hnodup).symm
    _ ≤ (origins.biUnion fun key => (expired key).image (key, ·)).card :=
        Finset.card_le_card hsubset
    _ ≤ ∑ key ∈ origins, ((expired key).image (key, ·)).card := Finset.card_biUnion_le
    _ ≤ ∑ key ∈ origins, (expired key).card := Finset.sum_le_sum fun _ _ => Finset.card_image_le

/-- A cycle ends: the number of calls that have more to do is bounded. -/
theorem Stands.calls_lt (h : Stands collate origins expired registered cursor stamped round count) :
    count < (∑ key ∈ origins, (expired key).card + 1) * (origins.card + 1) := by
  have hcard := Finset.card_filter_le origins (· ≤ cursor.origin)
  have hround := h.rounds.trans h.visits_le
  calc count ≤ round * (origins.card + 1) + (origins.filter (· ≤ cursor.origin)).card := h.calls
    _ < round * (origins.card + 1) + (origins.card + 1) := by omega
    _ = (round + 1) * (origins.card + 1) := (Nat.succ_mul _ _).symm
    _ ≤ (∑ key ∈ origins, (expired key).card + 1) * (origins.card + 1) :=
        Nat.mul_le_mul_right _ (Nat.succ_le_succ hround)

/-- Between two passes over an origin every other open origin has one pass. -/
theorem Stands.between_passes
    (h : Stands collate origins expired registered cursor stamped round count)
    {front between back : List Pass} {first second : Pass}
    (hsplit : stamped.map (·.2) = front ++ first :: (between ++ second :: back))
    (hsame : first.origin = second.origin) (hnone : first.origin ∉ between.map (·.origin))
    {other : OriginKey} (hother : other ∈ second.registered) (hne : other ≠ first.origin) :
    (between.map (·.origin)).count other =
      if ∃ pass ∈ front, pass.origin = other ∧ pass.finished = true then 0 else 1 := by
  obtain ⟨front', behind, hstamped, rfl, hbehind⟩ := List.map_eq_append_iff.1 hsplit
  obtain ⟨first', later, rfl, rfl, hlater⟩ := List.map_eq_cons_iff.1 hbehind
  obtain ⟨between', rest, rfl, rfl, hrest⟩ := List.map_eq_append_iff.1 hlater
  obtain ⟨second', back', rfl, rfl, rfl⟩ := List.map_eq_cons_iff.1 hrest
  have hturns := h.turns
  rw [hstamped, List.map_append, List.map_cons, List.map_append, List.map_cons] at hturns
  have hmembers : (between'.map turnOf).map (·.member) =
      (between'.map (·.2)).map (·.origin) := by
    rw [List.map_map, List.map_map]
    rfl
  have hcount := count_between hturns hsame (by rw [hmembers]; exact hnone) hother hne
  rw [hmembers] at hcount
  have hfinished : (∃ turn ∈ front'.map turnOf, turn.member = other ∧ turn.finished = true) ↔
      ∃ pass ∈ front'.map (·.2), pass.origin = other ∧ pass.finished = true := by
    constructor
    · rintro ⟨turn, hturn, hdone⟩
      obtain ⟨pass, hpass, rfl⟩ := List.mem_map.1 hturn
      exact ⟨pass.2, List.mem_map_of_mem hpass, hdone⟩
    · rintro ⟨pass, hpass, hdone⟩
      obtain ⟨turn, hturn, rfl⟩ := List.mem_map.1 hpass
      exact ⟨turnOf turn, List.mem_map_of_mem hturn, hdone⟩
  rw [if_congr hfinished rfl rfl] at hcount
  convert hcount

/-- What the calls of a cycle so far have done, each of which had more to do. -/
structure IsFair (collate : OriginKey → String → κ) (origins : Finset OriginKey)
    (expired : OriginKey → Finset String) (calls : List (Call τ)) (cursor : OriginRetentionCursor)
    (passes : List Pass) : Prop where
  /-- There are not more of them than this. -/
  ends : calls.length < (∑ key ∈ origins, (expired key).card + 1) * (origins.card + 1)
  /-- A pass that fails does not fail the call. -/
  returns : ∀ call : Call τ, call.listed = .ok () →
    (∀ key ∈ call.registered, 0 ≤ (ofLex key).1 ∧ (ofLex key).1 < 2 ^ 32) →
    ∃ more next, sweepRegisteredOrigins collate call cursor = .ok (more, next)
  /-- The ids of an origin are visited in order, each once. -/
  increasing : ∀ key, (visitedIds passes key).Pairwise fun first second =>
    collate key first < collate key second
  /-- Between two passes over an origin, every other origin has one, unless one finished it. -/
  turns : ∀ front first between second back,
    passes = front ++ first :: (between ++ second :: back) → first.origin = second.origin →
    first.origin ∉ between.map (·.origin) → ∀ other ∈ second.registered, other ≠ first.origin →
    (between.map (·.origin)).count other =
      if ∃ pass ∈ front, pass.origin = other ∧ pass.finished = true then 0 else 1
  /-- A pending origin is kept at the last id visited, and a pass starts behind that id. -/
  pending : ∀ key last, cursor.pending.lookup key = some last →
    (visitedIds passes key).getLast? = some last
  resumes : ∀ front pass back, passes = front ++ pass :: back →
    pass.previous = (visitedIds front pass.origin).getLast? ∧
    ∀ page ∈ pass.page, pass.visited <+: page ∧ page =
      (pass.expired.filter (behindId (collate pass.origin) pass.previous)).take reclaimBatch
  /-- An origin is finished by a pass that came to nothing or whose page was not full. -/
  finished : ∀ key ∈ cursor.finished, ∃ pass ∈ passes, pass.origin = key ∧
    pass.finished = true ∧ (pass.visited = [] ∨ ∃ page ∈ pass.page, page.length < reclaimBatch)

/-- An expired instance, which is not retired in time. -/
def notRetired : Satellite Int := ⟨.ok, completedOnce, 760000000000000, fun _ => .timedOut⟩

def timingOut (key : OriginKey) : Call Int where
  listed := .ok ()
  registered := [key]
  satellite _ := notRetired

theorem not_retired_page : pageOf id notRetired none = some [⟨"aaaaaaaa", 10001, false⟩] := by
  have hfound : (notRetired.rows.filter fun row => row.isTerminal && behindId id none row.id &&
      (row.isAged notRetired.cutoff || !(((terminalInstances id notRetired.rows).take
        (terminalInstanceMaxKeep : Int).toNat).map (·.id)).contains row.id)) = completedOnce := rfl
  have hsorted : orderBy id (completedOnce.map (·.id)) = ["aaaaaaaa"] := List.mergeSort_singleton _
  show some (((orderBy id (_ : List String)).take reclaimBatch).map _) = _
  rw [hfound, hsorted]
  rfl

end PgDurable.Retention
