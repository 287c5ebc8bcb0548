import PgDurable.Instances.OriginSweep
import PgDurable.Library.Json.Codec

/-!
# One call of the retention sweep

`sweep_cases` says what a call of `sweepRegisteredOrigins` that has more to do can have done: it
ended a round, passed over a finished origin, or made a pass over an open one. `pass_facts` says
what a pass comes to, wherever it fails.
-/

namespace PgDurable.Retention

open Instances Keyset

/-! ## Passes -/

/-- A pass over an origin: the origins that are registered then, the ids that are expired, in order,
the last id before the pass, the ids of the page if it was read, the ids that the pass came to, and
whether it marks the origin finished. -/
structure Pass where
  origin : OriginKey
  registered : List OriginKey
  expired : List String
  previous : Option String
  page : Option (List String)
  visited : List String
  finished : Bool

variable {τ κ : Type} [LinearOrder τ] [LinearOrder κ] (collate : OriginKey → String → κ)

/-- The pass over an origin of the page, if there is one. -/
def passAt (call : Call τ) (cursor : OriginRetentionCursor) (key : OriginKey) : Option Pass :=
  match cursor.enter key, originOf key with
  | (true, entered), .ok origin =>
      let satellite := call.satellite origin
      let page := pageOf (collate key) satellite entered.afterId
      let last := (retireOriginInstances (collate key) satellite entered.afterId).2
      some {
        origin := key
        registered := call.registered
        expired := Sweep.expiredNames (·.id) (collate key)
          (isExpired (collate key) satellite.cutoff terminalInstanceMaxKeep) satellite.rows
        previous := entered.afterId
        page := page.map fun candidates => candidates.map (·.id)
        visited := visitedOf terminalInstanceMaxKeep satellite.retire (page.getD [])
        finished := !({ entered with afterId := last }.resumeAfterPass entered.afterId).1 }
  | _, _ => none

/-- The passes of a call. -/
def passesOf (call : Call τ) (cursor : OriginRetentionCursor) : List Pass :=
  (listOrigins call.registered cursor.origin).filterMap (passAt collate call cursor)

/-! ## One call -/

/-- The next origin is the least one behind the cursor. -/
theorem list_origins_cases (registered : List OriginKey) (after : OriginKey) :
    (listOrigins registered after = [] ∧ ∀ key ∈ registered, ¬ after < key) ∨
    ∃ key ∈ registered, listOrigins registered after = [key] ∧ after < key ∧
      ∀ other ∈ registered, after < other → key ≤ other := by
  unfold listOrigins originBatch
  have hperm := order_by_perm id (registered.filter (after < ·))
  have hsorted := order_by_le id (registered.filter (after < ·))
  have hmem : ∀ key, key ∈ orderBy id (registered.filter (after < ·)) ↔
      key ∈ registered ∧ after < key := by
    intro key
    rw [hperm.mem_iff, List.mem_filter, decide_eq_true_iff]
  cases hlist : orderBy id (registered.filter (after < ·)) with
  | nil =>
      rw [hlist] at hmem
      exact .inl ⟨rfl, fun key hkey hlt => absurd ((hmem key).2 ⟨hkey, hlt⟩) List.not_mem_nil⟩
  | cons key others =>
      rw [hlist] at hmem hsorted
      obtain ⟨hkey, hlt⟩ := (hmem key).1 List.mem_cons_self
      refine .inr ⟨key, hkey, rfl, hlt, fun other hother hlt' => ?_⟩
      rcases List.mem_cons.1 ((hmem other).2 ⟨hother, hlt'⟩) with rfl | hlater
      · exact le_refl _
      · exact (List.pairwise_cons.1 hsorted).1 other hlater

theorem lookup_cons_eq (entry : OriginKey × String) (pending : List (OriginKey × String))
    (key : OriginKey) : (entry :: pending).lookup key =
      if key = entry.1 then some entry.2 else pending.lookup key := by
  rw [List.lookup_cons]
  by_cases hkey : key = entry.1
  · rw [beq_iff_eq.2 hkey, if_pos hkey]
  · rw [beq_eq_false_iff_ne.2 hkey, if_neg hkey]

theorem lookup_ne_none {entry : OriginKey × String} {pending : List (OriginKey × String)}
    (h : entry ∈ pending) : pending.lookup entry.1 ≠ none := by
  induction pending with
  | nil => cases h
  | cons first pending ih =>
      rw [lookup_cons_eq]
      split
      · exact Option.some_ne_none _
      · next hne =>
          rcases List.mem_cons.1 h with rfl | hlater
          · exact absurd rfl hne
          · exact ih hlater

theorem lookup_filter (keeps : OriginKey → Bool) (pending : List (OriginKey × String))
    (key : OriginKey) : (pending.filter fun entry => keeps entry.1).lookup key =
      if keeps key = true then pending.lookup key else none := by
  induction pending with
  | nil => exact (ite_self none).symm
  | cons entry pending ih =>
      rw [List.filter_cons]
      by_cases hkeeps : keeps entry.1 = true
      · rw [if_pos hkeeps, lookup_cons_eq, ih, lookup_cons_eq]
        by_cases hkey : key = entry.1
        · rw [if_pos hkey, if_pos hkey, hkey, if_pos hkeeps]
        · rw [if_neg hkey, if_neg hkey]
      · rw [if_neg hkeeps, ih, lookup_cons_eq]
        by_cases hkey : key = entry.1
        · rw [hkey, if_neg hkeeps, if_neg hkeeps]
        · rw [if_neg hkey]

/-- A call that makes this pass. -/
structure Serves (call : Call τ) (cursor : OriginRetentionCursor) (pass : Pass)
    (next : OriginRetentionCursor) : Prop where
  open_origin : pass.origin ∉ cursor.finished
  registered : pass.registered = call.registered
  previous : pass.previous = cursor.pending.lookup pass.origin
  origin : next.origin = pass.origin
  visited : next.visited = insert pass.origin cursor.visited
  finished : next.finished =
    if pass.finished = true then insert pass.origin cursor.finished else cursor.finished
  pending : ∀ key, next.pending.lookup key =
    if key = pass.origin then if pass.finished = true then none else pass.visited.getLast?
    else cursor.pending.lookup key

variable {collate} {call : Call τ} {cursor next : OriginRetentionCursor} {key : OriginKey}

theorem enter_finished (h : key ∈ cursor.finished) : cursor.enter key = (false, { cursor with
    visited := insert key cursor.visited, origin := key, afterId := none }) :=
  if_pos h

theorem enter_open (h : key ∉ cursor.finished) : cursor.enter key = (true, { cursor with
    visited := insert key cursor.visited, origin := key, afterId := cursor.pending.lookup key
    pending := cursor.pending.filter fun entry => entry.1 ≠ key }) :=
  if_neg h

theorem resume_pending {cursor : OriginRetentionCursor} {previousId : Option String} {last : String}
    (h : cursor.afterId = some last) (hmoved : some last ≠ previousId) :
    cursor.resumeAfterPass previousId = (true, { cursor with
      afterId := none
      pending := (cursor.origin, last) ::
        cursor.pending.filter fun entry => entry.1 ≠ cursor.origin }) := by
  unfold OriginRetentionCursor.resumeAfterPass
  rw [h]
  exact if_pos hmoved

theorem resume_finished (cursor : OriginRetentionCursor) {previousId : Option String}
    (h : cursor.afterId = none ∨ cursor.afterId = previousId) :
    ∃ afterId, cursor.resumeAfterPass previousId = (false, { cursor with
      afterId := afterId, finished := insert cursor.origin cursor.finished }) := by
  unfold OriginRetentionCursor.resumeAfterPass
  split
  · next last hafter =>
      rcases h with hnone | hsame
      · rw [hafter] at hnone
        cases hnone
      · rw [hafter] at hsame
        exact ⟨none, if_neg fun hmoved => hmoved hsame⟩
  · exact ⟨cursor.afterId, rfl⟩

/-- The cursor after a pass over an open origin. -/
def afterPass (collate : OriginKey → String → κ) (call : Call τ) (cursor : OriginRetentionCursor)
    (key : OriginKey) (origin : Origin) : Bool × OriginRetentionCursor :=
  let previousId := cursor.pending.lookup key
  OriginRetentionCursor.resumeAfterPass { cursor with
    visited := insert key cursor.visited, origin := key
    afterId := (retireOriginInstances (collate key) (call.satellite origin) previousId).2
    pending := cursor.pending.filter fun entry => entry.1 ≠ key } previousId

/-- The ids that a pass over an origin comes to. -/
def comesTo (collate : OriginKey → String → κ) (call : Call τ) (cursor : OriginRetentionCursor)
    (key : OriginKey) (origin : Origin) : List String :=
  visitedOf terminalInstanceMaxKeep (call.satellite origin).retire
    ((pageOf (collate key) (call.satellite origin) (cursor.pending.lookup key)).getD [])

theorem serve_open {origin : Origin} (hopen : key ∉ cursor.finished)
    (horigin : originOf key = .ok origin) :
    serveOrigin collate call cursor key = .ok (afterPass collate call cursor key origin).2 := by
  rw [serveOrigin, enter_open hopen, horigin]
  rfl

theorem pass_at_open {origin : Origin} (hopen : key ∉ cursor.finished)
    (horigin : originOf key = .ok origin) :
    passAt collate call cursor key = some {
      origin := key
      registered := call.registered
      expired := Sweep.expiredNames (·.id) (collate key)
        (isExpired (collate key) (call.satellite origin).cutoff terminalInstanceMaxKeep)
        (call.satellite origin).rows
      previous := cursor.pending.lookup key
      page := (pageOf (collate key) (call.satellite origin) (cursor.pending.lookup key)).map
        fun candidates => candidates.map (·.id)
      visited := comesTo collate call cursor key origin
      finished := !(afterPass collate call cursor key origin).1 } := by
  rw [passAt, enter_open hopen, horigin]
  rfl

theorem pass_at_origin {pass : Pass} (h : passAt collate call cursor key = some pass) :
    pass.origin = key ∧ key ∉ cursor.finished := by
  by_cases hfinished : key ∈ cursor.finished
  · rw [passAt, enter_finished hfinished] at h
    cases h
  cases horigin : originOf key with
  | error error =>
      rw [passAt, enter_open hfinished, horigin] at h
      cases h
  | ok origin =>
      rw [pass_at_open hfinished horigin] at h
      rw [← Option.some.inj h]
      exact ⟨rfl, hfinished⟩

/-- A pass that moves on keeps the origin pending at the last id it came to, and another one marks
it finished. -/
theorem after_pass_cases (collate : OriginKey → String → κ) (call : Call τ)
    (cursor : OriginRetentionCursor) (key : OriginKey) (origin : Origin) :
    (∃ last, (comesTo collate call cursor key origin).getLast? = some last ∧
      afterPass collate call cursor key origin = (true, { cursor with
        visited := insert key cursor.visited, origin := key, afterId := none
        pending := (key, last) :: (cursor.pending.filter fun entry => entry.1 ≠ key).filter
          fun entry => entry.1 ≠ key })) ∨
    (((retireOriginInstances (collate key) (call.satellite origin)
        (cursor.pending.lookup key)).2 = none ∨
      (retireOriginInstances (collate key) (call.satellite origin)
        (cursor.pending.lookup key)).2 = cursor.pending.lookup key) ∧
      ∃ afterId, afterPass collate call cursor key origin = (false, { cursor with
        visited := insert key cursor.visited, origin := key, afterId := afterId
        pending := cursor.pending.filter fun entry => entry.1 ≠ key
        finished := insert key cursor.finished })) := by
  have hlast := retire_instances_last (collate key) (call.satellite origin)
    (cursor.pending.lookup key)
  by_cases hmoved : ∃ last, (retireOriginInstances (collate key) (call.satellite origin)
      (cursor.pending.lookup key)).2 = some last ∧ some last ≠ cursor.pending.lookup key
  · obtain ⟨last, hafter, hne⟩ := hmoved
    refine .inl ⟨last, ?_, resume_pending hafter hne⟩
    unfold comesTo
    cases hpage : pageOf (collate key) (call.satellite origin) (cursor.pending.lookup key) with
    | none =>
        rw [hpage, hafter] at hlast
        exact absurd hlast hne
    | some candidates =>
        rw [hpage, hafter] at hlast
        rcases hlast with hlast | ⟨hnone, -⟩
        · exact hlast.symm
        · cases hnone
  · have hstays : (retireOriginInstances (collate key) (call.satellite origin)
        (cursor.pending.lookup key)).2 = none ∨ (retireOriginInstances (collate key)
          (call.satellite origin) (cursor.pending.lookup key)).2 = cursor.pending.lookup key := by
      cases hafter : (retireOriginInstances (collate key) (call.satellite origin)
        (cursor.pending.lookup key)).2 with
      | none => exact .inl rfl
      | some last => exact .inr (not_not.1 fun hne => hmoved ⟨last, hafter, hne⟩)
    exact .inr ⟨hstays, resume_finished _ hstays⟩

theorem pass_serves {origin : Origin} {pass : Pass} (hopen : key ∉ cursor.finished)
    (horigin : originOf key = .ok origin) (hpass : passAt collate call cursor key = some pass) :
    Serves call cursor pass (afterPass collate call cursor key origin).2 := by
  rw [pass_at_open hopen horigin] at hpass
  rw [← Option.some.inj hpass]
  have hpending : ∀ other, (cursor.pending.filter fun entry => entry.1 ≠ key).lookup other =
      if other = key then none else cursor.pending.lookup other := by
    intro other
    rw [lookup_filter (fun other => decide (other ≠ key))]
    by_cases hother : other = key
    · rw [if_pos hother, if_neg (by rw [decide_eq_true_iff]; exact not_not.2 hother)]
    · rw [if_neg hother, if_pos (decide_eq_true hother)]
  rcases after_pass_cases collate call cursor key origin with
    ⟨last, hvisited, hresult⟩ | ⟨-, afterId, hresult⟩
  · rw [hresult]
    refine ⟨hopen, rfl, rfl, rfl, rfl, rfl, fun other => ?_⟩
    rw [lookup_cons_eq, lookup_filter (fun other => decide (other ≠ key)), hpending]
    by_cases hother : other = key
    · rw [if_pos hother, if_pos hother]
      exact hvisited.symm
    · rw [if_neg hother, if_pos (decide_eq_true hother), if_neg hother, if_neg hother]
  · rw [hresult]
    refine ⟨hopen, rfl, rfl, rfl, rfl, rfl, fun other => ?_⟩
    rw [hpending]
    rfl

/-- A call that has more to do either ends a round with origins pending, or comes to the next
origin, which is finished or gets a pass. -/
theorem sweep_cases (h : sweepRegisteredOrigins collate call cursor = .ok (true, next)) :
    ((∀ key ∈ call.registered, ¬ cursor.origin < key) ∧ passesOf collate call cursor = [] ∧
      cursor.finishRound = (true, next)) ∨
    ∃ key ∈ call.registered, cursor.origin < key ∧
      (∀ other ∈ call.registered, cursor.origin < other → key ≤ other) ∧
      ((key ∈ cursor.finished ∧ passesOf collate call cursor = [] ∧ next = { cursor with
          visited := insert key cursor.visited, origin := key, afterId := none }) ∨
        ∃ pass origin, originOf key = .ok origin ∧ passAt collate call cursor key = some pass ∧
          passesOf collate call cursor = [pass] ∧ Serves call cursor pass next) := by
  unfold sweepRegisteredOrigins at h
  obtain ⟨_, -, h⟩ := Json.bind_eq_ok h
  rcases list_origins_cases call.registered cursor.origin with
    ⟨hlist, hnone⟩ | ⟨key, hkey, hlist, hlt, hleast⟩
  · rw [hlist] at h
    exact .inl ⟨hnone, by rw [passesOf, hlist]; rfl, Except.ok.inj h⟩
  · rw [hlist] at h
    obtain ⟨served, hserved, h⟩ := Json.bind_eq_ok h
    obtain ⟨served', hserved, hsame⟩ := Json.bind_eq_ok hserved
    have hnext : served' = next := by
      rw [Except.ok.inj hsame]
      exact congrArg Prod.snd (Except.ok.inj h)
    rw [hnext] at hserved
    refine .inr ⟨key, hkey, hlt, hleast, ?_⟩
    by_cases hfinished : key ∈ cursor.finished
    · rw [serveOrigin, enter_finished hfinished] at hserved
      refine .inl ⟨hfinished, ?_, (Except.ok.inj hserved).symm⟩
      rw [passesOf, hlist, List.filterMap_cons, passAt, enter_finished hfinished]
      rfl
    · cases horigin : originOf key with
      | error error =>
          rw [serveOrigin, enter_open hfinished, horigin] at hserved
          cases hserved
      | ok origin =>
          rw [serve_open hfinished horigin] at hserved
          have hpass : passAt collate call cursor key = some _ := pass_at_open hfinished horigin
          refine .inr ⟨_, origin, rfl, hpass, ?_, ?_⟩
          · rw [passesOf, hlist, List.filterMap_cons, hpass]
            rfl
          · rw [← Except.ok.inj hserved]
            exact pass_serves hfinished horigin hpass

/-- A call returns, however its pass ends. -/
theorem sweep_returns (hlisted : call.listed = .ok ())
    (hoids : ∀ key ∈ call.registered, 0 ≤ (ofLex key).1 ∧ (ofLex key).1 < 2 ^ 32) :
    ∃ more next, sweepRegisteredOrigins collate call cursor = .ok (more, next) := by
  unfold sweepRegisteredOrigins
  rw [hlisted]
  rcases list_origins_cases call.registered cursor.origin with
    ⟨hlist, -⟩ | ⟨key, hkey, hlist, -, -⟩
  · rw [hlist]
    exact ⟨_, _, rfl⟩
  · have hserved : ∃ next, serveOrigin collate call cursor key = .ok next := by
      by_cases hfinished : key ∈ cursor.finished
      · rw [serveOrigin, enter_finished hfinished]
        exact ⟨_, rfl⟩
      · exact ⟨_, serve_open hfinished (if_pos (hoids key hkey))⟩
    obtain ⟨next, hnext⟩ := hserved
    refine ⟨true, next, ?_⟩
    rw [hlist]
    show ([key].foldlM (serveOrigin collate call) cursor >>= fun cursor =>
      Except.ok (true, cursor)) = .ok (true, next)
    rw [List.foldlM_cons, hnext]
    rfl

/-- A page has the ids of expired instances behind the last one, in order. -/
theorem page_ids {collate : String → κ} {satellite : Satellite τ}
    (hcollate : Function.Injective collate) (hids : (satellite.rows.map (·.id)).Nodup)
    {afterId : Option String} {candidates : List OriginRetentionCandidate}
    (h : pageOf collate satellite afterId = some candidates) :
    candidates.map (·.id) = ((Sweep.expiredNames (·.id) collate
      (isExpired collate satellite.cutoff terminalInstanceMaxKeep) satellite.rows).filter
        (behindId collate afterId)).take reclaimBatch ∧
    (candidates.map (·.id)).Pairwise (fun first second => collate first < collate second) ∧
    ∀ id ∈ candidates.map (·.id), (∀ last ∈ afterId, collate last < collate id) ∧
      ∃ row ∈ satellite.rows, row.id = id ∧
        isExpired collate satellite.cutoff terminalInstanceMaxKeep satellite.rows row = true := by
  have hselect : originRetentionCandidates collate satellite.rows satellite.cutoff afterId
      terminalInstanceMaxKeep reclaimBatch = .ok candidates := by
    unfold pageOf at h
    cases hread : satellite.read with
    | failed error =>
        rw [hread] at h
        cases h
    | timedOut =>
        rw [hread] at h
        cases h
    | ok =>
        rw [hread] at h
        cases hfound : originRetentionCandidates collate satellite.rows satellite.cutoff afterId
          terminalInstanceMaxKeep reclaimBatch with
        | error error =>
            rw [hfound] at h
            cases h
        | ok found =>
            rw [hfound] at h
            rw [Option.some.inj h]
  rw [candidates_eq hcollate hids hselect]
  refine ⟨rfl, ?_⟩
  rw [Sweep.expiredPage]
  have hlt := order_by_lt (Sweep.expired_keys_nodup
    (isExpired collate satellite.cutoff terminalInstanceMaxKeep) hcollate hids)
  refine ⟨(hlt.filter _).sublist (List.take_sublist _ _), fun id hid => ?_⟩
  obtain ⟨hid, hbehind⟩ := List.mem_filter.1 (List.mem_of_mem_take hid)
  rw [(order_by_perm _ _).mem_iff] at hid
  obtain ⟨row, hrow, rfl⟩ := List.mem_map.1 hid
  obtain ⟨hrow, hexpired⟩ := List.mem_filter.1 hrow
  refine ⟨fun last hlast => ?_, row, hrow, rfl, hexpired⟩
  rw [Option.mem_def.1 hlast] at hbehind
  exact of_decide_eq_true hbehind

/-- What a pass comes to. -/
structure PassFacts (collate : OriginKey → String → κ) (expired : OriginKey → Finset String)
    (pass : Pass) : Prop where
  increasing : pass.visited.Pairwise fun first second =>
    collate pass.origin first < collate pass.origin second
  behind : ∀ last ∈ pass.previous, ∀ id ∈ pass.visited,
    collate pass.origin last < collate pass.origin id
  expired : ∀ id ∈ pass.visited, id ∈ expired pass.origin
  page : ∀ page ∈ pass.page, pass.visited <+: page ∧ page =
    (pass.expired.filter (behindId (collate pass.origin) pass.previous)).take reclaimBatch
  moved : pass.finished = false → pass.visited ≠ []
  stopped : pass.finished = true →
    pass.visited = [] ∨ ∃ page ∈ pass.page, page.length < reclaimBatch

theorem pass_facts {expired : OriginKey → Finset String} {origin : Origin} {pass : Pass}
    (hcollate : ∀ key, Function.Injective (collate key))
    (hids : ((call.satellite origin).rows.map (·.id)).Nodup)
    (hexpired : ∀ row ∈ (call.satellite origin).rows,
      isExpired (collate key) (call.satellite origin).cutoff terminalInstanceMaxKeep
        (call.satellite origin).rows row = true → row.id ∈ expired key)
    (hopen : key ∉ cursor.finished) (horigin : originOf key = .ok origin)
    (hpass : passAt collate call cursor key = some pass) : PassFacts collate expired pass := by
  rw [pass_at_open hopen horigin] at hpass
  rw [← Option.some.inj hpass]
  have hmoves := after_pass_cases collate call cursor key origin
  have hlast := retire_instances_last (collate key) (call.satellite origin)
    (cursor.pending.lookup key)
  have hmoved : (!(afterPass collate call cursor key origin).1) = false →
      comesTo collate call cursor key origin ≠ [] := by
    intro hfinished
    rcases hmoves with ⟨last, hvisited, -⟩ | ⟨-, afterId, hresult⟩
    · intro hnil
      rw [hnil] at hvisited
      cases hvisited
    · rw [hresult] at hfinished
      cases hfinished
  have hstays : (!(afterPass collate call cursor key origin).1) = true →
      (retireOriginInstances (collate key) (call.satellite origin)
        (cursor.pending.lookup key)).2 = none ∨
      (retireOriginInstances (collate key) (call.satellite origin)
        (cursor.pending.lookup key)).2 = cursor.pending.lookup key := by
    intro hfinished
    rcases hmoves with ⟨last, -, hresult⟩ | ⟨hstays, -⟩
    · rw [hresult] at hfinished
      cases hfinished
    · exact hstays
  cases hread : pageOf (collate key) (call.satellite origin) (cursor.pending.lookup key) with
  | none =>
      have hnone : comesTo collate call cursor key origin = [] := by
        rw [comesTo, hread]
        rfl
      rw [hnone] at hmoved ⊢
      exact ⟨.nil, fun _ _ _ h => absurd h List.not_mem_nil, fun _ h => absurd h List.not_mem_nil,
        fun _ hnone => (by cases hnone), hmoved, fun _ => .inl rfl⟩
  | some candidates =>
      obtain ⟨hpage, hsorted, hids'⟩ := page_ids (hcollate key) hids hread
      have hinitial : comesTo collate call cursor key origin <+: candidates.map (·.id) := by
        rw [comesTo, hread]
        exact visited_prefix _ _ _
      have hmem := fun id hid => hids' id (hinitial.subset hid)
      refine ⟨hsorted.sublist hinitial.sublist, fun last hlast id hid => (hmem id hid).1 last hlast,
        fun id hid => ?_, fun page hsame => ?_, hmoved, fun hfinished => ?_⟩
      · obtain ⟨-, row, hrow, rfl, hexpired'⟩ := hmem id hid
        exact hexpired row hrow hexpired'
      · rw [← Option.some.inj hsame]
        exact ⟨hinitial, hpage⟩
      · rw [hread] at hlast
        rcases hlast with hlast | ⟨-, hshort⟩
        · -- A pass that has come to a candidate has moved the cursor.
          refine .inl ?_
          have hvisited : (comesTo collate call cursor key origin).getLast? = none ∨
              (comesTo collate call cursor key origin).getLast? = cursor.pending.lookup key := by
            have hsame : (comesTo collate call cursor key origin).getLast? =
                (visitedOf terminalInstanceMaxKeep (call.satellite origin).retire
                  candidates).getLast? := by
              rw [comesTo, hread]
              rfl
            rw [hsame, ← hlast]
            exact hstays hfinished
          rcases hvisited with hnone | hprevious
          · exact List.getLast?_eq_none_iff.1 hnone
          · cases hlookup : cursor.pending.lookup key with
            | none => exact List.getLast?_eq_none_iff.1 (hprevious.trans hlookup)
            | some last =>
                rw [hlookup] at hprevious
                have hself := (hmem last (List.mem_of_getLast? hprevious)).1 last hlookup
                exact absurd hself (lt_irrefl _)
        · have hlength : (candidates.map (·.id)).length ≤ reclaimBatch := by
            rw [hpage]
            exact List.length_take_le _ _
          refine .inr ⟨_, rfl, lt_of_le_of_ne hlength ?_⟩
          rw [List.length_map]
          exact hshort

end PgDurable.Retention
