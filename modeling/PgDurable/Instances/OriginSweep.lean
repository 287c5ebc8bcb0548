import Mathlib.Data.Finset.Basic
import PgDurable.Instances.Origin
import PgDurable.Instances.Retention

/-!
# Sweeping the registered origins

Retention visits the origin databases one after the other, a page of expired instances at a time.
`OriginRetentionCursor` keeps how far it has come. A pass over an origin may fail or time out
anywhere in its page, and leaves the cursor at the last candidate that it came to
(`retire_instances_last`). `sweepRegisteredOrigins` serves the next origin or ends a round.
-/

namespace PgDurable.Retention

open Instances Keyset

/-! ## Limits -/

def originBatch : Nat := 1

def reclaimBatch : Nat := 1000

def terminalInstanceMaxKeep : Nat := 10000

/-! ## The cursor -/

/-- The key of `_origins`: a database and an installation. -/
abbrev OriginKey := Int ×ₗ Fin (2 ^ 128)

/-- Before every origin: no database, the nil installation. -/
def noOrigin : OriginKey := toLex (0, 0)

structure OriginRetentionCursor where
  origin : OriginKey
  afterId : Option String
  pending : List (OriginKey × String)
  visited : Finset OriginKey
  finished : Finset OriginKey

/-- The cursor at the start of a cycle. -/
def OriginRetentionCursor.default : OriginRetentionCursor := ⟨noOrigin, none, [], ∅, ∅⟩

namespace OriginRetentionCursor

/-- Come to an origin; there is nothing to do at a finished one. -/
def enter (cursor : OriginRetentionCursor) (origin : OriginKey) : Bool × OriginRetentionCursor :=
  let entered := { cursor with
    visited := insert origin cursor.visited, origin := origin, afterId := none }
  if origin ∈ cursor.finished then (false, entered)
  else (true, { entered with
    afterId := cursor.pending.lookup origin
    pending := cursor.pending.filter fun entry => entry.1 ≠ origin })

/-- Keep the origin pending if the pass has moved on, else mark it finished. -/
def resumeAfterPass (cursor : OriginRetentionCursor) (previousId : Option String) :
    Bool × OriginRetentionCursor :=
  match cursor.afterId with
  | some last =>
      if some last ≠ previousId then
        (true, { cursor with
          afterId := none
          pending := (cursor.origin, last) ::
            cursor.pending.filter fun entry => entry.1 ≠ cursor.origin })
      else (false, { cursor with
        afterId := none, finished := insert cursor.origin cursor.finished })
  | none => (false, { cursor with finished := insert cursor.origin cursor.finished })

/-- Start the next round with the pending origins that were there in this one. -/
def finishRound (cursor : OriginRetentionCursor) : Bool × OriginRetentionCursor :=
  let pending := cursor.pending.filter fun entry => entry.1 ∈ cursor.visited
  (!pending.isEmpty, { cursor with
    origin := noOrigin, afterId := none, pending := pending, visited := ∅ })

end OriginRetentionCursor

/-! ## A pass over an origin -/

/-- How an operation ends. -/
inductive Attempt where
  | ok
  | failed (error : String)
  | timedOut
  deriving DecidableEq

/-- What a pass finds at an origin: whether its instances are read, what they are, where the window
starts, and how retiring one of them ends. -/
structure Satellite (τ : Type) where
  read : Attempt
  rows : List (InstanceRow τ)
  cutoff : τ
  retire : String → Attempt

/-- Retire the candidates one after the other, with the cursor at the last one that was come to. -/
def retireEach (maxKeep : Int) (retire : String → Attempt) :
    List OriginRetentionCandidate → Option String → Attempt × Option String
  | [], afterId => (.ok, afterId)
  | candidate :: candidates, _ =>
      let afterId := some candidate.id
      if candidate.isExpired maxKeep then
        match retire candidate.id with
        | .ok => retireEach maxKeep retire candidates afterId
        | other => (other, afterId)
      else retireEach maxKeep retire candidates afterId

def retireOriginCandidates (candidates : List OriginRetentionCandidate) (afterId : Option String)
    (maxKeep : Int) (retire : String → Attempt) : Attempt × Option String :=
  retireEach maxKeep retire candidates (if candidates.isEmpty then none else afterId)

section Pass

variable {τ κ : Type} [LinearOrder τ] [LinearOrder κ] (collate : String → κ)

/-- A pass over an origin, from the cursor on. -/
def retireOriginInstances (satellite : Satellite τ) (afterId : Option String) :
    Attempt × Option String :=
  match satellite.read with
  | .ok =>
      match originRetentionCandidates collate satellite.rows satellite.cutoff afterId
        terminalInstanceMaxKeep reclaimBatch with
      | .error error => (.failed error, afterId)
      | .ok candidates =>
          let fullPage := candidates.length = reclaimBatch
          match retireOriginCandidates candidates afterId terminalInstanceMaxKeep
            satellite.retire with
          | (.ok, last) => (.ok, if fullPage then last else none)
          | failure => failure
  | other => (other, afterId)

/-- The page that a pass reads, if it does. -/
def pageOf (satellite : Satellite τ) (afterId : Option String) :
    Option (List OriginRetentionCandidate) :=
  match satellite.read with
  | .ok => (originRetentionCandidates collate satellite.rows satellite.cutoff afterId
      terminalInstanceMaxKeep reclaimBatch).toOption
  | _ => none

/-- The candidates that a pass comes to, up to the one where it fails. -/
def visitedOf (maxKeep : Int) (retire : String → Attempt) :
    List OriginRetentionCandidate → List String
  | [] => []
  | candidate :: candidates =>
      if candidate.isExpired maxKeep && retire candidate.id != .ok then [candidate.id]
      else candidate.id :: visitedOf maxKeep retire candidates

end Pass

/-! ## A call of the sweep -/

/-- `u32::try_from(database_oid)`. -/
def originOf (key : OriginKey) : Except String Origin :=
  if 0 ≤ (ofLex key).1 ∧ (ofLex key).1 < 2 ^ 32 then
    .ok ⟨UInt32.ofNat (ofLex key).1.toNat, BitVec.ofFin (ofLex key).2⟩
  else .error "Invalid registered database OID"

/-- The registered origins behind the cursor, a page of them. -/
def listOrigins (registered : List OriginKey) (after : OriginKey) : List OriginKey :=
  (orderBy id (registered.filter (after < ·))).take originBatch

/-- What a call of the sweep finds: whether the registrations are listed, the registered origins,
and the satellites. -/
structure Call (τ : Type) where
  listed : Except String Unit
  registered : List OriginKey
  satellite : Origin → Satellite τ

section Sweep

variable {τ κ : Type} [LinearOrder τ] [LinearOrder κ] (collate : OriginKey → String → κ)

/-- Serve an origin of the page. -/
def serveOrigin (call : Call τ) (cursor : OriginRetentionCursor) (key : OriginKey) :
    Except String OriginRetentionCursor :=
  match cursor.enter key with
  | (false, cursor) => .ok cursor
  | (true, cursor) => do
      let origin ← originOf key
      let previousId := cursor.afterId
      let pass := retireOriginInstances (collate key) (call.satellite origin) previousId
      return ({ cursor with afterId := pass.2 }.resumeAfterPass previousId).2

/-- Serve the next registered origins, or end the round; `true` while there is more to do. -/
def sweepRegisteredOrigins (call : Call τ) (cursor : OriginRetentionCursor) :
    Except String (Bool × OriginRetentionCursor) := do
  call.listed
  match listOrigins call.registered cursor.origin with
  | [] => return cursor.finishRound
  | origins => do
      let cursor ← origins.foldlM (serveOrigin collate call) cursor
      return (true, cursor)

end Sweep

/-! ## What a pass does -/

section PassSpec

variable {τ κ : Type} [LinearOrder τ] [LinearOrder κ] {collate : String → κ}

/-- The candidates are a page of the expired instances behind the cursor, and all of them count as
expired. -/
theorem candidates_eq (hcollate : Function.Injective collate) {rows : List (InstanceRow τ)}
    (hids : (rows.map (·.id)).Nodup) {cutoff : τ} {maxKeep : Nat} {afterId : Option String}
    {limit : Nat} {candidates : List OriginRetentionCandidate}
    (h : originRetentionCandidates collate rows cutoff afterId maxKeep limit = .ok candidates) :
    candidates.map (·.id) =
      Sweep.expiredPage (·.id) collate (isExpired collate cutoff maxKeep) limit rows afterId := by
  have hall : ∀ candidate ∈ candidates, candidate.isExpired maxKeep = true := by
    unfold originRetentionCandidates at h
    cases hrank : int8Add maxKeep 1 with
    | error error =>
        rw [hrank] at h
        cases h
    | ok rank =>
        rw [hrank] at h
        unfold int8Add at hrank
        split at hrank
        · intro candidate hcandidate
          rw [← Except.ok.inj h] at hcandidate
          obtain ⟨id, -, rfl⟩ := List.mem_map.1 hcandidate
          rw [OriginRetentionCandidate.isExpired, ← Except.ok.inj hrank]
          simp
        · cases hrank
  have hretired := origin_candidates_eq hcollate hids cutoff maxKeep afterId limit
  rw [h] at hretired
  split at hretired
  · rw [← Except.ok.inj hretired, retiredIds, List.filter_eq_self.2 hall]
  · cases hretired

theorem visited_prefix (maxKeep : Int) (retire : String → Attempt)
    (candidates : List OriginRetentionCandidate) :
    visitedOf maxKeep retire candidates <+: candidates.map (·.id) := by
  induction candidates with
  | nil => exact List.prefix_refl _
  | cons candidate candidates ih =>
      rw [visitedOf, List.map_cons]
      split
      · exact List.cons_prefix_cons.2 ⟨rfl, List.nil_prefix⟩
      · exact List.cons_prefix_cons.2 ⟨rfl, ih⟩

/-- The cursor is left at the last candidate that was come to. -/
theorem retire_each_last (maxKeep : Int) (retire : String → Attempt)
    (candidates : List OriginRetentionCandidate) (afterId : Option String) :
    (retireEach maxKeep retire candidates afterId).2 =
      (visitedOf maxKeep retire candidates).getLast?.or afterId := by
  induction candidates generalizing afterId with
  | nil => rfl
  | cons candidate candidates ih =>
      have hrest : (candidate.id :: visitedOf maxKeep retire candidates).getLast?.or afterId =
          (visitedOf maxKeep retire candidates).getLast?.or (some candidate.id) := by
        rw [List.getLast?_cons]
        cases (visitedOf maxKeep retire candidates).getLast? <;> rfl
      rw [retireEach, visitedOf]
      cases hexpired : candidate.isExpired maxKeep with
      | false =>
          rw [if_neg Bool.false_ne_true, Bool.false_and, if_neg Bool.false_ne_true, hrest]
          exact ih _
      | true =>
          rw [if_pos rfl, Bool.true_and]
          cases hretire : retire candidate.id with
          | ok =>
              rw [if_neg (by decide), hrest]
              exact ih _
          | failed error => rfl
          | timedOut => rfl

/-- A pass leaves the cursor where it was if it reads no page, and else at the last candidate that
it came to, or at none after a page that is not full. -/
theorem retire_instances_last (collate : String → κ) (satellite : Satellite τ)
    (afterId : Option String) :
    match pageOf collate satellite afterId with
    | none => (retireOriginInstances collate satellite afterId).2 = afterId
    | some candidates =>
        (retireOriginInstances collate satellite afterId).2 =
          (visitedOf terminalInstanceMaxKeep satellite.retire candidates).getLast? ∨
        (retireOriginInstances collate satellite afterId).2 = none ∧
          candidates.length ≠ reclaimBatch := by
  unfold pageOf retireOriginInstances
  cases satellite.read with
  | failed error => rfl
  | timedOut => rfl
  | ok =>
      cases originRetentionCandidates collate satellite.rows satellite.cutoff afterId
        terminalInstanceMaxKeep reclaimBatch with
      | error error => rfl
      | ok candidates =>
          have hlast : (retireOriginCandidates candidates afterId terminalInstanceMaxKeep
              satellite.retire).2 =
              (visitedOf terminalInstanceMaxKeep satellite.retire candidates).getLast? := by
            rw [retireOriginCandidates, retire_each_last]
            cases candidates with
            | nil => rfl
            | cons candidate candidates =>
                have hne : visitedOf terminalInstanceMaxKeep satellite.retire
                    (candidate :: candidates) ≠ [] := by
                  rw [visitedOf]
                  split
                  · exact List.cons_ne_nil _ _
                  · exact List.cons_ne_nil _ _
                obtain ⟨last, hlast⟩ := Option.ne_none_iff_exists'.1
                  (mt List.getLast?_eq_none_iff.1 hne)
                rw [hlast]
                rfl
          cases hpass : retireOriginCandidates candidates afterId terminalInstanceMaxKeep
            satellite.retire with
          | mk result last =>
              rw [hpass] at hlast
              simp only [hpass]
              cases result with
              | ok =>
                  by_cases hfull : candidates.length = reclaimBatch
                  · exact .inl ((if_pos hfull).trans hlast)
                  · exact .inr ⟨if_neg hfull, hfull⟩
              | failed error => exact .inl hlast
              | timedOut => exact .inl hlast

end PassSpec

end PgDurable.Retention
