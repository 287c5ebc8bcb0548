import PgDurable.Graph.References

/-!
# References in raw contexts

URLs, headers, bodies and multipart fields are substituted without SQL quoting, and nothing parses
them afterwards: what a reference leaves there goes over the wire. `ComputedFrom` lists what may be
inserted for a reference. `raw_references_computed_iff` says when nothing else is: a null-safe
column that its result lacks is echoed, as `absent_field_is_echoed` shows.
-/

namespace PgDurable

open Json Text

/-- The rows of a result. -/
def rowsOf (json : String) : Option (List Value) :=
  ((parse json).bind (Value.get? "rows")).bind Value.asArray

/-- The fields of a result: those of its first row, or its own if it has no rows. -/
def fieldsOf (json : String) : Option (List (String × Value)) :=
  match rowsOf json with
  | some rows => rows.head?.bind Value.asObject
  | none => (parse json).bind Value.asObject

/-- Texts that are computed from the result of a reference. -/
inductive ComputedFrom (json : String) : ReferenceForm → String → Prop
  | rows {rows : List Value} (hrows : rowsOf json = some rows) :
      ComputedFrom json .rowSet (print (.array rows))
  | field {col : String} {nullSafe : Bool} {fields : List (String × Value)} {value : Value}
      (hfields : fieldsOf json = some fields) (hvalue : fields.lookup col = some value) :
      ComputedFrom json (.column col nullSafe) (formatValue value none)
  | firstColumn {nullSafe : Bool} {fields : List (String × Value)} {col : String} {value : Value}
      (hrows : rowsOf json ≠ none) (hfields : fieldsOf json = some ((col, value) :: fields)) :
      ComputedFrom json (.scalar nullSafe) (formatValue value none)
  | whole {nullSafe : Bool} (hrows : rowsOf json = none) :
      ComputedFrom json (.scalar nullSafe) json
  | nullColumn (col : String) : ComputedFrom json (.column col true) "NULL"
  | nullScalar : ComputedFrom json (.scalar true) "NULL"

/-- A null-safe reference to a column that its result, an object or with an object as its first
row, does not have. -/
def Reference.Absent (json : String) (reference : Reference) : Prop :=
  ∃ col fields, reference.form = .column col true ∧ fieldsOf json = some fields ∧
    fields.lookup col = none

/-- The text of a column, read from the fields of a result. -/
def columnText (name col : String) (nullSafe : Bool) (sqlQuoting : Option SqlQuotingVersion)
    (fields : List (String × Value)) : Except String String :=
  (fields.lookup col).elim
    (if sqlQuoting.isNone && !nullSafe then
      throw ("$" ++ name ++ "." ++ col ++ ": result has no field '" ++ col ++ "' (available: " ++
        String.intercalate ", " ((fields.map (·.1)).mergeSort fun a b => compare a b != .gt) ++ ")")
    else pure ("$" ++ name ++ "." ++ col ++ if nullSafe then "?" else ""))
    fun field =>
      if field.isNull then
        if nullSafe then pure "NULL" else throw ("$" ++ name ++ "." ++ col ++ " is NULL")
      else pure (formatValue field sqlQuoting)

/-- A column is read from the fields of its result, if it has any; else it is null, or fails. -/
theorem extract_column_reads (name json col : String) (nullSafe : Bool)
    (sqlQuoting : Option SqlQuotingVersion) :
    (∃ fields, fieldsOf json = some fields ∧
      extractColumnValue name json col nullSafe sqlQuoting =
        columnText name col nullSafe sqlQuoting fields) ∨
    fieldsOf json = none ∧
      (nullSafe = true ∧ extractColumnValue name json col nullSafe sqlQuoting = .ok "NULL" ∨
        ∃ message, extractColumnValue name json col nullSafe sqlQuoting = .error message) := by
  unfold extractColumnValue
  cases hparse : parse json with
  | none =>
      refine Or.inr ⟨?_, Or.inr ⟨_, rfl⟩⟩
      rw [fieldsOf, rowsOf, hparse]
      rfl
  | some value =>
      have hrows : rowsOf json = (value.get? "rows").bind Value.asArray := by
        rw [rowsOf, hparse]
        rfl
      cases hcase : (value.get? "rows").bind Value.asArray with
      | none =>
          have hfields : fieldsOf json = value.asObject := by
            rw [fieldsOf, hrows, hcase, hparse]
            rfl
          cases hobject : value.asObject with
          | none =>
              simp only [hcase, hobject]
              exact Or.inr ⟨hfields.trans hobject, Or.inr ⟨_, rfl⟩⟩
          | some fields =>
              simp only [hcase, hobject, pure_bind]
              refine Or.inl ⟨fields, hfields.trans hobject, ?_⟩
              unfold columnText
              cases fields.lookup col <;> rfl
      | some rows =>
          cases rows with
          | nil =>
              have hfields : fieldsOf json = none := by
                rw [fieldsOf, hrows, hcase]
                rfl
              simp only [hcase]
              refine Or.inr ⟨hfields, ?_⟩
              cases nullSafe with
              | false => exact Or.inr ⟨_, rfl⟩
              | true => exact Or.inl ⟨rfl, rfl⟩
          | cons row rows =>
              have hfields : fieldsOf json = row.asObject := by
                rw [fieldsOf, hrows, hcase]
                rfl
              cases hobject : row.asObject with
              | none =>
                  simp only [hcase, hobject]
                  exact Or.inr ⟨hfields.trans hobject, Or.inr ⟨_, rfl⟩⟩
              | some fields =>
                  simp only [hcase, hobject, pure_bind]
                  refine Or.inl ⟨fields, hfields.trans hobject, ?_⟩
                  unfold columnText
                  cases fields.lookup col <;> rfl

/-- The value of a strict or null-safe column. -/
theorem extract_column_computed {name json col : String} {nullSafe : Bool} {text : String}
    (h : extractColumnValue name json col nullSafe none = .ok text) :
    ComputedFrom json (.column col nullSafe) text ∨
      nullSafe = true ∧ text = "$" ++ name ++ "." ++ col ++ "?" ∧
        ∃ fields, fieldsOf json = some fields ∧ fields.lookup col = none := by
  rcases extract_column_reads name json col nullSafe none with
    ⟨fields, hfields, hread⟩ | ⟨-, ⟨rfl, hnull⟩ | ⟨message, hfails⟩⟩
  · rw [hread] at h
    unfold columnText at h
    cases hvalue : fields.lookup col with
    | none =>
        rw [hvalue] at h
        cases nullSafe with
        | false => cases h
        | true =>
            cases h
            exact Or.inr ⟨rfl, rfl, fields, hfields, hvalue⟩
    | some value =>
        rw [hvalue] at h
        dsimp only [Option.elim_some] at h
        split_ifs at h with hnull hsafe
        · cases h
          subst hsafe
          exact Or.inl (.nullColumn col)
        · cases h
          exact Or.inl (.field hfields hvalue)
  · rw [hnull] at h
    cases h
    exact Or.inl (.nullColumn col)
  · rw [hfails] at h
    cases h

/-- The value of a bare name. -/
theorem extract_first_column_computed {name json : String} {nullSafe : Bool} {text : String}
    (h : extractFirstColumnValue name json nullSafe none = .ok text) :
    ComputedFrom json (.scalar nullSafe) text := by
  unfold extractFirstColumnValue at h
  cases hparse : parse json with
  | none =>
      rw [hparse] at h
      cases h
      refine .whole ?_
      rw [rowsOf, hparse]
      rfl
  | some value =>
      have hrows : rowsOf json = (value.get? "rows").bind Value.asArray := by
        rw [rowsOf, hparse]
        rfl
      rw [hparse] at h
      cases hcase : (value.get? "rows").bind Value.asArray with
      | none =>
          simp only [hcase] at h
          cases h
          exact .whole (hrows.trans hcase)
      | some rows =>
          cases rows with
          | nil =>
              simp only [hcase] at h
              split_ifs at h with hsafe
              cases h
              subst hsafe
              exact .nullScalar
          | cons row rows =>
              simp only [hcase] at h
              rcases hobject : row.asObject with _ | _ | ⟨⟨col, first⟩, fields⟩
              · rw [hobject] at h
                cases h
              · rw [hobject] at h
                cases h
              · rw [hobject] at h
                dsimp only at h
                split_ifs at h with hnull hsafe
                · cases h
                  subst hsafe
                  exact .nullScalar
                · cases h
                  refine @ComputedFrom.firstColumn json nullSafe fields col first ?_ ?_
                  · rw [hrows, hcase]
                    exact Option.some_ne_none _
                  · rw [fieldsOf, hrows, hcase]
                    exact hobject

/-- The value of a row set. -/
theorem expand_row_set_computed {name json text : String}
    (h : expandRowSet name json none = .ok text) : ComputedFrom json .rowSet text := by
  unfold expandRowSet fromStr at h
  cases hparse : parse json with
  | none =>
      rw [hparse] at h
      cases h
  | some value =>
      have hrows : rowsOf json = (value.get? "rows").bind Value.asArray := by
        rw [rowsOf, hparse]
        rfl
      rw [hparse] at h
      cases hcase : (value.get? "rows").bind Value.asArray with
      | none =>
          simp only [Except.mapError, bind, Except.bind, hcase] at h
          cases h
      | some rows =>
          simp only [Except.mapError, bind, Except.bind, hcase] at h
          split_ifs at h with hlong
          cases h
          exact .rows (hrows.trans hcase)

/-- A null-safe column that the result lacks is echoed. -/
theorem absent_column_echoed {name json col : String} {fields : List (String × Value)}
    (hfields : fieldsOf json = some fields) (hvalue : fields.lookup col = none) :
    extractColumnValue name json col true none = .ok ("$" ++ name ++ "." ++ col ++ "?") := by
  rcases extract_column_reads name json col true none with
    ⟨other, hother, hread⟩ | ⟨hnone, -⟩
  · rw [hfields, Option.some.injEq] at hother
    subst hother
    rw [hread, columnText, hvalue]
    rfl
  · rw [hfields] at hnone
    cases hnone

/-- What replaces a reference is computed from its result, unless it is a null-safe column that the
result lacks. -/
theorem replacement_computed_iff {reference : Reference} {json text : String}
    (h : reference.replacement json none = .ok text) :
    ComputedFrom json reference.form text ↔ ¬ reference.Absent json := by
  obtain ⟨name, form⟩ := reference
  cases form with
  | rowSet =>
      refine iff_of_true (expand_row_set_computed h) ?_
      rintro ⟨col, fields, hform, -⟩
      cases hform
  | scalar nullSafe =>
      refine iff_of_true (extract_first_column_computed h) ?_
      rintro ⟨col, fields, hform, -⟩
      cases hform
  | column col nullSafe =>
      constructor
      · rintro hcomputed ⟨col', fields, hform, hfields, hvalue⟩
        cases hform
        cases hcomputed with
        | field hfields' hvalue' =>
            rw [hfields] at hfields'
            cases hfields'
            rw [hvalue] at hvalue'
            cases hvalue'
        | nullColumn =>
            have hecho := h.symm.trans (absent_column_echoed hfields hvalue)
            have hfirst := congrArg (fun text => text.toList.head?) (Except.ok.inj hecho)
            simp at hfirst
      · intro hnot
        refine (extract_column_computed h).resolve_right ?_
        rintro ⟨rfl, -, fields, hfields, hvalue⟩
        exact hnot ⟨col, fields, rfl, hfields, hvalue⟩

/-! ## Whole texts -/

/-- The references that a raw substitution resolves. -/
def rawReferences (query : String) (results vars : StringMap) (sysVars : SystemVars) :
    List Reference :=
  references (resolvedReference (longestFirst results.keys))
    (substituteBracedVariables query vars sysVars).toList

/-- A raw substitution fails if one of its references cannot be replaced. -/
theorem substitute_all_raw_fails_iff (query : String) (results vars : StringMap)
    (sysVars : SystemVars) :
    (∃ error, substituteAllRaw query results vars sysVars = .error error) ↔
      ∃ reference ∈ rawReferences query results vars sysVars,
        reference.replaceable results none = false := by
  have hpieces := substitute_results_pieces (substituteBracedVariables query vars sysVars) results
    none
  have hfails : (∃ error, substituteAllRaw query results vars sysVars = .error error) ↔
      ∃ error, substitutePieces results none (pieces (resolvedReference (longestFirst results.keys))
        (substituteBracedVariables query vars sysVars).toList) = .error error := by
    rw [substituteAllRaw, substituteAllWithOptions, hpieces]
    cases substitutePieces results none (pieces (resolvedReference (longestFirst results.keys))
        (substituteBracedVariables query vars sysVars).toList) <;> simp [Except.map]
  rw [hfails]
  constructor
  · rintro ⟨error, herror⟩
    obtain ⟨reference, hfirst, -⟩ := (substitute_pieces_error results none _ error).1 herror
    have hfound := List.find?_some hfirst
    exact ⟨reference, List.mem_of_find?_eq_some hfirst, by simpa using hfound⟩
  · rintro ⟨reference, hmem, hreplaceable⟩
    have hsome := (@List.find?_isSome _ (rawReferences query results vars sysVars)
      (fun reference => !reference.replaceable results none)).2
        ⟨reference, hmem, by simpa using hreplaceable⟩
    obtain ⟨first, hfirst⟩ := Option.isSome_iff_exists.1 hsome
    have hfound := List.find?_some hfirst
    cases hreplacement : first.replacement (results.getD first.name "") none with
    | ok text =>
        rw [Reference.replaceable, hreplacement] at hfound
        cases hfound
    | error error =>
        exact ⟨error, (substitute_pieces_error results none _ error).2 ⟨first, hfirst, hreplacement⟩⟩

/-- A raw substitution fails, or computes everything it inserts for a reference from the result of
that reference. -/
def RawComputed (query : String) (results vars : StringMap) (sysVars : SystemVars) : Prop :=
  (∃ error, substituteAllRaw query results vars sysVars = .error error) ∨
    ∀ reference ∈ rawReferences query results vars sysVars, ∃ text,
      reference.replacement (results.getD reference.name "") none = .ok text ∧
        ComputedFrom (results.getD reference.name "") reference.form text

/-- Everything is computed exactly if some reference cannot be replaced, or none is a null-safe
column that its result lacks. -/
theorem raw_references_computed_iff (query : String) (results vars : StringMap)
    (sysVars : SystemVars) :
    RawComputed query results vars sysVars ↔
      (∃ reference ∈ rawReferences query results vars sysVars,
        reference.replaceable results none = false) ∨
      ∀ reference ∈ rawReferences query results vars sysVars,
        ¬ reference.Absent (results.getD reference.name "") := by
  unfold RawComputed
  rw [substitute_all_raw_fails_iff]
  by_cases hfails : ∃ reference ∈ rawReferences query results vars sysVars,
      reference.replaceable results none = false
  · exact iff_of_true (Or.inl hfails) (Or.inl hfails)
  · rw [or_iff_right hfails, or_iff_right hfails]
    refine forall₂_congr fun reference hmem => ?_
    cases hreplacement : reference.replacement (results.getD reference.name "") none with
    | error error =>
        refine absurd ?_ hfails
        refine ⟨reference, hmem, ?_⟩
        rw [Reference.replaceable, hreplacement]
        rfl
    | ok text =>
        rw [← replacement_computed_iff hreplacement]
        simp

/-- The named results after a request whose response has no page to follow. -/
def lastPage : StringMap := (∅ : StringMap).insert "resp" "\x7b\"status\":200,\"ok\":true\x7d"

/-- A null-safe reference to a field that a response lacks goes over the wire as it is written. -/
theorem absent_field_is_echoed :
    substituteAllRaw "/items?after=$resp.next?" lastPage ∅ ⟨"aaaaaaaa", none⟩ =
        .ok "/items?after=$resp.next?" ∧
      ¬ RawComputed "/items?after=$resp.next?" lastPage ∅ ⟨"aaaaaaaa", none⟩ := by
  have hsubstitute : substituteAllRaw "/items?after=$resp.next?" lastPage ∅ ⟨"aaaaaaaa", none⟩ =
      .ok "/items?after=$resp.next?" := by decide +kernel
  refine ⟨hsubstitute, ?_⟩
  rintro (⟨error, herror⟩ | hcomputed)
  · rw [hsubstitute] at herror
    cases herror
  · have hmem : ⟨"resp", .column "next" true⟩ ∈
        rawReferences "/items?after=$resp.next?" lastPage ∅ ⟨"aaaaaaaa", none⟩ := by
      decide +kernel
    obtain ⟨text, htext, hfrom⟩ := hcomputed _ hmem
    have hlacks : (fieldsOf (lastPage.getD "resp" "")).any
        (fun fields => (fields.lookup "next").isNone) = true := by decide +kernel
    obtain ⟨fields, hfields, hnone⟩ := (Option.any_eq_true _ _).1 hlacks
    exact (replacement_computed_iff htext).1 hfrom
      ⟨_, fields, rfl, hfields, Option.isNone_iff_eq_none.1 hnone⟩

end PgDurable
