import PgDurable.Graph.HttpConfig

/-!
# The error texts of the graph's helpers

Errors of the helpers become failures of a node, and a failure crosses orchestration boundaries as
its bare text. `Plain` texts cannot be mistaken for JSON objects or arrays; every error of the
substitution and of the request configuration is plain.
-/

namespace PgDurable

open Json

/-- The text starts with a character that is no white space and opens no JSON object or array. -/
def Plain (message : String) : Prop :=
  message.toList.head?.any (fun c => !isSpace c && c != '\x7b' && c != '[') = true

instance (message : String) : Decidable (Plain message) :=
  inferInstanceAs (Decidable (_ = true))

/-- A plain text stays plain when something follows. -/
theorem Plain.append {text : String} (h : Plain text) (rest : String) : Plain (text ++ rest) := by
  unfold Plain at h ⊢
  rw [String.toList_append, List.head?_append]
  cases hhead : text.toList.head? with
  | none => simp [hhead] at h
  | some c => simpa [hhead] using h

/-- All errors are plain. -/
def ErrorsPlain {α : Type} (outcome : Except String α) : Prop :=
  ∀ message, outcome = .error message → Plain message

section ErrorsPlain

variable {α β : Type}

theorem errors_plain_ok (value : α) : ErrorsPlain (.ok value) := by
  rintro message ⟨⟩

theorem errors_plain_error {message : String} (h : Plain message) :
    ErrorsPlain (.error message : Except String α) := by
  rintro _ ⟨⟩
  exact h

theorem errors_plain_bind {outcome : Except String α} {next : α → Except String β}
    (h : ErrorsPlain outcome) (hnext : ∀ value, ErrorsPlain (next value)) :
    ErrorsPlain (outcome >>= next) := by
  cases outcome with
  | ok value => exact hnext value
  | error message => exact errors_plain_error (h message rfl)

theorem errors_plain_map {outcome : Except String α} (h : ErrorsPlain outcome) (f : α → β) :
    ErrorsPlain (outcome.map f) := by
  cases outcome with
  | ok value => exact errors_plain_ok _
  | error message => exact errors_plain_error (h message rfl)

theorem errors_plain_map_error (outcome : Except String α) {start : String} (h : Plain start) :
    ErrorsPlain (outcome.mapError (start ++ ·)) := by
  cases outcome with
  | ok value => exact errors_plain_ok _
  | error message => exact errors_plain_error (h.append message)

end ErrorsPlain

/-- Every reference is plain. -/
theorem plain_reference (name : String) : Plain ("$" ++ name) :=
  Plain.append (by decide) name

/-! ## Substitution -/

theorem extract_first_column_plain (name json : String) (nullSafe : Bool)
    (quoting : Option SqlQuotingVersion) :
    ErrorsPlain (extractFirstColumnValue name json nullSafe quoting) := by
  have herror : ∀ rest, ErrorsPlain (.error ("$" ++ name ++ rest) : Except String String) :=
    fun rest => errors_plain_error ((plain_reference name).append rest)
  unfold extractFirstColumnValue noRowsError
  split
  · exact errors_plain_ok _
  · split
    · exact errors_plain_ok _
    · split
      · exact errors_plain_ok _
      · exact herror _
    · split
      · exact herror _
      · exact herror _
      · split
        · split
          · exact errors_plain_ok _
          · exact herror _
        · exact errors_plain_ok _

/-- The errors of a field lookup are plain. -/
theorem extract_field_plain (name col : String) (nullSafe : Bool)
    (quoting : Option SqlQuotingVersion) (fields : List (String × Value)) :
    ErrorsPlain (
      match fields.lookup col with
      | none =>
          if quoting.isNone && !nullSafe then
            .error ("$" ++ name ++ "." ++ col ++ ": result has no field '" ++ col ++
              "' (available: " ++ String.intercalate ", "
                ((fields.map (·.1)).mergeSort fun a b => compare a b != .gt) ++ ")")
          else .ok ("$" ++ name ++ "." ++ col ++ if nullSafe then "?" else "")
      | some field =>
          if field.isNull then
            if nullSafe then .ok "NULL" else .error ("$" ++ name ++ "." ++ col ++ " is NULL")
          else .ok (formatValue field quoting) : Except String String) := by
  cases fields.lookup col with
  | none =>
      dsimp only
      split
      · simp only [String.append_assoc]
        exact errors_plain_error ((plain_reference name).append _)
      · exact errors_plain_ok _
  | some field =>
      dsimp only
      split
      · split
        · exact errors_plain_ok _
        · exact errors_plain_error ((((plain_reference name).append ".").append col).append _)
      · exact errors_plain_ok _

theorem extract_column_plain (name json col : String) (nullSafe : Bool)
    (quoting : Option SqlQuotingVersion) :
    ErrorsPlain (extractColumnValue name json col nullSafe quoting) := by
  have herror : ∀ {α : Type} (rest : String),
      ErrorsPlain (.error ("$" ++ name ++ rest) : Except String α) :=
    fun rest => errors_plain_error ((plain_reference name).append rest)
  have hreference : ∀ {α : Type} (rest : String),
      ErrorsPlain (.error ("$" ++ name ++ "." ++ col ++ rest) : Except String α) :=
    fun rest => errors_plain_error ((((plain_reference name).append ".").append col).append rest)
  unfold extractColumnValue
  dsimp only
  split
  · split
    · split
      · exact errors_plain_ok _
      · exact herror _
    · split
      · exact extract_field_plain _ _ _ _ _
      · exact hreference _
    · split
      · exact extract_field_plain _ _ _ _ _
      · exact hreference _
  · exact hreference _

theorem row_set_rows_plain (name : String) (quoting : SqlQuotingVersion) (columns : List String)
    (rows : List Value) : ErrorsPlain (rowSetRows name quoting columns rows) := by
  induction rows with
  | nil => exact errors_plain_ok _
  | cons row rows ih =>
      unfold rowSetRows
      split
      · exact errors_plain_bind ih fun _ => errors_plain_ok _
      · exact errors_plain_error ((plain_reference name).append _)

theorem expand_row_set_plain (name json : String) (quoting : Option SqlQuotingVersion) :
    ErrorsPlain (expandRowSet name json quoting) := by
  have herror : ∀ {α : Type} (rest : String),
      ErrorsPlain (.error ("$" ++ name ++ rest) : Except String α) :=
    fun rest => errors_plain_error ((plain_reference name).append rest)
  unfold expandRowSet
  refine errors_plain_bind (errors_plain_map_error _ ((plain_reference name).append _))
    fun value => ?_
  cases (value.get? "rows").bind Value.asArray with
  | none => exact herror _
  | some rows =>
      have hmany : Plain ("$" ++ name ++ ".* — result has " ++ toString rows.length ++
          " rows, exceeding the maximum of " ++ toString maxRowsetExpansion ++
          " for row-set expansion. Use pagination or intermediate tables for large result sets.") :=
        (((((plain_reference name).append _).append _).append _).append _).append _
      by_cases hlength : rows.length > maxRowsetExpansion
      · simp only [hlength, if_true]
        exact errors_plain_error hmany
      · simp only [hlength, if_false]
        split
        · split
          · exact errors_plain_ok _
          · split
            · exact errors_plain_bind (row_set_rows_plain _ _ _ _) fun _ => errors_plain_ok _
            · exact herror _
        · exact errors_plain_ok _

/-- The errors of a reference without a column are plain. -/
theorem resolve_bare_plain (results : StringMap) (quoting : Option SqlQuotingVersion)
    (name : String) (afterName : List Char)
    {next : Except String (Option (String × List Char))} (hnext : ErrorsPlain next) :
    ErrorsPlain (
      match afterName with
      | '?' :: rest =>
          (extractFirstColumnValue name (results.getD name "") true quoting).map fun text =>
            some (text, rest)
      | c :: rest =>
          if isIdentContinue c then next
          else (extractFirstColumnValue name (results.getD name "") false quoting).map
            fun text => some (text, c :: rest)
      | [] =>
          (extractFirstColumnValue name (results.getD name "") false quoting).map fun text =>
            some (text, [])) := by
  have hfirst := fun nullSafe => extract_first_column_plain name (results.getD name "") nullSafe
    quoting
  split
  · exact errors_plain_map (hfirst true) _
  · split
    · exact hnext
    · exact errors_plain_map (hfirst false) _
  · exact errors_plain_map (hfirst false) _

theorem resolve_reference_plain (results : StringMap) (quoting : Option SqlQuotingVersion)
    (afterDollar : List Char) (names : List String) :
    ErrorsPlain (resolveReference results quoting afterDollar names) := by
  induction names with
  | nil => exact errors_plain_ok _
  | cons name names ih =>
      unfold resolveReference
      split
      · exact ih
      · have hbare := resolve_bare_plain results quoting name
          (afterDollar.drop name.toList.length) ih
        dsimp only
        split
        · exact errors_plain_map (expand_row_set_plain _ _ _) _
        · split
          · exact hbare
          · exact errors_plain_map (extract_column_plain _ _ _ _ _) _
        · exact hbare

/-- Every error of the substitution is plain. -/
theorem substitute_all_plain (query : String) (results vars : StringMap) (sysVars : SystemVars)
    (quoting : Option SqlQuotingVersion) :
    ErrorsPlain (substituteAllWithOptions query results vars sysVars quoting) := by
  have hscan : ∀ names fuel text,
      ErrorsPlain (substituteResultsWithin results quoting names fuel text) := by
    intro names fuel
    induction fuel with
    | zero => exact fun text => errors_plain_ok _
    | succ fuel ih =>
        intro text
        cases text with
        | nil => exact errors_plain_ok _
        | cons c rest =>
            unfold substituteResultsWithin
            split
            · exact errors_plain_map (ih rest) _
            · refine errors_plain_bind (resolve_reference_plain _ _ _ _) fun found => ?_
              cases found with
              | none => exact errors_plain_bind (ih rest) fun _ => errors_plain_ok _
              | some found => exact errors_plain_bind (ih found.2) fun _ => errors_plain_ok _
  unfold substituteAllWithOptions substituteResults
  split
  · exact errors_plain_ok _
  · exact errors_plain_map (hscan _ _ _) _

/-! ## Request configurations -/

section Http

variable {substitute : TextSubstitution} (h : ∀ text, ErrorsPlain (substitute text))

include h

theorem substitute_member_plain (key : String) (config : Value) :
    ErrorsPlain (substituteMember substitute key config) := by
  unfold substituteMember
  split
  · exact errors_plain_bind (h _) fun _ => errors_plain_ok _
  · exact errors_plain_ok _

theorem substitute_headers_plain (config : Value) :
    ErrorsPlain (substituteHeaders substitute config) := by
  have hvalues : ∀ members, ErrorsPlain (substituteHeaderValues substitute members) := by
    intro members
    induction members with
    | nil => exact errors_plain_ok _
    | cons member members ih =>
        obtain ⟨key, value⟩ := member
        unfold substituteHeaderValues
        dsimp only
        split
        · exact errors_plain_bind (errors_plain_map (h _) _) fun _ =>
            errors_plain_bind ih fun _ => errors_plain_ok _
        · exact errors_plain_bind (errors_plain_ok _) fun _ =>
            errors_plain_bind ih fun _ => errors_plain_ok _
  unfold substituteHeaders
  split
  · exact errors_plain_bind (hvalues _) fun _ => errors_plain_ok _
  · exact errors_plain_ok _

theorem substitute_part_plain (nodeId : String) (part : Value) :
    ErrorsPlain (substitutePart substitute nodeId part) := by
  have hmultipart : Plain "HTTP_MULTIPART node " := by decide
  unfold substitutePart
  refine errors_plain_bind (substitute_member_plain h _ _) fun part =>
    errors_plain_bind (substitute_member_plain h _ _) fun part => ?_
  split
  · exact errors_plain_ok _
  · split
    · exact substitute_member_plain h _ _
    · split
      · refine errors_plain_error ?_
        simp only [String.append_assoc]
        exact hmultipart.append _
      · exact errors_plain_ok _

theorem substitute_parts_plain (nodeId : String) (config : Value) :
    ErrorsPlain (substituteParts substitute nodeId config) := by
  have hparts : ∀ parts : List Value, ErrorsPlain (parts.mapM (substitutePart substitute nodeId)) := by
    intro parts
    induction parts with
    | nil => exact errors_plain_ok _
    | cons part parts ih =>
        rw [List.mapM_cons]
        exact errors_plain_bind (substitute_part_plain h _ _) fun _ =>
          errors_plain_bind ih fun _ => errors_plain_ok _
  unfold substituteParts
  split
  · exact errors_plain_bind (hparts _) fun _ => errors_plain_ok _
  · exact errors_plain_ok _

end Http

end PgDurable
