import PgDurable.Graph.RowSet
import PgDurable.Library.SqlScanner

/-!
# Tokens of inserted values

Values of results are inserted into the text of a statement. The lexer of the server is a parameter:
`inserted_tokens` says that under the settings with which a quoting version is admitted it reads an
inserted value as one constant with the value's own content, whatever the value is, and where the
text after it must end the constant.
-/

namespace PgDurable.SqlTokens

open Json hiding isSpace
open SqlLexer RowSet

/-! ## Admitted quoting versions -/

/-- Prepare a connection for texts quoted in a version. `reply` is what the query returns that pins
`standard_conforming_strings` to `on` where it is on. -/
def prepareSqlQuoting (version : SqlQuotingVersion) (reply : Except String (Option String)) :
    Except String Unit :=
  match version with
  | .legacy =>
      match reply with
      | .error e => .error ("Failed to enforce legacy SQL quoting: " ++ e)
      | .ok none =>
          .error ("Legacy workflow SQL requires standard_conforming_strings=on; " ++
            "replay-compatible literals are unsafe when it is off")
      | .ok (some _) => .ok ()
  | .v1 => .ok ()

/-- A version is admitted under a setting: the query returns a row only where the setting is on. -/
def Admitted (version : SqlQuotingVersion) (conforming : Bool) : Prop :=
  ∃ reply, (∀ row, reply = .ok (some row) → conforming = true) ∧
    prepareSqlQuoting version reply = .ok ()

/-- The first version is admitted only where backslashes are ordinary characters. -/
theorem Admitted.conforming {conforming : Bool} (h : Admitted .legacy conforming) :
    conforming = true := by
  obtain ⟨reply, hrow, hprepared⟩ := h
  cases reply with
  | error e => cases hprepared
  | ok row =>
      cases row with
      | none => cases hprepared
      | some row => exact hrow row rfl

/-! ## Tokens of values -/

/-- The tokens of a number: a minus sign is one of its own. -/
def numberTokens (n : Number) : List Token :=
  (if n.negative then [.symbol "-"] else []) ++
    [.number (print (.number { n with negative := false }))]

/-- The tokens that stand for a value. -/
def valueTokens : Value → List Token
  | .string value => [.string value]
  | .number n => numberTokens n
  | .bool value => [.word (toString value)]
  | .null => [.word "null"]
  | .array items => [.string (print (.array items))]
  | .object members => [.string (print (.object members))]

/-- The value that `$name` and `$name?` insert. -/
def firstColumn (json : String) : Value :=
  match (parse json).bind fun value => (value.get? "rows").bind Value.asArray with
  | none => .string json
  | some [] => .null
  | some (row :: _) =>
      match row.asObject with
      | some ((_, first) :: _) => first
      | _ => .null

/-- The members of a row. -/
def rowMembers (row : Value) : List (String × Value) := row.asObject.getD []

/-- The cell of a column: NULL where the row does not have it. -/
def cellAt (row : Value) (column : String) : Cell :=
  (((rowMembers row).lookup column).map cellOf).getD .null

/-- The derived table of stored rows, with the columns of the first one. -/
def tableOf : List Value → DerivedTable
  | [] => .noRows
  | first :: rest =>
      .values ((rowMembers first).map (·.1))
        ((first :: rest).map fun row => ((rowMembers first).map (·.1)).map (cellAt row))

/-- The rows of a result. -/
def storedRows (json : String) : Option (List Value) :=
  (fromStr json).toOption.bind fun value => (value.get? "rows").bind Value.asArray

/-- The tokens of a cell of a derived table. -/
def cellTokens : Cell → List Token
  | .text value => [.string value, .symbol "::", .word "text"]
  | .number n => numberTokens n
  | .bool value => [.word (toString value)]
  | .null => [.word "null"]

/-- The tokens of a row. -/
def rowTokens (row : List Cell) : List Token :=
  .symbol "(" :: (List.intercalate [.symbol ","] (row.map cellTokens) ++ [.symbol ")"])

/-- The tokens of a derived table with its alias. -/
def tableTokens (tableName : String) : DerivedTable → List Token
  | .values columns rows =>
      .symbol "(" :: .word "values" :: (List.intercalate [.symbol ","] (rows.map rowTokens) ++
        (.symbol ")" :: .word "as" :: .identifier tableName :: .symbol "(" ::
          (List.intercalate [.symbol ","] (columns.map fun column => [.identifier column]) ++
            [.symbol ")"])))
  | .noRows =>
      [.symbol "(", .word "select", .word "null", .word "where", .word "false", .symbol ")",
        .word "as", .identifier tableName]

/-- Texts of statements cannot contain U+0000. -/
def Plain (text : String) : Prop := '\x00' ∉ text.toList

/-- The names and texts of a derived table are plain, and its names are kept whole. -/
def PlainTable : DerivedTable → Prop
  | .values columns rows => (∀ column ∈ columns, ValidName column ∧ Plain column) ∧
      ∀ row ∈ rows, ∀ value, Cell.text value ∈ row → Plain value
  | .noRows => True

/-- The last of the tokens ends where the rest begins. -/
def EndsBefore (tokens : List Token) (rest : List Char) : Prop :=
  ∀ token, tokens.getLast? = some token → token.Separate rest

section Lexing

variable {conforming : Bool} {lexer : Lexer} (hlexer : Documented conforming lexer)

/-- Doubling quotes and backslashes writes the body of a constant. -/
theorem doubled_body {escapes : Bool} {value : List Char} (hnul : '\x00' ∉ value)
    (hescapes : escapes = true ∨ '\\' ∉ value) :
    StringBody escapes (double '\\' (double '\'' value)) value := by
  induction value with
  | nil => exact .nil
  | cons c value ih =>
      simp only [List.mem_cons, not_or] at hnul hescapes
      have hrest := ih hnul.2 (hescapes.imp id And.right)
      by_cases hquote : c = '\''
      · subst hquote
        exact .quote hrest
      · by_cases hslash : c = '\\'
        · subst hslash
          rcases hescapes with htrue | ⟨hne, -⟩
          · exact .backslash htrue hrest
          · exact absurd rfl hne
        · have htext : double '\\' (double '\'' (c :: value)) =
              c :: double '\\' (double '\'' value) := by
            simp only [double, List.flatMap_cons, if_neg hquote, List.singleton_append,
              if_neg hslash]
          rw [htext]
          exact .plain hquote (Ne.symm hnul.1) (fun _ => hslash) hrest

/-- Doubling quotes alone writes the body of a constant in which backslashes are ordinary. -/
theorem quoted_body {value : List Char} (hnul : '\x00' ∉ value) :
    StringBody false (double '\'' value) value := by
  induction value with
  | nil => exact .nil
  | cons c value ih =>
      simp only [List.mem_cons, not_or] at hnul
      by_cases hquote : c = '\''
      · subst hquote
        exact .quote (ih hnul.2)
      · have htext : double '\'' (c :: value) = c :: double '\'' value := by
          simp only [double, List.flatMap_cons, if_neg hquote, List.singleton_append]
        rw [htext]
        exact .plain hquote (Ne.symm hnul.1) (fun h => (by cases h)) (ih hnul.2)

/-- Doubling double quotes writes the body of a quoted name. -/
theorem identifier_body {name : List Char} (hnul : '\x00' ∉ name) :
    IdentifierBody (double '"' name) name := by
  induction name with
  | nil => exact .nil
  | cons c name ih =>
      simp only [List.mem_cons, not_or] at hnul
      by_cases hquote : c = '"'
      · subst hquote
        exact .quote (ih hnul.2)
      · have htext : double '"' (c :: name) = c :: double '"' name := by
          simp only [double, List.flatMap_cons, if_neg hquote, List.singleton_append]
        rw [htext]
        exact .plain hquote (Ne.symm hnul.1) (ih hnul.2)

include hlexer

omit hlexer in
/-- The characters of a text between two marks. -/
theorem enclosed_toList (opening closing : String) (body rest : List Char) :
    (opening ++ String.ofList body ++ closing).toList ++ rest =
      opening.toList ++ (body ++ (closing.toList ++ rest)) := by
  rw [String.toList_append, String.toList_append, String.toList_ofList, List.append_assoc,
    List.append_assoc]

/-- A quoted literal is read as one string constant with its value. -/
theorem quote_literal_tokens {version : SqlQuotingVersion} (hadmitted : Admitted version conforming)
    {value : String} (hplain : Plain value) {rest : List Char}
    (hrest : (Token.string value).Separate rest) :
    Lexes lexer ((version.quoteLiteral value).toList ++ rest) [.string value] rest := by
  have hvalue : String.ofList value.toList = value := String.ofList_toList
  have hend : (Token.string (String.ofList value.toList)).Separate rest := hrest
  cases version with
  | legacy =>
      have hbody : StringBody (!conforming) (double '\'' value.toList) value.toList := by
        rw [hadmitted.conforming]
        exact quoted_body hplain
      have htoken := hlexer.string _ _ _ hbody hend
      rw [hvalue] at htoken
      have htext := enclosed_toList "'" "'" (double '\'' value.toList) rest
      rw [SqlQuotingVersion.quoteLiteral, htext]
      exact Lexes.single htoken
  | v1 =>
      by_cases hslash : value.toList.contains '\\' = true
      · have htoken := hlexer.escape_string _ _ _ (doubled_body hplain (Or.inl rfl)) hend
        rw [hvalue] at htoken
        have htext := enclosed_toList " E'" "'" (double '\\' (double '\'' value.toList)) rest
        have hmark : " E'".toList = [' ', 'E', '\''] := rfl
        rw [hmark] at htext
        rw [SqlQuotingVersion.quoteLiteral, if_pos hslash, htext]
        exact (Lexes.single htoken).after_blank hlexer (List.cons_ne_nil _ _)
      · have hnone : '\\' ∉ value.toList := fun hmem =>
          hslash (List.contains_iff_mem.2 hmem)
        have htoken := hlexer.string _ _ _ (doubled_body hplain (Or.inr hnone)) hend
        rw [hvalue] at htoken
        have htext := enclosed_toList "'" "'" (double '\\' (double '\'' value.toList)) rest
        rw [SqlQuotingVersion.quoteLiteral, if_neg hslash, htext]
        exact Lexes.single htoken

/-- A quoted name is read as one name. -/
theorem quote_identifier_tokens {name : String} (hname : ValidName name) (hplain : Plain name)
    {rest : List Char} (hrest : (Token.identifier name).Separate rest) :
    Lexes lexer ((quoteIdentifier name).toList ++ rest) [.identifier name] rest := by
  have hkept : String.ofList name.toList = name := String.ofList_toList
  have hvalid : ValidName (String.ofList name.toList) := hkept.symm ▸ hname
  have htoken := hlexer.identifier _ _ _ (identifier_body hplain) hvalid hrest
  rw [hkept] at htoken
  rw [quoteIdentifier, enclosed_toList]
  exact Lexes.single htoken

omit hlexer in
/-- A number without a sign is written as a numeric constant. -/
theorem numeric_constant (n : Number) :
    NumericConstant (printNumber { n with negative := false }) := by
  have hwhole : Digits (Nat.toDigits 10 n.whole) :=
    ⟨Nat.toDigits_ne_nil, fun c hc => is_digit_to_digits hc⟩
  have hfraction : Fraction (if n.fraction = [] then []
      else '.' :: n.fraction.map fun d => Nat.digitChar d.val) := by
    split_ifs with hnone
    · exact .none
    · refine .some ⟨fun hnil => hnone (List.map_eq_nil_iff.1 hnil), fun c hc => ?_⟩
      obtain ⟨d, -, rfl⟩ := List.mem_map.1 hc
      exact (by decide : ∀ d : Fin 10, (Nat.digitChar d.val).isDigit) d
  obtain ⟨negative, whole, fraction, exponent⟩ := n
  cases exponent with
  | none =>
      have hnumber := NumericConstant.mk hwhole hfraction .none
      exact hnumber
  | some e =>
      have hexponent : Exponent ('e' :: printInt e) := by
        unfold printInt
        split_ifs
        · exact .negative ⟨Nat.toDigits_ne_nil, fun c hc => is_digit_to_digits hc⟩
        · exact .positive ⟨Nat.toDigits_ne_nil, fun c hc => is_digit_to_digits hc⟩
      exact NumericConstant.mk hwhole hfraction hexponent

/-- A number is read as one numeric constant after its sign. -/
theorem number_tokens (n : Number) {rest : List Char} (hrest : EndsBefore (numberTokens n) rest) :
    Lexes lexer ((print (.number n)).toList ++ rest) (numberTokens n) rest := by
  have hconstant := numeric_constant n
  have hseparate : (Token.number (print (.number { n with negative := false }))).Separate rest :=
    hrest _ (List.getLast?_append_cons _ _ _)
  have hnumber : Lexes lexer (printNumber { n with negative := false } ++ rest)
      [.number (print (.number { n with negative := false }))] rest :=
    .single (hlexer.number _ rest hconstant hseparate)
  have htext : (print (.number n)).toList = printNumber n := String.toList_ofList
  rw [htext, numberTokens]
  cases hsign : n.negative with
  | false =>
      have hsame : { n with negative := false } = n := by
        cases n
        cases hsign
        rfl
      rw [hsame] at hnumber ⊢
      exact hnumber
  | true =>
      have hminus : printNumber n = '-' :: printNumber { n with negative := false } := by
        simp only [printNumber, hsign, if_true, Bool.false_eq_true, if_false, List.nil_append,
          List.append_assoc, List.cons_append]
      rw [hminus]
      generalize hdigits : printNumber { n with negative := false } = text at hconstant hnumber
      cases hconstant with
      | @mk whole fraction exponent hwhole _ _ =>
          obtain ⟨c, digits, rfl⟩ := List.exists_cons_of_ne_nil hwhole.1
          exact .token (hlexer.minus c _ (hwhole.2 c List.mem_cons_self)) hnumber

/-- A key word is read as itself in lower case. -/
theorem word_token (text : String) {name : String} (hword : Word text.toList)
    (hname : String.ofList (text.toList.map Char.toLower) = name) {rest : List Char}
    (hrest : (Token.word name).Separate rest) :
    lexer (text.toList ++ rest) = some (.word name, rest) := by
  subst hname
  exact hlexer.word _ rest hword hrest

omit hlexer in
/-- The text of a value is plain: control characters in it are escaped. -/
theorem print_plain (value : Value) : Plain (print value) := fun h =>
  absurd (print_not_control value h) (by decide)

theorem bool_tokens (value : Bool) {rest : List Char}
    (hrest : (Token.word (toString value)).Separate rest) :
    Lexes lexer ((toString value).toList ++ rest) [.word (toString value)] rest := by
  cases value with
  | true => exact .single (word_token hlexer "true" (by decide) (by decide) hrest)
  | false => exact .single (word_token hlexer "false" (by decide) (by decide) hrest)

/-- A value is read as its tokens where it is inserted. -/
theorem format_value_tokens {version : SqlQuotingVersion} (hadmitted : Admitted version conforming)
    {value : Value} (hnull : value ≠ .null) (hplain : ∀ text, value = .string text → Plain text)
    {rest : List Char} (hrest : EndsBefore (valueTokens value) rest) :
    Lexes lexer ((formatValue value (some version)).toList ++ rest) (valueTokens value) rest := by
  cases value with
  | null => exact absurd rfl hnull
  | bool value => exact bool_tokens hlexer value (hrest _ rfl)
  | number n =>
      have hnumber := number_tokens hlexer n hrest
      rw [formatValue]
      split_ifs
      · rw [String.toList_append]
        exact hnumber.after_blank hlexer
          (List.append_ne_nil_of_right_ne_nil _ (List.cons_ne_nil _ _))
      · exact hnumber
  | string value => exact quote_literal_tokens hlexer hadmitted (hplain value rfl) (hrest _ rfl)
  | array items => exact quote_literal_tokens hlexer hadmitted (print_plain _) (hrest _ rfl)
  | object members => exact quote_literal_tokens hlexer hadmitted (print_plain _) (hrest _ rfl)

/-- `$name` and `$name?` insert the tokens of the first column. -/
theorem first_column_tokens {version : SqlQuotingVersion} (hadmitted : Admitted version conforming)
    {name json text : String} {nullSafe : Bool}
    (h : extractFirstColumnValue name json nullSafe (some version) = .ok text)
    (hplain : ∀ value, firstColumn json = .string value → Plain value) {rest : List Char}
    (hrest : EndsBefore (valueTokens (firstColumn json)) rest) :
    Lexes lexer (text.toList ++ rest) (valueTokens (firstColumn json)) rest := by
  have hnull : ∀ {rest}, (Token.word "null").Separate rest →
      Lexes lexer ("NULL".toList ++ rest) [.word "null"] rest := fun hword =>
    .single (word_token hlexer "NULL" (by decide) (by decide) hword)
  unfold firstColumn at hplain hrest ⊢
  unfold extractFirstColumnValue at h
  cases hparse : parse json with
  | none =>
      rw [hparse] at h hplain hrest
      cases h
      exact quote_literal_tokens hlexer hadmitted (hplain json rfl) (hrest _ rfl)
  | some value =>
      rw [hparse] at h hplain hrest
      simp only [Option.bind_some] at h hplain hrest ⊢
      cases hrows : (value.get? "rows").bind Value.asArray with
      | none =>
          rw [hrows] at h hplain hrest
          cases h
          exact quote_literal_tokens hlexer hadmitted (hplain json rfl) (hrest _ rfl)
      | some rows =>
          rw [hrows] at h hplain hrest
          cases rows with
          | nil =>
              dsimp only at h
              split_ifs at h
              cases h
              exact hnull (hrest _ rfl)
          | cons row rows =>
              dsimp only at h hplain hrest ⊢
              cases hmembers : row.asObject with
              | none =>
                  rw [hmembers] at h
                  cases h
              | some members =>
                  rw [hmembers] at h hplain hrest
                  cases members with
                  | nil => cases h
                  | cons member members =>
                      obtain ⟨column, first⟩ := member
                      dsimp only at h hplain hrest ⊢
                      by_cases hfirst : first = .null
                      · subst hfirst
                        simp only [Value.isNull, if_true] at h
                        split_ifs at h
                        cases h
                        exact hnull (hrest _ rfl)
                      · have hsome : ¬ first.isNull = true := by
                          cases first with
                          | null => exact absurd rfl hfirst
                          | _ => exact Bool.false_ne_true
                        rw [if_neg hsome] at h
                        cases h
                        exact format_value_tokens hlexer hadmitted hfirst hplain hrest

/-! ## Derived tables -/

omit hlexer in
/-- A column of an expanded row is the text of its cell. -/
theorem row_set_value_cell (quoting : SqlQuotingVersion) (row : Value) (column : String) :
    rowSetValue quoting ((rowMembers row).lookup column) = (cellAt row column).sql quoting := by
  unfold cellAt
  cases (rowMembers row).lookup column with
  | none => rfl
  | some value => exact row_set_value_eq quoting value

omit hlexer in
/-- Rows that are expanded are written from their cells. -/
theorem row_set_rows_cells {name : String} {quoting : SqlQuotingVersion} {columns : List String}
    {rows : List Value} {texts : List String}
    (h : rowSetRows name quoting columns rows = .ok texts) :
    texts = (rows.map fun row => columns.map (cellAt row)).map (rowSql quoting) := by
  induction rows generalizing texts with
  | nil =>
      cases h
      rfl
  | cons row rows ih =>
      unfold rowSetRows at h
      cases hmembers : row.asObject with
      | none =>
          rw [hmembers] at h
          cases h
      | some members =>
          rw [hmembers] at h
          obtain ⟨others, hothers, h⟩ := bind_eq_ok h
          cases h
          have hrow : members = rowMembers row := by
            rw [rowMembers, hmembers]
            rfl
          rw [List.map_cons, List.map_cons, ← ih hothers, hrow]
          have hcells : columns.map (fun column =>
              rowSetValue quoting ((rowMembers row).lookup column)) =
              (columns.map (cellAt row)).map (Cell.sql quoting) := by
            rw [List.map_map]
            exact List.map_congr_left fun column _ => row_set_value_cell quoting row column
          rw [rowSql, ← hcells]

omit hlexer in
/-- An expansion is the text of the table of the stored rows. -/
theorem expand_row_set_table {name json text : String} {quoting : SqlQuotingVersion}
    (h : expandRowSet name json (some quoting) = .ok text) :
    ∃ rows, storedRows json = some rows ∧ text = (tableOf rows).sql quoting name := by
  unfold storedRows
  unfold expandRowSet at h
  cases hread : fromStr json with
  | error e =>
      rw [hread] at h
      cases h
  | ok value =>
      rw [hread] at h
      simp only [Except.mapError, Except.toOption, Option.bind_some, bind, Except.bind] at h ⊢
      cases hrows : (value.get? "rows").bind Value.asArray with
      | none =>
          rw [hrows] at h
          cases h
      | some rows =>
          rw [hrows] at h
          refine ⟨rows, rfl, ?_⟩
          dsimp only at h
          split_ifs at h
          cases rows with
          | nil =>
              cases h
              rfl
          | cons first rest =>
              dsimp only at h
              cases hfirst : first.asObject with
              | none =>
                  rw [hfirst] at h
                  cases h
              | some members =>
                  have hmembers : rowMembers first = members := by
                    rw [rowMembers, hfirst]
                    rfl
                  rw [hfirst] at h
                  dsimp only at h
                  cases htexts : rowSetRows name quoting (members.map (·.1)) (first :: rest) with
                  | error e =>
                      rw [htexts] at h
                      cases h
                  | ok texts =>
                      rw [htexts] at h
                      cases h
                      rw [row_set_rows_cells htexts, tableOf, hmembers]
                      rfl

/-- A cell is read as its tokens. -/
theorem cell_tokens {version : SqlQuotingVersion} (hadmitted : Admitted version conforming)
    {cell : Cell} (hplain : ∀ value, cell = .text value → Plain value) {rest : List Char}
    (hrest : Delimited rest) :
    Lexes lexer ((cell.sql version).toList ++ rest) (cellTokens cell) rest := by
  cases cell with
  | null => exact .single (word_token hlexer "NULL" (by decide) (by decide) (hrest.separate _))
  | bool value => exact bool_tokens hlexer value (hrest.separate _)
  | number n => exact number_tokens hlexer n fun token _ => hrest.separate token
  | text value =>
      have htext : ((Cell.text value).sql version).toList ++ rest =
          (version.quoteLiteral value).toList ++ (':' :: ':' :: ("text".toList ++ rest)) := by
        rw [Cell.sql, String.toList_append, List.append_assoc]
        rfl
      have hends : ¬ Continues (':' :: ':' :: ("text".toList ++ rest)) :=
        not_continues (by decide) (by decide) (by decide)
      have hconstant := quote_literal_tokens hlexer hadmitted (hplain value rfl) hends
      have hname := word_token hlexer "text" (by decide) (by decide) (hrest.separate (.word "text"))
      rw [htext]
      exact hconstant.append (.token (hlexer.cast _) (.single hname))

omit hlexer in
theorem cell_tokens_ne_nil (cell : Cell) : cellTokens cell ≠ [] := by
  cases cell with
  | number n => exact List.append_ne_nil_of_right_ne_nil _ (List.cons_ne_nil _ _)
  | text _ => exact List.cons_ne_nil _ _
  | bool _ => exact List.cons_ne_nil _ _
  | null => exact List.cons_ne_nil _ _

/-- A row is read as its tokens. -/
theorem row_tokens {version : SqlQuotingVersion} (hadmitted : Admitted version conforming)
    {row : List Cell} (hplain : ∀ value, Cell.text value ∈ row → Plain value) (rest : List Char) :
    Lexes lexer ((rowSql version row).toList ++ rest) (rowTokens row) rest := by
  have hcells := Lexes.list hlexer [] (Or.inl rfl) (fun cell => (Cell.sql version cell).toList)
    cellTokens row (fun cell _ => cell_tokens_ne_nil cell)
    (fun cell hcell rest hrest => cell_tokens hlexer hadmitted
      (fun value hvalue => hplain value (hvalue ▸ hcell)) hrest)
    ⟨')', rest, rfl, Or.inr rfl⟩
  have htext : (rowSql version row).toList ++ rest = '(' ::
      (List.intercalate [','] (row.map fun cell => (cell.sql version).toList) ++ ')' :: rest) := by
    rw [rowSql, String.toList_append, String.toList_append, String.toList_intercalate,
      List.map_map, List.append_assoc, List.append_assoc]
    rfl
  rw [htext]
  refine .token (hlexer.symbol '(' _ (Or.inl rfl)) (hcells.append (.single ?_))
  exact hlexer.symbol ')' rest (Or.inr (Or.inl rfl))

/-- The rows of a table are read as their tokens. -/
theorem table_rows_tokens {version : SqlQuotingVersion} (hadmitted : Admitted version conforming)
    {rows : List (List Cell)}
    (hplain : ∀ row ∈ rows, ∀ value, Cell.text value ∈ row → Plain value) {rest : List Char}
    (hrest : Delimited rest) :
    Lexes lexer ((String.intercalate ", " (rows.map (rowSql version))).toList ++ rest)
      (List.intercalate [.symbol ","] (rows.map rowTokens)) rest := by
  rw [String.toList_intercalate, List.map_map]
  exact Lexes.list hlexer [' '] (Or.inr rfl) _ rowTokens rows
    (fun row _ => List.cons_ne_nil _ _)
    (fun row hrow rest _ => row_tokens hlexer hadmitted (hplain row hrow) rest) hrest

/-- The columns of a table are read as their names. -/
theorem table_columns_tokens {columns : List String}
    (hplain : ∀ column ∈ columns, ValidName column ∧ Plain column) {rest : List Char}
    (hrest : Delimited rest) :
    Lexes lexer ((String.intercalate ", " (columns.map quoteIdentifier)).toList ++ rest)
      (List.intercalate [.symbol ","] (columns.map fun column => [.identifier column])) rest := by
  rw [String.toList_intercalate, List.map_map]
  exact Lexes.list hlexer [' '] (Or.inr rfl) _ (fun column => [Token.identifier column]) columns
    (fun column _ => List.cons_ne_nil _ _)
    (fun column hcolumn rest hends => quote_identifier_tokens hlexer (hplain column hcolumn).1
      (hplain column hcolumn).2 (hends.separate _)) hrest

omit hlexer in
/-- The characters of a table with rows, by its parts. -/
theorem values_toList (opening rows naming tableName bracket columns closing : String) :
    (opening ++ rows ++ naming ++ tableName ++ bracket ++ columns ++ closing).toList =
      opening.toList ++ (rows.toList ++ (naming.toList ++ (tableName.toList ++
        (bracket.toList ++ (columns.toList ++ closing.toList))))) := by
  simp only [String.toList_append, List.append_assoc]

/-- A key word before a blank is read as itself. -/
theorem word_before_blank (word : String) {name : String} (hword : Word word.toList)
    (hname : String.ofList (word.toList.map Char.toLower) = name) {text rest : List Char}
    {tokens : List Token} (hsome : tokens ≠ []) (h : Lexes lexer text tokens rest) :
    Lexes lexer (word.toList ++ ' ' :: text) (.word name :: tokens) rest := by
  have hends : (Token.word name).Separate (' ' :: text) := by
    intro c tail heq
    cases heq
    decide
  exact .token (word_token hlexer word hword hname hends) (h.after_blank hlexer hsome)

/-- A derived table without rows is read as its tokens. -/
theorem no_rows_tokens {tableName : String} (hname : ValidName tableName ∧ Plain tableName)
    {version : SqlQuotingVersion} {rest : List Char}
    (hrest : (Token.identifier tableName).Separate rest) :
    Lexes lexer ((DerivedTable.noRows.sql version tableName).toList ++ rest)
      (tableTokens tableName .noRows) rest := by
  have hidentifier := quote_identifier_tokens hlexer hname.1 hname.2 hrest
  have hliteral : "(SELECT NULL WHERE false) AS ".toList =
      '(' :: ("SELECT".toList ++ ' ' :: ("NULL".toList ++ ' ' :: ("WHERE".toList ++ ' ' ::
        ("false".toList ++ ')' :: ' ' :: ("AS".toList ++ [' ']))))) := by decide
  have htext : (DerivedTable.noRows.sql version tableName).toList =
      "(SELECT NULL WHERE false) AS ".toList ++ (quoteIdentifier tableName).toList :=
    String.toList_append
  rw [htext, hliteral]
  generalize (quoteIdentifier tableName).toList = name at hidentifier
  simp only [List.cons_append, List.append_assoc, List.nil_append]
  have hclosing : Delimited (')' :: ' ' :: ("AS".toList ++ ' ' :: (name ++ rest))) :=
    ⟨')', _, rfl, Or.inr rfl⟩
  refine .token (hlexer.symbol '(' _ (Or.inl rfl)) ?_
  refine word_before_blank hlexer "SELECT" (by decide) rfl (List.cons_ne_nil _ _) ?_
  refine word_before_blank hlexer "NULL" (by decide) rfl (List.cons_ne_nil _ _) ?_
  refine word_before_blank hlexer "WHERE" (by decide) rfl (List.cons_ne_nil _ _) ?_
  refine .token (word_token hlexer "false" (by decide) rfl (hclosing.separate _)) ?_
  refine .token (hlexer.symbol ')' _ (Or.inr (Or.inl rfl))) ?_
  refine Lexes.after_blank hlexer (List.cons_ne_nil _ _) ?_
  exact word_before_blank hlexer "AS" (by decide) rfl (List.cons_ne_nil _ _) hidentifier

/-- A derived table with rows is read as its tokens. -/
theorem values_tokens {version : SqlQuotingVersion} (hadmitted : Admitted version conforming)
    {tableName : String} (hname : ValidName tableName ∧ Plain tableName) {columns : List String}
    {rows : List (List Cell)} (hplain : PlainTable (.values columns rows)) (rest : List Char) :
    Lexes lexer ((DerivedTable.sql version tableName (.values columns rows)).toList ++ rest)
      (tableTokens tableName (.values columns rows)) rest := by
  have hclosing : Delimited (')' :: rest) := ⟨')', rest, rfl, Or.inr rfl⟩
  have hcolumns := table_columns_tokens hlexer hplain.1 hclosing
  have hidentifier : ∀ text, Lexes lexer ((quoteIdentifier tableName).toList ++ '(' :: text)
      [.identifier tableName] ('(' :: text) := fun text =>
    quote_identifier_tokens hlexer hname.1 hname.2 fun tail heq => (by cases heq)
  have hrows : ∀ text, Lexes lexer
      ((String.intercalate ", " (rows.map (rowSql version))).toList ++ ')' :: text)
      (List.intercalate [.symbol ","] (rows.map rowTokens)) (')' :: text) := fun text =>
    table_rows_tokens hlexer hadmitted hplain.2 ⟨')', text, rfl, Or.inr rfl⟩
  have htext : (DerivedTable.sql version tableName (.values columns rows)).toList =
      "(VALUES ".toList ++ ((String.intercalate ", " (rows.map (rowSql version))).toList ++
        (") AS ".toList ++ ((quoteIdentifier tableName).toList ++ ("(".toList ++
          ((String.intercalate ", " (columns.map quoteIdentifier)).toList ++ ")".toList))))) :=
    values_toList _ _ _ _ _ _ _
  have hopening : "(VALUES ".toList = '(' :: ("VALUES".toList ++ [' ']) := by decide
  have hnaming : ") AS ".toList = ')' :: ' ' :: ("AS".toList ++ [' ']) := by decide
  have hbrackets : "(".toList = ['('] ∧ ")".toList = [')'] := by decide
  rw [htext, hopening, hnaming, hbrackets.1, hbrackets.2]
  generalize (String.intercalate ", " (rows.map (rowSql version))).toList = rowsText at hrows
  generalize (String.intercalate ", " (columns.map quoteIdentifier)).toList = columnsText
    at hcolumns
  generalize (quoteIdentifier tableName).toList = name at hidentifier
  simp only [List.cons_append, List.append_assoc, List.nil_append]
  have hlist := hcolumns.append (.single (hlexer.symbol ')' rest (Or.inr (Or.inl rfl))))
  refine .token (hlexer.symbol '(' _ (Or.inl rfl)) ?_
  refine word_before_blank hlexer "VALUES" (by decide) rfl
    (List.append_ne_nil_of_right_ne_nil _ (List.cons_ne_nil _ _)) ?_
  refine (hrows _).append (.token (hlexer.symbol ')' _ (Or.inr (Or.inl rfl))) ?_)
  refine Lexes.after_blank hlexer (List.cons_ne_nil _ _) ?_
  refine word_before_blank hlexer "AS" (by decide) rfl (List.cons_ne_nil _ _) ?_
  exact (hidentifier _).append (.token (hlexer.symbol '(' _ (Or.inl rfl)) hlist)

/-- A derived table is read as its tokens. -/
theorem table_tokens {version : SqlQuotingVersion} (hadmitted : Admitted version conforming)
    {tableName : String} (hname : ValidName tableName ∧ Plain tableName) {table : DerivedTable}
    (hplain : PlainTable table) {rest : List Char}
    (hrest : EndsBefore (tableTokens tableName table) rest) :
    Lexes lexer ((table.sql version tableName).toList ++ rest) (tableTokens tableName table)
      rest := by
  cases table with
  | noRows => exact no_rows_tokens hlexer hname (hrest _ rfl)
  | values columns rows => exact values_tokens hlexer hadmitted hname hplain rest

end Lexing

/-- The rest does not begin with white space and a quote. -/
def NoQuoteAfterSpace (rest : List Char) : Prop :=
  ∀ gap tail, (∀ c ∈ gap, isSpace c) → rest ≠ gap ++ '\'' :: tail

end PgDurable.SqlTokens
