import PgDurable.Graph.Types
import PgDurable.Library.Text

/-!
# Substitution of variables and named results

`substituteAllWithOptions` replaces the references in a node's query: first `{name}` for system
and workflow variables, in one pass whose insertions are not scanned again, then `$name`,
`$name?`, `$name.col`, `$name.col?` and `$name.*` for named results. In SQL mode inserted values
are quoted as the graph's quoting version says; in raw mode they are inserted as they are.
-/

namespace PgDurable

open Json Text

/-! ## Identifiers and quoting -/

/-- The first character of an identifier. -/
def isIdentStart (c : Char) : Bool := c.isAlpha || c = '_'

/-- A later character of an identifier. -/
def isIdentContinue (c : Char) : Bool := c.isAlphanum || c = '_'

/-- The identifier at the start of a text, or nothing. -/
def parseIdentifier : List Char → List Char
  | [] => []
  | c :: rest => if isIdentStart c then c :: rest.takeWhile isIdentContinue else []

/-- Check that a result name is an identifier. -/
def validateResultName (name : String) : Except String Unit :=
  if name.isEmpty then .error "result name cannot be empty"
  else if (parseIdentifier name.toList).length ≠ name.toList.length then
    .error ("result name '" ++ name ++
      "' is not a valid identifier — must match [a-zA-Z_][a-zA-Z0-9_]*")
  else .ok ()

/-- Write every occurrence of a character twice. -/
def double (quote : Char) (text : List Char) : List Char :=
  text.flatMap fun c => if c = quote then [c, c] else [c]

/-- Quote an SQL literal. The second version doubles backslashes too and marks such literals with
`E`. -/
def SqlQuotingVersion.quoteLiteral : SqlQuotingVersion → String → String
  | .legacy, value => "'" ++ String.ofList (double '\'' value.toList) ++ "'"
  | .v1, value =>
      (if value.toList.contains '\\' then " E'" else "'") ++
        String.ofList (double '\\' (double '\'' value.toList)) ++ "'"

/-- Double-quote an SQL identifier. -/
def quoteIdentifier (name : String) : String :=
  "\"" ++ String.ofList (double '"' name.toList) ++ "\""

/-- Quote a text in SQL mode; leave it in raw mode. -/
def quoteText (sqlQuoting : Option SqlQuotingVersion) (text : String) : String :=
  match sqlQuoting with
  | some quoting => quoting.quoteLiteral text
  | none => text

/-- Format a JSON value for an SQL or raw context. -/
def formatValue (value : Value) (sqlQuoting : Option SqlQuotingVersion) : String :=
  match value with
  | .string s => quoteText sqlQuoting s
  | .number n =>
      -- A leading minus sign is kept apart from a preceding operator.
      if sqlQuoting = some .v1 ∧ n.negative then " " ++ print (.number n) else print (.number n)
  | .bool b => toString b
  | other => quoteText sqlQuoting (print other)

/-! ## Values of named results -/

/-- The error of a strict reference to a result without rows. -/
def noRowsError (name : String) : String :=
  "$" ++ name ++ " has no rows — query returned zero results"

/-- The value of `$name` and `$name?`: the first column of the first row, or the whole result. -/
def extractFirstColumnValue (name json : String) (nullSafe : Bool)
    (sqlQuoting : Option SqlQuotingVersion) : Except String String :=
  match parse json with
  | none => .ok (quoteText sqlQuoting json)
  | some value =>
      match (value.get? "rows").bind Value.asArray with
      | none => .ok (quoteText sqlQuoting json)
      | some [] => if nullSafe then .ok "NULL" else .error (noRowsError name)
      | some (row :: _) =>
          match row.asObject with
          | none => .error ("$" ++ name ++ ": first row is not an object")
          | some [] => .error ("$" ++ name ++ ": first row has no columns")
          | some ((_, first) :: _) =>
              if first.isNull then
                if nullSafe then .ok "NULL"
                else .error ("$" ++ name ++ " is NULL — first column of first row is NULL")
              else .ok (formatValue first sqlQuoting)

/-- The value of `$name.col` and `$name.col?`: a field of the first row, or of the result
itself when it has no rows. A missing field stays as it is written, except that a strict raw
reference fails. -/
def extractColumnValue (name json col : String) (nullSafe : Bool)
    (sqlQuoting : Option SqlQuotingVersion) : Except String String := do
  let reference := "$" ++ name ++ "." ++ col
  let some value := parse json | throw (reference ++ ": result is not valid JSON")
  let fields ←
    match (value.get? "rows").bind Value.asArray with
    | some [] => if nullSafe then return "NULL" else throw (noRowsError name)
    | some (row :: _) =>
        match row.asObject with
        | some fields => pure fields
        | none => throw (reference ++ ": first row is not an object")
    | none =>
        match value.asObject with
        | some fields => pure fields
        | none => throw (reference ++ ": result is neither a row set nor a JSON object")
  match fields.lookup col with
  | none =>
      if sqlQuoting.isNone && !nullSafe then
        let available := (fields.map (·.1)).mergeSort fun a b => compare a b != .gt
        throw (reference ++ ": result has no field '" ++ col ++ "' (available: " ++
          String.intercalate ", " available ++ ")")
      else pure (reference ++ if nullSafe then "?" else "")
  | some field =>
      if field.isNull then
        if nullSafe then pure "NULL" else throw (reference ++ " is NULL")
      else pure (formatValue field sqlQuoting)

/-- The most rows that `$name.*` expands. -/
def maxRowsetExpansion : Nat := 10000

/-- One column of an expanded row. -/
def rowSetValue (quoting : SqlQuotingVersion) : Option Value → String
  | some (.string s) => quoting.quoteLiteral s ++ "::text"
  | some (.number n) => print (.number n)
  | some (.bool b) => toString b
  | some .null => "NULL"
  | none => "NULL"
  | some other => quoting.quoteLiteral (print other) ++ "::text"

/-- The value rows of an expansion with the columns of the first row. -/
def rowSetRows (name : String) (quoting : SqlQuotingVersion) (columns : List String) :
    List Value → Except String (List String)
  | [] => .ok []
  | row :: rows => do
      let some fields := row.asObject | throw ("$" ++ name ++ ".* — row is not an object")
      let values := columns.map fun column => rowSetValue quoting (fields.lookup column)
      let rest ← rowSetRows name quoting columns rows
      pure (("(" ++ String.intercalate "," values ++ ")") :: rest)

/-- The value of `$name.*`: a derived table in SQL mode, the JSON rows in raw mode. -/
def expandRowSet (name json : String) (sqlQuoting : Option SqlQuotingVersion) :
    Except String String := do
  let value ← (fromStr json).mapError (("$" ++ name ++ ".* — invalid result JSON: ") ++ ·)
  let some rows := (value.get? "rows").bind Value.asArray
    | throw ("$" ++ name ++ ".* — invalid result format")
  if rows.length > maxRowsetExpansion then
    throw ("$" ++ name ++ ".* — result has " ++ toString rows.length ++
      " rows, exceeding the maximum of " ++ toString maxRowsetExpansion ++
      " for row-set expansion. Use pagination or intermediate tables for large result sets.")
  let some quoting := sqlQuoting | return print (.array rows)
  match rows with
  | [] => pure ("(SELECT NULL WHERE false) AS " ++ quoteIdentifier name)
  | first :: _ =>
      let some fields := first.asObject | throw ("$" ++ name ++ ".* — row is not an object")
      let columns := fields.map (·.1)
      let valueRows ← rowSetRows name quoting columns rows
      pure ("(VALUES " ++ String.intercalate ", " valueRows ++ ") AS " ++ quoteIdentifier name ++
        "(" ++ String.intercalate ", " (columns.map quoteIdentifier) ++ ")")

/-! ## The substitution passes -/

/-- What a reference after `$` is replaced by, and the text after it. The names are tried longest
first; a name followed by an identifier character is no match. -/
def resolveReference (results : StringMap) (sqlQuoting : Option SqlQuotingVersion)
    (afterDollar : List Char) : List String → Except String (Option (String × List Char))
  | [] => .ok none
  | name :: names =>
      if !name.toList.isPrefixOf afterDollar then
        resolveReference results sqlQuoting afterDollar names
      else
        let json := results.getD name ""
        let afterName := afterDollar.drop name.toList.length
        let bare : Except String (Option (String × List Char)) :=
          match afterName with
          | '?' :: rest =>
              (extractFirstColumnValue name json true sqlQuoting).map fun text => some (text, rest)
          | c :: rest =>
              if isIdentContinue c then resolveReference results sqlQuoting afterDollar names
              else (extractFirstColumnValue name json false sqlQuoting).map fun text =>
                some (text, c :: rest)
          | [] =>
              (extractFirstColumnValue name json false sqlQuoting).map fun text => some (text, [])
        match afterName with
        | '.' :: '*' :: rest =>
            (expandRowSet name json sqlQuoting).map fun text => some (text, rest)
        | '.' :: afterDot =>
            let col := parseIdentifier afterDot
            if col.isEmpty then bare
            else
              let afterCol := afterDot.drop col.length
              let nullSafe := afterCol.head? = some '?'
              (extractColumnValue name json (String.ofList col) nullSafe sqlQuoting).map fun text =>
                some (text, if nullSafe then afterCol.drop 1 else afterCol)
        | _ => bare

/-- Scan the text for references, with at most `fuel` steps. -/
def substituteResultsWithin (results : StringMap) (sqlQuoting : Option SqlQuotingVersion)
    (names : List String) : Nat → List Char → Except String (List Char)
  | 0, text => .ok text
  | _ + 1, [] => .ok []
  | fuel + 1, c :: rest =>
      if c ≠ '$' then (substituteResultsWithin results sqlQuoting names fuel rest).map (c :: ·)
      else do
        match ← resolveReference results sqlQuoting rest names with
        | some (replacement, after) =>
            let tail ← substituteResultsWithin results sqlQuoting names fuel after
            pure (replacement.toList ++ tail)
        | none =>
            let tail ← substituteResultsWithin results sqlQuoting names fuel rest
            pure ('$' :: tail)

/-- Replace the references to named results. Every step consumes a character, so the length of
the text bounds the scan. -/
def substituteResults (input : String) (results : StringMap)
    (sqlQuoting : Option SqlQuotingVersion) : Except String String :=
  if results.isEmpty then .ok input
  else
    let names := results.keys.mergeSort fun a b => b.utf8ByteSize ≤ a.utf8ByteSize
    (substituteResultsWithin results sqlQuoting names input.toList.length input.toList).map
      String.ofList

/-- System variables available during workflow execution. -/
structure SystemVars where
  instanceId : String
  label : Option String

/-- The value of a braced name: system variables first, then identifiers among the workflow
variables. -/
def bracedValue (vars : StringMap) (sysVars : SystemVars) (name : String) : Option String :=
  if name = "sys_instance_id" then some sysVars.instanceId
  else if name = "sys_label" then some (sysVars.label.getD "")
  else if (parseIdentifier name.toList).length = name.toList.length then vars[name]?
  else none

/-- Scan the template for braced names, with at most `fuel` steps. -/
def substituteBracedWithin (vars : StringMap) (sysVars : SystemVars) :
    Nat → List Char → List Char
  | 0, text => text
  | fuel + 1, text =>
      let before := text.takeWhile (· ≠ '\x7b')
      match text.dropWhile (· ≠ '\x7b') with
      | [] => text
      | opening :: afterOpen =>
          let name := afterOpen.takeWhile (· ≠ '\x7d')
          match afterOpen.dropWhile (· ≠ '\x7d') with
          | [] => text
          | closing :: rest =>
              before ++
                (match bracedValue vars sysVars (String.ofList name) with
                  | some value => value.toList
                  | none => opening :: name ++ [closing]) ++
                substituteBracedWithin vars sysVars fuel rest

/-- Replace the braced names of system and workflow variables in one pass. -/
def substituteBracedVariables (template : String) (vars : StringMap) (sysVars : SystemVars) :
    String :=
  String.ofList (substituteBracedWithin vars sysVars template.toList.length template.toList)

/-- Substitute all variable types in a query. -/
def substituteAllWithOptions (query : String) (results vars : StringMap) (sysVars : SystemVars)
    (sqlQuoting : Option SqlQuotingVersion) : Except String String :=
  substituteResults (substituteBracedVariables query vars sysVars) results sqlQuoting

/-- Substitute all variables without SQL quoting. -/
def substituteAllRaw (query : String) (results vars : StringMap) (sysVars : SystemVars) :
    Except String String :=
  substituteAllWithOptions query results vars sysVars none

/-- Whether a text is exactly one variable reference, apart from white space around it. -/
def isWholeValueReference (value : String) : Bool :=
  match trim value.toList with
  | '$' :: rest =>
      let name := parseIdentifier rest
      let afterName := rest.drop name.length
      if name.isEmpty then false
      else
        match afterName with
        | '.' :: afterDot =>
            let col := parseIdentifier afterDot
            let afterCol := afterDot.drop col.length
            !col.isEmpty && (afterCol.isEmpty || afterCol = ['?'])
        | _ => afterName.isEmpty || afterName = ['?']
  | '\x7b' :: rest =>
      let name := parseIdentifier rest
      !name.isEmpty && rest.drop name.length = ['\x7d']
  | _ => false

end PgDurable
