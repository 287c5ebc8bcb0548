import PgDurable.Activities.ExecuteSql
import PgDurable.Graph.Substitution
import PgDurable.Library.Json.Printing
import PgDurable.Library.Json.Reading

/-!
# Expanding the rows of a query

`$name.*` becomes a derived table whose columns and cells are guessed from the stored result:
names from the first row, types from each cell. The database server is a parameter: it types the
constants of a table and finds a common type for each column. `row_set_reproduced_iff` says for
which results the table has the rows and columns of the query, and is accepted.
-/

namespace PgDurable.RowSet

open Json ExecuteSql

/-! ## Types -/

/-- The types that cells of an expansion can have. -/
inductive SqlType where
  | unknown
  | text
  | integer
  | bigint
  | numeric
  | boolean
  deriving DecidableEq

/-- The categories that types are resolved by. -/
inductive TypeCategory where
  | unknown
  | string
  | numeric
  | boolean
  deriving DecidableEq

/-- The category of a type. -/
def SqlType.category : SqlType → TypeCategory
  | unknown => .unknown
  | text => .string
  | integer => .numeric
  | bigint => .numeric
  | numeric => .numeric
  | boolean => .boolean

/-- The literals of 64-bit integers and doubles, as they are written. -/
structure Held (n : Number) : Prop where
  whole : n.whole < 10 ^ 20
  fraction : n.fraction.length ≤ 22
  exponent : ∀ e, n.exponent = some e → -324 ≤ e ∧ e ≤ 308

/-- The database server. -/
structure Server where
  /-- The type of a numeric constant, unless its value is out of range. -/
  numericType : Number → Option SqlType
  /-- The common type of the cells of a column of a `VALUES` list. -/
  commonType : List SqlType → Option SqlType
  /-- The name of an output column that has none. -/
  unnamedColumn : String

/-- What the server documents: doubles and 64-bit integers are numeric constants, and types are
resolved to a common one exactly if all that are known have one category. -/
structure Server.Documented (server : Server) : Prop where
  numeric : ∀ n, Held n → ∃ type, server.numericType n = some type ∧ type.category = .numeric
  common : ∀ types, (server.commonType types).isSome ↔ ∀ first ∈ types, ∀ second ∈ types,
    first.category ≠ .unknown → second.category ≠ .unknown → first.category = second.category
  unnamed : server.unnamedColumn = "?column?"

/-! ## Derived tables -/

/-- A cell of a `VALUES` list. -/
inductive Cell where
  | text (value : String)
  | number (value : Number)
  | bool (value : Bool)
  | null
  deriving DecidableEq

/-- The text of a cell. -/
def Cell.sql (quoting : SqlQuotingVersion) : Cell → String
  | text value => quoting.quoteLiteral value ++ "::text"
  | number value => print (.number value)
  | bool value => toString value
  | null => "NULL"

/-- The type of a cell. Texts cannot contain U+0000. -/
def Cell.type (server : Server) : Cell → Option SqlType
  | text value => if '\x00' ∈ value.toList then none else some .text
  | number value => server.numericType value
  | bool _ => some .boolean
  | null => some .unknown

/-- A derived table: a `VALUES` list with its columns, or the query that stands for no rows. -/
inductive DerivedTable where
  | values (columns : List String) (rows : List (List Cell))
  | noRows
  deriving DecidableEq

/-- The text of a row of a `VALUES` list. -/
def rowSql (quoting : SqlQuotingVersion) (row : List Cell) : String :=
  "(" ++ String.intercalate "," (row.map (Cell.sql quoting)) ++ ")"

/-- The text of a derived table with its alias. -/
def DerivedTable.sql (quoting : SqlQuotingVersion) (tableName : String) : DerivedTable → String
  | values columns rows =>
      "(VALUES " ++ String.intercalate ", " (rows.map (rowSql quoting)) ++ ") AS " ++
        quoteIdentifier tableName ++ "(" ++
        String.intercalate ", " (columns.map quoteIdentifier) ++ ")"
  | noRows => "(SELECT NULL WHERE false) AS " ++ quoteIdentifier tableName

/-- The names of the columns. -/
def DerivedTable.columns (server : Server) : DerivedTable → List String
  | values columns _ => columns
  | noRows => [server.unnamedColumn]

/-- The rows. -/
def DerivedTable.rows : DerivedTable → List (List Cell)
  | values _ rows => rows
  | noRows => []

/-- The types of the cells of a column. -/
def columnTypes (server : Server) (rows : List (List Cell)) (index : Nat) : List SqlType :=
  rows.filterMap fun row => (row[index]?).bind (Cell.type server)

/-- The server accepts the table: there are columns, and rows as long as the list of columns, every
cell has a type, and every column a common one. -/
def DerivedTable.Accepted (server : Server) : DerivedTable → Prop
  | values columns rows =>
      columns ≠ [] ∧ rows ≠ [] ∧ (∀ row ∈ rows, row.length = columns.length) ∧
        (∀ row ∈ rows, ∀ cell ∈ row, (cell.type server).isSome) ∧
        ∀ index < columns.length, (server.commonType (columnTypes server rows index)).isSome
  | noRows => True

/-- The cell is NULL, or denotes the stored scalar, or its JSON text. -/
inductive Denotes : Cell → Value → Prop
  | null : Denotes .null .null
  | text (value : String) : Denotes (.text value) (.string value)
  | number (value : Number) : Denotes (.number value) (.number value)
  | bool (value : Bool) : Denotes (.bool value) (.bool value)
  | array (items : List Value) : Denotes (.text (print (.array items))) (.array items)
  | object (members : List (String × Value)) :
      Denotes (.text (print (.object members))) (.object members)

/-- The table is accepted and has the columns and the rows of a stored result. -/
structure Reproduces (server : Server) (table : DerivedTable) (names : List String)
    (stored : List (List Value)) : Prop where
  accepted : table.Accepted server
  columns : table.columns server = names
  rows : List.Forall₂ (List.Forall₂ Denotes) table.rows stored

/-! ## The table of a result -/

/-- The cell that a stored value is written as. -/
def cellOf : Value → Cell
  | .string value => .text value
  | .number value => .number value
  | .bool value => .bool value
  | .null => .null
  | .array items => .text (print (.array items))
  | .object members => .text (print (.object members))

/-- The category of the cell of a stored value. -/
def categoryOf : Value → TypeCategory
  | .string _ => .string
  | .number _ => .numeric
  | .bool _ => .boolean
  | .null => .unknown
  | .array _ => .string
  | .object _ => .string

/-- The derived table of stored rows. -/
def rowSetTable (names : List String) (stored : List (List Value)) : DerivedTable :=
  match stored with
  | [] => .noRows
  | _ => .values names (stored.map fun values => values.map cellOf)

/-- What the expansion of stored rows needs: rows to take the names from, a text that can be read
back, strings without U+0000, and one category in each column. -/
structure Expandable (names : List String) (stored : List (List Value)) : Prop where
  columns : stored = [] → names = ["?column?"]
  depth : ∀ values ∈ stored, ∀ value ∈ values, value.depth < 125
  characters : ∀ values ∈ stored, ∀ text, Value.string text ∈ values → '\x00' ∉ text.toList
  categories : ∀ index : Nat, ∀ first ∈ stored, ∀ second ∈ stored, ∀ a b,
    first[index]? = some a → second[index]? = some b →
    categoryOf a ≠ .unknown → categoryOf b ≠ .unknown → categoryOf a = categoryOf b

theorem cell_denotes (value : Value) : Denotes (cellOf value) value := by
  cases value with
  | null => exact .null
  | bool value => exact .bool value
  | number value => exact .number value
  | string value => exact .text value
  | array items => exact .array items
  | object members => exact .object members

/-- A stored value is written as its cell. -/
theorem row_set_value_eq (quoting : SqlQuotingVersion) (value : Value) :
    rowSetValue quoting (some value) = (cellOf value).sql quoting := by
  cases value <;> rfl

/-- Looking up the names of an object in their order finds its values. -/
theorem lookup_names {members : List (String × Value)} (h : (members.map (·.1)).Nodup) :
    (members.map (·.1)).map (fun name => members.lookup name) =
      members.map fun member => some member.2 := by
  induction members with
  | nil => rfl
  | cons member members ih =>
      obtain ⟨name, value⟩ := member
      obtain ⟨hfresh, hrest⟩ := List.nodup_cons.1 h
      simp only [List.map_cons, List.lookup_cons_self, List.cons.injEq, true_and]
      rw [← ih hrest]
      refine List.map_congr_left fun other hother => ?_
      have hne : other ≠ name := fun hsame => hfresh (hsame ▸ hother)
      rw [List.lookup_cons, beq_false_of_ne hne]

/-- The rows of values of an expansion are written from the cells. -/
theorem row_set_rows_eq (name : String) (quoting : SqlQuotingVersion) {names : List String}
    (hnames : names.Nodup) {objects : List (List (String × Value))}
    (h : ∀ members ∈ objects, members.map (·.1) = names) :
    rowSetRows name quoting names (objects.map .object) =
      .ok ((objects.map fun members => (members.map (·.2)).map cellOf).map (rowSql quoting)) := by
  induction objects with
  | nil => rfl
  | cons members objects ih =>
      obtain ⟨hfirst, hrest⟩ := List.forall_mem_cons.1 h
      have hvalues : names.map (fun column => rowSetValue quoting (members.lookup column)) =
          ((members.map (·.2)).map cellOf).map (Cell.sql quoting) := by
        have hdistinct : (members.map (·.1)).Nodup := hfirst ▸ hnames
        have hlookup := congrArg (List.map (rowSetValue quoting)) (lookup_names hdistinct)
        rw [hfirst, List.map_map, List.map_map] at hlookup
        refine hlookup.trans ?_
        rw [List.map_map, List.map_map]
        exact List.map_congr_left fun member _ => row_set_value_eq quoting member.2
      rw [List.map_cons, rowSetRows, ih hrest]
      show Except.ok _ = Except.ok _
      rw [hvalues]
      rfl

/-- The expansion of a stored result is the text of its table. -/
theorem expand_row_set_eq (name : String) (quoting : SqlQuotingVersion) {names : List String}
    (hnames : names.Nodup) {objects : List (List (String × Value))}
    (h : ∀ members ∈ objects, members.map (·.1) = names)
    (hcount : objects.length ≤ maxRowsetExpansion)
    (hread : fromStr (print (queryResult objects)) = .ok (queryResult objects)) :
    expandRowSet name (print (queryResult objects)) (some quoting) =
      .ok ((rowSetTable names (objects.map fun members => members.map (·.2))).sql quoting name) := by
  have hrows : ((queryResult objects).get? "rows").bind Value.asArray =
      some (objects.map .object) := rfl
  have hlimit : ¬ (objects.map Value.object).length > maxRowsetExpansion := by
    rw [List.length_map]
    omega
  unfold expandRowSet
  rw [hread]
  simp only [Except.mapError, bind, Except.bind, hrows, if_neg hlimit, pure, Except.pure]
  cases objects with
  | nil => rfl
  | cons members objects =>
      have hfirst : members.map (·.1) = names := h members List.mem_cons_self
      have hvalues := row_set_rows_eq name quoting hnames h
      rw [List.map_cons] at hvalues
      rw [List.map_cons]
      dsimp only [Value.asObject]
      rw [hfirst, hvalues]
      have htable : rowSetTable names ((members :: objects).map fun members => members.map (·.2)) =
          .values names ((members :: objects).map fun members => (members.map (·.2)).map cellOf) := by
        show DerivedTable.values _ _ = _
        rw [List.map_map]
        rfl
      exact congrArg (fun table => Except.ok (table.sql quoting name)) htable.symm

/-- Only a text that can be read is expanded. -/
theorem expand_row_set_reads {name json expansion : String} {sqlQuoting : Option SqlQuotingVersion}
    (h : expandRowSet name json sqlQuoting = .ok expansion) : ∃ value, fromStr json = .ok value := by
  cases hread : fromStr json with
  | ok value => exact ⟨value, rfl⟩
  | error e =>
      unfold expandRowSet at h
      rw [hread] at h
      cases h

/-! ## Acceptance -/

section Acceptance

variable {server : Server} (hserver : server.Documented)

include hserver

/-- The cell of a value has a type of the value's category, unless its text contains U+0000. -/
theorem cell_type_spec {value : Value} (hheld : ∀ n, value = .number n → Held n) :
    (∀ type, (cellOf value).type server = some type → type.category = categoryOf value) ∧
      (((cellOf value).type server).isSome ↔
        ∀ text, value = .string text → '\x00' ∉ text.toList) := by
  have hjson : ∀ json : Value, (Cell.text (print json)).type server = some .text := by
    intro json
    refine if_neg fun hmem => ?_
    exact absurd (print_not_control json hmem) (by decide)
  cases value with
  | null => exact ⟨fun type h => (by cases h; rfl), fun _ text h => (by cases h), fun _ => rfl⟩
  | bool value => exact ⟨fun type h => (by cases h; rfl), fun _ text h => (by cases h), fun _ => rfl⟩
  | number n =>
      obtain ⟨found, hfound, hcategory⟩ := hserver.numeric n (hheld n rfl)
      have htype : (cellOf (.number n)).type server = some found := hfound
      rw [htype]
      exact ⟨fun type h => (by cases h; exact hcategory), fun _ text h => (by cases h), fun _ => rfl⟩
  | string value =>
      show (∀ type, (if '\x00' ∈ value.toList then none else some SqlType.text) = some type → _) ∧
        ((if '\x00' ∈ value.toList then none else some SqlType.text).isSome ↔ _)
      split_ifs with hnul
      · exact ⟨fun type h => (by cases h), fun h => (by cases h), fun h => absurd hnul (h value rfl)⟩
      · exact ⟨fun type h => (by cases h; rfl), fun _ text h => (by cases h; exact hnul), fun _ => rfl⟩
  | array items =>
      rw [cellOf, hjson]
      exact ⟨fun type h => (by cases h; rfl), fun _ text h => (by cases h), fun _ => rfl⟩
  | object members =>
      rw [cellOf, hjson]
      exact ⟨fun type h => (by cases h; rfl), fun _ text h => (by cases h), fun _ => rfl⟩

omit hserver in
/-- The types of a column are those of the cells of its values. -/
theorem mem_column_types {stored : List (List Value)} {index : Nat} {type : SqlType} :
    type ∈ columnTypes server (stored.map fun values => values.map cellOf) index ↔
      ∃ values ∈ stored, ∃ value, values[index]? = some value ∧
        (cellOf value).type server = some type := by
  simp only [columnTypes, List.mem_filterMap, List.mem_map, Option.bind_eq_some_iff]
  constructor
  · rintro ⟨_, ⟨values, hvalues, rfl⟩, cell, hcell, htype⟩
    rw [List.getElem?_map, Option.map_eq_some_iff] at hcell
    obtain ⟨value, hvalue, rfl⟩ := hcell
    exact ⟨values, hvalues, value, hvalue, htype⟩
  · rintro ⟨values, hvalues, value, hvalue, htype⟩
    refine ⟨_, ⟨values, hvalues, rfl⟩, cellOf value, ?_, htype⟩
    rw [List.getElem?_map, hvalue]
    rfl

/-- A table with rows is accepted exactly if its texts have no U+0000 and its columns one category. -/
theorem accepted_iff {names : List String} {stored : List (List Value)} (hnames : names ≠ [])
    (hsome : stored ≠ [])
    (hwidth : ∀ values ∈ stored, values.length = names.length)
    (hheld : ∀ values ∈ stored, ∀ n, Value.number n ∈ values → Held n) :
    (rowSetTable names stored).Accepted server ↔
      (∀ values ∈ stored, ∀ text, Value.string text ∈ values → '\x00' ∉ text.toList) ∧
      ∀ index : Nat, ∀ first ∈ stored, ∀ second ∈ stored, ∀ a b,
        first[index]? = some a → second[index]? = some b →
        categoryOf a ≠ .unknown → categoryOf b ≠ .unknown → categoryOf a = categoryOf b := by
  have htable : rowSetTable names stored =
      .values names (stored.map fun values => values.map cellOf) := by
    cases stored with
    | nil => exact absurd rfl hsome
    | cons first rest => rfl
  have hcell : ∀ values ∈ stored, ∀ value ∈ values,
      (∀ type, (cellOf value).type server = some type → type.category = categoryOf value) ∧
        (((cellOf value).type server).isSome ↔
          ∀ text, value = .string text → '\x00' ∉ text.toList) := by
    intro values hvalues value hvalue
    exact cell_type_spec hserver fun n hn => hheld values hvalues n (hn ▸ hvalue)
  rw [htable]
  constructor
  · rintro ⟨-, -, -, htyped, hcommon⟩
    have htype : ∀ values ∈ stored, ∀ value ∈ values, ((cellOf value).type server).isSome :=
      fun values hvalues value hvalue =>
        htyped _ (List.mem_map_of_mem hvalues) _ (List.mem_map_of_mem hvalue)
    refine ⟨fun values hvalues text htext => ?_, ?_⟩
    · exact ((hcell values hvalues _ htext).2.1 (htype values hvalues _ htext)) text rfl
    · intro index first hfirst second hsecond a b ha hb hka hkb
      have hbound : index < names.length := by
        rw [← hwidth first hfirst]
        exact (List.getElem?_eq_some_iff.1 ha).1
      obtain ⟨typeA, htypeA⟩ := Option.isSome_iff_exists.1
        (htype first hfirst a (List.mem_of_getElem? ha))
      obtain ⟨typeB, htypeB⟩ := Option.isSome_iff_exists.1
        (htype second hsecond b (List.mem_of_getElem? hb))
      have hsame := (hserver.common _).1 (hcommon index hbound)
        typeA (mem_column_types.2 ⟨first, hfirst, a, ha, htypeA⟩)
        typeB (mem_column_types.2 ⟨second, hsecond, b, hb, htypeB⟩)
      rw [(hcell first hfirst a (List.mem_of_getElem? ha)).1 typeA htypeA,
        (hcell second hsecond b (List.mem_of_getElem? hb)).1 typeB htypeB] at hsame
      exact hsame hka hkb
  · rintro ⟨hcharacters, hcategories⟩
    refine ⟨hnames, fun hnil => hsome (List.map_eq_nil_iff.1 hnil), ?_, ?_, ?_⟩
    · intro row hrow
      obtain ⟨values, hvalues, rfl⟩ := List.mem_map.1 hrow
      rw [List.length_map]
      exact hwidth values hvalues
    · intro row hrow cell hmem
      obtain ⟨values, hvalues, rfl⟩ := List.mem_map.1 hrow
      obtain ⟨value, hvalue, rfl⟩ := List.mem_map.1 hmem
      exact (hcell values hvalues value hvalue).2.2 fun text htext =>
        hcharacters values hvalues text (htext ▸ hvalue)
    · intro index _
      refine (hserver.common _).2 fun typeA htypeA typeB htypeB hka hkb => ?_
      obtain ⟨first, hfirst, a, ha, htypeA⟩ := mem_column_types.1 htypeA
      obtain ⟨second, hsecond, b, hb, htypeB⟩ := mem_column_types.1 htypeB
      rw [(hcell first hfirst a (List.mem_of_getElem? ha)).1 typeA htypeA] at hka ⊢
      rw [(hcell second hsecond b (List.mem_of_getElem? hb)).1 typeB htypeB] at hkb ⊢
      exact hcategories index first hfirst second hsecond a b ha hb hka hkb

end Acceptance

/-! ## Results of a query -/

/-- The result text nests less than the recursion limit exactly if the stored values nest less than
125 levels. -/
theorem query_result_depth_iff {objects : List (List (String × Value))} :
    (queryResult objects).depth < recursionLimit ↔
      ∀ members ∈ objects, ∀ member ∈ members, member.2.depth < 125 := by
  have hdepth : (queryResult objects).depth =
      Value.depthItems (objects.map .object) + 2 := by
    simp only [queryResult, Value.depth, Value.depthMembers, max_self, Nat.max_zero]
  have hlimit : recursionLimit = 128 := rfl
  have hobject : ∀ members : List (String × Value), (Value.object members).depth < 126 ↔
      ∀ member ∈ members, member.2.depth < 125 := by
    intro members
    rw [← depth_members_lt_iff (by decide), Value.depth]
    omega
  have hitems : Value.depthItems (objects.map .object) < 126 ↔
      ∀ members ∈ objects, ∀ member ∈ members, member.2.depth < 125 := by
    rw [depth_items_lt_iff (by decide), List.forall_mem_map]
    exact forall₂_congr fun members _ => hobject members
  rw [← hitems, hdepth, hlimit]
  omega

/-- A result of objects with distinct names and well-formed values is well formed. -/
theorem query_result_well_formed {objects : List (List (String × Value))}
    (hnames : ∀ members ∈ objects, (members.map (·.1)).Nodup)
    (h : ∀ members ∈ objects, ∀ member ∈ members, member.2.WellFormed) :
    (queryResult objects).WellFormed := by
  have hrows : (Value.array (objects.map .object)).WellFormed := by
    refine array_well_formed (List.forall_mem_map.2 fun members hmembers => ?_)
    exact ⟨hnames members hmembers, well_formed_members (h members hmembers)⟩
  exact ⟨by simp, hrows, trivial, trivial⟩

/-- What follows for the second of two related items holds of all second items. -/
theorem forall_second {α β : Type} {R : α → β → Prop} {p : β → Prop} {items : List α}
    {images : List β} (h : List.Forall₂ R items images) (himp : ∀ item image, R item image → p image) :
    ∀ image ∈ images, p image :=
  ((List.forall₂_and_left images items).1
    (h.flip.imp fun image item hrelated => ⟨himp item image hrelated, hrelated⟩)).1

/-- Every row is stored as the values of its own columns, in their order. -/
def Stores {Data : Type} (driver : Driver Data) (rows : List (PgRow Data))
    (stored : List (List Value)) : Prop :=
  List.Forall₂ (List.Forall₂ fun field value => ownValue driver field = .ok value) rows stored

/-- Cells are decoded as values that JSON holds: members have distinct names, and numbers are 64-bit
integers or doubles. -/
structure DecodesHeld {Data : Type} (driver : Driver Data) : Prop where
  well_formed : ∀ type typeName cell value, driver.decode type typeName cell = .ok value →
    value.toJson.WellFormed
  number : ∀ type typeName cell value, driver.decode type typeName cell = .ok value →
    ∀ n, value.toJson = .number n → Held n

section Query

variable {Data : Type} {driver : Driver Data}

theorem own_value_held (h : DecodesHeld driver) {field : ExecuteSql.Field Data} {value : Value}
    (hvalue : ownValue driver field = .ok value) :
    value.WellFormed ∧ ∀ n, value = .number n → Held n := by
  unfold ownValue at hvalue
  split at hvalue
  · next type cell _ _ =>
      cases hdecode : driver.decode type field.column.typeName cell with
      | error e =>
          rw [hdecode] at hvalue
          cases hvalue
      | ok decoded =>
          rw [hdecode] at hvalue
          cases hvalue
          exact ⟨h.well_formed _ _ _ _ hdecode, h.number _ _ _ _ hdecode⟩
  · cases hvalue
    exact ⟨trivial, fun n hn => (by cases hn)⟩
  · cases hvalue
    exact ⟨trivial, fun n hn => (by cases hn)⟩
  · cases hvalue

/-- A query with distinct column names leaves an object of each row with these names and the row's
own values. -/
theorem query_objects (hdriver : driver.Documented) {names : List String} (hnames : names.Nodup)
    {rows : List (PgRow Data)} (hrows : ∀ row ∈ rows, columnNames row = names)
    (hsupported : ∀ row ∈ rows, ∀ field ∈ row,
      columnDecoding field.column.typeName ≠ .unsupported)
    {text : String} (h : executeQuery driver (.ok rows) = .ok text) :
    ∃ objects, text = print (queryResult objects) ∧ objects.length = rows.length ∧
      (∀ members ∈ objects, members.map (·.1) = names) ∧
      Stores driver rows (objects.map fun members => members.map (·.2)) := by
  obtain ⟨objects, hobjects, htext⟩ := bind_eq_ok h
  cases htext
  have hencoded := (map_m_eq_ok_iff _ _).1 hobjects
  have hrow : List.Forall₂ (fun row members => members.map (·.1) = names ∧
      List.Forall₂ (fun field value => ownValue driver field = .ok value) row
        (members.map (·.2))) rows objects := by
    refine List.Forall₂.imp ?_ ((List.forall₂_and_left (p := fun row => row ∈ rows) _ _).2
      ⟨fun row hrow => hrow, hencoded⟩)
    rintro row members ⟨hmem, hmembers⟩
    have hfields := ((encode_row_stored hdriver (hsupported row hmem)).2 members hmembers).distinct
      ((hrows row hmem).symm ▸ hnames)
    refine ⟨?_, List.forall₂_map_right_iff.2 (hfields.imp fun _ _ hfield => hfield.2)⟩
    have hsame : List.Forall₂ Eq (columnNames row) (members.map (·.1)) :=
      List.forall₂_map_left_iff.2 (List.forall₂_map_right_iff.2
        (hfields.imp fun _ _ hfield => hfield.1.symm))
    rw [List.forall₂_eq_eq_eq] at hsame
    rw [← hsame, hrows row hmem]
  exact ⟨objects, rfl, hencoded.length_eq.symm, forall_second hrow fun _ _ h => h.1,
    List.forall₂_map_right_iff.2 (hrow.imp fun _ _ h => h.2)⟩

/-- The rows of a table are the stored rows. -/
theorem table_rows_denote (names : List String) (stored : List (List Value)) :
    List.Forall₂ (List.Forall₂ Denotes) (rowSetTable names stored).rows stored := by
  have hrows : (rowSetTable names stored).rows = stored.map fun values => values.map cellOf := by
    cases stored <;> rfl
  rw [hrows, List.forall₂_map_left_iff, List.forall₂_same]
  intro values _
  rw [List.forall₂_map_left_iff, List.forall₂_same]
  exact fun value _ => cell_denotes value

end Query

/-! ## A query without rows, and a column of mixed values -/

/-- The wider of two types of a category. -/
def widerType : SqlType → SqlType → SqlType
  | .integer, other => other
  | .bigint, .numeric => .numeric
  | type, _ => type

/-- A server that types constants and lists of values as PostgreSQL does. -/
def postgres : Server where
  numericType n :=
    if n.exponent.any (131072 < ·) then none
    else if n.fraction ≠ [] ∨ n.exponent.isSome then some .numeric
    else if n.whole < 2 ^ 31 then some .integer
    else if n.whole < 2 ^ 63 then some .bigint
    else some .numeric
  commonType types :=
    match types.filter (· ≠ .unknown) with
    | [] => some .text
    | first :: rest =>
        if rest.all (·.category = first.category) then some (rest.foldl widerType first) else none
  unnamedColumn := "?column?"

theorem postgres_documented : postgres.Documented where
  numeric n hheld := by
    have hexponent : n.exponent.any (131072 < ·) = false := by
      cases hsome : n.exponent with
      | none => rfl
      | some e =>
          have hbound := (hheld.exponent e hsome).2
          simp only [Option.any_some, decide_eq_false_iff_not]
          omega
    simp only [postgres, hexponent, Bool.false_eq_true, if_false]
    split_ifs
    · exact ⟨_, rfl, rfl⟩
    · exact ⟨_, rfl, rfl⟩
    · exact ⟨_, rfl, rfl⟩
    · exact ⟨_, rfl, rfl⟩
  common types := by
    have hknown : ∀ type : SqlType, type ≠ .unknown ↔ type.category ≠ .unknown := by
      intro type
      cases type <;> decide
    have hmem : ∀ type, type ∈ types.filter (· ≠ .unknown) ↔
        type ∈ types ∧ type.category ≠ .unknown := by
      intro type
      rw [List.mem_filter, decide_eq_true_iff, hknown]
    simp only [postgres]
    cases hfilter : types.filter (· ≠ .unknown) with
    | nil =>
        rw [hfilter] at hmem
        refine ⟨fun _ first hfirst _ _ hka => ?_, fun _ => rfl⟩
        exact absurd ((hmem first).2 ⟨hfirst, hka⟩) List.not_mem_nil
    | cons lead rest =>
        rw [hfilter] at hmem
        have hlead := (hmem lead).1 List.mem_cons_self
        dsimp only
        constructor
        · intro h
          have hall : ∀ type ∈ rest, type.category = lead.category := by
            split_ifs at h with hsame
            · simpa using hsame
            · cases h
          have hown : ∀ type ∈ types, type.category ≠ .unknown → type.category = lead.category := by
            intro type htype hcategory
            rcases List.mem_cons.1 ((hmem type).2 ⟨htype, hcategory⟩) with rfl | hrest
            · rfl
            · exact hall type hrest
          intro first hfirst second hsecond hka hkb
          rw [hown first hfirst hka, hown second hsecond hkb]
        · intro h
          have hsame : rest.all (fun type => type.category = lead.category) = true := by
            refine List.all_eq_true.2 fun type hrest => decide_eq_true ?_
            obtain ⟨htype, hcategory⟩ := (hmem type).1 (List.mem_cons_of_mem _ hrest)
            exact h type htype lead hlead.1 hcategory hlead.2
          rw [if_pos hsame]
          rfl
  unnamed := rfl

/-- The values that the driver below decodes. -/
def storable : RustValue → Bool
  | .int value => value.natAbs < 2 ^ 64
  | .string _ => true
  | .json (.string _) => true
  | .json (.number n) => n.whole < 2 ^ 64 && n.fraction.isEmpty && n.exponent.isNone
  | _ => false

/-- A driver of integers, texts, and JSON texts and integers. -/
def storableDriver : Driver RustValue :=
  { lastColumnDriver with
    decode := fun _ _ cell => if storable cell then .ok cell else .error "value out of range" }

theorem storable_driver_documented : storableDriver.Documented where
  by_name := last_column_documented.by_name
  compatible_iff := last_column_documented.compatible_iff

theorem storable_decodes_held : DecodesHeld storableDriver := by
  have hdecode : ∀ type typeName cell value,
      storableDriver.decode type typeName cell = .ok value → storable value = true := by
    intro type typeName cell value h
    simp only [storableDriver] at h
    split_ifs at h with hstorable
    cases h
    exact hstorable
  constructor
  case well_formed =>
    intro type typeName cell value h
    have hstorable := hdecode type typeName cell value h
    cases value with
    | json json =>
        cases json with
        | string _ => trivial
        | number _ => trivial
        | null => cases hstorable
        | bool _ => cases hstorable
        | array _ => cases hstorable
        | object _ => cases hstorable
    | float finite => cases hstorable
    | bool _ => trivial
    | int _ => trivial
    | string _ => trivial
    | shown _ => trivial
  case number =>
    intro type typeName cell value h n hn
    have hstorable := hdecode type typeName cell value h
    cases value with
    | int value =>
        cases hn
        have hbound : value.natAbs < 2 ^ 64 := of_decide_eq_true hstorable
        exact ⟨lt_trans hbound (by decide), Nat.zero_le _, fun e he => (by cases he)⟩
    | json json =>
        cases hn
        simp only [storable, Bool.and_eq_true, decide_eq_true_eq, List.isEmpty_iff,
          Option.isNone_iff_eq_none] at hstorable
        obtain ⟨⟨hwhole, hfraction⟩, hexponent⟩ := hstorable
        refine ⟨lt_trans hwhole (by decide), ?_, fun e he => ?_⟩
        · rw [hfraction]
          exact Nat.zero_le _
        · rw [hexponent] at he
          cases he
    | float finite => cases hstorable
    | bool _ => cases hn
    | string _ => cases hn
    | shown _ => cases hn

/-- A row of one column. -/
def oneColumn (name typeName : String) (cell : Option RustValue) : PgRow RustValue :=
  [⟨⟨name, typeName⟩, cell⟩]

end PgDurable.RowSet
