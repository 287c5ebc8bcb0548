import Mathlib.Data.List.Nodup
import PgDurable.Library.Json.Codec
import PgDurable.Library.Json.Text

/-!
# Results of SQL queries

`executeQuery` writes the rows that a query returns as one JSON text. It walks the columns of a row
by their position and decodes each by its name, with the type at the position. The database driver
is a parameter: it finds the column of a name, checks the type and decodes the cell.
`rows_stored_iff` says when every name is stored with the value of a column of that name.
-/

namespace PgDurable.ExecuteSql

open Json

/-! ## Columns -/

/-- The Rust types that columns are decoded as. -/
inductive RustType where
  | bool
  | i16
  | i32
  | i64
  | f32
  | f64
  | string
  | bigDecimal
  | uuid
  | dateTimeUtc
  | naiveDateTime
  | naiveDate
  | json
  deriving DecidableEq

/-- What the code does with a column. -/
inductive Decoding where
  | decoded (type : RustType)
  | void
  | unsupported
  deriving DecidableEq

/-- The decoding of the columns of a declared type. -/
def columnDecoding (typeName : String) : Decoding :=
  match typeName with
  | "BOOL" => .decoded .bool
  | "INT2" => .decoded .i16
  | "INT4" => .decoded .i32
  | "INT8" => .decoded .i64
  | "FLOAT4" => .decoded .f32
  | "FLOAT8" => .decoded .f64
  | "TEXT" => .decoded .string
  | "VARCHAR" => .decoded .string
  | "BPCHAR" => .decoded .string
  | "NAME" => .decoded .string
  | "NUMERIC" => .decoded .bigDecimal
  | "UUID" => .decoded .uuid
  | "TIMESTAMPTZ" => .decoded .dateTimeUtc
  | "TIMESTAMP" => .decoded .naiveDateTime
  | "DATE" => .decoded .naiveDate
  | "JSONB" => .decoded .json
  | "JSON" => .decoded .json
  | "VOID" => .void
  | _ => .unsupported

/-- How an error names the decoded type. -/
def RustType.label : RustType → String
  | bool => "BOOL"
  | i16 => "INT2"
  | i32 => "INT4"
  | i64 => "INT8"
  | f32 => "FLOAT4"
  | f64 => "FLOAT8"
  | string => "text"
  | bigDecimal => "NUMERIC"
  | uuid => "UUID"
  | dateTimeUtc => "TIMESTAMPTZ"
  | naiveDateTime => "TIMESTAMP"
  | naiveDate => "DATE"
  | json => "JSON"

/-- A decoded value. -/
inductive RustValue where
  | bool (value : Bool)
  | int (value : Int)
  /-- A finite floating-point number as its decimal literal, or none for an infinity and `NaN`. -/
  | float (finite : Option Number)
  | string (value : String)
  /-- A number, identifier or time that is stored as the text it is shown with. -/
  | shown (text : String)
  | json (value : Value)
  deriving DecidableEq

/-- The literal of an integer. -/
def intLiteral (value : Int) : Number := ⟨value < 0, value.natAbs, [], none⟩

/-- The JSON value that is stored for a decoded value. -/
def RustValue.toJson : RustValue → Value
  | bool value => .bool value
  | int value => .number (intLiteral value)
  | float none => .null
  | float (some finite) => .number finite
  | string value => .string value
  | shown text => .string text
  | json value => value

/-- A column of a row. -/
structure PgColumn where
  name : String
  typeName : String
  deriving DecidableEq

/-- A column with its cell in a row; `none` is SQL NULL. -/
structure Field (Cell : Type) where
  column : PgColumn
  cell : Option Cell

/-- A row. -/
abbrev PgRow (Cell : Type) := List (Field Cell)

/-- The names of the columns. -/
def columnNames {Cell : Type} (row : PgRow Cell) : List String := row.map (·.column.name)

/-! ## The driver -/

/-- The database driver. -/
structure Driver (Cell : Type) where
  /-- The index of the column that a name is looked up as. -/
  indexOf : List String → String → Option Nat
  /-- Whether cells of a declared type can be decoded as a Rust type. -/
  compatible : RustType → String → Bool
  /-- Decode a cell of a declared type. -/
  decode : RustType → String → Cell → Except String RustValue
  columnNotFound : String → String
  mismatchedTypes : RustType → String → String

/-- What the driver documents: a name is looked up as one column that has it, and the supported
types are decoded as the Rust types they are listed with. -/
structure Driver.Documented {Cell : Type} (driver : Driver Cell) : Prop where
  by_name : ∀ names name, name ∈ names →
    ∃ index, driver.indexOf names name = some index ∧ names[index]? = some name
  compatible_iff : ∀ type typeName, columnDecoding typeName ≠ .unsupported →
    (driver.compatible type typeName = true ↔ columnDecoding typeName = .decoded type)

section Query

variable {Cell : Type} (driver : Driver Cell)

/-- The field that a name is looked up as. -/
def picked (row : PgRow Cell) (name : String) : Option (Field Cell) :=
  (driver.indexOf (columnNames row) name).bind (row[·]?)

/-- `Row::try_get` of an optional value: the type of a NULL is not checked. -/
def tryGet (row : PgRow Cell) (type : RustType) (name : String) :
    Except String (Option RustValue) :=
  match picked driver row name with
  | none => .error (driver.columnNotFound name)
  | some field =>
      match field.cell with
      | none => .ok none
      | some cell =>
          if driver.compatible type field.column.typeName then
            (driver.decode type field.column.typeName cell).map some
          else .error (driver.mismatchedTypes type field.column.typeName)

/-- Decode one column of a row: by its name, with its declared type. -/
def decodeColumn (row : PgRow Cell) (column : PgColumn) : Except String Value :=
  match columnDecoding column.typeName with
  | .decoded type =>
      match tryGet driver row type column.name with
      | .ok (some value) => .ok value.toJson
      | .ok none => .ok .null
      | .error e =>
          .error ("Failed to decode " ++ type.label ++ " column '" ++ column.name ++ "': " ++ e)
  | .void => .ok .null
  | .unsupported =>
      .error ("Unsupported column type '" ++ column.typeName ++ "' for column '" ++ column.name ++
        "'. Supported types: bool, int2, int4, int8, float4, float8, text, varchar, numeric, " ++
        "uuid, timestamptz, timestamp, date, jsonb, json, void.")

/-- Insert the columns into the row object, one after the other. -/
def encodeColumns (row : PgRow Cell) :
    List PgColumn → List (String × Value) → Except String (List (String × Value))
  | [], members => .ok members
  | column :: columns, members => do
      let value ← decodeColumn driver row column
      encodeColumns row columns (insertMember column.name value members)

/-- The object of a row. -/
def encodeRow (row : PgRow Cell) : Except String (List (String × Value)) :=
  encodeColumns driver row (row.map (·.column)) []

/-- The result text of row objects. -/
def queryResult (objects : List (List (String × Value))) : Value :=
  .object [("rows", .array (objects.map .object)),
    ("row_count", .number (Number.ofNat objects.length))]

/-- Execute a query: the rows that the driver fetches, as JSON. -/
def executeQuery (fetched : Except String (List (PgRow Cell))) : Except String String :=
  match fetched with
  | .error e => .error ("SQL execution failed: " ++ e)
  | .ok rows => do
      let objects ← rows.mapM (encodeRow driver)
      pure (print (queryResult objects))

/-! ## What is stored -/

/-- The value of a column: its own cell, decoded at its own declared type. -/
def ownValue (field : Field Cell) : Except String Value :=
  match columnDecoding field.column.typeName, field.cell with
  | .decoded type, some cell =>
      (driver.decode type field.column.typeName cell).map RustValue.toJson
  | .decoded _, none => .ok .null
  | .void, _ => .ok .null
  | .unsupported, _ => .error ("Unsupported column type '" ++ field.column.typeName ++ "'")

/-- The object stores every name, with the value of a column that has it; columns with distinct names
are stored in the order of the select list. -/
structure RowStored (row : PgRow Cell) (members : List (String × Value)) : Prop where
  stored : ∀ name value, members.lookup name = some value →
    ∃ field ∈ row, field.column.name = name ∧ ownValue driver field = .ok value
  every : ∀ field ∈ row, (members.lookup field.column.name).isSome
  distinct : (columnNames row).Nodup →
    List.Forall₂ (fun field member => member.1 = field.column.name ∧
      ownValue driver field = .ok member.2) row members

/-- The query succeeds with a result that stores every row. -/
def RowsStored (rows : List (PgRow Cell)) : Prop :=
  ∃ objects, executeQuery driver (.ok rows) = .ok (print (queryResult objects)) ∧
    List.Forall₂ (RowStored driver) rows objects

/-- The column that the name of a field is looked up as is NULL, or decoded as the same Rust type
without an error. -/
def Readable (row : PgRow Cell) (field : Field Cell) : Prop :=
  ∀ type found, columnDecoding field.column.typeName = .decoded type →
    picked driver row field.column.name = some found →
      found.cell = none ∨ ∃ cell value, found.cell = some cell ∧
        columnDecoding found.column.typeName = .decoded type ∧
        driver.decode type found.column.typeName cell = .ok value

/-! ## One column -/

variable {driver}

section Column

variable {row : PgRow Cell} (hdriver : driver.Documented)
  (hsupported : ∀ field ∈ row, columnDecoding field.column.typeName ≠ .unsupported)

include hdriver

/-- The name of a column is looked up as a column of the row that has it. -/
theorem picked_spec {field : Field Cell} (hfield : field ∈ row) :
    ∃ found ∈ row, picked driver row field.column.name = some found ∧
      found.column.name = field.column.name ∧ ((columnNames row).Nodup → found = field) := by
  have hname : field.column.name ∈ columnNames row := List.mem_map_of_mem hfield
  obtain ⟨index, hindex, hat⟩ := hdriver.by_name (columnNames row) _ hname
  rw [columnNames, List.getElem?_map, Option.map_eq_some_iff] at hat
  obtain ⟨found, hfound, hsame⟩ := hat
  refine ⟨found, List.mem_of_getElem? hfound, ?_, hsame, fun hnodup => ?_⟩
  · rw [picked, hindex]
    exact hfound
  · exact List.inj_on_of_nodup_map hnodup (List.mem_of_getElem? hfound) hfield hsame

include hsupported

/-- A readable column is decoded. -/
theorem decode_column_ok {field : Field Cell} (hfield : field ∈ row)
    (h : Readable driver row field) : ∃ value, decodeColumn driver row field.column = .ok value := by
  unfold decodeColumn
  cases hdecoding : columnDecoding field.column.typeName with
  | unsupported => exact absurd hdecoding (hsupported field hfield)
  | void => exact ⟨.null, rfl⟩
  | decoded type =>
      obtain ⟨found, hmem, hpicked, -, -⟩ := picked_spec hdriver hfield
      dsimp only
      rcases h type found hdecoding hpicked with hnull | ⟨cell, value, hcell, hsame, hdecode⟩
      · refine ⟨.null, ?_⟩
        rw [tryGet, hpicked]
        simp only [hnull]
      · refine ⟨value.toJson, ?_⟩
        have hcompatible := (hdriver.compatible_iff type _ (hsupported found hmem)).2 hsame
        rw [tryGet, hpicked]
        simp only [hcell, hcompatible, if_true, hdecode]
        rfl

/-- A column that is decoded is readable, and its value is that of a column with its name: its own
when names are distinct. -/
theorem decode_column_value {field : Field Cell} (hfield : field ∈ row) {value : Value}
    (h : decodeColumn driver row field.column = .ok value) :
    Readable driver row field ∧
      (∃ source ∈ row, source.column.name = field.column.name ∧
        ownValue driver source = .ok value) ∧
      ((columnNames row).Nodup → ownValue driver field = .ok value) := by
  unfold decodeColumn at h
  cases hdecoding : columnDecoding field.column.typeName with
  | unsupported => exact absurd hdecoding (hsupported field hfield)
  | void =>
      rw [hdecoding] at h
      cases h
      have hown : ownValue driver field = .ok .null := by
        rw [ownValue, hdecoding]
      refine ⟨fun type found htype => ?_, ⟨field, hfield, rfl, hown⟩, fun _ => hown⟩
      rw [hdecoding] at htype
      cases htype
  | decoded type =>
      obtain ⟨found, hmem, hpicked, hname, hdistinct⟩ := picked_spec hdriver hfield
      rw [hdecoding] at h
      simp only [tryGet, hpicked] at h
      have hown : ownValue driver found = .ok value ∧
          (found.cell = none ∨ ∃ cell decoded, found.cell = some cell ∧
            columnDecoding found.column.typeName = .decoded type ∧
            driver.decode type found.column.typeName cell = .ok decoded) := by
        cases hcell : found.cell with
        | none =>
            rw [hcell] at h
            cases h
            refine ⟨?_, Or.inl rfl⟩
            rw [ownValue, hcell]
            cases hfound : columnDecoding found.column.typeName with
            | decoded _ => rfl
            | void => rfl
            | unsupported => exact absurd hfound (hsupported found hmem)
        | some cell =>
            rw [hcell] at h
            dsimp only at h
            by_cases hcompatible : driver.compatible type found.column.typeName = true
            · have hsame := (hdriver.compatible_iff type _ (hsupported found hmem)).1 hcompatible
              rw [if_pos hcompatible] at h
              cases hdecode : driver.decode type found.column.typeName cell with
              | error e =>
                  rw [hdecode] at h
                  cases h
              | ok decoded =>
                  rw [hdecode] at h
                  cases h
                  refine ⟨?_, Or.inr ⟨cell, decoded, rfl, hsame, hdecode⟩⟩
                  rw [ownValue, hcell, hsame]
                  dsimp only
                  rw [hdecode]
                  rfl
            · rw [if_neg hcompatible] at h
              cases h
      refine ⟨fun other found' hother hfound' => ?_, ⟨found, hmem, hname, hown.1⟩, fun hnodup => ?_⟩
      · rw [hdecoding] at hother
        cases hother
        rw [hpicked] at hfound'
        cases hfound'
        exact hown.2
      · rw [← hdistinct hnodup]
        exact hown.1

end Column

/-! ## One row -/

/-- What the loop over columns leaves in the row object. -/
theorem encode_columns_spec {row : PgRow Cell} (columns : List PgColumn)
    {members result : List (String × Value)}
    (h : encodeColumns driver row columns members = .ok result) :
    (∀ column ∈ columns, ∃ value, decodeColumn driver row column = .ok value) ∧
      (∀ name value, result.lookup name = some value → members.lookup name = some value ∨
        ∃ column ∈ columns, column.name = name ∧ decodeColumn driver row column = .ok value) ∧
      (∀ name, (members.lookup name).isSome ∨ name ∈ columns.map (·.name) →
        (result.lookup name).isSome) ∧
      ((members.map (·.1) ++ columns.map (·.name)).Nodup → ∃ added, result = members ++ added ∧
        List.Forall₂ (fun column member => member.1 = column.name ∧
          decodeColumn driver row column = .ok member.2) columns added) := by
  induction columns generalizing members with
  | nil =>
      cases h
      exact ⟨List.forall_mem_nil _, fun _ _ => Or.inl, by simp, fun _ => ⟨[], by simp, .nil⟩⟩
  | cons column columns ih =>
      obtain ⟨value, hvalue, h⟩ := bind_eq_ok h
      obtain ⟨hdecoded, hstored, hevery, hdistinct⟩ := ih h
      refine ⟨List.forall_mem_cons.2 ⟨⟨value, hvalue⟩, hdecoded⟩, fun name found hfound => ?_,
        fun name hname => ?_, fun hnodup => ?_⟩
      · rcases hstored name found hfound with hbefore | ⟨later, hlater, hsame⟩
        · rw [lookup_insert_member] at hbefore
          split_ifs at hbefore with hown
          · cases hbefore
            exact Or.inr ⟨column, .head _, hown.symm, hvalue⟩
          · exact Or.inl hbefore
        · exact Or.inr ⟨later, .tail _ hlater, hsame⟩
      · refine hevery name ?_
        rw [lookup_insert_member]
        split_ifs with hown
        · exact Or.inl rfl
        · rw [List.map_cons, List.mem_cons] at hname
          rcases hname with hbefore | hname | hname
          · exact Or.inl hbefore
          · exact absurd hname hown
          · exact Or.inr hname
      · rw [List.map_cons] at hnodup
        have hfresh : column.name ∉ members.map (·.1) := fun hmem =>
          (List.nodup_cons.1 (List.nodup_middle.1 hnodup)).1 (List.mem_append_left _ hmem)
        rw [insert_member_fresh hfresh, List.map_append, List.append_assoc] at hdistinct
        obtain ⟨added, hresult, hadded⟩ := hdistinct hnodup
        exact ⟨(column.name, value) :: added, by rw [hresult, List.append_assoc]; rfl,
          .cons ⟨rfl, hvalue⟩ hadded⟩

/-- Columns that are all decoded are all inserted. -/
theorem encode_columns_ok {row : PgRow Cell} (columns : List PgColumn)
    (h : ∀ column ∈ columns, ∃ value, decodeColumn driver row column = .ok value)
    (members : List (String × Value)) :
    ∃ result, encodeColumns driver row columns members = .ok result := by
  induction columns generalizing members with
  | nil => exact ⟨members, rfl⟩
  | cons column columns ih =>
      obtain ⟨⟨value, hvalue⟩, hrest⟩ := List.forall_mem_cons.1 h
      obtain ⟨result, hresult⟩ := ih hrest (insertMember column.name value members)
      refine ⟨result, ?_⟩
      rw [encodeColumns, hvalue]
      exact hresult

section Row

variable (hdriver : driver.Documented)

include hdriver

/-- A row is encoded, and then stored, exactly if its columns are readable. -/
theorem encode_row_stored {row : PgRow Cell}
    (hsupported : ∀ field ∈ row, columnDecoding field.column.typeName ≠ .unsupported) :
    ((∃ members, encodeRow driver row = .ok members) ↔
      ∀ field ∈ row, Readable driver row field) ∧
    ∀ members, encodeRow driver row = .ok members → RowStored driver row members := by
  refine ⟨⟨?_, fun h => ?_⟩, fun members hmembers => ?_⟩
  · rintro ⟨members, hmembers⟩ field hfield
    obtain ⟨hdecoded, -⟩ := encode_columns_spec _ hmembers
    obtain ⟨value, hvalue⟩ := hdecoded field.column (List.mem_map_of_mem hfield)
    exact (decode_column_value hdriver hsupported hfield hvalue).1
  · refine encode_columns_ok _ (fun column hcolumn => ?_) []
    obtain ⟨field, hfield, rfl⟩ := List.mem_map.1 hcolumn
    exact decode_column_ok hdriver hsupported hfield (h field hfield)
  · obtain ⟨-, hstored, hevery, hdistinct⟩ := encode_columns_spec _ hmembers
    constructor
    case stored =>
      intro name value hlookup
      rcases hstored name value hlookup with hnone | ⟨column, hcolumn, hname, hvalue⟩
      · cases hnone
      · obtain ⟨field, hfield, rfl⟩ := List.mem_map.1 hcolumn
        obtain ⟨-, ⟨source, hsource, hsame, hown⟩, -⟩ :=
          decode_column_value hdriver hsupported hfield hvalue
        exact ⟨source, hsource, hsame.trans hname, hown⟩
    case every =>
      intro field hfield
      exact hevery _ (Or.inr (List.mem_map_of_mem (List.mem_map_of_mem hfield)))
    case distinct =>
      intro hnodup
      have hnames : (([] : List (String × Value)).map (·.1) ++
          (row.map (·.column)).map (·.name)).Nodup := by
        rw [List.map_map]
        exact hnodup
      obtain ⟨added, rfl, hadded⟩ := hdistinct hnames
      rw [List.forall₂_map_left_iff, List.forall₂_iff_zip] at hadded
      refine List.forall₂_iff_zip.2 ⟨hadded.1, fun {field member} hpair => ?_⟩
      obtain ⟨hname, hvalue⟩ := hadded.2 hpair
      have hfield := (List.of_mem_zip hpair).1
      exact ⟨hname, (decode_column_value hdriver hsupported hfield hvalue).2.2 hnodup⟩

end Row

/-- A query result stores every name with the value of a column that has it, and distinct names with
their own values, exactly if every column is looked up as one that is NULL or decoded as the same
Rust type without an error. -/
theorem rows_stored_iff (hdriver : driver.Documented) {rows : List (PgRow Cell)}
    (hsupported : ∀ row ∈ rows, ∀ field ∈ row,
      columnDecoding field.column.typeName ≠ .unsupported) :
    RowsStored driver rows ↔ ∀ row ∈ rows, ∀ field ∈ row, Readable driver row field := by
  have hrow := fun row hmem => encode_row_stored hdriver (hsupported row hmem)
  have hreadable : (∃ objects, rows.mapM (encodeRow driver) = .ok objects) ↔
      ∀ row ∈ rows, ∀ field ∈ row, Readable driver row field := by
    rw [map_m_succeeds_iff]
    exact forall₂_congr fun row hmem => (hrow row hmem).1
  rw [← hreadable]
  constructor
  · rintro ⟨_, hexecute, -⟩
    obtain ⟨objects, hobjects, -⟩ := bind_eq_ok hexecute
    exact ⟨objects, hobjects⟩
  · rintro ⟨objects, hobjects⟩
    refine ⟨objects, ?_, ?_⟩
    · rw [executeQuery, hobjects]
      rfl
    · have hencoded := (map_m_eq_ok_iff _ _).1 hobjects
      rw [List.forall₂_iff_zip] at hencoded ⊢
      refine ⟨hencoded.1, fun {row members} hpair => ?_⟩
      exact (hrow row (List.of_mem_zip hpair).1).2 members (hencoded.2 hpair)

end Query

/-! ## A driver that looks up the last column -/

/-- The index of the last occurrence of a name. -/
def lastIndexOf (name : String) : List String → Option Nat
  | [] => none
  | other :: names =>
      match lastIndexOf name names with
      | some index => some (index + 1)
      | none => if other = name then some 0 else none

theorem last_index_of_some {name : String} {names : List String} {index : Nat}
    (h : lastIndexOf name names = some index) : names[index]? = some name := by
  induction names generalizing index with
  | nil => cases h
  | cons other names ih =>
      rw [lastIndexOf] at h
      cases hlater : lastIndexOf name names with
      | some later =>
          rw [hlater] at h
          cases h
          exact ih hlater
      | none =>
          rw [hlater] at h
          dsimp only at h
          split_ifs at h with hsame
          cases h
          exact congrArg some hsame

theorem last_index_of_mem {name : String} {names : List String} (h : name ∈ names) :
    ∃ index, lastIndexOf name names = some index := by
  induction names with
  | nil => cases h
  | cons other names ih =>
      rw [lastIndexOf]
      cases hlater : lastIndexOf name names with
      | some later => exact ⟨later + 1, rfl⟩
      | none =>
          rcases List.mem_cons.1 h with rfl | hmem
          · exact ⟨0, if_pos rfl⟩
          · obtain ⟨index, hindex⟩ := ih hmem
            rw [hlater] at hindex
            cases hindex

/-- A driver whose cells are decoded values. -/
def lastColumnDriver : Driver RustValue where
  indexOf names name := lastIndexOf name names
  compatible type typeName := columnDecoding typeName = .decoded type
  decode _ _ cell := .ok cell
  columnNotFound name := "no column found for name: " ++ name
  mismatchedTypes type typeName :=
    "mismatched types; SQL type " ++ type.label ++ " is not compatible with SQL type " ++ typeName

theorem last_column_documented : lastColumnDriver.Documented where
  by_name _ _ hmem := by
    obtain ⟨index, hindex⟩ := last_index_of_mem hmem
    exact ⟨index, hindex, last_index_of_some hindex⟩
  compatible_iff _ _ _ := decide_eq_true_iff

/-- The row of a join of two tables with an `id` each. -/
def joinedRow (first second : String) : PgRow RustValue :=
  [⟨⟨"id", first⟩, some (.int 1)⟩, ⟨⟨"id", second⟩, some (.int 2)⟩]

/-- The theorem at a join whose columns have one type. -/
theorem equal_types_stored : RowsStored lastColumnDriver [joinedRow "INT4" "INT4"] := by
  refine (rows_stored_iff last_column_documented ?_).2 ?_
  · decide
  · intro row hrow field hfield type found htype hfound
    cases List.mem_singleton.1 hrow
    have hlast : found = ⟨⟨"id", "INT4"⟩, some (.int 2)⟩ := by
      simp only [joinedRow, List.mem_cons, List.not_mem_nil, or_false] at hfield
      rcases hfield with rfl | rfl
      · cases hfound
        rfl
      · cases hfound
        rfl
    subst hlast
    refine Or.inr ⟨_, _, rfl, ?_, rfl⟩
    simp only [joinedRow, List.mem_cons, List.not_mem_nil, or_false] at hfield
    rcases hfield with rfl | rfl
    · exact htype
    · exact htype

/-- A join whose columns have different types fails. -/
theorem different_types_fail :
    executeQuery lastColumnDriver (.ok [joinedRow "INT4" "INT8"]) =
        .error ("Failed to decode INT4 column 'id': mismatched types; SQL type INT4 is not " ++
          "compatible with SQL type INT8") ∧
      ¬ RowsStored lastColumnDriver [joinedRow "INT4" "INT8"] := by
  have hfails : executeQuery lastColumnDriver (.ok [joinedRow "INT4" "INT8"]) =
      .error ("Failed to decode INT4 column 'id': mismatched types; SQL type INT4 is not " ++
        "compatible with SQL type INT8") := by decide +kernel
  refine ⟨hfails, ?_⟩
  rintro ⟨objects, hexecute, -⟩
  rw [hfails] at hexecute
  cases hexecute

end PgDurable.ExecuteSql
