import PgDurable.Library.Text

/-!
# Inserting the nodes of a graph

`insertNodes` stores the nodes of a graph in batches, one statement a batch. `nodeInsertSql` numbers
the placeholders of a statement and `nodeArgs` binds their values. `groups`, `entries` and
`insertedRows` read a statement back as the server does: its lists in parentheses, and under each
column the argument that its placeholder names. `columns_receive_fields` says that each row receives
the fields of its node.
-/

namespace PgDurable.InsertNodes

open Text

/-- A node whose graph references and config children have been materialized. -/
structure MaterializedNode where
  id : String
  nodeType : String
  query : Option String
  resultName : Option String
  leftNode : Option String
  rightNode : Option String

/-! ## Batches -/

section Chunks

variable {α : Type}

/-- Cut at most `fuel` chunks off a list. -/
def chunksFrom (size : Nat) : Nat → List α → List (List α)
  | 0, _ => []
  | _ + 1, [] => []
  | fuel + 1, x :: xs => (x :: xs).take size :: chunksFrom size fuel ((x :: xs).drop size)

/-- The list cut into chunks of `size`; the last may be shorter. -/
def chunks (size : Nat) (xs : List α) : List (List α) := chunksFrom size xs.length xs

theorem chunks_from_flatten {size : Nat} (hsize : 0 < size) (fuel : Nat) (xs : List α)
    (h : xs.length ≤ fuel) : (chunksFrom size fuel xs).flatten = xs := by
  induction fuel generalizing xs with
  | zero =>
      rw [List.eq_nil_of_length_eq_zero (Nat.le_zero.1 h)]
      rfl
  | succ fuel ih =>
      cases xs with
      | nil => rfl
      | cons x xs =>
          have hdrop : ((x :: xs).drop size).length ≤ fuel := by
            rw [List.length_drop]
            omega
          show (x :: xs).take size ++ (chunksFrom size fuel ((x :: xs).drop size)).flatten = _
          rw [ih _ hdrop, List.take_append_drop]

theorem chunks_from_length {size : Nat} (fuel : Nat) (xs : List α) {chunk : List α}
    (h : chunk ∈ chunksFrom size fuel xs) : chunk.length ≤ size := by
  induction fuel generalizing xs with
  | zero => cases h
  | succ fuel ih =>
      cases xs with
      | nil => cases h
      | cons x xs =>
          have hcases : chunk = (x :: xs).take size ∨
              chunk ∈ chunksFrom size fuel ((x :: xs).drop size) := List.mem_cons.1 h
          rcases hcases with rfl | hrest
          · exact List.length_take_le _ _
          · exact ih _ hrest

/-- The chunks make up the list, in order. -/
theorem chunks_flatten {size : Nat} (hsize : 0 < size) (xs : List α) :
    (chunks size xs).flatten = xs :=
  chunks_from_flatten hsize _ _ le_rfl

end Chunks

/-- At most 1000 rows a statement. -/
def nodeInsertBatchSize : Nat := 1000

/-! ## The statement -/

/-- A placeholder, and whether its argument is an OID cast to a role. -/
structure Parameter where
  index : Nat
  regrole : Bool

def Parameter.text (parameter : Parameter) : String :=
  "$" ++ toString parameter.index ++
    if parameter.regrole then "::pg_catalog.oid::pg_catalog.regrole" else ""

/-- The columns, and how many they are. The schema before 0.2 has `login_role`. -/
def nodeColumns (legacyLoginRole : Bool) : String × Nat :=
  if legacyLoginRole then
    ("id, instance_id, node_type, query, result_name, left_node, right_node, submitted_by, " ++
      "login_role, database", 10)
  else
    ("id, instance_id, node_type, query, result_name, left_node, right_node, submitted_by, " ++
      "database", 9)

/-- The placeholders of a row. -/
def rowParameters (legacyLoginRole : Bool) (first : Nat) : List Parameter :=
  if legacyLoginRole then
    [⟨first, false⟩, ⟨first + 1, false⟩, ⟨first + 2, false⟩, ⟨first + 3, false⟩,
      ⟨first + 4, false⟩, ⟨first + 5, false⟩, ⟨first + 6, false⟩, ⟨first + 7, true⟩,
      ⟨first + 8, true⟩, ⟨first + 9, false⟩]
  else
    [⟨first, false⟩, ⟨first + 1, false⟩, ⟨first + 2, false⟩, ⟨first + 3, false⟩,
      ⟨first + 4, false⟩, ⟨first + 5, false⟩, ⟨first + 6, false⟩, ⟨first + 7, true⟩,
      ⟨first + 8, false⟩]

def rowText (parameters : List Parameter) : String :=
  "(" ++ ", ".intercalate (parameters.map Parameter.text) ++ ")"

def nodeInsertSql (rowCount : Nat) (legacyLoginRole : Bool) : String :=
  let (columns, parametersPerRow) := nodeColumns legacyLoginRole
  (List.range rowCount).foldl
    (fun sql rowIndex =>
      sql ++ (if 0 < rowIndex then ", " else "") ++
        rowText (rowParameters legacyLoginRole (rowIndex * parametersPerRow + 1)))
    ("INSERT INTO df.nodes (" ++ columns ++ ") VALUES ")

/-! ## The arguments -/

/-- A bound value. -/
inductive Argument where
  | text (value : Option String)
  | oid (value : Nat)
  deriving DecidableEq

/-- What a call stores with every node. -/
structure Submission where
  instanceId : String
  currentUserOid : Nat
  database : Option String
  legacyLoginRole : Bool

/-- The arguments of a node. -/
def nodeArgs (submission : Submission) (node : MaterializedNode) : List Argument :=
  [.text (some node.id), .text (some submission.instanceId), .text (some node.nodeType),
    .text node.query, .text node.resultName, .text node.leftNode, .text node.rightNode,
    .oid submission.currentUserOid] ++
  (if submission.legacyLoginRole then [.oid submission.currentUserOid] else []) ++
  [.text submission.database]

/-- Insert the nodes batch by batch. The first statement that fails ends the call. -/
def insertNodes {State : Type} (run : State → String → List Argument → Except String State)
    (submission : Submission) (nodes : List MaterializedNode) (state : State) :
    Except String State :=
  (chunks nodeInsertBatchSize nodes).foldlM
    (fun state batch =>
      match run state (nodeInsertSql batch.length submission.legacyLoginRole)
          (batch.flatMap (nodeArgs submission)) with
      | .ok next => .ok next
      | .error message =>
          .error ("Failed to insert node batch '" ++ (batch.head?.elim "" MaterializedNode.id) ++
            ".." ++ (batch.getLast?.elim "" MaterializedNode.id) ++ "': " ++ message))
    state

/-! ## Reading a statement -/

/-- The numbers behind the dollar signs of a text. -/
def placeholders : List Char → List Nat
  | [] => []
  | c :: rest =>
      if c = '$' then (parseDigits (rest.takeWhile Char.isDigit)).toList ++ placeholders rest
      else placeholders rest

/-- The lists in parentheses of a text. -/
def groups : List Char → List (List Char)
  | [] => []
  | c :: rest => if c = '(' then rest.takeWhile (· != ')') :: groups rest else groups rest

/-- The entries of a list. -/
def entries (group : List Char) : List (List Char) :=
  (group.splitOn ',').map (List.dropWhile (· == ' '))

/-- A stored value. -/
inductive Cell where
  | text (value : Option String)
  | oid (value : Nat)
  | role (oid : Nat)
  deriving DecidableEq

/-- The value of an argument under the casts behind its placeholder. -/
def castTo (casts : List Char) : Argument → Option Cell
  | .text value => if casts = [] then some (.text value) else none
  | .oid value =>
      if casts = [] then some (.oid value)
      else if casts = "::pg_catalog.oid::pg_catalog.regrole".toList then some (.role value)
      else none

/-- The argument under a number; the first is 1. -/
def argumentAt (args : List Argument) (number : Nat) : Option Argument :=
  if number = 0 then none else args[number - 1]?

/-- The value of an entry: the argument that its placeholder names. -/
def entryValue (args : List Argument) : List Char → Option Cell
  | [] => none
  | c :: rest =>
      if c = '$' then do
        let number ← parseDigits (rest.takeWhile Char.isDigit)
        let argument ← argumentAt args number
        castTo (rest.dropWhile Char.isDigit) argument
      else none

/-- The rows that a statement with its arguments inserts: each column with its value. -/
def insertedRows (sql : String) (args : List Argument) : List (List (List Char × Option Cell)) :=
  match groups sql.toList with
  | [] => []
  | columns :: rows =>
      rows.map fun row => (entries columns).zip ((entries row).map (entryValue args))

/-- The field of a node under the name of its column. -/
def nodeField (submission : Submission) (node : MaterializedNode) (column : List Char) :
    Option Cell :=
  match String.ofList column with
  | "id" => some (.text (some node.id))
  | "instance_id" => some (.text (some submission.instanceId))
  | "node_type" => some (.text (some node.nodeType))
  | "query" => some (.text node.query)
  | "result_name" => some (.text node.resultName)
  | "left_node" => some (.text node.leftNode)
  | "right_node" => some (.text node.rightNode)
  | "submitted_by" => some (.role submission.currentUserOid)
  | "login_role" => some (.role submission.currentUserOid)
  | "database" => some (.text submission.database)
  | _ => none

/-- The row of a node. -/
def nodeRow (submission : Submission) (node : MaterializedNode) :
    List (List Char × Option Cell) :=
  (entries (nodeColumns submission.legacyLoginRole).1.toList).map fun column =>
    (column, nodeField submission node column)

/-! ## Placeholders and lists of a text -/

theorem placeholders_append {front : List Char} (h : '$' ∉ front) (rest : List Char) :
    placeholders (front ++ rest) = placeholders rest := by
  induction front with
  | nil => rfl
  | cons c front ih =>
      rw [List.mem_cons, not_or] at h
      show placeholders (c :: (front ++ rest)) = placeholders rest
      rw [placeholders, if_neg (Ne.symm h.1), ih h.2]

theorem take_digits {n : Nat} {rest : List Char}
    (h : ∀ c tail, rest = c :: tail → c.isDigit = false) :
    (Nat.toDigits 10 n ++ rest).takeWhile Char.isDigit = Nat.toDigits 10 n ∧
      (Nat.toDigits 10 n ++ rest).dropWhile Char.isDigit = rest := by
  have hdigits : ∀ c ∈ Nat.toDigits 10 n, c.isDigit = true :=
    fun c hc => Nat.isDigit_of_mem_toDigits (by decide) (by decide) hc
  rw [List.takeWhile_append_of_pos hdigits, List.dropWhile_append_of_pos hdigits]
  cases rest with
  | nil => exact ⟨List.append_nil _, rfl⟩
  | cons c tail =>
      have hc := h c tail rfl
      rw [List.takeWhile_cons_of_neg (by rw [hc]; decide),
        List.dropWhile_cons_of_neg (by rw [hc]; decide)]
      exact ⟨List.append_nil _, rfl⟩

theorem placeholders_number {n : Nat} {rest : List Char}
    (h : ∀ c tail, rest = c :: tail → c.isDigit = false) :
    placeholders ('$' :: (Nat.toDigits 10 n ++ rest)) = n :: placeholders rest := by
  have hdollar : '$' ∉ Nat.toDigits 10 n := not_mem_to_digits (by decide) n
  rw [placeholders, if_pos rfl, (take_digits h).1, parse_digits_to_digits,
    placeholders_append hdollar]
  rfl

theorem groups_append {front : List Char} (h : '(' ∉ front) (rest : List Char) :
    groups (front ++ rest) = groups rest := by
  induction front with
  | nil => rfl
  | cons c front ih =>
      rw [List.mem_cons, not_or] at h
      show groups (c :: (front ++ rest)) = groups rest
      rw [groups, if_neg (Ne.symm h.1), ih h.2]

theorem groups_list {body : List Char} (hopen : '(' ∉ body) (hclose : ')' ∉ body)
    (rest : List Char) : groups ('(' :: (body ++ ')' :: rest)) = body :: groups rest := by
  have hbody : ∀ c ∈ body, (c != ')') = true :=
    fun c hc => bne_iff_ne.2 (fun heq => hclose (heq ▸ hc))
  have htake : (body ++ ')' :: rest).takeWhile (· != ')') = body := by
    rw [List.takeWhile_append_of_pos hbody, List.takeWhile_cons_of_neg (by decide),
      List.append_nil]
  rw [groups, if_pos rfl, htake, groups_append hopen, groups, if_neg (by decide)]

/-- A list separated by commas and blanks is one whose later entries start with a blank. -/
theorem intercalate_comma_blank (first : List Char) (fields : List (List Char)) :
    [',', ' '].intercalate (first :: fields) =
      [','].intercalate (first :: fields.map (' ' :: ·)) := by
  induction fields generalizing first with
  | nil => rfl
  | cons field fields ih =>
      rw [List.map_cons, List.intercalate_cons_cons, List.intercalate_cons_cons, ih]
      cases fields with
      | nil => simp
      | cons => simp [List.intercalate_cons_cons]

theorem entries_intercalate {fields : List (List Char)} (hne : fields ≠ [])
    (hcomma : ∀ field ∈ fields, ',' ∉ field) (hblank : ∀ field ∈ fields, ' ' ∉ field) :
    entries ([',', ' '].intercalate fields) = fields := by
  have hdrop : ∀ field ∈ fields, field.dropWhile (· == ' ') = field := by
    intro field hfield
    cases field with
    | nil => rfl
    | cons c tail =>
        have hc : c ≠ ' ' := fun heq => hblank _ hfield (heq ▸ List.mem_cons_self)
        exact List.dropWhile_cons_of_neg (by rw [beq_iff_eq]; exact hc)
  cases fields with
  | nil => exact absurd rfl hne
  | cons first fields =>
      have hsplit : ([','].intercalate (first :: fields.map (' ' :: ·))).splitOn ',' =
          first :: fields.map (' ' :: ·) := by
        refine List.splitOn_intercalate ',' ?_ (List.cons_ne_nil _ _)
        intro field hfield
        rcases List.mem_cons.1 hfield with rfl | hlater
        · exact hcomma _ List.mem_cons_self
        · obtain ⟨later, hmem, rfl⟩ := List.mem_map.1 hlater
          rw [List.mem_cons, not_or]
          exact ⟨by decide, hcomma _ (List.mem_cons_of_mem _ hmem)⟩
      rw [entries, intercalate_comma_blank, hsplit, List.map_cons, List.map_map,
        hdrop _ List.mem_cons_self]
      congr 1
      calc fields.map (List.dropWhile (· == ' ') ∘ (' ' :: ·))
          = fields.map id :=
            List.map_congr_left fun field hfield => hdrop _ (List.mem_cons_of_mem _ hfield)
        _ = fields := List.map_id _

/-! ## The rows of a statement -/

/-- The casts behind a placeholder. -/
def Parameter.casts (parameter : Parameter) : List Char :=
  if parameter.regrole then "::pg_catalog.oid::pg_catalog.regrole".toList else []

theorem parameter_text (parameter : Parameter) :
    parameter.text.toList = '$' :: (Nat.toDigits 10 parameter.index ++ parameter.casts) := by
  have hnumber : (toString parameter.index).toList = Nat.toDigits 10 parameter.index :=
    Nat.toList_repr
  have hcasts : (if parameter.regrole then "::pg_catalog.oid::pg_catalog.regrole" else "").toList =
      parameter.casts := by
    unfold Parameter.casts
    cases parameter.regrole <;> rfl
  rw [Parameter.text, String.toList_append, String.toList_append, hnumber, hcasts]
  rfl

/-- No character of the casts separates, opens or closes anything. -/
theorem casts_plain (parameter : Parameter) {c : Char}
    (hc : c = ',' ∨ c = ' ' ∨ c = '(' ∨ c = ')' ∨ c = '$') : c ∉ parameter.casts := by
  unfold Parameter.casts
  cases parameter.regrole with
  | false => exact List.not_mem_nil
  | true => rcases hc with rfl | rfl | rfl | rfl | rfl <;> decide

theorem casts_head (parameter : Parameter) {rest : List Char}
    (hrest : ∀ c tail, rest = c :: tail → c.isDigit = false) :
    ∀ c tail, parameter.casts ++ rest = c :: tail → c.isDigit = false := by
  unfold Parameter.casts
  cases parameter.regrole with
  | false => exact hrest
  | true =>
      intro c tail h
      obtain ⟨rfl, -⟩ := List.cons.inj h
      decide

theorem parameter_text_plain (parameter : Parameter) {c : Char}
    (hc : c = ',' ∨ c = ' ' ∨ c = '(' ∨ c = ')') : c ∉ parameter.text.toList := by
  have hdigit : c.isDigit = false := by rcases hc with rfl | rfl | rfl | rfl <;> rfl
  have hdollar : c ≠ '$' := by rcases hc with rfl | rfl | rfl | rfl <;> decide
  rw [parameter_text, List.mem_cons, List.mem_append, not_or, not_or]
  refine ⟨hdollar, not_mem_to_digits hdigit _, casts_plain parameter ?_⟩
  rcases hc with h | h | h | h
  · exact .inl h
  · exact .inr (.inl h)
  · exact .inr (.inr (.inl h))
  · exact .inr (.inr (.inr (.inl h)))

/-- The text between the parentheses of a row. -/
def rowBody (parameters : List Parameter) : List Char :=
  [',', ' '].intercalate (parameters.map fun parameter => parameter.text.toList)

theorem row_text (parameters : List Parameter) :
    (rowText parameters).toList = '(' :: (rowBody parameters ++ [')']) := by
  have hbody : (", ".intercalate (parameters.map Parameter.text)).toList = rowBody parameters := by
    rw [String.toList_intercalate, List.map_map]
    rfl
  rw [rowText, String.toList_append, String.toList_append, hbody]
  rfl

theorem row_body_plain (parameters : List Parameter) {c : Char} (hc : c = '(' ∨ c = ')') :
    c ∉ rowBody parameters := by
  unfold rowBody
  induction parameters with
  | nil => exact List.not_mem_nil
  | cons parameter rest ih =>
      have hfirst : c ∉ parameter.text.toList :=
        parameter_text_plain parameter (.inr (.inr hc))
      cases rest with
      | nil =>
          rw [List.map_cons, List.map_nil, List.intercalate_singleton]
          exact hfirst
      | cons next rest =>
          rw [List.map_cons, List.map_cons, List.intercalate_cons_cons, List.mem_append,
            List.mem_append, not_or, not_or]
          refine ⟨⟨hfirst, ?_⟩, ih⟩
          rcases hc with rfl | rfl <;> decide

/-- The placeholders of a row are its parameters, in order. -/
theorem placeholders_row_body (parameters : List Parameter) (rest : List Char) :
    placeholders (rowBody parameters ++ ')' :: rest) =
      parameters.map Parameter.index ++ placeholders rest := by
  have hclose : ∀ c tail, ')' :: rest = c :: tail → c.isDigit = false := by
    intro c tail h
    obtain ⟨rfl, -⟩ := List.cons.inj h
    rfl
  have hparameter : ∀ (parameter : Parameter) (next : List Char),
      (∀ c tail, next = c :: tail → c.isDigit = false) →
      placeholders (parameter.text.toList ++ next) = parameter.index :: placeholders next := by
    intro parameter next hnext
    rw [parameter_text, List.cons_append, List.append_assoc,
      placeholders_number (casts_head parameter hnext),
      placeholders_append (casts_plain parameter (.inr (.inr (.inr (.inr rfl)))))]
  unfold rowBody
  induction parameters with
  | nil =>
      show placeholders (')' :: rest) = placeholders rest
      rw [placeholders, if_neg (by decide)]
  | cons parameter later ih =>
      cases later with
      | nil =>
          rw [List.map_cons, List.map_nil, List.intercalate_singleton, hparameter _ _ hclose,
            placeholders, if_neg (by decide)]
          rfl
      | cons next later =>
          rw [List.map_cons, List.map_cons, List.intercalate_cons_cons, List.append_assoc,
            List.append_assoc, hparameter]
          · rw [List.map_cons, List.map_cons] at ih
            show parameter.index :: placeholders ([',', ' '] ++ _) = _
            rw [placeholders_append (by decide), ih]
            rfl
          · intro c tail h
            obtain ⟨rfl, -⟩ := List.cons.inj h
            rfl

/-- The rest of the digits behind a placeholder are its casts. -/
theorem entry_value_parameter (args : List Argument) {parameter : Parameter} {position : Nat}
    (hindex : parameter.index = position + 1) :
    entryValue args parameter.text.toList = args[position]?.bind (castTo parameter.casts) := by
  have hrest : ∀ c tail, parameter.casts = c :: tail → c.isDigit = false := by
    intro c tail h
    have hempty : ∀ c tail, ([] : List Char) = c :: tail → c.isDigit = false := by
      intro _ _ h
      cases h
    exact casts_head parameter hempty c tail (by rw [List.append_nil]; exact h)
  have hargument : argumentAt args (position + 1) = args[position]? := if_neg (Nat.succ_ne_zero _)
  rw [parameter_text, entryValue, if_pos rfl, (take_digits hrest).1, (take_digits hrest).2,
    parse_digits_to_digits, hindex]
  show (argumentAt args (position + 1)).bind (castTo parameter.casts) = _
  rw [hargument]

/-! ## Reading the statement back -/

/-- What a row adds to the statement: a separator unless it is the first, and its text. -/
def rowChars (legacyLoginRole : Bool) (rowIndex : Nat) : List Char :=
  (if 0 < rowIndex then ", ".toList else []) ++
    '(' :: (rowBody (rowParameters legacyLoginRole
      (rowIndex * (nodeColumns legacyLoginRole).2 + 1)) ++ [')'])

theorem sql_text (rowCount : Nat) (legacyLoginRole : Bool) :
    (nodeInsertSql rowCount legacyLoginRole).toList =
      "INSERT INTO df.nodes ".toList ++ '(' :: ((nodeColumns legacyLoginRole).1.toList ++
        ')' :: (" VALUES ".toList ++ (List.range rowCount).flatMap (rowChars legacyLoginRole))) := by
  have hrow : ∀ (sql : String) (rowIndex : Nat),
      (sql ++ (if 0 < rowIndex then ", " else "") ++
        rowText (rowParameters legacyLoginRole
          (rowIndex * (nodeColumns legacyLoginRole).2 + 1))).toList =
      sql.toList ++ rowChars legacyLoginRole rowIndex := by
    intro sql rowIndex
    have hseparator : (if 0 < rowIndex then ", " else "").toList =
        if 0 < rowIndex then ", ".toList else [] := by
      split <;> rfl
    rw [String.toList_append, String.toList_append, hseparator, row_text, List.append_assoc]
    rfl
  have hfold : ∀ (rows : List Nat) (sql : String),
      (rows.foldl (fun sql rowIndex =>
        sql ++ (if 0 < rowIndex then ", " else "") ++
          rowText (rowParameters legacyLoginRole
            (rowIndex * (nodeColumns legacyLoginRole).2 + 1))) sql).toList =
      sql.toList ++ rows.flatMap (rowChars legacyLoginRole) := by
    intro rows
    induction rows with
    | nil => exact fun sql => (List.append_nil _).symm
    | cons rowIndex rows ih =>
        intro sql
        rw [List.foldl_cons, ih, hrow, List.flatMap_cons, List.append_assoc]
  have hheader : ∀ columns : String, ("INSERT INTO df.nodes (" ++ columns ++ ") VALUES ").toList =
      "INSERT INTO df.nodes ".toList ++ '(' :: (columns.toList ++ ')' :: " VALUES ".toList) := by
    intro columns
    have hopen : "INSERT INTO df.nodes (".toList = "INSERT INTO df.nodes ".toList ++ ['('] := by
      decide
    have hclose : ") VALUES ".toList = ')' :: " VALUES ".toList := by decide
    rw [String.toList_append, String.toList_append, hopen, hclose, List.append_assoc,
      List.append_assoc]
    rfl
  refine (hfold (List.range rowCount)
    ("INSERT INTO df.nodes (" ++ (nodeColumns legacyLoginRole).1 ++ ") VALUES ")).trans ?_
  rw [hheader]
  simp only [List.append_assoc, List.cons_append]

theorem columns_plain (legacyLoginRole : Bool) {c : Char} (hc : c = '(' ∨ c = ')' ∨ c = '$') :
    c ∉ (nodeColumns legacyLoginRole).1.toList := by
  cases legacyLoginRole with
  | false => rcases hc with rfl | rfl | rfl <;> decide
  | true => rcases hc with rfl | rfl | rfl <;> decide

theorem groups_sql (rowCount : Nat) (legacyLoginRole : Bool) :
    groups (nodeInsertSql rowCount legacyLoginRole).toList =
      (nodeColumns legacyLoginRole).1.toList :: (List.range rowCount).map fun rowIndex =>
        rowBody (rowParameters legacyLoginRole
          (rowIndex * (nodeColumns legacyLoginRole).2 + 1)) := by
  have hrows : ∀ rows : List Nat, groups (rows.flatMap (rowChars legacyLoginRole)) =
      rows.map fun rowIndex => rowBody (rowParameters legacyLoginRole
        (rowIndex * (nodeColumns legacyLoginRole).2 + 1)) := by
    intro rows
    induction rows with
    | nil => rfl
    | cons rowIndex rows ih =>
        have hseparator : '(' ∉ if 0 < rowIndex then ", ".toList else [] := by
          split <;> decide
        rw [List.flatMap_cons, rowChars, List.append_assoc, groups_append hseparator,
          List.cons_append, List.append_assoc, List.singleton_append,
          groups_list (row_body_plain _ (.inl rfl)) (row_body_plain _ (.inr rfl)), ih,
          List.map_cons]
  rw [sql_text, groups_append (by decide),
    groups_list (columns_plain _ (.inl rfl)) (columns_plain _ (.inr (.inl rfl))),
    groups_append (by decide), hrows]

theorem row_parameters_index (legacyLoginRole : Bool) (first : Nat) :
    (rowParameters legacyLoginRole first).map Parameter.index =
      List.range' first (nodeColumns legacyLoginRole).2 := by
  cases legacyLoginRole <;> rfl

/-- Blocks of `size` numbers one after the other are all numbers from 1 on. -/
theorem range_blocks (count size : Nat) :
    (List.range count).flatMap (fun index => List.range' (index * size + 1) size) =
      List.range' 1 (count * size) := by
  induction count with
  | zero => rw [Nat.zero_mul]; rfl
  | succ count ih =>
      rw [List.range_succ, List.flatMap_append, ih, List.flatMap_cons, List.flatMap_nil,
        List.append_nil, Nat.succ_mul, Nat.add_comm (count * size) 1, List.range'_append_1]

/-- The placeholders of a statement count its rows through, column by column. -/
theorem placeholders_sql (rowCount : Nat) (legacyLoginRole : Bool) :
    placeholders (nodeInsertSql rowCount legacyLoginRole).toList =
      List.range' 1 (rowCount * (nodeColumns legacyLoginRole).2) := by
  have hrows : ∀ rows : List Nat, placeholders (rows.flatMap (rowChars legacyLoginRole)) =
      rows.flatMap fun rowIndex => List.range'
        (rowIndex * (nodeColumns legacyLoginRole).2 + 1) (nodeColumns legacyLoginRole).2 := by
    intro rows
    induction rows with
    | nil => rfl
    | cons rowIndex rows ih =>
        have hseparator : '$' ∉ (if 0 < rowIndex then ", ".toList else []) ++ ['('] := by
          split <;> decide
        have hchars : rowChars legacyLoginRole rowIndex ++ rows.flatMap (rowChars legacyLoginRole) =
            ((if 0 < rowIndex then ", ".toList else []) ++ ['(']) ++
              (rowBody (rowParameters legacyLoginRole
                (rowIndex * (nodeColumns legacyLoginRole).2 + 1)) ++
                ')' :: rows.flatMap (rowChars legacyLoginRole)) := by
          simp only [rowChars, List.append_assoc, List.cons_append, List.nil_append]
        rw [List.flatMap_cons, hchars, placeholders_append hseparator, placeholders_row_body,
          row_parameters_index, ih, List.flatMap_cons]
  rw [sql_text, placeholders_append (by decide), placeholders, if_neg (by decide),
    placeholders_append (columns_plain _ (.inr (.inr rfl))), placeholders, if_neg (by decide),
    placeholders_append (by decide), hrows, range_blocks]

/-! ## The arguments of a row -/

theorem node_args_length (submission : Submission) (node : MaterializedNode) :
    (nodeArgs submission node).length = (nodeColumns submission.legacyLoginRole).2 := by
  unfold nodeArgs nodeColumns
  cases submission.legacyLoginRole <;> rfl

theorem batch_args_length (submission : Submission) (batch : List MaterializedNode) :
    (batch.flatMap (nodeArgs submission)).length =
      batch.length * (nodeColumns submission.legacyLoginRole).2 := by
  induction batch with
  | nil => rw [List.length_nil, Nat.zero_mul]; rfl
  | cons node batch ih =>
      rw [List.flatMap_cons, List.length_append, node_args_length, ih, List.length_cons,
        Nat.succ_mul, Nat.add_comm]

/-- The arguments of a row follow those of the rows before it. -/
theorem batch_args_get (submission : Submission) {batch : List MaterializedNode} {rowIndex : Nat}
    {node : MaterializedNode} (hnode : batch[rowIndex]? = some node) {position : Nat}
    (hposition : position < (nodeColumns submission.legacyLoginRole).2) :
    (batch.flatMap (nodeArgs submission))[rowIndex * (nodeColumns submission.legacyLoginRole).2 +
      position]? = (nodeArgs submission node)[position]? := by
  induction batch generalizing rowIndex with
  | nil => cases hnode
  | cons head batch ih =>
      rw [List.flatMap_cons]
      cases rowIndex with
      | zero =>
          have hhead : head = node := Option.some.inj hnode
          rw [Nat.zero_mul, Nat.zero_add, hhead,
            List.getElem?_append_left (by rw [node_args_length]; exact hposition)]
      | succ rowIndex =>
          have hbefore : (nodeArgs submission head).length ≤
              (rowIndex + 1) * (nodeColumns submission.legacyLoginRole).2 + position := by
            rw [node_args_length, Nat.succ_mul]
            omega
          have hafter : (rowIndex + 1) * (nodeColumns submission.legacyLoginRole).2 + position -
              (nodeArgs submission head).length =
              rowIndex * (nodeColumns submission.legacyLoginRole).2 + position := by
            rw [node_args_length, Nat.succ_mul]
            omega
          rw [List.getElem?_append_right hbefore, hafter]
          exact ih hnode

/-! ## Columns and fields -/

/-- Which parameters of a row are cast to a role. -/
def rowCasts (legacyLoginRole : Bool) : List Bool :=
  if legacyLoginRole then
    [false, false, false, false, false, false, false, true, true, false]
  else [false, false, false, false, false, false, false, true, false]

theorem row_parameters_eq (legacyLoginRole : Bool) (first : Nat) :
    rowParameters legacyLoginRole first =
      (rowCasts legacyLoginRole).zipIdx.map fun cast => ⟨first + cast.2, cast.1⟩ := by
  cases legacyLoginRole <;> rfl

theorem row_casts_length (legacyLoginRole : Bool) :
    (rowCasts legacyLoginRole).length = (nodeColumns legacyLoginRole).2 := by
  cases legacyLoginRole <;> rfl

theorem entries_columns (legacyLoginRole : Bool) :
    entries (nodeColumns legacyLoginRole).1.toList =
      (["id", "instance_id", "node_type", "query", "result_name", "left_node", "right_node",
        "submitted_by"] ++ (if legacyLoginRole then ["login_role"] else []) ++
        ["database"]).map String.toList := by
  cases legacyLoginRole <;> decide +kernel

/-- The arguments of a node, cast as the parameters of a row say, are the fields of the columns. -/
theorem fields_of_args (submission : Submission) (node : MaterializedNode) :
    (rowCasts submission.legacyLoginRole).zipIdx.map (fun cast =>
      (nodeArgs submission node)[cast.2]?.bind (castTo (Parameter.casts ⟨0, cast.1⟩))) =
      (entries (nodeColumns submission.legacyLoginRole).1.toList).map
        (nodeField submission node) := by
  rw [entries_columns]
  unfold rowCasts nodeArgs
  cases submission.legacyLoginRole <;> rfl

/-- The entries of a row are its parameters. -/
theorem entries_row (legacyLoginRole : Bool) (first : Nat) :
    entries (rowBody (rowParameters legacyLoginRole first)) =
      (rowParameters legacyLoginRole first).map fun parameter => parameter.text.toList := by
  refine entries_intercalate ?_ ?_ ?_
  · cases legacyLoginRole <;> exact List.cons_ne_nil _ _
  · intro field hfield
    obtain ⟨parameter, -, rfl⟩ := List.mem_map.1 hfield
    exact parameter_text_plain parameter (.inl rfl)
  · intro field hfield
    obtain ⟨parameter, -, rfl⟩ := List.mem_map.1 hfield
    exact parameter_text_plain parameter (.inr (.inl rfl))

/-- A row of the statement holds the fields of its node, in the order of the columns. -/
theorem row_values (submission : Submission) {batch : List MaterializedNode} {rowIndex : Nat}
    {node : MaterializedNode} (hnode : batch[rowIndex]? = some node) :
    (entries (rowBody (rowParameters submission.legacyLoginRole
      (rowIndex * (nodeColumns submission.legacyLoginRole).2 + 1)))).map
        (entryValue (batch.flatMap (nodeArgs submission))) =
      (entries (nodeColumns submission.legacyLoginRole).1.toList).map
        (nodeField submission node) := by
  rw [entries_row, row_parameters_eq, List.map_map, List.map_map, ← fields_of_args]
  refine List.map_congr_left fun cast hcast => ?_
  have hposition : cast.2 < (nodeColumns submission.legacyLoginRole).2 := by
    rw [← row_casts_length]
    exact List.snd_lt_of_mem_zipIdx hcast
  have hindex : rowIndex * (nodeColumns submission.legacyLoginRole).2 + 1 + cast.2 =
      rowIndex * (nodeColumns submission.legacyLoginRole).2 + cast.2 + 1 := by
    omega
  show entryValue _ (Parameter.text ⟨_, cast.1⟩).toList = _
  rw [entry_value_parameter _ hindex, batch_args_get submission hnode hposition]
  rfl

/-- A statement inserts the rows of its nodes. -/
theorem inserted_rows_batch (submission : Submission) (batch : List MaterializedNode) :
    insertedRows (nodeInsertSql batch.length submission.legacyLoginRole)
      (batch.flatMap (nodeArgs submission)) = batch.map (nodeRow submission) := by
  have hzip : ∀ (columns : List (List Char)) (node : MaterializedNode),
      columns.zip (columns.map (nodeField submission node)) =
        columns.map fun column => (column, nodeField submission node column) := by
    intro columns node
    induction columns with
    | nil => rfl
    | cons column columns ih => rw [List.map_cons, List.zip_cons_cons, ih, List.map_cons]
  unfold insertedRows
  rw [groups_sql]
  show List.map _ (List.map _ _) = _
  rw [List.map_map]
  refine List.ext_getElem (by simp) fun rowIndex hleft hright => ?_
  have hlt : rowIndex < batch.length := by
    rw [List.length_map] at hright
    exact hright
  rw [List.getElem_map, List.getElem_map, List.getElem_range]
  show (entries (nodeColumns submission.legacyLoginRole).1.toList).zip _ = _
  rw [row_values submission (List.getElem?_eq_getElem hlt), hzip]
  rfl

/-- Every batch holds at most 1000 nodes. -/
theorem batch_length {nodes batch : List MaterializedNode}
    (h : batch ∈ chunks nodeInsertBatchSize nodes) : batch.length ≤ 1000 :=
  chunks_from_length _ _ h

theorem columns_le (legacyLoginRole : Bool) : (nodeColumns legacyLoginRole).2 ≤ 10 := by
  cases legacyLoginRole <;> decide

/-- Over a connection that stores the rows of every statement, a call stores the rows of all nodes
in order. -/
theorem insert_nodes_rows (submission : Submission) (nodes : List MaterializedNode)
    (table : List (List (List Char × Option Cell))) :
    insertNodes (fun table sql args => .ok (table ++ insertedRows sql args)) submission nodes
      table = .ok (table ++ nodes.map (nodeRow submission)) := by
  have hbatches : ∀ (batches : List (List MaterializedNode)) (table : List _),
      batches.foldlM (m := Except String) (fun table batch =>
        match (Except.ok (table ++ insertedRows
            (nodeInsertSql batch.length submission.legacyLoginRole)
            (batch.flatMap (nodeArgs submission))) : Except String _) with
        | .ok next => .ok next
        | .error message =>
            .error ("Failed to insert node batch '" ++
              (batch.head?.elim "" MaterializedNode.id) ++ ".." ++
              (batch.getLast?.elim "" MaterializedNode.id) ++ "': " ++ message)) table =
        .ok (table ++ batches.flatten.map (nodeRow submission)) := by
    intro batches
    induction batches with
    | nil => intro table; rw [List.flatten_nil, List.map_nil, List.append_nil]; rfl
    | cons batch batches ih =>
        intro table
        show batches.foldlM _ (table ++ insertedRows _ _) = _
        rw [inserted_rows_batch, List.flatten_cons, List.map_append, ← List.append_assoc]
        exact ih _
  refine (hbatches _ table).trans ?_
  rw [chunks_flatten (by decide)]

/-- The batches of a call make up its nodes in order. Every statement of a call numbers its
arguments through, at most 10000 of them, and stores under each column of each row the field of the
node of that row; together they store every node once. -/
theorem columns_receive_fields (submission : Submission) (nodes : List MaterializedNode) :
    (chunks nodeInsertBatchSize nodes).flatten = nodes ∧
      (∀ batch ∈ chunks nodeInsertBatchSize nodes,
        let sql := nodeInsertSql batch.length submission.legacyLoginRole
        let args := batch.flatMap (nodeArgs submission)
        placeholders sql.toList = List.range' 1 args.length ∧ args.length ≤ 10000 ∧
          args.length = batch.length * (nodeColumns submission.legacyLoginRole).2 ∧
          insertedRows sql args = batch.map (nodeRow submission)) ∧
      insertNodes (fun table sql args => .ok (table ++ insertedRows sql args)) submission nodes [] =
        .ok (nodes.map (nodeRow submission)) := by
  refine ⟨chunks_flatten (by decide) nodes, ?_, insert_nodes_rows submission nodes []⟩
  intro batch hbatch
  have hlength := batch_args_length submission batch
  refine ⟨?_, ?_, hlength, inserted_rows_batch submission batch⟩
  · rw [placeholders_sql, hlength]
  · rw [hlength]
    exact Nat.mul_le_mul (batch_length hbatch) (columns_le _)

end PgDurable.InsertNodes
