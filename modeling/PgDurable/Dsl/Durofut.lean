import PgDurable.Library.Json.RawMembers
import PgDurable.Library.Json.Codec
import PgDurable.Library.Text

/-!
# Nodes of a workflow document

A `Durofut` is a node whose children are embedded as texts of JSON objects. Each level of a document
is read on its own, so nesting meets no limit of the reader. `read_durofut_write` says that a node is
read back as it was written, with the texts of its children unchanged.
-/

namespace PgDurable.Dsl

open Json

/-- A reference to a node in the function graph, with its children embedded as opaque JSON
objects. -/
structure Durofut where
  nodeType : String
  leftNode : Option RawObject
  rightNode : Option RawObject
  conditionNode : Option RawObject
  extraNodes : List RawObject
  query : Option String
  resultName : Option String

/-- A node without children, query or name. -/
def Durofut.default (nodeType : String) : Durofut := ⟨nodeType, none, none, none, [], none, none⟩

def validNodeTypes : List String :=
  ["SQL", "THEN", "IF", "JOIN", "LOOP", "BREAK", "RACE", "SLEEP", "WAIT_SCHEDULE", "HTTP",
    "HTTP_MULTIPART", "SIGNAL"]

def unknownNodeType (nodeType : String) : String :=
  "Unknown node_type '" ++ nodeType ++ "'. Valid types: " ++ ", ".intercalate validNodeTypes

/-! ## Writing -/

/-- The member of a field, which is skipped when the field has no value. -/
def rawMember (key : String) (value : Option ClosedText) : List (String × ClosedText) :=
  (value.map fun text => (key, text)).toList

/-- The members of a node, in the order of its fields. -/
def Durofut.members (node : Durofut) : List (String × ClosedText) :=
  ("node_type", .string node.nodeType) ::
    (rawMember "left_node" (node.leftNode.map (·.toClosedText)) ++
    rawMember "right_node" (node.rightNode.map (·.toClosedText)) ++
    rawMember "condition_node" (node.conditionNode.map (·.toClosedText)) ++
    (if node.extraNodes.isEmpty then []
      else [("extra_nodes", .array (node.extraNodes.map (·.toClosedText)))]) ++
    rawMember "query" (node.query.map .string) ++
    rawMember "result_name" (node.resultName.map .string))

def Durofut.intoRaw (node : Durofut) : RawObject := .ofMembers node.members

def Durofut.toJson (node : Durofut) : String := String.ofList node.intoRaw.text

/-! ## Reading -/

/-- The fields of a node that have been read. -/
structure Fields where
  nodeType : Option String
  leftNode : Option (Option RawObject)
  rightNode : Option (Option RawObject)
  conditionNode : Option (Option RawObject)
  extraNodes : Option (List RawObject)
  query : Option (Option String)
  resultName : Option (Option String)

def Fields.empty : Fields := ⟨none, none, none, none, none, none, none⟩

/-- Read a field that has not been read before. -/
def readOnce {α : Type} (key : String) (field : Option α) (value : Except String α) :
    Except String (Option α) :=
  match field with
  | some _ => .error ("duplicate field \"" ++ key ++ "\"")
  | none => value.map some

def readText (raw : RawValue) : Except String String :=
  match raw.asString with
  | some text => .ok text
  | none => .error "invalid type: expected a string"

def readOptionText (raw : RawValue) : Except String (Option String) :=
  if raw.isNull then .ok none else (readText raw).map some

/-- `deserialize_raw_object` and `deserialize_condition_node`, which differ in their message. -/
def deserializeRawObject (message : String) (raw : RawValue) : Except String (Option RawObject) :=
  if raw.isNull then .ok none
  else
    match raw.asObject with
    | some object => .ok (some object)
    | none => .error message

def deserializeRawObjects (raw : RawValue) : Except String (List RawObject) :=
  match splitArray raw.text with
  | none => .error "invalid type: expected a sequence"
  | some items =>
      match items.mapM RawValue.asObject with
      | some objects => .ok objects
      | none => .error "extra_nodes entries must be Durofut JSON objects"

/-- Read a child. -/
def readChild : RawValue → Except String (Option RawObject) :=
  deserializeRawObject "Durofut children must be JSON objects"

/-- Read a condition. -/
def readCondition : RawValue → Except String (Option RawObject) :=
  deserializeRawObject "condition_node must be a Durofut JSON object"

/-- Read one member. Unknown members are ignored. -/
def Fields.read (fields : Fields) (member : String × RawValue) : Except String Fields :=
  match member.1 with
  | "node_type" => do
      let value ← readOnce "node_type" fields.nodeType (readText member.2)
      pure { fields with nodeType := value }
  | "left_node" => do
      let value ← readOnce "left_node" fields.leftNode (readChild member.2)
      pure { fields with leftNode := value }
  | "right_node" => do
      let value ← readOnce "right_node" fields.rightNode (readChild member.2)
      pure { fields with rightNode := value }
  | "condition_node" => do
      let value ← readOnce "condition_node" fields.conditionNode (readCondition member.2)
      pure { fields with conditionNode := value }
  | "extra_nodes" => do
      let value ← readOnce "extra_nodes" fields.extraNodes (deserializeRawObjects member.2)
      pure { fields with extraNodes := value }
  | "query" => do
      let value ← readOnce "query" fields.query (readOptionText member.2)
      pure { fields with query := value }
  | "result_name" => do
      let value ← readOnce "result_name" fields.resultName (readOptionText member.2)
      pure { fields with resultName := value }
  | _ => .ok fields

/-- A node of the fields that were read. Only the node type has no default. -/
def Fields.finish (fields : Fields) : Except String Durofut :=
  match fields.nodeType with
  | none => .error "missing field \"node_type\""
  | some nodeType => .ok ⟨nodeType, fields.leftNode.getD none, fields.rightNode.getD none,
      fields.conditionNode.getD none, fields.extraNodes.getD [], fields.query.getD none,
      fields.resultName.getD none⟩

/-- A node that is written as an array of its fields. The last two have no default there. -/
def Durofut.ofItems : List RawValue → Except String Durofut
  | [nodeType, left, right, condition, extra, query, result] => do
      let nodeType ← readText nodeType
      let left ← readChild left
      let right ← readChild right
      let condition ← readCondition condition
      let extra ← deserializeRawObjects extra
      let query ← readOptionText query
      let result ← readOptionText result
      pure ⟨nodeType, left, right, condition, extra, query, result⟩
  | _ => .error "invalid length: expected struct Durofut with 7 elements"

/-- `serde_json::from_str` of a node. -/
def readDurofut (text : List Char) : Except String Durofut :=
  match splitObject text with
  | some members => (members.foldlM Fields.read Fields.empty).bind Fields.finish
  | none =>
      match splitArray text with
      | some items => Durofut.ofItems items
      | none => .error "invalid JSON text"

def Durofut.childFromRaw (raw : RawObject) : Except String Durofut :=
  match readDurofut raw.text with
  | .ok node => .ok node
  | .error message => .error ("failed to deserialize Durofut child: " ++ message)

def Durofut.tryFromJson (text : String) : Except String Durofut :=
  match readDurofut text.toList with
  | .ok node => .ok node
  | .error message => .error ("failed to deserialize Durofut: " ++ message)

/-! ## Workflow steps -/

/-- The helper that returned a text, if it is none that returns a workflow step. `marker` is the
helper that the statement has called last. -/
def nonFutureHelperName (marker : Option String) (text : String) : Option String :=
  if (text.toList.dropWhile Text.isWhitespace).head? = some '\x7b' then none else marker

def nonFutureHelperError (helperName : String) : String :=
  helperName ++ " cannot be used as a workflow step. Call " ++ helperName ++ " before df.start()."

/-- The node type that a JSON object names, whether or not it is a node. -/
def namedType (text : String) : Option String :=
  (parse text).bind fun value => (value.get? "node_type").bind Value.asStr

/-- A node that runs a text as SQL. -/
def sqlNode (text : String) : Durofut := { Durofut.default "SQL" with query := some text }

/-- The node that a step denotes. A text that is no node is SQL. -/
def ensure (marker : Option String) (text : String) : Except String Durofut :=
  match nonFutureHelperName marker text with
  | some helperName => .error (nonFutureHelperError helperName)
  | none =>
      match readDurofut text.toList with
      | .ok node => .ok (if validNodeTypes.contains node.nodeType then node else sqlNode text)
      | .error message =>
          if (namedType text).isSome then
            .error ("Invalid Durofut JSON: failed to deserialize workflow step: " ++ message)
          else .ok (sqlNode text)

/-- `ensure` that rejects a node of an unknown type. -/
def ensureStrict (marker : Option String) (text : String) : Except String Durofut :=
  match nonFutureHelperName marker text with
  | some helperName => .error (nonFutureHelperError helperName)
  | none =>
      match readDurofut text.toList with
      | .ok node =>
          if validNodeTypes.contains node.nodeType then .ok node
          else .error (unknownNodeType node.nodeType)
      | .error message =>
          match namedType text with
          | some nodeType =>
              if validNodeTypes.contains nodeType then
                .error ("Malformed Durofut JSON with node_type '" ++ nodeType ++ "': " ++ message)
              else .error (unknownNodeType nodeType)
          | none => .ok (sqlNode text)

/-! ## Round trips -/

theorem map_m_as_object (objects : List RawObject) :
    (objects.map (fun object => object.value)).mapM RawValue.asObject = some objects := by
  induction objects with
  | nil => rfl
  | cons object objects ih =>
      rw [List.map_cons, List.mapM_cons, object.as_object, ih]
      rfl

theorem read_text_string (s : String) : readText (ClosedText.string s).value = .ok s := by
  rw [readText, as_string_value]

theorem read_option_text_string (s : String) :
    readOptionText (ClosedText.string s).value = .ok (some s) := by
  rw [readOptionText, string_not_null, read_text_string]
  rfl

theorem deserialize_raw_object_value (message : String) (object : RawObject) :
    deserializeRawObject message object.value = .ok (some object) := by
  rw [deserializeRawObject, object_not_null, object.as_object]
  rfl

theorem deserialize_raw_objects_array (objects : List RawObject) :
    deserializeRawObjects (ClosedText.array (objects.map (·.toClosedText))).value =
      .ok objects := by
  have htext : (ClosedText.array (objects.map (·.toClosedText))).value.text =
      writeArray (objects.map (·.toClosedText)) := rfl
  have hobjects : ((objects.map (·.toClosedText)).map ClosedText.value).mapM RawValue.asObject =
      some objects := by
    rw [List.map_map]
    exact map_m_as_object objects
  rw [deserializeRawObjects, htext, split_array_write]
  dsimp only
  rw [hobjects]

/-- The members as the reader cuts them out. -/
def cut (members : List (String × ClosedText)) : List (String × RawValue) :=
  members.map fun member => (member.1, member.2.value)

section Members

variable (nodeType : Option String) (left right condition : Option (Option RawObject))
variable (extra : Option (List RawObject)) (query : Option (Option String))

theorem read_left_member (value : Option RawObject) :
    (cut (rawMember "left_node" (value.map (·.toClosedText)))).foldlM Fields.read
        ⟨nodeType, none, none, none, none, none, none⟩ =
      .ok ⟨nodeType, value.map some, none, none, none, none, none⟩ := by
  cases value with
  | none => rfl
  | some object =>
      simp [cut, rawMember, Fields.read, readOnce, readChild, deserialize_raw_object_value]
      rfl

theorem read_right_member (value : Option RawObject) :
    (cut (rawMember "right_node" (value.map (·.toClosedText)))).foldlM Fields.read
        ⟨nodeType, left, none, none, none, none, none⟩ =
      .ok ⟨nodeType, left, value.map some, none, none, none, none⟩ := by
  cases value with
  | none => rfl
  | some object =>
      simp [cut, rawMember, Fields.read, readOnce, readChild, deserialize_raw_object_value]
      rfl

theorem read_condition_member (value : Option RawObject) :
    (cut (rawMember "condition_node" (value.map (·.toClosedText)))).foldlM Fields.read
        ⟨nodeType, left, right, none, none, none, none⟩ =
      .ok ⟨nodeType, left, right, value.map some, none, none, none⟩ := by
  cases value with
  | none => rfl
  | some object =>
      simp [cut, rawMember, Fields.read, readOnce, readCondition, deserialize_raw_object_value]
      rfl

theorem read_extra_member (objects : List RawObject) :
    (cut (if objects.isEmpty then []
      else [("extra_nodes", .array (objects.map (·.toClosedText)))])).foldlM Fields.read
        ⟨nodeType, left, right, condition, none, none, none⟩ =
      .ok ⟨nodeType, left, right, condition,
        if objects.isEmpty then none else some objects, none, none⟩ := by
  cases objects with
  | nil => rfl
  | cons object objects =>
      have hread := deserialize_raw_objects_array (object :: objects)
      simp only [List.isEmpty_cons, Bool.false_eq_true, if_false, cut, List.map_cons, List.map_nil,
        List.foldlM_cons, List.foldlM_nil]
      rw [List.map_cons] at hread
      simp only [Fields.read, readOnce, hread]
      rfl

theorem read_query_member (value : Option String) :
    (cut (rawMember "query" (value.map .string))).foldlM Fields.read
        ⟨nodeType, left, right, condition, extra, none, none⟩ =
      .ok ⟨nodeType, left, right, condition, extra, value.map some, none⟩ := by
  cases value with
  | none => rfl
  | some text =>
      simp [cut, rawMember, Fields.read, readOnce, read_option_text_string]
      rfl

theorem read_result_member (value : Option String) :
    (cut (rawMember "result_name" (value.map .string))).foldlM Fields.read
        ⟨nodeType, left, right, condition, extra, query, none⟩ =
      .ok ⟨nodeType, left, right, condition, extra, query, value.map some⟩ := by
  cases value with
  | none => rfl
  | some text =>
      simp [cut, rawMember, Fields.read, readOnce, read_option_text_string]
      rfl

end Members

theorem get_d_map_some {α : Type} (value : Option α) : (value.map some).getD none = value := by
  cases value <;> rfl

theorem cut_append (members more : List (String × ClosedText)) :
    cut (members ++ more) = cut members ++ cut more := by
  rw [cut, cut, cut, List.map_append]

/-- A written node is read back, with the texts of its children unchanged. -/
theorem read_durofut_write (node : Durofut) : readDurofut node.intoRaw.text = .ok node := by
  have htext : node.intoRaw.text = writeObject node.members := rfl
  have hcut : (node.members.map fun member => (member.1, member.2.value)) = cut node.members := rfl
  obtain ⟨nodeType, left, right, condition, extra, query, result⟩ := node
  rw [readDurofut, htext, split_object_write, hcut]
  have htype : Fields.read .empty ("node_type", (ClosedText.string nodeType).value) =
      .ok ⟨some nodeType, none, none, none, none, none, none⟩ := by
    simp [Fields.read, Fields.empty, readOnce, read_text_string]
    rfl
  have hextra : (if extra.isEmpty then none else some extra).getD [] = extra := by
    cases extra <;> rfl
  show ((("node_type", (ClosedText.string nodeType).value) :: cut _).foldlM Fields.read
    Fields.empty).bind Fields.finish = _
  rw [List.foldlM_cons, htype]
  simp only [cut_append, List.foldlM_append, read_left_member, read_right_member,
    read_condition_member, read_extra_member, read_query_member, read_result_member,
    bind, Except.bind]
  rw [Fields.finish]
  simp only [get_d_map_some, hextra]

theorem child_from_raw_into_raw (node : Durofut) : Durofut.childFromRaw node.intoRaw = .ok node := by
  rw [Durofut.childFromRaw, read_durofut_write]

theorem try_from_json_to_json (node : Durofut) : Durofut.tryFromJson node.toJson = .ok node := by
  rw [Durofut.tryFromJson, Durofut.toJson, String.toList_ofList, read_durofut_write]

end PgDurable.Dsl
