import PgDurable.Graph.Substitution

/-!
# Request configurations of HTTP nodes

What the orchestration does to the configuration of an HTTP or multipart node before it schedules
the request: substitute the references in its texts, check the size of the request body and add
the execution context.
-/

namespace PgDurable

open Json Text

/-! ## Members -/

/-- `config[key] = value` on an object; `null` becomes an object. Other values have no members. -/
def setMember (config : Value) (key : String) (value : Value) : Option Value :=
  match config with
  | .object members => some (.object (insertMember key value members))
  | .null => some (.object [(key, value)])
  | _ => none

/-- The substitution that an HTTP node applies to its texts. -/
abbrev TextSubstitution := String → Except String String

/-- Substitute a string member if it is there. -/
def substituteMember (substitute : TextSubstitution) (key : String) (config : Value) :
    Except String Value :=
  match config, (config.get? key).bind Value.asStr with
  | .object members, some text => do
      let substituted ← substitute text
      pure (.object (insertMember key (.string substituted) members))
  | _, _ => pure config

/-- Substitute the string values of a header object. -/
def substituteHeaderValues (substitute : TextSubstitution) :
    List (String × Value) → Except String (List (String × Value))
  | [] => .ok []
  | (key, value) :: rest => do
      let value ←
        match value with
        | .string text => (substitute text).map Value.string
        | other => pure other
      let rest ← substituteHeaderValues substitute rest
      pure ((key, value) :: rest)

/-- Rebuild the headers in the order of their names, with substituted values. -/
def substituteHeaders (substitute : TextSubstitution) (config : Value) : Except String Value :=
  match config, (config.get? "headers").bind Value.asObject with
  | .object members, some headers => do
      let sorted := headers.mergeSort fun a b => compare a.1 b.1 != .gt
      let headers ← substituteHeaderValues substitute sorted
      pure (.object (insertMember "headers" (.object headers) members))
  | _, _ => pure config

/-- Substitute the texts of one part. A payload that mixes a reference with other text is an
error of the node. -/
def substitutePart (substitute : TextSubstitution) (nodeId : String) (part : Value) :
    Except String Value := do
  let part ← substituteMember substitute "name" part
  let part ← substituteMember substitute "filename" part
  match (part.get? "data_b64").bind Value.asStr with
  | none => pure part
  | some data =>
      if isWholeValueReference data then substituteMember substitute "data_b64" part
      else if data.toList.contains '$' || data.toList.contains '\x7b' then
        let partName := ((part.get? "name").bind Value.asStr).getD "?"
        throw ("HTTP_MULTIPART node " ++ nodeId ++ ": data_b64 for part '" ++ partName ++
          "' mixes a variable reference with other text. Only a whole-value reference is " ++
          "supported (e.g. data_b64 => '$result' or '\x7bmyvar\x7d'), because splicing into " ++
          "base64 would corrupt the payload.")
      else pure part

/-- Substitute the texts of every part. -/
def substituteParts (substitute : TextSubstitution) (nodeId : String) (config : Value) :
    Except String Value :=
  match config, (config.get? "parts").bind Value.asArray with
  | .object members, some parts => do
      let parts ← parts.mapM (substitutePart substitute nodeId)
      pure (.object (insertMember "parts" (.array parts) members))
  | _, _ => pure config

/-! ## The size of the request body -/

/-- Whether a body has something that reads as a reference. -/
def httpBodyHasReferences : List Char → Bool
  | [] => false
  | c :: rest =>
      let name := parseIdentifier rest
      ((c = '$' && !name.isEmpty) ||
        (c = '\x7b' && !name.isEmpty && (rest.drop name.length).head? = some '\x7d')) ||
        httpBodyHasReferences rest

/-- ASCII white space. -/
def isAsciiWhitespace (c : Char) : Bool :=
  c = ' ' || c = '\t' || c = '\n' || c = '\x0c' || c = '\r'

/-- The number of bytes that a base64 text decodes to. -/
def base64DecodedLength (data : String) : Nat :=
  let encoded := data.toList.filter fun c => !isAsciiWhitespace c
  let padding := min 2 (encoded.reverse.takeWhile (· = '=')).length
  let encodedLength := (String.ofList encoded).utf8ByteSize
  (encodedLength + 3) / 4 * 3 - padding

/-- The length of a text in a URL-encoded form. -/
def formEncodedLength (text : String) : Nat :=
  (text.toList.map fun c =>
    if c.isAlphanum || c = '*' || c = '-' || c = '.' || c = '_' || c = ' ' then 1
    else 3 * c.utf8Size).sum

/-- The length of the URL-encoded string fields. -/
def formLength (fields : List (String × Value)) : Nat :=
  let pairs := fields.filterMap fun field => field.2.asStr.map fun value => (field.1, value)
  (pairs.map fun pair => formEncodedLength pair.1 + 1 + formEncodedLength pair.2).sum +
    (pairs.length - 1)

/-- Add the sizes of the body's pieces, failing at the first one that exceeds the limit. -/
def addBytes (limit : Nat) : Nat → List Nat → Except String Nat
  | total, [] => .ok total
  | total, bytes :: rest =>
      if 2 ^ 64 ≤ total + bytes then .error "HTTP request body length overflow"
      else if limit < total + bytes then
        .error ("HTTP request body exceeds max_request_bytes (" ++ toString limit ++ " bytes)")
      else addBytes limit (total + bytes) rest

/-- Check the request body against `max_request_bytes`. -/
def checkHttpRequestSize (config : Value) (allowReferences : Bool) : Except String Unit :=
  match config.get? "max_request_bytes" with
  | none => .ok ()
  | some .null => .ok ()
  | some limit =>
      match limit.asU64 with
      | none => .error "max_request_bytes must be a non-negative integer"
      | some limit =>
          let body :=
            match (config.get? "body").bind Value.asStr with
            | some body =>
                if !allowReferences || !httpBodyHasReferences body.toList then
                  [body.utf8ByteSize]
                else []
            | none => []
          let parts := (((config.get? "parts").bind Value.asArray).getD []).filterMap fun part =>
            match (part.get? "data_b64").bind Value.asStr with
            | some data =>
                if allowReferences && isWholeValueReference data then none
                else some (base64DecodedLength data)
            | none => none
          let form :=
            match (config.get? "form_fields").bind Value.asObject with
            | some fields => [formLength fields]
            | none => []
          (addBytes limit 0 (body ++ parts ++ form)).map fun _ => ()

/-- Counting accepts exactly what sums up to at most the limit. -/
theorem add_bytes_ok_iff {limit : Nat} (hlimit : limit < 2 ^ 64) (lengths : List Nat)
    (total : Nat) (htotal : total ≤ limit) :
    (addBytes limit total lengths).map (fun _ => ()) = .ok () ↔ total + lengths.sum ≤ limit := by
  induction lengths generalizing total with
  | nil => exact iff_of_true rfl htotal
  | cons bytes lengths ih =>
      rw [addBytes, List.sum_cons]
      split_ifs with hoverflow hexceeds
      · exact iff_of_false (fun h => (by cases h)) (by omega)
      · exact iff_of_false (fun h => (by cases h)) (by omega)
      · rw [ih (total + bytes) (by omega), Nat.add_assoc]

/-- Counting overflows only when the sum does. -/
theorem add_bytes_no_overflow {limit : Nat} (lengths : List Nat) (total : Nat)
    (hsum : total + lengths.sum < 2 ^ 64) :
    addBytes limit total lengths ≠ .error "HTTP request body length overflow" := by
  induction lengths generalizing total with
  | nil => exact fun h => (by cases h)
  | cons bytes lengths ih =>
      rw [List.sum_cons] at hsum
      rw [addBytes, if_neg (by omega)]
      split_ifs with hexceeds
      · intro h
        have htexts := congrArg (fun text => text.toList.take 19) (Except.error.inj h)
        simp [String.toList_append] at htexts
      · exact ih (total + bytes) (by omega)

/-! ## The execution context -/

/-- A response mode that reads as `sink`. -/
def isSinkMode (response : Option Value) : Bool := response.bind variantName = some "sink"

/-- Inject the submitting role, and the database where the request needs it. -/
def setExecutionContext (config : Value) (submittedBy : String) (database : Option String) :
    Option Value :=
  match setMember config "submitted_by" (.string submittedBy) with
  | none => none
  | some config =>
      if (config.get? "endpoint").isSome || (config.get? "secret_bindings").isSome ||
          (config.get? "form_fields").isSome || isSinkMode (config.get? "response") then
        setMember config "database" (encodeOptionString database)
      else some config

end PgDurable
