import PgDurable.Graph.HttpConfig
import PgDurable.Library.Base64
import PgDurable.Library.Utf8

/-!
# Multipart requests

The activity that sends a multipart request decodes the payload of every part and counts the bytes
against `max_request_bytes`. The orchestration counts the same bytes before it schedules the
activity, from the lengths of the encoded payloads alone. `base64_decoded_length_eq` says that this
count is exact for a payload that can be decoded, and `part_checks_agree` that both sides accept and
reject the same parts.
-/

namespace PgDurable

open Json Text

/-! ## Building the request -/

/-- The payload of a part without the ASCII white space in it. -/
def stripped (data : String) : List Char := data.toList.filter fun c => !isAsciiWhitespace c

/-- Decode the payload of a part. -/
def decodePartData (data : String) : Except String (List UInt8) :=
  let encoded :=
    if data.toList.any isAsciiWhitespace then stripped data else data.toList
  match Base64.decode encoded with
  | some bytes => .ok bytes
  | none => .error "invalid base64 text"

/-- One part of a multipart body. -/
structure MultipartPart where
  name : String
  filename : Option String
  contentType : Option String
  dataB64 : String

/-- A part as the request carries it. -/
structure FormPart where
  name : String
  bytes : List UInt8
  contentType : Option String
  filename : Option String

/-- What the HTTP client says: whether it takes a text for a media type, and the body length of the
request it builds, if it knows one. -/
structure MultipartClient where
  mimeStr : String → Except String Unit
  build : List FormPart → Except String (Option Nat)

/-- Check a number of bytes against `max_request_bytes`. -/
def checkRequestBytes (maxRequestBytes : Option Nat) (bytes : Nat) : Except String Unit :=
  match maxRequestBytes with
  | none => .ok ()
  | some limit =>
      if limit < bytes then
        .error ("HTTP request body exceeds max_request_bytes (" ++ toString limit ++ " bytes)")
      else .ok ()

/-- The error of a part whose media type the client does not take. -/
def contentTypeError (part : MultipartPart) (error : String) : String :=
  "Invalid content_type for part '" ++ part.name ++ "': " ++ error

/-- Check the media type of a part. -/
def checkContentType (client : MultipartClient) (part : MultipartPart) : Except String Unit :=
  match part.contentType with
  | none => .ok ()
  | some contentType => (client.mimeStr contentType).mapError (contentTypeError part)

/-- Add a number of bytes to the total. -/
def countBytes (maxRequestBytes : Option Nat) (total bytes : Nat) : Except String Nat :=
  if 2 ^ 64 ≤ total + bytes then .error "HTTP request body length overflow"
  else (checkRequestBytes maxRequestBytes (total + bytes)).map fun _ => total + bytes

/-- Add the parts to the form, counting their bytes. -/
def addParts (client : MultipartClient) (maxRequestBytes : Option Nat) :
    Nat → List MultipartPart → List FormPart → Except String (List FormPart)
  | _, [], form => .ok form
  | total, part :: parts, form => do
      let bytes ← (decodePartData part.dataB64).mapError
        (("Invalid base64 in part '" ++ part.name ++ "': ") ++ ·)
      let total ← countBytes maxRequestBytes total bytes.length
      checkContentType client part
      addParts client maxRequestBytes total parts
        (form ++ [⟨part.name, bytes, part.contentType, part.filename⟩])

/-- Build the request of a list of parts. With a limit, the length of the whole body counts too. -/
def buildMultipartRequest (client : MultipartClient) (parts : List MultipartPart)
    (maxRequestBytes : Option Nat) : Except String (List FormPart) := do
  let form ← addParts client maxRequestBytes 0 parts []
  let length ← (client.build form).mapError ("Failed to build multipart request: " ++ ·)
  if maxRequestBytes.isSome then
    match length with
    | none => throw "Cannot enforce max_request_bytes: multipart body length is unknown"
    | some length => checkRequestBytes maxRequestBytes length
  pure form

/-! ## The length of a payload -/

/-- Decoding looks at what is left without the white space. -/
theorem decode_part_data_ok {data : String} {bytes : List UInt8}
    (h : decodePartData data = .ok bytes) : Base64.decode (stripped data) = some bytes := by
  have hencoded : (if data.toList.any isAsciiWhitespace then stripped data else data.toList) =
      stripped data := by
    split_ifs with hspace
    · rfl
    · refine (List.filter_eq_self.2 fun c hc => ?_).symm
      simp only [List.any_eq_true, not_exists, not_and] at hspace
      simpa using hspace c hc
  rw [decodePartData, hencoded] at h
  split at h
  · next decoded hdecode =>
      cases h
      exact hdecode
  · cases h

/-- One-byte characters make a text as long in bytes as in characters. -/
theorem utf8_byte_size_ascii {text : List Char} (h : ∀ c ∈ text, c.utf8Size = 1) :
    (String.ofList text).utf8ByteSize = text.length := by
  rw [← byte_length_to_list, String.toList_ofList]
  induction text with
  | nil => rfl
  | cons c text ih =>
      obtain ⟨hc, htext⟩ := List.forall_mem_cons.1 h
      rw [byte_length_cons, hc, ih htext, List.length_cons, Nat.add_comm]

/-- The estimate of a decoded length, before the padding is taken off. -/
def decodedLenEstimate (encodedLength : Nat) : Nat := (encodedLength + 3) / 4 * 3

/-- The length computed from the encoded text is the number of decoded bytes. The padding never
exceeds the estimate it is taken off, and the estimate never exceeds the length of the text. -/
theorem base64_decoded_length_eq {data : String} {bytes : List UInt8}
    (h : decodePartData data = .ok bytes) :
    base64DecodedLength data = bytes.length ∧
      Base64.paddingLength (stripped data) ≤ decodedLenEstimate (stripped data).length ∧
      decodedLenEstimate (stripped data).length ≤ data.utf8ByteSize := by
  have hdecode := decode_part_data_ok h
  obtain ⟨hmod, hpadding, hlength⟩ := Base64.decode_length hdecode
  have hbytes := utf8_byte_size_ascii fun c hc => Base64.decode_ascii hdecode hc
  have hestimate : decodedLenEstimate (stripped data).length = (stripped data).length / 4 * 3 := by
    unfold decodedLenEstimate
    omega
  have hsize : (stripped data).length ≤ data.utf8ByteSize := by
    rw [← byte_length_to_list]
    exact (List.length_filter_le _ _).trans (length_le_byte_length _)
  refine ⟨?_, ?_, ?_⟩
  · show ((String.ofList (stripped data)).utf8ByteSize + 3) / 4 * 3 -
      min 2 (Base64.paddingLength (stripped data)) = bytes.length
    rw [hbytes]
    unfold decodedLenEstimate at hestimate
    omega
  · rw [hestimate]
    omega
  · rw [hestimate]
    omega

/-! ## The two counts -/

/-- The JSON form of a part. -/
def MultipartPart.encode (part : MultipartPart) : Value :=
  .object ([("name", .string part.name)] ++
    optionalMember "filename" (part.filename.map Value.string) ++
    optionalMember "content_type" (part.contentType.map Value.string) ++
    [("data_b64", .string part.dataB64)])

/-- A configuration carries a limit and a list of parts, and no other body. -/
structure CarriesParts (config : Value) (limit : Nat) (parts : List MultipartPart) : Prop where
  maxRequestBytes : config.get? "max_request_bytes" = some (.number (Number.ofNat limit))
  bound : limit < 2 ^ 64
  parts : config.get? "parts" = some (.array (parts.map MultipartPart.encode))
  body : config.get? "body" = none
  form : config.get? "form_fields" = none

theorem part_data (part : MultipartPart) :
    (part.encode.get? "data_b64").bind Value.asStr = some part.dataB64 := by
  obtain ⟨name, filename, contentType, dataB64⟩ := part
  cases filename <;> cases contentType <;> rfl

/-- The size check of a configuration with parts counts the lengths of their payloads. -/
theorem check_parts_size {config : Value} {limit : Nat} {parts : List MultipartPart}
    (h : CarriesParts config limit parts) :
    checkHttpRequestSize config false =
      (addBytes limit 0 (parts.map fun part => base64DecodedLength part.dataB64)).map
        fun _ => () := by
  have hlimit : (Value.number (Number.ofNat limit)).asU64 = some limit := by
    exact if_pos (decide_eq_true h.bound)
  have hparts : ∀ length : Value → Option Nat,
      (∀ part : MultipartPart, length part.encode = some (base64DecodedLength part.dataB64)) →
      (parts.map MultipartPart.encode).filterMap length =
        parts.map fun part => base64DecodedLength part.dataB64 := by
    intro length hlength
    rw [List.filterMap_map, ← List.filterMap_eq_map]
    exact List.filterMap_congr fun part _ => hlength part
  unfold checkHttpRequestSize
  simp only [h.maxRequestBytes, hlimit, h.parts, h.body, h.form, Option.bind_some,
    Option.bind_none, Value.asArray, Option.getD_some, List.nil_append, List.append_nil]
  rw [hparts _ fun part => by simp only [part_data]; rfl]

theorem check_content_type_error {client : MultipartClient} {part : MultipartPart}
    {message : String} (h : checkContentType client part = .error message) :
    ∃ contentType error, part.contentType = some contentType ∧
      client.mimeStr contentType = .error error ∧ message = contentTypeError part error := by
  unfold checkContentType at h
  split at h
  · cases h
  · next contentType hsome =>
      cases hmime : client.mimeStr contentType with
      | ok _ =>
          rw [hmime] at h
          cases h
      | error error =>
          rw [hmime] at h
          cases h
          exact ⟨contentType, error, hsome, hmime, rfl⟩

/-- Building the parts accepts and rejects as counting their lengths does, unless the client refuses
a media type first. -/
theorem add_parts_check (client : MultipartClient) {limit : Nat} {parts : List MultipartPart}
    {decoded : List (List UInt8)}
    (h : parts.map (fun part => decodePartData part.dataB64) = decoded.map Except.ok)
    (total : Nat) (form : List FormPart) :
    (addParts client (some limit) total parts form).map (fun _ => ()) =
        (addBytes limit total (decoded.map List.length)).map (fun _ => ()) ∨
      ∃ part ∈ parts, ∃ contentType error, part.contentType = some contentType ∧
        client.mimeStr contentType = .error error ∧
        addParts client (some limit) total parts form = .error (contentTypeError part error) := by
  induction parts generalizing decoded total form with
  | nil =>
      cases decoded with
      | nil => exact Or.inl rfl
      | cons bytes decoded => cases h
  | cons part parts ih =>
      cases decoded with
      | nil => cases h
      | cons bytes decoded =>
          obtain ⟨hpart, hparts⟩ := List.cons.inj h
          have hread : decodePartData part.dataB64 = .ok bytes := hpart
          have hstep : addParts client (some limit) total (part :: parts) form =
              (countBytes (some limit) total bytes.length).bind fun total =>
                (checkContentType client part).bind fun _ =>
                  addParts client (some limit) total parts
                    (form ++ [⟨part.name, bytes, part.contentType, part.filename⟩]) := by
            rw [addParts, hread]
            rfl
          rw [hstep, List.map_cons, addBytes]
          unfold countBytes checkRequestBytes
          by_cases hoverflow : 2 ^ 64 ≤ total + bytes.length
          · rw [if_pos hoverflow, if_pos hoverflow]
            exact Or.inl rfl
          by_cases hexceeds : limit < total + bytes.length
          · simp only [if_neg hoverflow, if_pos hexceeds]
            exact Or.inl rfl
          simp only [if_neg hoverflow, if_neg hexceeds, Except.map, Except.bind]
          -- The part is within the limit; the client still has its say.
          cases hcontent : checkContentType client part with
          | error message =>
              obtain ⟨contentType, error, hsome, hmime, rfl⟩ := check_content_type_error hcontent
              exact Or.inr ⟨part, List.mem_cons_self, contentType, error, hsome, hmime, rfl⟩
          | ok _ =>
              rcases ih hparts (total + bytes.length)
                  (form ++ [⟨part.name, bytes, part.contentType, part.filename⟩]) with
                hagree | ⟨other, hother, hrefused⟩
              · exact Or.inl hagree
              · exact Or.inr ⟨other, List.mem_cons_of_mem _ hother, hrefused⟩

/-- Payloads that are decoded have the lengths that are computed for them. -/
theorem decoded_lengths {parts : List MultipartPart} {decoded : List (List UInt8)}
    (h : parts.map (fun part => decodePartData part.dataB64) = decoded.map Except.ok) :
    parts.map (fun part => base64DecodedLength part.dataB64) = decoded.map List.length := by
  induction parts generalizing decoded with
  | nil =>
      cases decoded with
      | nil => rfl
      | cons bytes decoded => cases h
  | cons part parts ih =>
      cases decoded with
      | nil => cases h
      | cons bytes decoded =>
          obtain ⟨hpart, hparts⟩ := List.cons.inj h
          rw [List.map_cons, List.map_cons, (base64_decoded_length_eq hpart).1, ih hparts]

/-- The size that the orchestration computes from the encoded payloads is the number of bytes that
the activity decodes, part by part and in total: both sides accept the parts when the sum is within
the limit, neither subtraction nor addition leaves its range, and building the parts fails
differently only when the client refuses a media type. -/
theorem part_checks_agree {config : Value} {limit : Nat} {parts : List MultipartPart}
    (hconfig : CarriesParts config limit parts)
    (hdecodes : ∀ part ∈ parts, ∃ bytes, decodePartData part.dataB64 = .ok bytes)
    (client : MultipartClient) :
    ∃ decoded : List (List UInt8),
      parts.map (fun part => decodePartData part.dataB64) = decoded.map Except.ok ∧
      parts.map (fun part => base64DecodedLength part.dataB64) = decoded.map List.length ∧
      (∀ part ∈ parts,
        Base64.paddingLength (stripped part.dataB64) ≤
            decodedLenEstimate (stripped part.dataB64).length ∧
          decodedLenEstimate (stripped part.dataB64).length ≤ part.dataB64.utf8ByteSize) ∧
      (checkHttpRequestSize config false = .ok () ↔ (decoded.map List.length).sum ≤ limit) ∧
      ((decoded.map List.length).sum < 2 ^ 64 →
        checkHttpRequestSize config false ≠ .error "HTTP request body length overflow") ∧
      ((addParts client (some limit) 0 parts []).map (fun _ => ()) =
          checkHttpRequestSize config false ∨
        ∃ part ∈ parts, ∃ contentType error, part.contentType = some contentType ∧
          client.mimeStr contentType = .error error ∧
          addParts client (some limit) 0 parts [] = .error (contentTypeError part error)) := by
  obtain ⟨decoded, hdecoded⟩ : ∃ decoded : List (List UInt8),
      parts.map (fun part => decodePartData part.dataB64) = decoded.map Except.ok := by
    refine ⟨parts.map fun part => (decodePartData part.dataB64).toOption.getD [], ?_⟩
    rw [List.map_map]
    refine List.map_congr_left fun part hpart => ?_
    obtain ⟨bytes, hbytes⟩ := hdecodes part hpart
    simp only [Function.comp_apply, hbytes]
    rfl
  have hlengths : parts.map (fun part => base64DecodedLength part.dataB64) =
      decoded.map List.length := decoded_lengths hdecoded
  have hcheck := check_parts_size hconfig
  rw [hlengths] at hcheck
  refine ⟨decoded, hdecoded, hlengths, fun part hpart => ?_, ?_, fun hsum => ?_, ?_⟩
  · obtain ⟨bytes, hbytes⟩ := hdecodes part hpart
    exact (base64_decoded_length_eq hbytes).2
  · rw [hcheck, add_bytes_ok_iff hconfig.bound _ 0 (Nat.zero_le _), Nat.zero_add]
  · rw [hcheck]
    have hno := @add_bytes_no_overflow limit (decoded.map List.length) 0 (by omega)
    cases hadd : addBytes limit 0 (decoded.map List.length) with
    | ok _ => exact fun h => (by cases h)
    | error message =>
        intro h
        cases h
        exact hno hadd
  · rw [hcheck]
    exact add_parts_check client hdecoded 0 []

/-- Two parts of three bytes and of one; the second payload is wrapped inside its padding. -/
def wrappedParts : List MultipartPart :=
  [⟨"a", none, none, "TWFu"⟩, ⟨"b", some "b.txt", some "text/plain", "TQ=\n="⟩]

/-- A configuration that carries them with a limit of four bytes. -/
def wrappedConfig : Value :=
  .object [("url", .string "https://example.com"),
    ("max_request_bytes", .number (Number.ofNat 4)),
    ("parts", .array (wrappedParts.map MultipartPart.encode))]

/-- The theorem at those parts. -/
theorem wrapped_parts_agree :
    checkHttpRequestSize wrappedConfig false = .ok () ∧
      ∃ form, addParts ⟨fun _ => .ok (), fun _ => .ok none⟩ (some 4) 0 wrappedParts [] =
        .ok form := by
  obtain ⟨decoded, hdecoded, -, -, hcheck, -, hbuild⟩ :=
    @part_checks_agree wrappedConfig 4 wrappedParts ⟨rfl, by decide, rfl, rfl, rfl⟩
      (List.forall_mem_cons.2 ⟨⟨[77, 97, 110], by decide +kernel⟩,
        List.forall_mem_singleton.2 ⟨[77], by decide +kernel⟩⟩)
      ⟨fun _ => .ok (), fun _ => .ok none⟩
  have hknown : wrappedParts.map (fun part => decodePartData part.dataB64) =
      [[77, 97, 110], [77]].map Except.ok := by decide +kernel
  have hbytes : decoded = [[77, 97, 110], [77]] :=
    List.map_injective_iff.2 (fun _ _ h => Except.ok.inj h) (hdecoded.symm.trans hknown)
  have hok : checkHttpRequestSize wrappedConfig false = .ok () := by
    refine hcheck.2 ?_
    rw [hbytes]
    decide
  refine ⟨hok, ?_⟩
  rcases hbuild with hagree | ⟨part, -, contentType, error, -, hmime, -⟩
  · rw [hok] at hagree
    cases hform : addParts ⟨fun _ => .ok (), fun _ => .ok none⟩ (some 4) 0 wrappedParts [] with
    | ok form => exact ⟨form, rfl⟩
    | error message =>
        rw [hform] at hagree
        cases hagree
  · cases hmime

end PgDurable
