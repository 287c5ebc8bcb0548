import PgDurable.Library.Base64
import PgDurable.Library.Text

/-!
# Reading a response

`readBody` reads the chunks of an HTTP response under a byte limit, buffering and hashing what the
response mode asks for, and decides whether the inline body travels as text or as base64.
`read_body_chunked` says that nothing depends on how the body was cut into chunks, and that the
limit holds at every step. `inline_body_storable_iff` says when an inline body is one that a text
column can hold.
-/

namespace PgDurable

open Text

/-! ## What is read -/

/-- What happens to the body of a response. -/
inductive HttpResponseMode where
  | inline
  | metadata
  | discard
  | sink
  deriving DecidableEq

/-- The options of a request that reading its response looks at. -/
structure HttpBodyOptions where
  response : Option HttpResponseMode
  maxResponseBytes : Option UInt64

/-- The mode, `inline` by default. -/
def HttpBodyOptions.mode (options : HttpBodyOptions) : HttpResponseMode :=
  options.response.getD .inline

/-- The greatest unsigned 64-bit integer. -/
def u64Max : Nat := 2 ^ 64 - 1

/-- The most bytes that are read; without a limit, as many as can be counted. -/
def HttpBodyOptions.limit (options : HttpBodyOptions) : Nat :=
  options.maxResponseBytes.elim u64Max UInt64.toNat

/-- The value of a header, as it was received. -/
structure HeaderValue where
  bytes : List UInt8

/-- The value as a text, if all of it is visible ASCII. -/
def HeaderValue.toStr (value : HeaderValue) : Option String :=
  if value.bytes.all fun b => (32 ≤ b && b < 127) || b = 9 then
    some (String.ofList (value.bytes.map fun b => Char.ofNat b.toNat))
  else none

/-- A response: what its headers say, and what reading its body gives chunk by chunk. -/
structure Response where
  contentType : Option HeaderValue
  contentLength : Option Nat
  chunks : List (Except String (List UInt8))

/-- Hashing chunk by chunk. What was hashed depends on the bytes only. -/
structure IncrementalHash where
  State : Type
  start : State
  update : State → List UInt8 → State
  finish : State → String
  update_nil : ∀ state, update state [] = state
  update_append : ∀ state first second,
    update (update state first) second = update state (first ++ second)

/-- What the HTTP client and the hash do: decode a body by the charset of its header, and digest
it. -/
structure ResponseReader where
  text : Option HeaderValue → List UInt8 → Except String String
  sha256 : IncrementalHash

/-! ## Text or base64 -/

/-- Whether a `Content-Type` declares a textual body: its first value, without parameters, names
a textual type. -/
def isDeclaredTextual (contentType : Option String) : Bool :=
  match contentType with
  | none => false
  | some contentType =>
      let mime := (trim ((contentType.toList.takeWhile (· ≠ ',')).takeWhile (· ≠ ';'))).map
        Char.toLower
      !mime.isEmpty &&
        ("text/".toList.isPrefixOf mime ||
          "+json".toList.isSuffixOf mime || "+xml".toList.isSuffixOf mime ||
          "+yaml".toList.isSuffixOf mime ||
          ["application/json", "application/xml", "application/javascript",
            "application/ecmascript", "application/x-www-form-urlencoded",
            "application/graphql", "application/yaml", "application/x-yaml"].contains
            (String.ofList mime))

/-- How a body is encoded for the result. -/
inductive BodyEncoding where
  | text
  | base64
  deriving DecidableEq

/-- A decoded body. -/
structure ResponseBody where
  body : String
  encoding : BodyEncoding
  deriving DecidableEq

/-- Decode bytes as text if they can be carried as text: no NUL byte, and valid UTF-8. -/
def textFromBytes (bytes : List UInt8) : Option String :=
  if bytes.contains 0 then none else String.fromUTF8? bytes.toByteArray

/-! ## Reading -/

/-- Why reading ends without content. `arithmetic` is an unsigned operation out of its range. -/
inductive ReadFault where
  | arithmetic
  | failed (message : String)
  deriving DecidableEq

/-- What was read so far. -/
structure ReadState (hash : IncrementalHash) where
  bytes : List UInt8
  totalBytes : Nat
  hasher : Option hash.State

/-- What reading returns. -/
structure ResponseContent where
  inline : Option ResponseBody
  bytes : Nat
  sha256 : Option String
  sinkBody : Option (List UInt8)
  deriving DecidableEq

/-- The error of a body beyond the limit. -/
def exceededError (limit : Nat) : String :=
  "HTTP response body exceeds max_response_bytes (" ++ toString limit ++ " bytes)"

/-- The error of a body that cannot be read. -/
def readError (error : String) : String := "Failed to read response body: " ++ error

/-- A difference of unsigned 64-bit integers. -/
def checkedSub (a b : Nat) : Option Nat := if b ≤ a then some (a - b) else none

/-- A sum of unsigned 64-bit integers. -/
def checkedAdd (a b : Nat) : Option Nat := if a + b < 2 ^ 64 then some (a + b) else none

section Reading

variable (reader : ResponseReader)

/-- Before the first chunk. -/
def startReading (mode : HttpResponseMode) : ReadState reader.sha256 where
  bytes := []
  totalBytes := 0
  hasher := if mode = .metadata ∨ mode = .sink then some reader.sha256.start else none

/-- Take one chunk. -/
def readChunk (mode : HttpResponseMode) (limit : Nat) (state : ReadState reader.sha256)
    (chunk : List UInt8) : Except ReadFault (ReadState reader.sha256) :=
  match checkedSub limit state.totalBytes with
  | none => .error .arithmetic
  | some room =>
      if room < chunk.length then .error (.failed (exceededError limit))
      else
        match checkedAdd state.totalBytes chunk.length with
        | none => .error .arithmetic
        | some totalBytes =>
            .ok {
              bytes := if mode = .inline ∨ mode = .sink then state.bytes ++ chunk else state.bytes
              totalBytes
              hasher := state.hasher.map fun hasher => reader.sha256.update hasher chunk }

/-- Take every chunk. -/
def readChunks (mode : HttpResponseMode) (limit : Nat) :
    List (Except String (List UInt8)) → ReadState reader.sha256 →
      Except ReadFault (ReadState reader.sha256)
  | [], state => .ok state
  | .error error :: _, _ => .error (.failed (readError error))
  | .ok chunk :: rest, state =>
      match readChunk reader mode limit state chunk with
      | .error fault => .error fault
      | .ok state => readChunks mode limit rest state

/-- The inline body: text where the header declares it or the bytes allow it, else base64. -/
def inlineBody (contentType : Option HeaderValue) (bytes : List UInt8) :
    Except ReadFault ResponseBody :=
  if isDeclaredTextual (contentType.bind HeaderValue.toStr) then
    match reader.text contentType bytes with
    | .error error => .error (.failed (readError error))
    | .ok text => .ok ⟨text, .text⟩
  else
    match textFromBytes bytes with
    | some text => .ok ⟨text, .text⟩
    | none => .ok ⟨String.ofList (Base64.encode bytes), .base64⟩

/-- What becomes of everything that was read. -/
def finishReading (mode : HttpResponseMode) (contentType : Option HeaderValue)
    (state : ReadState reader.sha256) : Except ReadFault ResponseContent :=
  let content := fun inline => {
    inline
    bytes := state.totalBytes
    sha256 := state.hasher.map reader.sha256.finish
    sinkBody := if mode = .sink then some state.bytes else none : ResponseContent }
  if mode ≠ .inline then .ok (content none)
  else (inlineBody reader contentType state.bytes).map fun body => content (some body)

/-- Read the body of a response. -/
def readBody (options : HttpBodyOptions) (response : Response) :
    Except ReadFault ResponseContent :=
  if response.contentLength.any fun length => options.limit < length then
    .error (.failed (exceededError options.limit))
  else
    match readChunks reader options.mode options.limit response.chunks
        (startReading reader options.mode) with
    | .error fault => .error fault
    | .ok state => finishReading reader options.mode response.contentType state

end Reading

/-! ## Chunks -/

section Chunks

variable {reader : ResponseReader} {mode : HttpResponseMode} {limit : Nat}

/-- The state after some more bytes. -/
def ReadState.take (mode : HttpResponseMode) (state : ReadState reader.sha256)
    (bytes : List UInt8) : ReadState reader.sha256 where
  bytes := if mode = .inline ∨ mode = .sink then state.bytes ++ bytes else state.bytes
  totalBytes := state.totalBytes + bytes.length
  hasher := state.hasher.map fun hasher => reader.sha256.update hasher bytes

theorem take_nil (state : ReadState reader.sha256) : state.take mode [] = state := by
  obtain ⟨bytes, totalBytes, hasher⟩ := state
  simp [ReadState.take, reader.sha256.update_nil]

theorem take_take (state : ReadState reader.sha256) (first second : List UInt8) :
    (state.take mode first).take mode second = state.take mode (first ++ second) := by
  simp only [ReadState.take, ReadState.mk.injEq, Option.map_map, List.length_append,
    Nat.add_assoc, true_and]
  refine ⟨?_, ?_⟩
  · split_ifs <;> simp
  · congr 1
    exact funext fun hasher => reader.sha256.update_append hasher first second

/-- No more is buffered than was counted. -/
theorem take_buffered (state : ReadState reader.sha256) (bytes : List UInt8)
    (h : state.bytes.length ≤ state.totalBytes) :
    (state.take mode bytes).bytes.length ≤ (state.take mode bytes).totalBytes := by
  unfold ReadState.take
  dsimp only
  split_ifs
  · rw [List.length_append]
    omega
  · omega

/-- Within the limit, no operation on the total leaves its range: a chunk is taken whole, or it
exceeds the limit. -/
theorem read_chunk_eq {state : ReadState reader.sha256} (hlimit : limit < 2 ^ 64)
    (hstate : state.totalBytes ≤ limit) (chunk : List UInt8) :
    readChunk reader mode limit state chunk =
      if limit < state.totalBytes + chunk.length then .error (.failed (exceededError limit))
      else .ok (state.take mode chunk) := by
  rw [readChunk, checkedSub, if_pos hstate]
  dsimp only
  by_cases hexceeds : limit < state.totalBytes + chunk.length
  · rw [if_pos (by omega), if_pos hexceeds]
  · rw [if_neg (by omega), if_neg hexceeds, checkedAdd, if_pos (by omega)]
    rfl

/-- Only chunks that all arrived are read to the end. -/
theorem read_chunks_arrived {chunks : List (Except String (List UInt8))}
    {state final : ReadState reader.sha256}
    (h : readChunks reader mode limit chunks state = .ok final) :
    ∃ arrived : List (List UInt8), chunks = arrived.map Except.ok := by
  induction chunks generalizing state with
  | nil => exact ⟨[], rfl⟩
  | cons chunk chunks ih =>
      cases chunk with
      | error error => cases h
      | ok chunk =>
          rw [readChunks] at h
          cases hchunk : readChunk reader mode limit state chunk with
          | error fault =>
              rw [hchunk] at h
              cases h
          | ok next =>
              rw [hchunk] at h
              obtain ⟨arrived, rfl⟩ := ih h
              exact ⟨chunk :: arrived, rfl⟩

/-- Reading chunks is reading their concatenation. -/
theorem read_chunks_eq (hlimit : limit < 2 ^ 64) (chunks : List (List UInt8))
    {state : ReadState reader.sha256} (hstate : state.totalBytes ≤ limit) :
    readChunks reader mode limit (chunks.map Except.ok) state =
      if limit < state.totalBytes + chunks.flatten.length then
        .error (.failed (exceededError limit))
      else .ok (state.take mode chunks.flatten) := by
  induction chunks generalizing state with
  | nil =>
      rw [List.flatten_nil, take_nil, if_neg (by simpa using hstate)]
      rfl
  | cons chunk chunks ih =>
      rw [List.map_cons, readChunks, read_chunk_eq hlimit hstate, List.flatten_cons,
        List.length_append]
      by_cases hexceeds : limit < state.totalBytes + chunk.length
      · rw [if_pos hexceeds, if_pos (by omega)]
      · rw [if_neg hexceeds]
        have hnext : (state.take mode chunk).totalBytes ≤ limit := Nat.le_of_not_lt hexceeds
        have hrest := ih hnext
        rw [take_take] at hrest
        rw [← Nat.add_assoc]
        exact hrest

end Chunks

/-- Read a body that arrives in one piece. -/
def readWhole (reader : ResponseReader) (options : HttpBodyOptions)
    (contentType : Option HeaderValue) (body : List UInt8) :
    Except ReadFault ResponseContent :=
  finishReading reader options.mode contentType {
    bytes := if options.mode = .inline ∨ options.mode = .sink then body else []
    totalBytes := body.length
    hasher :=
      if options.mode = .metadata ∨ options.mode = .sink then
        some (reader.sha256.update reader.sha256.start body)
      else none }

theorem limit_lt (options : HttpBodyOptions) : options.limit < 2 ^ 64 := by
  unfold HttpBodyOptions.limit
  cases options.maxResponseBytes with
  | none =>
      show u64Max < 2 ^ 64
      decide
  | some limit => exact limit.toNat_lt

/-- The two errors of reading differ. -/
theorem read_error_ne (limit : Nat) (error : String) : readError error ≠ exceededError limit := by
  intro h
  have hfirst := congrArg (fun text => text.toList.take 1) h
  dsimp only [readError, exceededError] at hfirst
  rw [String.toList_append, String.toList_append, String.toList_append,
    List.take_append_of_le_length (by decide), List.append_assoc,
    List.take_append_of_le_length (by decide)] at hfirst
  exact absurd hfirst (by decide)

/-- Deciding about the inline body fails only when its text cannot be read. -/
theorem inline_body_faults {reader : ResponseReader} {contentType : Option HeaderValue}
    {bytes : List UInt8} {fault : ReadFault}
    (h : inlineBody reader contentType bytes = .error fault) :
    ∃ error, fault = .failed (readError error) := by
  unfold inlineBody at h
  split at h
  · cases htext : reader.text contentType bytes with
    | ok text =>
        rw [htext] at h
        cases h
    | error error =>
        rw [htext] at h
        cases h
        exact ⟨error, rfl⟩
  · split at h <;> cases h

/-- Nothing after the chunks reports the limit, or leaves the range of an operation. -/
theorem finish_reading_faults {reader : ResponseReader} {mode : HttpResponseMode}
    {contentType : Option HeaderValue} {state : ReadState reader.sha256} {fault : ReadFault}
    (h : finishReading reader mode contentType state = .error fault) :
    ∃ error, fault = .failed (readError error) := by
  unfold finishReading at h
  by_cases hmode : mode = .inline
  · rw [if_neg (not_not_intro hmode)] at h
    cases hbody : inlineBody reader contentType state.bytes with
    | ok body =>
        rw [hbody] at h
        cases h
    | error other =>
        rw [hbody] at h
        cases h
        exact inline_body_faults hbody
  · rw [if_pos hmode] at h
    cases h

/-- What was read before the end is within the limit. -/
theorem start_reading_total (reader : ResponseReader) (mode : HttpResponseMode) (limit : Nat) :
    (startReading reader mode).totalBytes ≤ limit := Nat.zero_le limit

/-- Taking the whole body at once is what reading it in one piece finishes with. -/
theorem finish_whole (reader : ResponseReader) (options : HttpBodyOptions)
    (contentType : Option HeaderValue) (body : List UInt8) :
    finishReading reader options.mode contentType
        ((startReading reader options.mode).take options.mode body) =
      readWhole reader options contentType body := by
  unfold readWhole startReading ReadState.take
  congr 2
  · exact Nat.zero_add _
  · split_ifs <;> rfl

/-- Reading does not depend on how the body is cut into chunks: it fails with the limit error
exactly when the whole body exceeds the limit, and otherwise gives what reading it in one piece
gives. No operation leaves its range, and after any number of chunks at most as many bytes are
buffered as the limit allows. -/
theorem read_body_chunked (reader : ResponseReader) (options : HttpBodyOptions)
    {response : Response} {chunks : List (List UInt8)}
    (hchunks : response.chunks = chunks.map Except.ok)
    (hlength : ∀ length, response.contentLength = some length → length = chunks.flatten.length) :
    (readBody reader options response = .error (.failed (exceededError options.limit)) ↔
      options.limit < chunks.flatten.length) ∧
    (chunks.flatten.length ≤ options.limit → readBody reader options response =
      readWhole reader options response.contentType chunks.flatten) ∧
    readBody reader options response ≠ .error .arithmetic ∧
    ∀ before after, chunks = before ++ after → ∀ state,
      readChunks reader options.mode options.limit (before.map Except.ok)
        (startReading reader options.mode) = .ok state →
      state.totalBytes = before.flatten.length ∧ state.totalBytes ≤ options.limit ∧
        state.bytes.length ≤ options.limit := by
  have hread : readBody reader options response =
      if options.limit < chunks.flatten.length then .error (.failed (exceededError options.limit))
      else readWhole reader options response.contentType chunks.flatten := by
    have hrun := @read_chunks_eq reader options.mode options.limit (limit_lt options) chunks _
      (start_reading_total reader options.mode options.limit)
    rw [show (startReading reader options.mode).totalBytes = 0 from rfl, Nat.zero_add] at hrun
    rw [readBody, hchunks, hrun]
    by_cases hexceeds : options.limit < chunks.flatten.length
    · rw [if_pos hexceeds]
      split_ifs <;> rfl
    · have hheader : ¬ (response.contentLength.any fun length => options.limit < length) = true := by
        intro hany
        obtain ⟨length, hsome, hlimit⟩ := (Option.any_eq_true _ _).1 hany
        exact hexceeds (hlength length hsome ▸ of_decide_eq_true hlimit)
      rw [if_neg hexceeds, if_neg hexceeds, if_neg hheader]
      exact finish_whole reader options response.contentType chunks.flatten
  have hwhole : ∀ fault, readWhole reader options response.contentType chunks.flatten =
      .error fault → ∃ error, fault = .failed (readError error) :=
    fun fault h => finish_reading_faults h
  refine ⟨⟨fun herror => ?_, fun hexceeds => ?_⟩, fun hwithin => ?_, fun harithmetic => ?_, ?_⟩
  · by_contra hwithin
    rw [hread, if_neg hwithin] at herror
    obtain ⟨error, hfault⟩ := hwhole _ herror
    exact read_error_ne _ error (ReadFault.failed.inj hfault).symm
  · rw [hread, if_pos hexceeds]
  · rw [hread, if_neg (Nat.not_lt.2 hwithin)]
  · rw [hread] at harithmetic
    by_cases hexceeds : options.limit < chunks.flatten.length
    · rw [if_pos hexceeds] at harithmetic
      cases harithmetic
    · rw [if_neg hexceeds] at harithmetic
      obtain ⟨error, hfault⟩ := hwhole _ harithmetic
      cases hfault
  · intro before after _ state hstate
    rw [read_chunks_eq (limit_lt options) before
      (start_reading_total reader options.mode options.limit)] at hstate
    split_ifs at hstate with hexceeds
    cases hstate
    have htotal : 0 + before.flatten.length ≤ options.limit := Nat.le_of_not_lt hexceeds
    refine ⟨Nat.zero_add _, htotal, ?_⟩
    exact (take_buffered (startReading reader options.mode) before.flatten (Nat.le_refl 0)).trans
      htotal

/-! ### Two chunks -/

/-- A client that decodes ASCII, and a hash that knows the digest of one text. -/
def asciiReader : ResponseReader where
  text := fun _ bytes => .ok (String.ofList (bytes.map fun b =>
    if b < 128 then Char.ofNat b.toNat else '\ufffd'))
  sha256 := {
    State := List UInt8
    start := []
    update := fun state bytes => state ++ bytes
    finish := fun state =>
      if state = [97, 98, 99] then
        "ba7816bf8f01cfea414140de5dae2223b00361a396177a9cb410ff61f20015ad"
      else ""
    update_nil := List.append_nil
    update_append := List.append_assoc }

/-- The theorem at two chunks that go to a sink, and at a limit that the second one exceeds. -/
theorem two_chunks_read :
    readBody asciiReader ⟨some .sink, some 3⟩ ⟨none, some 3, [.ok [97], .ok [98, 99]]⟩ =
        .ok ⟨none, 3,
          some "ba7816bf8f01cfea414140de5dae2223b00361a396177a9cb410ff61f20015ad",
          some [97, 98, 99]⟩ ∧
      readBody asciiReader ⟨some .sink, some 2⟩ ⟨none, none, [.ok [97], .ok [98, 99]]⟩ =
        .error (.failed (exceededError 2)) := by
  refine ⟨?_, ?_⟩
  · have hread := (@read_body_chunked asciiReader ⟨some .sink, some 3⟩
      ⟨none, some 3, [.ok [97], .ok [98, 99]]⟩ [[97], [98, 99]] rfl
      fun length h => (Option.some.inj h).symm).2.1 (by decide)
    rw [hread]
    rfl
  · exact (@read_body_chunked asciiReader ⟨some .sink, some 2⟩
      ⟨none, none, [.ok [97], .ok [98, 99]]⟩ [[97], [98, 99]] rfl
      fun length h => (by cases h)).1.2 (by decide)

/-! ## Storable text -/

/-- What was received of a response. -/
def Response.received (response : Response) : List UInt8 :=
  (response.chunks.filterMap Except.toOption).flatten

/-- The text a body stands for: decoded by its charset where the header declares text, else as
UTF-8. -/
def bodyText (reader : ResponseReader) (contentType : Option HeaderValue) (body : List UInt8) :
    Option String :=
  if isDeclaredTextual (contentType.bind HeaderValue.toStr) then
    (reader.text contentType body).toOption
  else String.fromUTF8? body.toByteArray

/-- A body can be carried as a text that a text column holds. -/
def CarriesText (reader : ResponseReader) (contentType : Option HeaderValue)
    (body : List UInt8) : Prop :=
  ∃ text, bodyText reader contentType body = some text ∧ '\x00' ∉ text.toList

/-- An inline body is storable: text has no NUL, and what cannot be carried as such a text is
base64 of exactly the body. -/
structure InlineStorable (reader : ResponseReader) (contentType : Option HeaderValue)
    (body : List UInt8) (inline : ResponseBody) : Prop where
  text : inline.encoding = .text → '\x00' ∉ inline.body.toList
  encoded : ¬ CarriesText reader contentType body → inline.encoding = .base64
  decodes : inline.encoding = .base64 → Base64.decode inline.body.toList = some body

/-- A body whose header declares text while the text has a NUL. -/
def DeclaredWithNul (reader : ResponseReader) (contentType : Option HeaderValue)
    (body : List UInt8) : Prop :=
  isDeclaredTextual (contentType.bind HeaderValue.toStr) = true ∧
    ∃ text, reader.text contentType body = .ok text ∧ '\x00' ∈ text.toList

section Storable

variable {reader : ResponseReader} {contentType : Option HeaderValue} {body : List UInt8}

/-- A NUL in a text is a zero among its bytes. -/
theorem zero_of_nul {text : List Char} (h : '\x00' ∈ text) :
    0 ∈ text.flatMap String.utf8EncodeChar :=
  List.mem_flatMap.2 ⟨'\x00', h, by decide⟩

/-- Bytes without a zero decode to a text without a NUL. -/
theorem text_from_bytes_no_nul {text : String} (hzero : body.contains 0 = false)
    (h : String.fromUTF8? body.toByteArray = some text) : '\x00' ∉ text.toList := by
  unfold String.fromUTF8? at h
  split_ifs at h with hvalid
  cases h
  intro hnul
  have hbytes : (String.fromUTF8 body.toByteArray hvalid).toList.utf8Encode = body.toByteArray := by
    rw [← String.toByteArray_ofList, String.ofList_toList]
    rfl
  have hzeros := zero_of_nul hnul
  rw [List.toByteArray_inj.1 hbytes] at hzeros
  rw [List.contains_iff_mem.2 hzeros] at hzero
  cases hzero

/-- Base64 gives the bytes back. -/
theorem decode_of_list_encode (bytes : List UInt8) :
    Base64.decode (String.ofList (Base64.encode bytes)).toList = some bytes := by
  rw [String.toList_ofList, Base64.decode_encode]

/-- An inline body is storable unless its header declares a text that has a NUL. -/
theorem inline_storable_iff {inline : ResponseBody}
    (h : inlineBody reader contentType body = .ok inline) :
    InlineStorable reader contentType body inline ↔
      ¬ DeclaredWithNul reader contentType body := by
  unfold inlineBody at h
  by_cases hdeclared : isDeclaredTextual (contentType.bind HeaderValue.toStr) = true
  · -- The text of the header's charset is taken as it is.
    rw [if_pos hdeclared] at h
    cases htext : reader.text contentType body with
    | error error =>
        rw [htext] at h
        cases h
    | ok text =>
        rw [htext] at h
        cases h
        refine ⟨fun hstorable hnul => ?_, fun hnul => ?_⟩
        · obtain ⟨-, other, hother, hmem⟩ := hnul
          cases htext.symm.trans hother
          exact hstorable.text rfl hmem
        · have hclean : '\x00' ∉ text.toList := fun hmem => hnul ⟨hdeclared, text, htext, hmem⟩
          refine ⟨fun _ => hclean, fun hcarries => absurd ⟨text, ?_, hclean⟩ hcarries,
            fun hencoding => (by cases hencoding)⟩
          rw [bodyText, if_pos hdeclared, htext]
          rfl
  · rw [if_neg hdeclared] at h
    refine iff_of_true ?_ fun hnul => hdeclared hnul.1
    unfold textFromBytes at h
    cases hzero : body.contains 0 with
    | true =>
        rw [hzero] at h
        cases h
        exact ⟨fun hencoding => (by cases hencoding), fun _ => rfl,
          fun _ => decode_of_list_encode body⟩
    | false =>
        rw [hzero] at h
        cases hutf : String.fromUTF8? body.toByteArray with
        | none =>
            rw [if_neg Bool.false_ne_true, hutf] at h
            cases h
            exact ⟨fun hencoding => (by cases hencoding), fun _ => rfl,
              fun _ => decode_of_list_encode body⟩
        | some text =>
            rw [if_neg Bool.false_ne_true, hutf] at h
            cases h
            have hclean := text_from_bytes_no_nul hzero hutf
            refine ⟨fun _ => hclean, fun hcarries => absurd ⟨text, ?_, hclean⟩ hcarries,
              fun hencoding => (by cases hencoding)⟩
            rw [bodyText, if_neg hdeclared, hutf]

end Storable

/-- Reading succeeds only on chunks that all arrived, and returns what they are in one piece. -/
theorem read_body_ok {reader : ResponseReader} {options : HttpBodyOptions} {response : Response}
    {content : ResponseContent} (h : readBody reader options response = .ok content) :
    readWhole reader options response.contentType response.received = .ok content := by
  unfold readBody at h
  split_ifs at h
  cases hrun : readChunks reader options.mode options.limit response.chunks
      (startReading reader options.mode) with
  | error fault =>
      rw [hrun] at h
      cases h
  | ok state =>
      rw [hrun] at h
      obtain ⟨chunks, hchunks⟩ := read_chunks_arrived hrun
      have hreceived : response.received = chunks.flatten := by
        rw [Response.received, hchunks, List.filterMap_map]
        exact congrArg List.flatten (List.filterMap_some (l := chunks))
      rw [hchunks, read_chunks_eq (limit_lt options) chunks
        (start_reading_total reader options.mode options.limit)] at hrun
      split_ifs at hrun
      cases hrun
      rw [hreceived, ← finish_whole]
      exact h

/-- Only an inline response has an inline body, and it is decided from the whole body. -/
theorem read_whole_inline {reader : ResponseReader} {options : HttpBodyOptions}
    {contentType : Option HeaderValue} {body : List UInt8} {content : ResponseContent}
    (h : readWhole reader options contentType body = .ok content) :
    (options.mode ≠ .inline ∧ content.inline = none) ∨
      ∃ inline, options.mode = .inline ∧ content.inline = some inline ∧
        inlineBody reader contentType body = .ok inline := by
  unfold readWhole finishReading at h
  by_cases hmode : options.mode = .inline
  · rw [if_neg (not_not_intro hmode)] at h
    dsimp only at h
    rw [if_pos (Or.inl hmode)] at h
    cases hbody : inlineBody reader contentType body with
    | error fault =>
        rw [hbody] at h
        cases h
    | ok inline =>
        rw [hbody] at h
        cases h
        exact Or.inr ⟨inline, hmode, rfl, rfl⟩
  · rw [if_pos hmode] at h
    cases h
    exact Or.inl ⟨hmode, rfl⟩

/-- Whatever was read, the inline body is storable unless the response is inline and its header
declares a text that has a NUL. -/
theorem inline_body_storable_iff {reader : ResponseReader} {options : HttpBodyOptions}
    {response : Response} {content : ResponseContent}
    (h : readBody reader options response = .ok content) :
    (∀ inline, content.inline = some inline →
      InlineStorable reader response.contentType response.received inline) ↔
      ¬ (options.mode = .inline ∧
        DeclaredWithNul reader response.contentType response.received) := by
  rcases read_whole_inline (read_body_ok h) with ⟨hmode, hnone⟩ | ⟨inline, hmode, hsome, hbody⟩
  · refine iff_of_true (fun inline hinline => ?_) fun hnul => hmode hnul.1
    rw [hnone] at hinline
    cases hinline
  · rw [not_and]
    refine ⟨fun hstorable _ => (inline_storable_iff hbody).1 (hstorable inline hsome),
      fun hnul other hother => ?_⟩
    rw [hsome] at hother
    cases hother
    exact (inline_storable_iff hbody).2 (hnul hmode)

/-- A response of two bytes, a letter and a zero. -/
def nulResponse (contentType : Option HeaderValue) : Response :=
  ⟨contentType, none, [.ok [97, 0]]⟩

/-- A `Content-Type` of `text/plain`. -/
def textPlain : HeaderValue := ⟨"text/plain".toList.map fun c => UInt8.ofNat c.toNat⟩

/-- Declared as text, the response is returned as a text with a NUL. -/
theorem declared_nul_not_storable :
    readBody asciiReader ⟨none, none⟩ (nulResponse (some textPlain)) =
        .ok ⟨some ⟨"a\x00", .text⟩, 2, none, none⟩ ∧
      ¬ ∀ reader options response content, readBody reader options response = .ok content →
        ∀ inline, content.inline = some inline →
          InlineStorable reader response.contentType response.received inline := by
  have hread : readBody asciiReader ⟨none, none⟩ (nulResponse (some textPlain)) =
      .ok ⟨some ⟨"a\x00", .text⟩, 2, none, none⟩ := by decide +kernel
  refine ⟨hread, fun h => ?_⟩
  exact (h _ _ _ _ hread _ rfl).text rfl (by decide)

/-- The theorem at the same bytes without a header: they are returned as base64. -/
theorem undeclared_nul_storable :
    ∃ content, readBody asciiReader ⟨none, none⟩ (nulResponse none) = .ok content ∧
      ∀ inline, content.inline = some inline →
        InlineStorable asciiReader none [97, 0] inline := by
  have hread : readBody asciiReader ⟨none, none⟩ (nulResponse none) =
      .ok ⟨some ⟨"YQA=", .base64⟩, 2, none, none⟩ := by decide +kernel
  refine ⟨_, hread, (inline_body_storable_iff hread).2 fun hnul => ?_⟩
  cases hnul.2.1

end PgDurable
