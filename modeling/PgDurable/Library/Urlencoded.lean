import Mathlib.Algebra.Order.Ring.Int
import Mathlib.Data.Int.ConditionallyCompleteOrder
import Mathlib.Data.List.Basic
import Mathlib.Data.Set.Lattice

/-!
# Form-urlencoded text

`application/x-www-form-urlencoded`: `pairs` reads names and values out of the bytes of a query,
`serialize` writes them. Reading is by items between ampersands (`pairs_append`) and inverts writing
(`pairs_serialize`). Bytes that are no UTF-8 read as replacement characters.
-/

namespace PgDurable.Urlencoded

abbrev Bytes := List UInt8

/-- The UTF-8 form of a text. -/
def utf8 (text : List Char) : Bytes := text.flatMap String.utf8EncodeChar

theorem utf8_append (front rest : List Char) : utf8 (front ++ rest) = utf8 front ++ utf8 rest :=
  List.flatMap_append

/-! ## Decoding UTF-8 with replacements -/

def isContinuation (byte : UInt8) : Bool := 0x80 ≤ byte && byte ≤ 0xBF

/-- The first two bytes of a character of three. -/
def startsThree (first second : UInt8) : Bool :=
  (first == 0xE0 && 0xA0 ≤ second && second ≤ 0xBF) ||
    (0xE1 ≤ first && first ≤ 0xEC && isContinuation second) ||
    (first == 0xED && 0x80 ≤ second && second ≤ 0x9F) ||
    (0xEE ≤ first && first ≤ 0xEF && isContinuation second)

/-- The first two bytes of a character of four. -/
def startsFour (first second : UInt8) : Bool :=
  (first == 0xF0 && 0x90 ≤ second && second ≤ 0xBF) ||
    (0xF1 ≤ first && first ≤ 0xF3 && isContinuation second) ||
    (first == 0xF4 && 0x80 ≤ second && second ≤ 0x8F)

/-- How many bytes one replacement stands for, where no character starts. -/
def invalidLength : Bytes → Nat
  | first :: second :: third :: _ =>
      if startsThree first second then 2
      else if startsFour first second then if isContinuation third then 3 else 2
      else 1
  | [first, second] => if startsThree first second || startsFour first second then 2 else 1
  | _ => 1

def lossyFrom : Nat → Bytes → List Char
  | 0, _ => []
  | fuel + 1, bytes =>
      if bytes = [] then []
      else
        match bytes.toByteArray.utf8DecodeChar? 0 with
        | some c => c :: lossyFrom fuel (bytes.drop c.utf8Size)
        | none => '\uFFFD' :: lossyFrom fuel (bytes.drop (invalidLength bytes))

/-- `String::from_utf8_lossy`. -/
def fromUtf8Lossy (bytes : Bytes) : String := String.ofList (lossyFrom bytes.length bytes)

theorem lossy_from_utf8 {fuel : Nat} {text : List Char} (h : (utf8 text).length ≤ fuel) :
    lossyFrom fuel (utf8 text) = text := by
  induction text generalizing fuel with
  | nil => cases fuel <;> rfl
  | cons c text ih =>
      have hlength : (String.utf8EncodeChar c).length = c.utf8Size := String.length_utf8EncodeChar c
      have hbytes : utf8 (c :: text) = String.utf8EncodeChar c ++ utf8 text := List.flatMap_cons
      have hpos : 0 < c.utf8Size := c.utf8Size_pos
      rw [hbytes, List.length_append, hlength] at h
      cases fuel with
      | zero => omega
      | succ fuel =>
          have hne : String.utf8EncodeChar c ++ utf8 text ≠ [] := by
            intro heq
            have := congrArg List.length heq
            rw [List.length_append, hlength, List.length_nil] at this
            omega
          have hdecode : (String.utf8EncodeChar c ++ utf8 text).toByteArray.utf8DecodeChar? 0 =
              some c := by
            rw [List.toByteArray_append]
            exact ByteArray.utf8DecodeChar?_utf8EncodeChar_append
          have hdrop : (String.utf8EncodeChar c ++ utf8 text).drop c.utf8Size = utf8 text := by
            rw [← hlength, List.drop_left]
          rw [hbytes, lossyFrom, if_neg hne, hdecode]
          show c :: lossyFrom fuel ((String.utf8EncodeChar c ++ utf8 text).drop c.utf8Size) = _
          rw [hdrop, ih (by omega)]

/-- The UTF-8 form of a text decodes to the text. -/
theorem from_utf8_lossy_utf8 (text : List Char) :
    fromUtf8Lossy (utf8 text) = String.ofList text := by
  rw [fromUtf8Lossy, lossy_from_utf8 le_rfl]

/-! ## Percent escapes -/

def hexDigit (n : UInt8) : UInt8 := if n < 10 then 0x30 + n else 0x37 + n

def hexValue (byte : UInt8) : Option UInt8 :=
  if 0x30 ≤ byte ∧ byte ≤ 0x39 then some (byte - 0x30)
  else if 0x41 ≤ byte ∧ byte ≤ 0x46 then some (byte - 0x37)
  else if 0x61 ≤ byte ∧ byte ≤ 0x66 then some (byte - 0x57)
  else none

def escape (byte : UInt8) : Bytes := [0x25, hexDigit (byte / 16), hexDigit (byte % 16)]

/-- The byte that two digits stand for. -/
def escaped (high low : UInt8) : Option UInt8 := do
  let h ← hexValue high
  let l ← hexValue low
  some (h * 16 + l)

/-- Replace the escapes of a text; a percent sign before anything else stands for itself. -/
def percentDecode : Bytes → Bytes
  | [] => []
  | [byte] => [byte]
  | [byte, next] => [byte, next]
  | byte :: high :: low :: rest =>
      if byte = 0x25 then
        match escaped high low with
        | some value => value :: percentDecode rest
        | none => byte :: percentDecode (high :: low :: rest)
      else byte :: percentDecode (high :: low :: rest)

theorem percent_decode_plain {byte : UInt8} (h : byte ≠ 0x25) (rest : Bytes) :
    percentDecode (byte :: rest) = byte :: percentDecode rest := by
  cases rest with
  | nil => rfl
  | cons high rest =>
      cases rest with
      | nil => rfl
      | cons low rest => rw [percentDecode, if_neg h]

/-- The bytes that stand for themselves in names and values. -/
def isUnreserved (byte : UInt8) : Bool :=
  (0x30 ≤ byte && byte ≤ 0x39) || (0x41 ≤ byte && byte ≤ 0x5A) ||
    (0x61 ≤ byte && byte ≤ 0x7A) || byte == 0x2A || byte == 0x2D || byte == 0x2E || byte == 0x5F

/-- `byte_serialize` of a byte. -/
def encodeByte (byte : UInt8) : Bytes :=
  if isUnreserved byte then [byte] else if byte = 0x20 then [0x2B] else escape byte

def encode (bytes : Bytes) : Bytes := bytes.flatMap encodeByte

def plusToSpace (byte : UInt8) : UInt8 := if byte = 0x2B then 0x20 else byte

/-- The text of a name or a value. -/
def decode (bytes : Bytes) : String := fromUtf8Lossy (percentDecode (bytes.map plusToSpace))

/-! ## Encoding and decoding -/

/-- A check of every byte, from a table. -/
theorem forall_byte (check : UInt8 → Bool)
    (h : (List.range 256).all (fun n => check (UInt8.ofNat n)) = true) (byte : UInt8) :
    check byte = true := by
  have hbyte := List.all_eq_true.1 h byte.toNat (List.mem_range.2 byte.toNat_lt)
  rw [UInt8.ofNat_toNat] at hbyte
  exact hbyte

theorem escaped_escape (byte : UInt8) :
    escaped (hexDigit (byte / 16)) (hexDigit (byte % 16)) = some byte := by
  have h := forall_byte (fun byte =>
    escaped (hexDigit (byte / 16)) (hexDigit (byte % 16)) == some byte) (by decide +kernel) byte
  exact beq_iff_eq.1 h

theorem escape_no_plus (byte : UInt8) : (escape byte).map plusToSpace = escape byte := by
  have h := forall_byte (fun byte => (escape byte).map plusToSpace == escape byte)
    (by decide +kernel) byte
  exact beq_iff_eq.1 h

/-- Encoded bytes are unreserved, plus signs or percent signs. -/
theorem encode_byte_mem {byte c : UInt8} (h : c ∈ encodeByte byte) :
    (isUnreserved c || c == 0x2B || c == 0x25) = true := by
  have hall := forall_byte (fun byte =>
    (encodeByte byte).all fun c => isUnreserved c || c == 0x2B || c == 0x25)
    (by decide +kernel) byte
  exact List.all_eq_true.1 hall c h

theorem encode_mem {bytes : Bytes} {c : UInt8} (h : c ∈ encode bytes) :
    (isUnreserved c || c == 0x2B || c == 0x25) = true := by
  obtain ⟨byte, -, hc⟩ := List.mem_flatMap.1 h
  exact encode_byte_mem hc

/-- Encoded text separates nothing. -/
theorem not_mem_encode {separator : UInt8} (h : separator = 0x26 ∨ separator = 0x3D)
    (bytes : Bytes) : separator ∉ encode bytes := by
  intro hmem
  have hplain := encode_mem hmem
  rcases h with rfl | rfl
  · exact absurd hplain (by decide)
  · exact absurd hplain (by decide)

theorem decode_encode_byte (byte : UInt8) (rest : Bytes) :
    percentDecode ((encodeByte byte).map plusToSpace ++ rest) = byte :: percentDecode rest := by
  unfold encodeByte
  by_cases hplain : isUnreserved byte = true
  · have hplus : byte ≠ 0x2B := by
      intro heq
      rw [heq] at hplain
      exact absurd hplain (by decide)
    have hpercent : byte ≠ 0x25 := by
      intro heq
      rw [heq] at hplain
      exact absurd hplain (by decide)
    rw [if_pos hplain, List.map_cons, List.map_nil, plusToSpace, if_neg hplus]
    exact percent_decode_plain hpercent rest
  · rw [if_neg hplain]
    by_cases hspace : byte = 0x20
    · rw [if_pos hspace, hspace]
      exact percent_decode_plain (by decide) rest
    · rw [if_neg hspace, escape_no_plus]
      show percentDecode (0x25 :: hexDigit (byte / 16) :: hexDigit (byte % 16) :: rest) = _
      rw [percentDecode, if_pos rfl, escaped_escape]

theorem decode_encode_bytes (bytes : Bytes) :
    percentDecode ((encode bytes).map plusToSpace) = bytes := by
  induction bytes with
  | nil => rfl
  | cons byte bytes ih =>
      have hcons : encode (byte :: bytes) = encodeByte byte ++ encode bytes := List.flatMap_cons
      rw [hcons, List.map_append, decode_encode_byte, ih]

/-- Decoding inverts encoding. -/
theorem decode_encode (text : String) : decode (encode (utf8 text.toList)) = text := by
  rw [decode, decode_encode_bytes, from_utf8_lossy_utf8, String.ofList_toList]

/-! ## Names and values -/

/-- The name and the value of an item; without an equals sign the item is the name. -/
def pair (item : Bytes) : String × String :=
  (decode (item.takeWhile (· != 0x3D)), decode ((item.dropWhile (· != 0x3D)).drop 1))

/-- `form_urlencoded::parse`. -/
def pairs (bytes : Bytes) : List (String × String) :=
  ((bytes.splitOn 0x26).filter (!·.isEmpty)).map pair

def serializePair (entry : String × String) : Bytes :=
  encode (utf8 entry.1.toList) ++ 0x3D :: encode (utf8 entry.2.toList)

/-- `form_urlencoded::Serializer`. -/
def serialize (entries : List (String × String)) : Bytes :=
  [0x26].intercalate (entries.map serializePair)

theorem pairs_append (front rest : Bytes) :
    pairs (front ++ 0x26 :: rest) = pairs front ++ pairs rest := by
  rw [pairs, List.splitOn_append_cons_self, List.filter_append, List.map_append]
  rfl

theorem pair_serialize (entry : String × String) : pair (serializePair entry) = entry := by
  have hname : ∀ c ∈ encode (utf8 entry.1.toList), (c != 0x3D) = true := by
    intro c hc
    exact bne_iff_ne.2 (fun heq => not_mem_encode (.inr rfl) _ (heq ▸ hc))
  rw [pair, serializePair, List.takeWhile_append_of_pos hname, List.dropWhile_append_of_pos hname,
    List.takeWhile_cons_of_neg (by decide), List.dropWhile_cons_of_neg (by decide),
    List.append_nil, List.drop_one, List.tail_cons, decode_encode, decode_encode]

/-- Reading inverts writing. -/
theorem pairs_serialize (entries : List (String × String)) : pairs (serialize entries) = entries := by
  cases entries with
  | nil => rfl
  | cons entry entries =>
      have hsplit : (serialize (entry :: entries)).splitOn 0x26 =
          (entry :: entries).map serializePair := by
        refine List.splitOn_intercalate 0x26 ?_ (List.cons_ne_nil _ _)
        intro item hitem
        obtain ⟨written, -, rfl⟩ := List.mem_map.1 hitem
        rw [serializePair, List.mem_append, List.mem_cons, not_or, not_or]
        exact ⟨not_mem_encode (.inl rfl) _, by decide, not_mem_encode (.inl rfl) _⟩
      have hfilter : ((entry :: entries).map serializePair).filter (!·.isEmpty) =
          (entry :: entries).map serializePair := by
        refine List.filter_eq_self.2 fun item hitem => ?_
        obtain ⟨written, -, rfl⟩ := List.mem_map.1 hitem
        unfold serializePair
        cases encode (utf8 written.1.toList) <;> rfl
      rw [pairs, hsplit, hfilter, List.map_map]
      calc (entry :: entries).map (pair ∘ serializePair)
          = (entry :: entries).map id := List.map_congr_left fun entry _ => pair_serialize entry
        _ = entry :: entries := List.map_id _

end PgDurable.Urlencoded
