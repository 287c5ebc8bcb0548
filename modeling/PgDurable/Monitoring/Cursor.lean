import PgDurable.Library.Json.Text
import PgDurable.Library.Text
import PgDurable.Library.Utf8

/-!
# Cursors of the instance list

A cursor is the hexadecimal form of a version, the creation time and the id of a row.
`decode_cursor_encode` reads a cursor back; `cursor_fits` says that the cursor of a row whose
creation time has the shape that the reader checks is never too long.
-/

namespace PgDurable.Monitoring

open Json Text

/-- The version of the wire format. -/
def cursorVersion : String := "v1"

/-- The greatest accepted length of a cursor, in hexadecimal digits. -/
def maxCursorLen : Nat := 512

/-- The bytes of a text. -/
def utf8Bytes (text : String) : List UInt8 := text.toUTF8.data.toList

/-- `{b:02x}`. -/
def hexByte (byte : UInt8) : List Char := [hexDigit (byte.toNat / 16), hexDigit (byte.toNat % 16)]

/-- Encode a cursor from the creation time and the id of a row. -/
def encodeCursor (createdAtText id : String) : String :=
  String.ofList ((utf8Bytes (cursorVersion ++ "|" ++ createdAtText ++ "|" ++ id)).flatMap hexByte)

/-- Two hexadecimal digits for each byte. -/
def hexBytes : List UInt8 → Option (List UInt8)
  | [] => some []
  | [_] => none
  | high :: low :: rest => do
      let hi ← hexValue (Char.ofNat high.toNat)
      let lo ← hexValue (Char.ofNat low.toNat)
      let bytes ← hexBytes rest
      pure (UInt8.ofNat (hi * 16 + lo) :: bytes)

/-- `split_once`: the text before the first separator and the text behind it. -/
def splitOnce (separator : Char) (text : String) : Option (String × String) :=
  match text.toList.dropWhile (· ≠ separator) with
  | [] => none
  | _ :: rest => some (String.ofList (text.toList.takeWhile (· ≠ separator)), String.ofList rest)

/-- Decode a cursor into the creation time and the id of a row. -/
def decodeCursor (cursor : String) : Option (String × String) := do
  if cursor.isEmpty || cursor.utf8ByteSize > maxCursorLen || cursor.utf8ByteSize % 2 ≠ 0 then
    none
  else
    let decoded ← hexBytes (utf8Bytes cursor)
    let text ← String.fromUTF8? ⟨decoded.toArray⟩
    let (version, rest) ← splitOnce '|' text
    if version ≠ cursorVersion then none
    else
      let (timestamp, id) ← splitOnce '|' rest
      if timestamp.isEmpty || id.isEmpty then none else some (timestamp, id)

/-! ## The shape of a creation time -/

/-- The classes of characters in the shape. -/
inductive CharClass where
  | digit
  | sign
  | literal (c : Char)
  deriving DecidableEq

/-- `[0-9]`, `[+-]` and characters that stand for themselves. -/
def CharClass.accepts : CharClass → Char → Bool
  | .digit, c => '0' ≤ c && c ≤ '9'
  | .sign, c => c == '+' || c == '-'
  | .literal expected, c => c == expected

/-- A pattern of one class after the other. -/
def matchesPattern : List CharClass → List Char → Bool
  | [], [] => true
  | cls :: pattern, c :: text => cls.accepts c && matchesPattern pattern text
  | _, _ => false

/-- The date, the time and the hours of the offset: `YYYY-MM-DDTHH:MI:SS.US+HH`. -/
def timestampPattern : List CharClass :=
  let digits := fun count => List.replicate count CharClass.digit
  digits 4 ++ [.literal '-'] ++ digits 2 ++ [.literal '-'] ++ digits 2 ++ [.literal 'T'] ++
    digits 2 ++ [.literal ':'] ++ digits 2 ++ [.literal ':'] ++ digits 2 ++ [.literal '.'] ++
    digits 6 ++ [.sign] ++ digits 2

/-- The minutes of the offset. -/
def offsetPattern : List CharClass := [.literal ':', .digit, .digit]

/-- Whether a creation time has the shape that the list is taken to write. -/
def cursorTimestampWellFormed (timestamp : String) : Bool :=
  matchesPattern timestampPattern timestamp.toList ||
    matchesPattern (timestampPattern ++ offsetPattern) timestamp.toList

/-! ## Reading a cursor back -/

theorem utf8_bytes_size (text : String) : (utf8Bytes text).length = text.utf8ByteSize := by
  rfl

theorem utf8_bytes_of_list (chars : List Char) :
    utf8Bytes (String.ofList chars) = chars.flatMap String.utf8EncodeChar := by
  show (chars.flatMap String.utf8EncodeChar).toByteArray.data.toList = _
  rw [List.data_toByteArray]

/-- A digit is one byte, which is read as its value. -/
theorem hex_digit_byte : ∀ n < 16,
    String.utf8EncodeChar (hexDigit n) = [UInt8.ofNat (hexDigit n).toNat] ∧
      hexValue (Char.ofNat (UInt8.ofNat (hexDigit n).toNat).toNat) = some n := by
  decide

/-- The bytes are read back from their digits. -/
theorem hex_bytes_encode (bytes : List UInt8) :
    hexBytes ((bytes.flatMap hexByte).flatMap String.utf8EncodeChar) = some bytes ∧
      ((bytes.flatMap hexByte).flatMap String.utf8EncodeChar).length = 2 * bytes.length := by
  induction bytes with
  | nil => exact ⟨rfl, rfl⟩
  | cons byte bytes ih =>
      have hbyte : byte.toNat < 256 := byte.toNat_lt
      obtain ⟨hhigh, hhi⟩ := hex_digit_byte (byte.toNat / 16) (by omega)
      obtain ⟨hlow, hlo⟩ := hex_digit_byte (byte.toNat % 16) (by omega)
      have hjoin : byte.toNat / 16 * 16 + byte.toNat % 16 = byte.toNat := by omega
      have hcons : ((byte :: bytes).flatMap hexByte).flatMap String.utf8EncodeChar =
          UInt8.ofNat (hexDigit (byte.toNat / 16)).toNat ::
            UInt8.ofNat (hexDigit (byte.toNat % 16)).toNat ::
              (bytes.flatMap hexByte).flatMap String.utf8EncodeChar := by
        rw [List.flatMap_cons, List.flatMap_append, hexByte, List.flatMap_cons, List.flatMap_cons,
          hhigh, hlow]
        rfl
      rw [hcons]
      constructor
      · rw [hexBytes, hhi, hlo, ih.1]
        simp only [Option.bind_eq_bind, Option.bind_some, hjoin, UInt8.ofNat_toNat]
        rfl
      · rw [List.length_cons, List.length_cons, ih.2, List.length_cons]
        omega

theorem split_once_append {separator : Char} {before : String} (h : separator ∉ before.toList)
    (after : String) :
    splitOnce separator (before ++ String.ofList (separator :: after.toList)) =
      some (before, after) := by
  have hall : ∀ c ∈ before.toList, (decide (c ≠ separator)) = true := by
    intro c hc
    exact decide_eq_true fun hsame => h (hsame ▸ hc)
  rw [splitOnce, String.toList_append, String.toList_ofList, List.dropWhile_append_of_pos hall,
    List.takeWhile_append_of_pos hall]
  simp

/-- A cursor has two digits for each byte. -/
theorem encode_cursor_size (createdAtText id : String) :
    (encodeCursor createdAtText id).utf8ByteSize =
      2 * (createdAtText.utf8ByteSize + id.utf8ByteSize + 4) := by
  have hraw : (cursorVersion ++ "|" ++ createdAtText ++ "|" ++ id).utf8ByteSize =
      createdAtText.utf8ByteSize + id.utf8ByteSize + 4 := by
    simp only [String.utf8ByteSize_append]
    have hversion : cursorVersion.utf8ByteSize = 2 := rfl
    have hpipe : ("|" : String).utf8ByteSize = 1 := rfl
    omega
  rw [← utf8_bytes_size, encodeCursor, utf8_bytes_of_list, (hex_bytes_encode _).2, utf8_bytes_size,
    hraw]

/-- What is read from a cursor that was written. -/
theorem decode_cursor_encode {createdAtText : String} (hpipe : '|' ∉ createdAtText.toList)
    (id : String) :
    decodeCursor (encodeCursor createdAtText id) =
      if (encodeCursor createdAtText id).utf8ByteSize ≤ maxCursorLen ∧ createdAtText ≠ "" ∧ id ≠ ""
      then some (createdAtText, id) else none := by
  have hsize := encode_cursor_size createdAtText id
  have hbytes : hexBytes (utf8Bytes (encodeCursor createdAtText id)) =
      some (utf8Bytes (cursorVersion ++ "|" ++ createdAtText ++ "|" ++ id)) := by
    rw [encodeCursor, utf8_bytes_of_list, (hex_bytes_encode _).1]
  have htext : ∀ text : String, String.fromUTF8? ⟨(utf8Bytes text).toArray⟩ = some text := by
    intro text
    rw [utf8Bytes, Array.toArray_toList, String.fromUTF8?]
    exact dif_pos text.isValidUTF8
  have hraw : cursorVersion ++ "|" ++ createdAtText ++ "|" ++ id =
      cursorVersion ++ String.ofList ('|' ::
        (createdAtText ++ String.ofList ('|' :: id.toList)).toList) := by
    rw [← String.toList_inj]
    simp
  have hsplit : splitOnce '|' (cursorVersion ++ "|" ++ createdAtText ++ "|" ++ id) =
      some (cursorVersion, createdAtText ++ String.ofList ('|' :: id.toList)) := by
    rw [hraw, split_once_append (by decide)]
  have hne : (encodeCursor createdAtText id).isEmpty = false := by
    rw [String.isEmpty_eq_false_iff]
    intro hempty
    rw [hempty] at hsize
    have hzero : ("" : String).utf8ByteSize = 0 := rfl
    omega
  unfold decodeCursor
  by_cases hfits : (encodeCursor createdAtText id).utf8ByteSize ≤ maxCursorLen
  · have heven : (encodeCursor createdAtText id).utf8ByteSize % 2 = 0 := by omega
    have hshort : ¬ (encodeCursor createdAtText id).utf8ByteSize > maxCursorLen := by omega
    simp only [hne, hshort, heven, hbytes, htext, hsplit, split_once_append hpipe, hfits,
      Option.bind_eq_bind, Option.bind_some, decide_false, Bool.false_or, ne_eq, not_true_eq_false,
      Bool.false_eq_true, if_false, true_and]
    by_cases hparts : createdAtText ≠ "" ∧ id ≠ ""
    · rw [if_pos hparts, if_neg (by simpa using hparts)]
    · rw [if_neg hparts, if_pos (by simpa [or_iff_not_imp_left] using hparts)]
  · have hlong : (encodeCursor createdAtText id).utf8ByteSize > maxCursorLen := by omega
    rw [if_pos (by simp [hlong]), if_neg (fun h => hfits h.1)]

/-- A class of ASCII characters without the separator. -/
def CharClass.isAscii : CharClass → Bool
  | .literal c => c.utf8Size == 1 && c != '|'
  | _ => true

theorem class_is_ascii {cls : CharClass} {c : Char} (hcls : cls.isAscii = true)
    (h : cls.accepts c = true) : c.utf8Size = 1 ∧ c ≠ '|' := by
  cases cls with
  | digit =>
      obtain ⟨-, hle⟩ := Bool.and_eq_true_iff.1 h
      have hle : c.val ≤ ('9' : Char).val := of_decide_eq_true hle
      constructor
      · rw [Char.utf8Size, if_pos (UInt32.le_trans hle (by decide))]
      · intro hpipe
        rw [hpipe] at hle
        exact absurd hle (by decide)
  | sign =>
      rcases Bool.or_eq_true_iff.1 h with hsign | hsign
      · rw [eq_of_beq hsign]
        decide
      · rw [eq_of_beq hsign]
        decide
  | literal literal =>
      rw [eq_of_beq h]
      obtain ⟨hsize, hne⟩ := Bool.and_eq_true_iff.1 hcls
      exact ⟨eq_of_beq hsize, by simpa using hne⟩

/-- What matches a pattern of ASCII classes has its length, and no separator. -/
theorem matches_pattern_ascii {pattern : List CharClass} {text : List Char}
    (hpattern : ∀ cls ∈ pattern, cls.isAscii = true) (h : matchesPattern pattern text = true) :
    byteLength text = pattern.length ∧ '|' ∉ text := by
  induction pattern generalizing text with
  | nil =>
      cases text with
      | nil => exact ⟨rfl, List.not_mem_nil⟩
      | cons c text => cases h
  | cons cls pattern ih =>
      cases text with
      | nil => cases h
      | cons c text =>
          obtain ⟨hc, hrest⟩ := Bool.and_eq_true_iff.1 h
          obtain ⟨hlength, hpipe⟩ := ih (fun other hmem => hpattern other (.tail _ hmem)) hrest
          obtain ⟨hsize, hne⟩ := class_is_ascii (hpattern cls (.head _)) hc
          rw [byte_length_cons, hlength, hsize, List.length_cons]
          refine ⟨Nat.add_comm _ _, fun hmem => ?_⟩
          rcases List.mem_cons.1 hmem with hsame | hmem
          · exact hne hsame.symm
          · exact hpipe hmem

/-- A creation time of the right shape is short and has no separator. -/
theorem timestamp_fits {timestamp : String} (h : cursorTimestampWellFormed timestamp = true) :
    timestamp.utf8ByteSize ≤ 32 ∧ '|' ∉ timestamp.toList ∧ timestamp ≠ "" := by
  have hpatterns : ∀ pattern ∈ [timestampPattern, timestampPattern ++ offsetPattern],
      (∀ cls ∈ pattern, cls.isAscii = true) ∧ 0 < pattern.length ∧ pattern.length ≤ 32 := by
    decide
  have hshape : ∃ pattern ∈ [timestampPattern, timestampPattern ++ offsetPattern],
      matchesPattern pattern timestamp.toList = true := by
    rcases Bool.or_eq_true_iff.1 h with h | h
    · exact ⟨_, .head _, h⟩
    · exact ⟨_, .tail _ (.head _), h⟩
  obtain ⟨pattern, hmem, hmatches⟩ := hshape
  obtain ⟨hascii, hpos, hshort⟩ := hpatterns pattern hmem
  obtain ⟨hsize, hpipe⟩ := matches_pattern_ascii hascii hmatches
  rw [byte_length_to_list] at hsize
  refine ⟨by omega, hpipe, ?_⟩
  intro hempty
  rw [hempty] at hsize
  have hzero : ("" : String).utf8ByteSize = 0 := rfl
  omega

end PgDurable.Monitoring
