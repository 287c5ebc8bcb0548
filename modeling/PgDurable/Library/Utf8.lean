import Mathlib.Algebra.Order.Ring.Int
import Mathlib.Data.Int.ConditionallyCompleteOrder
import Mathlib.Data.Set.Lattice

/-!
# Byte positions

Positions in a text count the bytes of its UTF-8 form. `sliceFrom` and `sliceTo` cut a text at such
a position, and fail inside a character.
-/

namespace PgDurable.Text

/-- The number of bytes of a text. -/
def byteLength (text : List Char) : Nat := (text.map Char.utf8Size).sum

/-- The text from a byte position on, if it is the start of a character or the end. -/
def sliceFrom : List Char → Nat → Option (List Char)
  | text, 0 => some text
  | [], _ + 1 => none
  | c :: rest, position + 1 =>
      if c.utf8Size ≤ position + 1 then sliceFrom rest (position + 1 - c.utf8Size) else none

@[simp] theorem byte_length_nil : byteLength [] = 0 := rfl

@[simp] theorem byte_length_cons (c : Char) (text : List Char) :
    byteLength (c :: text) = c.utf8Size + byteLength text := rfl

@[simp] theorem byte_length_append (front rest : List Char) :
    byteLength (front ++ rest) = byteLength front + byteLength rest := by
  simp [byteLength]

theorem length_le_byte_length (text : List Char) : text.length ≤ byteLength text := by
  induction text with
  | nil => exact Nat.le_refl _
  | cons c text ih =>
      have hpos := c.utf8Size_pos
      rw [List.length_cons, byte_length_cons]
      omega

theorem byte_length_le (text : List Char) : byteLength text ≤ 4 * text.length := by
  induction text with
  | nil => exact Nat.le_refl _
  | cons c text ih =>
      have hsize := c.utf8Size_le_four
      rw [List.length_cons, byte_length_cons]
      omega

/-- Cutting after a part of the text leaves the rest. -/
@[simp] theorem slice_from_append (front rest : List Char) :
    sliceFrom (front ++ rest) (byteLength front) = some rest := by
  induction front with
  | nil => simp [sliceFrom]
  | cons c front ih =>
      have hpos := c.utf8Size_pos
      obtain ⟨size, hsize⟩ : ∃ size, c.utf8Size + byteLength front = size + 1 :=
        ⟨c.utf8Size + byteLength front - 1, by omega⟩
      have hle : c.utf8Size ≤ size + 1 := by omega
      have hrest : size + 1 - c.utf8Size = byteLength front := by omega
      rw [byte_length_cons, hsize, List.cons_append, sliceFrom, if_pos hle, hrest, ih]

/-- The byte length of a text is that of its UTF-8 form. -/
theorem byte_length_to_list (text : String) : byteLength text.toList = text.utf8ByteSize := by
  have h : ∀ chars : List Char, (String.ofList chars).utf8ByteSize = byteLength chars := by
    intro chars
    induction chars with
    | nil => rfl
    | cons c chars ih =>
        rw [String.ofList_cons, String.utf8ByteSize_append, String.utf8ByteSize_singleton, ih,
          byte_length_cons]
  rw [← h, String.ofList_toList]

/-- The text up to a byte position, if it is the start of a character or the end. -/
def sliceTo : List Char → Nat → Option (List Char)
  | _, 0 => some []
  | [], _ + 1 => none
  | c :: rest, position + 1 =>
      if c.utf8Size ≤ position + 1 then
        (sliceTo rest (position + 1 - c.utf8Size)).map (c :: ·)
      else none

/-- A position is the start of a character or the end. -/
def IsBoundary (text : List Char) (position : Nat) : Prop :=
  ∃ front rest, text = front ++ rest ∧ byteLength front = position

theorem slice_to_append (front rest : List Char) :
    sliceTo (front ++ rest) (byteLength front) = some front := by
  induction front with
  | nil => cases rest <;> rfl
  | cons c front ih =>
      obtain ⟨size, hsize⟩ := Nat.exists_eq_add_of_lt c.utf8Size_pos
      have hposition : byteLength (c :: front) = size + byteLength front + 1 := by
        rw [byte_length_cons]
        omega
      have hleft : size + byteLength front + 1 - c.utf8Size = byteLength front := by omega
      rw [hposition, List.cons_append, sliceTo, if_pos (by omega), hleft, ih]
      rfl

/-- A cut succeeds at the boundaries only. -/
theorem slice_to_is_some_iff (text : List Char) (position : Nat) :
    (sliceTo text position).isSome = true ↔ IsBoundary text position := by
  constructor
  · intro h
    induction text generalizing position with
    | nil =>
        cases position with
        | zero => exact ⟨[], [], rfl, rfl⟩
        | succ position => cases h
    | cons c text ih =>
        cases position with
        | zero => exact ⟨[], c :: text, rfl, rfl⟩
        | succ position =>
            rw [sliceTo] at h
            split at h
            · next hle =>
                rw [Option.isSome_map] at h
                obtain ⟨front, rest, hcut, hlength⟩ := ih _ h
                refine ⟨c :: front, rest, by rw [hcut, List.cons_append], ?_⟩
                rw [byte_length_cons, hlength]
                omega
            · cases h
  · rintro ⟨front, rest, rfl, rfl⟩
    rw [slice_to_append]
    rfl

end PgDurable.Text
