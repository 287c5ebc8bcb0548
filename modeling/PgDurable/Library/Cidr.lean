import Mathlib.Algebra.Order.Ring.Int

/-!
# Blocks of addresses

A block are the addresses that agree with its base in their first bits. Programs test this with a
mask on the whole address or on one of its fields; `contains_iff_div` reduces both to a division.
-/

namespace PgDurable

/-- The addresses of `w` bits that agree with the base in the first `length` of them. -/
structure Cidr (w : Nat) where
  base : BitVec w
  length : Nat

namespace Cidr

variable {w : Nat}

/-- The first bits. -/
def mask (block : Cidr w) : BitVec w := BitVec.allOnes w <<< (w - block.length)

def Contains (block : Cidr w) (address : BitVec w) : Prop :=
  address &&& block.mask = block.base &&& block.mask

instance (block : Cidr w) (address : BitVec w) : Decidable (block.Contains address) :=
  inferInstanceAs (Decidable (_ = _))

/-- Masking is dropping the other bits. -/
theorem contains_iff_shift (block : Cidr w) (address : BitVec w) :
    block.Contains address ↔
      address >>> (w - block.length) = block.base >>> (w - block.length) := by
  unfold Contains mask
  constructor
  · intro h
    ext i hi
    have hbit := congrArg (fun bits : BitVec w => bits.getLsbD (w - block.length + i)) h
    simp only [BitVec.getLsbD_and, BitVec.getLsbD_shiftLeft, BitVec.getLsbD_allOnes] at hbit
    rw [BitVec.getElem_ushiftRight, BitVec.getElem_ushiftRight]
    by_cases hin : w - block.length + i < w
    · have habove : ¬ w - block.length + i < w - block.length := by omega
      simpa [hin, hi, habove] using hbit
    · rw [BitVec.getLsbD_of_ge _ _ (Nat.le_of_not_lt hin),
        BitVec.getLsbD_of_ge _ _ (Nat.le_of_not_lt hin)]
  · intro h
    ext i hi
    rw [BitVec.getElem_and, BitVec.getElem_and, BitVec.getElem_shiftLeft]
    by_cases hlow : i < w - block.length
    · simp [hlow]
    · have hbit := congrArg (fun bits : BitVec w => bits.getLsbD (i - (w - block.length))) h
      simp only [BitVec.getLsbD_ushiftRight] at hbit
      rw [show w - block.length + (i - (w - block.length)) = i by omega] at hbit
      rw [BitVec.getLsbD_eq_getElem hi, BitVec.getLsbD_eq_getElem hi] at hbit
      rw [hbit]

theorem contains_iff_div (block : Cidr w) (address : BitVec w) :
    block.Contains address ↔
      address.toNat / 2 ^ (w - block.length) = block.base.toNat / 2 ^ (w - block.length) := by
  rw [contains_iff_shift, ← BitVec.toNat_inj, BitVec.toNat_ushiftRight, BitVec.toNat_ushiftRight,
    Nat.shiftRight_eq_div_pow, Nat.shiftRight_eq_div_pow]

/-- The label of the first block with an address. -/
def firstLabel {α : Type} : List (Cidr w × α) → BitVec w → Option α
  | [], _ => none
  | (block, label) :: blocks, address =>
      if block.Contains address then some label else firstLabel blocks address

/-- There is no label exactly if no block has the address. -/
theorem first_label_none {α : Type} {blocks : List (Cidr w × α)} {address : BitVec w} :
    firstLabel blocks address = none ↔ ∀ entry ∈ blocks, ¬ entry.1.Contains address := by
  induction blocks with
  | nil => exact iff_of_true rfl (List.forall_mem_nil _)
  | cons entry blocks ih =>
      obtain ⟨block, label⟩ := entry
      rw [firstLabel, List.forall_mem_cons, ← ih]
      split_ifs with hcontains
      · exact iff_of_false (fun h => (by cases h)) fun h => h.1 hcontains
      · exact ⟨fun h => ⟨hcontains, h⟩, fun h => h.2⟩

end Cidr

/-- A field of an address as a number. -/
theorem extract_to_nat {w : Nat} (address : BitVec w) (start length : Nat) :
    (address.extractLsb' start length).toNat = address.toNat / 2 ^ start % 2 ^ length := by
  rw [BitVec.extractLsb'_toNat, Nat.shiftRight_eq_div_pow]

end PgDurable
