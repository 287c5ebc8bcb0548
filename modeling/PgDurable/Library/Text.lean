import Mathlib.Algebra.Order.Ring.Int
import Mathlib.Data.Int.ConditionallyCompleteOrder
import Mathlib.Data.List.Basic
import Mathlib.Data.Set.Lattice

/-!
# Separated texts and decimal integers

Texts whose fields are separated by a doubled character, such as `a::b::c`, and signed 64-bit
decimal integers. `splitDouble` cuts a text at every separator from the left, `rsplitDouble` cuts
it once at the last separator. On fields that do not contain the separating character the two
invert concatenation (`split_double_append`, `rsplit_double_append`), and `parseI64` inverts the
decimal notation of an integer in range (`parse_i64_to_string`).
-/

namespace PgDurable.Text

/-! ## Separated fields -/

/-- Cut at every occurrence of `sep sep`, scanning from the left without overlap. -/
def splitDouble (sep : Char) : List Char → List (List Char)
  | [] => [[]]
  | [c] => [[c]]
  | c :: d :: rest =>
      if c = sep ∧ d = sep then [] :: splitDouble sep rest
      else
        match splitDouble sep (d :: rest) with
        | [] => [[c]]
        | field :: fields => (c :: field) :: fields

/-- Cut once at the last occurrence of `sep sep`. -/
def rsplitDouble (sep : Char) : List Char → Option (List Char × List Char)
  | [] => none
  | [_] => none
  | c :: d :: rest =>
      match rsplitDouble sep (d :: rest) with
      | some (front, last) => some (c :: front, last)
      | none => if c = sep ∧ d = sep then some ([], rest) else none

variable {sep : Char}

/-- A text without the separating character is a single field. -/
theorem split_double_single {field : List Char} (h : sep ∉ field) :
    splitDouble sep field = [field] := by
  induction field with
  | nil => rfl
  | cons c field ih =>
      simp only [List.mem_cons, not_or] at h
      cases field with
      | nil => rfl
      | cons d rest =>
          have hne : ¬ (c = sep ∧ d = sep) := fun heq => h.1 heq.1.symm
          rw [splitDouble, if_neg hne, ih h.2]

/-- The first field ends at the first separator. -/
theorem split_double_append {field : List Char} (h : sep ∉ field) (rest : List Char) :
    splitDouble sep (field ++ sep :: sep :: rest) = field :: splitDouble sep rest := by
  induction field with
  | nil => simp [splitDouble]
  | cons c field ih =>
      simp only [List.mem_cons, not_or] at h
      have hrec := ih h.2
      cases field with
      | nil =>
          have hne : ¬ (c = sep ∧ sep = sep) := fun heq => h.1 heq.1.symm
          simp only [List.nil_append] at hrec
          simp only [List.cons_append, List.nil_append]
          rw [splitDouble, if_neg hne, hrec]
      | cons d field =>
          have hne : ¬ (c = sep ∧ d = sep) := fun heq => h.1 heq.1.symm
          simp only [List.cons_append] at hrec ⊢
          rw [splitDouble, if_neg hne, hrec]

/-- A text without the separating character has no separator. -/
theorem rsplit_double_single {field : List Char} (h : sep ∉ field) :
    rsplitDouble sep field = none := by
  induction field with
  | nil => rfl
  | cons c field ih =>
      simp only [List.mem_cons, not_or] at h
      cases field with
      | nil => rfl
      | cons d rest =>
          have hne : ¬ (c = sep ∧ d = sep) := fun heq => h.1 heq.1.symm
          rw [rsplitDouble, ih h.2]
          simp [hne]

/-- The last cut is the one before a final field without the separating character. -/
theorem rsplit_double_append (front : List Char) {last : List Char} (h : sep ∉ last) :
    rsplitDouble sep (front ++ sep :: sep :: last) = some (front, last) := by
  induction front with
  | nil =>
      have hone : rsplitDouble sep (sep :: last) = none := by
        cases last with
        | nil => rfl
        | cons d rest =>
            simp only [List.mem_cons, not_or] at h
            rw [rsplitDouble, rsplit_double_single (by simp [h.1, h.2])]
            simp [Ne.symm h.1]
      simp [rsplitDouble, hone]
  | cons c front ih =>
      cases front with
      | nil =>
          simp only [List.nil_append] at ih
          simp only [List.cons_append, List.nil_append]
          rw [rsplitDouble, ih]
      | cons d front =>
          simp only [List.cons_append] at ih ⊢
          rw [rsplitDouble, ih]

/-- Both sides of a cut are shorter than the text. -/
theorem rsplit_double_length {text front last : List Char}
    (h : rsplitDouble sep text = some (front, last)) :
    front.length + last.length + 2 = text.length := by
  induction text generalizing front with
  | nil => cases h
  | cons c text ih =>
      cases text with
      | nil => cases h
      | cons d rest =>
          rw [rsplitDouble] at h
          split at h
          · next front' last' hrec =>
              cases h
              have := ih hrec
              simp only [List.length_cons] at this ⊢
              omega
          · split at h
            · cases h
              simp
            · cases h

/-! ## White space -/

/-- The Unicode white-space characters. -/
def isWhitespace (c : Char) : Bool :=
  ('\x09' ≤ c && c ≤ '\x0d') || c = ' ' || c = '\u0085' || c = '\u00a0' || c = '\u1680' ||
    ('\u2000' ≤ c && c ≤ '\u200a') || c = '\u2028' || c = '\u2029' || c = '\u202f' ||
    c = '\u205f' || c = '\u3000'

/-- The text without white space at either end. -/
def trim (text : List Char) : List Char :=
  ((text.dropWhile isWhitespace).reverse.dropWhile isWhitespace).reverse

/-- The white space before the text. -/
def leadingSpace (text : List Char) : List Char := text.takeWhile isWhitespace

/-- The white space after the text. -/
def trailingSpace (text : List Char) : List Char :=
  ((text.dropWhile isWhitespace).reverse.takeWhile isWhitespace).reverse

/-- A text is its trimmed text between white space. -/
theorem trim_append (text : List Char) :
    leadingSpace text ++ (trim text ++ trailingSpace text) = text := by
  have hend : trim text ++ trailingSpace text = text.dropWhile isWhitespace := by
    rw [trim, trailingSpace, ← List.reverse_append, List.takeWhile_append_dropWhile,
      List.reverse_reverse]
  rw [hend, leadingSpace, List.takeWhile_append_dropWhile]

theorem leading_space_white (text : List Char) :
    ∀ c ∈ leadingSpace text, isWhitespace c = true :=
  fun c hmem => List.all_eq_true.1 List.all_takeWhile c hmem

theorem trailing_space_white (text : List Char) :
    ∀ c ∈ trailingSpace text, isWhitespace c = true :=
  fun c hmem => List.all_eq_true.1 List.all_takeWhile c (List.mem_reverse.1 hmem)

/-! ## Decimal integers -/

/-- The value of a nonempty run of decimal digits. -/
def parseDigits (digits : List Char) : Option Nat :=
  if digits ≠ [] ∧ digits.all Char.isDigit then some (Nat.ofDigitChars 10 digits 0) else none

/-- Parse a signed 64-bit integer: an optional sign, then digits, within range. -/
def parseI64 (text : List Char) : Option Int :=
  match text with
  | '-' :: digits => do
      let n ← parseDigits digits
      if n ≤ 2 ^ 63 then some (-(n : Int)) else none
  | '+' :: digits => do
      let n ← parseDigits digits
      if n < 2 ^ 63 then some (n : Int) else none
  | digits => do
      let n ← parseDigits digits
      if n < 2 ^ 63 then some (n : Int) else none

/-- Parse an unsigned 64-bit integer: an optional plus sign, then digits, within range. -/
def parseU64 (text : List Char) : Option Nat := do
  let n ← parseDigits (match text with | '+' :: digits => digits | digits => digits)
  if n < 2 ^ 64 then some n else none

/-- Parse an unsigned 32-bit integer. -/
def parseU32 (text : List Char) : Option Nat := do
  let n ← parseDigits (match text with | '+' :: digits => digits | digits => digits)
  if n < 2 ^ 32 then some n else none

/-- The decimal digits of a natural number read back as that number. -/
theorem parse_digits_to_digits (n : Nat) : parseDigits (Nat.toDigits 10 n) = some n := by
  have hall : (Nat.toDigits 10 n).all Char.isDigit := by
    rw [List.all_eq_true]
    exact fun c hc => Nat.isDigit_of_mem_toDigits (by decide) (by decide) hc
  rw [parseDigits, if_pos ⟨Nat.toDigits_ne_nil, hall⟩, Nat.ofDigitChars_ten_toDigits]

/-- Unsigned decimal notation reads back as the number unless it is too large. -/
theorem parse_i64_digits (n : Nat) :
    parseI64 (Nat.toDigits 10 n) = if n < 2 ^ 63 then some (n : Int) else none := by
  have hdigits := parse_digits_to_digits n
  cases htext : Nat.toDigits 10 n with
  | nil => exact absurd htext Nat.toDigits_ne_nil
  | cons c digits =>
      have hc : c.isDigit :=
        Nat.isDigit_of_mem_toDigits (b := 10) (n := n) (by decide) (by decide) (by simp [htext])
      rw [htext] at hdigits
      unfold parseI64
      split
      · next heq =>
          obtain ⟨rfl, -⟩ := List.cons.inj heq
          exact absurd hc (by decide)
      · next heq =>
          obtain ⟨rfl, -⟩ := List.cons.inj heq
          exact absurd hc (by decide)
      · rw [hdigits]
        rfl

/-- Unsigned decimal notation reads back as the number when it fits. -/
theorem parse_i64_to_digits {n : Nat} (h : n < 2 ^ 63) :
    parseI64 (Nat.toDigits 10 n) = some (n : Int) := by
  rw [parse_i64_digits, if_pos h]

/-- The decimal notation of an unsigned 32-bit integer reads back as the integer. -/
theorem parse_u32_to_string {n : Nat} (h : n < 2 ^ 32) :
    parseU32 (toString n).toList = some n := by
  have hdigits := parse_digits_to_digits n
  have htext : (toString n).toList = Nat.toDigits 10 n := Nat.toList_repr
  rw [htext]
  unfold parseU32
  split
  · next digits heq =>
      have hplus : Char.isDigit '+' := by
        refine Nat.isDigit_of_mem_toDigits (b := 10) (n := n) (by decide) (by decide) ?_
        rw [heq]
        exact List.mem_cons_self
      exact absurd hplus (by decide)
  · have hrange : n < 4294967296 := h
    simp [hdigits, hrange]

/-- The decimal notation of an unsigned 64-bit integer reads back as the integer. -/
theorem parse_u64_to_string {n : Nat} (h : n < 2 ^ 64) :
    parseU64 (toString n).toList = some n := by
  have htext : (toString n).toList = Nat.toDigits 10 n := Nat.toList_repr
  have hdigits := parse_digits_to_digits n
  rw [htext]
  unfold parseU64
  split
  · next digits heq =>
      have hplus : Char.isDigit '+' := by
        refine Nat.isDigit_of_mem_toDigits (b := 10) (n := n) (by decide) (by decide) ?_
        rw [heq]
        exact List.mem_cons_self
      exact absurd hplus (by decide)
  · rw [hdigits]
    exact if_pos h

/-- A negative number is no unsigned integer. -/
theorem parse_u64_negative (digits : List Char) : parseU64 ('-' :: digits) = none := by
  have hnone : parseDigits ('-' :: digits) = none := by
    rw [parseDigits, if_neg]
    intro h
    exact absurd (List.all_eq_true.1 h.2 '-' List.mem_cons_self) (by decide)
  unfold parseU64
  split
  · next heq => cases heq
  · rw [hnone]
    rfl

/-- The decimal notation of an integer in range reads back as the integer. -/
theorem parse_i64_to_string {i : Int} (hlow : -(2 ^ 63) ≤ i) (hhigh : i < 2 ^ 63) :
    parseI64 (toString i).toList = some i := by
  cases i with
  | ofNat n =>
      have htext : (toString (Int.ofNat n)).toList = Nat.toDigits 10 n := Nat.toList_repr
      rw [htext]
      exact parse_i64_to_digits (by change (n : Int) < 2 ^ 63 at hhigh; omega)
  | negSucc n =>
      have htext : (toString (Int.negSucc n)).toList = '-' :: Nat.toDigits 10 (n + 1) := by
        change ("-" ++ Nat.repr (n + 1)).toList = _
        rw [String.toList_append, Nat.toList_repr]
        rfl
      have hle : n + 1 ≤ 2 ^ 63 := by omega
      rw [htext]
      simp only [parseI64, parse_digits_to_digits, Option.bind_eq_bind, Option.bind_some,
        if_pos hle]
      rfl

/-- Characters that are no digits do not occur in the decimal notation of a natural number. -/
theorem not_mem_to_digits {c : Char} (h : c.isDigit = false) (n : Nat) :
    c ∉ Nat.toDigits 10 n := by
  intro hmem
  have hdigit := Nat.isDigit_of_mem_toDigits (b := 10) (by decide) (by decide) hmem
  rw [h] at hdigit
  cases hdigit

/-- Decimal notation has no separating colon. -/
theorem colon_not_mem_to_string (i : Int) : ':' ∉ (toString i).toList := by
  have hdigits : ∀ n : Nat, ':' ∉ Nat.toDigits 10 n := not_mem_to_digits (by decide)
  cases i with
  | ofNat n =>
      have htext : (toString (Int.ofNat n)).toList = Nat.toDigits 10 n := Nat.toList_repr
      rw [htext]
      exact hdigits n
  | negSucc n =>
      have htext : (toString (Int.negSucc n)).toList = '-' :: Nat.toDigits 10 (n + 1) := by
        change ("-" ++ Nat.repr (n + 1)).toList = _
        rw [String.toList_append, Nat.toList_repr]
        rfl
      rw [htext, List.mem_cons, not_or]
      exact ⟨by decide, hdigits _⟩

/-- Decimal notation tells natural numbers apart. -/
theorem to_digits_injective {m n : Nat} (h : Nat.toDigits 10 m = Nat.toDigits 10 n) : m = n := by
  have hdigits := parse_digits_to_digits m
  rw [h, parse_digits_to_digits, Option.some.injEq] at hdigits
  exact hdigits.symm

/-- Two texts that agree up to their first separators, if any, start alike. -/
theorem append_cancel_of_not_mem {separator : Char} {first second rest rest' : List Char}
    (hfirst : separator ∉ first) (hsecond : separator ∉ second)
    (hrest : rest = [] ∨ ∃ tail, rest = separator :: tail)
    (hrest' : rest' = [] ∨ ∃ tail, rest' = separator :: tail)
    (h : first ++ rest = second ++ rest') : first = second := by
  have htake : ∀ {front back : List Char}, separator ∉ front →
      (back = [] ∨ ∃ tail, back = separator :: tail) →
      (front ++ back).takeWhile (· ≠ separator) = front := by
    intro front back hfront hback
    rw [List.takeWhile_append_of_pos fun c hc => by
      simpa using fun heq : c = separator => hfront (heq ▸ hc)]
    rcases hback with rfl | ⟨tail, rfl⟩ <;> simp
  rw [← htake hfirst hrest, h, htake hsecond hrest']

end PgDurable.Text
