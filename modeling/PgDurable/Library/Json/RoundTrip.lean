import PgDurable.Library.Json.Text

/-!
# Reading back what was written

`parse_print` is the result: a well-formed value whose nesting stays below the recursion limit is
recovered from its compact text. The lemmas before it treat one token each and say what the
reader leaves; a number ends only where the next character cannot continue it, which `Stops`
states.
-/

namespace PgDurable.Json

/-! ## Strings -/

/-- A two-character escape reads back as its character, and its letter is never `u`. -/
theorem simple_escape_short {c letter : Char} (h : shortEscape c = some letter) :
    simpleEscape letter = some c ∧ letter ≠ 'u' := by
  unfold shortEscape at h
  split_ifs at h with h1 h2 h3 h4 h5 h6 h7 <;> cases h <;> subst c <;> decide

/-- A character without a two-character escape is neither a quote nor a backslash. -/
theorem plain_of_short_escape_none {c : Char} (h : shortEscape c = none) :
    c ≠ '"' ∧ c ≠ '\\' := by
  constructor <;> (rintro rfl; exact absurd h (by decide))

/-- A control character is recovered from its four-digit escape. -/
theorem hex_unit_control :
    ∀ n < 32, hexUnit '0' '0' (hexDigit (n / 16)) (hexDigit (n % 16)) = some n := by
  decide

/-- A two-character escape is read in one step. -/
theorem parse_string_short {c letter : Char} (h : shortEscape c = some letter) (fuel : Nat)
    (rest : List Char) :
    parseString (fuel + 1) ('\\' :: letter :: rest) =
      (parseString fuel rest).map fun read => (c :: read.1, read.2) := by
  obtain ⟨hback, hletter⟩ := simple_escape_short h
  rw [parseString, hback]
  · cases parseString fuel rest <;> rfl
  all_goals simp_all

/-- A character that needs no escape is read in one step. -/
theorem parse_string_plain {c : Char} (hquote : c ≠ '"') (hslash : c ≠ '\\')
    (hcontrol : ¬ c.toNat < 0x20) (fuel : Nat) (rest : List Char) :
    parseString (fuel + 1) (c :: rest) =
      (parseString fuel rest).map fun read => (c :: read.1, read.2) := by
  have hkeep : ¬ (c.toNat < 0x20 ∨ c = '\\') := by simp [hcontrol, hslash]
  rw [parseString, if_neg hkeep]
  · cases parseString fuel rest <;> rfl
  all_goals simp_all

/-- One written character is read in one step. -/
theorem parse_string_escape (fuel : Nat) (c : Char) (rest : List Char) :
    parseString (fuel + 1) (escapeChar c ++ rest) =
      (parseString fuel rest).map fun read => (c :: read.1, read.2) := by
  unfold escapeChar
  cases hshort : shortEscape c with
  | some letter => exact parse_string_short hshort fuel rest
  | none =>
      obtain ⟨hquote, hslash⟩ := plain_of_short_escape_none hshort
      by_cases hcontrol : c.toNat < 0x20
      · have hunit := hex_unit_control c.toNat hcontrol
        have hlow : ¬ (0xdc00 ≤ c.toNat ∧ c.toNat < 0xe000) := by omega
        have hhigh : ¬ (0xd800 ≤ c.toNat ∧ c.toNat < 0xdc00) := by omega
        simp only [if_pos hcontrol, List.cons_append, List.nil_append, parseString, hunit,
          Option.bind_eq_bind, Option.bind_some, if_neg hlow, if_neg hhigh, Char.ofNat_toNat]
        cases parseString fuel rest <;> rfl
      · simpa only [if_neg hcontrol, List.cons_append, List.nil_append] using
          parse_string_plain hquote hslash hcontrol fuel rest

/-- A written string literal is read up to its closing quote. -/
theorem parse_string_print (text rest : List Char) (fuel : Nat) (h : text.length < fuel) :
    parseString fuel (text.flatMap escapeChar ++ '"' :: rest) = some (text, rest) := by
  induction text generalizing fuel with
  | nil =>
      obtain ⟨fuel, rfl⟩ := Nat.exists_eq_add_of_lt h
      simp [parseString]
  | cons c text ih =>
      obtain ⟨fuel, rfl⟩ := Nat.exists_eq_add_of_lt h
      simp only [List.length_cons, List.flatMap_cons, List.append_assoc]
      rw [parse_string_escape, ih _ (by omega)]
      rfl

/-- Escaping never shortens a text. -/
theorem length_le_flat_map_escape (text : List Char) :
    text.length ≤ (text.flatMap escapeChar).length := by
  induction text with
  | nil => simp
  | cons c text ih =>
      have hone : 1 ≤ (escapeChar c).length := by
        unfold escapeChar
        split
        · simp
        · split <;> simp
      simp only [List.length_cons, List.flatMap_cons, List.length_append]
      omega

/-- The reader's own step budget is enough for a written string literal. -/
theorem parse_string_literal (s : String) (rest : List Char) :
    parseString ((s.toList.flatMap escapeChar ++ '"' :: rest).length + 1)
      (s.toList.flatMap escapeChar ++ '"' :: rest) = some (s.toList, rest) := by
  apply parse_string_print
  have := length_le_flat_map_escape s.toList
  simp only [List.length_append, List.length_cons]
  omega

/-! ## Numbers -/

/-- The next character cannot continue a number. -/
def Stops (rest : List Char) : Prop :=
  ∀ c tail, rest = c :: tail → c.isDigit = false ∧ c ≠ '.' ∧ c ≠ 'e' ∧ c ≠ 'E'

/-- The end of the text stops a number. -/
theorem stops_nil : Stops [] := by
  intro c tail h
  cases h

/-- A delimiter stops a number. -/
theorem stops_cons {c : Char} {rest : List Char}
    (h : c.isDigit = false ∧ c ≠ '.' ∧ c ≠ 'e' ∧ c ≠ 'E') : Stops (c :: rest) := by
  intro c' tail htail
  cases htail
  exact h

/-- A run of digits is taken whole when no digit follows it. -/
theorem span_digits_append {digits rest : List Char} (hdigits : ∀ c ∈ digits, c.isDigit)
    (hrest : ∀ c tail, rest = c :: tail → c.isDigit = false) :
    spanDigits (digits ++ rest) = (digits, rest) := by
  induction digits with
  | nil =>
      cases rest with
      | nil => rfl
      | cons c tail => simp [spanDigits, hrest c tail rfl]
  | cons c digits ih =>
      have hc : c.isDigit := hdigits c (by simp)
      simp [spanDigits, hc, ih fun d hd => hdigits d (by simp [hd])]

/-- The digits of a natural number are digits. -/
theorem is_digit_to_digits {n : Nat} {c : Char} (h : c ∈ Nat.toDigits 10 n) : c.isDigit :=
  Nat.isDigit_of_mem_toDigits (by decide) (by decide) h

/-- The decimal digits of a positive number do not start with zero. -/
theorem to_digits_head {n : Nat} (hn : 0 < n) (tail : List Char) :
    Nat.toDigits 10 n ≠ '0' :: tail := by
  induction n using Nat.strongRecOn generalizing tail with
  | _ n ih =>
      by_cases hsmall : n < 10
      · rw [Nat.toDigits_of_lt_base hsmall]
        intro h
        have hdigit : ∀ d < 10, 0 < d → Nat.digitChar d ≠ '0' := by decide
        exact hdigit n hsmall hn (List.cons.inj h).1
      · rw [Nat.toDigits_of_base_le (by decide) (by omega)]
        intro h
        cases hfront : Nat.toDigits 10 (n / 10) with
        | nil => exact Nat.toDigits_ne_nil hfront
        | cons c front =>
            rw [hfront, List.cons_append] at h
            obtain ⟨rfl, -⟩ := List.cons.inj h
            exact ih (n / 10) (by omega) (by omega) front hfront

/-- A written integer part is read whole. -/
theorem parse_whole_print (n : Nat) {rest : List Char}
    (hrest : ∀ c tail, rest = c :: tail → c.isDigit = false) :
    parseWhole (Nat.toDigits 10 n ++ rest) = some (n, rest) := by
  have hspan := span_digits_append (fun c hc => is_digit_to_digits (n := n) hc) hrest
  have hvalue : Nat.ofDigitChars 10 (Nat.toDigits 10 n) 0 = n := Nat.ofDigitChars_ten_toDigits
  rw [parseWhole, hspan]
  rcases Nat.eq_zero_or_pos n with rfl | hpos
  · rfl
  · split
    · next heq => exact absurd (Prod.mk.inj heq).1 Nat.toDigits_ne_nil
    · next heq => exact absurd (Prod.mk.inj heq).1 (to_digits_head hpos _)
    · next heq =>
        obtain ⟨rfl, rfl⟩ := Prod.mk.inj heq
        rw [hvalue]

/-- A written digit reads back as its value. -/
theorem digit_value_char : ∀ d : Fin 10, digitValue (Nat.digitChar d.val) = d := by decide

/-- A written fraction is read whole. -/
theorem parse_fraction_print (fraction : List (Fin 10)) {rest : List Char}
    (hrest : ∀ c tail, rest = c :: tail → c.isDigit = false ∧ c ≠ '.') :
    parseFraction ((if fraction = [] then [] else
      '.' :: fraction.map fun d => Nat.digitChar d.val) ++ rest) = some (fraction, rest) := by
  by_cases hempty : fraction = []
  · subst hempty
    cases rest with
    | nil => rfl
    | cons c tail =>
        rw [if_pos rfl, List.nil_append, parseFraction]
        intro _ heq
        exact (hrest c tail rfl).2 (List.cons.inj heq).1
  · rw [if_neg hempty, List.cons_append, parseFraction,
      span_digits_append (by simp) fun c tail h => (hrest c tail h).1]
    have hback : (fraction.map fun d => Nat.digitChar d.val).map digitValue = fraction := by
      simp [Function.comp_def, digit_value_char]
    cases hdigits : fraction.map fun d => Nat.digitChar d.val with
    | nil => simp [hempty] at hdigits
    | cons c digits => simp [← hdigits, hback]

/-- The digits of an exponent are read whole. -/
theorem parse_exponent_digits_print (negative : Bool) (n : Nat) {rest : List Char}
    (hrest : ∀ c tail, rest = c :: tail → c.isDigit = false) :
    parseExponentDigits negative (Nat.toDigits 10 n ++ rest) =
      some (some (if negative then -(n : Int) else n), rest) := by
  have hspan := span_digits_append (fun c hc => is_digit_to_digits (n := n) hc) hrest
  have hvalue : Nat.ofDigitChars 10 (Nat.toDigits 10 n) 0 = n := Nat.ofDigitChars_ten_toDigits
  rw [parseExponentDigits, hspan]
  split
  · next heq => exact absurd (Prod.mk.inj heq).1 Nat.toDigits_ne_nil
  · next heq =>
      obtain ⟨rfl, rfl⟩ := Prod.mk.inj heq
      rw [hvalue]

/-- The first digit of a natural number is a digit. -/
theorem to_digits_cons (n : Nat) :
    ∃ c tail, Nat.toDigits 10 n = c :: tail ∧ c.isDigit := by
  cases h : Nat.toDigits 10 n with
  | nil => exact absurd h Nat.toDigits_ne_nil
  | cons c tail => exact ⟨c, tail, rfl, is_digit_to_digits (n := n) (by simp [h])⟩

/-- A written exponent is read whole. -/
theorem parse_exponent_print (exponent : Option Int) {rest : List Char} (hrest : Stops rest) :
    parseExponent ((match exponent with
      | none => []
      | some e => 'e' :: printInt e) ++ rest) = some (exponent, rest) := by
  have hdigit : ∀ c tail, rest = c :: tail → c.isDigit = false :=
    fun c tail h => (hrest c tail h).1
  cases exponent with
  | none =>
      cases rest with
      | nil => rfl
      | cons c tail =>
          obtain ⟨-, -, he, hE⟩ := hrest c tail rfl
          simp [parseExponent, he, hE]
  | some e =>
      simp only [List.cons_append, parseExponent, true_or, if_true]
      by_cases hneg : e < 0
      · rw [printInt, if_pos hneg, List.cons_append]
        simp only [parse_exponent_digits_print true _ hdigit, if_true, Option.some.injEq,
          Prod.mk.injEq, and_true]
        omega
      · obtain ⟨c, tail, hc, hcd⟩ := to_digits_cons e.natAbs
        have hread := parse_exponent_digits_print false e.natAbs hdigit
        rw [printInt, if_neg hneg]
        rw [hc, List.cons_append] at hread ⊢
        split
        · next heq =>
            obtain ⟨rfl, -⟩ := List.cons.inj heq
            exact absurd hcd (by decide)
        · next heq =>
            obtain ⟨rfl, -⟩ := List.cons.inj heq
            exact absurd hcd (by decide)
        · rw [hread]
          simp only [Bool.false_eq_true, if_false, Option.some.injEq, Prod.mk.injEq, and_true]
          omega

/-- The text after an exponent-free fraction cannot continue the fraction's digits. -/
theorem exponent_stops (exponent : Option Int) {rest : List Char} (hrest : Stops rest) :
    ∀ c tail, (match exponent with
      | none => []
      | some e => 'e' :: printInt e) ++ rest = c :: tail → c.isDigit = false ∧ c ≠ '.' := by
  intro c tail h
  cases exponent with
  | none => exact ⟨(hrest c tail h).1, (hrest c tail h).2.1⟩
  | some e =>
      obtain ⟨rfl, -⟩ := List.cons.inj h
      decide

/-- Everything of a written number after its sign is read back. -/
theorem parse_unsigned_print (n : Number) {rest : List Char} (hrest : Stops rest) :
    parseUnsigned n.negative
      (Nat.toDigits 10 n.whole ++
        ((if n.fraction = [] then [] else '.' :: n.fraction.map fun d => Nat.digitChar d.val) ++
          ((match n.exponent with
            | none => []
            | some e => 'e' :: printInt e) ++ rest))) = some (n, rest) := by
  have hafter := exponent_stops n.exponent hrest
  have hfraction := parse_fraction_print n.fraction hafter
  have hwhole : ∀ c tail,
      (if n.fraction = [] then [] else '.' :: n.fraction.map fun d => Nat.digitChar d.val) ++
        ((match n.exponent with
          | none => []
          | some e => 'e' :: printInt e) ++ rest) = c :: tail → c.isDigit = false := by
    intro c tail h
    by_cases hempty : n.fraction = []
    · rw [if_pos hempty, List.nil_append] at h
      exact (hafter c tail h).1
    · rw [if_neg hempty, List.cons_append] at h
      obtain ⟨rfl, -⟩ := List.cons.inj h
      decide
  simp only [parseUnsigned, parse_whole_print n.whole hwhole, hfraction,
    parse_exponent_print n.exponent hrest, Option.bind_eq_bind, Option.bind_some]
  rfl

/-- A written number is read back when the text after it cannot continue it. -/
theorem parse_number_print (n : Number) {rest : List Char} (hrest : Stops rest) :
    parseNumber (printNumber n ++ rest) = some (n, rest) := by
  have hread := parse_unsigned_print n hrest
  unfold printNumber
  cases hsign : n.negative with
  | true =>
      simp only [if_true, List.cons_append, List.nil_append, List.append_assoc, parseNumber]
      rw [← hsign]
      exact hread
  | false =>
      obtain ⟨c, tail, hc, hcd⟩ := to_digits_cons n.whole
      simp only [Bool.false_eq_true, if_false, List.nil_append, List.append_assoc]
      rw [hsign] at hread
      rw [hc, List.cons_append] at hread ⊢
      rw [parseNumber]
      · exact hread
      · rintro _ heq
        obtain ⟨rfl, -⟩ := List.cons.inj heq
        exact absurd hcd (by decide)

/-! ## Values -/

/-- Whitespace is skipped only at a whitespace character. -/
theorem skip_space_cons {c : Char} (h : isSpace c = false) (rest : List Char) :
    skipSpace (c :: rest) = c :: rest := by
  simp [skipSpace, h]

/-- A written number starts with its sign or a digit. -/
theorem print_number_head (n : Number) :
    ∃ c tail, printNumber n = c :: tail ∧ (c = '-' ∨ c.isDigit) := by
  obtain ⟨d, digits, hd, hdigit⟩ := to_digits_cons n.whole
  unfold printNumber
  cases n.negative with
  | true => exact ⟨'-', _, rfl, .inl rfl⟩
  | false =>
      rw [hd]
      exact ⟨d, _, rfl, .inr hdigit⟩

/-- A sign or digit is none of the characters that start another kind of value. -/
theorem number_head_ne {c : Char} (h : c = '-' ∨ c.isDigit) :
    c ≠ 'n' ∧ c ≠ 't' ∧ c ≠ 'f' ∧ c ≠ '"' ∧ c ≠ '[' ∧ c ≠ '\x7b' ∧ c ≠ ']' ∧
      isSpace c = false := by
  rcases h with rfl | h
  · decide
  · refine ⟨?_, ?_, ?_, ?_, ?_, ?_, ?_, ?_⟩
    case refine_8 =>
      unfold isSpace
      simp only [Bool.or_eq_false_iff, beq_eq_false_iff_ne]
      refine ⟨⟨⟨?_, ?_⟩, ?_⟩, ?_⟩ <;> (rintro rfl; exact absurd h (by decide))
    all_goals rintro rfl; exact absurd h (by decide)

/-- A written value starts neither with whitespace nor with a closing bracket. -/
theorem print_value_head (v : Value) :
    ∃ c tail, printValue v = c :: tail ∧ isSpace c = false ∧ c ≠ ']' := by
  cases v with
  | null => exact ⟨'n', _, rfl, by decide⟩
  | bool b => cases b <;> exact ⟨_, _, rfl, by decide⟩
  | number n =>
      obtain ⟨c, tail, hc, hhead⟩ := print_number_head n
      obtain ⟨-, -, -, -, -, -, hbracket, hspace⟩ := number_head_ne hhead
      exact ⟨c, tail, by rw [printValue, hc], hspace, hbracket⟩
  | string s => exact ⟨'"', _, rfl, by decide⟩
  | array items => cases items <;> exact ⟨'[', _, rfl, by decide⟩
  | object members =>
      cases members with
      | nil => exact ⟨'\x7b', _, rfl, by decide⟩
      | cons member rest => exact ⟨'\x7b', _, rfl, by decide⟩

/-- The items after the first one start with a delimiter. -/
theorem stops_print_items (items : List Value) (rest : List Char) :
    Stops (printItems items ++ rest) := by
  cases items <;> exact stops_cons (by decide)

/-- The members after the first one start with a delimiter. -/
theorem stops_print_members (members : List (String × Value)) (rest : List Char) :
    Stops (printMembers members ++ rest) := by
  cases members <;> exact stops_cons (by decide)

/-- A number is read where no other kind of value starts. -/
theorem parse_value_number (n : Number) (fuel limit : Nat) {rest : List Char}
    (hrest : Stops rest) :
    parseValue (fuel + 1) limit (printNumber n ++ rest) = some (.number n, rest) := by
  obtain ⟨c, tail, hc, hhead⟩ := print_number_head n
  obtain ⟨hn, ht, hf, hquote, hbracket, hbrace, -, hspace⟩ := number_head_ne hhead
  have hread := parse_number_print n hrest
  rw [hc, List.cons_append] at hread ⊢
  rw [parseValue, skip_space_cons hspace]
  split <;> simp_all

/-- The literal after an opening quote, with its closing quote. -/
theorem print_string_append (s : String) (rest : List Char) :
    printString s ++ rest = '"' :: (s.toList.flatMap escapeChar ++ '"' :: rest) := by
  simp [printString]

/-- A blank before a value is skipped. -/
theorem parse_value_blank (fuel limit : Nat) (text : List Char) :
    parseValue fuel limit (' ' :: text) = parseValue fuel limit text := by
  cases fuel with
  | zero => rw [parseValue, parseValue]
  | succ fuel =>
      rw [parseValue, parseValue]
      rfl

/-- A blank before a member is skipped. -/
theorem parse_member_blank (fuel limit : Nat) (text : List Char) :
    parseMember fuel limit (' ' :: text) = parseMember fuel limit text := by
  cases fuel with
  | zero => rw [parseMember, parseMember]
  | succ fuel =>
      rw [parseMember, parseMember]
      rfl

/-- A member with a written name is read when its value is. -/
theorem parse_member_print {key : String} {value : Value} {fuel limit : Nat}
    {text rest : List Char} (h : parseValue fuel limit text = some (value, rest)) :
    parseMember (fuel + 1) limit (printString key ++ ':' :: text) =
      some ((key, value), rest) := by
  rw [print_string_append, parseMember, skip_space_cons (by decide)]
  simp only [parse_string_literal, Option.bind_eq_bind, Option.bind_some,
    skip_space_cons (show isSpace ':' = false by decide), h, String.ofList_toList]
  rfl

mutual
/-- A written value is read back, and the reader stops right after it. -/
theorem parse_value_print : ∀ (v : Value) (fuel limit : Nat) (rest : List Char),
    v.WellFormed → (printValue v).length ≤ fuel → v.depth < limit → Stops rest →
    parseValue fuel limit (printValue v ++ rest) = some (v, rest)
  | v, 0, _, _, _, hfuel, _, _ => by
      obtain ⟨c, tail, hc, -⟩ := print_value_head v
      simp [hc] at hfuel
  | .null, fuel + 1, limit, rest, _, _, _, _ => by
      simp [printValue, parseValue, skipSpace, isSpace]
  | .bool true, fuel + 1, limit, rest, _, _, _, _ => by
      simp [printValue, parseValue, skipSpace, isSpace]
  | .bool false, fuel + 1, limit, rest, _, _, _, _ => by
      simp [printValue, parseValue, skipSpace, isSpace]
  | .number n, fuel + 1, limit, rest, _, _, _, hrest => by
      rw [printValue]
      exact parse_value_number n fuel limit hrest
  | .string s, fuel + 1, limit, rest, _, _, _, _ => by
      rw [printValue, print_string_append, parseValue, skip_space_cons (by decide)]
      simp only [parse_string_literal, Option.bind_eq_bind, Option.bind_some,
        String.ofList_toList]
      rfl
  | .array [], fuel + 1, limit, rest, _, _, hdepth, _ => by
      have hlimit : ¬ limit ≤ 1 := by simp [Value.depth, Value.depthItems] at hdepth; omega
      simp [printValue, parseValue, skipSpace, isSpace, hlimit]
  | .array (item :: items), fuel + 1, limit, rest, hwf, hfuel, hdepth, _ => by
      simp only [Value.WellFormed, Value.WellFormedItems] at hwf
      simp only [Value.depth, Value.depthItems] at hdepth
      simp only [printValue, List.cons_append, List.length_cons, List.length_append] at hfuel
      have hlimit : ¬ limit ≤ 1 := by omega
      have hitem := parse_value_print item fuel (limit - 1) (printItems items ++ rest) hwf.1
        (by omega) (by omega) (stops_print_items items rest)
      have hitems := parse_items_print items fuel (limit - 1) rest hwf.2 (by omega) (by omega)
      obtain ⟨c, tail, hc, hspace, hbracket⟩ := print_value_head item
      simp only [printValue, List.cons_append, List.append_assoc]
      rw [parseValue, skip_space_cons (by decide)]
      simp only [if_neg hlimit]
      rw [hc, List.cons_append] at hitem ⊢
      rw [skip_space_cons hspace]
      split
      · next heq => exact absurd (List.cons.inj heq).1 hbracket
      · simp [hitem, hitems]
  | .object [], fuel + 1, limit, rest, _, _, hdepth, _ => by
      have hlimit : ¬ limit ≤ 1 := by simp [Value.depth, Value.depthMembers] at hdepth; omega
      simp [printValue, parseValue, skipSpace, isSpace, hlimit]
  | .object ((key, value) :: members), fuel + 1, limit, rest, hwf, hfuel, hdepth, _ => by
      simp only [Value.WellFormed, Value.WellFormedMembers] at hwf
      simp only [Value.depth, Value.depthMembers] at hdepth
      simp only [printValue, printString, List.cons_append, List.length_cons, List.length_append,
        List.append_assoc] at hfuel
      have hlimit : ¬ limit ≤ 1 := by omega
      obtain ⟨fuel, rfl⟩ : ∃ before, fuel = before + 1 := ⟨fuel - 1, by omega⟩
      have hvalue := parse_value_print value fuel (limit - 1) (printMembers members ++ rest)
        hwf.2.1 (by omega) (by omega) (stops_print_members members rest)
      have hmember := @parse_member_print key _ _ _ _ _ hvalue
      have hmembers := parse_members_print members (fuel + 1) (limit - 1) [(key, value)] rest
        (by simpa using hwf.1) hwf.2.2 (by omega) (by omega)
      simp only [printValue, List.cons_append, List.append_assoc]
      rw [parseValue, skip_space_cons (by decide)]
      simp only [if_neg hlimit]
      rw [print_string_append] at hmember ⊢
      rw [skip_space_cons (by decide)]
      simp [hmember, hmembers]

/-- Written items are read back up to the closing bracket. -/
theorem parse_items_print : ∀ (items : List Value) (fuel limit : Nat) (rest : List Char),
    Value.WellFormedItems items → (printItems items).length ≤ fuel →
    Value.depthItems items < limit →
    parseItems fuel limit (printItems items ++ rest) = some (items, rest)
  | [], 0, _, _, _, hfuel, _ => by simp [printItems] at hfuel
  | _ :: _, 0, _, _, _, hfuel, _ => by simp [printItems] at hfuel
  | [], fuel + 1, limit, rest, _, _, _ => by
      simp [printItems, parseItems, skipSpace, isSpace]
  | item :: items, fuel + 1, limit, rest, hwf, hfuel, hdepth => by
      simp only [Value.WellFormedItems] at hwf
      simp only [Value.depthItems] at hdepth
      simp only [printItems, List.cons_append, List.length_cons, List.length_append] at hfuel
      have hitem := parse_value_print item fuel limit (printItems items ++ rest) hwf.1
        (by omega) (by omega) (stops_print_items items rest)
      have hitems := parse_items_print items fuel limit rest hwf.2 (by omega) (by omega)
      simp only [printItems, List.cons_append, List.append_assoc]
      rw [parseItems, skip_space_cons (by decide)]
      simp [hitem, hitems]

/-- Written members are read back up to the closing brace and added to those already read. -/
theorem parse_members_print : ∀ (members : List (String × Value)) (fuel limit : Nat)
    (before : List (String × Value)) (rest : List Char),
    ((before ++ members).map (·.1)).Nodup → Value.WellFormedMembers members →
    (printMembers members).length ≤ fuel → Value.depthMembers members < limit →
    parseMembers fuel limit before (printMembers members ++ rest) = some (before ++ members, rest)
  | [], 0, _, _, _, _, _, hfuel, _ => by simp [printMembers] at hfuel
  | (_, _) :: _, 0, _, _, _, _, _, hfuel, _ => by simp [printMembers] at hfuel
  | [], fuel + 1, limit, before, rest, _, _, _, _ => by
      simp [printMembers, parseMembers, skipSpace, isSpace]
  | (key, value) :: members, fuel + 1, limit, before, rest, hkeys, hwf, hfuel, hdepth => by
      simp only [Value.WellFormedMembers] at hwf
      simp only [Value.depthMembers] at hdepth
      simp only [printMembers, printString, List.cons_append, List.length_cons,
        List.length_append, List.append_assoc] at hfuel
      obtain ⟨fuel, rfl⟩ : ∃ before, fuel = before + 1 := ⟨fuel - 1, by omega⟩
      have hvalue := parse_value_print value fuel limit (printMembers members ++ rest)
        hwf.1 (by omega) (by omega) (stops_print_members members rest)
      have hmember := @parse_member_print key _ _ _ _ _ hvalue
      have hfresh : key ∉ before.map (·.1) := by
        simp only [List.map_append, List.map_cons] at hkeys
        intro hmem
        exact (List.nodup_append.1 hkeys).2.2 key hmem key (by simp) rfl
      have hmembers := parse_members_print members (fuel + 1) limit (before ++ [(key, value)]) rest
        (by simpa using hkeys) hwf.2 (by omega) (by omega)
      simp only [printMembers, List.cons_append, List.append_assoc]
      rw [parseMembers, skip_space_cons (by decide)]
      simp only [hmember, Option.bind_eq_bind, Option.bind_some, insert_member_fresh hfresh,
        hmembers, List.append_assoc, List.cons_append, List.nil_append]
end

/-- A well-formed value below the recursion limit is recovered from its compact text. -/
theorem parse_print {v : Value} (hwf : v.WellFormed) (hdepth : v.depth < recursionLimit) :
    parse (print v) = some v := by
  have hread := parse_value_print v (2 * (printValue v).length + 2) recursionLimit [] hwf
    (by omega) hdepth stops_nil
  rw [List.append_nil] at hread
  simp only [parse, print, String.toList_ofList, hread]
  rfl

/-- `fromStr` recovers what `print` wrote. -/
theorem from_str_print {v : Value} (hwf : v.WellFormed) (hdepth : v.depth < recursionLimit) :
    fromStr (print v) = .ok v := by
  rw [fromStr, parse_print hwf hdepth]

end PgDurable.Json
