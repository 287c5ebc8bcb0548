import PgDurable.Library.Json.RoundTrip

/-!
# Characters of written texts

Control characters are escaped in string literals, and nothing else is written with them:
`print_not_control`.
-/

namespace PgDurable.Json

theorem hex_digit_not_control : ∀ n < 16, 0x20 ≤ (hexDigit n).toNat := by decide

/-- A character with a short escape is written with a letter. -/
theorem short_escape_not_control {c letter : Char} (h : shortEscape c = some letter) :
    0x20 ≤ letter.toNat := by
  unfold shortEscape at h
  split_ifs at h <;> cases h <;> decide

theorem escape_char_not_control {c written : Char} (h : written ∈ escapeChar c) :
    0x20 ≤ written.toNat := by
  unfold escapeChar at h
  split at h
  · next letter hletter =>
      simp only [List.mem_cons, List.not_mem_nil, or_false] at h
      rcases h with rfl | rfl
      · decide
      · exact short_escape_not_control hletter
  · split_ifs at h with hcontrol
    · simp only [List.mem_cons, List.not_mem_nil, or_false] at h
      rcases h with rfl | rfl | rfl | rfl | rfl | rfl
      · decide
      · decide
      · decide
      · decide
      · exact hex_digit_not_control _ (by omega)
      · exact hex_digit_not_control _ (by omega)
    · cases List.mem_singleton.1 h
      omega

theorem print_string_not_control {s : String} {c : Char} (h : c ∈ printString s) :
    0x20 ≤ c.toNat := by
  simp only [printString, List.cons_append, List.mem_cons, List.mem_append, List.mem_flatMap,
    List.not_mem_nil, or_false] at h
  rcases h with rfl | ⟨source, -, hwritten⟩ | rfl
  · decide
  · exact escape_char_not_control hwritten
  · decide

theorem digit_not_control {c : Char} (h : c.isDigit) : 0x20 ≤ c.toNat := by
  simp only [Char.isDigit, ge_iff_le, Bool.and_eq_true, decide_eq_true_eq] at h
  exact le_trans (by decide) (UInt32.le_iff_toNat_le.1 h.1)

theorem print_int_not_control {i : Int} {c : Char} (h : c ∈ printInt i) : 0x20 ≤ c.toNat := by
  unfold printInt at h
  split_ifs at h
  · rcases List.mem_cons.1 h with rfl | hdigit
    · decide
    · exact digit_not_control (is_digit_to_digits hdigit)
  · exact digit_not_control (is_digit_to_digits h)

theorem print_number_not_control {n : Number} {c : Char} (h : c ∈ printNumber n) :
    0x20 ≤ c.toNat := by
  obtain ⟨negative, whole, fraction, exponent⟩ := n
  simp only [printNumber, List.mem_append] at h
  rcases h with ((hsign | hwhole) | hfraction) | hexponent
  · split_ifs at hsign
    · cases List.mem_singleton.1 hsign
      decide
    · cases hsign
  · exact digit_not_control (is_digit_to_digits hwhole)
  · split_ifs at hfraction
    · cases hfraction
    · rcases List.mem_cons.1 hfraction with rfl | hdigit
      · decide
      · obtain ⟨d, -, rfl⟩ := List.mem_map.1 hdigit
        exact digit_not_control ((by decide : ∀ d : Fin 10, (Nat.digitChar d.val).isDigit) d)
  · cases exponent with
    | none => cases hexponent
    | some e =>
        rcases List.mem_cons.1 hexponent with rfl | hdigit
        · decide
        · exact print_int_not_control hdigit

/-- A text without control characters, by evaluation. -/
theorem literal_not_control {text : List Char} (h : text.all fun c => decide (0x20 ≤ c.toNat))
    {c : Char} (hmem : c ∈ text) : 0x20 ≤ c.toNat :=
  of_decide_eq_true (List.all_eq_true.1 h c hmem)

mutual
/-- No control character is written. -/
theorem print_value_not_control {c : Char} : ∀ v : Value, c ∈ printValue v → 0x20 ≤ c.toNat
  | .null, h => literal_not_control (by decide) h
  | .bool true, h => literal_not_control (by decide) h
  | .bool false, h => literal_not_control (by decide) h
  | .number n, h => print_number_not_control h
  | .string s, h => print_string_not_control h
  | .array [], h => literal_not_control (by decide) h
  | .array (item :: rest), h => by
      simp only [printValue, List.cons_append, List.mem_cons, List.mem_append] at h
      rcases h with rfl | hitem | hrest
      · decide
      · exact print_value_not_control item hitem
      · exact print_items_not_control rest hrest
  | .object [], h => literal_not_control (by decide) h
  | .object ((key, value) :: rest), h => by
      simp only [printValue, List.cons_append, List.append_assoc, List.mem_cons,
        List.mem_append] at h
      rcases h with rfl | hkey | rfl | hvalue | hrest
      · decide
      · exact print_string_not_control hkey
      · decide
      · exact print_value_not_control value hvalue
      · exact print_members_not_control rest hrest

theorem print_items_not_control {c : Char} :
    ∀ items : List Value, c ∈ printItems items → 0x20 ≤ c.toNat
  | [], h => by
      cases List.mem_singleton.1 h
      decide
  | item :: rest, h => by
      simp only [printItems, List.cons_append, List.mem_cons, List.mem_append] at h
      rcases h with rfl | hitem | hrest
      · decide
      · exact print_value_not_control item hitem
      · exact print_items_not_control rest hrest

theorem print_members_not_control {c : Char} :
    ∀ members : List (String × Value), c ∈ printMembers members → 0x20 ≤ c.toNat
  | [], h => by
      cases List.mem_singleton.1 h
      decide
  | (key, value) :: rest, h => by
      simp only [printMembers, List.cons_append, List.append_assoc, List.mem_cons,
        List.mem_append] at h
      rcases h with rfl | hkey | rfl | hvalue | hrest
      · decide
      · exact print_string_not_control hkey
      · decide
      · exact print_value_not_control value hvalue
      · exact print_members_not_control rest hrest
end

/-- The text of a value has no control character. -/
theorem print_not_control (v : Value) {c : Char} (h : c ∈ (print v).toList) : 0x20 ≤ c.toNat := by
  rw [print, String.toList_ofList] at h
  exact print_value_not_control v h

end PgDurable.Json
