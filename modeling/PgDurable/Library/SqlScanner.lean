import PgDurable.Library.SqlLexer

/-!
# A lexer of SQL texts

`scan` reads the tokens whose rules are documented, with string constants that go on after white
space and comments, and names cut to 63 bytes: `scan_documented`. Bit strings, national and Unicode
constants, block comments and longer operators are left out.
-/

namespace PgDurable.SqlLexer

/-! ## White space -/

/-- Skip white space and line comments. -/
def skipBlank (comment : Bool) : List Char → List Char
  | [] => []
  | c :: rest =>
      if comment then skipBlank (!isNewline c) rest
      else if isSpace c then skipBlank false rest
      else if c = '-' then
        match rest with
        | '-' :: tail => skipBlank true tail
        | _ => c :: rest
      else c :: rest

/-- The text after the quote that continues a string constant: there is a newline in between. -/
def gapQuote (comment newline : Bool) : List Char → Option (List Char)
  | [] => none
  | c :: rest =>
      if comment then gapQuote (!isNewline c) (newline || isNewline c) rest
      else if c = '\'' then if newline then some rest else none
      else if isSpace c then gapQuote false (newline || isNewline c) rest
      else if c = '-' then
        match rest with
        | '-' :: tail => gapQuote true newline tail
        | _ => none
      else none

/-! ## Constants and names -/

/-- The character that an escape stands for. -/
def escaped (c : Char) : Char :=
  if c = 'b' then '\x08'
  else if c = 'f' then '\x0c'
  else if c = 'n' then '\n'
  else if c = 'r' then '\r'
  else if c = 't' then '\t'
  else c

/-- Read a string constant after its opening quote, with at most `fuel` steps. -/
def scanString (escapes : Bool) : Nat → List Char → Option (List Char × List Char)
  | 0, _ => none
  | _ + 1, [] => none
  | fuel + 1, c :: rest =>
      if c = '\'' then
        match rest with
        | '\'' :: tail => (scanString escapes fuel tail).map fun found => ('\'' :: found.1, found.2)
        | _ =>
            match gapQuote false false rest with
            | some tail => scanString escapes fuel tail
            | none => some ([], rest)
      else if escapes = true ∧ c = '\\' then
        match rest with
        | [] => none
        | d :: tail =>
            (scanString escapes fuel tail).map fun found => (escaped d :: found.1, found.2)
      else if c = '\x00' then none
      else (scanString escapes fuel rest).map fun found => (c :: found.1, found.2)

/-- Read a quoted name after its opening quote. -/
def scanIdentifier : List Char → Option (List Char × List Char)
  | [] => none
  | c :: rest =>
      if c = '"' then
        match rest with
        | '"' :: tail => (scanIdentifier tail).map fun found => ('"' :: found.1, found.2)
        | _ => some ([], rest)
      else if c = '\x00' then none
      else (scanIdentifier rest).map fun found => (c :: found.1, found.2)

/-- The first characters of a name, up to a number of bytes. -/
def cutName : Nat → List Char → List Char
  | _, [] => []
  | bytes, c :: rest => if c.utf8Size ≤ bytes then c :: cutName (bytes - c.utf8Size) rest else []

/-- The name that the server keeps. -/
def keptName (name : List Char) : List Char :=
  if (String.ofList name).utf8ByteSize ≤ 63 then name else cutName 63 name

/-- Read a decimal fraction. -/
def scanFraction : List Char → List Char × List Char
  | '.' :: rest => ('.' :: rest.takeWhile Char.isDigit, rest.dropWhile Char.isDigit)
  | text => ([], text)

/-- Read a decimal exponent. -/
def scanExponent : List Char → List Char × List Char
  | 'e' :: '-' :: rest => ('e' :: '-' :: rest.takeWhile Char.isDigit, rest.dropWhile Char.isDigit)
  | 'e' :: rest => ('e' :: rest.takeWhile Char.isDigit, rest.dropWhile Char.isDigit)
  | text => ([], text)

/-- Read a numeric constant that starts with a digit. -/
def scanNumber (text : List Char) : List Char × List Char :=
  let fraction := scanFraction (text.dropWhile Char.isDigit)
  let exponent := scanExponent fraction.2
  (text.takeWhile Char.isDigit ++ fraction.1 ++ exponent.1, exponent.2)

/-- Read the token that starts with a character. -/
def scanToken (conforming : Bool) (c : Char) (rest : List Char) : Option (Token × List Char) :=
  if c = '\'' then
    (scanString (!conforming) (rest.length + 1) rest).map fun found =>
      (.string (String.ofList found.1), found.2)
  else if c = 'E' ∧ rest.head? = some '\'' then
    (scanString true rest.length rest.tail).map fun found =>
      (.string (String.ofList found.1), found.2)
  else if c = '"' then
    (scanIdentifier rest).bind fun found =>
      if found.1 = [] then none
      else some (.identifier (String.ofList (keptName found.1)), found.2)
  else if c = ':' ∧ rest.head? = some ':' then some (.symbol "::", rest.tail)
  else if c.isDigit then
    some (.number (String.ofList (scanNumber (c :: rest)).1), (scanNumber (c :: rest)).2)
  else if continuesWord c then
    some (.word (String.ofList (((c :: rest).takeWhile continuesWord).map Char.toLower)),
      (c :: rest).dropWhile continuesWord)
  else some (.symbol (String.ofList [c]), rest)

/-- Read the first token of a text. -/
def scan (conforming : Bool) : Lexer := fun text =>
  match skipBlank false text with
  | [] => none
  | c :: rest => scanToken conforming c rest

/-! ## Documented behaviour -/

theorem scan_cons {conforming : Bool} {c : Char} {rest : List Char} (hspace : isSpace c = false)
    (hminus : c ≠ '-') : scan conforming (c :: rest) = scanToken conforming c rest := by
  have hskip : skipBlank false (c :: rest) = c :: rest := by
    unfold skipBlank
    rw [if_neg Bool.false_ne_true, if_neg (by rw [hspace]; exact Bool.false_ne_true), if_neg hminus]
  rw [scan, hskip]

/-- A quote after white space and comments is one that a string constant may go on with. -/
theorem gap_quote_some (comment newline : Bool) (rest : List Char) {tail : List Char}
    (h : gapQuote comment newline rest = some tail) :
    (comment = false → ∃ gap, Gap gap ∧ rest = gap ++ '\'' :: tail) ∧
      (comment = true → ∃ text c gap, (∀ d ∈ text, isNewline d = false) ∧ isNewline c ∧ Gap gap ∧
        rest = text ++ c :: (gap ++ '\'' :: tail)) := by
  induction hcount : rest.length using Nat.strongRecOn generalizing comment newline rest with
  | ind count ih =>
  cases rest with
  | nil => cases h
  | cons c rest =>
      rw [List.length_cons] at hcount
      unfold gapQuote at h
      split at h
      · next hcomment =>
          have hrest := ih rest.length (by omega) _ _ rest h rfl
          refine ⟨fun hnone => (by rw [hcomment] at hnone; cases hnone), fun _ => ?_⟩
          cases hnewline : isNewline c with
          | true =>
              obtain ⟨gap, hgap, hrest⟩ := hrest.1 (by rw [hnewline]; rfl)
              exact ⟨[], c, gap, List.forall_mem_nil _, hnewline, hgap, by rw [hrest]; rfl⟩
          | false =>
              obtain ⟨text, d, gap, htext, hd, hgap, hrest⟩ := hrest.2 (by rw [hnewline]; rfl)
              exact ⟨c :: text, d, gap, List.forall_mem_cons.2 ⟨hnewline, htext⟩, hd, hgap,
                by rw [hrest]; rfl⟩
      · next hcomment =>
          refine ⟨fun _ => ?_, fun h => absurd h hcomment⟩
          split at h
          · next hquote =>
              split at h
              · exact ⟨[], .nil, by rw [hquote, Option.some.inj h]; rfl⟩
              · cases h
          split at h
          · next hspace =>
              obtain ⟨gap, hgap, hrest⟩ := (ih rest.length (by omega) _ _ rest h rfl).1 rfl
              exact ⟨c :: gap, .space hspace hgap, by rw [hrest]; rfl⟩
          split at h
          · next hminus =>
              split at h
              · next after =>
                  rw [List.length_cons] at hcount
                  obtain ⟨text, d, gap, htext, hd, hgap, hrest⟩ :=
                    (ih after.length (by omega) _ _ after h rfl).2 rfl
                  refine ⟨'-' :: '-' :: text ++ d :: gap, .comment htext hd hgap, ?_⟩
                  rw [hminus, hrest]
                  simp only [List.cons_append, List.append_assoc]
              · cases h
          · cases h

/-- The body of a string constant is read as the string that it denotes. -/
theorem scan_string_body {escapes : Bool} {body value rest : List Char}
    (h : StringBody escapes body value) (hrest : ¬ Continues rest) :
    ∀ fuel, body.length < fuel →
      scanString escapes fuel (body ++ '\'' :: rest) = some (value, rest) := by
  induction h with
  | nil =>
      intro fuel hfuel
      obtain ⟨steps, rfl⟩ := Nat.exists_eq_succ_of_ne_zero (Nat.ne_of_gt hfuel)
      have hgap : gapQuote false false rest = none := by
        cases hfound : gapQuote false false rest with
        | none => rfl
        | some tail =>
            obtain ⟨gap, hgap, heq⟩ := (gap_quote_some false false rest hfound).1 rfl
            exact absurd ⟨gap, tail, hgap, heq⟩ hrest
      unfold scanString
      show (if '\'' = '\'' then _ else _) = _
      rw [if_pos rfl]
      split
      · next tail => exact absurd ⟨[], tail, .nil, rfl⟩ hrest
      · rw [hgap]
  | quote _ ih =>
      intro fuel hfuel
      obtain ⟨steps, rfl⟩ := Nat.exists_eq_succ_of_ne_zero (Nat.ne_of_gt (Nat.zero_lt_of_lt hfuel))
      simp only [List.length_cons] at hfuel
      unfold scanString
      show (scanString escapes steps (_ ++ '\'' :: rest)).map _ = _
      rw [ih steps (by omega)]
      rfl
  | backslash hescapes _ ih =>
      intro fuel hfuel
      obtain ⟨steps, rfl⟩ := Nat.exists_eq_succ_of_ne_zero (Nat.ne_of_gt (Nat.zero_lt_of_lt hfuel))
      simp only [List.length_cons] at hfuel
      have hquote : ¬ ('\\' : Char) = '\'' := by decide
      unfold scanString
      dsimp only [List.cons_append]
      rw [if_neg hquote, if_pos ⟨hescapes, rfl⟩, ih steps (by omega)]
      rfl
  | plain hquote hnul hslash _ ih =>
      intro fuel hfuel
      obtain ⟨steps, rfl⟩ := Nat.exists_eq_succ_of_ne_zero (Nat.ne_of_gt (Nat.zero_lt_of_lt hfuel))
      simp only [List.length_cons] at hfuel
      unfold scanString
      dsimp only [List.cons_append]
      rw [if_neg hquote, if_neg (fun h => hslash h.1 h.2), if_neg hnul, ih steps (by omega)]
      rfl

/-- The body of a quoted name is read as the name. -/
theorem scan_identifier_body {body name rest : List Char} (h : IdentifierBody body name)
    (hrest : ∀ tail, rest ≠ '"' :: tail) :
    scanIdentifier (body ++ '"' :: rest) = some (name, rest) := by
  induction h with
  | nil =>
      unfold scanIdentifier
      show (if '"' = '"' then _ else _) = _
      rw [if_pos rfl]
      split
      · next tail => exact absurd rfl (hrest tail)
      · rfl
  | quote _ ih =>
      unfold scanIdentifier
      show (scanIdentifier (_ ++ '"' :: rest)).map _ = _
      rw [ih]
      rfl
  | plain hquote hnul _ ih =>
      unfold scanIdentifier
      dsimp only [List.cons_append]
      rw [if_neg hquote, if_neg hnul, ih]
      rfl

/-- Characters that a predicate holds of are split off before one of which it does not. -/
theorem span_append {p : Char → Bool} {text rest : List Char} (htext : ∀ c ∈ text, p c)
    (hrest : ∀ c tail, rest = c :: tail → p c = false) :
    (text ++ rest).takeWhile p = text ∧ (text ++ rest).dropWhile p = rest := by
  rw [List.takeWhile_append_of_pos htext, List.dropWhile_append_of_pos htext]
  cases rest with
  | nil => exact ⟨List.append_nil text, rfl⟩
  | cons c tail =>
      have hc : ¬ p c = true := by
        rw [hrest c tail rfl]
        exact Bool.false_ne_true
      rw [List.takeWhile_cons_of_neg hc, List.dropWhile_cons_of_neg hc]
      exact ⟨List.append_nil text, rfl⟩

theorem continues_word_of_digit {c : Char} (h : c.isDigit) : continuesWord c := by
  simp only [continuesWord, Char.isAlphanum, h, Bool.or_true, Bool.true_or]

theorem continues_word_of_alpha {c : Char} (h : c.isAlpha) : continuesWord c := by
  simp only [continuesWord, Char.isAlphanum, h, Bool.true_or]

/-- No digit, point or exponent follows a number that ends. -/
theorem number_end {rest : List Char}
    (h : ∀ c tail, rest = c :: tail → continuesWord c = false ∧ c ≠ '.') :
    (∀ c tail, rest = c :: tail → c.isDigit = false) ∧ scanFraction rest = ([], rest) ∧
      scanExponent rest = ([], rest) := by
  cases rest with
  | nil => exact ⟨fun c tail heq => (by cases heq), rfl, rfl⟩
  | cons c tail =>
      obtain ⟨hword, hpoint⟩ := h c tail rfl
      have hdigit : c.isDigit = false := by
        cases hc : c.isDigit with
        | false => rfl
        | true =>
            rw [continues_word_of_digit hc] at hword
            cases hword
      have hexponent : c ≠ 'e' := by
        rintro rfl
        exact absurd hword (by decide)
      refine ⟨fun d _ heq => ?_, ?_, ?_⟩
      · cases heq
        exact hdigit
      · unfold scanFraction
        split
        · next heq => exact absurd (List.cons.inj heq).1 hpoint
        · rfl
      · unfold scanExponent
        split
        · next heq => exact absurd (List.cons.inj heq).1 hexponent
        · next heq => exact absurd (List.cons.inj heq).1 hexponent
        · rfl

/-- An exponent is read as it is written. -/
theorem scan_exponent_append {exponent rest : List Char} (h : Exponent exponent)
    (hrest : ∀ c tail, rest = c :: tail → continuesWord c = false ∧ c ≠ '.') :
    scanExponent (exponent ++ rest) = (exponent, rest) := by
  obtain ⟨hdigit, -, hnone⟩ := number_end hrest
  cases h with
  | none => exact hnone
  | @positive digits hdigits =>
      obtain ⟨htake, hdrop⟩ := span_append hdigits.2 hdigit
      cases digits with
      | nil => exact absurd rfl hdigits.1
      | cons d digits =>
          have hminus : d ≠ '-' := by
            rintro rfl
            exact absurd (hdigits.2 _ List.mem_cons_self) (by decide)
          unfold scanExponent
          split
          · next heq => exact absurd (List.cons.inj (List.cons.inj heq).2).1 hminus
          · next heq =>
              rw [← (List.cons.inj heq).2]
              show ('e' :: (d :: digits ++ rest).takeWhile _, (d :: digits ++ rest).dropWhile _) = _
              rw [htake, hdrop]
          · next hother => exact absurd rfl (hother _)
  | @negative digits hdigits =>
      obtain ⟨htake, hdrop⟩ := span_append hdigits.2 hdigit
      show ('e' :: '-' :: (digits ++ rest).takeWhile _, (digits ++ rest).dropWhile _) = _
      rw [htake, hdrop]

/-- Neither a digit nor a point comes after a fraction. -/
theorem exponent_append_head {exponent rest : List Char} (h : Exponent exponent)
    (hrest : ∀ c tail, rest = c :: tail → continuesWord c = false ∧ c ≠ '.') :
    ∀ c tail, exponent ++ rest = c :: tail → c.isDigit = false ∧ c ≠ '.' := by
  intro c tail heq
  cases h with
  | none => exact ⟨(number_end hrest).1 c tail heq, (hrest c tail heq).2⟩
  | positive =>
      cases heq
      exact ⟨rfl, by decide⟩
  | negative =>
      cases heq
      exact ⟨rfl, by decide⟩

/-- A fraction is read as it is written. -/
theorem scan_fraction_append {fraction after : List Char} (h : Fraction fraction)
    (hafter : ∀ c tail, after = c :: tail → c.isDigit = false ∧ c ≠ '.') :
    scanFraction (fraction ++ after) = (fraction, after) := by
  cases h with
  | none =>
      unfold scanFraction
      split
      · next heq => exact absurd rfl (hafter _ _ heq).2
      · rfl
  | @some digits hdigits =>
      obtain ⟨htake, hdrop⟩ := span_append hdigits.2 fun c tail heq => (hafter c tail heq).1
      show ('.' :: (digits ++ after).takeWhile _, (digits ++ after).dropWhile _) = _
      rw [htake, hdrop]

/-- A numeric constant is read as it is written. -/
theorem scan_number_constant {text rest : List Char} (h : NumericConstant text)
    (hrest : ∀ c tail, rest = c :: tail → continuesWord c = false ∧ c ≠ '.') :
    scanNumber (text ++ rest) = (text, rest) := by
  cases h with
  | @mk whole fraction exponent hwhole hfraction hexponent =>
      have hafter := exponent_append_head hexponent hrest
      have hpoint : ∀ c tail, fraction ++ (exponent ++ rest) = c :: tail → c.isDigit = false := by
        intro c tail heq
        cases hfraction with
        | none => exact (hafter c tail heq).1
        | some =>
            cases heq
            rfl
      obtain ⟨htake, hdrop⟩ := span_append hwhole.2 hpoint
      rw [List.append_assoc, List.append_assoc, scanNumber, htake, hdrop,
        scan_fraction_append hfraction hafter]
      dsimp only
      rw [scan_exponent_append hexponent hrest, List.append_assoc]

/-- The code of an ASCII letter. -/
theorem alpha_code {c : Char} (h : c.isAlpha) :
    (65 ≤ c.toNat ∧ c.toNat ≤ 90) ∨ (97 ≤ c.toNat ∧ c.toNat ≤ 122) := by
  delta Char.isAlpha Char.isUpper Char.isLower at h
  simp only [Bool.or_eq_true, Bool.and_eq_true, decide_eq_true_eq, UInt32.le_iff_toNat_le] at h
  exact h

/-- The code of a decimal digit. -/
theorem digit_code {c : Char} (h : c.isDigit) : 48 ≤ c.toNat ∧ c.toNat ≤ 57 := by
  delta Char.isDigit at h
  simp only [Bool.and_eq_true, decide_eq_true_eq, UInt32.le_iff_toNat_le] at h
  exact h

/-- A character of another code is another character. -/
theorem ne_of_code {c d : Char} (h : c.toNat ≠ d.toNat) : c ≠ d := fun heq => h (heq ▸ rfl)

theorem not_space_of_code {c : Char} (h : 32 < c.toNat) : isSpace c = false := by
  have hne : ∀ d : Char, d.toNat ≤ 32 → ¬ c = d := by
    rintro d hd rfl
    omega
  simp only [isSpace, hne ' ' (by decide), hne '\t' (by decide), hne '\n' (by decide),
    hne '\r' (by decide), hne '\x0b' (by decide), hne '\x0c' (by decide), decide_false,
    Bool.or_self]

/-- A word starts with none of the characters that start other tokens. -/
theorem alpha_starts_word {c : Char} (h : c.isAlpha) :
    isSpace c = false ∧ c ≠ '-' ∧ c ≠ '\'' ∧ c ≠ '"' ∧ c ≠ ':' ∧ ¬ c.isDigit = true := by
  have hcode := alpha_code h
  have hne : ∀ d : Char, d.toNat < 65 → c ≠ d := fun d hd => ne_of_code (by omega)
  refine ⟨not_space_of_code (by omega), hne _ (by decide), hne _ (by decide), hne _ (by decide),
    hne _ (by decide), fun hdigit => ?_⟩
  have := digit_code hdigit
  omega

/-- A digit starts a number and nothing else. -/
theorem digit_starts_number {c : Char} (h : c.isDigit) :
    isSpace c = false ∧ c ≠ '-' ∧ c ≠ '\'' ∧ c ≠ 'E' ∧ c ≠ '"' ∧ c ≠ ':' := by
  have hcode := digit_code h
  have hne : ∀ d : Char, d.toNat < 48 ∨ 57 < d.toNat → c ≠ d := fun d hd => ne_of_code (by omega)
  exact ⟨not_space_of_code (by omega), hne _ (by decide), hne _ (by decide), hne _ (by decide),
    hne _ (by decide), hne _ (by decide)⟩

/-- The lexer behaves as documented, under both settings. -/
theorem scan_documented (conforming : Bool) : Documented conforming (scan conforming) where
  blank text := by
    have hskip : skipBlank false (' ' :: text) = skipBlank false text := by
      have hspace : isSpace ' ' = true := by decide
      rw [skipBlank.eq_def]
      simp only [Bool.false_eq_true, if_false, hspace, if_true]
    rw [scan, scan, hskip]
  string body value rest hbody hrest := by
    have hfuel : body.length < (body ++ '\'' :: rest).length + 1 := by
      rw [List.length_append]
      omega
    rw [List.cons_append, scan_cons (by decide) (by decide), scanToken, if_pos rfl,
      scan_string_body hbody hrest _ hfuel]
    rfl
  escape_string body value rest hbody hrest := by
    have hfuel : body.length < ('\'' :: (body ++ '\'' :: rest)).length := by
      rw [List.length_cons, List.length_append]
      omega
    rw [List.cons_append, List.cons_append, scan_cons (by decide) (by decide), scanToken,
      if_neg (by decide), if_pos ⟨rfl, rfl⟩, List.tail_cons, scan_string_body hbody hrest _ hfuel]
    rfl
  number text rest htext hrest := by
    have hnumber := scan_number_constant htext hrest
    cases htext with
    | @mk whole fraction exponent hwhole hfraction hexponent =>
        obtain ⟨c, digits, rfl⟩ := List.exists_cons_of_ne_nil hwhole.1
        have hc : c.isDigit := hwhole.2 c List.mem_cons_self
        obtain ⟨hspace, hminus, hquote, hmark, hdouble, hcolon⟩ := digit_starts_number hc
        simp only [List.cons_append] at hnumber ⊢
        rw [scan_cons hspace hminus, scanToken, if_neg hquote, if_neg fun h => hmark h.1,
          if_neg hdouble, if_neg fun h => hcolon h.1, if_pos hc, hnumber]
  minus c rest hc := by
    have hminus : c ≠ '-' := (digit_starts_number hc).2.1
    have hskip : skipBlank false ('-' :: c :: rest) = '-' :: c :: rest := by
      have hspace : isSpace '-' = false := by decide
      rw [skipBlank.eq_def]
      simp only [Bool.false_eq_true, if_false, hspace, if_true]
      split
      · next heq => exact absurd (List.cons.inj heq).1 hminus
      · rfl
    rw [scan, hskip]
    rfl
  word text rest htext hrest := by
    obtain ⟨hlength, hall⟩ := htext
    have hspan := span_append (fun c hc => continues_word_of_alpha (hall c hc)) hrest
    cases text with
    | nil => cases hlength
    | cons c text =>
        obtain ⟨hspace, hminus, hquote, hdouble, hcolon, hdigit⟩ :=
          alpha_starts_word (hall c List.mem_cons_self)
        have hmark : ¬ (c = 'E' ∧ (text ++ rest).head? = some '\'') := by
          rintro ⟨-, hhead⟩
          cases text with
          | nil => exact absurd hlength (Nat.not_succ_le_self 1)
          | cons d text =>
              cases hhead
              exact absurd (hall '\'' (by simp)) (by decide)
        obtain ⟨htake, hdrop⟩ := hspan
        simp only [List.cons_append] at htake hdrop ⊢
        rw [scan_cons hspace hminus, scanToken, if_neg hquote, if_neg hmark, if_neg hdouble,
          if_neg fun h => hcolon h.1, if_neg hdigit,
          if_pos (continues_word_of_alpha (hall c List.mem_cons_self)), htake, hdrop]
  identifier body name rest hbody hname hrest := by
    have hsome : name ≠ [] := by
      rintro rfl
      exact hname.1 rfl
    have hkept : keptName name = name := if_pos hname.2
    rw [List.cons_append, scan_cons (by decide) (by decide), scanToken, if_neg (by decide),
      if_neg (fun h => absurd h.1 (by decide)), if_pos rfl, scan_identifier_body hbody hrest]
    show (if name = [] then none else _) = _
    rw [if_neg hsome, hkept]
  symbol c rest hc := by
    rcases hc with rfl | rfl | rfl
    · rw [scan_cons (by decide) (by decide)]
      rfl
    · rw [scan_cons (by decide) (by decide)]
      rfl
    · rw [scan_cons (by decide) (by decide)]
      rfl
  cast rest := by
    rw [scan_cons (by decide) (by decide)]
    rfl

end PgDurable.SqlLexer
