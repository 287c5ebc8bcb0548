import PgDurable.Library.Json.Raw

/-!
# Arrays and objects of texts

`splitArray` and `splitObject` cut an array or an object into the texts of its items or members, and
`writeArray` and `writeObject` put such texts together. What is put together ends with its value
(`write_object_closed`) and is cut into its parts again (`split_object_write`).
-/

namespace PgDurable.Json

/-! ## Writing -/

/-- The items after the first one, up to the closing bracket. -/
def writeItems : List ClosedText → List Char
  | [] => [']']
  | item :: rest => ',' :: item.text ++ writeItems rest

/-- An array of texts. -/
def writeArray : List ClosedText → List Char
  | [] => ['[', ']']
  | item :: rest => '[' :: item.text ++ writeItems rest

/-- The members after the first one, up to the closing brace. -/
def writeMembers : List (String × ClosedText) → List Char
  | [] => ['\x7d']
  | (key, value) :: rest => ',' :: printString key ++ ':' :: value.text ++ writeMembers rest

/-- An object with texts as its members. -/
def writeObject : List (String × ClosedText) → List Char
  | [] => ['\x7b', '\x7d']
  | (key, value) :: rest => '\x7b' :: printString key ++ ':' :: value.text ++ writeMembers rest

theorem write_members_cons (key : String) (value : ClosedText)
    (rest : List (String × ClosedText)) :
    writeMembers ((key, value) :: rest) =
      ',' :: (printString key ++ ':' :: (value.text ++ writeMembers rest)) := by
  simp [writeMembers]

theorem write_object_cons (key : String) (value : ClosedText)
    (rest : List (String × ClosedText)) :
    writeObject ((key, value) :: rest) =
      '\x7b' :: (printString key ++ ':' :: (value.text ++ writeMembers rest)) := by
  simp [writeObject]

/-! ## Reading -/

/-- Read the items after the first one, up to the closing bracket. -/
def splitItems : Nat → List Char → Option (List RawValue × List Char)
  | 0, _ => none
  | fuel + 1, cs =>
      match skipSpace cs with
      | ']' :: rest => some ([], rest)
      | ',' :: rest => do
          let (item, rest) ← takeValue rest
          let (items, rest) ← splitItems fuel rest
          pure (item :: items, rest)
      | _ => none

/-- The items of an array. -/
def splitArray (cs : List Char) : Option (List RawValue) :=
  match skipSpace cs with
  | '[' :: rest =>
      match skipSpace rest with
      | ']' :: rest => if (skipSpace rest).isEmpty then some [] else none
      | rest => do
          let (item, rest) ← takeValue rest
          let (items, rest) ← splitItems (rest.length + 1) rest
          if (skipSpace rest).isEmpty then some (item :: items) else none
  | _ => none

/-- Read one member: its name, a colon and the text of its value. -/
def splitMember (cs : List Char) : Option ((String × RawValue) × List Char) :=
  match skipSpace cs with
  | '"' :: rest => do
      let (key, rest) ← parseString (rest.length + 1) rest
      match skipSpace rest with
      | ':' :: rest => do
          let (value, rest) ← takeValue rest
          pure ((String.ofList key, value), rest)
      | _ => none
  | _ => none

/-- Read the members after the first one, up to the closing brace. -/
def splitMembers : Nat → List Char → Option (List (String × RawValue) × List Char)
  | 0, _ => none
  | fuel + 1, cs =>
      match skipSpace cs with
      | '\x7d' :: rest => some ([], rest)
      | ',' :: rest => do
          let (member, rest) ← splitMember rest
          let (members, rest) ← splitMembers fuel rest
          pure (member :: members, rest)
      | _ => none

/-- The members of an object, in order and with every repetition. -/
def splitObject (cs : List Char) : Option (List (String × RawValue)) :=
  match skipSpace cs with
  | '\x7b' :: rest =>
      match skipSpace rest with
      | '\x7d' :: rest => if (skipSpace rest).isEmpty then some [] else none
      | rest => do
          let (member, rest) ← splitMember rest
          let (members, rest) ← splitMembers (rest.length + 1) rest
          if (skipSpace rest).isEmpty then some (member :: members) else none
  | _ => none

/-- The string that a text writes. -/
def RawValue.asString (value : RawValue) : Option String :=
  match value.text with
  | '"' :: rest =>
      match parseString (rest.length + 1) rest with
      | some (text, []) => some (String.ofList text)
      | _ => none
  | _ => none

/-- The text is `null`. -/
def RawValue.isNull (value : RawValue) : Bool := value.text == "null".toList

/-! ## Written texts end with their value -/

variable {key : Bool} {stack : List Frame}

/-- A step of a text that has not ended. -/
theorem closes_next {mode mode' : Mode} {stack' : List Frame} {c : Char}
    (h : step mode stack c = .next mode' stack') (more : List Char) :
    closes mode stack (c :: more) = closes mode' stack' more := by
  rw [closes, h]

theorem hex_digit_value : ∀ n < 16, (hexValue (hexDigit n)).isSome = true := by decide

theorem step_unicode {digit : Char} (h : (hexValue digit).isSome = true) (left : Nat) :
    step (.unicode key (left + 1)) stack digit = .next (.unicode key left) stack := by
  rw [step, if_pos h]

theorem step_unicode_last {digit : Char} (h : (hexValue digit).isSome = true) :
    step (.unicode key 0) stack digit = .next (.string key) stack := by
  rw [step, if_pos h]

theorem closes_unicode {high low : Nat} (hhigh : high < 16) (hlow : low < 16)
    (more : List Char) :
    closes (.string key) stack
        ('\\' :: 'u' :: '0' :: '0' :: hexDigit high :: hexDigit low :: more) =
      closes (.string key) stack more := by
  have hzero : (hexValue '0').isSome = true := rfl
  have hslash : step (.string key) stack '\\' = .next (.escape key) stack := rfl
  have hunicode : step (.escape key) stack 'u' = .next (.unicode key 3) stack := rfl
  rw [closes_next hslash, closes_next hunicode, closes_next (step_unicode hzero 2),
    closes_next (step_unicode hzero 1), closes_next (step_unicode (hex_digit_value high hhigh) 0),
    closes_next (step_unicode_last (hex_digit_value low hlow))]

/-- A written character stays inside of its string. -/
theorem closes_escape (c : Char) (more : List Char) :
    closes (.string key) stack (escapeChar c ++ more) = closes (.string key) stack more := by
  unfold escapeChar
  cases hshort : shortEscape c with
  | some letter =>
      obtain ⟨hsimple, hletter⟩ := simple_escape_short hshort
      have hslash : step (.string key) stack '\\' = .next (.escape key) stack := rfl
      have hescape : step (.escape key) stack letter = .next (.string key) stack := by
        rw [step, if_neg hletter, hsimple]
        rfl
      show closes (.string key) stack ('\\' :: letter :: more) = _
      rw [closes_next hslash, closes_next hescape]
  | none =>
      obtain ⟨hquote, hslash⟩ := plain_of_short_escape_none hshort
      dsimp only
      by_cases hcontrol : c.toNat < 0x20
      · rw [if_pos hcontrol]
        exact closes_unicode (by omega) (by omega) more
      · rw [if_neg hcontrol]
        have hstep : step (.string key) stack c = .next (.string key) stack := by
          rw [step, if_neg hquote, if_neg hslash, if_neg hcontrol]
        exact closes_next hstep more

theorem closes_text (text more : List Char) :
    closes (.string key) stack (text.flatMap escapeChar ++ more) =
      closes (.string key) stack more := by
  induction text with
  | nil => rfl
  | cons c text ih => rw [List.flatMap_cons, List.append_assoc, closes_escape, ih]

theorem print_string_closed (s : String) : Closed (printString s) where
  closes := by
    have hopen : step .value [] '"' = .next (.string false) [] := rfl
    show closes .value [] ('"' :: (s.toList.flatMap escapeChar ++ ['"'])) = true
    rw [closes_next hopen, closes_text]
    rfl
  head := by
    intro c hc
    cases hc
    rfl

/-- A string literal. -/
def ClosedText.string (s : String) : ClosedText := ⟨printString s, print_string_closed s⟩

/-- A value inside of something else leaves it open. -/
theorem closes_value (value : ClosedText) (frame : Frame) (more : List Char) :
    closes .value [frame] (value.text ++ more) = closes .after [frame] more :=
  closes_within (List.cons_ne_nil _ _) value.closed.closes more

theorem closes_items (items : List ClosedText) :
    closes .after [.array] (writeItems items) = true := by
  induction items with
  | nil => rfl
  | cons item items ih =>
      have hcomma : step .after [.array] ',' = .next .value [.array] := rfl
      show closes .after [.array] (',' :: (item.text ++ writeItems items)) = true
      rw [closes_next hcomma, closes_value, ih]

/-- The first item of an array is read like a value. -/
theorem closes_first (value : ClosedText) (more : List Char)
    (h : value.text.head? ≠ some ']') :
    closes .valueOrClose [.array] (value.text ++ more) =
      closes .value [.array] (value.text ++ more) := by
  obtain ⟨text, hcloses, hhead⟩ := value
  cases text with
  | nil => cases hcloses
  | cons c text =>
      have hspace : isSpace c = false := hhead c rfl
      have hbracket : c ≠ ']' := fun heq => h (congrArg some heq)
      have hstep : step .valueOrClose [.array] c = step .value [.array] c := by
        rw [step, step, hspace, if_neg hbracket]
        rfl
      show closes .valueOrClose [.array] (c :: (text ++ more)) =
        closes .value [.array] (c :: (text ++ more))
      rw [closes, closes, hstep]

theorem ClosedText.head_ne_bracket (value : ClosedText) : value.text.head? ≠ some ']' := by
  obtain ⟨text, hcloses, hhead⟩ := value
  cases text with
  | nil => exact fun h => (by cases h)
  | cons c text =>
      intro h
      cases h
      cases hcloses

theorem write_array_closed (items : List ClosedText) : Closed (writeArray items) where
  closes := by
    cases items with
    | nil => rfl
    | cons item items =>
        have hopen : step .value [] '[' = .next .valueOrClose [.array] := rfl
        show closes .value [] ('[' :: (item.text ++ writeItems items)) = true
        rw [closes_next hopen, closes_first item _ item.head_ne_bracket, closes_value,
          closes_items]
  head := by
    intro c hc
    cases items <;> (cases hc; rfl)

/-- An array of texts. -/
def ClosedText.array (items : List ClosedText) : ClosedText :=
  ⟨writeArray items, write_array_closed items⟩

/-- A member behind the place where its name is expected. -/
theorem closes_member (mode : Mode)
    (hmode : step mode [.object] '"' = .next (.string true) [.object]) (name : String)
    (value : ClosedText) (more : List Char) :
    closes mode [.object] (printString name ++ ':' :: (value.text ++ more)) =
      closes .after [.object] more := by
  have hquote : step (.string true) [.object] '"' = .next .colon [.object] := rfl
  have hcolon : step .colon [.object] ':' = .next .value [.object] := rfl
  rw [print_string_append, closes_next hmode, closes_text, closes_next hquote,
    closes_next hcolon, closes_value]

theorem closes_members (members : List (String × ClosedText)) :
    closes .after [.object] (writeMembers members) = true := by
  induction members with
  | nil => rfl
  | cons member members ih =>
      obtain ⟨name, value⟩ := member
      have hcomma : step .after [.object] ',' = .next .member [.object] := rfl
      have hmember := closes_member .member rfl name value (writeMembers members)
      rw [write_members_cons, closes_next hcomma, hmember, ih]

theorem write_object_closed (members : List (String × ClosedText)) :
    Closed (writeObject members) where
  closes := by
    cases members with
    | nil => rfl
    | cons member members =>
        obtain ⟨name, value⟩ := member
        have hopen : step .value [] '\x7b' = .next .memberOrClose [.object] := rfl
        have hmember := closes_member .memberOrClose rfl name value
          (writeMembers members)
        rw [write_object_cons, closes_next hopen, hmember, closes_members]
  head := by
    intro c hc
    cases members <;> (cases hc; rfl)

/-- An object with texts as its members. -/
def RawObject.ofMembers (members : List (String × ClosedText)) : RawObject where
  text := writeObject members
  closed := write_object_closed members
  opens := by cases members <;> rfl

/-! ## Written texts are cut into their parts -/

theorem split_items_write (items : List ClosedText) (fuel : Nat)
    (h : (writeItems items).length ≤ fuel) :
    splitItems fuel (writeItems items) = some (items.map ClosedText.value, []) := by
  induction items generalizing fuel with
  | nil =>
      cases fuel with
      | zero => exact absurd h (by simp [writeItems])
      | succ fuel => rfl
  | cons item items ih =>
      cases fuel with
      | zero => exact absurd h (by simp [writeItems])
      | succ fuel =>
          have hlength : (writeItems items).length ≤ fuel := by
            simp only [writeItems, List.cons_append, List.length_cons, List.length_append] at h
            omega
          rw [writeItems, List.cons_append, splitItems, skip_space_cons (by decide)]
          simp only [item.take_value, ih fuel hlength, Option.bind_eq_bind, Option.bind_some]
          rfl

/-- A written array is cut into its items. -/
theorem split_array_write (items : List ClosedText) :
    splitArray (writeArray items) = some (items.map ClosedText.value) := by
  cases items with
  | nil => rfl
  | cons item items =>
      have hbracket := item.head_ne_bracket
      have htake := item.take_value (writeItems items)
      have hitems := split_items_write items ((writeItems items).length + 1) (by omega)
      rw [writeArray, List.cons_append, splitArray, skip_space_cons (by decide)]
      obtain ⟨text, hclosed⟩ := item
      cases text with
      | nil => cases hclosed.closes
      | cons c text =>
          have hspace : isSpace c = false := hclosed.head c rfl
          have hne : c ≠ ']' := fun heq => hbracket (congrArg some heq)
          dsimp only at htake ⊢
          rw [List.cons_append] at htake ⊢
          simp only [skip_space_cons hspace]
          split
          · next heq => exact absurd (List.cons.inj heq).1 hne
          · simp only [htake, hitems, Option.bind_eq_bind, Option.bind_some]
            rfl

theorem split_member_write (name : String) (value : ClosedText) (more : List Char) :
    splitMember (printString name ++ ':' :: (value.text ++ more)) =
      some ((name, value.value), more) := by
  rw [print_string_append, splitMember, skip_space_cons (by decide)]
  simp only [parse_string_literal, Option.bind_eq_bind, Option.bind_some,
    skip_space_cons (show isSpace ':' = false by decide), value.take_value, String.ofList_toList]
  rfl

theorem split_members_write (members : List (String × ClosedText)) (fuel : Nat)
    (h : (writeMembers members).length ≤ fuel) :
    splitMembers fuel (writeMembers members) =
      some (members.map fun member => (member.1, member.2.value), []) := by
  induction members generalizing fuel with
  | nil =>
      cases fuel with
      | zero => exact absurd h (by simp [writeMembers])
      | succ fuel => rfl
  | cons member members ih =>
      obtain ⟨name, value⟩ := member
      cases fuel with
      | zero => exact absurd h (by simp [writeMembers])
      | succ fuel =>
          have hlength : (writeMembers members).length ≤ fuel := by
            simp only [writeMembers, List.cons_append, List.length_cons, List.length_append] at h
            omega
          rw [write_members_cons, splitMembers, skip_space_cons (by decide)]
          simp only [split_member_write, ih fuel hlength, Option.bind_eq_bind, Option.bind_some]
          rfl

/-- A written object is cut into its members. -/
theorem split_object_write (members : List (String × ClosedText)) :
    splitObject (writeObject members) =
      some (members.map fun member => (member.1, member.2.value)) := by
  cases members with
  | nil => rfl
  | cons member members =>
      obtain ⟨name, value⟩ := member
      have hmember := split_member_write name value (writeMembers members)
      have hmembers := split_members_write members ((writeMembers members).length + 1) (by omega)
      rw [write_object_cons, splitObject, skip_space_cons (by decide)]
      rw [print_string_append] at hmember ⊢
      simp only [skip_space_cons (show isSpace '"' = false by decide)]
      split
      · next heq => exact absurd (List.cons.inj heq).1 (by decide)
      · simp only [hmember, hmembers, Option.bind_eq_bind, Option.bind_some]
        rfl

@[simp] theorem as_string_value (s : String) :
    (ClosedText.string s).value.asString = some s := by
  have hparse := parse_string_literal s []
  have htext : (ClosedText.string s).value.text = '"' :: (s.toList.flatMap escapeChar ++ ['"']) :=
    rfl
  rw [RawValue.asString, htext]
  simp only [hparse, String.ofList_toList]

@[simp] theorem string_not_null (s : String) : (ClosedText.string s).value.isNull = false := by
  rfl

@[simp] theorem object_not_null (object : RawObject) : object.value.isNull = false := by
  obtain ⟨⟨text, hclosed⟩, hopens⟩ := object
  cases text with
  | nil => cases hopens
  | cons c text =>
      cases hopens
      rfl

end PgDurable.Json
