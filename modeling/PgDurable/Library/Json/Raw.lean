import PgDurable.Library.Json.RoundTrip

/-!
# Values that are kept as text

A reader may keep a member of an object as the text that is written there, and read that text later
on its own. `step` passes over a value one character at a time with a stack of the arrays and
objects that are open; unlike `parse` it has no limit on nesting, and it looks at no surrogates.

`Closed` texts are those that end with the value: strings, arrays and objects.
`Closed.take` says that such a text is cut out again wherever it is written, and `closes_within`
that it can be a part of another one.
-/

namespace PgDurable.Json

/-! ## One character -/

/-- What is open around a value. -/
inductive Frame where
  | array
  | object
  deriving DecidableEq

/-- What is expected next. `key` is whether a string is the name of a member. -/
inductive Mode where
  | value
  | valueOrClose
  | memberOrClose
  | member
  | colon
  | after
  | string (key : Bool)
  | escape (key : Bool)
  | unicode (key : Bool) (more : Nat)
  | literal (c : Char) (rest : List Char)
  | minus
  | zero
  | whole
  | point
  | fraction
  | exponent
  | exponentSign
  | exponentDigits
  deriving DecidableEq

/-- What a character does: go on, end the value with it or in front of it, or fail. -/
inductive Step where
  | next (mode : Mode) (stack : List Frame)
  | last
  | before
  | fail
  deriving DecidableEq

/-- A value has ended. -/
def close : List Frame → Step
  | [] => .last
  | frame :: stack => .next .after (frame :: stack)

/-- The innermost array or object has ended. -/
def closeTop : List Frame → Step
  | [] => .fail
  | _ :: stack => close stack

/-- Behind a value in an array or an object. -/
def stepAfter (c : Char) : List Frame → Step
  | [] => .fail
  | frame :: stack =>
      if isSpace c then .next .after (frame :: stack)
      else match frame with
        | .array =>
            if c = ',' then .next .value (frame :: stack)
            else if c = ']' then close stack
            else .fail
        | .object =>
            if c = ',' then .next .member (frame :: stack)
            else if c = '\x7d' then close stack
            else .fail

/-- The first character of a value. -/
def stepValue (c : Char) (stack : List Frame) : Step :=
  if c = '"' then .next (.string false) stack
  else if c = '[' then .next .valueOrClose (.array :: stack)
  else if c = '\x7b' then .next .memberOrClose (.object :: stack)
  else if c = 'n' then .next (.literal 'u' ['l', 'l']) stack
  else if c = 't' then .next (.literal 'r' ['u', 'e']) stack
  else if c = 'f' then .next (.literal 'a' ['l', 's', 'e']) stack
  else if c = '-' then .next .minus stack
  else if c = '0' then .next .zero stack
  else if c.isDigit then .next .whole stack
  else .fail

/-- A character that does not continue a number. -/
def stepNumberEnd (c : Char) : List Frame → Step
  | [] => .before
  | frame :: stack => stepAfter c (frame :: stack)

/-- Behind the digits in front of a point. -/
def stepWhole (c : Char) (stack : List Frame) : Step :=
  if c = '.' then .next .point stack
  else if c = 'e' ∨ c = 'E' then .next .exponent stack
  else stepNumberEnd c stack

def step (mode : Mode) (stack : List Frame) (c : Char) : Step :=
  match mode with
  | .value => if isSpace c then .next .value stack else stepValue c stack
  | .valueOrClose =>
      if isSpace c then .next .valueOrClose stack
      else if c = ']' then closeTop stack
      else stepValue c stack
  | .memberOrClose =>
      if isSpace c then .next .memberOrClose stack
      else if c = '\x7d' then closeTop stack
      else if c = '"' then .next (.string true) stack
      else .fail
  | .member =>
      if isSpace c then .next .member stack
      else if c = '"' then .next (.string true) stack
      else .fail
  | .colon =>
      if isSpace c then .next .colon stack
      else if c = ':' then .next .value stack
      else .fail
  | .after => stepAfter c stack
  | .string key =>
      if c = '"' then if key then .next .colon stack else close stack
      else if c = '\\' then .next (.escape key) stack
      else if c.toNat < 0x20 then .fail
      else .next (.string key) stack
  | .escape key =>
      if c = 'u' then .next (.unicode key 3) stack
      else if (simpleEscape c).isSome then .next (.string key) stack
      else .fail
  | .unicode key more =>
      if (hexValue c).isSome then
        match more with
        | 0 => .next (.string key) stack
        | more + 1 => .next (.unicode key more) stack
      else .fail
  | .literal expected rest =>
      if c = expected then
        match rest with
        | [] => close stack
        | expected :: rest => .next (.literal expected rest) stack
      else .fail
  | .minus =>
      if c = '0' then .next .zero stack
      else if c.isDigit then .next .whole stack
      else .fail
  | .zero => if c.isDigit then .fail else stepWhole c stack
  | .whole => if c.isDigit then .next .whole stack else stepWhole c stack
  | .point => if c.isDigit then .next .fraction stack else .fail
  | .fraction =>
      if c.isDigit then .next .fraction stack
      else if c = 'e' ∨ c = 'E' then .next .exponent stack
      else stepNumberEnd c stack
  | .exponent =>
      if c = '+' ∨ c = '-' then .next .exponentSign stack
      else if c.isDigit then .next .exponentDigits stack
      else .fail
  | .exponentSign => if c.isDigit then .next .exponentDigits stack else .fail
  | .exponentDigits =>
      if c.isDigit then .next .exponentDigits stack else stepNumberEnd c stack

/-- A number may end with the text. -/
def Mode.mayEnd : Mode → Bool
  | .zero | .whole | .fraction | .exponentDigits => true
  | _ => false

/-! ## A value -/

/-- Cut the rest of a value off a text. -/
def scan : Mode → List Frame → List Char → Option (List Char × List Char)
  | mode, stack, [] => if mode.mayEnd && stack.isEmpty then some ([], []) else none
  | mode, stack, c :: text =>
      match step mode stack c with
      | .next mode stack => (scan mode stack text).map fun (raw, rest) => (c :: raw, rest)
      | .last => some ([c], text)
      | .before => some ([], c :: text)
      | .fail => none

/-- Cut a value off a text, without the white space in front of it. -/
def takeRaw (text : List Char) : Option (List Char × List Char) := scan .value [] (skipSpace text)

/-- The text ends with the character that ends the value. -/
def closes : Mode → List Frame → List Char → Bool
  | _, _, [] => false
  | mode, stack, c :: text =>
      match step mode stack c with
      | .next mode stack => closes mode stack text
      | .last => text.isEmpty
      | .before | .fail => false

/-- A text that is a string, an array or an object, without white space around it. -/
structure Closed (raw : List Char) : Prop where
  closes : closes .value [] raw = true
  head : ∀ c ∈ raw.head?, isSpace c = false

/-! ## Values with an end of their own -/

variable {mode : Mode} {stack base : List Frame} {raw text rest more : List Char} {c : Char}

theorem closes_scan (h : closes mode stack raw = true) (more : List Char) :
    scan mode stack (raw ++ more) = some (raw, more) := by
  induction raw generalizing mode stack with
  | nil => cases h
  | cons c raw ih =>
      rw [closes] at h
      rw [List.cons_append, scan]
      cases hstep : step mode stack c with
      | next mode' stack' =>
          rw [hstep] at h
          show (scan mode' stack' (raw ++ more)).map _ = _
          rw [ih h]
          rfl
      | last =>
          rw [hstep] at h
          rw [List.isEmpty_iff.1 h]
          rfl
      | before | fail =>
          rw [hstep] at h
          cases h

/-- A value is cut out of any text that goes on with something else. -/
theorem Closed.take (h : Closed raw) (more : List Char) : takeRaw (raw ++ more) = some (raw, more) := by
  have hskip : skipSpace (raw ++ more) = raw ++ more := by
    cases raw with
    | nil => cases h.closes
    | cons c raw =>
        rw [List.cons_append, skipSpace, if_neg]
        rw [h.head c rfl]
        exact Bool.false_ne_true
  rw [takeRaw, hskip]
  exact closes_scan h.closes more

/-! ## Values within others -/

/-- What a character does when more is open around the value. -/
def Step.within (base : List Frame) : Step → Step
  | .next mode stack => .next mode (stack ++ base)
  | .last => .next .after base
  | .before => .fail
  | .fail => .fail

theorem close_within (hbase : base ≠ []) : close (stack ++ base) = (close stack).within base := by
  cases stack with
  | nil =>
      cases base with
      | nil => exact absurd rfl hbase
      | cons frame base => rfl
  | cons frame stack => rfl

theorem step_after_within (hbase : base ≠ []) (h : stepAfter c stack ≠ .fail) :
    stepAfter c (stack ++ base) = (stepAfter c stack).within base := by
  cases stack with
  | nil => exact absurd rfl h
  | cons frame stack =>
      have hclose := @close_within stack base hbase
      rw [List.cons_append]
      unfold stepAfter
      cases frame
      all_goals
        dsimp only
        split_ifs
        all_goals first | rfl | exact hclose

theorem step_value_within (c : Char) (stack base : List Frame) :
    stepValue c (stack ++ base) = (stepValue c stack).within base := by
  unfold stepValue
  split_ifs
  all_goals rfl

theorem step_number_end_within (hbase : base ≠ []) (h : stepNumberEnd c stack ≠ .fail)
    (hbefore : stepNumberEnd c stack ≠ .before) :
    stepNumberEnd c (stack ++ base) = (stepNumberEnd c stack).within base := by
  cases stack with
  | nil => exact absurd rfl hbefore
  | cons frame stack =>
      have hafter : stepAfter c (frame :: stack) ≠ .fail := h
      exact step_after_within hbase hafter

theorem step_whole_within (hbase : base ≠ []) (h : stepWhole c stack ≠ .fail)
    (hbefore : stepWhole c stack ≠ .before) :
    stepWhole c (stack ++ base) = (stepWhole c stack).within base := by
  unfold stepWhole at h hbefore ⊢
  split_ifs at h hbefore ⊢
  · rfl
  · rfl
  · exact step_number_end_within hbase h hbefore

theorem close_top_within (hbase : base ≠ []) (h : closeTop stack ≠ .fail) :
    closeTop (stack ++ base) = (closeTop stack).within base := by
  cases stack with
  | nil => exact absurd rfl h
  | cons frame stack => exact close_within hbase

theorem step_within (hbase : base ≠ []) (h : step mode stack c ≠ .fail)
    (hbefore : step mode stack c ≠ .before) :
    step mode (stack ++ base) c = (step mode stack c).within base := by
  have hclose := @close_within stack base hbase
  cases mode
  all_goals
    unfold step at h hbefore ⊢
    dsimp only at h hbefore ⊢
  case after => exact step_after_within hbase h
  all_goals split_ifs at h hbefore ⊢
  all_goals first
    | rfl
    | exact absurd rfl h
    | exact hclose
    | exact step_value_within c stack base
    | exact close_top_within hbase h
    | exact step_whole_within hbase h hbefore
    | exact step_number_end_within hbase h hbefore
    | skip
  · split <;> rfl
  · split <;> first | rfl | exact hclose

/-- Inside of something else, what follows a value comes behind it. -/
theorem closes_within (hbase : base ≠ []) (h : closes mode stack raw = true) (more : List Char) :
    closes mode (stack ++ base) (raw ++ more) = closes .after base more := by
  induction raw generalizing mode stack with
  | nil => cases h
  | cons c raw ih =>
      rw [closes] at h
      have hfail : step mode stack c ≠ .fail := by
        intro hstep
        rw [hstep] at h
        cases h
      have hbefore : step mode stack c ≠ .before := by
        intro hstep
        rw [hstep] at h
        cases h
      rw [List.cons_append, closes, step_within hbase hfail hbefore]
      cases hstep : step mode stack c with
      | next mode' stack' =>
          rw [hstep] at h
          exact ih h
      | last =>
          rw [hstep] at h
          rw [List.isEmpty_iff.1 h]
          rfl
      | before => exact absurd hstep hbefore
      | fail => exact absurd hstep hfail

/-! ## Texts that were cut out -/

theorem close_not_before (stack : List Frame) : close stack ≠ .before := by
  cases stack <;> exact fun h => (by cases h)

theorem close_top_not_before (stack : List Frame) : closeTop stack ≠ .before := by
  cases stack with
  | nil => exact fun h => (by cases h)
  | cons frame stack => exact close_not_before stack

theorem after_not_before (c : Char) (stack : List Frame) : stepAfter c stack ≠ .before := by
  intro h
  cases stack with
  | nil => cases h
  | cons frame stack =>
      unfold stepAfter at h
      cases frame
      all_goals
        dsimp only at h
        split_ifs at h
        exact close_not_before stack h

theorem value_not_before (c : Char) (stack : List Frame) : stepValue c stack ≠ .before := by
  intro h
  unfold stepValue at h
  split_ifs at h

theorem step_before (h : step mode stack c = .before) : mode.mayEnd = true ∧ stack = [] := by
  have hafter : ∀ stack, stepNumberEnd c stack = .before → stack = [] := by
    intro stack h
    cases stack with
    | nil => rfl
    | cons frame stack =>
        have hstep : stepAfter c (frame :: stack) = .before := h
        exact absurd hstep (after_not_before c _)
  have hwhole : stepWhole c stack = .before → stack = [] := by
    intro h
    unfold stepWhole at h
    split_ifs at h
    exact hafter _ h
  cases mode
  all_goals
    unfold step at h
    dsimp only at h
  case after => exact absurd h (after_not_before c stack)
  all_goals split_ifs at h
  all_goals first
    | exact ⟨rfl, hwhole h⟩
    | exact ⟨rfl, hafter _ h⟩
    | exact absurd h (value_not_before c stack)
    | exact absurd h (close_not_before stack)
    | exact absurd h (close_top_not_before stack)
    | skip
  · split at h <;> cases h
  · split at h
    · exact absurd h (close_not_before stack)
    · cases h

/-- What is cut out is a whole value. -/
theorem scan_whole (h : scan mode stack text = some (raw, rest)) :
    scan mode stack raw = some (raw, []) := by
  induction text generalizing mode stack raw with
  | nil =>
      rw [scan] at h
      split_ifs at h with hend
      cases h
      rw [scan, if_pos hend]
  | cons c text ih =>
      rw [scan] at h
      cases hstep : step mode stack c with
      | next mode' stack' =>
          rw [hstep] at h
          obtain ⟨⟨raw', rest'⟩, hscan, heq⟩ := Option.map_eq_some_iff.1 h
          cases heq
          rw [scan, hstep]
          show (scan mode' stack' raw').map _ = _
          rw [ih hscan]
          rfl
      | last =>
          rw [hstep] at h
          cases h
          rw [scan, hstep]
      | before =>
          rw [hstep] at h
          cases h
          obtain ⟨hmode, rfl⟩ := step_before hstep
          rw [scan, hmode]
          rfl
      | fail =>
          rw [hstep] at h
          cases h

theorem close_next {mode' : Mode} {stack' : List Frame} (h : close stack = .next mode' stack') :
    stack' ≠ [] := by
  cases stack with
  | nil => cases h
  | cons frame stack =>
      cases h
      exact List.cons_ne_nil _ _

theorem close_top_next {mode' : Mode} {stack' : List Frame}
    (h : closeTop stack = .next mode' stack') : stack' ≠ [] := by
  cases stack with
  | nil => cases h
  | cons frame stack => exact close_next h

theorem after_next {mode' : Mode} {stack' : List Frame}
    (h : stepAfter c stack = .next mode' stack') : stack' ≠ [] := by
  cases stack with
  | nil => cases h
  | cons frame stack =>
      unfold stepAfter at h
      cases frame
      all_goals
        dsimp only at h
        split_ifs at h
        all_goals first
          | exact close_next h
          | (cases h; exact List.cons_ne_nil _ _)

/-- What is open stays open until the value ends. -/
theorem step_open (hstack : stack ≠ []) {mode' : Mode} {stack' : List Frame}
    (h : step mode stack c = .next mode' stack') : stack' ≠ [] := by
  have hvalue : stepValue c stack = .next mode' stack' → stack' ≠ [] := by
    intro h
    unfold stepValue at h
    split_ifs at h
    all_goals
      cases h
      first | exact hstack | exact List.cons_ne_nil _ _
  have hend : stepNumberEnd c stack = .next mode' stack' → stack' ≠ [] := by
    intro h
    cases stack with
    | nil => exact absurd rfl hstack
    | cons frame stack =>
        have hafter : stepAfter c (frame :: stack) = .next mode' stack' := h
        exact after_next hafter
  have hwhole : stepWhole c stack = .next mode' stack' → stack' ≠ [] := by
    intro h
    unfold stepWhole at h
    split_ifs at h
    · cases h
      exact hstack
    · cases h
      exact hstack
    · exact hend h
  cases mode
  all_goals
    unfold step at h
    dsimp only at h
  case after => exact after_next h
  all_goals split_ifs at h
  all_goals first
    | exact hvalue h
    | exact hend h
    | exact hwhole h
    | exact close_next h
    | exact close_top_next h
    | (cases h; exact hstack)
    | skip
  · split at h <;> (cases h; exact hstack)
  · split at h
    · exact close_next h
    · cases h
      exact hstack

/-- A value in which something is open ends with its text. -/
theorem scan_closes (hstack : stack ≠ []) (h : scan mode stack text = some (raw, rest)) :
    closes mode stack raw = true := by
  induction text generalizing mode stack raw with
  | nil =>
      rw [scan, List.isEmpty_eq_false_iff.2 hstack, Bool.and_false] at h
      cases h
  | cons c text ih =>
      rw [scan] at h
      cases hstep : step mode stack c with
      | next mode' stack' =>
          rw [hstep] at h
          obtain ⟨⟨raw', rest'⟩, hscan, heq⟩ := Option.map_eq_some_iff.1 h
          cases heq
          rw [closes, hstep]
          exact ih (step_open hstack hstep) hscan
      | last =>
          rw [hstep] at h
          cases h
          rw [closes, hstep]
          rfl
      | before => exact absurd (step_before hstep).2 hstack
      | fail =>
          rw [hstep] at h
          cases h

theorem skip_space_head (text : List Char) : ∀ c ∈ (skipSpace text).head?, isSpace c = false := by
  induction text with
  | nil => exact fun c hc => (by cases hc)
  | cons first text ih =>
      rw [skipSpace]
      by_cases hspace : isSpace first = true
      · rw [if_pos hspace]
        exact ih
      · rw [if_neg hspace]
        intro c hc
        cases hc
        exact Bool.eq_false_iff.2 hspace

theorem scan_prefix (h : scan mode stack text = some (raw, rest)) : raw ++ rest = text := by
  induction text generalizing mode stack raw with
  | nil =>
      rw [scan] at h
      split_ifs at h
      cases h
      rfl
  | cons c text ih =>
      rw [scan] at h
      cases hstep : step mode stack c with
      | next mode' stack' =>
          rw [hstep] at h
          obtain ⟨⟨raw', rest'⟩, hscan, heq⟩ := Option.map_eq_some_iff.1 h
          cases heq
          rw [List.cons_append, ih hscan]
      | last =>
          rw [hstep] at h
          cases h
          rfl
      | before =>
          rw [hstep] at h
          cases h
          rfl
      | fail =>
          rw [hstep] at h
          cases h

/-! ## Texts of values -/

/-- The text of one value, without white space around it. -/
structure RawValue where
  text : List Char
  whole : takeRaw text = some (text, [])

theorem take_raw_whole (h : takeRaw text = some (raw, rest)) : takeRaw raw = some (raw, []) := by
  have hwhole : scan .value [] raw = some (raw, []) := scan_whole h
  have hskip : skipSpace raw = raw := by
    cases raw with
    | nil => rfl
    | cons c raw =>
        refine skip_space_cons ?_ raw
        refine skip_space_head text c ?_
        rw [← scan_prefix h]
        rfl
  rw [takeRaw, hskip, hwhole]

/-- Cut a value off a text. -/
def takeValue (text : List Char) : Option (RawValue × List Char) :=
  match h : takeRaw text with
  | none => none
  | some (raw, rest) => some (⟨raw, take_raw_whole h⟩, rest)

theorem take_value_eq {value : RawValue} (h : takeRaw text = some (value.text, rest)) :
    takeValue text = some (value, rest) := by
  unfold takeValue
  split
  · next hnone =>
      rw [hnone] at h
      cases h
  · next raw rest' hsome =>
      rw [hsome] at h
      cases h
      rfl

/-- A text that ends with its value. -/
structure ClosedText where
  text : List Char
  closed : Closed text

/-- The text of an object. -/
structure RawObject extends ClosedText where
  opens : text.head? = some '\x7b'

theorem RawValue.closed (value : RawValue) (h : value.text.head? = some '\x7b') :
    Closed value.text := by
  obtain ⟨text, whole⟩ := value
  cases text with
  | nil => cases h
  | cons c text =>
      cases h
      refine ⟨?_, fun c hc => (by cases hc; rfl)⟩
      have hscan : scan .value [] ('\x7b' :: text) = some ('\x7b' :: text, []) := whole
      have hstep : step .value [] '\x7b' = .next .memberOrClose [.object] := rfl
      rw [scan, hstep] at hscan
      obtain ⟨⟨raw, rest⟩, hbelow, heq⟩ := Option.map_eq_some_iff.1 hscan
      cases heq
      rw [closes, hstep]
      exact scan_closes (List.cons_ne_nil _ _) hbelow

/-- The text as that of an object, if it is one. -/
def RawValue.asObject (value : RawValue) : Option RawObject :=
  if h : value.text.head? = some '\x7b' then some ⟨⟨value.text, value.closed h⟩, h⟩ else none

/-- A text that ends with its value is the text of a value. -/
def ClosedText.value (raw : ClosedText) : RawValue where
  text := raw.text
  whole := by
    have htake := raw.closed.take []
    rw [List.append_nil] at htake
    exact htake

theorem ClosedText.take_value (raw : ClosedText) (more : List Char) :
    takeValue (raw.text ++ more) = some (raw.value, more) :=
  take_value_eq (raw.closed.take more)

@[simp] theorem RawObject.as_object (object : RawObject) :
    object.value.asObject = some object := by
  unfold RawValue.asObject
  exact dif_pos object.opens

end PgDurable.Json
