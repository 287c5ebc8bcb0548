import PgDurable.Library.Json.Value

/-!
# JSON texts

`print` writes a value in the compact form without insignificant whitespace, and `parse` reads a
text. The reader accepts the JSON grammar with whitespace between tokens, rejects control
characters inside strings and lone surrogate escapes, keeps the last value of a repeated member
name, and gives up when arrays and objects nest to its recursion limit of 128. `parse` is
structurally recursive on a step budget; the length of the text is always enough.
-/

namespace PgDurable.Json

/-! ## Writing -/

/-- The lower-case hexadecimal digit of `n`. -/
def hexDigit (n : Nat) : Char := "0123456789abcdef".toList.getD n '0'

/-- The letter of the two-character escape of a character that has one. -/
def shortEscape (c : Char) : Option Char :=
  if c = '"' then some '"'
  else if c = '\\' then some '\\'
  else if c = '\x08' then some 'b'
  else if c = '\x0c' then some 'f'
  else if c = '\n' then some 'n'
  else if c = '\r' then some 'r'
  else if c = '\t' then some 't'
  else none

/-- How a character is written inside a string literal. -/
def escapeChar (c : Char) : List Char :=
  match shortEscape c with
  | some letter => ['\\', letter]
  | none =>
      if c.toNat < 0x20 then
        ['\\', 'u', '0', '0', hexDigit (c.toNat / 16), hexDigit (c.toNat % 16)]
      else [c]

/-- A string literal with its quotes. -/
def printString (s : String) : List Char := '"' :: s.toList.flatMap escapeChar ++ ['"']

/-- The digits of an exponent, with its sign. -/
def printInt (i : Int) : List Char :=
  if i < 0 then '-' :: Nat.toDigits 10 i.natAbs else Nat.toDigits 10 i.natAbs

/-- A number literal. -/
def printNumber (n : Number) : List Char :=
  (if n.negative then ['-'] else []) ++ Nat.toDigits 10 n.whole ++
    (if n.fraction = [] then [] else '.' :: n.fraction.map fun d => Nat.digitChar d.val) ++
    (match n.exponent with
      | none => []
      | some e => 'e' :: printInt e)

mutual
/-- The compact text of a value. -/
def printValue : Value → List Char
  | .null => "null".toList
  | .bool true => "true".toList
  | .bool false => "false".toList
  | .number n => printNumber n
  | .string s => printString s
  | .array [] => ['[', ']']
  | .array (item :: rest) => '[' :: printValue item ++ printItems rest
  | .object [] => ['\x7b', '\x7d']
  | .object ((key, value) :: rest) =>
      '\x7b' :: printString key ++ ':' :: printValue value ++ printMembers rest

/-- The items after the first one, up to the closing bracket. -/
def printItems : List Value → List Char
  | [] => [']']
  | item :: rest => ',' :: printValue item ++ printItems rest

/-- The members after the first one, up to the closing brace. -/
def printMembers : List (String × Value) → List Char
  | [] => ['\x7d']
  | (key, value) :: rest => ',' :: printString key ++ ':' :: printValue value ++ printMembers rest
end

/-- The compact text of a value as a string. -/
def print (value : Value) : String := String.ofList (printValue value)

/-! ## Reading -/

/-- Insignificant whitespace. -/
def isSpace (c : Char) : Bool := c == ' ' || c == '\n' || c == '\t' || c == '\r'

/-- Drop leading whitespace. -/
def skipSpace : List Char → List Char
  | [] => []
  | c :: rest => if isSpace c then skipSpace rest else c :: rest

/-- The value of a hexadecimal digit. -/
def hexValue (c : Char) : Option Nat :=
  if '0' ≤ c ∧ c ≤ '9' then some (c.toNat - '0'.toNat)
  else if 'a' ≤ c ∧ c ≤ 'f' then some (c.toNat - 'a'.toNat + 10)
  else if 'A' ≤ c ∧ c ≤ 'F' then some (c.toNat - 'A'.toNat + 10)
  else none

/-- The code unit written by four hexadecimal digits. -/
def hexUnit (a b c d : Char) : Option Nat := do
  let a ← hexValue a
  let b ← hexValue b
  let c ← hexValue c
  let d ← hexValue d
  pure (((a * 16 + b) * 16 + c) * 16 + d)

/-- The character a one-letter escape stands for. -/
def simpleEscape (c : Char) : Option Char :=
  if c = '"' then some '"'
  else if c = '\\' then some '\\'
  else if c = '/' then some '/'
  else if c = 'b' then some '\x08'
  else if c = 'f' then some '\x0c'
  else if c = 'n' then some '\n'
  else if c = 'r' then some '\r'
  else if c = 't' then some '\t'
  else none

/-- Read the rest of a string literal whose opening quote was consumed. A high surrogate must be
followed by the escape of a low one; the pair denotes one character. -/
def parseString : Nat → List Char → Option (List Char × List Char)
  | 0, _ => none
  | fuel + 1, cs =>
      match cs with
      | [] => none
      | '"' :: rest => some ([], rest)
      | '\\' :: 'u' :: a :: b :: c :: d :: rest => do
          let unit ← hexUnit a b c d
          if 0xdc00 ≤ unit ∧ unit < 0xe000 then none
          else if 0xd800 ≤ unit ∧ unit < 0xdc00 then
            match rest with
            | '\\' :: 'u' :: a :: b :: c :: d :: rest => do
                let low ← hexUnit a b c d
                if 0xdc00 ≤ low ∧ low < 0xe000 then do
                  let (text, rest) ← parseString fuel rest
                  pure (Char.ofNat (0x10000 + (unit - 0xd800) * 0x400 + (low - 0xdc00)) :: text,
                    rest)
                else none
            | _ => none
          else do
            let (text, rest) ← parseString fuel rest
            pure (Char.ofNat unit :: text, rest)
      | '\\' :: e :: rest => do
          let c ← simpleEscape e
          let (text, rest) ← parseString fuel rest
          pure (c :: text, rest)
      | c :: rest => do
          if c.toNat < 0x20 ∨ c = '\\' then none
          else
            let (text, rest) ← parseString fuel rest
            pure (c :: text, rest)

/-- The longest run of digits at the front. -/
def spanDigits : List Char → List Char × List Char
  | [] => ([], [])
  | c :: rest =>
      if c.isDigit then
        let (digits, rest) := spanDigits rest
        (c :: digits, rest)
      else ([], c :: rest)

/-- The integer part: a single zero, or digits that do not start with zero. -/
def parseWhole (cs : List Char) : Option (Nat × List Char) :=
  match spanDigits cs with
  | ([], _) => none
  | ('0' :: _ :: _, _) => none
  | (digits, rest) => some (Nat.ofDigitChars 10 digits 0, rest)

/-- The value of a decimal digit. -/
def digitValue (c : Char) : Fin 10 :=
  ⟨(c.toNat - '0'.toNat) % 10, Nat.mod_lt _ (by decide)⟩

/-- The optional fraction. -/
def parseFraction : List Char → Option (List (Fin 10) × List Char)
  | '.' :: rest =>
      match spanDigits rest with
      | ([], _) => none
      | (digits, rest) => some (digits.map digitValue, rest)
  | cs => some ([], cs)

/-- The digits of an exponent after its sign. -/
def parseExponentDigits (negative : Bool) (cs : List Char) :
    Option (Option Int × List Char) :=
  match spanDigits cs with
  | ([], _) => none
  | (digits, rest) =>
      let value : Int := (Nat.ofDigitChars 10 digits 0 : Nat)
      some (some (if negative then -value else value), rest)

/-- The optional exponent. -/
def parseExponent : List Char → Option (Option Int × List Char)
  | c :: rest =>
      if c = 'e' ∨ c = 'E' then
        match rest with
        | '-' :: rest => parseExponentDigits true rest
        | '+' :: rest => parseExponentDigits false rest
        | rest => parseExponentDigits false rest
      else some (none, c :: rest)
  | [] => some (none, [])

/-- Everything of a number after its sign. -/
def parseUnsigned (negative : Bool) (cs : List Char) : Option (Number × List Char) := do
  let (whole, cs) ← parseWhole cs
  let (fraction, cs) ← parseFraction cs
  let (exponent, cs) ← parseExponent cs
  pure (⟨negative, whole, fraction, exponent⟩, cs)

/-- A number literal. -/
def parseNumber : List Char → Option (Number × List Char)
  | '-' :: rest => parseUnsigned true rest
  | cs => parseUnsigned false cs

mutual
/-- Read one value. `limit` is the nesting that is still allowed. -/
def parseValue : Nat → Nat → List Char → Option (Value × List Char)
  | 0, _, _ => none
  | fuel + 1, limit, cs =>
      match skipSpace cs with
      | 'n' :: 'u' :: 'l' :: 'l' :: rest => some (.null, rest)
      | 't' :: 'r' :: 'u' :: 'e' :: rest => some (.bool true, rest)
      | 'f' :: 'a' :: 'l' :: 's' :: 'e' :: rest => some (.bool false, rest)
      | '"' :: rest => do
          let (text, rest) ← parseString (rest.length + 1) rest
          pure (.string (String.ofList text), rest)
      | '[' :: rest =>
          if limit ≤ 1 then none
          else
            match skipSpace rest with
            | ']' :: rest => some (.array [], rest)
            | rest => do
                let (item, rest) ← parseValue fuel (limit - 1) rest
                let (items, rest) ← parseItems fuel (limit - 1) rest
                pure (.array (item :: items), rest)
      | '\x7b' :: rest =>
          if limit ≤ 1 then none
          else
            match skipSpace rest with
            | '\x7d' :: rest => some (.object [], rest)
            | rest => do
                let ((key, value), rest) ← parseMember fuel (limit - 1) rest
                let (members, rest) ← parseMembers fuel (limit - 1) [(key, value)] rest
                pure (.object members, rest)
      | cs => do
          let (n, rest) ← parseNumber cs
          pure (.number n, rest)

/-- Read the items after the first one, up to the closing bracket. -/
def parseItems : Nat → Nat → List Char → Option (List Value × List Char)
  | 0, _, _ => none
  | fuel + 1, limit, cs =>
      match skipSpace cs with
      | ']' :: rest => some ([], rest)
      | ',' :: rest => do
          let (item, rest) ← parseValue fuel limit rest
          let (items, rest) ← parseItems fuel limit rest
          pure (item :: items, rest)
      | _ => none

/-- Read one member: its name, a colon and its value. -/
def parseMember : Nat → Nat → List Char → Option ((String × Value) × List Char)
  | 0, _, _ => none
  | fuel + 1, limit, cs =>
      match skipSpace cs with
      | '"' :: rest => do
          let (key, rest) ← parseString (rest.length + 1) rest
          match skipSpace rest with
          | ':' :: rest => do
              let (value, rest) ← parseValue fuel limit rest
              pure ((String.ofList key, value), rest)
          | _ => none
      | _ => none

/-- Read the members after the first one, up to the closing brace. -/
def parseMembers : Nat → Nat → List (String × Value) → List Char →
    Option (List (String × Value) × List Char)
  | 0, _, _, _ => none
  | fuel + 1, limit, members, cs =>
      match skipSpace cs with
      | '\x7d' :: rest => some (members, rest)
      | ',' :: rest => do
          let ((key, value), rest) ← parseMember fuel limit rest
          parseMembers fuel limit (insertMember key value members) rest
      | _ => none
end

/-- The nesting at which the reader gives up. -/
def recursionLimit : Nat := 128

/-- Read a whole text: one value with only whitespace around it. -/
def parse (text : String) : Option Value :=
  match parseValue (2 * text.toList.length + 2) recursionLimit text.toList with
  | some (value, rest) => if (skipSpace rest).isEmpty then some value else none
  | none => none

/-- `parse` with the error every rejected text is reported with. -/
def fromStr (text : String) : Except String Value :=
  match parse text with
  | some value => .ok value
  | none => .error "invalid JSON text"

end PgDurable.Json
