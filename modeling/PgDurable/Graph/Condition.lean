import PgDurable.Library.Json.Text
import PgDurable.Library.Text

/-!
# Conditions

`evaluateCondition` decides whether the result of a condition node is truthy: the first column of
the first row of a row set, or the result itself. Numbers and numeric strings are truthy unless
they round to a zero of the double-precision format.
-/

namespace PgDurable

open Json Text

/-- `mantissa * 10 ^ exponent` rounds to zero: it is at most half of the least positive double,
`2 ^ (-1075)`. -/
def roundsToZero (mantissa : Nat) (exponent : Int) : Bool :=
  match exponent with
  | .ofNat _ => mantissa == 0
  | .negSucc n => mantissa * 2 ^ 1075 ≤ 10 ^ (n + 1)

/-- A JSON number that is zero as a double. -/
def isZeroNumber (n : Number) : Bool :=
  roundsToZero (n.fraction.foldl (fun value digit => 10 * value + digit.val) n.whole)
    (n.exponent.getD 0 - n.fraction.length)

/-- Drop a sign. -/
def dropSign : List Char → List Char
  | '+' :: rest => rest
  | '-' :: rest => rest
  | chars => chars

/-- The exponent of a float literal in lower case: none, or `e` with an integer. -/
def floatExponent (chars : List Char) : Option Int :=
  match chars with
  | [] => some 0
  | 'e' :: rest =>
      (parseDigits (dropSign rest)).map fun value =>
        if rest.head? = some '-' then -(value : Int) else value
  | _ => none

/-- A text in lower case that parses as a double equal to zero. -/
def parsesAsZero (chars : List Char) : Bool :=
  let unsigned := dropSign chars
  let whole := unsigned.takeWhile Char.isDigit
  let afterWhole := unsigned.dropWhile Char.isDigit
  let (fraction, afterFraction) :=
    match afterWhole with
    | '.' :: rest => (rest.takeWhile Char.isDigit, rest.dropWhile Char.isDigit)
    | rest => ([], rest)
  match parseDigits (whole ++ fraction), floatExponent afterFraction with
  | some mantissa, some exponent => roundsToZero mantissa (exponent - fraction.length)
  | _, _ => false

/-- Whether a value counts as true. -/
def isTruthy : Value → Bool
  | .bool b => b
  | .number n => !isZeroNumber n
  | .string s =>
      let lower := (trim s.toList).map Char.toLower
      if lower.isEmpty then false
      else if ["true", "t", "yes"].contains (String.ofList lower) then true
      else if ["false", "f", "no"].contains (String.ofList lower) then false
      else !parsesAsZero lower
  | .array items => !items.isEmpty
  | .object members => !members.isEmpty
  | .null => false

/-- Evaluate a condition result to determine if it is truthy. -/
def evaluateCondition (result : String) : Except String Bool :=
  match parse result with
  | some json =>
      match (json.get? "rows").bind Value.asArray with
      | some [] => .ok false
      | some (firstRow :: _) =>
          match firstRow.asObject with
          | some ((_, value) :: _) => .ok (isTruthy value)
          | _ => .ok (isTruthy json)
      | none => .ok (isTruthy json)
  | none => .ok (isTruthy (.string result))

end PgDurable
