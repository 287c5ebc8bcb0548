import Mathlib.Algebra.Order.Ring.Int
import Mathlib.Data.Int.ConditionallyCompleteOrder
import Mathlib.Data.List.Basic
import Mathlib.Data.Set.Lattice

/-!
# JSON values

`Value` is the tree a JSON text denotes. Objects keep the order in which their members were
inserted, as an order-preserving map does, and numbers keep their decimal literal instead of a
rounded floating-point value. The accessors return `none` where the value has another kind, and
`index` reads a missing member as `null`.
-/

namespace PgDurable.Json

/-- A decimal number literal: sign, integer part, fraction digits and exponent. -/
structure Number where
  negative : Bool
  whole : Nat
  fraction : List (Fin 10)
  exponent : Option Int
  deriving DecidableEq, Repr

namespace Number

/-- The literal of a natural number. -/
def ofNat (n : Nat) : Number := ⟨false, n, [], none⟩

/-- The literal has neither a fraction nor an exponent. -/
def isInteger (n : Number) : Bool := n.fraction.isEmpty && n.exponent.isNone

/-- The value as an unsigned 64-bit integer. -/
def asU64 (n : Number) : Option Nat :=
  if n.isInteger && !n.negative && n.whole < 2 ^ 64 then some n.whole else none

/-- The value as a signed 64-bit integer. A negative zero is not an integer. -/
def asI64 (n : Number) : Option Int :=
  if n.isInteger then
    if n.negative then
      if 0 < n.whole ∧ n.whole ≤ 2 ^ 63 then some (-(n.whole : Int)) else none
    else if n.whole < 2 ^ 63 then some n.whole else none
  else none

end Number

/-- A JSON value. -/
inductive Value where
  | null
  | bool (value : Bool)
  | number (value : Number)
  | string (value : String)
  | array (items : List Value)
  | object (members : List (String × Value))
  deriving Repr

namespace Value

/-- The member `key` of an object; `none` on a missing key and on every other kind of value. -/
def get? (key : String) : Value → Option Value
  | object members => members.lookup key
  | _ => none

/-- Indexing by a member name reads an absent member as `null`. -/
def index (value : Value) (key : String) : Value := (value.get? key).getD null

/-- The text of a string value. -/
def asStr : Value → Option String
  | string text => some text
  | _ => none

/-- The items of an array value. -/
def asArray : Value → Option (List Value)
  | array items => some items
  | _ => none

/-- The members of an object value. -/
def asObject : Value → Option (List (String × Value))
  | object members => some members
  | _ => none

/-- The truth value of a boolean value. -/
def asBool : Value → Option Bool
  | bool value => some value
  | _ => none

/-- The unsigned integer a number value denotes. -/
def asU64 : Value → Option Nat
  | number n => n.asU64
  | _ => none

/-- The signed integer a number value denotes. -/
def asI64 : Value → Option Int
  | number n => n.asI64
  | _ => none

/-- Whether the value is `null`. -/
def isNull : Value → Bool
  | null => true
  | _ => false

end Value

/-- Insert a member, replacing in place the value of a key that is already there. -/
def insertMember (key : String) (value : Value) :
    List (String × Value) → List (String × Value)
  | [] => [(key, value)]
  | (other, old) :: rest =>
      if other = key then (key, value) :: rest
      else (other, old) :: insertMember key value rest

/-- Inserting a fresh key appends it. -/
theorem insert_member_fresh {key : String} {value : Value} {members : List (String × Value)}
    (h : key ∉ members.map (·.1)) :
    insertMember key value members = members ++ [(key, value)] := by
  induction members with
  | nil => rfl
  | cons member rest ih =>
      simp only [List.map_cons, List.mem_cons, not_or] at h
      simp [insertMember, Ne.symm h.1, ih h.2]

/-- Inserting a member changes the lookup of its own key only. -/
theorem lookup_insert_member (key other : String) (value : Value)
    (members : List (String × Value)) :
    (insertMember key value members).lookup other =
      if other = key then some value else members.lookup other := by
  have hcons : ∀ (name : String) (old : Value) (rest : List (String × Value)),
      ((name, old) :: rest).lookup other =
        if other = name then some old else rest.lookup other := by
    intro name old rest
    split_ifs with h
    · rw [h, List.lookup_cons_self]
    · rw [List.lookup_cons, beq_false_of_ne h]
  induction members with
  | nil => exact hcons key value []
  | cons member rest ih =>
      obtain ⟨name, old⟩ := member
      unfold insertMember
      by_cases hname : name = key
      · rw [if_pos hname, hcons, hcons, hname]
        split_ifs <;> rfl
      · rw [if_neg hname, hcons, hcons, ih]
        split_ifs with hold hnew
        · exact absurd (hold.symm.trans hnew) hname
        · rfl
        · rfl
        · rfl

namespace Value

mutual
/-- Member names are distinct in every object of the tree. -/
def WellFormed : Value → Prop
  | array items => WellFormedItems items
  | object members => (members.map (·.1)).Nodup ∧ WellFormedMembers members
  | _ => True

/-- Every item of the list is well formed. -/
def WellFormedItems : List Value → Prop
  | [] => True
  | item :: rest => WellFormed item ∧ WellFormedItems rest

/-- Every member value of the list is well formed. -/
def WellFormedMembers : List (String × Value) → Prop
  | [] => True
  | (_, value) :: rest => WellFormed value ∧ WellFormedMembers rest
end

mutual
/-- How many arrays and objects are nested around the deepest leaf. -/
def depth : Value → Nat
  | array items => depthItems items + 1
  | object members => depthMembers members + 1
  | _ => 0

/-- The greatest depth among the items. -/
def depthItems : List Value → Nat
  | [] => 0
  | item :: rest => max (depth item) (depthItems rest)

/-- The greatest depth among the member values. -/
def depthMembers : List (String × Value) → Nat
  | [] => 0
  | (_, value) :: rest => max (depth value) (depthMembers rest)
end

mutual
/-- Structural comparison of two values. -/
def same : Value → Value → Bool
  | null, null => true
  | bool a, bool b => a == b
  | number a, number b => a == b
  | string a, string b => a == b
  | array a, array b => sameItems a b
  | object a, object b => sameMembers a b
  | _, _ => false

/-- Structural comparison of two lists of values. -/
def sameItems : List Value → List Value → Bool
  | [], [] => true
  | a :: as, b :: bs => same a b && sameItems as bs
  | _, _ => false

/-- Structural comparison of two lists of members. -/
def sameMembers : List (String × Value) → List (String × Value) → Bool
  | [], [] => true
  | (k, a) :: as, (l, b) :: bs => k == l && same a b && sameMembers as bs
  | _, _ => false
end

mutual
/-- Comparison decides equality. -/
theorem same_iff : ∀ a b : Value, same a b = true ↔ a = b
  | null, b => by cases b <;> simp [same]
  | bool a, b => by cases b <;> simp [same]
  | number a, b => by cases b <;> simp [same]
  | string a, b => by cases b <;> simp [same]
  | array a, b => by cases b <;> simp [same, same_items_iff a]
  | object a, b => by cases b <;> simp [same, same_members_iff a]

/-- Comparison decides equality of lists of values. -/
theorem same_items_iff : ∀ as bs : List Value, sameItems as bs = true ↔ as = bs
  | [], bs => by cases bs <;> simp [sameItems]
  | a :: as, bs => by cases bs <;> simp [sameItems, same_iff a, same_items_iff as]

/-- Comparison decides equality of lists of members. -/
theorem same_members_iff :
    ∀ as bs : List (String × Value), sameMembers as bs = true ↔ as = bs
  | [], bs => by cases bs <;> simp [sameMembers]
  | (k, a) :: as, bs => by
      cases bs <;> simp [sameMembers, same_iff a, same_members_iff as, Prod.ext_iff]
end

/-- Equality of values is decided by structural comparison. -/
instance : DecidableEq Value := fun a b => decidable_of_iff _ (same_iff a b)

end Value

end PgDurable.Json
