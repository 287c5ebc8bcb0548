import Mathlib.Data.List.Forall2
import Std.Data.ExtTreeMap.Lemmas
import PgDurable.Library.Json.RoundTrip

/-!
# Reading records from JSON values

The readers of a derived deserializer: required, optional and defaulted members, strings, flags,
bounded integers and string maps. A string map is written with its keys in order;
`decode_string_map_encode` recovers it.
-/

namespace PgDurable.Json

variable {α : Type}

/-- Read a member that must be there. -/
def readRequired (decode : Value → Except String α) (key : String) (value : Value) :
    Except String α :=
  match value.get? key with
  | some member => decode member
  | none => .error ("missing field \"" ++ key ++ "\"")

/-- A sequence of readings that succeeds. -/
theorem bind_eq_ok {β : Type} {first : Except String α} {next : α → Except String β} {result : β}
    (h : first.bind next = .ok result) : ∃ value, first = .ok value ∧ next value = .ok result := by
  cases first with
  | error message => cases h
  | ok value => exact ⟨value, rfl, h⟩

/-- A traversal succeeds with the images of its items. -/
theorem map_m_eq_ok_iff {β γ : Type} {f : β → Except String γ} (items : List β)
    (images : List γ) :
    items.mapM f = .ok images ↔ List.Forall₂ (fun item image => f item = .ok image) items images := by
  induction items generalizing images with
  | nil =>
      rw [List.mapM_nil, List.forall₂_nil_left_iff]
      exact ⟨fun h => (Except.ok.inj h).symm, fun h => congrArg Except.ok h.symm⟩
  | cons item items ih =>
      rw [List.mapM_cons, List.forall₂_cons_left_iff]
      constructor
      · intro h
        obtain ⟨image, hitem, h⟩ := bind_eq_ok h
        obtain ⟨rest, hitems, h⟩ := bind_eq_ok h
        cases h
        exact ⟨image, rest, hitem, (ih rest).1 hitems, rfl⟩
      · rintro ⟨image, rest, hitem, hitems, rfl⟩
        rw [hitem, (ih rest).2 hitems]
        rfl

/-- A traversal succeeds if every step does. -/
theorem map_m_succeeds_iff {β γ : Type} {f : β → Except String γ} (items : List β) :
    (∃ images, items.mapM f = .ok images) ↔ ∀ item ∈ items, ∃ image, f item = .ok image := by
  induction items with
  | nil => exact iff_of_true ⟨[], rfl⟩ (List.forall_mem_nil _)
  | cons item items ih =>
      rw [List.forall_mem_cons, ← ih]
      constructor
      · rintro ⟨images, h⟩
        obtain ⟨image, rest, hitem, hitems, -⟩ :=
          List.forall₂_cons_left_iff.1 ((map_m_eq_ok_iff _ _).1 h)
        exact ⟨⟨image, hitem⟩, ⟨rest, (map_m_eq_ok_iff _ _).2 hitems⟩⟩
      · rintro ⟨⟨image, hitem⟩, ⟨rest, hitems⟩⟩
        exact ⟨image :: rest, (map_m_eq_ok_iff _ _).2
          (.cons hitem ((map_m_eq_ok_iff _ _).1 hitems))⟩

/-- Read a member that may be absent or `null`. -/
def readOptional (decode : Value → Except String α) (key : String) (value : Value) :
    Except String (Option α) :=
  match value.get? key with
  | none => .ok none
  | some .null => .ok none
  | some member => (decode member).map some

/-- Read a member that has a default. -/
def readDefaulted (decode : Value → Except String α) (fallback : α) (key : String) (value : Value) :
    Except String α :=
  match value.get? key with
  | some member => decode member
  | none => .ok fallback

/-- Read a string. -/
def decodeString : Value → Except String String
  | .string text => .ok text
  | _ => .error "invalid type: expected a string"

/-- Read a flag. -/
def decodeBool : Value → Except String Bool
  | .bool flag => .ok flag
  | _ => .error "invalid type: expected a boolean"

/-- Read an unsigned integer below `bound`. -/
def decodeNat (bound : Nat) (value : Value) : Except String Nat :=
  match value.asU64 with
  | some n => if n < bound then .ok n else .error "invalid value: integer out of range"
  | none => .error "invalid type: expected an unsigned integer"

/-- A record is read from an object. -/
def decodeRecord (decode : Value → Except String α) : Value → Except String α
  | .object members => decode (.object members)
  | _ => .error "invalid type: expected a record"

/-- The name of a variant without content: the name itself, or an object that maps it to `null`. -/
def variantName : Value → Option String
  | .string name => some name
  | .object [(name, .null)] => some name
  | _ => none

/-- The member of an optional value: absent when the value is. -/
def optionalMember (key : String) : Option Value → List (String × Value)
  | some value => [(key, value)]
  | none => []

/-- The JSON form of an optional string. -/
def encodeOptionString (text : Option String) : Value := (text.map Value.string).getD .null

/-- A map of strings as an object with its keys in order. -/
def encodeStringMap (map : Std.ExtTreeMap String String) : Value :=
  .object (map.toList.map fun entry => (entry.1, .string entry.2))

/-- Read the members of a map of strings. -/
def decodeStringMembers : List (String × Value) → Except String (List (String × String))
  | [] => .ok []
  | (key, value) :: rest => do
      let text ← decodeString value
      let rest ← decodeStringMembers rest
      pure ((key, text) :: rest)

/-- Read a map of strings. -/
def decodeStringMap : Value → Except String (Std.ExtTreeMap String String)
  | .object members => (decodeStringMembers members).map (Std.ExtTreeMap.ofList ·)
  | _ => .error "invalid type: expected a map"

/-- A map is recovered from its entries. -/
theorem of_list_to_list {β : Type} (map : Std.ExtTreeMap String β) :
    Std.ExtTreeMap.ofList map.toList = map := by
  refine Std.ExtTreeMap.ext_getElem? fun key => ?_
  cases hget : map[key]? with
  | some value =>
      exact Std.ExtTreeMap.getElem?_ofList_of_mem Std.ReflCmp.compare_self
        (Std.ExtTreeMap.distinct_keys_toList) (Std.ExtTreeMap.mem_toList_iff_getElem?_eq_some.2 hget)
  | none =>
      refine Std.ExtTreeMap.getElem?_ofList_of_contains_eq_false ?_
      have hnot : key ∉ map := by
        rw [Std.ExtTreeMap.mem_iff_isSome_getElem?, hget]
        simp
      rw [Std.ExtTreeMap.map_fst_toList_eq_keys]
      simpa using hnot

/-- The members written for strings are read back. -/
theorem decode_string_members_map (entries : List (String × String)) :
    decodeStringMembers (entries.map fun entry => (entry.1, .string entry.2)) = .ok entries := by
  induction entries with
  | nil => rfl
  | cons entry entries ih =>
      simp [decodeStringMembers, decodeString, ih, bind, Except.bind, pure, Except.pure]

/-- A string map is recovered from its JSON form. -/
@[simp] theorem decode_string_map_encode (map : Std.ExtTreeMap String String) :
    decodeStringMap (encodeStringMap map) = .ok map := by
  simp [decodeStringMap, encodeStringMap, decode_string_members_map, Except.map, of_list_to_list]

/-- The JSON form of a map has distinct member names. -/
theorem nodup_map_keys {β : Type} (map : Std.ExtTreeMap String β) (f : β → Value) :
    ((map.toList.map fun entry => (entry.1, f entry.2)).map (·.1)).Nodup := by
  rw [List.map_map]
  exact (Std.ExtTreeMap.map_fst_toList_eq_keys (t := map)) ▸ Std.ExtTreeMap.nodup_keys

/-- Members with well-formed values are well formed. -/
theorem well_formed_members {members : List (String × Value)}
    (h : ∀ member ∈ members, member.2.WellFormed) : Value.WellFormedMembers members := by
  induction members with
  | nil => trivial
  | cons member members ih =>
      exact ⟨h member (by simp), ih fun other hother => h other (by simp [hother])⟩

/-- Arrays of well-formed values are well formed. -/
theorem array_well_formed {values : List Value} (h : ∀ value ∈ values, value.WellFormed) :
    (Value.array values).WellFormed := by
  induction values with
  | nil => trivial
  | cons value values ih =>
      exact ⟨h value List.mem_cons_self, ih fun other hother =>
        h other (List.mem_cons_of_mem _ hother)⟩

/-- Items nest less than a bound exactly if each of them does. -/
theorem depth_items_lt_iff {items : List Value} {bound : Nat} (hbound : 0 < bound) :
    Value.depthItems items < bound ↔ ∀ item ∈ items, item.depth < bound := by
  induction items with
  | nil => exact ⟨fun _ => List.forall_mem_nil _, fun _ => hbound⟩
  | cons item items ih => rw [Value.depthItems, Nat.max_lt, ih, List.forall_mem_cons]

/-- Members nest less than a bound exactly if the value of each does. -/
theorem depth_members_lt_iff {members : List (String × Value)} {bound : Nat} (hbound : 0 < bound) :
    Value.depthMembers members < bound ↔ ∀ member ∈ members, member.2.depth < bound := by
  induction members with
  | nil => exact ⟨fun _ => List.forall_mem_nil _, fun _ => hbound⟩
  | cons member members ih => rw [Value.depthMembers, Nat.max_lt, ih, List.forall_mem_cons]

/-- Members with values of at most a depth have at most that depth. -/
theorem depth_members_le {members : List (String × Value)} {bound : Nat}
    (h : ∀ member ∈ members, member.2.depth ≤ bound) : Value.depthMembers members ≤ bound := by
  induction members with
  | nil => exact Nat.zero_le _
  | cons member members ih =>
      exact Nat.max_le.2 ⟨h member (by simp), ih fun other hother => h other (by simp [hother])⟩

/-- The JSON form of a string map is well formed and flat. -/
theorem encode_string_map_well_formed (map : Std.ExtTreeMap String String) :
    (encodeStringMap map).WellFormed ∧ (encodeStringMap map).depth ≤ 1 := by
  constructor
  · refine ⟨nodup_map_keys map Value.string, well_formed_members ?_⟩
    intro member hmember
    obtain ⟨entry, _, rfl⟩ := List.mem_map.1 hmember
    trivial
  · have hflat : Value.depthMembers
        (map.toList.map fun entry => (entry.1, Value.string entry.2)) ≤ 0 := by
      refine depth_members_le fun member hmember => ?_
      obtain ⟨entry, _, rfl⟩ := List.mem_map.1 hmember
      simp [Value.depth]
    simp only [encodeStringMap, Value.depth]
    omega

/-- A string map is recovered from its text. -/
theorem from_str_print_string_map (map : Std.ExtTreeMap String String) :
    (fromStr (print (encodeStringMap map))).bind decodeStringMap = .ok map := by
  obtain ⟨hwf, hdepth⟩ := encode_string_map_well_formed map
  rw [from_str_print hwf (by unfold recursionLimit; omega)]
  exact decode_string_map_encode map

end PgDurable.Json
