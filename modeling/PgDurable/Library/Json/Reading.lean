import PgDurable.Library.Json.RoundTrip

/-!
# What the reader produces

Whatever text the reader accepts, the value is well formed and its nesting stays below the
recursion limit: `parse_well_formed`. Members are inserted under their names, so a repeated name
replaces and never duplicates. Values that were read are therefore recovered from their compact
texts, and two of them with one compact text are equal. A compact text is read only as the value
that was written, and not at all when that nests too deep: `from_str_print_iff`.
-/

namespace PgDurable.Json

/-! ## Inserting -/

/-- Inserting adds no other key. -/
theorem mem_insert_member {key other : String} {value : Value} {members : List (String × Value)}
    (h : other ∈ (insertMember key value members).map (·.1)) :
    other = key ∨ other ∈ members.map (·.1) := by
  induction members with
  | nil => simpa [insertMember] using h
  | cons member rest ih =>
      obtain ⟨first, old⟩ := member
      unfold insertMember at h
      split_ifs at h with hkey
      · rcases List.mem_cons.1 h with rfl | hrest
        · exact Or.inl rfl
        · exact Or.inr (List.mem_cons_of_mem _ hrest)
      · rcases List.mem_cons.1 h with rfl | hrest
        · exact Or.inr List.mem_cons_self
        · exact (ih hrest).imp_right (List.mem_cons_of_mem _)

/-- Inserting keeps the keys distinct. -/
theorem insert_member_nodup {key : String} {value : Value} {members : List (String × Value)}
    (h : (members.map (·.1)).Nodup) : ((insertMember key value members).map (·.1)).Nodup := by
  induction members with
  | nil => exact List.nodup_cons.2 ⟨List.not_mem_nil, List.nodup_nil⟩
  | cons member rest ih =>
      obtain ⟨first, old⟩ := member
      obtain ⟨hfirst, hrest⟩ := List.nodup_cons.1 h
      unfold insertMember
      split_ifs with hkey
      · exact List.nodup_cons.2 ⟨hkey ▸ hfirst, hrest⟩
      · refine List.nodup_cons.2 ⟨fun hmem => ?_, ih hrest⟩
        rcases mem_insert_member hmem with heq | hmem
        · exact hkey heq
        · exact hfirst hmem

/-- Inserting keeps the member values well formed. -/
theorem insert_member_well_formed {key : String} {value : Value}
    {members : List (String × Value)} (hvalue : value.WellFormed)
    (h : Value.WellFormedMembers members) :
    Value.WellFormedMembers (insertMember key value members) := by
  induction members with
  | nil => exact ⟨hvalue, trivial⟩
  | cons member rest ih =>
      obtain ⟨first, old⟩ := member
      unfold insertMember
      split_ifs
      · exact ⟨hvalue, h.2⟩
      · exact ⟨h.1, ih h.2⟩

/-- Inserting nests as deep as the value or the members that were there. -/
theorem insert_member_depth {key : String} {value : Value} {members : List (String × Value)}
    {bound : Nat} (hvalue : value.depth < bound) (h : Value.depthMembers members < bound) :
    Value.depthMembers (insertMember key value members) < bound := by
  induction members with
  | nil =>
      show max value.depth 0 < bound
      omega
  | cons member rest ih =>
      obtain ⟨first, old⟩ := member
      simp only [Value.depthMembers] at h
      unfold insertMember
      split_ifs
      · show max value.depth (Value.depthMembers rest) < bound
        omega
      · have hrest := ih (by omega)
        show max old.depth (Value.depthMembers (insertMember key value rest)) < bound
        omega

/-! ## Reading -/

mutual
/-- A value that was read is well formed, and nests less than was allowed. -/
theorem parse_value_well_formed : ∀ (fuel limit : Nat) (cs : List Char) {value : Value}
    {rest : List Char}, 0 < limit → parseValue fuel limit cs = some (value, rest) →
    value.WellFormed ∧ value.depth < limit
  | 0, limit, cs, value, rest, _, h => by
      rw [parseValue] at h
      cases h
  | fuel + 1, limit, cs, value, rest, hlimit, h => by
      have hleaf : ∀ leaf : Value, leaf.WellFormed → leaf.depth = 0 → value = leaf →
          value.WellFormed ∧ value.depth < limit := by
        intro leaf hwf hdepth heq
        subst heq
        exact ⟨hwf, hdepth ▸ hlimit⟩
      unfold parseValue at h
      split at h
      · exact hleaf .null trivial rfl (by cases h; rfl)
      · exact hleaf (.bool true) trivial rfl (by cases h; rfl)
      · exact hleaf (.bool false) trivial rfl (by cases h; rfl)
      · obtain ⟨⟨text, after⟩, -, hvalue⟩ := Option.bind_eq_some_iff.1 h
        exact hleaf (.string (String.ofList text)) trivial rfl (by cases hvalue; rfl)
      · -- an array
        split_ifs at h with hnested
        split at h
        · cases h
          exact ⟨trivial, show 0 + 1 < limit by omega⟩
        · obtain ⟨⟨item, after⟩, hitem, h⟩ := Option.bind_eq_some_iff.1 h
          obtain ⟨⟨items, after⟩, hitems, hvalue⟩ := Option.bind_eq_some_iff.1 h
          cases hvalue
          obtain ⟨hitemWf, hitemDepth⟩ :=
            parse_value_well_formed fuel (limit - 1) _ (by omega) hitem
          obtain ⟨hitemsWf, hitemsDepth⟩ :=
            parse_items_well_formed fuel (limit - 1) _ (by omega) hitems
          refine ⟨⟨hitemWf, hitemsWf⟩, ?_⟩
          show max item.depth (Value.depthItems items) + 1 < limit
          omega
      · -- an object
        split_ifs at h with hnested
        split at h
        · cases h
          exact ⟨⟨List.nodup_nil, trivial⟩, show 0 + 1 < limit by omega⟩
        · obtain ⟨⟨⟨key, first⟩, after⟩, hfirst, h⟩ := Option.bind_eq_some_iff.1 h
          obtain ⟨⟨members, after⟩, hmembers, hvalue⟩ := Option.bind_eq_some_iff.1 h
          cases hvalue
          obtain ⟨hfirstWf, hfirstDepth⟩ :=
            parse_member_well_formed fuel (limit - 1) _ (by omega) hfirst
          obtain ⟨hkeys, hwf, hdepth⟩ :=
            parse_members_well_formed fuel (limit - 1) [(key, first)] _ (by omega) hmembers
              (List.nodup_cons.2 ⟨List.not_mem_nil, List.nodup_nil⟩) ⟨hfirstWf, trivial⟩
              (max_lt hfirstDepth (show 0 < limit - 1 by omega))
          exact ⟨⟨hkeys, hwf⟩, show Value.depthMembers members + 1 < limit by omega⟩
      · obtain ⟨⟨number, after⟩, -, hvalue⟩ := Option.bind_eq_some_iff.1 h
        exact hleaf (.number number) trivial rfl (by cases hvalue; rfl)

/-- Items that were read are well formed, and nest less than was allowed. -/
theorem parse_items_well_formed : ∀ (fuel limit : Nat) (cs : List Char) {items : List Value}
    {rest : List Char}, 0 < limit → parseItems fuel limit cs = some (items, rest) →
    Value.WellFormedItems items ∧ Value.depthItems items < limit
  | 0, limit, cs, items, rest, _, h => by
      rw [parseItems] at h
      cases h
  | fuel + 1, limit, cs, items, rest, hlimit, h => by
      unfold parseItems at h
      split at h
      · cases h
        exact ⟨trivial, hlimit⟩
      · obtain ⟨⟨item, after⟩, hitem, h⟩ := Option.bind_eq_some_iff.1 h
        obtain ⟨⟨others, after⟩, hothers, hitems⟩ := Option.bind_eq_some_iff.1 h
        cases hitems
        obtain ⟨hitemWf, hitemDepth⟩ := parse_value_well_formed fuel limit _ hlimit hitem
        obtain ⟨hothersWf, hothersDepth⟩ := parse_items_well_formed fuel limit _ hlimit hothers
        exact ⟨⟨hitemWf, hothersWf⟩, max_lt hitemDepth hothersDepth⟩
      · cases h

/-- A member that was read is well formed, and nests less than was allowed. -/
theorem parse_member_well_formed : ∀ (fuel limit : Nat) (cs : List Char)
    {member : String × Value} {rest : List Char}, 0 < limit →
    parseMember fuel limit cs = some (member, rest) →
    member.2.WellFormed ∧ member.2.depth < limit
  | 0, limit, cs, member, rest, _, h => by
      rw [parseMember] at h
      cases h
  | fuel + 1, limit, cs, member, rest, hlimit, h => by
      unfold parseMember at h
      split at h
      · obtain ⟨⟨key, after⟩, -, h⟩ := Option.bind_eq_some_iff.1 h
        dsimp only at h
        split at h
        · obtain ⟨⟨value, after⟩, hvalue, hmember⟩ := Option.bind_eq_some_iff.1 h
          cases hmember
          exact parse_value_well_formed fuel limit _ hlimit hvalue
        · cases h
      · cases h

/-- Members that were read in addition to well-formed ones are well formed with them. -/
theorem parse_members_well_formed : ∀ (fuel limit : Nat) (before : List (String × Value))
    (cs : List Char) {members : List (String × Value)} {rest : List Char}, 0 < limit →
    parseMembers fuel limit before cs = some (members, rest) →
    (before.map (·.1)).Nodup → Value.WellFormedMembers before →
    Value.depthMembers before < limit →
    (members.map (·.1)).Nodup ∧ Value.WellFormedMembers members ∧
      Value.depthMembers members < limit
  | 0, limit, before, cs, members, rest, _, h, _, _, _ => by
      rw [parseMembers] at h
      cases h
  | fuel + 1, limit, before, cs, members, rest, hlimit, h, hkeys, hwf, hdepth => by
      unfold parseMembers at h
      split at h
      · cases h
        exact ⟨hkeys, hwf, hdepth⟩
      · obtain ⟨⟨⟨key, value⟩, after⟩, hmember, h⟩ := Option.bind_eq_some_iff.1 h
        obtain ⟨hvalueWf, hvalueDepth⟩ := parse_member_well_formed fuel limit _ hlimit hmember
        exact parse_members_well_formed fuel limit _ _ hlimit h (insert_member_nodup hkeys)
          (insert_member_well_formed hvalueWf hwf) (insert_member_depth hvalueDepth hdepth)
      · cases h
end

/-- Every value that was read is well formed and nests below the recursion limit. -/
theorem parse_well_formed {text : String} {value : Value} (h : parse text = some value) :
    value.WellFormed ∧ value.depth < recursionLimit := by
  unfold parse at h
  split at h
  · next read rest hread =>
      split_ifs at h
      cases h
      exact parse_value_well_formed _ _ _ (by decide) hread
  · cases h

/-- A value that was read is read back from its compact text. -/
theorem parse_print_parsed {text : String} {value : Value} (h : parse text = some value) :
    parse (print value) = some value :=
  parse_print (parse_well_formed h).1 (parse_well_formed h).2

/-! ## Nesting -/

mutual
/-- A reader that allows more nesting reads the same value. -/
theorem parse_value_mono : ∀ (fuel : Nat) {limit larger : Nat} {cs : List Char}
    {read : Value × List Char}, limit ≤ larger → parseValue fuel limit cs = some read →
    parseValue fuel larger cs = some read
  | 0, _, _, cs, read, _, h => by
      rw [parseValue] at h
      cases h
  | fuel + 1, limit, larger, cs, read, hle, h => by
      have hinner : limit - 1 ≤ larger - 1 := Nat.sub_le_sub_right hle 1
      rw [parseValue] at h ⊢
      generalize skipSpace cs = text at h ⊢
      split at h
      · exact h
      · exact h
      · exact h
      · exact h
      · -- an array
        rename_i rest
        split_ifs at h with hnested
        dsimp only
        rw [if_neg (by omega)]
        generalize skipSpace rest = inner at h ⊢
        split at h
        · exact h
        · rename_i hother
          obtain ⟨⟨item, after⟩, hitem, h⟩ := Option.bind_eq_some_iff.1 h
          obtain ⟨⟨items, last⟩, hitems, h⟩ := Option.bind_eq_some_iff.1 h
          refine Option.bind_eq_some_iff.2 ⟨_, parse_value_mono fuel hinner hitem, ?_⟩
          exact Option.bind_eq_some_iff.2 ⟨_, parse_items_mono fuel hinner hitems, h⟩
      · -- an object
        rename_i rest
        split_ifs at h with hnested
        dsimp only
        rw [if_neg (by omega)]
        generalize skipSpace rest = inner at h ⊢
        split at h
        · exact h
        · rename_i hother
          obtain ⟨⟨⟨key, first⟩, after⟩, hfirst, h⟩ := Option.bind_eq_some_iff.1 h
          obtain ⟨⟨members, last⟩, hmembers, h⟩ := Option.bind_eq_some_iff.1 h
          refine Option.bind_eq_some_iff.2 ⟨_, parse_member_mono fuel hinner hfirst, ?_⟩
          exact Option.bind_eq_some_iff.2 ⟨_, parse_members_mono fuel hinner hmembers, h⟩
      · exact h

theorem parse_items_mono : ∀ (fuel : Nat) {limit larger : Nat} {cs : List Char}
    {read : List Value × List Char}, limit ≤ larger → parseItems fuel limit cs = some read →
    parseItems fuel larger cs = some read
  | 0, _, _, cs, read, _, h => by
      rw [parseItems] at h
      cases h
  | fuel + 1, limit, larger, cs, read, hle, h => by
      rw [parseItems] at h ⊢
      generalize skipSpace cs = text at h ⊢
      split at h
      · exact h
      · obtain ⟨⟨item, after⟩, hitem, h⟩ := Option.bind_eq_some_iff.1 h
        obtain ⟨⟨items, last⟩, hitems, h⟩ := Option.bind_eq_some_iff.1 h
        refine Option.bind_eq_some_iff.2 ⟨_, parse_value_mono fuel hle hitem, ?_⟩
        exact Option.bind_eq_some_iff.2 ⟨_, parse_items_mono fuel hle hitems, h⟩
      · cases h

theorem parse_member_mono : ∀ (fuel : Nat) {limit larger : Nat} {cs : List Char}
    {read : (String × Value) × List Char}, limit ≤ larger →
    parseMember fuel limit cs = some read → parseMember fuel larger cs = some read
  | 0, _, _, cs, read, _, h => by
      rw [parseMember] at h
      cases h
  | fuel + 1, limit, larger, cs, read, hle, h => by
      rw [parseMember] at h ⊢
      generalize skipSpace cs = text at h ⊢
      split at h
      · obtain ⟨⟨key, after⟩, hkey, h⟩ := Option.bind_eq_some_iff.1 h
        refine Option.bind_eq_some_iff.2 ⟨_, hkey, ?_⟩
        dsimp only at h ⊢
        generalize skipSpace after = colon at h ⊢
        split at h
        · obtain ⟨⟨value, last⟩, hvalue, h⟩ := Option.bind_eq_some_iff.1 h
          exact Option.bind_eq_some_iff.2 ⟨_, parse_value_mono fuel hle hvalue, h⟩
        · cases h
      · cases h

theorem parse_members_mono : ∀ (fuel : Nat) {limit larger : Nat}
    {before : List (String × Value)} {cs : List Char}
    {read : List (String × Value) × List Char}, limit ≤ larger →
    parseMembers fuel limit before cs = some read →
    parseMembers fuel larger before cs = some read
  | 0, _, _, _, cs, read, _, h => by
      rw [parseMembers] at h
      cases h
  | fuel + 1, limit, larger, before, cs, read, hle, h => by
      rw [parseMembers] at h ⊢
      generalize skipSpace cs = text at h ⊢
      split at h
      · exact h
      · obtain ⟨⟨⟨key, value⟩, after⟩, hmember, h⟩ := Option.bind_eq_some_iff.1 h
        refine Option.bind_eq_some_iff.2 ⟨_, parse_member_mono fuel hle hmember, ?_⟩
        exact parse_members_mono fuel hle h
      · cases h
end

/-- A written value is read only as itself, and only when it nests less than the limit. -/
theorem parse_print_iff {v w : Value} (hwf : v.WellFormed) :
    parse (print v) = some w ↔ w = v ∧ v.depth < recursionLimit := by
  constructor
  · intro h
    have hdepth := (parse_well_formed h).2
    -- Without a limit the text is read as the value that was written.
    have hown := parse_value_print v (2 * (print v).toList.length + 2)
      (max recursionLimit (v.depth + 1)) [] hwf (by rw [print, String.toList_ofList]; omega)
      (by omega) stops_nil
    rw [List.append_nil, ← String.toList_ofList (l := printValue v)] at hown
    unfold parse at h
    split at h
    · next read rest hread =>
        have hlarger := parse_value_mono _ (Nat.le_max_left recursionLimit (v.depth + 1)) hread
        have hsame := hlarger.symm.trans hown
        cases hsame
        split_ifs at h
        cases h
        exact ⟨rfl, hdepth⟩
    · cases h
  · rintro ⟨rfl, hdepth⟩
    exact parse_print hwf hdepth

/-- `fromStr` reads a written value only as itself, and only when it nests less than the limit. -/
theorem from_str_print_iff {v w : Value} (hwf : v.WellFormed) :
    fromStr (print v) = .ok w ↔ w = v ∧ v.depth < recursionLimit := by
  rw [← parse_print_iff hwf]
  unfold fromStr
  cases parse (print v) with
  | none => exact ⟨fun h => (by cases h), fun h => (by cases h)⟩
  | some read => exact ⟨fun h => (by cases h; rfl), fun h => (by cases h; rfl)⟩

end PgDurable.Json
