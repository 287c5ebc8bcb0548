import PgDurable.Graph.Braces
import PgDurable.Graph.HttpConfig

/-!
# The size check at submission

`df.start` checks the size of a request body before its references are replaced, and leaves out
what reads as a reference. A body that reads as a literal is counted as it is, so it must not get
shorter later. `literal_unchanged` says that it stays as it is, except for an empty pair of braces
when a variable has the empty name; then `empty_pairs_shrink`. The lengths that the check adds up
are `requestPieces`, and `check_rejects_mono` compares the check of two configurations by them.
-/

namespace PgDurable

open Json Text

/-! ## Literal bodies -/

/-- The code finds an empty pair of braces in the body. -/
def EmptyPair (body : String) : Prop := ∃ pair ∈ bracePairs body, pair.inside = []

instance (body : String) : Decidable (EmptyPair body) :=
  inferInstanceAs (Decidable (∃ pair ∈ bracePairs body, pair.inside = []))

/-- A reference is found wherever it stands. -/
theorem has_references_append (before : List Char) {rest : List Char}
    (h : httpBodyHasReferences rest = true) : httpBodyHasReferences (before ++ rest) = true := by
  induction before with
  | nil => exact h
  | cons c before ih =>
      rw [List.cons_append, httpBodyHasReferences, ih, Bool.or_true]

/-- In a literal body no identifier follows a dollar sign. -/
theorem literal_dollar {body before rest : List Char} (h : httpBodyHasReferences body = false)
    (hbody : body = before ++ '$' :: rest) : parseIdentifier rest = [] := by
  by_contra hname
  have hfound : httpBodyHasReferences ('$' :: rest) = true := by
    have hnonempty : (parseIdentifier rest).isEmpty = false :=
      List.isEmpty_eq_false_iff.2 hname
    simp [httpBodyHasReferences, hnonempty]
  rw [hbody, has_references_append before hfound] at h
  cases h

/-- In a literal body no pair of braces encloses an identifier. -/
theorem literal_brace {body before name rest : List Char}
    (h : httpBodyHasReferences body = false)
    (hbody : body = before ++ '\x7b' :: (name ++ '\x7d' :: rest))
    (hname : parseIdentifier name = name) : name = [] := by
  by_contra hne
  have hread : parseIdentifier (name ++ '\x7d' :: rest) = name :=
    parse_identifier_of_append hname rfl hne
  have hfound : httpBodyHasReferences ('\x7b' :: (name ++ '\x7d' :: rest)) = true := by
    have hnonempty : name.isEmpty = false := List.isEmpty_eq_false_iff.2 hne
    simp [httpBodyHasReferences, hread, hnonempty]
  rw [hbody, has_references_append before hfound] at h
  cases h

/-- A pair stands somewhere in the template. -/
theorem pair_in_template {template : String} {pair : BracePair}
    (h : pair ∈ bracePairs template) :
    ∃ before rest, template.toList =
      before ++ '\x7b' :: (pair.inside ++ '\x7d' :: rest) := by
  obtain ⟨front, back, hsplit⟩ := List.append_of_mem h
  have htext := (brace_pairs_within_pairing (Nat.le_refl template.toList.length)).text_eq
  rw [bracePairs] at hsplit
  rw [hsplit, List.flatMap_append, List.flatMap_cons, BracePair.text] at htext
  exact ⟨front.flatMap BracePair.text ++ pair.before, back.flatMap BracePair.text ++
    (bracePairsWithin template.toList.length template.toList).2, htext.trans (by simp)⟩

/-- What the code puts for a braced name is bound under an identifier, or under the empty name. -/
theorem braced_value_some {vars : StringMap} {sysVars : SystemVars} {name : List Char}
    {value : String} (h : bracedValue vars sysVars (String.ofList name) = some value) :
    parseIdentifier name = name ∧ (name = [] → vars[""]? = some value) := by
  unfold bracedValue at h
  split_ifs at h with hinstance hlabel hname
  · have hlist : name = "sys_instance_id".toList := by rw [← hinstance, String.toList_ofList]
    rw [hlist]
    exact ⟨by decide, fun hnil => absurd hnil (by decide)⟩
  · have hlist : name = "sys_label".toList := by rw [← hlabel, String.toList_ofList]
    rw [hlist]
    exact ⟨by decide, fun hnil => absurd hnil (by decide)⟩
  · rw [String.toList_ofList] at hname
    have hwhole := parse_identifier_append name
    rw [hname, List.drop_length, List.append_nil] at hwhole
    refine ⟨hwhole, ?_⟩
    rintro rfl
    exact h

/-- In a literal body nothing is put for a pair that is not empty. -/
theorem literal_pair {body : String} {pair : BracePair} {vars : StringMap}
    {sysVars : SystemVars} (h : httpBodyHasReferences body.toList = false)
    (hpair : pair ∈ bracePairs body) (hinside : pair.inside ≠ []) :
    pair.replaced vars sysVars = pair.text := by
  obtain ⟨before, rest, hbody⟩ := pair_in_template hpair
  cases hvalue : bracedValue vars sysVars (String.ofList pair.inside) with
  | some value => exact absurd (literal_brace h hbody (braced_value_some hvalue).1) hinside
  | none =>
      rw [BracePair.replaced, hvalue]
      rfl

/-- The template is its pairs and what follows them. -/
theorem template_pairs (template : String) :
    template.toList = (bracePairs template).flatMap BracePair.text ++
      (bracePairsWithin template.toList.length template.toList).2 :=
  (brace_pairs_within_pairing (Nat.le_refl template.toList.length)).text_eq

theorem substitute_braced_pairs (template : String) (vars : StringMap) (sysVars : SystemVars) :
    (substituteBracedVariables template vars sysVars).toList =
      (bracePairs template).flatMap (BracePair.replaced vars sysVars) ++
        (bracePairsWithin template.toList.length template.toList).2 := by
  rw [substituteBracedVariables, String.toList_ofList, substitute_braced_within_eq]
  rfl

/-- A text in which no identifier follows a dollar sign keeps its results. -/
theorem substitute_results_literal {text : String} {results : StringMap}
    (hnames : ∀ name ∈ results, validateResultName name = .ok ())
    (h : ∀ before rest, text.toList = before ++ '$' :: rest → parseIdentifier rest = [])
    (sqlQuoting : Option SqlQuotingVersion) :
    substituteResults text results sqlQuoting = .ok text := by
  rw [substitute_results_pieces, longestFirst, resolved_reference_sorted (List.Perm.refl _) hnames,
    pieces, pieces_copied fun before rest hsplit => ?_, substitute_copied]
  · exact congrArg Except.ok String.ofList_toList
  · simp [nextReference, h before rest hsplit]

/-- A literal body stays as it is, unless it has an empty pair of braces and a variable has the empty
name. -/
theorem literal_unchanged {body : String} {results vars : StringMap}
    (h : httpBodyHasReferences body.toList = false)
    (hnames : ∀ name ∈ results, validateResultName name = .ok ())
    (hempty : EmptyPair body → vars[""]? = none) (sysVars : SystemVars) :
    substituteAllRaw body results vars sysVars = .ok body := by
  have hpairs : ∀ pair ∈ bracePairs body, pair.replaced vars sysVars = pair.text := by
    intro pair hpair
    by_cases hinside : pair.inside = []
    · have hnone := hempty ⟨pair, hpair, hinside⟩
      rw [BracePair.replaced, hinside]
      cases hvalue : bracedValue vars sysVars (String.ofList []) with
      | some value =>
          rw [(braced_value_some hvalue).2 rfl] at hnone
          cases hnone
      | none => rw [BracePair.text, hinside]
    · exact literal_pair h hpair hinside
  have hbraces : substituteBracedVariables body vars sysVars = body := by
    rw [← String.toList_inj, substitute_braced_pairs, List.flatMap_congr hpairs]
    exact (template_pairs body).symm
  rw [substituteAllRaw, substituteAllWithOptions, hbraces]
  exact substitute_results_literal hnames (fun before rest hsplit => literal_dollar h hsplit) none

theorem byte_length_flat_map_le {α : Type} {pairs : List α} {first second : α → List Char}
    (h : ∀ pair ∈ pairs, byteLength (first pair) ≤ byteLength (second pair)) :
    byteLength (pairs.flatMap first) ≤ byteLength (pairs.flatMap second) := by
  induction pairs with
  | nil => exact Nat.le_refl _
  | cons pair pairs ih =>
      obtain ⟨hpair, hpairs⟩ := List.forall_mem_cons.1 h
      rw [List.flatMap_cons, List.flatMap_cons, byte_length_append, byte_length_append]
      exact Nat.add_le_add hpair (ih hpairs)

/-- A variable with the empty name and an empty value takes empty pairs away. -/
theorem empty_pairs_shrink {body : String} (h : httpBodyHasReferences body.toList = false)
    (hempty : EmptyPair body) (sysVars : SystemVars) :
    ∃ shorter, substituteAllRaw body ∅ ((∅ : StringMap).insert "" "") sysVars = .ok shorter ∧
      shorter.utf8ByteSize < body.utf8ByteSize := by
  let replaced := BracePair.replaced ((∅ : StringMap).insert "" "") sysVars
  have hshorter : ∀ pair, pair.inside = [] →
      byteLength (replaced pair) < byteLength pair.text := by
    intro pair hinside
    have hvalue : bracedValue ((∅ : StringMap).insert "" "") sysVars (String.ofList []) =
        some "" := by
      simp [bracedValue, parseIdentifier]
    have hreplaced : replaced pair = pair.before ++ "".toList := by
      show BracePair.replaced _ _ _ = _
      rw [BracePair.replaced, hinside, hvalue]
    rw [hreplaced, BracePair.text, hinside, byte_length_append, byte_length_append]
    exact Nat.add_lt_add_left (by decide) _
  have hpair : ∀ pair ∈ bracePairs body, byteLength (replaced pair) ≤ byteLength pair.text := by
    intro pair hmem
    by_cases hinside : pair.inside = []
    · exact Nat.le_of_lt (hshorter pair hinside)
    · exact Nat.le_of_eq (congrArg byteLength (literal_pair h hmem hinside))
  refine ⟨substituteBracedVariables body ((∅ : StringMap).insert "" "") sysVars, rfl, ?_⟩
  have htemplate := congrArg byteLength (template_pairs body)
  have hresult : byteLength
      (substituteBracedVariables body ((∅ : StringMap).insert "" "") sysVars).toList =
      byteLength ((bracePairs body).flatMap replaced ++
        (bracePairsWithin body.toList.length body.toList).2) :=
    congrArg byteLength (substitute_braced_pairs body _ sysVars)
  rw [byte_length_append, byte_length_to_list] at htemplate hresult
  have hflat : byteLength ((bracePairs body).flatMap replaced) <
      byteLength ((bracePairs body).flatMap BracePair.text) := by
    obtain ⟨pair, hmem, hinside⟩ := hempty
    obtain ⟨front, back, hsplit⟩ := List.append_of_mem hmem
    have hfront := byte_length_flat_map_le fun other hother =>
      hpair other (hsplit ▸ List.mem_append_left _ hother)
    have hback := byte_length_flat_map_le fun other hother =>
      hpair other (hsplit ▸ List.mem_append_right _ (List.mem_cons_of_mem _ hother))
    have hone := hshorter pair hinside
    rw [hsplit]
    simp only [List.flatMap_append, List.flatMap_cons, byte_length_append]
    omega
  omega

/-! ## What is counted -/

/-- The length of a body that is counted. -/
def bodyPieces (allowReferences : Bool) (config : Value) : List Nat :=
  match (config.get? "body").bind Value.asStr with
  | some body =>
      if !allowReferences || !httpBodyHasReferences body.toList then [body.utf8ByteSize] else []
  | none => []

/-- The length of a payload that is counted. -/
def partPiece (allowReferences : Bool) (part : Value) : Option Nat :=
  match (part.get? "data_b64").bind Value.asStr with
  | some data =>
      if allowReferences && isWholeValueReference data then none
      else some (base64DecodedLength data)
  | none => none

/-- The length of a form that is counted. -/
def formPieces (config : Value) : List Nat :=
  match (config.get? "form_fields").bind Value.asObject with
  | some fields => [formLength fields]
  | none => []

/-- The parts of a configuration. -/
def partsOf (config : Value) : List Value :=
  ((config.get? "parts").bind Value.asArray).getD []

/-- Everything that is counted. -/
def requestPieces (allowReferences : Bool) (config : Value) : List Nat :=
  bodyPieces allowReferences config ++ (partsOf config).filterMap (partPiece allowReferences) ++
    formPieces config

theorem as_u64_lt {value : Value} {n : Nat} (h : value.asU64 = some n) : n < 2 ^ 64 := by
  unfold Value.asU64 Number.asU64 at h
  split at h
  · split_ifs at h with hrange
    cases h
    simp only [Bool.and_eq_true, decide_eq_true_eq] at hrange
    exact hrange.2
  · cases h

/-- With a limit, the check adds up what is counted. -/
theorem check_within {config limit : Value} {bytes : Nat}
    (hlimit : config.get? "max_request_bytes" = some limit) (hbytes : limit.asU64 = some bytes)
    (allowReferences : Bool) :
    checkHttpRequestSize config allowReferences =
      (addBytes bytes 0 (requestPieces allowReferences config)).map fun _ => () := by
  unfold checkHttpRequestSize
  rw [hlimit]
  cases limit with
  | number n =>
      simp only [hbytes]
      rfl
  | null => cases hbytes
  | bool value => cases hbytes
  | string text => cases hbytes
  | array items => cases hbytes
  | object members => cases hbytes

/-- A configuration that was rejected is rejected again when its limit is the same and no less is
counted. -/
theorem check_rejects_mono {config later : Value} {error : String}
    (hlimit : later.get? "max_request_bytes" = config.get? "max_request_bytes")
    (hsum : (requestPieces true config).sum ≤ (requestPieces false later).sum)
    (h : checkHttpRequestSize config true = .error error) :
    ∃ message, checkHttpRequestSize later false = .error message := by
  cases hvalue : config.get? "max_request_bytes" with
  | none =>
      rw [checkHttpRequestSize, hvalue] at h
      cases h
  | some limit =>
      cases hbytes : limit.asU64 with
      | none =>
          rw [hvalue] at hlimit
          refine ⟨error, ?_⟩
          unfold checkHttpRequestSize at h ⊢
          rw [hvalue] at h
          rw [hlimit]
          cases limit with
          | null => cases h
          | number n =>
              simp only [hbytes] at h ⊢
              exact h
          | bool value => exact h
          | string text => exact h
          | array items => exact h
          | object members => exact h
      | some bytes =>
          rw [check_within hvalue hbytes] at h
          rw [check_within (hlimit.trans hvalue) hbytes]
          cases hlater : addBytes bytes 0 (requestPieces false later) with
          | error message => exact ⟨message, rfl⟩
          | ok total =>
              have hwithin := (add_bytes_ok_iff (as_u64_lt hbytes) _ 0 (Nat.zero_le _)).1
                (congrArg (Except.map fun _ => ()) hlater)
              rw [(add_bytes_ok_iff (as_u64_lt hbytes) _ 0 (Nat.zero_le _)).2 (by omega)] at h
              cases h

/-! ## What substitution keeps -/

/-- Only an object has members. -/
theorem object_of_get {α : Type} {config : Value} {key : String} {read : Value → Option α}
    {found : α} (h : (config.get? key).bind read = some found) :
    ∃ members, config = .object members := by
  cases config with
  | object members => exact ⟨members, rfl⟩
  | null => cases h
  | bool value => cases h
  | number n => cases h
  | string value => cases h
  | array items => cases h

section Kept

variable {substitute : TextSubstitution} {config later : Value}

/-- Substituting a member keeps every other member. -/
theorem substitute_member_other {key other : String} (hne : other ≠ key)
    (h : substituteMember substitute key config = .ok later) :
    later.get? other = config.get? other := by
  unfold substituteMember at h
  split at h
  · rename_i members text htext
    obtain ⟨substituted, hsubstituted, h⟩ := bind_eq_ok h
    cases h
    show (insertMember key _ members).lookup other = members.lookup other
    rw [lookup_insert_member, if_neg hne]
  · cases h
    rfl

/-- The text of a substituted member is the one that the substitution returned. -/
theorem substitute_member_same {key text : String}
    (htext : (config.get? key).bind Value.asStr = some text)
    (h : substituteMember substitute key config = .ok later) :
    ∃ substituted, substitute text = .ok substituted ∧
      (later.get? key).bind Value.asStr = some substituted := by
  unfold substituteMember at h
  split at h
  · rename_i members found hfound
    rw [htext] at hfound
    cases hfound
    obtain ⟨substituted, hsubstituted, h⟩ := bind_eq_ok h
    cases h
    refine ⟨substituted, hsubstituted, ?_⟩
    show ((insertMember key _ members).lookup key).bind Value.asStr = _
    rw [lookup_insert_member, if_pos rfl]
    rfl
  · rename_i hnone
    obtain ⟨members, rfl⟩ := object_of_get htext
    exact absurd htext (hnone members text rfl)

/-- Substituting the headers keeps every other member. -/
theorem substitute_headers_other {other : String} (hne : other ≠ "headers")
    (h : substituteHeaders substitute config = .ok later) :
    later.get? other = config.get? other := by
  unfold substituteHeaders at h
  split at h
  · rename_i members headers hheaders
    obtain ⟨substituted, hsubstituted, h⟩ := bind_eq_ok h
    cases h
    show (insertMember "headers" _ members).lookup other = members.lookup other
    rw [lookup_insert_member, if_neg hne]
  · cases h
    rfl

/-- Substituting the parts keeps every other member. -/
theorem substitute_parts_other {nodeId other : String} (hne : other ≠ "parts")
    (h : substituteParts substitute nodeId config = .ok later) :
    later.get? other = config.get? other := by
  unfold substituteParts at h
  split at h
  · rename_i members parts hparts
    obtain ⟨substituted, hsubstituted, h⟩ := bind_eq_ok h
    cases h
    show (insertMember "parts" _ members).lookup other = members.lookup other
    rw [lookup_insert_member, if_neg hne]
  · cases h
    rfl

/-- The parts are substituted one by one. -/
theorem substitute_parts_forall {nodeId : String}
    (h : substituteParts substitute nodeId config = .ok later) :
    List.Forall₂ (fun part later => substitutePart substitute nodeId part = .ok later)
      (partsOf config) (partsOf later) := by
  unfold substituteParts at h
  split at h
  · rename_i members parts hparts
    obtain ⟨substituted, hsubstituted, h⟩ := bind_eq_ok h
    cases h
    have hbefore : partsOf (.object members) = parts := by
      rw [partsOf, hparts]
      rfl
    have hafter : partsOf (.object (insertMember "parts" (.array substituted) members)) =
        substituted := by
      show (((insertMember "parts" _ members).lookup "parts").bind Value.asArray).getD [] = _
      rw [lookup_insert_member, if_pos rfl]
      rfl
    rw [hbefore, hafter]
    exact (map_m_eq_ok_iff _ _).1 hsubstituted
  · rename_i hnone
    cases h
    cases hparts : (later.get? "parts").bind Value.asArray with
    | none =>
        rw [partsOf, hparts]
        exact .nil
    | some parts =>
        obtain ⟨members, rfl⟩ := object_of_get hparts
        exact absurd hparts (hnone members parts rfl)

/-- A payload counts no less after the substitution than at submission. -/
theorem part_piece_le {nodeId : String} (part : Value)
    (h : substitutePart substitute nodeId part = .ok later) :
    (partPiece true part).getD 0 ≤ (partPiece false later).getD 0 := by
  obtain ⟨named, hnamed, h⟩ := bind_eq_ok h
  obtain ⟨filed, hfiled, h⟩ := bind_eq_ok h
  have hdata : (filed.get? "data_b64") = part.get? "data_b64" :=
    (substitute_member_other (by decide) hfiled).trans
      (substitute_member_other (by decide) hnamed)
  cases htext : (part.get? "data_b64").bind Value.asStr with
  | none =>
      rw [partPiece, htext]
      exact Nat.zero_le _
  | some data =>
      rw [hdata, htext] at h
      by_cases hwhole : isWholeValueReference data = true
      · rw [partPiece, htext]
        simp [hwhole]
      · dsimp only at h
        rw [if_neg hwhole] at h
        split_ifs at h
        cases h
        rw [partPiece, partPiece, hdata, htext]
        simp [hwhole]

theorem filter_map_sum {f : Value → Option Nat} (parts : List Value) :
    (parts.filterMap f).sum = (parts.map fun part => (f part).getD 0).sum := by
  induction parts with
  | nil => rfl
  | cons part parts ih =>
      rw [List.filterMap_cons, List.map_cons, List.sum_cons, ← ih]
      cases f part <;> simp

/-- The payloads count no less after the substitution than at submission. -/
theorem parts_pieces_le {nodeId : String}
    (h : substituteParts substitute nodeId config = .ok later) :
    ((partsOf config).filterMap (partPiece true)).sum ≤
      ((partsOf later).filterMap (partPiece false)).sum := by
  have hparts := substitute_parts_forall h
  generalize partsOf config = parts, partsOf later = laterParts at hparts
  rw [filter_map_sum, filter_map_sum]
  induction hparts with
  | nil => exact Nat.le_refl _
  | cons hpart _ ih => exact Nat.add_le_add (part_piece_le _ hpart) ih

end Kept

end PgDurable
