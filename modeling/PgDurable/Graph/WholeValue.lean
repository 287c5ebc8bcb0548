import PgDurable.Graph.Braces
import PgDurable.Graph.RawReferences

/-!
# Values that are one reference

`isWholeValueReference` recognises the texts that are one reference between white space: `$name`,
`$name.col`, either with a question mark, or `{name}` (`is_whole_value_reference_iff`). Such a value
should be replaced wholesale. `replaced_wholesale_iff` says when it is: a null-safe column that the
result lacks is sent as it is written, and the value of a braced name is searched for references
in turn.
-/

namespace PgDurable

open Json Text

/-! ## The grammar -/

/-- A letter or an underscore, then letters, digits and underscores. -/
def IsIdentifier (name : List Char) : Prop :=
  ∃ c rest, name = c :: rest ∧ isIdentStart c = true ∧ ∀ d ∈ rest, isIdentContinue d = true

/-- A reference to a named result or to a variable. -/
inductive WholeReference where
  | named (reference : Reference)
  | braced (name : String)

namespace WholeReference

/-- The reference as it is written. -/
def text : WholeReference → List Char
  | named reference => reference.text
  | braced name => '\x7b' :: (name.toList ++ ['\x7d'])

/-- Names are identifiers, and a row set is no value. -/
def WellFormed : WholeReference → Prop
  | named ⟨name, .scalar _⟩ => IsIdentifier name.toList
  | named ⟨name, .column col _⟩ => IsIdentifier name.toList ∧ IsIdentifier col.toList
  | named ⟨_, .rowSet⟩ => False
  | braced name => IsIdentifier name.toList

end WholeReference

theorem is_identifier_iff (name : List Char) :
    IsIdentifier name ↔ parseIdentifier name = name ∧ name ≠ [] := by
  constructor
  · rintro ⟨c, rest, rfl, hstart, hrest⟩
    refine ⟨?_, List.cons_ne_nil _ _⟩
    rw [parseIdentifier, if_pos hstart, List.takeWhile_eq_self_iff.2 hrest]
  · rintro ⟨hparse, hne⟩
    cases name with
    | nil => exact absurd rfl hne
    | cons c rest =>
        rw [parseIdentifier] at hparse
        split_ifs at hparse with hstart
        exact ⟨c, rest, rfl, hstart, List.takeWhile_eq_self_iff.1 (List.cons.inj hparse).2⟩

/-- Other characters do not occur in an identifier. -/
theorem IsIdentifier.not_mem {name : List Char} (h : IsIdentifier name) {c : Char}
    (hc : isIdentContinue c = false) : c ∉ name := by
  obtain ⟨first, rest, rfl, hstart, hrest⟩ := h
  intro hmem
  rcases List.mem_cons.1 hmem with rfl | hmem
  · simp only [isIdentContinue, Char.isAlphanum, Bool.or_eq_false_iff] at hc
    rw [isIdentStart, hc.1.1, hc.2] at hstart
    cases hstart
  · rw [hrest c hmem] at hc
    cases hc

/-- What the code reads as an identifier is one. -/
theorem parse_identifier_self (text : List Char) :
    parseIdentifier (parseIdentifier text) = parseIdentifier text := by
  cases text with
  | nil => rfl
  | cons c rest =>
      rw [parseIdentifier]
      split_ifs with hstart
      · rw [parseIdentifier, if_pos hstart]
        rw [List.takeWhile_eq_self_iff.2 fun _ hmem => List.mem_takeWhile_imp hmem]
      · rfl

theorem parsed_is_identifier {text : List Char} (h : parseIdentifier text ≠ []) :
    IsIdentifier (parseIdentifier text) :=
  (is_identifier_iff _).2 ⟨parse_identifier_self text, h⟩

/-- An identifier is read up to a character that cannot continue it. -/
theorem IsIdentifier.parse_append {name rest : List Char} (h : IsIdentifier name)
    (hrest : rest.head?.any isIdentContinue = false) :
    parseIdentifier (name ++ rest) = name ∧ (name ++ rest).drop name.length = rest := by
  obtain ⟨hparse, hne⟩ := (is_identifier_iff name).1 h
  exact ⟨parse_identifier_of_append hparse hrest hne, List.drop_left⟩

/-- An accepted text is a reference. -/
theorem whole_reference_of_accepted {value : String} (h : isWholeValueReference value = true) :
    ∃ whole : WholeReference, whole.WellFormed ∧ trim value.toList = whole.text := by
  unfold isWholeValueReference at h
  split at h
  · rename_i rest htrim
    have hrest := parse_identifier_append rest
    dsimp only at h
    split_ifs at h with hempty
    have hname : IsIdentifier (parseIdentifier rest) :=
      parsed_is_identifier fun hnil => hempty (by rw [hnil]; rfl)
    split at h
    · rename_i afterDot hafter
      have hcol := parse_identifier_append afterDot
      rw [Bool.and_eq_true, Bool.not_eq_true', Bool.or_eq_true, List.isEmpty_iff,
        decide_eq_true_eq] at h
      obtain ⟨hnonempty, hend⟩ := h
      have hcolumn : IsIdentifier (parseIdentifier afterDot) :=
        parsed_is_identifier (List.isEmpty_eq_false_iff.1 hnonempty)
      refine ⟨.named ⟨String.ofList (parseIdentifier rest),
        .column (String.ofList (parseIdentifier afterDot))
          (decide (afterDot.drop (parseIdentifier afterDot).length = ['?']))⟩, ?_, ?_⟩
      · exact ⟨by rwa [String.toList_ofList], by rwa [String.toList_ofList]⟩
      · rw [htrim, WholeReference.text, Reference.text, ReferenceForm.suffix, String.toList_ofList,
          String.toList_ofList]
        rw [hafter] at hrest
        refine congrArg ('$' :: ·) (hrest.symm.trans
          (congrArg (fun after => parseIdentifier rest ++ '.' :: after) ?_))
        rcases hend with hend | hend
        · rw [hend] at hcol ⊢
          simpa using hcol.symm
        · rw [hend] at hcol ⊢
          simpa using hcol.symm
    · rw [Bool.or_eq_true, List.isEmpty_iff, decide_eq_true_eq] at h
      refine ⟨.named ⟨String.ofList (parseIdentifier rest),
        .scalar (decide (rest.drop (parseIdentifier rest).length = ['?']))⟩, ?_, ?_⟩
      · show IsIdentifier _
        rwa [String.toList_ofList]
      · rw [htrim, WholeReference.text, Reference.text, ReferenceForm.suffix, String.toList_ofList]
        rcases h with h | h
        · rw [h] at hrest ⊢
          simpa using hrest.symm
        · rw [h] at hrest ⊢
          simpa using hrest.symm
  · rename_i rest htrim
    have hrest := parse_identifier_append rest
    rw [Bool.and_eq_true, Bool.not_eq_true', decide_eq_true_eq] at h
    refine ⟨.braced (String.ofList (parseIdentifier rest)), ?_, ?_⟩
    · show IsIdentifier _
      rw [String.toList_ofList]
      exact parsed_is_identifier (List.isEmpty_eq_false_iff.1 h.1)
    · rw [htrim, WholeReference.text, String.toList_ofList, ← h.2, hrest]
  · cases h

/-- A reference is accepted. -/
theorem accepted_of_whole_reference {value : String} {whole : WholeReference}
    (hwell : whole.WellFormed) (htrim : trim value.toList = whole.text) :
    isWholeValueReference value = true := by
  unfold isWholeValueReference
  rw [htrim]
  cases whole with
  | named reference =>
      obtain ⟨name, form⟩ := reference
      cases form with
      | rowSet => exact hwell.elim
      | scalar nullSafe =>
          have hidentifier : IsIdentifier name.toList := hwell
          have hsuffix : (ReferenceForm.scalar nullSafe).suffix.head?.any isIdentContinue =
              false := by cases nullSafe <;> rfl
          obtain ⟨hname, hafter⟩ := hidentifier.parse_append hsuffix
          obtain ⟨c, rest, hcons, -⟩ := hidentifier
          rw [WholeReference.text, Reference.text]
          simp only [hname, hafter]
          rw [hcons]
          cases nullSafe <;> rfl
      | column col nullSafe =>
          obtain ⟨hidentifier, hcolumn⟩ := hwell
          have hmark : (if nullSafe then ['?'] else []).head?.any isIdentContinue = false := by
            cases nullSafe <;> rfl
          have hsuffix : (ReferenceForm.column col nullSafe).suffix.head?.any isIdentContinue =
              false := rfl
          obtain ⟨hname, hafter⟩ := hidentifier.parse_append hsuffix
          obtain ⟨hcol, hend⟩ := hcolumn.parse_append hmark
          obtain ⟨c, rest, hcons, -⟩ := hidentifier
          obtain ⟨d, tail, hcolcons, -⟩ := hcolumn
          rw [WholeReference.text, Reference.text]
          simp only [hname, hafter]
          simp only [ReferenceForm.suffix, hcol, hend]
          rw [hcons, hcolcons]
          cases nullSafe <;> rfl
  | braced name =>
      have hidentifier : IsIdentifier name.toList := hwell
      have hclosing : ['\x7d'].head?.any isIdentContinue = false := rfl
      obtain ⟨hname, hafter⟩ := hidentifier.parse_append hclosing
      obtain ⟨c, rest, hcons, -⟩ := hidentifier
      rw [WholeReference.text]
      simp only [hname, hafter]
      rw [hcons]
      rfl

/-! ## References between white space -/

/-- White space is no printable ASCII character. -/
theorem white_space_code {c : Char} (h : isWhitespace c = true) :
    c.toNat ≤ 32 ∨ 128 ≤ c.toNat := by
  simp only [isWhitespace, Bool.or_eq_true, Bool.and_eq_true, decide_eq_true_eq, Char.le_def,
    UInt32.le_iff_toNat_le, or_assoc] at h
  show c.val.toNat ≤ 32 ∨ 128 ≤ c.val.toNat
  rcases h with ⟨-, h⟩ | rfl | rfl | rfl | rfl | ⟨h, -⟩ | rfl | rfl | rfl | rfl | rfl
  · exact Or.inl (Nat.le_trans h (by decide))
  · decide
  · decide
  · decide
  · decide
  · exact Or.inr (Nat.le_trans (by decide) h)
  all_goals decide

theorem identifier_code {c : Char} (h : isIdentContinue c = true) :
    32 < c.toNat ∧ c.toNat < 128 := by
  delta isIdentContinue Char.isAlphanum Char.isAlpha Char.isUpper Char.isLower Char.isDigit at h
  simp only [Bool.or_eq_true, Bool.and_eq_true, decide_eq_true_eq, UInt32.le_iff_toNat_le,
    ge_iff_le] at h
  rcases h with ((h | h) | h) | rfl
  · change 65 ≤ c.toNat ∧ c.toNat ≤ 90 at h
    omega
  · change 97 ≤ c.toNat ∧ c.toNat ≤ 122 at h
    omega
  · change 48 ≤ c.toNat ∧ c.toNat ≤ 57 at h
    omega
  · decide

/-- White space belongs to no reference. -/
theorem white_space_is_plain {c : Char} (h : isWhitespace c = true) :
    isIdentContinue c = false ∧ isIdentStart c = false ∧
      c ≠ '.' ∧ c ≠ '?' ∧ c ≠ '*' ∧ c ≠ '$' ∧ c ≠ '\x7b' := by
  have hcode := white_space_code h
  have hcontinue : isIdentContinue c = false := by
    by_contra hident
    have hidentCode := identifier_code (Bool.not_eq_false _ ▸ hident)
    omega
  have hne : ∀ d : Char, 32 < d.toNat → d.toNat < 128 → c ≠ d := by
    rintro d hlow hhigh rfl
    omega
  refine ⟨hcontinue, ?_, hne _ (by decide) (by decide), hne _ (by decide) (by decide),
    hne _ (by decide) (by decide), hne _ (by decide) (by decide), hne _ (by decide) (by decide)⟩
  simp only [isIdentContinue, Char.isAlphanum, Bool.or_eq_false_iff] at hcontinue
  rw [isIdentStart, hcontinue.1.1, hcontinue.2]
  rfl

/-- No brace is opened in white space. -/
theorem brace_not_white {space : List Char} (h : ∀ c ∈ space, isWhitespace c = true) :
    '\x7b' ∉ space :=
  fun hmem => (white_space_is_plain (h _ hmem)).2.2.2.2.2.2 rfl

section Space

variable {space : List Char} (hspace : ∀ c ∈ space, isWhitespace c = true)

include hspace

/-- Dropping the plain characters. -/
theorem take_identifier_space (text : List Char) :
    (text ++ space).takeWhile isIdentContinue = text.takeWhile isIdentContinue := by
  have hnone : space.takeWhile isIdentContinue = [] := by
    cases space with
    | nil => rfl
    | cons c space =>
        rw [List.takeWhile_cons, (white_space_is_plain (hspace c (.head _))).1]
        rfl
  rw [List.takeWhile_append, hnone, List.append_nil]
  split_ifs with hall
  · exact ((List.takeWhile_prefix _).eq_of_length hall).symm
  · rfl

theorem parse_identifier_space (text : List Char) :
    parseIdentifier (text ++ space) = parseIdentifier text := by
  cases text with
  | nil =>
      cases space with
      | nil => rfl
      | cons c space =>
          have hstart := (white_space_is_plain (hspace c (.head _))).2.1
          simp [parseIdentifier, hstart]
  | cons c rest => rw [List.cons_append, parseIdentifier, take_identifier_space hspace,
      parseIdentifier]

/-- White space does not lengthen the form of a reference. -/
theorem longest_form_space (afterName : List Char) :
    longestForm (afterName ++ space) = longestForm afterName := by
  have hhead : ∀ (text : List Char) (c : Char), isWhitespace c = false →
      ((text ++ space).head? = some c ↔ text.head? = some c) := by
    intro text c hc
    cases text with
    | cons d text => exact Iff.rfl
    | nil =>
        cases space with
        | nil => exact Iff.rfl
        | cons d space =>
            refine iff_of_false ?_ (by simp)
            intro hsame
            cases hsame
            rw [hspace c (.head _)] at hc
            cases hc
  cases afterName with
  | nil =>
      cases space with
      | nil => rfl
      | cons c space =>
          have hplain := white_space_is_plain (hspace c (.head _))
          exact longest_form_other hplain.2.2.1 hplain.2.2.2.1
  | cons c rest =>
      rw [List.cons_append]
      by_cases hdot : c = '.'
      · subst hdot
        rw [longest_form_dot, longest_form_dot]
        simp only [parse_identifier_space hspace, hhead rest '*' rfl]
        have hdrop : (rest ++ space).drop (parseIdentifier rest).length =
            rest.drop (parseIdentifier rest).length ++ space := by
          have hlength := congrArg List.length (parse_identifier_append rest)
          rw [List.length_append] at hlength
          exact List.drop_append_of_le_length (by omega)
        simp only [hdrop, hhead _ '?' rfl]
      · by_cases hmark : c = '?'
        · subst hmark
          rw [longest_form_mark, longest_form_mark]
        · rw [longest_form_other hdot hmark, longest_form_other hdot hmark]

/-- White space does not change the reference before it. -/
theorem next_reference_space (known : String → Bool) (text : List Char) :
    nextReference known (text ++ space) =
      (nextReference known text).map fun found => (found.1, found.2 ++ space) := by
  have hname := congrArg List.length (parse_identifier_append text)
  rw [List.length_append] at hname
  have hdrop : (text ++ space).drop (parseIdentifier text).length =
      text.drop (parseIdentifier text).length ++ space :=
    List.drop_append_of_le_length (by omega)
  unfold nextReference
  simp only [parse_identifier_space hspace, String.toList_ofList, hdrop,
    longest_form_space hspace]
  split_ifs with hknown
  · have happlies := (longest_form_applies (text.drop (parseIdentifier text).length)).length_le
    rw [List.drop_append_of_le_length happlies]
    rfl
  · rfl

end Space

/-- The rest after a reference is no longer than the text. -/
theorem next_reference_length {known : String → Bool} {text after : List Char}
    {reference : Reference} (h : nextReference known text = some (reference, after)) :
    after.length ≤ text.length := by
  unfold nextReference at h
  dsimp only at h
  split_ifs at h
  cases h
  simp only [List.length_drop]
  omega

section Pieces

variable {known : String → Bool}

/-- A character that is no dollar sign is copied. -/
theorem pieces_other {c : Char} (h : c ≠ '$') (rest : List Char) :
    pieces (nextReference known) (c :: rest) = .copied c :: pieces (nextReference known) rest := by
  rw [pieces, List.length_cons, piecesWithin, if_pos h]
  rfl

/-- A dollar sign starts a reference or is copied. -/
theorem pieces_dollar (rest : List Char) :
    pieces (nextReference known) ('$' :: rest) =
      (nextReference known rest).elim (.copied '$' :: pieces (nextReference known) rest)
        fun found => .reference found.1 :: pieces (nextReference known) found.2 := by
  rw [pieces, List.length_cons, piecesWithin, if_neg (by decide)]
  cases hnext : nextReference known rest with
  | none => rfl
  | some found =>
      obtain ⟨reference, after⟩ := found
      exact congrArg (Piece.reference reference :: ·)
        (pieces_within_eq next_reference_length (next_reference_length hnext))

/-- Without references every character is copied. -/
theorem pieces_of_no_references {text : List Char}
    (h : references (nextReference known) text = []) :
    pieces (nextReference known) text = text.map .copied := by
  rw [references] at h
  induction text with
  | nil => rfl
  | cons c rest ih =>
      by_cases hdollar : c = '$'
      · subst hdollar
        rw [pieces_dollar] at h ⊢
        cases hnext : nextReference known rest with
        | none =>
            rw [hnext] at h
            exact congrArg (Piece.copied '$' :: ·) (ih h)
        | some found =>
            rw [hnext] at h
            cases h
      · rw [pieces_other hdollar] at h ⊢
        exact congrArg (Piece.copied c :: ·) (ih h)

variable {space : List Char} (hspace : ∀ c ∈ space, isWhitespace c = true)

include hspace

/-- White space is copied. -/
theorem pieces_space : pieces (nextReference known) space = space.map .copied := by
  refine pieces_copied (fun before rest hsplit => ?_) _
  exact absurd rfl (white_space_is_plain (hspace '$' (by rw [hsplit]; simp))).2.2.2.2.2.1

/-- White space before a text is copied. -/
theorem pieces_leading (text : List Char) :
    pieces (nextReference known) (space ++ text) =
      space.map .copied ++ pieces (nextReference known) text := by
  induction space with
  | nil => rfl
  | cons c space ih =>
      rw [List.cons_append, pieces_other (white_space_is_plain (hspace c (.head _))).2.2.2.2.2.1,
        ih fun d hd => hspace d (.tail _ hd)]
      rfl

/-- White space after a text is copied. -/
theorem pieces_trailing (text : List Char) :
    pieces (nextReference known) (text ++ space) =
      pieces (nextReference known) text ++ space.map .copied := by
  induction hlength : text.length using Nat.strong_induction_on generalizing text with
  | _ length ih =>
      cases text with
      | nil => exact pieces_space hspace
      | cons c rest =>
          have hrest := ih rest.length (by rw [← hlength]; exact Nat.lt_succ_self _) rest rfl
          by_cases hdollar : c = '$'
          · subst hdollar
            rw [List.cons_append, pieces_dollar, pieces_dollar, next_reference_space hspace]
            cases hnext : nextReference known rest with
            | none => exact congrArg (Piece.copied '$' :: ·) hrest
            | some found =>
                have hshorter := next_reference_length hnext
                rw [← hlength] at ih
                exact congrArg (Piece.reference found.1 :: ·)
                  (ih found.2.length (Nat.lt_succ_of_le hshorter) found.2 rfl)
          · rw [List.cons_append, pieces_other hdollar, pieces_other hdollar, hrest]
            rfl

end Pieces

/-! ## What a whole value is replaced by -/

/-- The text that a reference stands for: what is extracted for a bound name, computed from its
result; the value of a bound variable; or the reference as it is written. -/
def WholeReference.Refers (results vars : StringMap) (sysVars : SystemVars) (referenced : String) :
    WholeReference → Prop
  | named reference =>
      if reference.name ∈ results then
        reference.replacement (results.getD reference.name "") none = .ok referenced ∧
          ComputedFrom (results.getD reference.name "") reference.form referenced
      else referenced = String.ofList reference.text
  | braced name =>
      referenced =
        (bracedValue vars sysVars name).getD (String.ofList (WholeReference.braced name).text)

/-- The substitution fails, or it puts what the reference stands for between the white space, and no
other reference is expanded. -/
def ReplacedWholesale (value : String) (whole : WholeReference) (results vars : StringMap)
    (sysVars : SystemVars) : Prop :=
  (∃ error, substituteAllRaw value results vars sysVars = .error error) ∨
    ∃ referenced, whole.Refers results vars sysVars referenced ∧
      substituteAllRaw value results vars sysVars = .ok (String.ofList
        (leadingSpace value.toList ++ (referenced.toList ++ trailingSpace value.toList))) ∧
      ∀ reference ∈ rawReferences value results vars sysVars, whole = .named reference

/-- The value of a variable has no reference to a result, or one that cannot be replaced. -/
def OpaqueValue (value : String) (results : StringMap) : Prop :=
  references (nextReference results.contains) value.toList = [] ∨
    ∃ reference ∈ references (nextReference results.contains) value.toList,
      reference.replaceable results none = false

/-- The result has the column of a null-safe reference; the value of a variable is opaque. -/
def WholeReference.Replaceable (results vars : StringMap) (sysVars : SystemVars) :
    WholeReference → Prop
  | named reference =>
      reference.name ∈ results → ¬ reference.Absent (results.getD reference.name "")
  | braced name =>
      ∀ value, bracedValue vars sysVars name = some value → OpaqueValue value results

/-- The pieces of two texts are replaced one after the other. -/
theorem substitute_pieces_append (results : StringMap) (sqlQuoting : Option SqlQuotingVersion)
    (first second : List Piece) :
    substitutePieces results sqlQuoting (first ++ second) =
      (substitutePieces results sqlQuoting first).bind fun front =>
        (substitutePieces results sqlQuoting second).map (front ++ ·) := by
  induction first with
  | nil =>
      rw [List.nil_append]
      show _ = (substitutePieces results sqlQuoting second).map fun back => [] ++ back
      cases substitutePieces results sqlQuoting second <;> rfl
  | cons piece first ih =>
      cases piece with
      | copied c =>
          rw [List.cons_append, substitutePieces, substitutePieces, ih]
          cases substitutePieces results sqlQuoting first with
          | error error => rfl
          | ok front => cases substitutePieces results sqlQuoting second <;> rfl
      | reference reference =>
          rw [List.cons_append, substitutePieces, substitutePieces, ih]
          cases reference.replacement (results.getD reference.name "") sqlQuoting with
          | error error => rfl
          | ok text =>
              cases substitutePieces results sqlQuoting first with
              | error error => rfl
              | ok front =>
                  cases substitutePieces results sqlQuoting second with
                  | error error => rfl
                  | ok back => exact congrArg Except.ok (List.append_assoc _ _ _).symm

/-- What stands between white space is substituted alone. -/
theorem substitute_between {value between : String} {leading trailing : List Char}
    {results vars : StringMap} {sysVars : SystemVars}
    (hnames : ∀ name ∈ results, validateResultName name = .ok ())
    (hleading : ∀ c ∈ leading, isWhitespace c = true)
    (htrailing : ∀ c ∈ trailing, isWhitespace c = true)
    (hbraces : (substituteBracedVariables value vars sysVars).toList =
      leading ++ (between.toList ++ trailing)) :
    rawReferences value results vars sysVars =
        references (nextReference results.contains) between.toList ∧
      substituteAllRaw value results vars sysVars =
        (substitutePieces results none
          (pieces (nextReference results.contains) between.toList)).map fun text =>
            String.ofList (leading ++ (text ++ trailing)) := by
  have hresolved : resolvedReference (longestFirst results.keys) =
      nextReference results.contains :=
    resolved_reference_sorted (List.Perm.refl _) hnames _
  have hpieces : pieces (nextReference results.contains) (leading ++ (between.toList ++ trailing)) =
      leading.map .copied ++ (pieces (nextReference results.contains) between.toList ++
        trailing.map .copied) := by
    rw [pieces_leading hleading, pieces_trailing htrailing]
  have hcopied : ∀ text : List Char, (text.map Piece.copied).filterMap Piece.asReference = [] := by
    intro text
    simp [Piece.asReference, List.filterMap_map]
  constructor
  · rw [rawReferences, hresolved, hbraces, references, hpieces, List.filterMap_append,
      List.filterMap_append, hcopied, hcopied, List.nil_append, List.append_nil]
    rfl
  · rw [substituteAllRaw, substituteAllWithOptions, substitute_results_pieces, hresolved, hbraces,
      hpieces, substitute_pieces_append, substitute_copied, substitute_pieces_append,
      substitute_copied]
    cases substitutePieces results none (pieces (nextReference results.contains) between.toList) <;>
      simp [Except.bind, Except.map]

/-! ### Named results -/

section Named

variable {reference : Reference} (hwell : (WholeReference.named reference).WellFormed)

include hwell

/-- A reference is read as it is written, if its name is known. -/
theorem next_reference_whole (known : String → Bool) :
    nextReference known (reference.name.toList ++ reference.form.suffix) =
      if known reference.name then some (reference, []) else none := by
  obtain ⟨name, form⟩ := reference
  have hread : IsIdentifier name.toList →
      form.suffix.head?.any isIdentContinue = false → longestForm form.suffix = form →
      nextReference known (name.toList ++ form.suffix) =
        if known name then some (⟨name, form⟩, []) else none := by
    intro hidentifier hsuffix hlongest
    obtain ⟨hname, hafter⟩ := hidentifier.parse_append hsuffix
    have hne : name ≠ "" := by
      rintro rfl
      obtain ⟨c, rest, hcons, -⟩ := hidentifier
      cases hcons
    unfold nextReference
    simp only [hname, String.ofList_toList, hafter, hlongest, List.drop_length]
    by_cases hknown : known name = true
    · rw [if_pos ⟨hne, hknown⟩, if_pos hknown]
    · rw [if_neg fun h => hknown h.2, if_neg hknown]
  cases form with
  | rowSet => exact hwell.elim
  | scalar nullSafe =>
      refine hread hwell ?_ ?_
      · cases nullSafe <;> rfl
      · cases nullSafe
        · rfl
        · exact longest_form_mark []
  | column col nullSafe =>
      refine hread hwell.1 rfl ?_
      have hmark : (if nullSafe then ['?'] else []).head?.any isIdentContinue = false := by
        cases nullSafe <;> rfl
      obtain ⟨hcol, hend⟩ := hwell.2.parse_append hmark
      obtain ⟨c, rest, hcons, hstart, -⟩ := hwell.2
      rw [ReferenceForm.suffix, longest_form_dot]
      simp only [hcol, hend, String.ofList_toList]
      have hstar : (col.toList ++ if nullSafe then ['?'] else []).head? ≠ some '*' := by
        rw [hcons]
        rintro ⟨⟩
        cases hstart
      rw [if_neg hstar, hcons]
      cases nullSafe <;> rfl

/-- No dollar sign and no brace follows the one of the reference. -/
theorem whole_reference_plain :
    '$' ∉ reference.name.toList ++ reference.form.suffix ∧
      '\x7b' ∉ reference.name.toList ++ reference.form.suffix := by
  obtain ⟨name, form⟩ := reference
  have hother : ∀ c : Char, isIdentContinue c = false → c ≠ '.' → c ≠ '?' →
      c ∉ name.toList ++ form.suffix := by
    intro c hc hdot hmark hmem
    have hmarks : ∀ nullSafe : Bool, c ∉ (if nullSafe then ['?'] else []) := by
      intro nullSafe hmem
      cases nullSafe with
      | false => cases hmem
      | true => exact hmark (List.mem_singleton.1 hmem)
    cases form with
    | rowSet => exact hwell
    | scalar nullSafe =>
        rcases List.mem_append.1 hmem with hname | hsuffix
        · exact IsIdentifier.not_mem hwell hc hname
        · exact hmarks nullSafe hsuffix
    | column col nullSafe =>
        rcases List.mem_append.1 hmem with hname | hsuffix
        · exact IsIdentifier.not_mem hwell.1 hc hname
        · rcases List.mem_cons.1 hsuffix with heq | hsuffix
          · exact hdot heq
          · rcases List.mem_append.1 hsuffix with hcol | hend
            · exact hwell.2.not_mem hc hcol
            · exact hmarks nullSafe hend
  exact ⟨hother _ rfl (by decide) (by decide), hother _ rfl (by decide) (by decide)⟩

/-- A reference alone is one piece, or copied if its name is unknown. -/
theorem pieces_whole (known : String → Bool) :
    pieces (nextReference known) reference.text =
      if known reference.name then [.reference reference] else reference.text.map .copied := by
  rw [Reference.text, pieces_dollar, next_reference_whole hwell]
  split_ifs with hknown
  · rfl
  · refine congrArg (Piece.copied '$' :: ·) (pieces_copied (fun before rest hsplit => ?_) _)
    exact absurd (by rw [hsplit]; simp) (whole_reference_plain hwell).1

end Named

/-! ### The two passes -/

theorem take_while_brace {brace : Char} {before rest : List Char} (h : brace ∉ before) :
    (before ++ brace :: rest).takeWhile (· ≠ brace) = before ∧
      (before ++ brace :: rest).dropWhile (· ≠ brace) = brace :: rest := by
  have hall : ∀ c ∈ before, decide (c ≠ brace) = true := by
    intro c hc
    exact decide_eq_true fun heq => h (heq ▸ hc)
  constructor
  · rw [List.takeWhile_append_of_pos hall, List.takeWhile_cons, if_neg (by simp), List.append_nil]
  · rw [List.dropWhile_append_of_pos hall, List.dropWhile_cons, if_neg (by simp)]

/-- Without an opening brace there is nothing to replace. -/
theorem substitute_braced_none {vars : StringMap} {sysVars : SystemVars} {text : List Char}
    (h : '\x7b' ∉ text) (fuel : Nat) : substituteBracedWithin vars sysVars fuel text = text := by
  cases fuel with
  | zero => rfl
  | succ fuel =>
      have hdrop : text.dropWhile (· ≠ '\x7b') = [] := by
        rw [List.dropWhile_eq_nil_iff]
        exact fun c hc => decide_eq_true fun heq => h (heq ▸ hc)
      rw [substituteBracedWithin]
      simp only [hdrop]

/-- Between white space, a braced name is the one that is replaced. -/
theorem substitute_braced_between {value : String} {leading trailing name : List Char}
    (vars : StringMap) (sysVars : SystemVars)
    (hvalue : value.toList = leading ++ ('\x7b' :: (name ++ '\x7d' :: trailing)))
    (hleading : '\x7b' ∉ leading) (hname : '\x7d' ∉ name) (htrailing : '\x7b' ∉ trailing) :
    (substituteBracedVariables value vars sysVars).toList =
      leading ++ ((bracedValue vars sysVars (String.ofList name)).elim
        ('\x7b' :: (name ++ ['\x7d'])) String.toList ++ trailing) := by
  rw [substituteBracedVariables, String.toList_ofList, hvalue]
  obtain ⟨fuel, hfuel⟩ : ∃ fuel,
      (leading ++ ('\x7b' :: (name ++ '\x7d' :: trailing))).length = fuel + 1 :=
    ⟨_, by simp only [List.length_append, List.length_cons]; rfl⟩
  obtain ⟨hbefore, hopen⟩ :=
    @take_while_brace _ _ (name ++ '\x7d' :: trailing) hleading
  obtain ⟨hinside, hclose⟩ := @take_while_brace _ _ trailing hname
  rw [hfuel, substituteBracedWithin]
  simp only [hbefore, hopen, hinside, hclose, substitute_braced_none htrailing]
  cases bracedValue vars sysVars (String.ofList name) <;> simp

/-! ## When the value is replaced wholesale -/

/-- A null-safe column that the result lacks is echoed. -/
theorem absent_replacement {reference : Reference} {json : String} (h : reference.Absent json) :
    reference.replacement json none = .ok (String.ofList reference.text) := by
  obtain ⟨name, form⟩ := reference
  obtain ⟨col, fields, hform, hfields, hlookup⟩ := h
  dsimp only at hform
  subst hform
  refine (absent_column_echoed hfields hlookup).trans ?_
  refine congrArg Except.ok (String.toList_inj.1 ?_)
  simp [Reference.text, ReferenceForm.suffix]

section Wholesale

variable {value : String} {results vars : StringMap} {sysVars : SystemVars}
  (hnames : ∀ name ∈ results, validateResultName name = .ok ())

include hnames

/-- A named reference is replaced wholesale unless it is a null-safe column that its result lacks. -/
theorem named_replaced_iff {reference : Reference}
    (hwell : (WholeReference.named reference).WellFormed)
    (htrim : trim value.toList = reference.text) :
    ReplacedWholesale value (.named reference) results vars sysVars ↔
      (WholeReference.named reference).Replaceable results vars sysVars := by
  have hvalue := trim_append value.toList
  rw [htrim] at hvalue
  have hbraces : (substituteBracedVariables value vars sysVars).toList =
      leadingSpace value.toList ++
        ((String.ofList reference.text).toList ++ trailingSpace value.toList) := by
    rw [substituteBracedVariables, String.toList_ofList, String.toList_ofList, hvalue,
      substitute_braced_none]
    rw [← hvalue, Reference.text]
    simp only [List.mem_append, List.mem_cons, not_or]
    have hplain := (whole_reference_plain hwell).2
    rw [List.mem_append, not_or] at hplain
    exact ⟨brace_not_white (leading_space_white _), ⟨by decide, hplain⟩,
      brace_not_white (trailing_space_white _)⟩
  obtain ⟨hraw, hsubstitute⟩ := substitute_between hnames (leading_space_white value.toList)
    (trailing_space_white value.toList) hbraces
  rw [String.toList_ofList, references, pieces_whole hwell] at hraw
  rw [String.toList_ofList, pieces_whole hwell] at hsubstitute
  unfold ReplacedWholesale WholeReference.Refers WholeReference.Replaceable
  by_cases hmem : reference.name ∈ results
  · rw [Std.ExtTreeMap.contains_iff_mem.2 hmem, if_pos rfl] at hraw hsubstitute
    simp only [if_pos hmem, hraw, hsubstitute]
    cases hreplacement : reference.replacement (results.getD reference.name "") none with
    | error error =>
        refine iff_of_true (Or.inl ⟨error, ?_⟩) fun _ habsent => ?_
        · rw [substitutePieces, hreplacement]
          rfl
        · rw [absent_replacement habsent] at hreplacement
          cases hreplacement
    | ok text =>
        rw [← replacement_computed_iff hreplacement]
        have hpieces : substitutePieces results none [.reference reference] = .ok text.toList := by
          rw [substitutePieces, hreplacement]
          exact congrArg Except.ok (List.append_nil _)
        rw [hpieces]
        constructor
        · rintro (⟨error, herror⟩ | ⟨referenced, ⟨hsame, hcomputed⟩, -⟩) _
          · cases herror
          · cases hsame
            exact hcomputed
        · intro hcomputed
          exact Or.inr ⟨text, ⟨rfl, hcomputed hmem⟩, rfl, by simp [Piece.asReference]⟩
  · have hcontains : results.contains reference.name = false := by
      rw [← Bool.not_eq_true, Std.ExtTreeMap.contains_iff_mem]
      exact hmem
    rw [hcontains, if_neg Bool.false_ne_true] at hraw hsubstitute
    refine iff_of_true (Or.inr ⟨String.ofList reference.text, ?_, ?_, ?_⟩) fun h => absurd h hmem
    · show if reference.name ∈ results then _ else _
      rw [if_neg hmem]
    · rw [hsubstitute, substitute_copied, String.toList_ofList]
      rfl
    · rw [hraw]
      simp [List.filterMap_map, Piece.asReference]

/-- A braced name is replaced wholesale exactly if the value of its variable is opaque. -/
theorem braced_replaced_iff {name : String} (hwell : (WholeReference.braced name).WellFormed)
    (htrim : trim value.toList = (WholeReference.braced name).text) :
    ReplacedWholesale value (.braced name) results vars sysVars ↔
      (WholeReference.braced name).Replaceable results vars sysVars := by
  have hvalue := (trim_append value.toList).symm
  rw [htrim] at hvalue
  have hsplit : value.toList = leadingSpace value.toList ++
      ('\x7b' :: (name.toList ++ '\x7d' :: trailingSpace value.toList)) := by
    rw [WholeReference.text] at hvalue
    simpa using hvalue
  have hbraces := substitute_braced_between vars sysVars hsplit
    (brace_not_white (leading_space_white _)) (IsIdentifier.not_mem hwell rfl)
    (brace_not_white (trailing_space_white _))
  rw [String.ofList_toList] at hbraces
  let referenced :=
    (bracedValue vars sysVars name).getD (String.ofList (WholeReference.braced name).text)
  have hreferenced : (bracedValue vars sysVars name).elim
      ('\x7b' :: (name.toList ++ ['\x7d'])) String.toList = referenced.toList := by
    show _ = ((bracedValue vars sysVars name).getD _).toList
    cases bracedValue vars sysVars name with
    | none => exact String.toList_ofList.symm
    | some bound => rfl
  rw [hreferenced] at hbraces
  obtain ⟨hraw, hsubstitute⟩ := substitute_between hnames (leading_space_white value.toList)
    (trailing_space_white value.toList) hbraces
  have hfails := substitute_all_raw_fails_iff value results vars sysVars
  rw [hraw] at hfails
  have hwhole : ReplacedWholesale value (.braced name) results vars sysVars ↔
      OpaqueValue referenced results := by
    unfold ReplacedWholesale OpaqueValue
    rw [hfails, hraw, or_comm]
    refine or_congr_left ?_
    constructor
    · rintro ⟨-, -, -, hown⟩
      exact List.eq_nil_iff_forall_not_mem.2 fun reference hmem => by cases hown reference hmem
    · intro hnone
      refine ⟨referenced, rfl, ?_, ?_⟩
      · rw [hsubstitute, pieces_of_no_references hnone, substitute_copied]
        rfl
      · rw [hnone]
        exact List.forall_mem_nil _
  rw [hwhole]
  show _ ↔ ∀ bound, bracedValue vars sysVars name = some bound → OpaqueValue bound results
  cases hbound : bracedValue vars sysVars name with
  | none =>
      refine iff_of_true (Or.inl ?_) fun bound hsome => (by cases hsome)
      show references _ ((bracedValue vars sysVars name).getD _).toList = []
      rw [hbound, Option.getD_none, String.toList_ofList, references, pieces, pieces_copied]
      · simp [List.filterMap_map, Piece.asReference]
      · intro before rest htext
        have hdollar : '$' ∈ (WholeReference.braced name).text := by
          rw [htext]
          simp
        rw [WholeReference.text, List.mem_cons, List.mem_append, List.mem_singleton] at hdollar
        rcases hdollar with hdollar | hdollar | hdollar
        · cases hdollar
        · exact absurd hdollar (IsIdentifier.not_mem hwell rfl)
        · cases hdollar
  | some bound =>
      show OpaqueValue ((bracedValue vars sysVars name).getD _) results ↔ _
      rw [hbound]
      simp

end Wholesale

/-- The accepted texts are one reference between white space; they are replaced wholesale exactly if a
named reference is no null-safe column that its result lacks, and the value of a braced variable is
opaque. -/
theorem replaced_wholesale_iff (value : String) :
    (isWholeValueReference value = true ↔
      ∃ whole : WholeReference, whole.WellFormed ∧ trim value.toList = whole.text) ∧
    ∀ whole results vars sysVars, whole.WellFormed → trim value.toList = whole.text →
      (∀ name ∈ results, validateResultName name = .ok ()) →
        (ReplacedWholesale value whole results vars sysVars ↔
          whole.Replaceable results vars sysVars) := by
  refine ⟨⟨whole_reference_of_accepted, fun ⟨whole, hwell, htrim⟩ =>
    accepted_of_whole_reference hwell htrim⟩, ?_⟩
  intro whole results vars sysVars hwell htrim hnames
  cases whole with
  | named reference => exact named_replaced_iff hnames hwell htrim
  | braced name => exact braced_replaced_iff hnames hwell htrim

/-- The results of a workflow and a variable whose value looks like a reference. -/
def secondPass : StringMap × StringMap :=
  ((∅ : StringMap).insert "r" "payload", (∅ : StringMap).insert "n" "$r")

/-- A variable whose value looks like a reference to a result is expanded. -/
theorem variable_value_expanded :
    isWholeValueReference "\x7bn\x7d" = true ∧
      substituteAllRaw "\x7bn\x7d" secondPass.1 secondPass.2 ⟨"aaaaaaaa", none⟩ =
        .ok "payload" ∧
      ¬ ReplacedWholesale "\x7bn\x7d" (.braced "n") secondPass.1 secondPass.2
        ⟨"aaaaaaaa", none⟩ := by
  have hsubstitute : substituteAllRaw "\x7bn\x7d" secondPass.1 secondPass.2 ⟨"aaaaaaaa", none⟩ =
      .ok "payload" := by decide +kernel
  have hbound : bracedValue secondPass.2 ⟨"aaaaaaaa", none⟩ "n" = some "$r" := by decide +kernel
  refine ⟨by decide, hsubstitute, ?_⟩
  rintro (⟨error, herror⟩ | ⟨referenced, hrefers, hreplaced, -⟩)
  · rw [hsubstitute] at herror
    cases herror
  · have hvalue : referenced = "$r" := by
      refine Eq.trans hrefers ?_
      rw [hbound]
      rfl
    subst hvalue
    rw [hsubstitute] at hreplaced
    exact absurd (Except.ok.inj hreplaced) (by decide)

end PgDurable
