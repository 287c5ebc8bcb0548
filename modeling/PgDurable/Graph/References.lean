import PgDurable.Graph.Substitution
import PgDurable.Library.Utf8

/-!
# References to named results

`$name.*`, `$name.col?`, `$name.col`, `$name?` and `$name`, as the user reads them: at each dollar
sign the longest identifier that follows is taken, and if it names a result, the longest form that
applies. `nextReference` says so, and `substituted` replaces the references of a text one by one.
The code tries all names, on byte positions; `substitute_results_munches` says that it does
the same, in whatever order its map enumerates the names.
-/

namespace PgDurable

open Json Text

/-! ## References -/

/-- The forms of a reference. -/
inductive ReferenceForm where
  | rowSet
  | column (col : String) (nullSafe : Bool)
  | scalar (nullSafe : Bool)
  deriving DecidableEq

/-- What is written after the name. -/
def ReferenceForm.suffix : ReferenceForm → List Char
  | .rowSet => ['.', '*']
  | .column col nullSafe => '.' :: (col.toList ++ if nullSafe then ['?'] else [])
  | .scalar nullSafe => if nullSafe then ['?'] else []

/-- A reference to a named result. -/
structure Reference where
  name : String
  form : ReferenceForm
  deriving DecidableEq

/-- The reference as it is written. -/
def Reference.text (reference : Reference) : List Char :=
  '$' :: (reference.name.toList ++ reference.form.suffix)

/-- The text that replaces the reference, given its result. -/
def Reference.replacement (reference : Reference) (json : String)
    (sqlQuoting : Option SqlQuotingVersion) : Except String String :=
  match reference.form with
  | .rowSet => expandRowSet reference.name json sqlQuoting
  | .column col nullSafe => extractColumnValue reference.name json col nullSafe sqlQuoting
  | .scalar nullSafe => extractFirstColumnValue reference.name json nullSafe sqlQuoting

/-- A character that is copied, or a reference. -/
inductive Piece where
  | copied (c : Char)
  | reference (reference : Reference)
  deriving DecidableEq

/-- The reference of a piece. -/
def Piece.asReference : Piece → Option Reference
  | .copied _ => none
  | .reference found => some found

/-- The pieces of a text, given the reference that follows a dollar sign, if any, with the text
after it. -/
def piecesWithin (next : List Char → Option (Reference × List Char)) : Nat → List Char → List Piece
  | 0, text => text.map .copied
  | _ + 1, [] => []
  | fuel + 1, c :: rest =>
      if c ≠ '$' then .copied c :: piecesWithin next fuel rest
      else
        match next rest with
        | some (reference, after) => .reference reference :: piecesWithin next fuel after
        | none => .copied c :: piecesWithin next fuel rest

/-- The pieces of a text; every piece consumes a character. -/
def pieces (next : List Char → Option (Reference × List Char)) (text : List Char) : List Piece :=
  piecesWithin next text.length text

/-- The references of a text, from left to right. -/
def references (next : List Char → Option (Reference × List Char)) (text : List Char) :
    List Reference :=
  (pieces next text).filterMap Piece.asReference

/-- Replace the references of the pieces, from left to right. -/
def substitutePieces (results : StringMap) (sqlQuoting : Option SqlQuotingVersion) :
    List Piece → Except String (List Char)
  | [] => .ok []
  | .copied c :: rest => (substitutePieces results sqlQuoting rest).map (c :: ·)
  | .reference reference :: rest => do
      let replacement ← reference.replacement (results.getD reference.name "") sqlQuoting
      let tail ← substitutePieces results sqlQuoting rest
      pure (replacement.toList ++ tail)

/-! ## The longest reference -/

/-- The forms a reference can take before a text, longest first. -/
def referenceForms (afterName : List Char) : List ReferenceForm :=
  let col := String.ofList (parseIdentifier (afterName.drop 1))
  .rowSet :: ((if col = "" then [] else [.column col true, .column col false]) ++
    [.scalar true, .scalar false])

/-- The longest form that applies. -/
def longestForm (afterName : List Char) : ReferenceForm :=
  ((referenceForms afterName).find? fun form => form.suffix.isPrefixOf afterName).getD
    (.scalar false)

/-- The reference after a dollar sign: the longest identifier, if it is known, in the longest form
that applies. -/
def nextReference (known : String → Bool) (afterDollar : List Char) :
    Option (Reference × List Char) :=
  let name := String.ofList (parseIdentifier afterDollar)
  let afterName := afterDollar.drop name.toList.length
  if name ≠ "" ∧ known name then
    some (⟨name, longestForm afterName⟩, afterName.drop (longestForm afterName).suffix.length)
  else none

/-- The text with its references replaced: from left to right, nothing inserted is read again. -/
def substituted (input : String) (results : StringMap) (sqlQuoting : Option SqlQuotingVersion) :
    Except String String :=
  (substitutePieces results sqlQuoting
    (pieces (nextReference results.contains) input.toList)).map String.ofList

/-! ## What the code resolves -/

/-- The form of a reference whose name ends here, with the text after it, as the code finds it. A
name that an identifier character follows ends elsewhere. -/
def resolvedForm : List Char → Option (ReferenceForm × List Char)
  | '.' :: afterDot =>
      let col := parseIdentifier afterDot
      let afterCol := afterDot.drop col.length
      if afterDot.head? = some '*' then some (.rowSet, afterDot.tail)
      else if col.isEmpty then some (.scalar false, '.' :: afterDot)
      else if afterCol.head? = some '?' then some (.column (String.ofList col) true, afterCol.tail)
      else some (.column (String.ofList col) false, afterCol)
  | '?' :: rest => some (.scalar true, rest)
  | c :: rest => if isIdentContinue c then none else some (.scalar false, c :: rest)
  | [] => some (.scalar false, [])

theorem resolved_form_other {c : Char} {rest : List Char} (hdot : c ≠ '.') (hmark : c ≠ '?') :
    resolvedForm (c :: rest) =
      if isIdentContinue c then none else some (.scalar false, c :: rest) := by
  unfold resolvedForm
  split
  · next hsame =>
      cases hsame
      exact absurd rfl hdot
  · next hsame =>
      cases hsame
      exact absurd rfl hmark
  · next hsame =>
      cases hsame
      rfl
  · next hsame => cases hsame

/-- The reference that the code resolves after a dollar sign: that of the first name that fits. -/
def resolvedReference (names : List String) (afterDollar : List Char) :
    Option (Reference × List Char) :=
  match names with
  | [] => none
  | name :: names =>
      if name.toList.isPrefixOf afterDollar then
        match resolvedForm (afterDollar.drop name.toList.length) with
        | some (form, after) => some (⟨name, form⟩, after)
        | none => resolvedReference names afterDollar
      else resolvedReference names afterDollar

/-- The code replaces the reference it resolves. -/
theorem resolve_reference_eq (results : StringMap) (sqlQuoting : Option SqlQuotingVersion)
    (afterDollar : List Char) (names : List String) :
    resolveReference results sqlQuoting afterDollar names =
      match resolvedReference names afterDollar with
      | none => .ok none
      | some (reference, after) =>
          (reference.replacement (results.getD reference.name "") sqlQuoting).map fun text =>
            some (text, after) := by
  induction names with
  | nil => rfl
  | cons name names ih =>
      unfold resolveReference resolvedReference
      by_cases hfront : name.toList.isPrefixOf afterDollar
      · simp only [hfront, Bool.not_true, Bool.false_eq_true, if_false, if_true]
        generalize afterDollar.drop name.toList.length = afterName
        rcases afterName with _ | ⟨c, rest⟩
        · rfl
        · by_cases hdot : c = '.'
          · subst hdot
            rcases rest with _ | ⟨d, rest⟩
            · rfl
            · by_cases hstar : d = '*'
              · subst hstar
                rfl
              · simp only [resolvedForm, List.head?_cons, Option.some.injEq, hstar, if_false]
                split
                · next hsame =>
                    cases hsame
                    exact absurd rfl hstar
                · next afterDot _ hsame =>
                    cases hsame
                    by_cases hcol : (parseIdentifier (d :: rest)).isEmpty
                    · simp only [hcol, if_true]
                      rfl
                    · simp only [hcol, Bool.false_eq_true, if_false]
                      by_cases hmark :
                          ((d :: rest).drop (parseIdentifier (d :: rest)).length).head? = some '?'
                      · simp only [hmark, decide_true, if_true, List.drop_one]
                        rfl
                      · simp only [hmark, decide_false, if_false]
                        rfl
                · next hnot => exact absurd rfl (hnot _)
          · by_cases hmark : c = '?'
            · subst hmark
              rfl
            · rw [resolved_form_other hdot hmark]
              split
              · next hsame =>
                  cases hsame
                  exact absurd rfl hdot
              · next hsame =>
                  cases hsame
                  exact absurd rfl hdot
              · by_cases hident : isIdentContinue c
                · simp only [hident, if_true]
                  exact ih
                · simp only [hident]
                  rfl
      · simp only [hfront, Bool.not_false, if_true, Bool.false_eq_true, if_false]
        exact ih

/-! ## Identifiers -/

/-- Dropping the front that satisfies a predicate. -/
theorem drop_length_take_while (p : Char → Bool) (text : List Char) :
    text.drop (text.takeWhile p).length = text.dropWhile p := by
  have h := congrArg (List.drop (text.takeWhile p).length)
    (@List.takeWhile_append_dropWhile _ p text)
  rw [List.drop_left] at h
  exact h.symm

/-- The identifier at the start of a text is a part of it. -/
theorem parse_identifier_append (text : List Char) :
    parseIdentifier text ++ text.drop (parseIdentifier text).length = text := by
  cases text with
  | nil => rfl
  | cons c rest =>
      rw [parseIdentifier]
      split_ifs
      · rw [List.length_cons, List.drop_succ_cons, drop_length_take_while, List.cons_append,
          List.takeWhile_append_dropWhile]
      · rfl

/-- What follows a maximal identifier does not go on with it. -/
theorem after_identifier {text : List Char} (h : parseIdentifier text ≠ []) :
    (text.drop (parseIdentifier text).length).head?.any isIdentContinue = false := by
  cases text with
  | nil => exact absurd rfl h
  | cons c rest =>
      rw [parseIdentifier] at h ⊢
      split_ifs at h ⊢
      · rw [List.length_cons, List.drop_succ_cons, drop_length_take_while]
        have hhead := List.head?_dropWhile_not isIdentContinue rest
        cases hrest : (rest.dropWhile isIdentContinue).head? with
        | none => rfl
        | some d => simpa [hrest] using hhead
      · exact absurd rfl h

/-- An identifier that does not go on is read back. -/
theorem parse_identifier_of_append {name rest : List Char} (h : parseIdentifier name = name)
    (hrest : rest.head?.any isIdentContinue = false) (hne : name ≠ []) :
    parseIdentifier (name ++ rest) = name := by
  cases name with
  | nil => exact absurd rfl hne
  | cons c name =>
      rw [parseIdentifier] at h
      split_ifs at h with hstart
      rw [List.cons_append, parseIdentifier, if_pos hstart, List.cons.injEq]
      have hname : name.takeWhile isIdentContinue = name := (List.cons.inj h).2
      have hstop : rest.takeWhile isIdentContinue = [] := by
        cases rest with
        | nil => rfl
        | cons d rest => exact List.takeWhile_cons_of_neg (by simpa using hrest)
      refine ⟨rfl, ?_⟩
      rw [List.takeWhile_append, if_pos (by rw [hname]), hstop, List.append_nil]

/-- An identifier at the start of a text is a part of the longest one. -/
theorem identifier_prefix {name : List Char} (h : parseIdentifier name = name) (rest : List Char) :
    name <+: parseIdentifier (name ++ rest) := by
  cases name with
  | nil => exact List.nil_prefix
  | cons c name =>
      rw [parseIdentifier] at h
      split_ifs at h with hstart
      have hname : name.takeWhile isIdentContinue = name := (List.cons.inj h).2
      rw [List.cons_append, parseIdentifier, if_pos hstart, List.takeWhile_append,
        if_pos (by rw [hname])]
      exact ⟨rest.takeWhile isIdentContinue, rfl⟩

/-! ## The code takes the longest reference -/

/-- Without a dot or a question mark only the bare name applies. -/
theorem longest_form_other {c : Char} {rest : List Char} (hdot : c ≠ '.') (hmark : c ≠ '?') :
    longestForm (c :: rest) = .scalar false := by
  have hdot' : ¬ '.' = c := fun h => hdot h.symm
  have hmark' : ¬ '?' = c := fun h => hmark h.symm
  unfold longestForm referenceForms
  dsimp only
  split_ifs <;> simp [ReferenceForm.suffix, List.isPrefixOf, hdot', hmark']

/-- A question mark asks for the null-safe value. -/
theorem longest_form_mark (rest : List Char) : longestForm ('?' :: rest) = .scalar true := by
  unfold longestForm referenceForms
  dsimp only
  split_ifs <;> simp [ReferenceForm.suffix, List.isPrefixOf]

/-- A text is a prefix of one that starts with it if the rest is. -/
theorem is_prefix_of_append (front part rest : List Char) :
    (front ++ part).isPrefixOf (front ++ rest) = part.isPrefixOf rest := by
  induction front with
  | nil => rfl
  | cons c front ih => simpa [List.isPrefixOf] using ih

/-- After a dot the row set is first, then the columns, then the bare name. -/
theorem longest_form_dot (afterDot : List Char) :
    longestForm ('.' :: afterDot) =
      let col := parseIdentifier afterDot
      if afterDot.head? = some '*' then .rowSet
      else if col.isEmpty then .scalar false
      else .column (String.ofList col) (decide ((afterDot.drop col.length).head? = some '?')) := by
  have hparts := parse_identifier_append afterDot
  have hstar : (ReferenceForm.suffix .rowSet).isPrefixOf ('.' :: afterDot) =
      decide (afterDot.head? = some '*') := by
    cases afterDot with
    | nil => simp [ReferenceForm.suffix, List.isPrefixOf]
    | cons c rest =>
        simp only [ReferenceForm.suffix, List.isPrefixOf, List.head?_cons, Option.some.injEq,
          beq_self_eq_true, Bool.true_and, Bool.and_true]
        rw [Bool.beq_eq_decide_eq]
        exact decide_eq_decide.2 eq_comm
  have hcolumn : ∀ nullSafe,
      (ReferenceForm.suffix (.column (String.ofList (parseIdentifier afterDot)) nullSafe)).isPrefixOf
        ('.' :: afterDot) =
      (if nullSafe then ['?'] else []).isPrefixOf
        (afterDot.drop (parseIdentifier afterDot).length) := by
    intro nullSafe
    rw [ReferenceForm.suffix, String.toList_ofList, ← List.cons_append]
    nth_rewrite 2 [← hparts]
    rw [← List.cons_append, is_prefix_of_append]
  unfold longestForm referenceForms
  simp only [List.drop_one, List.tail_cons]
  rw [List.find?_cons, hstar]
  by_cases h : afterDot.head? = some '*'
  · simp [h]
  · simp only [h, decide_false, if_false]
    by_cases hcol : parseIdentifier afterDot = []
    · simp [hcol, ReferenceForm.suffix, List.isPrefixOf]
    · have hne : String.ofList (parseIdentifier afterDot) ≠ "" := by
        intro hempty
        exact hcol (by simpa using congrArg String.toList hempty)
      have hsome : (parseIdentifier afterDot).isEmpty = false := by simpa using hcol
      rw [if_neg hne, List.cons_append, List.find?_cons, hcolumn true, List.cons_append,
        List.find?_cons, hcolumn false, hsome]
      cases afterDot.drop (parseIdentifier afterDot).length with
      | nil => rfl
      | cons c rest =>
          by_cases hmark : c = '?'
          · simp [hmark, List.isPrefixOf]
          · have hmark' : ('?' == c) = false := by simpa using fun h => hmark h.symm
            simp [hmark, hmark', List.isPrefixOf]

/-- A form can start only where the name ends; then the longest one is found. -/
theorem resolved_form_eq (afterName : List Char) :
    resolvedForm afterName =
      if afterName.head?.any isIdentContinue then none
      else some (longestForm afterName, afterName.drop (longestForm afterName).suffix.length) := by
  rcases afterName with _ | ⟨c, rest⟩
  · rfl
  · by_cases hdot : c = '.'
    · subst hdot
      have hcontinue : isIdentContinue '.' = false := by decide
      rw [longest_form_dot, List.head?_cons, Option.any_some, hcontinue, resolvedForm]
      simp only [Bool.false_eq_true, if_false]
      split_ifs with hstar hcol hmark
      · cases rest <;> rfl
      · rfl
      · simp only [hmark, decide_true, ReferenceForm.suffix, String.toList_ofList, if_true,
          List.length_cons, List.length_append, List.drop_succ_cons]
        rw [← List.drop_drop, ← List.drop_one]
        rfl
      · simp only [hmark, decide_false, ReferenceForm.suffix, String.toList_ofList,
          Bool.false_eq_true, if_false, List.append_nil, List.length_cons, List.drop_succ_cons]
    · by_cases hmark : c = '?'
      · subst hmark
        rw [longest_form_mark]
        rfl
      · rw [resolved_form_other hdot hmark, longest_form_other hdot hmark]
        rfl

/-- A result name that passes validation is an identifier. -/
theorem identifier_of_valid {name : String} (h : validateResultName name = .ok ()) :
    parseIdentifier name.toList = name.toList ∧ name.toList ≠ [] := by
  unfold validateResultName at h
  split_ifs at h with hempty hlength
  have hwhole := parse_identifier_append name.toList
  rw [ne_eq, not_not] at hlength
  rw [hlength, List.drop_length, List.append_nil] at hwhole
  exact ⟨hwhole, by simpa using hempty⟩

/-- A name that fits after a dollar sign, with a form after it, is the longest identifier there. -/
theorem resolved_name {name : String} {afterDollar : List Char}
    (hname : parseIdentifier name.toList = name.toList ∧ name.toList ≠ [])
    (hfront : name.toList.isPrefixOf afterDollar) :
    (resolvedForm (afterDollar.drop name.toList.length)).isSome ↔
      parseIdentifier afterDollar = name.toList := by
  obtain ⟨rest, rfl⟩ := List.isPrefixOf_iff_prefix.1 hfront
  rw [List.drop_left, resolved_form_eq]
  constructor
  · intro h
    refine parse_identifier_of_append hname.1 ?_ hname.2
    cases hcontinue : rest.head?.any isIdentContinue with
    | false => rfl
    | true => simp [hcontinue] at h
  · intro h
    have hne : parseIdentifier (name.toList ++ rest) ≠ [] := by
      rw [h]
      exact hname.2
    have hafter := after_identifier hne
    rw [h, List.drop_left] at hafter
    simp [hafter]

/-- Among names that are identifiers the code resolves the reference to the longest identifier,
in whatever order it tries them. -/
theorem resolved_reference_eq {names : List String}
    (hnames : ∀ name ∈ names, validateResultName name = .ok ()) (afterDollar : List Char) :
    resolvedReference names afterDollar = nextReference (names.contains ·) afterDollar := by
  induction names with
  | nil => simp [resolvedReference, nextReference]
  | cons name names ih =>
      have hname := identifier_of_valid (hnames name (.head _))
      have hrest := ih fun other hother => hnames other (.tail _ hother)
      unfold resolvedReference
      by_cases hlongest : parseIdentifier afterDollar = name.toList
      · have hfront : name.toList.isPrefixOf afterDollar := by
          rw [List.isPrefixOf_iff_prefix, ← hlongest]
          exact ⟨_, parse_identifier_append afterDollar⟩
        have hne : parseIdentifier afterDollar ≠ [] := by
          rw [hlongest]
          exact hname.2
        have hafter := after_identifier hne
        rw [hlongest] at hafter
        have hempty : name ≠ "" := fun h => hname.2 (by rw [h]; rfl)
        rw [if_pos hfront, resolved_form_eq, hafter]
        simp [nextReference, hlongest, hempty]
      · have hskip : nextReference ((name :: names).contains ·) afterDollar =
            nextReference (names.contains ·) afterDollar := by
          have hne : String.ofList (parseIdentifier afterDollar) ≠ name := by
            intro h
            exact hlongest (by rw [← h, String.toList_ofList])
          simp [nextReference, hne]
        rw [hskip, ← hrest]
        split_ifs with hfront
        · have hnone : resolvedForm (afterDollar.drop name.toList.length) = none := by
            rw [← Option.not_isSome_iff_eq_none, resolved_name hname hfront]
            exact hlongest
          rw [hnone]
        · rfl

/-- The longest form is written in the text. -/
theorem longest_form_applies (afterName : List Char) :
    (longestForm afterName).suffix <+: afterName := by
  unfold longestForm
  cases hfind : (referenceForms afterName).find? fun form => form.suffix.isPrefixOf afterName with
  | none => exact List.nil_prefix
  | some form =>
      have happlies := List.find?_some hfind
      exact List.isPrefixOf_iff_prefix.1 happlies

/-- The reference taken is written in the text, and the rest follows it. -/
theorem resolved_reference_text {names : List String} {afterDollar after : List Char}
    {reference : Reference} (h : resolvedReference names afterDollar = some (reference, after)) :
    afterDollar = reference.name.toList ++ (reference.form.suffix ++ after) := by
  induction names with
  | nil => cases h
  | cons name names ih =>
      unfold resolvedReference at h
      split_ifs at h with hfront
      · obtain ⟨rest, rfl⟩ := List.isPrefixOf_iff_prefix.1 hfront
        rw [List.drop_left, resolved_form_eq] at h
        split_ifs at h with hcontinue
        · exact ih h
        · cases h
          have hrest := List.prefix_iff_eq_append.1 (longest_form_applies rest)
          exact congrArg (name.toList ++ ·) hrest.symm
      · exact ih h

/-- No form that applies is longer than the one taken. -/
theorem longest_form_longest {afterName : List Char} {form : ReferenceForm}
    (happlies : form.suffix <+: afterName)
    (hcol : ∀ col nullSafe, form = .column col nullSafe →
      parseIdentifier col.toList = col.toList ∧ col ≠ "") :
    form.suffix.length ≤ (longestForm afterName).suffix.length := by
  cases form with
  | rowSet =>
      obtain ⟨rest, rfl⟩ := happlies
      show 2 ≤ _
      rw [show ReferenceForm.rowSet.suffix ++ rest = '.' :: '*' :: rest from rfl, longest_form_dot]
      simp [ReferenceForm.suffix]
  | scalar nullSafe =>
      cases nullSafe with
      | false => exact Nat.zero_le _
      | true =>
          obtain ⟨rest, rfl⟩ := happlies
          rw [show (ReferenceForm.scalar true).suffix ++ rest = '?' :: rest from rfl,
            longest_form_mark]
  | column col nullSafe =>
      obtain ⟨hident, hne⟩ := hcol col nullSafe rfl
      obtain ⟨rest, rfl⟩ := happlies
      have hchars : col.toList ≠ [] := by simpa using hne
      have htext : (ReferenceForm.column col nullSafe).suffix ++ rest =
          '.' :: (col.toList ++ ((if nullSafe then ['?'] else []) ++ rest)) := by
        simp [ReferenceForm.suffix]
      have hstar : (col.toList ++ ((if nullSafe then ['?'] else []) ++ rest)).head? ≠ some '*' := by
        cases hcs : col.toList with
        | nil => exact absurd hcs hchars
        | cons c cs =>
            intro h
            rw [List.cons_append, List.head?_cons, Option.some.injEq] at h
            rw [hcs, h] at hident
            cases hident
      have hpart := identifier_prefix hident ((if nullSafe then ['?'] else []) ++ rest)
      have hlonger : parseIdentifier (col.toList ++ ((if nullSafe then ['?'] else []) ++ rest)) ≠
          [] := by
        intro h
        rw [h, List.prefix_nil] at hpart
        exact hchars hpart
      rw [htext, longest_form_dot]
      simp only [hstar, if_false, List.isEmpty_iff, hlonger, ReferenceForm.suffix,
        String.toList_ofList, List.length_cons, List.length_append]
      cases nullSafe with
      | false =>
          have hle := hpart.length_le
          simp only [Bool.false_eq_true, if_false, List.length_nil] at hle ⊢
          omega
      | true =>
          -- a question mark ends the longest identifier
          have hsame := @parse_identifier_of_append col.toList ('?' :: rest) hident
            (show isIdentContinue '?' = false by decide) hchars
          simp only [if_true, List.cons_append, List.nil_append, hsame, List.drop_left]
          simp

/-! ## Scanning -/

/-- Characters that are copied stay as they are. -/
theorem substitute_copied (results : StringMap) (sqlQuoting : Option SqlQuotingVersion)
    (text : List Char) : substitutePieces results sqlQuoting (text.map .copied) = .ok text := by
  induction text with
  | nil => rfl
  | cons c text ih =>
      rw [List.map_cons, substitutePieces, ih]
      rfl

/-- A step for each character is enough. -/
theorem pieces_within_eq {next : List Char → Option (Reference × List Char)}
    (hnext : ∀ {text reference after}, next text = some (reference, after) →
      after.length ≤ text.length)
    {fuel : Nat} {text : List Char} (h : text.length ≤ fuel) :
    piecesWithin next fuel text = pieces next text := by
  have hstep : ∀ {fuel other text}, text.length ≤ fuel → text.length ≤ other →
      piecesWithin next fuel text = piecesWithin next other text := by
    intro fuel
    induction fuel with
    | zero =>
        intro other text hfuel hother
        obtain rfl := List.length_eq_zero_iff.1 (Nat.le_zero.1 hfuel)
        cases other <;> rfl
    | succ fuel ih =>
        intro other text hfuel hother
        cases text with
        | nil => cases other <;> rfl
        | cons c rest =>
            cases other with
            | zero => cases hother
            | succ other =>
                have hrest := ih (Nat.le_of_succ_le_succ hfuel) (Nat.le_of_succ_le_succ hother)
                unfold piecesWithin
                split_ifs with hdollar
                · rw [hrest]
                · cases hreference : next rest with
                  | none =>
                      dsimp only
                      rw [hrest]
                  | some found =>
                      obtain ⟨reference, after⟩ := found
                      have hshorter := hnext hreference
                      have hafter := ih (Nat.le_trans hshorter (Nat.le_of_succ_le_succ hfuel))
                        (Nat.le_trans hshorter (Nat.le_of_succ_le_succ hother))
                      dsimp only
                      rw [hafter]
  exact hstep h (Nat.le_refl _)

theorem resolved_reference_length {names : List String} {afterDollar after : List Char}
    {reference : Reference} (h : resolvedReference names afterDollar = some (reference, after)) :
    after.length ≤ afterDollar.length := by
  rw [resolved_reference_text h]
  simp only [List.length_append]
  omega

/-- The scan replaces the references that the code resolves. -/
theorem substitute_results_within_eq (results : StringMap) (sqlQuoting : Option SqlQuotingVersion)
    (names : List String) (fuel : Nat) (text : List Char) :
    substituteResultsWithin results sqlQuoting names fuel text =
      substitutePieces results sqlQuoting (piecesWithin (resolvedReference names) fuel text) := by
  induction fuel generalizing text with
  | zero => exact (substitute_copied results sqlQuoting text).symm
  | succ fuel ih =>
      cases text with
      | nil => rfl
      | cons c rest =>
          unfold substituteResultsWithin piecesWithin
          split_ifs with hdollar
          · rw [ih]
            rfl
          · rw [ne_eq, not_not] at hdollar
            rw [resolve_reference_eq]
            cases resolvedReference names rest with
            | none =>
                show (substituteResultsWithin results sqlQuoting names fuel rest >>= fun tail =>
                  pure ('$' :: tail)) = _
                rw [ih, hdollar]
                dsimp only
                rw [substitutePieces]
                cases substitutePieces results sqlQuoting
                  (piecesWithin (resolvedReference names) fuel rest) <;> rfl
            | some found =>
                obtain ⟨reference, after⟩ := found
                dsimp only
                rw [substitutePieces, ← ih]
                cases reference.replacement (results.getD reference.name "") sqlQuoting <;> rfl

/-- Without references nothing is substituted. -/
theorem pieces_copied {next : List Char → Option (Reference × List Char)} {text : List Char}
    (h : ∀ before rest, text = before ++ '$' :: rest → next rest = none) (fuel : Nat) :
    piecesWithin next fuel text = text.map .copied := by
  induction fuel generalizing text with
  | zero => rfl
  | succ fuel ih =>
      cases text with
      | nil => rfl
      | cons c rest =>
          have hrest : piecesWithin next fuel rest = rest.map .copied :=
            ih fun before after hsplit => h (c :: before) after (by rw [hsplit]; rfl)
          unfold piecesWithin
          split_ifs with hdollar
          · rw [hrest]
            rfl
          · rw [ne_eq, not_not] at hdollar
            subst hdollar
            rw [h [] rest rfl]
            dsimp only
            rw [hrest]
            rfl

/-- The names of a map, longest first. -/
def longestFirst (names : List String) : List String :=
  names.mergeSort fun a b => b.utf8ByteSize ≤ a.utf8ByteSize

/-- The substitution replaces the references that the code resolves. -/
theorem substitute_results_pieces (input : String) (results : StringMap)
    (sqlQuoting : Option SqlQuotingVersion) :
    substituteResults input results sqlQuoting =
      (substitutePieces results sqlQuoting
        (pieces (resolvedReference (longestFirst results.keys)) input.toList)).map
          String.ofList := by
  unfold substituteResults
  split_ifs with hempty
  · have hkeys : results.keys = [] := by
      rw [Std.ExtTreeMap.keys_eq_nil_iff]
      exact Std.ExtTreeMap.isEmpty_iff.1 hempty
    have hnone : resolvedReference (longestFirst []) = fun _ => none := by
      funext afterDollar
      simp [longestFirst, resolvedReference]
    rw [hkeys, hnone, pieces, pieces_copied fun _ _ _ => rfl, substitute_copied]
    exact congrArg Except.ok String.ofList_toList.symm
  · dsimp only
    rw [substitute_results_within_eq]
    rfl

/-! ## Byte positions -/

/-- The replacement of the reference after a dollar sign with the number of bytes it is written in.
Nothing at all is a panic: a slice inside a character. -/
def matchNames (results : StringMap) (sqlQuoting : Option SqlQuotingVersion)
    (afterDollar : List Char) : List String → Option (Except String (Option (String × Nat)))
  | [] => some (.ok none)
  | name :: names =>
      if !name.toList.isPrefixOf afterDollar then
        matchNames results sqlQuoting afterDollar names
      else
        match sliceFrom afterDollar (byteLength name.toList) with
        | none => none
        | some afterName =>
            let json := results.getD name ""
            let size := byteLength name.toList
            let bare : Option (Except String (Option (String × Nat))) :=
              match afterName with
              | '?' :: _ =>
                  some ((extractFirstColumnValue name json true sqlQuoting).map fun text =>
                    some (text, size + 1))
              | c :: _ =>
                  if isIdentContinue c then matchNames results sqlQuoting afterDollar names
                  else
                    some ((extractFirstColumnValue name json false sqlQuoting).map fun text =>
                      some (text, size))
              | [] =>
                  some ((extractFirstColumnValue name json false sqlQuoting).map fun text =>
                    some (text, size))
            match afterName with
            | '.' :: '*' :: _ =>
                some ((expandRowSet name json sqlQuoting).map fun text => some (text, size + 2))
            | '.' :: afterDot =>
                let col := parseIdentifier afterDot
                if col.isEmpty then bare
                else
                  match sliceFrom afterDot (byteLength col) with
                  | none => none
                  | some afterCol =>
                      let nullSafe := afterCol.head? = some '?'
                      some ((extractColumnValue name json (String.ofList col) nullSafe
                        sqlQuoting).map fun text =>
                          some (text, size + 1 + byteLength col + if nullSafe then 1 else 0))
            | _ => bare

/-- The scan from a byte position, with at most `fuel` steps. -/
def substituteResultsAt (results : StringMap) (sqlQuoting : Option SqlQuotingVersion)
    (names : List String) (input : List Char) : Nat → Nat → Option (Except String (List Char))
  | 0, position => (sliceFrom input position).map .ok
  | fuel + 1, position =>
      match sliceFrom input position with
      | none => none
      | some [] => some (.ok [])
      | some (c :: _) =>
          if c ≠ '$' then
            (substituteResultsAt results sqlQuoting names input fuel (position + c.utf8Size)).map
              (·.map (c :: ·))
          else
            match sliceFrom input (position + 1) with
            | none => none
            | some afterDollar =>
                match matchNames results sqlQuoting afterDollar names with
                | none => none
                | some (.error e) => some (.error e)
                | some (.ok none) =>
                    (substituteResultsAt results sqlQuoting names input fuel (position + 1)).map
                      (·.map ('$' :: ·))
                | some (.ok (some (replacement, size))) =>
                    (substituteResultsAt results sqlQuoting names input fuel
                      (position + 1 + size)).map (·.map (replacement.toList ++ ·))

/-- `substitute_results` on byte positions, for a map that enumerates its names in an order. -/
def substituteResultsIn (order : List String) (input : String) (results : StringMap)
    (sqlQuoting : Option SqlQuotingVersion) : Option (Except String String) :=
  if results.isEmpty then some (.ok input)
  else
    let names := order.mergeSort fun a b => b.utf8ByteSize ≤ a.utf8ByteSize
    (substituteResultsAt results sqlQuoting names input.toList input.utf8ByteSize 0).map
      (·.map String.ofList)

/-- No slice fails, and the bytes are those of the reference that the code resolves. -/
theorem match_names_eq (results : StringMap) (sqlQuoting : Option SqlQuotingVersion)
    (afterDollar : List Char) (names : List String) :
    matchNames results sqlQuoting afterDollar names =
      match resolvedReference names afterDollar with
      | none => some (.ok none)
      | some (reference, _) =>
          some ((reference.replacement (results.getD reference.name "") sqlQuoting).map fun text =>
            some (text, byteLength (reference.name.toList ++ reference.form.suffix))) := by
  have hdotEnds : isIdentContinue '.' = false := by decide
  have hdotSize : '.'.utf8Size = 1 := by decide
  have hstarSize : '*'.utf8Size = 1 := by decide
  have hmarkSize : '?'.utf8Size = 1 := by decide
  induction names with
  | nil => rfl
  | cons name names ih =>
      unfold matchNames resolvedReference
      by_cases hfront : name.toList.isPrefixOf afterDollar
      · obtain ⟨afterName, rfl⟩ := List.isPrefixOf_iff_prefix.1 hfront
        simp only [hfront, Bool.not_true, Bool.false_eq_true, if_false, if_true,
          slice_from_append, List.drop_left]
        rcases afterName with _ | ⟨c, rest⟩
        · simp [resolvedForm, Reference.replacement, ReferenceForm.suffix]
        · by_cases hdot : c = '.'
          · subst hdot
            rcases rest with _ | ⟨d, rest⟩
            · simp [resolvedForm, Reference.replacement, ReferenceForm.suffix, parseIdentifier,
                hdotEnds]
            · by_cases hstar : d = '*'
              · subst hstar
                simp [resolvedForm, Reference.replacement, ReferenceForm.suffix, hdotSize, hstarSize]
              · simp only [resolvedForm, List.head?_cons, Option.some.injEq, hstar, if_false]
                split
                · next hsame =>
                    cases hsame
                    exact absurd rfl hstar
                · next afterDot _ hsame =>
                    cases hsame
                    have hcol := parse_identifier_append (d :: rest)
                    generalize parseIdentifier (d :: rest) = col at hcol ⊢
                    generalize (d :: rest).drop col.length = after at hcol ⊢
                    rw [← hcol, slice_from_append]
                    by_cases hempty : col.isEmpty
                    · simp [hempty, hdotEnds, Reference.replacement, ReferenceForm.suffix]
                    · simp only [hempty, Bool.false_eq_true, if_false]
                      by_cases hmark : after.head? = some '?'
                      · simp [hmark, Reference.replacement, ReferenceForm.suffix, hdotSize,
                          hmarkSize, Nat.add_assoc]
                      · simp [hmark, Reference.replacement, ReferenceForm.suffix, hdotSize,
                          Nat.add_assoc]
                · next hnot => exact absurd rfl (hnot _)
          · by_cases hmark : c = '?'
            · subst hmark
              simp [resolvedForm, Reference.replacement, ReferenceForm.suffix, hmarkSize]
            · rw [resolved_form_other hdot hmark]
              split
              · next hsame =>
                  cases hsame
                  exact absurd rfl hdot
              · next hsame =>
                  cases hsame
                  exact absurd rfl hdot
              · by_cases hident : isIdentContinue c
                · simp only [hident, if_true]
                  exact ih
                · simp [hident, Reference.replacement, ReferenceForm.suffix]
      · simp only [hfront, Bool.not_false, if_true, Bool.false_eq_true, if_false]
        exact ih

/-- On byte positions the scan does what it does on characters: no slice fails. -/
theorem substitute_results_at_eq (results : StringMap) (sqlQuoting : Option SqlQuotingVersion)
    (names : List String) (fuel : Nat) (front text : List Char) :
    substituteResultsAt results sqlQuoting names (front ++ text) fuel (byteLength front) =
      some (substitutePieces results sqlQuoting
        (piecesWithin (resolvedReference names) fuel text)) := by
  induction fuel generalizing front text with
  | zero =>
      rw [substituteResultsAt, slice_from_append, piecesWithin, substitute_copied]
      rfl
  | succ fuel ih =>
      unfold substituteResultsAt
      rw [slice_from_append]
      cases text with
      | nil => rfl
      | cons c rest =>
          have hnext : byteLength front + c.utf8Size = byteLength (front ++ [c]) := by simp
          have hinput : front ++ c :: rest = (front ++ [c]) ++ rest := by simp
          unfold piecesWithin
          dsimp only
          split_ifs with hdollar
          · rw [hnext, hinput, ih, substitutePieces]
            rfl
          · rw [ne_eq, not_not] at hdollar
            have hsize : c.utf8Size = 1 := by rw [hdollar]; decide
            rw [hsize] at hnext
            rw [hnext, hinput, slice_from_append]
            dsimp only
            rw [match_names_eq]
            cases hreference : resolvedReference names rest with
            | none =>
                dsimp only
                rw [ih, substitutePieces, hdollar]
                rfl
            | some found =>
                obtain ⟨reference, after⟩ := found
                have htext := resolved_reference_text hreference
                dsimp only
                rw [substitutePieces]
                cases reference.replacement (results.getD reference.name "") sqlQuoting with
                | error e => rfl
                | ok replacement =>
                    have hafter := ih ((front ++ [c]) ++ (reference.name.toList ++
                      reference.form.suffix)) after
                    rw [byte_length_append, List.append_assoc, List.append_assoc _ _ after,
                      ← htext] at hafter
                    dsimp only [Except.map]
                    rw [hafter]
                    cases substitutePieces results sqlQuoting
                      (piecesWithin (resolvedReference names) fuel after) <;> rfl

/-! ## The munching definition -/

/-- The reference can be replaced. -/
def Reference.replaceable (results : StringMap) (sqlQuoting : Option SqlQuotingVersion)
    (reference : Reference) : Bool :=
  (reference.replacement (results.getD reference.name "") sqlQuoting).isOk

/-- A substitution fails with the error of the first reference that fails. -/
theorem substitute_pieces_error (results : StringMap) (sqlQuoting : Option SqlQuotingVersion)
    (list : List Piece) (error : String) :
    substitutePieces results sqlQuoting list = .error error ↔
      ∃ reference, (list.filterMap Piece.asReference).find?
          (fun reference => !reference.replaceable results sqlQuoting) = some reference ∧
        reference.replacement (results.getD reference.name "") sqlQuoting = .error error := by
  induction list with
  | nil => simp [substitutePieces]
  | cons piece list ih =>
      cases piece with
      | copied c =>
          rw [List.filterMap_cons_none rfl, ← ih, substitutePieces]
          cases substitutePieces results sqlQuoting list <;> simp [Except.map]
      | reference reference =>
          rw [@List.filterMap_cons_some _ _ Piece.asReference _ _ reference rfl, List.find?_cons,
            substitutePieces]
          cases hreplacement : reference.replacement (results.getD reference.name "")
              sqlQuoting with
          | error message =>
              have hfails : reference.replaceable results sqlQuoting = false := by
                rw [Reference.replaceable, hreplacement]
                rfl
              rw [hfails]
              simp [hreplacement, bind, Except.bind]
          | ok replacement =>
              have hok : reference.replaceable results sqlQuoting = true := by
                rw [Reference.replaceable, hreplacement]
                rfl
              rw [hok, Bool.not_true, ← ih]
              cases substitutePieces results sqlQuoting list <;>
                simp [bind, Except.bind, pure, Except.pure]

/-- Whatever the order in which the names are tried, the code resolves the longest reference. -/
theorem resolved_reference_sorted {results : StringMap} {order : List String}
    (horder : order.Perm results.keys)
    (hnames : ∀ name ∈ results, validateResultName name = .ok ())
    (longer : String → String → Bool) :
    resolvedReference (order.mergeSort longer) = nextReference results.contains := by
  have hmem : ∀ name, name ∈ order.mergeSort longer ↔ name ∈ results := by
    intro name
    rw [List.mem_mergeSort, horder.mem_iff, Std.ExtTreeMap.mem_keys]
  funext afterDollar
  rw [resolved_reference_eq fun name hname => hnames name ((hmem name).1 hname)]
  congr 1
  funext name
  rw [Bool.eq_iff_iff, List.contains_iff_mem, hmem, Std.ExtTreeMap.contains_iff_mem]

/-- Substituting named results is the left-to-right definition: it takes the longest identifier
after each dollar sign, and if that names a result, the longest form that applies. No slice fails
inside a character, the enumeration order of the map does not matter, and a failure is that of the
first reference that fails. -/
theorem substitute_results_munches (input : String) {results : StringMap} {order : List String}
    (sqlQuoting : Option SqlQuotingVersion) (horder : order.Perm results.keys)
    (hnames : ∀ name ∈ results, validateResultName name = .ok ()) :
    substituteResultsIn order input results sqlQuoting =
        some (substituted input results sqlQuoting) ∧
      substituteResults input results sqlQuoting = substituted input results sqlQuoting ∧
      ∀ error, substituted input results sqlQuoting = .error error ↔
        ∃ reference,
          (references (nextReference results.contains) input.toList).find?
            (fun reference => !reference.replaceable results sqlQuoting) = some reference ∧
          reference.replacement (results.getD reference.name "") sqlQuoting = .error error := by
  have hsubstituted : substituteResults input results sqlQuoting =
      substituted input results sqlQuoting := by
    rw [substitute_results_pieces, longestFirst,
      resolved_reference_sorted (List.Perm.refl _) hnames]
    rfl
  refine ⟨?_, hsubstituted, fun error => ?_⟩
  · unfold substituteResultsIn
    split_ifs with hempty
    · rw [← hsubstituted, substituteResults, if_pos hempty]
    · have hscan := substitute_results_at_eq results sqlQuoting
        (order.mergeSort fun a b => b.utf8ByteSize ≤ a.utf8ByteSize) input.utf8ByteSize []
        input.toList
      have hlength : input.toList.length ≤ input.utf8ByteSize := by
        rw [← byte_length_to_list]
        exact length_le_byte_length _
      rw [List.nil_append, byte_length_nil,
        pieces_within_eq resolved_reference_length hlength,
        resolved_reference_sorted horder hnames] at hscan
      dsimp only
      rw [hscan]
      rfl
  · rw [references, ← substitute_pieces_error]
    unfold substituted
    cases substitutePieces results sqlQuoting
      (pieces (nextReference results.contains) input.toList) <;> simp [Except.map]

/-- Two results, the name of one starting that of the other. -/
def prefixNames : StringMap := ((∅ : StringMap).insert "ab" "2").insert "a" "1"

/-- The theorem at those names, before a longer identifier and after a character of two bytes. -/
theorem prefix_names_do_not_capture :
    substituteResultsIn ["a", "ab"] "$abc é$ab? $a.x" prefixNames none =
      some (substituted "$abc é$ab? $a.x" prefixNames none) := by
  refine (substitute_results_munches "$abc é$ab? $a.x" none ?_ ?_).1
  · have hkeys : prefixNames.keys = ["a", "ab"] := by decide +kernel
    rw [hkeys]
  · intro name hname
    rw [prefixNames, Std.ExtTreeMap.mem_insert, Std.ExtTreeMap.mem_insert] at hname
    simp only [Std.LawfulEqCmp.compare_eq_iff_eq] at hname
    rcases hname with rfl | rfl | hname
    · decide
    · decide
    · exact absurd hname Std.ExtTreeMap.not_mem_empty

end PgDurable
