import Mathlib.Algebra.Order.BigOperators.Group.List
import Mathlib.Algebra.Order.Group.Nat
import Mathlib.Data.List.TakeWhile
import PgDurable.Graph.References

/-!
# Placeholders in braces

`Placed` is the template as its author reads it: every `{name}` whose name is an identifier and
known becomes its value, every other character stays. The code pairs each opening brace with the
next closing one and passes over the whole pair when it is no known name. `placed_iff_paired` says
when this makes no difference: when no pair ends in a known placeholder of its own, and no pair is
empty while a variable has the empty name.
-/

namespace PgDurable

open Text

/-- A letter or an underscore, then letters, digits and underscores. -/
def isIdentifier (name : String) : Bool :=
  match name.toList with
  | [] => false
  | c :: rest => isIdentStart c && rest.all isIdentContinue

/-- The value of a placeholder: its name is an identifier, and system variables come first. -/
def placeholderValue (vars : StringMap) (sysVars : SystemVars) (name : String) : Option String :=
  if isIdentifier name then
    if name = "sys_instance_id" then some sysVars.instanceId
    else if name = "sys_label" then some (sysVars.label.getD "")
    else vars[name]?
  else none

/-- A template with its placeholders replaced, everything else kept, and nothing inserted read
again. -/
inductive Placed (value : String → Option String) : List Char → List Char → Prop
  | done : Placed value [] []
  | placeholder {name text : String} {rest out : List Char} (hvalue : value name = some text)
      (hrest : Placed value rest out) :
      Placed value ('\x7b' :: (name.toList ++ '\x7d' :: rest)) (text.toList ++ out)
  | copied {c : Char} {rest out : List Char}
      (hother : ∀ name after, value name ≠ none →
        c :: rest ≠ '\x7b' :: (name.toList ++ '\x7d' :: after))
      (hrest : Placed value rest out) : Placed value (c :: rest) (c :: out)

/-! ## Pairs of braces -/

/-- A pair of braces as the code finds it, with the text before it. -/
structure BracePair where
  before : List Char
  inside : List Char
  deriving DecidableEq

/-- The pair as it is written. -/
def BracePair.text (pair : BracePair) : List Char :=
  pair.before ++ '\x7b' :: (pair.inside ++ ['\x7d'])

/-- The pairs of a template and the text after the last one, with at most `fuel` pairs. -/
def bracePairsWithin : Nat → List Char → List BracePair × List Char
  | 0, text => ([], text)
  | fuel + 1, text =>
      match text.dropWhile (· ≠ '\x7b') with
      | [] => ([], text)
      | _ :: afterOpen =>
          match afterOpen.dropWhile (· ≠ '\x7d') with
          | [] => ([], text)
          | _ :: rest =>
              let (pairs, last) := bracePairsWithin fuel rest
              (⟨text.takeWhile (· ≠ '\x7b'), afterOpen.takeWhile (· ≠ '\x7d')⟩ :: pairs, last)

/-- The pairs of a template: each opening brace with the next closing one. -/
def bracePairs (template : String) : List BracePair :=
  (bracePairsWithin template.toList.length template.toList).1

/-- The text that the code puts for a pair. -/
def BracePair.replaced (vars : StringMap) (sysVars : SystemVars) (pair : BracePair) : List Char :=
  pair.before ++
    match bracedValue vars sysVars (String.ofList pair.inside) with
    | some value => value.toList
    | none => '\x7b' :: (pair.inside ++ ['\x7d'])

/-- Searching a brace ends at it. -/
theorem drop_while_brace {brace c : Char} {text rest : List Char}
    (h : text.dropWhile (· ≠ brace) = c :: rest) : c = brace := by
  have hhead := List.head?_dropWhile_not (fun c => decide (c ≠ brace)) text
  rw [h] at hhead
  simpa using hhead

/-- The text before the brace has none. -/
theorem not_mem_take_while_brace (brace : Char) (text : List Char) :
    brace ∉ text.takeWhile (· ≠ brace) := by
  intro hmem
  have hall := List.all_eq_true.1 (@List.all_takeWhile _ (fun c => decide (c ≠ brace)) text) _ hmem
  simp at hall

/-- The code replaces pair by pair. -/
theorem substitute_braced_within_eq (vars : StringMap) (sysVars : SystemVars) (fuel : Nat)
    (text : List Char) :
    substituteBracedWithin vars sysVars fuel text =
      (bracePairsWithin fuel text).1.flatMap (BracePair.replaced vars sysVars) ++
        (bracePairsWithin fuel text).2 := by
  induction fuel generalizing text with
  | zero => rfl
  | succ fuel ih =>
      unfold substituteBracedWithin bracePairsWithin
      cases hopen : text.dropWhile (· ≠ '\x7b') with
      | nil => rfl
      | cons opening afterOpen =>
          dsimp only
          cases hclose : afterOpen.dropWhile (· ≠ '\x7d') with
          | nil => rfl
          | cons closing rest =>
              dsimp only
              rw [ih, drop_while_brace hopen, drop_while_brace hclose, List.flatMap_cons,
                BracePair.replaced]
              cases bracedValue vars sysVars (String.ofList (afterOpen.takeWhile (· ≠ '\x7d'))) <;>
                exact (List.append_assoc _ _ _).symm

/-- What the pairs of a template are. -/
structure Pairing (text : List Char) (pairs : List BracePair) (last : List Char) : Prop where
  text_eq : text = pairs.flatMap BracePair.text ++ last
  before : ∀ pair ∈ pairs, '\x7b' ∉ pair.before
  inside : ∀ pair ∈ pairs, '\x7d' ∉ pair.inside
  last : ∀ before after, last = before ++ '\x7b' :: after → '\x7d' ∉ after

theorem brace_pairs_within_pairing {fuel : Nat} {text : List Char} (h : text.length ≤ fuel) :
    Pairing text (bracePairsWithin fuel text).1 (bracePairsWithin fuel text).2 := by
  induction fuel generalizing text with
  | zero =>
      obtain rfl := List.length_eq_zero_iff.1 (Nat.le_zero.1 h)
      exact ⟨rfl, List.forall_mem_nil _, List.forall_mem_nil _, fun before after h => by
        cases before <;> cases h⟩
  | succ fuel ih =>
      have hopen := @List.takeWhile_append_dropWhile _ (fun c => decide (c ≠ '\x7b')) text
      unfold bracePairsWithin
      cases hrest : text.dropWhile (· ≠ '\x7b') with
      | nil =>
          dsimp only
          refine ⟨rfl, List.forall_mem_nil _, List.forall_mem_nil _, fun before after heq => ?_⟩
          have hmem : '\x7b' ∈ text := by
            rw [heq]
            exact List.mem_append_right _ (.head _)
          rw [hrest, List.append_nil] at hopen
          rw [← hopen] at hmem
          exact absurd hmem (not_mem_take_while_brace _ _)
      | cons opening afterOpen =>
          obtain rfl := drop_while_brace hrest
          have hclose := @List.takeWhile_append_dropWhile _ (fun c => decide (c ≠ '\x7d')) afterOpen
          rw [hrest] at hopen
          dsimp only
          cases hend : afterOpen.dropWhile (· ≠ '\x7d') with
          | nil =>
              rw [hend, List.append_nil] at hclose
              dsimp only
              refine ⟨rfl, List.forall_mem_nil _, List.forall_mem_nil _, fun before after heq => ?_⟩
              have hnone : '\x7d' ∉ afterOpen := by
                rw [← hclose]
                exact not_mem_take_while_brace _ _
              -- the first opening brace is at or before the one of the decomposition
              rw [heq] at hopen
              rcases List.append_eq_append_iff.1 hopen with
                ⟨between, -, hsame⟩ | ⟨between, htake, hsame⟩
              · cases between with
                | nil =>
                    cases hsame
                    exact hnone
                | cons c between =>
                    obtain ⟨-, hsame⟩ := List.cons.inj hsame
                    rw [hsame] at hnone
                    exact fun hmem => hnone (List.mem_append_right _ (.tail _ hmem))
              · cases between with
                | nil =>
                    cases hsame
                    exact hnone
                | cons c between =>
                    obtain ⟨rfl, -⟩ := List.cons.inj hsame
                    refine absurd ?_ (not_mem_take_while_brace '\x7b' (before ++ '\x7b' :: after))
                    rw [htake]
                    exact List.mem_append_right _ (.head _)
          | cons closing rest =>
              obtain rfl := drop_while_brace hend
              rw [hend] at hclose
              have hshorter : rest.length ≤ fuel := by
                have hlength := congrArg List.length hopen
                have hlength' := congrArg List.length hclose
                simp only [List.length_append, List.length_cons] at hlength hlength'
                omega
              have hpairs := ih hshorter
              dsimp only
              refine ⟨?_, ?_, ?_, hpairs.last⟩
              · rw [List.flatMap_cons, List.append_assoc, ← hpairs.text_eq, BracePair.text]
                simp only [List.append_assoc, List.cons_append, List.nil_append]
                rw [hclose, hopen]
              · exact List.forall_mem_cons.2 ⟨not_mem_take_while_brace _ _, hpairs.before⟩
              · exact List.forall_mem_cons.2 ⟨not_mem_take_while_brace _ _, hpairs.inside⟩

/-! ## What the template says -/

/-- Names contain no braces. -/
def BraceFree (value : String → Option String) : Prop :=
  ∀ name, value name ≠ none → '\x7b' ∉ name.toList ∧ '\x7d' ∉ name.toList

section Placed

variable {value : String → Option String} {text rest out : List Char}

/-- Characters in front of which no placeholder starts are kept. -/
theorem placed_copy {kept : List Char}
    (h : ∀ front back, kept = front ++ '\x7b' :: back → ∀ name after, value name ≠ none →
      back ++ text ≠ name.toList ++ '\x7d' :: after)
    (hrest : Placed value text out) : Placed value (kept ++ text) (kept ++ out) := by
  induction kept with
  | nil => exact hrest
  | cons c kept ih =>
      refine .copied (fun name after hname hsame => ?_)
        (ih fun front back hkept => h (c :: front) back (by rw [hkept]; rfl))
      obtain ⟨rfl, hback⟩ := List.cons.inj hsame
      exact h [] kept rfl name after hname hback

/-- What stands after an opening brace and before a closing one is the name of a placeholder. -/
theorem name_of_inside {name inside after : List Char} (hname : '\x7d' ∉ name)
    (hinside : '\x7d' ∉ inside) (h : inside ++ '\x7d' :: rest = name ++ '\x7d' :: after) :
    inside = name ∧ rest = after := by
  have hsame := append_cancel_of_not_mem hinside hname (Or.inr ⟨_, rfl⟩) (Or.inr ⟨_, rfl⟩) h
  subst hsame
  exact ⟨rfl, (List.cons.inj (List.append_cancel_left h)).2⟩

/-- A template is replaced in one way. -/
theorem Placed.unique (hvalue : BraceFree value) {other : List Char} (h : Placed value text out)
    (h' : Placed value text other) : out = other := by
  induction h generalizing other with
  | done =>
      cases h'
      rfl
  | @placeholder name found rest out hname _ ih =>
      have hsome : value name ≠ none := by rw [hname]; exact Option.some_ne_none _
      generalize htext : '\x7b' :: (name.toList ++ '\x7d' :: rest) = text at h'
      cases h' with
      | done => cases htext
      | @placeholder name' found' rest' out' hname' hrest' =>
          have hsome' : value name' ≠ none := by rw [hname']; exact Option.some_ne_none _
          obtain ⟨hsame, rfl⟩ := name_of_inside (hvalue name' hsome').2 (hvalue name hsome).2
            (List.cons.inj htext).2
          obtain rfl := String.toList_injective hsame
          rw [hname] at hname'
          cases hname'
          rw [ih hrest']
      | copied hother => exact absurd htext.symm (hother name rest hsome)
  | @copied c rest out hother _ ih =>
      generalize htext : c :: rest = text at h'
      cases h' with
      | done => cases htext
      | @placeholder name' found' rest' out' hname' _ =>
          have hsome' : value name' ≠ none := by rw [hname']; exact Option.some_ne_none _
          exact absurd htext (hother name' rest' hsome')
      | copied _ hrest' =>
          obtain ⟨rfl, rfl⟩ := List.cons.inj htext
          rw [ih hrest']

/-- The inside of a pair ends in a placeholder of its own. -/
def BracePair.Encloses (known : String → Prop) (pair : BracePair) : Prop :=
  ∃ front name, pair.inside = front ++ '\x7b' :: name ∧ known (String.ofList name)

/-- A pair that is a placeholder is replaced. -/
theorem placed_known {pair : BracePair} {found : String} (hbefore : '\x7b' ∉ pair.before)
    (hfound : value (String.ofList pair.inside) = some found) (hrest : Placed value rest out) :
    Placed value (pair.text ++ rest) (pair.before ++ found.toList ++ out) := by
  have hplace := Placed.placeholder hfound hrest
  rw [String.toList_ofList] at hplace
  rw [BracePair.text]
  simp only [List.append_assoc, List.cons_append, List.nil_append]
  refine placed_copy (fun front back hkept => ?_) hplace
  rw [hkept] at hbefore
  exact absurd (List.mem_append_right _ (.head _)) hbefore

/-- An opening brace behind the text before a pair is the pair's own or one inside. -/
theorem brace_behind_before {before opened front back : List Char} (hbefore : '\x7b' ∉ before)
    (h : before ++ '\x7b' :: opened = front ++ '\x7b' :: back) :
    ∃ middle, '\x7b' :: opened = middle ++ '\x7b' :: back := by
  rcases List.append_eq_append_iff.1 h with ⟨middle, -, hsame⟩ | ⟨middle, hsplit, hsame⟩
  · exact ⟨middle, hsame⟩
  · cases middle with
    | nil => exact ⟨[], hsame.symm⟩
    | cons c middle =>
        obtain ⟨rfl, -⟩ := List.cons.inj hsame
        rw [hsplit] at hbefore
        exact absurd (List.mem_append_right _ (.head _)) hbefore

/-- A pair that is no placeholder and encloses none stays. -/
theorem placed_other (hvalue : BraceFree value) {pair : BracePair} (hbefore : '\x7b' ∉ pair.before)
    (hinside : '\x7d' ∉ pair.inside) (hnone : value (String.ofList pair.inside) = none)
    (hencloses : ¬ pair.Encloses (value · ≠ none)) (hrest : Placed value rest out) :
    Placed value (pair.text ++ rest) (pair.text ++ out) := by
  refine placed_copy (fun front back hkept name after hname hsame => ?_) hrest
  obtain ⟨middle, hmiddle⟩ := brace_behind_before hbefore hkept
  -- the brace is the pair's own, or it stands inside
  cases middle with
  | nil =>
      obtain rfl := (List.cons.inj hmiddle).2
      rw [List.append_assoc] at hsame
      obtain ⟨hinside_eq, -⟩ := name_of_inside (hvalue name hname).2 hinside hsame
      rw [hinside_eq, String.ofList_toList] at hnone
      exact hname hnone
  | cons c middle =>
      have hmiddle : pair.inside ++ ['\x7d'] = middle ++ '\x7b' :: back := (List.cons.inj hmiddle).2
      rcases List.eq_nil_or_concat' back with rfl | ⟨inner, closing, rfl⟩
      · have hlast := congrArg List.getLast? hmiddle
        simp at hlast
      · rw [← List.cons_append, ← List.append_assoc] at hmiddle
        obtain ⟨hinner, hclosing⟩ := List.append_inj' hmiddle rfl
        obtain rfl := (List.cons.inj hclosing).1
        have hfree : '\x7d' ∉ inner := by
          rw [hinner] at hinside
          exact fun hmem => hinside (List.mem_append_right _ (.tail _ hmem))
        rw [List.append_assoc] at hsame
        obtain ⟨rfl, -⟩ := name_of_inside (hvalue name hname).2 hfree hsame
        exact hencloses ⟨middle, name.toList, hinner, by rwa [String.ofList_toList]⟩

/-- A placeholder that a pair encloses is replaced. -/
theorem placed_enclosed (hvalue : BraceFree value) {pair : BracePair} {front name : List Char}
    {found : String} (hbefore : '\x7b' ∉ pair.before) (hinside : '\x7d' ∉ pair.inside)
    (hname : pair.inside = front ++ '\x7b' :: name) (hfound : value (String.ofList name) = some found)
    (hrest : Placed value rest out) :
    Placed value (pair.text ++ rest)
      (pair.before ++ '\x7b' :: front ++ found.toList ++ out) := by
  have hplace := Placed.placeholder hfound hrest
  rw [String.toList_ofList] at hplace
  have hcopy : Placed value ((pair.before ++ '\x7b' :: front) ++ '\x7b' :: (name ++ '\x7d' :: rest))
      ((pair.before ++ '\x7b' :: front) ++ (found.toList ++ out)) := by
    refine placed_copy (fun start back hkept other after hother hsame => ?_) hplace
    obtain ⟨middle, hmiddle⟩ := brace_behind_before hbefore hkept
    have hback : '\x7d' ∉ back := by
      intro hmem
      have hmem' : '\x7d' ∈ '\x7b' :: front := by
        rw [hmiddle]
        exact List.mem_append_right _ (.tail _ hmem)
      rcases List.mem_cons.1 hmem' with hclosing | hfront
      · cases hclosing
      · rw [hname] at hinside
        exact hinside (List.mem_append_left _ hfront)
    -- a name that reaches over the inner brace would contain it
    rcases List.append_eq_append_iff.1 hsame with ⟨between, hover, hrest_eq⟩ |
      ⟨between, hover, hrest_eq⟩
    · cases between with
      | nil => cases hrest_eq
      | cons c between =>
          obtain ⟨rfl, -⟩ := List.cons.inj hrest_eq
          refine (hvalue other hother).1 ?_
          rw [hover]
          exact List.mem_append_right _ (.head _)
    · cases between with
      | nil => cases hrest_eq
      | cons c between =>
          obtain ⟨rfl, -⟩ := List.cons.inj hrest_eq
          rw [hover] at hback
          exact hback (List.mem_append_right _ (.head _))
  rw [BracePair.text, hname]
  simpa only [List.append_assoc, List.cons_append, List.nil_append] using hcopy

/-- The text after the last pair stays. -/
theorem placed_last {last : List Char}
    (h : ∀ before after, last = before ++ '\x7b' :: after → '\x7d' ∉ after) :
    Placed value last last := by
  have hcopy : Placed value (last ++ []) (last ++ []) := by
    refine placed_copy (fun front back hlast name after _ hsame => ?_) .done
    rw [List.append_nil] at hsame
    refine h front back hlast ?_
    rw [hsame]
    exact List.mem_append_right _ (.head _)
  rwa [List.append_nil] at hcopy

end Placed

/-! ## The names of a template -/

/-- A name that the template's author may use. -/
def KnownName (vars : StringMap) (name : String) : Prop :=
  isIdentifier name ∧ (name = "sys_instance_id" ∨ name = "sys_label" ∨ name ∈ vars)

/-- The code asks whether the identifier at the start of a name is all of it: the empty name
passes too. -/
theorem whole_identifier_iff (name : String) :
    (parseIdentifier name.toList).length = name.toList.length ↔ name = "" ∨ isIdentifier name := by
  rw [isIdentifier, ← String.toList_inj]
  cases name.toList with
  | nil => simp [parseIdentifier]
  | cons c rest =>
      rw [parseIdentifier]
      by_cases hstart : isIdentStart c
      · have hall : (rest.takeWhile isIdentContinue).length = rest.length ↔
            rest.all isIdentContinue := by
          rw [List.all_eq_true, ← List.takeWhile_eq_self_iff]
          exact ⟨(List.takeWhile_prefix _).eq_of_length, congrArg List.length⟩
        simp [hstart, hall]
      · simp [hstart]

theorem placeholder_value_ne_none {vars : StringMap} {sysVars : SystemVars} {name : String} :
    placeholderValue vars sysVars name ≠ none ↔ KnownName vars name := by
  unfold placeholderValue KnownName
  split_ifs with hid hinstance hlabel
  · simpa [hinstance] using hid
  · simpa [hlabel] using hid
  · simp [hid, hinstance, hlabel]
  · simp [hid]

/-- Identifiers hold no braces. -/
theorem brace_free_of_identifier {name : String} (h : isIdentifier name) :
    '\x7b' ∉ name.toList ∧ '\x7d' ∉ name.toList := by
  unfold isIdentifier at h
  cases hname : name.toList with
  | nil => exact ⟨List.not_mem_nil, List.not_mem_nil⟩
  | cons c rest =>
      rw [hname] at h
      obtain ⟨hstart, hrest⟩ := Bool.and_eq_true_iff.1 h
      have hall := List.all_eq_true.1 hrest
      constructor
      · intro hmem
        rcases List.mem_cons.1 hmem with rfl | hmem
        · revert hstart; decide
        · have := hall _ hmem; revert this; decide
      · intro hmem
        rcases List.mem_cons.1 hmem with rfl | hmem
        · revert hstart; decide
        · have := hall _ hmem; revert this; decide

theorem placeholder_value_brace_free (vars : StringMap) (sysVars : SystemVars) :
    BraceFree (placeholderValue vars sysVars) := fun _ h =>
  brace_free_of_identifier (placeholder_value_ne_none.1 h).1

/-- The code knows the placeholders, and the empty name when it is a variable. -/
theorem braced_value_eq (vars : StringMap) (sysVars : SystemVars) (name : String) :
    bracedValue vars sysVars name =
      if name = "" then vars[""]? else placeholderValue vars sysVars name := by
  unfold bracedValue placeholderValue
  simp only [whole_identifier_iff]
  by_cases hempty : name = ""
  · subst hempty
    simp
  · by_cases hinstance : name = "sys_instance_id"
    · subst hinstance
      rfl
    · by_cases hlabel : name = "sys_label"
      · subst hlabel
        rfl
      · simp [hempty, hinstance, hlabel]

/-! ## The pairs and the template -/

/-- What a pair becomes in the template as its author reads it. -/
def BracePair.Becomes (value : String → Option String) (pair : BracePair) (chosen : List Char) :
    Prop :=
  ∀ rest out, Placed value rest out → Placed value (pair.text ++ rest) (chosen ++ out)

section Pairs

variable {value : String → Option String}

/-- A template is replaced pair by pair. -/
theorem placed_pairs {pairs : List BracePair} {last : List Char} {chosen : BracePair → List Char}
    (h : ∀ pair ∈ pairs, pair.Becomes value (chosen pair)) (hlast : Placed value last last) :
    Placed value (pairs.flatMap BracePair.text ++ last) (pairs.flatMap chosen ++ last) := by
  induction pairs with
  | nil => exact hlast
  | cons pair pairs ih =>
      obtain ⟨hpair, hpairs⟩ := List.forall_mem_cons.1 h
      rw [List.flatMap_cons, List.flatMap_cons, List.append_assoc, List.append_assoc]
      exact hpair _ _ (ih hpairs)

/-- A pair is a placeholder, or ends in one, or stays. -/
theorem pair_becomes (hvalue : BraceFree value) {pair : BracePair} (hbefore : '\x7b' ∉ pair.before)
    (hinside : '\x7d' ∉ pair.inside) :
    ∃ chosen, pair.Becomes value chosen ∧
      ((∃ found, value (String.ofList pair.inside) = some found ∧
          chosen = pair.before ++ found.toList) ∨
        (∃ front name found, pair.inside = front ++ '\x7b' :: name ∧
          value (String.ofList name) = some found ∧
          chosen = pair.before ++ '\x7b' :: front ++ found.toList) ∨
        (value (String.ofList pair.inside) = none ∧ ¬ pair.Encloses (value · ≠ none) ∧
          chosen = pair.text)) := by
  cases hfound : value (String.ofList pair.inside) with
  | some found =>
      exact ⟨_, fun rest out hrest => placed_known hbefore hfound hrest, .inl ⟨found, rfl, rfl⟩⟩
  | none =>
      by_cases hencloses : pair.Encloses (value · ≠ none)
      · obtain ⟨front, name, hname, hknown⟩ := hencloses
        obtain ⟨found, hfound⟩ := Option.ne_none_iff_exists'.1 hknown
        exact ⟨_, fun rest out hrest => placed_enclosed hvalue hbefore hinside hname hfound hrest,
          .inr (.inl ⟨front, name, found, hname, hfound, rfl⟩)⟩
      · exact ⟨_, fun rest out hrest => placed_other hvalue hbefore hinside hfound hencloses hrest,
          .inr (.inr ⟨rfl, hencloses, rfl⟩)⟩

end Pairs

section Replaced

variable {vars : StringMap} {sysVars : SystemVars} {pair : BracePair}

/-- The code replaces a pair that is a placeholder. -/
theorem replaced_of_known {found : String}
    (h : placeholderValue vars sysVars (String.ofList pair.inside) = some found) :
    pair.replaced vars sysVars = pair.before ++ found.toList := by
  have hne : String.ofList pair.inside ≠ "" := by
    intro hempty
    rw [hempty] at h
    cases h
  rw [BracePair.replaced, braced_value_eq, if_neg hne, h]

/-- Any other pair it keeps, save an empty one when a variable has the empty name. -/
theorem replaced_of_unknown
    (h : placeholderValue vars sysVars (String.ofList pair.inside) = none)
    (hempty : pair.inside = [] → "" ∉ vars) : pair.replaced vars sysVars = pair.text := by
  rw [BracePair.replaced, braced_value_eq, h]
  split_ifs with hname
  · have hnil : pair.inside = [] := by rwa [← String.toList_inj, String.toList_ofList] at hname
    rw [getElem?_neg _ _ (hempty hnil)]
    rfl
  · rfl

theorem replaced_of_empty {found : String} (hinside : pair.inside = [])
    (hfound : vars[""]? = some found) :
    pair.replaced vars sysVars = pair.before ++ found.toList := by
  rw [BracePair.replaced, braced_value_eq, hinside, if_pos rfl, hfound]

/-- Where nothing is enclosed and the empty name is not used, code and author agree on a pair. -/
theorem becomes_replaced (hbefore : '\x7b' ∉ pair.before) (hinside : '\x7d' ∉ pair.inside)
    (hencloses : ¬ pair.Encloses (KnownName vars)) (hempty : pair.inside = [] → "" ∉ vars) :
    pair.Becomes (placeholderValue vars sysVars) (pair.replaced vars sysVars) := by
  obtain ⟨chosen, hbecomes, ⟨found, hfound, rfl⟩ | ⟨front, name, found, hname, hfound, -⟩ |
    ⟨hnone, -, rfl⟩⟩ :=
      pair_becomes (placeholder_value_brace_free vars sysVars) hbefore hinside
  · rwa [replaced_of_known hfound]
  · refine absurd ⟨front, name, hname, ?_⟩ hencloses
    refine (@placeholder_value_ne_none _ sysVars _).1 ?_
    rw [hfound]
    exact Option.some_ne_none _
  · rwa [replaced_of_unknown hnone hempty]

end Replaced

/-! ## Values that tell the two apart -/

section Probe

variable (vars : StringMap) (size : Nat) (empty : String)

/-- The same names with values of one size, the empty name apart. -/
def probe : StringMap :=
  vars.map fun name _ => if name = "" then empty else String.ofList (List.replicate size 'x')

def probeSystem : SystemVars :=
  ⟨String.ofList (List.replicate size 'x'), some (String.ofList (List.replicate size 'x'))⟩

theorem mem_probe {name : String} : name ∈ probe vars size empty ↔ name ∈ vars :=
  Std.ExtTreeMap.mem_map

theorem known_probe {name : String} :
    KnownName (probe vars size empty) name ↔ KnownName vars name := by
  rw [KnownName, KnownName, mem_probe]

theorem probe_empty (h : "" ∈ vars) : (probe vars size empty)[""]? = some empty := by
  rw [probe, Std.ExtTreeMap.getElem?_map, getElem?_pos vars "" h, Option.map_some, if_pos rfl]

variable {vars size empty} in
theorem probe_size {name found : String}
    (h : placeholderValue (probe vars size empty) (probeSystem size) name = some found) :
    found.toList.length = size := by
  unfold placeholderValue at h
  split_ifs at h with hid hinstance hlabel
  · cases h
    simp [probeSystem]
  · cases h
    simp [probeSystem]
  · have hne : name ≠ "" := by
      intro hempty
      rw [hempty] at hid
      cases hid
    rw [probe, Std.ExtTreeMap.getElem?_map, Option.map_eq_some_iff] at h
    obtain ⟨-, -, rfl⟩ := h
    rw [if_neg hne, String.toList_ofList, List.length_replicate]

end Probe

/-- Two readings of the pairs that make one text have one length. -/
theorem lengths_agree {value : String → Option String} (hvalue : BraceFree value)
    {pairs : List BracePair} {last : List Char} {chosen replaced : BracePair → List Char}
    (hchosen : ∀ pair ∈ pairs, pair.Becomes value (chosen pair)) (hlast : Placed value last last)
    (hcode : Placed value (pairs.flatMap BracePair.text ++ last) (pairs.flatMap replaced ++ last)) :
    (pairs.map fun pair => (replaced pair).length).sum =
      (pairs.map fun pair => (chosen pair).length).sum := by
  have hsame := List.append_cancel_right (hcode.unique hvalue (placed_pairs hchosen hlast))
  rw [← List.length_flatMap, ← List.length_flatMap, hsame]

/-- A pair is no longer than its template. -/
theorem length_of_pair {text last : List Char} {pairs : List BracePair} {pair : BracePair}
    (h : Pairing text pairs last) (hpair : pair ∈ pairs) : pair.text.length ≤ text.length := by
  obtain ⟨front, back, rfl⟩ := List.append_of_mem hpair
  rw [h.text_eq, List.flatMap_append, List.flatMap_cons]
  simp only [List.length_append]
  omega

/-- A name encloses nothing. -/
theorem inside_of_encloses {value : String → Option String} (hvalue : BraceFree value)
    {inside front name : List Char} (h : inside = front ++ '\x7b' :: name) :
    value (String.ofList inside) = none ∧ inside ≠ [] := by
  constructor
  · by_contra hsome
    refine (hvalue _ hsome).1 ?_
    rw [String.toList_ofList, h]
    exact List.mem_append_right _ (.head _)
  · rw [h]
    exact List.append_ne_nil_of_right_ne_nil _ (List.cons_ne_nil _ _)

section Probed

variable {vars : StringMap} {text last : List Char} {pairs : List BracePair} {size : Nat}

/-- What is nowhere longer, and as long altogether, is nowhere shorter. -/
theorem none_shorter {shorter longer : BracePair → List Char} {differs : BracePair → Prop}
    (h : ∀ pair ∈ pairs, (shorter pair).length ≤ (longer pair).length ∧
      (differs pair → (shorter pair).length < (longer pair).length))
    (hsame : (pairs.map fun pair => (longer pair).length).sum =
      (pairs.map fun pair => (shorter pair).length).sum) :
    ∀ pair ∈ pairs, ¬ differs pair := by
  intro pair hpair hdiffers
  have hlt := List.sum_lt_sum (l := pairs) _ _ (fun pair hpair => (h pair hpair).1)
    ⟨pair, hpair, (h pair hpair).2 hdiffers⟩
  omega

/-- A pair that is no name stays, unless it is empty while there is an empty name. -/
theorem probe_keeps {empty : String} {pair : BracePair}
    (hnone : placeholderValue (probe vars size empty) (probeSystem size)
      (String.ofList pair.inside) = none)
    (hempty : ¬ (pair.inside = [] ∧ "" ∈ vars)) :
    pair.replaced (probe vars size empty) (probeSystem size) = pair.text := by
  refine replaced_of_unknown hnone fun hnil hmem => hempty ⟨hnil, ?_⟩
  rwa [mem_probe] at hmem

/-- Values longer than the template show a placeholder that a pair encloses. The empty name stands
for its own braces, so that it makes no difference. -/
theorem no_pair_encloses (hpairing : Pairing text pairs last) (hsize : text.length < size)
    (hcode : Placed (placeholderValue (probe vars size "\x7b\x7d") (probeSystem size)) text
      (pairs.flatMap (BracePair.replaced (probe vars size "\x7b\x7d") (probeSystem size)) ++ last)) :
    ∀ pair ∈ pairs, ¬ pair.Encloses (KnownName vars) := by
  have hvalue := placeholder_value_brace_free (probe vars size "\x7b\x7d") (probeSystem size)
  have hreading : ∀ pair, ∃ chosen, pair ∈ pairs →
      pair.Becomes (placeholderValue (probe vars size "\x7b\x7d") (probeSystem size)) chosen ∧
        (pair.replaced (probe vars size "\x7b\x7d") (probeSystem size)).length ≤ chosen.length ∧
        (pair.Encloses (KnownName vars) →
          (pair.replaced (probe vars size "\x7b\x7d") (probeSystem size)).length < chosen.length) := by
    intro pair
    by_cases hpair : pair ∈ pairs
    swap
    · exact ⟨[], fun h => absurd h hpair⟩
    obtain ⟨chosen, hbecomes, ⟨found, hfound, rfl⟩ | ⟨front, name, found, hname, hfound, rfl⟩ |
      ⟨hnone, hencloses, rfl⟩⟩ :=
        pair_becomes hvalue (hpairing.before pair hpair) (hpairing.inside pair hpair)
    · refine ⟨_, fun _ => ⟨hbecomes, by rw [replaced_of_known hfound], ?_⟩⟩
      rintro ⟨front, name, hname, -⟩
      rw [(inside_of_encloses hvalue hname).1] at hfound
      cases hfound
    · have hshort := length_of_pair hpairing hpair
      have hlong := probe_size hfound
      have hlt : (pair.replaced (probe vars size "\x7b\x7d") (probeSystem size)).length <
          (pair.before ++ '\x7b' :: front ++ found.toList).length := by
        rw [replaced_of_unknown (inside_of_encloses hvalue hname).1
          (fun hnil => absurd hnil (inside_of_encloses hvalue hname).2), List.length_append, hlong]
        omega
      exact ⟨_, fun _ => ⟨hbecomes, hlt.le, fun _ => hlt⟩⟩
    · have hkept : pair.replaced (probe vars size "\x7b\x7d") (probeSystem size) = pair.text := by
        by_cases hempty : pair.inside = [] ∧ "" ∈ vars
        · rw [replaced_of_empty hempty.1 (probe_empty vars size _ hempty.2), BracePair.text, hempty.1]
          rfl
        · exact probe_keeps hnone hempty
      refine ⟨_, fun _ => ⟨hbecomes, by rw [hkept], fun ⟨front, name, hname, hknown⟩ => ?_⟩⟩
      refine absurd ⟨front, name, hname, placeholder_value_ne_none.2 ?_⟩ hencloses
      rwa [known_probe]
  choose chosen hchosen using hreading
  rw [hpairing.text_eq] at hcode
  have hsame := lengths_agree hvalue (fun pair hpair => (hchosen pair hpair).1)
    (placed_last hpairing.last) hcode
  exact none_shorter (fun pair hpair => (hchosen pair hpair).2) hsame.symm

/-- A value of another size shows an empty pair. -/
theorem no_pair_empty (hpairing : Pairing text pairs last)
    (hencloses : ∀ pair ∈ pairs, ¬ pair.Encloses (KnownName vars))
    (hcode : Placed (placeholderValue (probe vars size "xxx") (probeSystem size)) text
      (pairs.flatMap (BracePair.replaced (probe vars size "xxx") (probeSystem size)) ++ last)) :
    ∀ pair ∈ pairs, ¬ (pair.inside = [] ∧ "" ∈ vars) := by
  have hvalue := placeholder_value_brace_free (probe vars size "xxx") (probeSystem size)
  have hreading : ∀ pair, ∃ chosen, pair ∈ pairs →
      pair.Becomes (placeholderValue (probe vars size "xxx") (probeSystem size)) chosen ∧
        chosen.length ≤ (pair.replaced (probe vars size "xxx") (probeSystem size)).length ∧
        (pair.inside = [] ∧ "" ∈ vars →
          chosen.length < (pair.replaced (probe vars size "xxx") (probeSystem size)).length) := by
    intro pair
    by_cases hpair : pair ∈ pairs
    swap
    · exact ⟨[], fun h => absurd h hpair⟩
    obtain ⟨chosen, hbecomes, ⟨found, hfound, rfl⟩ | ⟨front, name, found, hname, hfound, -⟩ |
      ⟨hnone, -, rfl⟩⟩ :=
        pair_becomes hvalue (hpairing.before pair hpair) (hpairing.inside pair hpair)
    · refine ⟨_, fun _ => ⟨hbecomes, by rw [replaced_of_known hfound], fun ⟨hnil, _⟩ => ?_⟩⟩
      rw [hnil] at hfound
      cases hfound
    · refine absurd ⟨front, name, hname, ?_⟩ (hencloses pair hpair)
      rw [← known_probe vars size "xxx", ← @placeholder_value_ne_none _ (probeSystem size), hfound]
      exact Option.some_ne_none _
    · by_cases hempty : pair.inside = [] ∧ "" ∈ vars
      · have hlt : pair.text.length <
            (pair.replaced (probe vars size "xxx") (probeSystem size)).length := by
          rw [replaced_of_empty hempty.1 (probe_empty vars size _ hempty.2), BracePair.text, hempty.1]
          simp
        exact ⟨_, fun _ => ⟨hbecomes, hlt.le, fun _ => hlt⟩⟩
      · have hkept : pair.replaced (probe vars size "xxx") (probeSystem size) = pair.text :=
          probe_keeps hnone hempty
        exact ⟨_, fun _ => ⟨hbecomes, by rw [hkept], fun h => absurd h hempty⟩⟩
  choose chosen hchosen using hreading
  rw [hpairing.text_eq] at hcode
  have hsame := lengths_agree hvalue (fun pair hpair => (hchosen pair hpair).1)
    (placed_last hpairing.last) hcode
  exact none_shorter (fun pair hpair => (hchosen pair hpair).2) hsame

end Probed

/-- The code does what the template says, whatever the values are, exactly when no pair of an opening
brace and the next closing one ends in a placeholder of its own, and no pair is empty while a
variable has the empty name. -/
theorem braced_variables_placed_iff (template : String) (vars : StringMap) :
    (∀ vars' sysVars, (∀ name, name ∈ vars' ↔ name ∈ vars) →
        Placed (placeholderValue vars' sysVars) template.toList
          (substituteBracedVariables template vars' sysVars).toList) ↔
      ∀ pair ∈ bracePairs template,
        ¬ pair.Encloses (KnownName vars) ∧ ¬ (pair.inside = [] ∧ "" ∈ vars) := by
  have hpairing := brace_pairs_within_pairing (Nat.le_refl template.toList.length)
  rw [bracePairs]
  generalize hpairs : (bracePairsWithin template.toList.length template.toList).1 = pairs at hpairing
  generalize hlast : (bracePairsWithin template.toList.length template.toList).2 = last at hpairing
  have hcode : ∀ vars' sysVars, (substituteBracedVariables template vars' sysVars).toList =
      pairs.flatMap (BracePair.replaced vars' sysVars) ++ last := by
    intro vars' sysVars
    rw [substituteBracedVariables, String.toList_ofList, substitute_braced_within_eq, hpairs, hlast]
  simp only [hcode]
  constructor
  · intro hplaced
    have hsize := Nat.lt_succ_self template.toList.length
    have hencloses := no_pair_encloses hpairing hsize
      (hplaced _ _ fun _ => mem_probe vars _ "\x7b\x7d")
    have hempty := no_pair_empty hpairing hencloses
      (hplaced _ (probeSystem 0) fun _ => mem_probe vars 0 "xxx")
    exact fun pair hpair => ⟨hencloses pair hpair, hempty pair hpair⟩
  · intro hgood vars' sysVars hsame
    have hknown : KnownName vars' = KnownName vars := by
      funext name
      rw [KnownName, KnownName, hsame]
    rw [hpairing.text_eq]
    refine placed_pairs (fun pair hpair => ?_) (placed_last hpairing.last)
    refine becomes_replaced (hpairing.before pair hpair) (hpairing.inside pair hpair) ?_ ?_
    · rw [hknown]
      exact (hgood pair hpair).1
    · rw [hsame]
      exact fun hinside hmem => (hgood pair hpair).2 ⟨hinside, hmem⟩

/-- The body of a request with a placeholder in it. -/
def requestBody : String := "\x7b\"model\": \"\x7bm\x7d\"\x7d"

def requestVars : StringMap := Std.ExtTreeMap.ofList [("m", "tts")]

/-- A placeholder inside a JSON object is sent as it is written. -/
theorem placeholder_in_object_is_sent :
    substituteBracedVariables requestBody requestVars ⟨"1", none⟩ = requestBody ∧
      ¬ Placed (placeholderValue requestVars ⟨"1", none⟩) requestBody.toList
        (substituteBracedVariables requestBody requestVars ⟨"1", none⟩).toList := by
  have hcode : substituteBracedVariables requestBody requestVars ⟨"1", none⟩ = requestBody := by
    decide +kernel
  have hname : placeholderValue requestVars ⟨"1", none⟩ (String.ofList ['m']) = some "tts" := by
    decide +kernel
  refine ⟨hcode, fun hplaced => ?_⟩
  have hrest : Placed (placeholderValue requestVars ⟨"1", none⟩) ['"', '\x7d'] ['"', '\x7d'] := by
    refine placed_last fun before after hlast => ?_
    have hmem : '\x7b' ∈ ['"', '\x7d'] := by
      rw [hlast]
      exact List.mem_append_right _ (.head _)
    exact absurd hmem (by decide)
  have hread := @placed_enclosed _ _ _ (placeholder_value_brace_free _ _)
    ⟨[], "\"model\": \"\x7bm".toList⟩ "\"model\": \"".toList ['m'] "tts" List.not_mem_nil (by decide)
    rfl hname hrest
  have hsame := hplaced.unique (placeholder_value_brace_free _ _) hread
  rw [hcode] at hsame
  exact absurd hsame (by decide)

end PgDurable
