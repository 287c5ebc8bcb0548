import Mathlib.Algebra.Order.Ring.Int
import Mathlib.Data.Int.ConditionallyCompleteOrder
import Mathlib.Data.List.Basic
import Mathlib.Data.Set.Lattice

/-!
# Tokens of SQL texts

The lexical rules of SQL constants, names and symbols, as far as they are documented. A lexer is a
parameter: `Documented` says what it reads at the start of a text, and `Lexes` that a text starts
with some tokens, up to a given rest.
-/

namespace PgDurable.SqlLexer

/-! ## Tokens -/

inductive Token where
  /-- A string constant with the string that it denotes. -/
  | string (value : String)
  /-- A numeric constant as it is written. -/
  | number (literal : String)
  /-- A key word or a name without quotes, in lower case. -/
  | word (name : String)
  /-- A quoted name. -/
  | identifier (name : String)
  | symbol (text : String)
  deriving DecidableEq, Repr

/-- The first token of a text and the text after it. -/
abbrev Lexer := List Char → Option (Token × List Char)

/-- A text starts with tokens, and the rest follows them. The rest is there when the tokens are
read, because it decides where the last of them ends. -/
inductive Lexes (lexer : Lexer) : List Char → List Token → List Char → Prop
  | done {rest : List Char} : Lexes lexer rest [] rest
  | token {text after rest : List Char} {token : Token} {tokens : List Token}
      (hfirst : lexer text = some (token, after)) (hrest : Lexes lexer after tokens rest) :
      Lexes lexer text (token :: tokens) rest

theorem Lexes.append {lexer : Lexer} {text middle rest : List Char} {first second : List Token}
    (hfirst : Lexes lexer text first middle) (hsecond : Lexes lexer middle second rest) :
    Lexes lexer text (first ++ second) rest := by
  induction hfirst with
  | done => exact hsecond
  | token h _ ih => exact .token h (ih hsecond)

theorem Lexes.single {lexer : Lexer} {text rest : List Char} {token : Token}
    (h : lexer text = some (token, rest)) : Lexes lexer text [token] rest :=
  .token h .done

/-! ## Where tokens end -/

def isSpace (c : Char) : Bool :=
  c = ' ' || c = '\t' || c = '\n' || c = '\r' || c = '\x0b' || c = '\x0c'

def isNewline (c : Char) : Bool := c = '\n' || c = '\r'

/-- White space and line comments. -/
inductive Gap : List Char → Prop
  | nil : Gap []
  | space {c : Char} {rest : List Char} : isSpace c → Gap rest → Gap (c :: rest)
  | comment {text : List Char} {c : Char} {rest : List Char} :
      (∀ d ∈ text, isNewline d = false) → isNewline c → Gap rest →
      Gap ('-' :: '-' :: text ++ c :: rest)

/-- A string constant before this text may go on in it. -/
def Continues (rest : List Char) : Prop := ∃ gap tail, Gap gap ∧ rest = gap ++ '\'' :: tail

/-- The characters that a word goes on with. -/
def continuesWord (c : Char) : Bool := c.isAlphanum || c = '_' || c = '$' || 128 ≤ c.toNat

/-- The token before this text ends where the text begins. -/
def Token.Separate (rest : List Char) : Token → Prop
  | string _ => ¬ Continues rest
  | number _ => ∀ c tail, rest = c :: tail → continuesWord c = false ∧ c ≠ '.'
  | word _ => ∀ c tail, rest = c :: tail → continuesWord c = false
  | identifier _ => ∀ tail, rest ≠ '"' :: tail
  | symbol _ => True

/-- A string constant does not go on after a character that is neither a quote nor white space nor
the start of a comment. -/
theorem not_continues {c : Char} {rest : List Char} (hquote : c ≠ '\'') (hspace : isSpace c = false)
    (hminus : c ≠ '-') : ¬ Continues (c :: rest) := by
  rintro ⟨gap, tail, hgap, heq⟩
  cases hgap with
  | nil => exact hquote (List.cons.inj heq).1
  | space hc _ =>
      rw [← (List.cons.inj heq).1, hspace] at hc
      cases hc
  | comment => exact hminus (List.cons.inj heq).1

/-- A list goes on, or ends. -/
def Delimited (rest : List Char) : Prop := ∃ c tail, rest = c :: tail ∧ (c = ',' ∨ c = ')')

/-- Every token ends before a comma or a closing parenthesis. -/
theorem Delimited.separate {rest : List Char} (h : Delimited rest) (token : Token) :
    token.Separate rest := by
  obtain ⟨c, tail, rfl, hc⟩ := h
  have hword : continuesWord c = false ∧ c ≠ '.' := by
    rcases hc with rfl | rfl
    · decide
    · decide
  cases token with
  | string value =>
      rcases hc with rfl | rfl
      · exact not_continues (by decide) (by decide) (by decide)
      · exact not_continues (by decide) (by decide) (by decide)
  | number literal =>
      intro d tail heq
      cases heq
      exact hword
  | word name =>
      intro d tail heq
      cases heq
      exact hword.1
  | identifier name =>
      intro tail heq
      rcases hc with rfl | rfl
      · cases heq
      · cases heq
  | symbol text => trivial

/-! ## How tokens are written -/

/-- What stands between the quotes of a string constant, and the string that it denotes. With
escapes, backslashes are doubled like quotes. -/
inductive StringBody (escapes : Bool) : List Char → List Char → Prop
  | nil : StringBody escapes [] []
  | quote {body value : List Char} : StringBody escapes body value →
      StringBody escapes ('\'' :: '\'' :: body) ('\'' :: value)
  | backslash {body value : List Char} : escapes = true → StringBody escapes body value →
      StringBody escapes ('\\' :: '\\' :: body) ('\\' :: value)
  | plain {c : Char} {body value : List Char} : c ≠ '\'' → c ≠ '\x00' →
      (escapes = true → c ≠ '\\') → StringBody escapes body value →
      StringBody escapes (c :: body) (c :: value)

/-- What stands between the quotes of a quoted name. -/
inductive IdentifierBody : List Char → List Char → Prop
  | nil : IdentifierBody [] []
  | quote {body name : List Char} : IdentifierBody body name →
      IdentifierBody ('"' :: '"' :: body) ('"' :: name)
  | plain {c : Char} {body name : List Char} : c ≠ '"' → c ≠ '\x00' → IdentifierBody body name →
      IdentifierBody (c :: body) (c :: name)

/-- A name is not empty, and short enough to be kept whole. -/
def ValidName (name : String) : Prop := name ≠ "" ∧ name.utf8ByteSize ≤ 63

def Digits (text : List Char) : Prop := text ≠ [] ∧ ∀ c ∈ text, c.isDigit

/-- A decimal fraction, if there is one. -/
inductive Fraction : List Char → Prop
  | none : Fraction []
  | some {digits : List Char} : Digits digits → Fraction ('.' :: digits)

/-- A decimal exponent, if there is one. -/
inductive Exponent : List Char → Prop
  | none : Exponent []
  | positive {digits : List Char} : Digits digits → Exponent ('e' :: digits)
  | negative {digits : List Char} : Digits digits → Exponent ('e' :: '-' :: digits)

/-- A decimal numeric constant. -/
inductive NumericConstant : List Char → Prop
  | mk {whole fraction exponent : List Char} : Digits whole → Fraction fraction →
      Exponent exponent → NumericConstant (whole ++ fraction ++ exponent)

/-- A word of at least two letters. One letter before a quote may mark the constant after it. -/
def Word (text : List Char) : Prop := 2 ≤ text.length ∧ ∀ c ∈ text, c.isAlpha

instance (text : List Char) : Decidable (Word text) :=
  decidable_of_iff (2 ≤ text.length ∧ text.all Char.isAlpha = true)
    (and_congr_right fun _ => List.all_eq_true)

/-- What the lexer documents. `conforming` is the setting `standard_conforming_strings`: whether
backslashes are ordinary characters in string constants without a mark. -/
structure Documented (conforming : Bool) (lexer : Lexer) : Prop where
  blank : ∀ text, lexer (' ' :: text) = lexer text
  string : ∀ body value rest, StringBody (!conforming) body value →
    (Token.string (String.ofList value)).Separate rest →
    lexer ('\'' :: body ++ '\'' :: rest) = some (.string (String.ofList value), rest)
  escape_string : ∀ body value rest, StringBody true body value →
    (Token.string (String.ofList value)).Separate rest →
    lexer ('E' :: '\'' :: body ++ '\'' :: rest) = some (.string (String.ofList value), rest)
  number : ∀ text rest, NumericConstant text → (Token.number (String.ofList text)).Separate rest →
    lexer (text ++ rest) = some (.number (String.ofList text), rest)
  minus : ∀ c rest, c.isDigit → lexer ('-' :: c :: rest) = some (.symbol "-", c :: rest)
  word : ∀ text rest, Word text →
    (Token.word (String.ofList (text.map Char.toLower))).Separate rest →
    lexer (text ++ rest) = some (.word (String.ofList (text.map Char.toLower)), rest)
  identifier : ∀ body name rest, IdentifierBody body name → ValidName (String.ofList name) →
    (Token.identifier (String.ofList name)).Separate rest →
    lexer ('"' :: body ++ '"' :: rest) = some (.identifier (String.ofList name), rest)
  symbol : ∀ c rest, c = '(' ∨ c = ')' ∨ c = ',' →
    lexer (c :: rest) = some (.symbol (String.ofList [c]), rest)
  cast : ∀ rest, lexer (':' :: ':' :: rest) = some (.symbol "::", rest)

section Documented

variable {conforming : Bool} {lexer : Lexer} (hlexer : Documented conforming lexer)

include hlexer

/-- A blank before a token is skipped. -/
theorem Lexes.after_blank {text rest : List Char} {tokens : List Token} (hsome : tokens ≠ [])
    (h : Lexes lexer text tokens rest) : Lexes lexer (' ' :: text) tokens rest := by
  cases h with
  | done => exact absurd rfl hsome
  | token hfirst hrest => exact .token ((hlexer.blank text).trans hfirst) hrest

/-- Items that are each read as their tokens are read as these with a comma in between. -/
theorem Lexes.list {α : Type} (blanks : List Char) (hblanks : blanks = [] ∨ blanks = [' '])
    (text : α → List Char) (tokens : α → List Token) (items : List α)
    (hsome : ∀ item ∈ items, tokens item ≠ [])
    (hitems : ∀ item ∈ items, ∀ rest, Delimited rest →
      Lexes lexer (text item ++ rest) (tokens item) rest)
    {rest : List Char} (hrest : Delimited rest) :
    Lexes lexer (List.intercalate (',' :: blanks) (items.map text) ++ rest)
      (List.intercalate [.symbol ","] (items.map tokens)) rest := by
  induction items with
  | nil => exact .done
  | cons item items ih =>
      obtain ⟨hfirst, hothers⟩ := List.forall_mem_cons.1 hitems
      obtain ⟨hitem, hnonempty⟩ := List.forall_mem_cons.1 hsome
      cases items with
      | nil =>
          simp only [List.map_cons, List.map_nil, List.intercalate_singleton]
          exact hfirst rest hrest
      | cons second items =>
          have htail := ih hnonempty hothers
          have hne : List.intercalate [Token.symbol ","] ((second :: items).map tokens) ≠ [] := by
            intro hnil
            cases items with
            | nil =>
                rw [List.map_singleton, List.intercalate_singleton] at hnil
                exact hnonempty second List.mem_cons_self hnil
            | cons third items =>
                rw [List.map_cons, List.map_cons, List.intercalate_cons_cons] at hnil
                simp only [List.append_eq_nil_iff, List.cons_ne_nil, and_false, false_and] at hnil
          simp only [List.map_cons, List.intercalate_cons_cons, List.append_assoc,
            List.cons_append, List.nil_append] at htail hne ⊢
          refine (hfirst _ ⟨',', _, rfl, Or.inl rfl⟩).append ?_
          refine .token (hlexer.symbol ',' _ (Or.inr (Or.inr rfl))) ?_
          rcases hblanks with rfl | rfl
          · exact htail
          · exact htail.after_blank hlexer hne

end Documented

end PgDurable.SqlLexer
