import PgDurable.Graph.Types
import PgDurable.Library.Outcome
import PgDurable.Library.Utf8
import PgDurable.NodeStatus.Inference

/-!
# The line of a node

`formatNodeDisplay` writes what `df.explain` shows of a node. Long texts are cut at a fixed byte
position, and a cut inside a character panics. `format_node_display_returns_iff` says for which
nodes the line is written, and `fields_verbatim` that it shows every text that is not cut.
-/

namespace PgDurable.Explain

open Json Text NodeStatus

/-- A node for visualization. -/
structure ExplainNode extends NodeFacts where
  resultName : Option String

/-! ## Truncation -/

/-- The text, or its first `kept` bytes with an ellipsis if it has more than `limit`. -/
def truncate (limit kept : Nat) (text : String) : Outcome String :=
  if limit < text.utf8ByteSize then
    match sliceTo text.toList kept with
    | some front => .done (String.ofList front ++ "...")
    | none => .panicked
  else .done text

/-- A cut of the text, if there is one, is between two characters. -/
def CutsCleanly (limit kept : Nat) (text : String) : Prop :=
  limit < text.utf8ByteSize → IsBoundary text.toList kept

theorem truncate_returns_iff (limit kept : Nat) (text : String) :
    (∃ shown, truncate limit kept text = .done shown) ↔ CutsCleanly limit kept text := by
  unfold truncate CutsCleanly
  split
  · next hlong =>
      rw [← slice_to_is_some_iff]
      cases sliceTo text.toList kept with
      | none => exact ⟨(by rintro ⟨_, h⟩; cases h), fun h => absurd (h hlong) (by decide)⟩
      | some front => exact ⟨fun _ _ => rfl, fun _ => ⟨_, rfl⟩⟩
  · next hshort => exact ⟨fun _ h => absurd h hshort, fun _ => ⟨text, rfl⟩⟩

theorem truncate_short {limit kept : Nat} {text : String} (h : text.utf8ByteSize ≤ limit) :
    truncate limit kept text = .done text :=
  if_neg (Nat.not_lt.2 h)

/-! ## Parts of a line -/

/-- What a line is put together from: its own words, texts of the node that are shown whole, and
texts that are cut. -/
inductive Part where
  | word (text : String)
  | field (text : String)
  | cut (limit kept : Nat) (text : String)

def Part.shown : Part → Outcome String
  | word text => .done text
  | field text => .done text
  | cut limit kept text => truncate limit kept text

def joinParts : List Part → Outcome String
  | [] => .done ""
  | part :: parts => do
      let first ← part.shown
      let others ← joinParts parts
      return first ++ others

/-- A cut that does not panic. -/
def Part.Clean : Part → Prop
  | word _ => True
  | field _ => True
  | cut limit kept text => CutsCleanly limit kept text

@[simp] theorem Part.clean_word (text : String) : (word text).Clean := trivial

@[simp] theorem Part.clean_field (text : String) : (field text).Clean := trivial

@[simp] theorem Part.clean_cut (limit kept : Nat) (text : String) :
    (cut limit kept text).Clean ↔ CutsCleanly limit kept text :=
  Iff.rfl

/-- The text of the node that a part shows whole. -/
def Part.whole : Part → Option String
  | word _ => none
  | field text => some text
  | cut limit _ text => if text.utf8ByteSize ≤ limit then some text else none

theorem part_returns_iff (part : Part) : (∃ text, part.shown = .done text) ↔ part.Clean := by
  cases part with
  | word text => exact ⟨fun _ => trivial, fun _ => ⟨text, rfl⟩⟩
  | field text => exact ⟨fun _ => trivial, fun _ => ⟨text, rfl⟩⟩
  | cut limit kept text => exact truncate_returns_iff limit kept text

theorem part_not_exhausted (part : Part) : part.shown ≠ .exhausted := by
  cases part with
  | word text => exact fun h => (by cases h)
  | field text => exact fun h => (by cases h)
  | cut limit kept text =>
      show truncate limit kept text ≠ _
      unfold truncate
      split
      · split
        · exact fun h => (by cases h)
        · exact fun h => (by cases h)
      · exact fun h => (by cases h)

/-- A line is written if no cut in it panics. -/
theorem join_parts_returns_iff (parts : List Part) :
    (∃ text, joinParts parts = .done text) ↔ ∀ part ∈ parts, part.Clean := by
  induction parts with
  | nil => exact ⟨fun _ _ hnone => absurd hnone List.not_mem_nil, fun _ => ⟨"", rfl⟩⟩
  | cons part parts ih =>
      rw [List.forall_mem_cons, ← ih, ← part_returns_iff]
      constructor
      · rintro ⟨text, h⟩
        obtain ⟨first, hfirst, h⟩ := Outcome.bind_eq_done h
        obtain ⟨others, hothers, -⟩ := Outcome.bind_eq_done h
        exact ⟨⟨first, hfirst⟩, ⟨others, hothers⟩⟩
      · rintro ⟨⟨first, hfirst⟩, ⟨others, hothers⟩⟩
        refine ⟨first ++ others, ?_⟩
        show part.shown.bind _ = _
        rw [hfirst]
        show (joinParts parts).bind _ = _
        rw [hothers]
        rfl

/-- A line shows every text that is not cut as it is. -/
theorem join_parts_verbatim {parts : List Part} {text : String} (h : joinParts parts = .done text)
    {part : Part} (hpart : part ∈ parts) {whole : String} (hwhole : part.whole = some whole) :
    ∃ front back, text = front ++ whole ++ back := by
  induction parts generalizing text with
  | nil => cases hpart
  | cons head parts ih =>
      obtain ⟨first, hfirst, h⟩ := Outcome.bind_eq_done h
      obtain ⟨others, hothers, h⟩ := Outcome.bind_eq_done h
      have htext : first ++ others = text := Outcome.done.inj h
      rcases List.mem_cons.1 hpart with rfl | hlater
      · have hsame : first = whole := by
          cases part with
          | word _ => cases hwhole
          | field own =>
              have hown : own = whole := Option.some.inj hwhole
              exact (Outcome.done.inj hfirst).symm.trans hown
          | cut limit kept own =>
              simp only [Part.whole] at hwhole
              split at hwhole
              · next hshort =>
                  have hshown : truncate limit kept own = .done first := hfirst
                  rw [truncate_short hshort] at hshown
                  exact (Outcome.done.inj hshown).symm.trans (Option.some.inj hwhole)
              · cases hwhole
        exact ⟨"", others, by rw [← htext, hsame, String.empty_append]⟩
      · obtain ⟨front, back, hothers'⟩ := ih hothers hlater
        exact ⟨first ++ front, back, by
          rw [← htext, hothers', String.append_assoc, String.append_assoc, String.append_assoc]⟩

/-! ## The line of a node -/

/-- The configuration of a node, if it is JSON. -/
def configOf (node : ExplainNode) : Option Value := node.query.bind parse

/-- The name that a node gives its result. -/
def nameSuffix (node : ExplainNode) : List Part :=
  node.resultName.elim [] fun name => [.word " |=> '", .field name, .word "'"]

def loopConfigOf (node : ExplainNode) : LoopConfig :=
  (node.query.bind fun query => (LoopConfig.ofJson query).toOption).getD LoopConfig.default

/-- How many branches a `JOIN` node has. -/
def branchCount (node : ExplainNode) : Nat :=
  node.leftNode.toList.length + node.rightNode.toList.length +
    (((configOf node).bind fun config => (config.index "extra_nodes").asArray).getD []).length

/-- The method and the target of a request; `debug` quotes a text. -/
def requestParts (debug : String → String) (node : ExplainNode) : List Part :=
  match configOf node with
  | none => [.word "? ?"]
  | some config =>
      let method := ((config.index "method").asStr).getD "POST"
      let url := ((config.index "url").asStr).getD "?"
      match (config.index "endpoint").asStr with
      | some server =>
          [.field method, .word " endpoint ", .word (debug server), .word " ", .field url]
      | none => [.field method, .word " ", .cut 40 37 url]

/-- How a loop runs. -/
def loopKind (config : LoopConfig) : String :=
  match config.conditionNode.isSome, config.continueOnFailure with
  | false, false => "infinite"
  | true, false => "while"
  | false, true => "infinite, continue on failure"
  | true, true => "while, continue on failure"

/-- The parts of the line of a node. -/
def displayParts (debug : String → String) (node : ExplainNode) : List Part :=
  match node.nodeType with
  | "SQL" => [.word "SQL: ", .cut 50 47 (node.query.getD "?")] ++ nameSuffix node
  | "SLEEP" => [.word "SLEEP ", .field (node.query.getD "?"), .word "s"] ++ nameSuffix node
  | "WAIT_SCHEDULE" =>
      let cron := ((configOf node).bind fun config => (config.index "cron_expr").asStr).getD "?"
      [.word "WAIT '", .field cron, .word "'"] ++ nameSuffix node
  | "HTTP" => [.word "HTTP "] ++ requestParts debug node ++ nameSuffix node
  | "HTTP_MULTIPART" => [.word "HTTP_MULTIPART "] ++ requestParts debug node ++ nameSuffix node
  | "SIGNAL" =>
      let name := ((configOf node).bind fun config => (config.index "signal_name").asStr).getD "?"
      let timeout := (configOf node).bind fun config => (config.index "timeout_seconds").asI64
      [.word "SIGNAL '", .field name, .word "'",
        .word (timeout.elim "" fun seconds => " (" ++ toString seconds ++ "s)")] ++ nameSuffix node
  | "LOOP" =>
      [.word "LOOP (", .word (loopKind (loopConfigOf node)), .word ")"] ++ nameSuffix node
  | "BREAK" =>
      match (configOf node).bind fun config => (config.index "break_value").asStr with
      | some value => [.word "BREAK '", .cut 20 17 value, .word "'"] ++ nameSuffix node
      | none => [.word "BREAK"] ++ nameSuffix node
  | "IF" => [.word "IF"] ++ nameSuffix node
  | "JOIN" =>
      [.word "JOIN (", .word (toString (branchCount node)), .word ")"] ++ nameSuffix node
  | "THEN" => [.word "SEQUENCE"]
  | nodeType => [.word nodeType]

/-- Format a node for display. -/
def formatNodeDisplay (debug : String → String) (node : ExplainNode) : Outcome String :=
  joinParts (displayParts debug node)

/-- No cut in the line of a node panics. -/
def CleanNode (debug : String → String) (node : ExplainNode) : Prop :=
  ∀ part ∈ displayParts debug node, part.Clean

/-- The line of a node is written if no cut in it panics. -/
theorem format_node_display_returns_iff (debug : String → String) (node : ExplainNode) :
    (∃ text, formatNodeDisplay debug node = .done text) ↔ CleanNode debug node :=
  join_parts_returns_iff _

/-- The line of a node shows every text of the node that is not cut as it is. -/
theorem fields_verbatim {debug : String → String} {node : ExplainNode} {text : String}
    (h : formatNodeDisplay debug node = .done text) {part : Part}
    (hpart : part ∈ displayParts debug node) {whole : String} (hwhole : part.whole = some whole) :
    ∃ front back, text = front ++ whole ++ back :=
  join_parts_verbatim h hpart hwhole

end PgDurable.Explain
