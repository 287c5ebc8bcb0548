import PgDurable.Graph.RequestSize
import PgDurable.Orchestration.Leaves

/-!
# Requests that the size check refuses

A request that the size check refuses at submission should not be one that could run.
`RejectedNeverRuns` says so of the node handlers: they fail before they schedule the request. It
holds of multipart nodes and of HTTP nodes whose body has a reference. A literal body is counted
as it is, but an empty pair of braces in it is still replaced when a variable has the empty name:
`rejected_never_runs_iff`.
-/

namespace PgDurable.Orchestration

open Json Text

/-- The program raises an error and leaves the machine as it is: nothing was scheduled. -/
def FailsUnscheduled (program : Orch String) (machine : Machine) : Prop :=
  ∃ error, program machine = (.error (.raised error), machine)

/-- A handler of request nodes. -/
abbrev RequestHandler :=
  OrchestrationContext → FunctionNode → String → ExecutionContext → SystemVars → Orch String

/-- No selected configuration that the size check refuses at submission is ever sent, whatever the
named results and the variables are. Results have the names that submission accepts. -/
def RejectedNeverRuns (execute : RequestHandler) (select : Value → Prop) : Prop :=
  ∀ ctx node nodeId execCtx sysVars machine text config error,
    node.query = some text → fromStr text = .ok config → select config →
    checkHttpRequestSize config true = .error error →
    (∀ name ∈ machine.results, validateResultName name = .ok ()) →
    FailsUnscheduled (execute ctx node nodeId execCtx sysVars) machine

section Rules

variable {machine : Machine} {α : Type}

/-- A helper may fail; the rest has to. -/
theorem fails_or_fail {outcome : Except String α} {next : α → Orch String}
    (h : ∀ value, outcome = .ok value → FailsUnscheduled (next value) machine) :
    FailsUnscheduled (orFail outcome >>= next) machine := by
  cases outcome with
  | error message => exact ⟨.failure message, rfl⟩
  | ok value => exact h value rfl

/-- Reading the named results changes nothing. -/
theorem fails_read {next : StringMap → Orch String}
    (h : FailsUnscheduled (next machine.results) machine) :
    FailsUnscheduled (readResults >>= next) machine := h

/-- A refused request is not sent. -/
theorem send_request_refused {ctx : OrchestrationContext} {node : FunctionNode} {name : String}
    {config : Value} (h : ∃ message, checkHttpRequestSize config false = .error message) :
    FailsUnscheduled (sendRequest ctx node name config) machine := by
  obtain ⟨message, hmessage⟩ := h
  refine ⟨.application message, ?_⟩
  rw [sendRequest, hmessage]
  rfl

end Rules

/-! ## Multipart nodes -/

/-- A payload that is not counted at submission is one reference; the others stay as they are. -/
theorem multipart_rejected_never_runs :
    RejectedNeverRuns executeHttpMultipartNode fun _ => True := by
  intro ctx node nodeId execCtx sysVars machine text config error hquery hparse _ hcheck _
  rw [executeHttpMultipartNode, hquery, or_missing_some, pure_bind, hparse]
  refine fails_or_fail fun found hfound => fails_read ?_
  cases hfound
  refine fails_or_fail fun sent hsent => ?_
  refine fails_or_fail fun headed hheaded => ?_
  refine fails_or_fail fun later hlater => send_request_refused ?_
  have hother : ∀ key, key ≠ "url" → key ≠ "headers" → key ≠ "parts" →
      later.get? key = config.get? key := fun key hurl hheaders hparts =>
    (substitute_parts_other hparts hlater).trans
      ((substitute_headers_other hheaders hheaded).trans (substitute_member_other hurl hsent))
  have hparts : partsOf headed = partsOf config := by
    rw [partsOf, substitute_headers_other (by decide) hheaded,
      substitute_member_other (by decide) hsent, partsOf]
  refine check_rejects_mono (hother _ (by decide) (by decide) (by decide)) ?_ hcheck
  have hbody : (bodyPieces true config).sum ≤ (bodyPieces false later).sum := by
    rw [bodyPieces, bodyPieces, hother "body" (by decide) (by decide) (by decide)]
    cases (config.get? "body").bind Value.asStr with
    | none => exact Nat.le_refl _
    | some body => cases hreferences : httpBodyHasReferences body.toList <;> simp [hreferences]
  have hform : formPieces later = formPieces config := by
    rw [formPieces, hother "form_fields" (by decide) (by decide) (by decide), formPieces]
  have hsum := parts_pieces_le hlater
  rw [hparts] at hsum
  simp only [requestPieces, List.sum_append, hform]
  omega

/-! ## HTTP nodes -/

/-- A handled HTTP node refuses a configuration whose body does not get shorter. -/
theorem http_rejected_never_runs {select : Value → Prop}
    (h : ∀ config results vars sysVars later, select config →
      (∀ name ∈ results, validateResultName name = .ok ()) →
      substituteMember (fun text => substituteAllRaw text results vars sysVars) "body" config =
        .ok later → (bodyPieces true config).sum ≤ (bodyPieces false later).sum) :
    RejectedNeverRuns executeHttpNode select := by
  intro ctx node nodeId execCtx sysVars machine text config error hquery hparse hselect hcheck hnames
  rw [executeHttpNode, hquery, or_missing_some, pure_bind, hparse]
  refine fails_or_fail fun found hfound => fails_read ?_
  cases hfound
  refine fails_or_fail fun bodied hbodied => ?_
  refine fails_or_fail fun sent hsent => ?_
  refine fails_or_fail fun later hlater => send_request_refused ?_
  have hafter : ∀ key, key ≠ "url" → key ≠ "headers" → later.get? key = bodied.get? key :=
    fun key hurl hheaders => (substitute_headers_other hheaders hlater).trans
      (substitute_member_other hurl hsent)
  have hother : ∀ key, key ≠ "body" → key ≠ "url" → key ≠ "headers" →
      later.get? key = config.get? key := fun key hbody hurl hheaders =>
    (hafter key hurl hheaders).trans (substitute_member_other hbody hbodied)
  refine check_rejects_mono (hother _ (by decide) (by decide) (by decide)) ?_ hcheck
  have hbody : (bodyPieces true config).sum ≤ (bodyPieces false later).sum := by
    have hsame : bodyPieces false later = bodyPieces false bodied := by
      rw [bodyPieces, hafter "body" (by decide) (by decide), bodyPieces]
    rw [hsame]
    exact h config machine.results execCtx.vars sysVars bodied hselect hnames hbodied
  have hform : formPieces later = formPieces config := by
    rw [formPieces, hother "form_fields" (by decide) (by decide) (by decide), formPieces]
  have hparts : ((partsOf config).filterMap (partPiece true)).sum ≤
      ((partsOf later).filterMap (partPiece false)).sum := by
    rw [partsOf, partsOf, hother "parts" (by decide) (by decide) (by decide), filter_map_sum,
      filter_map_sum]
    refine List.sum_le_sum fun part _ => ?_
    rw [partPiece, partPiece]
    cases (part.get? "data_b64").bind Value.asStr with
    | none => exact Nat.le_refl _
    | some data => cases hwhole : isWholeValueReference data <;> simp [hwhole]
  simp only [requestPieces, List.sum_append, hform]
  omega

/-- A configuration without a text as its body. -/
theorem bodiless_rejected_never_runs :
    RejectedNeverRuns executeHttpNode fun config => (config.get? "body").bind Value.asStr = none :=
  http_rejected_never_runs fun config results vars sysVars later hnone _ _ => by
    rw [bodyPieces, hnone]
    exact Nat.zero_le _

/-- A configuration whose body has a reference, or no empty pair of braces. -/
theorem body_rejected_never_runs {body : String}
    (h : httpBodyHasReferences body.toList = true ∨ ¬ EmptyPair body) :
    RejectedNeverRuns executeHttpNode fun config =>
      (config.get? "body").bind Value.asStr = some body := by
  refine http_rejected_never_runs fun config results vars sysVars later hbody hnames hlater => ?_
  obtain ⟨substituted, hsubstituted, hsame⟩ := substitute_member_same hbody hlater
  rw [bodyPieces, hbody, bodyPieces, hsame]
  cases hreferences : httpBodyHasReferences body.toList with
  | true => simp [hreferences]
  | false =>
      have hpairs := h.resolve_left (by rw [hreferences]; exact Bool.false_ne_true)
      rw [literal_unchanged hreferences hnames (fun hpair => absurd hpair hpairs)] at hsubstituted
      cases hsubstituted
      simp [hreferences]

/-! ## Empty pairs of braces -/

/-- A request with a body and a limit. -/
def limitedRequest (body : String) (limit : Nat) : Value :=
  .object [("url", .string "https://example.com/"), ("method", .string "POST"),
    ("body", .string body), ("max_request_bytes", .number (Number.ofNat limit))]

/-- A node with the request. -/
def requestNode (config : Value) : FunctionNode :=
  ⟨"a", "HTTP", some (print config), none, none, none, "alice", none⟩

/-- Variables of which one has the empty name and an empty value. -/
def emptyNameContext : ExecutionContext :=
  ⟨(∅ : StringMap).insert "" "", none, false, 0, "a", .root⟩

theorem limited_request_read (body : String) (limit : Nat) :
    fromStr (print (limitedRequest body limit)) = .ok (limitedRequest body limit) := by
  have hnames : ["url", "method", "body", "max_request_bytes"].Nodup := by decide
  refine from_str_print ⟨hnames, ?_⟩ ?_
  · simp [Value.WellFormedMembers, Value.WellFormed]
  · simp [limitedRequest, Value.depth, Value.depthMembers, recursionLimit]

/-- The request counts its body. -/
theorem limited_request_check {body : String} {limit : Nat} (hlimit : limit < 2 ^ 64)
    {allowReferences : Bool}
    (hcounted : allowReferences = false ∨ httpBodyHasReferences body.toList = false) :
    checkHttpRequestSize (limitedRequest body limit) allowReferences = .ok () ↔
      body.utf8ByteSize ≤ limit := by
  have hmax : (limitedRequest body limit).get? "max_request_bytes" =
      some (.number (Number.ofNat limit)) := rfl
  have hnumber : (Value.number (Number.ofNat limit)).asU64 = some limit := by
    simp [Value.asU64, Number.asU64, Number.ofNat, Number.isInteger]
    exact decide_eq_true hlimit
  have hpieces : requestPieces allowReferences (limitedRequest body limit) =
      [body.utf8ByteSize] := by
    have hbody : ((limitedRequest body limit).get? "body").bind Value.asStr = some body := rfl
    have hparts : partsOf (limitedRequest body limit) = [] := rfl
    have hform : formPieces (limitedRequest body limit) = [] := rfl
    rw [requestPieces, bodyPieces, hbody, hparts, hform]
    rcases hcounted with hcounted | hcounted <;> simp [hcounted]
  rw [check_within hmax hnumber, hpieces, add_bytes_ok_iff hlimit _ 0 (Nat.zero_le _),
    List.sum_singleton, Nat.zero_add]

/-- A literal text without braces stays as it is. -/
theorem plain_text_unchanged {text : String} (h : httpBodyHasReferences text.toList = false)
    (hpairs : ¬ EmptyPair text) (vars : StringMap) (sysVars : SystemVars) :
    substituteAllRaw text ∅ vars sysVars = .ok text :=
  literal_unchanged h (fun _ hmem => absurd hmem Std.ExtTreeMap.not_mem_empty)
    (fun hpair => absurd hpair hpairs) sysVars

/-- The environment in which the request is made. -/
def quietContext : OrchestrationContext := ⟨World.quiet, "i", 0, []⟩

/-- A request is sent when its substituted body fits. -/
theorem limited_request_sent {body shorter : String} {limit : Nat} {sysVars : SystemVars}
    {execCtx : ExecutionContext}
    (hshorter : substituteAllRaw body ∅ execCtx.vars sysVars = .ok shorter)
    (hlimit : limit < 2 ^ 64) (hfits : shorter.utf8ByteSize ≤ limit) :
    (executeHttpNode quietContext (requestNode (limitedRequest body limit)) "a" execCtx sysVars
      ⟨∅, []⟩).1 = .ok "null" := by
  let substitute := fun text => substituteAllRaw text ∅ execCtx.vars sysVars
  have hbody : substituteMember substitute "body" (limitedRequest body limit) =
      .ok (limitedRequest shorter limit) := by
    show (substitute body >>= _) = _
    rw [show substitute body = .ok shorter from hshorter]
    rfl
  have hurl : substituteMember substitute "url" (limitedRequest shorter limit) =
      .ok (limitedRequest shorter limit) := by
    show (substitute "https://example.com/" >>= _) = _
    rw [show substitute "https://example.com/" = .ok "https://example.com/" from
      plain_text_unchanged (by decide) (by decide) _ _]
    rfl
  have hheaders : substituteHeaders substitute (limitedRequest shorter limit) =
      .ok (limitedRequest shorter limit) := rfl
  have haccepted : checkHttpRequestSize (limitedRequest shorter limit) false = .ok () :=
    (limited_request_check hlimit (Or.inl rfl)).2 hfits
  have hsent : (sendRequest quietContext (requestNode (limitedRequest body limit))
      executeHttpName (limitedRequest shorter limit) ⟨∅, []⟩).1 = .ok "null" := by
    rw [sendRequest, haccepted]
    rfl
  rw [executeHttpNode, show (requestNode (limitedRequest body limit)).query =
    some (print (limitedRequest body limit)) from rfl, or_missing_some, pure_bind,
    limited_request_read]
  show ((orFail (substituteMember substitute "body" (limitedRequest body limit)) >>= fun config =>
    orFail (substituteMember substitute "url" config) >>= fun config =>
      orFail (substituteHeaders substitute config) >>= fun config =>
        sendRequest quietContext (requestNode (limitedRequest body limit)) executeHttpName config)
      ⟨∅, []⟩).1 = _
  rw [hbody, or_fail_ok, pure_bind, hurl, or_fail_ok, pure_bind, hheaders, or_fail_ok, pure_bind]
  exact hsent

/-- A literal body with an empty pair of braces is refused at submission with a limit under which it
is sent when a variable has the empty name. -/
theorem empty_pair_runs {body : String} (hliteral : httpBodyHasReferences body.toList = false)
    (hempty : EmptyPair body) (hsize : body.utf8ByteSize ≤ 2 ^ 64) :
    ¬ RejectedNeverRuns executeHttpNode fun config =>
      (config.get? "body").bind Value.asStr = some body := by
  intro h
  obtain ⟨shorter, hshorter, hless⟩ := empty_pairs_shrink hliteral hempty ⟨"i", none⟩
  have hlimit : body.utf8ByteSize - 1 < 2 ^ 64 := by omega
  cases hcheck : checkHttpRequestSize (limitedRequest body (body.utf8ByteSize - 1)) true with
  | ok _ =>
      have hwithin := (limited_request_check hlimit (Or.inr hliteral)).1 hcheck
      omega
  | error error =>
      obtain ⟨raised, hraised⟩ := h quietContext
        (requestNode (limitedRequest body (body.utf8ByteSize - 1))) "a" emptyNameContext
        ⟨"i", none⟩ ⟨∅, []⟩ _ _ error rfl (limited_request_read body _) rfl hcheck
        (fun _ hmem => absurd hmem Std.ExtTreeMap.not_mem_empty)
      have hsent : (executeHttpNode quietContext _ "a" emptyNameContext ⟨"i", none⟩ ⟨∅, []⟩).1 =
          .ok "null" := limited_request_sent hshorter hlimit (by omega)
      rw [hraised] at hsent
      cases hsent

/-- A request that the size check refuses at submission is never sent, except when its body is a
literal with an empty pair of braces: a multipart request, a request without a text as its body,
and exactly the bodies that have a reference or no such pair. The length of a text is a `usize`. -/
theorem rejected_never_runs_iff (body : String) :
    (RejectedNeverRuns executeHttpMultipartNode fun _ => True) ∧
      (RejectedNeverRuns executeHttpNode fun config =>
        (config.get? "body").bind Value.asStr = none) ∧
      (body.utf8ByteSize ≤ 2 ^ 64 →
        ((RejectedNeverRuns executeHttpNode fun config =>
          (config.get? "body").bind Value.asStr = some body) ↔
          httpBodyHasReferences body.toList = true ∨ ¬ EmptyPair body)) := by
  refine ⟨multipart_rejected_never_runs, bodiless_rejected_never_runs, fun hsize => ?_⟩
  refine ⟨fun h => ?_, body_rejected_never_runs⟩
  by_contra hnot
  rw [not_or, not_not, Bool.not_eq_true] at hnot
  exact empty_pair_runs hnot.1 hnot.2 hsize h

/-- The body of an empty object is refused with a limit of one byte, and sent when a variable has the
empty name and an empty value. -/
theorem empty_object_runs :
    checkHttpRequestSize (limitedRequest "\x7b\x7d" 1) true =
        .error "HTTP request body exceeds max_request_bytes (1 bytes)" ∧
      (executeHttpNode quietContext (requestNode (limitedRequest "\x7b\x7d" 1)) "a"
        emptyNameContext ⟨"i", none⟩ ⟨∅, []⟩).1 = .ok "null" := by
  have hempty : substituteAllRaw "\x7b\x7d" ∅ emptyNameContext.vars ⟨"i", none⟩ = .ok "" := by
    decide +kernel
  exact ⟨by decide, limited_request_sent hempty (by decide) (by decide)⟩

end PgDurable.Orchestration
