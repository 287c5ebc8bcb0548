import Mathlib.Data.List.TakeWhile
import PgDurable.Library.Url

/-!
# Redaction

`redactUrl` keeps of a URL what is no credential: the scheme, the host, the port, the path and the
names of its parameters. `redaction_reveals_structure` says that it reveals nothing else.
-/

namespace PgDurable.Redaction

/-- Stands for any elided value. -/
def redacted : String := "<redacted>"

/-! ## Queries -/

/-- The text without the characters at its end that are `c`. -/
def trimEndMatches (c : Char) (text : List Char) : List Char :=
  (text.reverse.dropWhile (· == c)).reverse

/-- The texts before and after the first `c`. -/
def splitOnce (c : Char) (text : List Char) : Option (List Char × List Char) :=
  match text.dropWhile (· != c) with
  | [] => none
  | _ :: rest => some (text.takeWhile (· != c), rest)

/-- Redact an item. One without a name, or with nothing but padding as its value, is elided whole. -/
def redactItem (pair : List Char) : List Char :=
  match splitOnce '=' pair with
  | some (name, value) =>
      if trimEndMatches '=' value ≠ [] then name ++ '=' :: redacted.toList else redacted.toList
  | none => redacted.toList

/-- Redact the values in a query. -/
def redactQuery (query : List Char) : List Char :=
  ['&'].intercalate ((query.splitOn '&').map redactItem)

/-! ## URLs -/

/-- The query of a redacted URL; an empty one is left out. -/
def redactedQuery (query : Option (List Char)) : String :=
  match query.filter (!·.isEmpty) with
  | some query => "?" ++ String.ofList (redactQuery query)
  | none => ""

/-- Redact a URL. What does not parse is not echoed. -/
def redactUrl (parse : String → Option Url) (url : String) : String :=
  match parse url with
  | none => redacted
  | some parsed =>
      parsed.beforeUsername ++ (if parsed.hasUserinfo then redacted ++ "@" else "") ++
        parsed.hostToPath ++ redactedQuery parsed.query ++
        if parsed.fragment.isSome then "#" ++ redacted else ""

/-! ## What is kept of a query -/

/-- The name of an item, or `none` for an opaque one. -/
def itemName (item : List Char) : Option (List Char) :=
  if (item.dropWhile (· != '=')).all (· == '=') then none else some (item.takeWhile (· != '='))

/-- The names of the items of a query. -/
def itemNames (query : Option (List Char)) : List (Option (List Char)) :=
  ((query.getD []).splitOn '&').map itemName

/-- An item that shows its name. -/
def showName : Option (List Char) → List Char
  | some name => name ++ '=' :: redacted.toList
  | none => redacted.toList

theorem trim_end_matches_eq_nil_iff (c : Char) (text : List Char) :
    trimEndMatches c text = [] ↔ text.all (· == c) = true := by
  rw [trimEndMatches, List.reverse_eq_nil_iff, List.dropWhile_eq_nil_iff, List.all_eq_true]
  exact ⟨fun h x hx => h x (List.mem_reverse.2 hx), fun h x hx => h x (List.mem_reverse.1 hx)⟩

/-- A redacted item shows the name of the item. -/
theorem redact_item_eq (item : List Char) : redactItem item = showName (itemName item) := by
  unfold redactItem splitOnce itemName
  cases hrest : item.dropWhile (· != '=') with
  | nil => rfl
  | cons c rest =>
      have hc : c = '=' := by
        have hhead := List.head?_dropWhile_not (· != '=') item
        rw [hrest] at hhead
        have hstop : (c != '=') = false := hhead
        rw [bne_eq_false_iff_eq] at hstop
        exact hstop
      have hall : ((c :: rest).all (· == '=')) = rest.all (· == '=') := by
        rw [hc, List.all_cons, beq_self_eq_true, Bool.true_and]
      rw [hall]
      by_cases hpadding : rest.all (· == '=') = true
      · have htrim := (trim_end_matches_eq_nil_iff '=' rest).2 hpadding
        rw [if_pos hpadding]
        exact if_neg (not_not.2 htrim)
      · have htrim : trimEndMatches '=' rest ≠ [] :=
          fun hnil => hpadding ((trim_end_matches_eq_nil_iff '=' rest).1 hnil)
        rw [if_neg hpadding]
        exact if_pos htrim

/-- A redacted query depends on the names of the items only. -/
theorem redact_query_eq (query : List Char) :
    redactQuery query = ['&'].intercalate ((itemNames (some query)).map showName) := by
  rw [redactQuery, itemNames, List.map_map]
  congr 1
  exact List.map_congr_left fun item _ => redact_item_eq item

/-! ## Redacting again -/

theorem item_name_no_equals {item name : List Char} (h : itemName item = some name) :
    '=' ∉ name := by
  unfold itemName at h
  split at h
  · cases h
  · rw [← Option.some.inj h]
    intro hmem
    have hkept := List.all_eq_true.1 List.all_takeWhile '=' hmem
    exact absurd hkept (by decide)

theorem item_name_mem {item name : List Char} (h : itemName item = some name) {c : Char}
    (hc : c ∈ name) : c ∈ item := by
  unfold itemName at h
  split at h
  · cases h
  · rw [← Option.some.inj h] at hc
    exact (List.takeWhile_prefix _).subset hc

/-- A shown item has the name it shows. -/
theorem item_name_show {name : Option (List Char)} (h : ∀ text, name = some text → '=' ∉ text) :
    itemName (showName name) = name := by
  cases name with
  | none => decide
  | some text =>
      have htext : ∀ c ∈ text, (c != '=') = true :=
        fun c hc => bne_iff_ne.2 fun heq => h text rfl (heq ▸ hc)
      have hrest : (showName (some text)).dropWhile (· != '=') = '=' :: redacted.toList := by
        rw [showName, List.dropWhile_append_of_pos htext, List.dropWhile_cons_of_neg (by decide)]
      have hname : (showName (some text)).takeWhile (· != '=') = text := by
        rw [showName, List.takeWhile_append_of_pos htext, List.takeWhile_cons_of_neg (by decide),
          List.append_nil]
      rw [itemName, hrest, if_neg (by decide), hname]

theorem show_name_no_ampersand {item : List Char} (h : '&' ∉ item) :
    '&' ∉ showName (itemName item) := by
  cases hname : itemName item with
  | none => decide
  | some name =>
      have htext : '&' ∉ name := fun hmem => h (item_name_mem hname hmem)
      rw [showName, List.mem_append, not_or]
      exact ⟨htext, by decide⟩

theorem not_mem_item {c : Char} {text item : List Char} (h : item ∈ text.splitOn c) : c ∉ item := by
  induction text generalizing item with
  | nil =>
      rw [List.splitOn_nil, List.mem_singleton] at h
      rw [h]
      exact List.not_mem_nil
  | cons x text ih =>
      rw [List.splitOn_cons_eq_if_modifyHead] at h
      split at h
      · rcases List.mem_cons.1 h with rfl | hlater
        · exact List.not_mem_nil
        · exact ih hlater
      · next hx =>
          cases hitems : text.splitOn c with
          | nil => exact absurd hitems (List.splitOn_ne_nil c text)
          | cons first items =>
              rw [hitems, List.modifyHead_cons] at h
              rcases List.mem_cons.1 h with rfl | hlater
              · rw [List.mem_cons, not_or]
                exact ⟨fun heq => hx (beq_iff_eq.2 heq.symm),
                  ih (by rw [hitems]; exact List.mem_cons_self)⟩
              · exact ih (by rw [hitems]; exact List.mem_cons_of_mem _ hlater)

/-- The items of a redacted query have the names of the items of the query. -/
theorem item_names_redact_query (query : List Char) :
    itemNames (some (redactQuery query)) = itemNames (some query) := by
  have hitems : (redactQuery query).splitOn '&' =
      (query.splitOn '&').map fun item => showName (itemName item) := by
    rw [redact_query_eq, itemNames, List.map_map]
    refine List.splitOn_intercalate '&' ?_ ?_
    · intro shown hshown
      obtain ⟨item, hitem, rfl⟩ := List.mem_map.1 hshown
      exact show_name_no_ampersand (not_mem_item hitem)
    · intro hnil
      exact List.splitOn_ne_nil '&' query (List.map_eq_nil_iff.1 hnil)
  show ((redactQuery query).splitOn '&').map itemName = (query.splitOn '&').map itemName
  rw [hitems, List.map_map]
  refine List.map_congr_left fun item _ => ?_
  exact item_name_show fun _ => item_name_no_equals

theorem redact_query_idempotent (query : List Char) :
    redactQuery (redactQuery query) = redactQuery query := by
  rw [redact_query_eq, item_names_redact_query, ← redact_query_eq]

/-! ## What is kept of a URL -/

/-- Two URLs that agree on everything but what redaction elides. -/
structure SameStructure (first second : Url) : Prop where
  target : first.SameTarget second
  userinfo : first.hasUserinfo = second.hasUserinfo
  query : (first.query.filter (!·.isEmpty)).isSome = (second.query.filter (!·.isEmpty)).isSome
  fragment : first.fragment.isSome = second.fragment.isSome
  items : itemNames first.query = itemNames second.query

theorem redacted_query_eq {first second : Option (List Char)}
    (hpresent : (first.filter (!·.isEmpty)).isSome = (second.filter (!·.isEmpty)).isSome)
    (hitems : itemNames first = itemNames second) : redactedQuery first = redactedQuery second := by
  unfold redactedQuery
  cases hfirst : first.filter (!·.isEmpty) with
  | none =>
      cases hsecond : second.filter (!·.isEmpty) with
      | none => rfl
      | some query => rw [hfirst, hsecond] at hpresent; cases hpresent
  | some query =>
      cases hsecond : second.filter (!·.isEmpty) with
      | none => rw [hfirst, hsecond] at hpresent; cases hpresent
      | some other =>
          rw [(Option.filter_eq_some_iff.1 hfirst).1, (Option.filter_eq_some_iff.1 hsecond).1]
            at hitems
          show "?" ++ String.ofList (redactQuery query) = "?" ++ String.ofList (redactQuery other)
          rw [redact_query_eq, redact_query_eq, hitems]

theorem redact_url_of_same_structure {parse : String → Option Url} {first second : String}
    {url other : Url} (hfirst : parse first = some url) (hsecond : parse second = some other)
    (h : SameStructure url other) : redactUrl parse first = redactUrl parse second := by
  obtain ⟨hscheme, hhost, hport, hpath⟩ := h.target
  have hbefore : url.beforeUsername = other.beforeUsername := by
    rw [Url.beforeUsername, Url.beforeUsername, hscheme, hhost]
  have hplace : url.hostToPath = other.hostToPath := by
    rw [Url.hostToPath, Url.hostToPath, hhost, hport, hpath]
  unfold redactUrl
  rw [hfirst, hsecond]
  show _ ++ _ ++ _ ++ _ ++ _ = _ ++ _ ++ _ ++ _ ++ _
  rw [hbefore, h.userinfo, hplace, redacted_query_eq h.query h.items, h.fragment]

/-- Redaction reveals the structure of a URL only: URLs that agree on scheme, host, port, path, on
whether there are userinfo, a query that is not empty and a fragment, and on the names of their
items, are redacted to one text. Redacting a query again changes nothing. -/
theorem redaction_reveals_structure (parse : String → Option Url) :
    (∀ first second url other, parse first = some url → parse second = some other →
      SameStructure url other → redactUrl parse first = redactUrl parse second) ∧
      ∀ query, redactQuery (redactQuery query) = redactQuery query :=
  ⟨fun _ _ _ _ => redact_url_of_same_structure, redact_query_idempotent⟩

/-! ## Plain URLs -/

/-- What of a plain URL redaction looks at. -/
structure Components where
  host : Option String
  path : String
  query : Option (List Char)
  deriving DecidableEq

def components (url : Url) : Option Components :=
  if url.scheme = "https" ∧ url.port = none ∧ url.hasUserinfo = false ∧ url.fragment = none then
    some ⟨url.host, url.path, url.query⟩
  else none

theorem parsed_components {text : String} {parts : Components}
    (h : (parsePlain text).bind components = some parts) :
    ∃ url, parsePlain text = some url ∧ url.scheme = "https" ∧ url.port = none ∧
      url.hasUserinfo = false ∧ url.fragment = none ∧ url.host = parts.host ∧
      url.path = parts.path ∧ url.query = parts.query := by
  obtain ⟨url, hurl, hparts⟩ := Option.bind_eq_some_iff.1 h
  unfold components at hparts
  split at hparts
  · next hplain =>
      rw [← Option.some.inj hparts]
      exact ⟨url, hurl, hplain.1, hplain.2.1, hplain.2.2.1, hplain.2.2.2, rfl, rfl, rfl⟩
  · cases hparts

/-- Two tokens and two values that redaction elides alike. -/
theorem tokens_elided :
    redactUrl parsePlain "https://h/p?sig=A&tok" =
      redactUrl parsePlain "https://h/p?sig=B&other==" := by
  have hfirst : (parsePlain "https://h/p?sig=A&tok").bind components =
      some ⟨some "h", "/p", some "sig=A&tok".toList⟩ := by
    decide +kernel
  have hsecond : (parsePlain "https://h/p?sig=B&other==").bind components =
      some ⟨some "h", "/p", some "sig=B&other==".toList⟩ := by
    decide +kernel
  obtain ⟨url, hurl, hscheme, hport, huserinfo, hfragment, hhost, hpath, hquery⟩ :=
    parsed_components hfirst
  obtain ⟨other, hother, hscheme', hport', huserinfo', hfragment', hhost', hpath', hquery'⟩ :=
    parsed_components hsecond
  refine (redaction_reveals_structure parsePlain).1 _ _ url other hurl hother
    ⟨⟨hscheme.trans hscheme'.symm, hhost.trans hhost'.symm, hport.trans hport'.symm,
      hpath.trans hpath'.symm⟩, huserinfo.trans huserinfo'.symm, ?_, ?_, ?_⟩
  · rw [hquery, hquery']
    rfl
  · rw [hfragment, hfragment']
  · rw [hquery, hquery']
    decide +kernel

/-- Whether a query is there but empty is revealed: an empty query is left out, an opaque token is
not, and both are one opaque item. -/
theorem empty_query_revealed :
    ¬ ∀ (parse : String → Option Url) (first second : String) (url other : Url),
      parse first = some url → parse second = some other → url.SameTarget other →
      url.hasUserinfo = other.hasUserinfo → url.query.isSome = other.query.isSome →
      url.fragment.isSome = other.fragment.isSome →
      itemNames url.query = itemNames other.query →
      redactUrl parse first = redactUrl parse second := by
  intro hclaim
  have hfirst : (parsePlain "https://h/p?").bind components =
      some ⟨some "h", "/p", some []⟩ := by
    decide +kernel
  have hsecond : (parsePlain "https://h/p?SEKRIT").bind components =
      some ⟨some "h", "/p", some "SEKRIT".toList⟩ := by
    decide +kernel
  obtain ⟨url, hurl, hscheme, hport, huserinfo, hfragment, hhost, hpath, hquery⟩ :=
    parsed_components hfirst
  obtain ⟨other, hother, hscheme', hport', huserinfo', hfragment', hhost', hpath', hquery'⟩ :=
    parsed_components hsecond
  have hsame := hclaim parsePlain _ _ url other hurl hother
    ⟨hscheme.trans hscheme'.symm, hhost.trans hhost'.symm, hport.trans hport'.symm,
      hpath.trans hpath'.symm⟩ (huserinfo.trans huserinfo'.symm)
    (by rw [hquery, hquery']; rfl) (by rw [hfragment, hfragment'])
    (by rw [hquery, hquery']; decide +kernel)
  exact absurd hsame (by decide +kernel)

end PgDurable.Redaction
