import PgDurable.Library.Urlencoded

/-!
# Parsed URLs

The record of a parsed URL, with its query in encoded form, and what can be read from it: its
serialization, its origin and the names and values of its query. `setQuery` encodes what it is
given, and leaves an encoded query as it is (`encode_query_of_encoded`). Of parsing, only that of
plain HTTPS URLs is modelled.
-/

namespace PgDurable

open Urlencoded

/-! ## Encoded queries -/

/-- The characters that stay as they are in the query of a URL. Special schemes encode the single
quote as well. -/
def queryAllowed (special : Bool) (c : Char) : Bool :=
  0x20 < c.toNat && c.toNat < 0x7F && c != '"' && c != '#' && c != '<' && c != '>' &&
    !(special && c == '\'')

def byteChar (byte : UInt8) : Char := Char.ofNat byte.toNat

def isTabOrNewline (c : Char) : Bool := c == '\t' || c == '\n' || c == '\r'

/-- The encoded form of a query. Tabs and newlines are dropped. -/
def encodeQuery (special : Bool) (text : List Char) : List Char :=
  (text.filter (!isTabOrNewline ·)).flatMap fun c =>
    if queryAllowed special c then [c] else (utf8 [c]).flatMap fun byte => (escape byte).map byteChar

theorem escape_allowed (special : Bool) (byte : UInt8) {c : Char}
    (h : c ∈ (escape byte).map byteChar) : queryAllowed special c = true := by
  have hall : ((escape byte).map byteChar).all (queryAllowed special) = true := by
    cases special with
    | false =>
        exact forall_byte (fun byte => ((escape byte).map byteChar).all (queryAllowed false))
          (by decide +kernel) byte
    | true =>
        exact forall_byte (fun byte => ((escape byte).map byteChar).all (queryAllowed true))
          (by decide +kernel) byte
  exact List.all_eq_true.1 hall c h

theorem encode_query_encoded (special : Bool) (text : List Char) :
    (encodeQuery special text).all (queryAllowed special) = true := by
  rw [List.all_eq_true]
  intro c hc
  obtain ⟨source, -, hc⟩ := List.mem_flatMap.1 hc
  by_cases hsource : queryAllowed special source = true
  · rw [if_pos hsource] at hc
    rw [List.mem_singleton.1 hc]
    exact hsource
  · rw [if_neg hsource] at hc
    obtain ⟨byte, -, hbyte⟩ := List.mem_flatMap.1 hc
    exact escape_allowed special byte hbyte

/-- An encoded query stays as it is. -/
theorem encode_query_of_encoded {special : Bool} {text : List Char}
    (h : text.all (queryAllowed special) = true) : encodeQuery special text = text := by
  unfold encodeQuery
  induction text with
  | nil => rfl
  | cons c text ih =>
      rw [List.all_cons, Bool.and_eq_true] at h
      have hkeep : (!isTabOrNewline c) = true := by
        have hgraphic : (decide (0x20 < c.toNat)) = true := by
          cases hcontrol : decide (0x20 < c.toNat) with
          | true => rfl
          | false => rw [queryAllowed, hcontrol] at h; exact h.1
        rw [Bool.not_eq_true', isTabOrNewline, Bool.or_eq_false_iff, Bool.or_eq_false_iff,
          beq_eq_false_iff_ne, beq_eq_false_iff_ne, beq_eq_false_iff_ne]
        refine ⟨⟨?_, ?_⟩, ?_⟩
        all_goals
          intro heq
          rw [heq] at hgraphic
          exact absurd hgraphic (by decide)
      have hfilter : (c :: text).filter (!isTabOrNewline ·) =
          c :: text.filter (!isTabOrNewline ·) := List.filter_cons_of_pos hkeep
      rw [hfilter, List.flatMap_cons, if_pos h.1, ih h.2]
      rfl

/-- Characters of one byte are their UTF-8 form. -/
theorem utf8_byte_chars {bytes : Bytes} (h : ∀ byte ∈ bytes, byte < 128) :
    utf8 (bytes.map byteChar) = bytes := by
  induction bytes with
  | nil => rfl
  | cons byte bytes ih =>
      have htable := forall_byte (fun byte => !decide (byte < 128) || utf8 [byteChar byte] == [byte])
        (by decide +kernel) byte
      rw [decide_eq_true (h byte List.mem_cons_self)] at htable
      have hbyte : utf8 [byteChar byte] = [byte] := beq_iff_eq.1 htable
      have hcons : (byte :: bytes).map byteChar = [byteChar byte] ++ bytes.map byteChar := rfl
      rw [hcons, utf8_append, hbyte, ih fun b hb => h b (List.mem_cons_of_mem _ hb)]
      rfl

/-- The text of names and values. -/
def serializeText (entries : List (String × String)) : List Char :=
  (serialize entries).map byteChar

/-- Serialized bytes separate entries, or are encoded. -/
theorem serialize_mem {entries : List (String × String)} {byte : UInt8}
    (h : byte ∈ serialize entries) :
    (isUnreserved byte || byte == 0x2B || byte == 0x25 || byte == 0x26 || byte == 0x3D) = true := by
  have hencoded : ∀ bytes, byte ∈ encode bytes →
      (isUnreserved byte || byte == 0x2B || byte == 0x25 || byte == 0x26 || byte == 0x3D) = true := by
    intro bytes hmem
    rw [encode_mem hmem]
    rfl
  induction entries with
  | nil => cases h
  | cons entry entries ih =>
      have hentry : byte ∈ serializePair entry →
          (isUnreserved byte || byte == 0x2B || byte == 0x25 || byte == 0x26 || byte == 0x3D) =
            true := by
        intro hmem
        rcases List.mem_append.1 hmem with hname | hvalue
        · exact hencoded _ hname
        · rcases List.mem_cons.1 hvalue with rfl | hvalue
          · decide
          · exact hencoded _ hvalue
      cases entries with
      | nil =>
          rw [serialize, List.map_cons, List.map_nil, List.intercalate_singleton] at h
          exact hentry h
      | cons next entries =>
          rw [serialize, List.map_cons, List.map_cons, List.intercalate_cons_cons, List.mem_append,
            List.mem_append] at h
          rcases h with (hfirst | hseparator) | hrest
          · exact hentry hfirst
          · rw [List.mem_singleton.1 hseparator]
            decide
          · exact ih hrest

theorem serialized_byte {byte : UInt8}
    (h : (isUnreserved byte || byte == 0x2B || byte == 0x25 || byte == 0x26 || byte == 0x3D) = true) :
    byte < 128 ∧ ∀ special, queryAllowed special (byteChar byte) = true := by
  have htable := forall_byte (fun byte =>
    !(isUnreserved byte || byte == 0x2B || byte == 0x25 || byte == 0x26 || byte == 0x3D) ||
      (decide (byte < 128) && queryAllowed true (byteChar byte) &&
        queryAllowed false (byteChar byte))) (by decide +kernel) byte
  rw [h, Bool.not_true, Bool.false_or, Bool.and_eq_true, Bool.and_eq_true] at htable
  refine ⟨of_decide_eq_true htable.1.1, fun special => ?_⟩
  cases special with
  | false => exact htable.2
  | true => exact htable.1.2

theorem serialize_text_encoded (special : Bool) (entries : List (String × String)) :
    (serializeText entries).all (queryAllowed special) = true := by
  rw [List.all_eq_true]
  intro c hc
  obtain ⟨byte, hbyte, rfl⟩ := List.mem_map.1 hc
  exact (serialized_byte (serialize_mem hbyte)).2 special

theorem serialize_text_utf8 (entries : List (String × String)) :
    utf8 (serializeText entries) = serialize entries :=
  utf8_byte_chars fun _ hbyte => (serialized_byte (serialize_mem hbyte)).1

/-! ## The record -/

/-- The schemes that have a default port, and `file`. -/
def isSpecial (scheme : String) : Bool :=
  ["http", "https", "ws", "wss", "ftp", "file"].contains scheme

/-- A parsed URL. The host of a URL without authority is `none`, an empty host is empty. -/
structure Url where
  scheme : String
  username : String
  password : Option String
  host : Option String
  port : Option Nat
  path : String
  query : Option (List Char)
  fragment : Option String
  /-- The query is encoded as the scheme asks. -/
  query_encoded : ∀ text, query = some text → text.all (queryAllowed (isSpecial scheme)) = true

namespace Url

/-- The text before the user name. -/
def beforeUsername (url : Url) : String :=
  url.scheme ++ if url.host.isSome then "://" else ":"

/-- The text from the host to the path. A path that would read as a host is kept from it. -/
def hostToPath (url : Url) : String :=
  url.host.getD "" ++ url.port.elim "" (fun port => ":" ++ toString port) ++
    (if url.host.isNone ∧ url.path.startsWith "//" then "/." else "") ++ url.path

/-- Whether there is a user name or a password. -/
def hasUserinfo (url : Url) : Bool := url.username != "" || url.password.isSome

def asStr (url : Url) : String :=
  url.beforeUsername ++
    (if url.hasUserinfo then
      url.username ++ url.password.elim "" (fun password => ":" ++ password) ++ "@" else "") ++
    url.hostToPath ++ url.query.elim "" (fun query => "?" ++ String.ofList query) ++
    url.fragment.elim "" (fun fragment => "#" ++ fragment)

def defaultPort (scheme : String) : Option Nat :=
  match scheme with
  | "http" => some 80
  | "ws" => some 80
  | "https" => some 443
  | "wss" => some 443
  | "ftp" => some 21
  | _ => none

/-- The origin, if it is not unlike every other. That of a `blob` URL is not modelled. -/
def origin (url : Url) : Option (String × Option String × Nat) := do
  let default ← defaultPort url.scheme
  some (url.scheme, url.host, url.port.getD default)

/-- The names and values of the query. -/
def queryPairs (url : Url) : List (String × String) :=
  url.query.elim [] fun query => pairs (utf8 query)

/-- The URLs agree on where they lead to. -/
def SameTarget (first second : Url) : Prop :=
  first.scheme = second.scheme ∧ first.host = second.host ∧ first.port = second.port ∧
    first.path = second.path

def setQuery (url : Url) (text : List Char) : Url :=
  { url with
    query := some (encodeQuery (isSpecial url.scheme) text)
    query_encoded := by
      intro encoded h
      rw [← Option.some.inj h]
      exact encode_query_encoded _ _ }

end Url

/-- Two queries joined by an ampersand hold the names and values of both. -/
theorem pairs_join (front rest : List Char) :
    pairs (utf8 (front ++ '&' :: rest)) = pairs (utf8 front) ++ pairs (utf8 rest) := by
  have hamp : utf8 ('&' :: rest) = 0x26 :: utf8 rest := rfl
  rw [utf8_append, hamp, pairs_append]

/-! ## Plain URLs -/

/-- Parse an HTTPS URL of plain characters, without user, port and fragment. -/
def parsePlain (text : String) : Option Url :=
  let rest := text.toList.drop 8
  let host := rest.takeWhile (· != '/')
  let afterHost := rest.dropWhile (· != '/')
  let path := afterHost.takeWhile (· != '?')
  let query := (afterHost.dropWhile (· != '?')).tail?
  if h : "https://".toList.isPrefixOf text.toList && host.all (fun c => c.isAlphanum || c == '.') &&
      path.all (fun c => c.isAlphanum || c == '/') &&
      (query.getD []).all (queryAllowed (isSpecial "https")) then
    some ⟨"https", "", none, some (String.ofList host), none,
      if path.isEmpty then "/" else String.ofList path, query, none, by
        intro encoded hencoded
        rw [Bool.and_eq_true, hencoded] at h
        exact h.2⟩
  else none

theorem parse_plain_scheme {text : String} {url : Url} (h : parsePlain text = some url) :
    url.scheme = "https" := by
  unfold parsePlain at h
  dsimp only at h
  split at h
  · rw [← Option.some.inj h]
  · cases h

end PgDurable
