import PgDurable.Library.Json.Text
import PgDurable.NodeStatus.Lineage

/-!
# Engine identities

An instance is known to the engine by an engine id: its local id, which is eight hexadecimal
digits, or `pgdf-{database oid}-{installation}-{local id}` when it was started in another database
than the worker's. `Origin.fromEngineId` reads the origin back from the id of the instance or of
any of its sub-orchestrations. The UUID parser is a parameter.

`identities_lossless` says that engine ids, composed child ids and execution stamps are a lossless
code for origins, generations and node ids.
-/

namespace PgDurable.Instances

open NodeStatus Text

/-! ## UUIDs -/

/-- An installation identity. -/
abbrev Uuid := BitVec 128

/-- The last `count` lowercase hexadecimal digits of a number. -/
def hexDigits : (count : Nat) → Nat → List Char
  | 0, _ => []
  | count + 1, n => hexDigits count (n / 16) ++ [Nat.digitChar (n % 16)]

/-- `Uuid::simple`: 32 lowercase hexadecimal digits. -/
def Uuid.simple (uuid : Uuid) : String := String.ofList (hexDigits 32 uuid.toNat)

/-- `u8::is_ascii_hexdigit`. -/
def isHexDigit (c : Char) : Bool :=
  c.isDigit || ('a' ≤ c && c ≤ 'f') || ('A' ≤ c && c ≤ 'F')

/-! ## Origins -/

/-- The database and the installation in which an instance was started. -/
structure Origin where
  databaseOid : UInt32
  installationId : Uuid
  deriving DecidableEq

/-- The start of every namespaced engine id. -/
def engineIdStart : String := "pgdf-"

/-- `pgdf-{oid}-{uuid}-{local id}`. -/
def Origin.engineId (origin : Origin) (localId : String) : String :=
  engineIdStart ++ toString origin.databaseOid.toNat ++ "-" ++ origin.installationId.simple ++
    "-" ++ localId

/-- The engine id of a local id, namespaced outside of the worker's database. -/
def engineIdForOrigin (origin : Option Origin) (localId : String) : String :=
  match origin with
  | none => localId
  | some origin => origin.engineId localId

/-- The origin encoded in an engine id; composed ids carry it in their first token. -/
def Origin.fromEngineId (parseStr : String → Option Uuid) (engineId : String) :
    Except String (Option Origin) :=
  let root := (splitTokens engineId).headD engineId
  match root.toList.dropPrefix? engineIdStart.toList with
  | none => .ok none
  | some encoded =>
      match encoded.splitOn '-' with
      | [oid, installation, localId] =>
          if localId.length ≠ 8 || !localId.all isHexDigit then
            .error "Invalid pg_durable engine instance identity"
          else
            match parseU32 oid with
            | none => .error "Invalid origin database OID"
            | some databaseOid =>
                match parseStr (String.ofList installation) with
                | none => .error "Invalid origin installation identity"
                | some installationId => .ok (some ⟨.ofNat databaseOid, installationId⟩)
      | _ => .error "Invalid pg_durable engine instance identity"

/-- A local id or a node id: eight hexadecimal digits. -/
structure LocalId where
  text : String
  length : text.toList.length = 8
  hex : text.toList.all isHexDigit
  deriving DecidableEq

/-- A root instance: where it was started and its local id. -/
structure RootId where
  origin : Option Origin
  localId : LocalId
  deriving DecidableEq

/-- The engine id of a root instance. -/
def RootId.engineId (root : RootId) : String := engineIdForOrigin root.origin root.localId.text

/-! ## Reading the texts -/

/-- Hexadecimal digits are neither separator. -/
theorem separators_not_hex {c : Char} (h : isHexDigit c) : c ≠ '-' ∧ c ≠ ':' := by
  constructor <;> rintro rfl <;> exact absurd h (by decide)

/-- The digits of a UUID are hexadecimal. -/
theorem hex_digits_hex (count n : Nat) : ∀ c ∈ hexDigits count n, isHexDigit c := by
  induction count generalizing n with
  | zero => simp [hexDigits]
  | succ count ih =>
      intro c hc
      rw [hexDigits, List.mem_append, List.mem_singleton] at hc
      rcases hc with hc | rfl
      · exact ih _ c hc
      · have hlast : ∀ digit < 16, isHexDigit (Nat.digitChar digit) := by decide
        exact hlast _ (Nat.mod_lt _ (by decide))

/-- Digits of local ids are hexadecimal. -/
theorem LocalId.hex_of_mem (localId : LocalId) {c : Char} (h : c ∈ localId.text.toList) :
    isHexDigit c :=
  List.all_eq_true.1 localId.hex c h

/-- A local id is a token of a lineage. -/
def LocalId.token (localId : LocalId) : Token where
  text := localId.text
  nonempty h := by
    have hlength := localId.length
    rw [h] at hlength
    cases hlength
  colonFree h := (separators_not_hex (localId.hex_of_mem h)).2 rfl

/-- The characters of a namespaced engine id: three fields after the start. -/
theorem engine_id_chars (origin : Origin) (localId : String) :
    (origin.engineId localId).toList = engineIdStart.toList ++
      List.intercalate ['-'] [(toString origin.databaseOid.toNat).toList,
        hexDigits 32 origin.installationId.toNat, localId.toList] := by
  simp [Origin.engineId, Uuid.simple, List.intercalate, List.intersperse]

/-- The fields of a namespaced engine id contain no separator. -/
theorem engine_id_fields (origin : Origin) (localId : LocalId) {c : Char}
    (hc : c = '-' ∨ c = ':') :
    ∀ field ∈ [(toString origin.databaseOid.toNat).toList,
      hexDigits 32 origin.installationId.toNat, localId.text.toList], c ∉ field := by
  have hhex : ¬ isHexDigit c := by
    rcases hc with rfl | rfl <;> decide
  have hdigit : c.isDigit = false := by
    rcases hc with rfl | rfl <;> decide
  have hoid : c ∉ (toString origin.databaseOid.toNat).toList := by
    rw [show (toString origin.databaseOid.toNat).toList =
      Nat.toDigits 10 origin.databaseOid.toNat from Nat.toList_repr]
    exact not_mem_to_digits hdigit _
  have hinstallation : c ∉ hexDigits 32 origin.installationId.toNat :=
    fun hmem => hhex (hex_digits_hex _ _ c hmem)
  have hlocal : c ∉ localId.text.toList := fun hmem => hhex (localId.hex_of_mem hmem)
  simp only [List.forall_mem_cons]
  exact ⟨hoid, hinstallation, hlocal, nofun⟩

/-- The engine id of a root is a token of a lineage. -/
def RootId.token (root : RootId) : Token where
  text := root.engineId
  nonempty := by
    obtain ⟨origin, localId⟩ := root
    cases origin with
    | none => exact localId.token.nonempty
    | some origin =>
        intro h
        have hchars := engine_id_chars origin localId.text
        rw [show origin.engineId localId.text = "" from h] at hchars
        cases hchars
  colonFree := by
    obtain ⟨origin, localId⟩ := root
    cases origin with
    | none => exact localId.token.colonFree
    | some origin =>
        have hfields := engine_id_fields origin localId (Or.inr rfl)
        show ':' ∉ (origin.engineId localId.text).toList
        rw [engine_id_chars]
        simp only [List.forall_mem_cons] at hfields
        obtain ⟨hoid, hinstallation, hlocal, -⟩ := hfields
        simp only [List.intercalate, List.intersperse, List.flatten_cons, List.flatten_nil,
          List.mem_append, List.append_nil, not_or]
        exact ⟨by decide, hoid, by decide, hinstallation, by decide, hlocal⟩

/-- A bare local id does not start like a namespaced one. -/
theorem local_id_not_namespaced (localId : LocalId) :
    localId.text.toList.dropPrefix? engineIdStart.toList = none := by
  cases hdrop : localId.text.toList.dropPrefix? engineIdStart.toList with
  | none => rfl
  | some rest =>
      obtain ⟨start, htext, hstart⟩ := List.dropPrefix?_eq_some_iff.1 hdrop
      rw [beq_iff_eq] at hstart
      subst hstart
      have hp : 'p' ∈ localId.text.toList := by
        rw [htext]
        simp [engineIdStart]
      exact absurd (localId.hex_of_mem hp) (by decide)

section Parser

variable {parseStr : String → Option Uuid} (hparse : ∀ uuid, parseStr (Uuid.simple uuid) = some uuid)

include hparse

/-- The origin of a root, and of every scope below it, is read back. -/
theorem from_engine_id_instance_id (root : RootId) (spawns : List (Generation × Token)) :
    Origin.fromEngineId parseStr (Scope.instanceId ⟨root.token, spawns⟩) = .ok root.origin := by
  have htokens := split_tokens_instance_id ⟨root.token, spawns⟩
  unfold Origin.fromEngineId
  rw [htokens, List.headD_cons]
  show (match root.engineId.toList.dropPrefix? engineIdStart.toList with
    | none => _
    | some encoded => _) = _
  obtain ⟨origin, localId⟩ := root
  cases origin with
  | none =>
      show (match localId.text.toList.dropPrefix? engineIdStart.toList with
        | none => _
        | some encoded => _) = _
      rw [local_id_not_namespaced]
  | some origin =>
      have hdrop : (origin.engineId localId.text).toList.dropPrefix? engineIdStart.toList =
          some (List.intercalate ['-'] [(toString origin.databaseOid.toNat).toList,
            hexDigits 32 origin.installationId.toNat, localId.text.toList]) := by
        rw [engine_id_chars]
        exact List.dropPrefix?_append_of_beq _ (beq_self_eq_true _)
      have hfields := engine_id_fields origin localId (Or.inl rfl)
      show (match (origin.engineId localId.text).toList.dropPrefix? engineIdStart.toList with
        | none => _
        | some encoded => _) = _
      rw [hdrop]
      dsimp only
      rw [List.splitOn_intercalate _ hfields (by simp)]
      have hoid := parse_u32_to_string origin.databaseOid.toNat_lt
      simp only [localId.length, localId.hex, hoid]
      rw [show String.ofList (hexDigits 32 origin.installationId.toNat) =
        origin.installationId.simple from rfl, hparse]
      simp

/-- The engine id determines the root. -/
theorem engine_id_injective {first second : RootId} (h : first.engineId = second.engineId) :
    first = second := by
  have horigin := from_engine_id_instance_id hparse first []
  have htext : first.token = second.token := by
    simpa [RootId.token] using h
  rw [htext, from_engine_id_instance_id hparse second [], Except.ok.injEq] at horigin
  obtain ⟨origin, localId⟩ := first
  obtain ⟨other, otherId⟩ := second
  change other = origin at horigin
  subst horigin
  have hlocal : localId.text = otherId.text := by
    cases other with
    | none => exact h
    | some origin =>
        apply String.toList_inj.1
        have hchars := congrArg String.toList h
        change (origin.engineId localId.text).toList = (origin.engineId otherId.text).toList
          at hchars
        simpa [engine_id_chars, List.intercalate, List.intersperse] using hchars
  obtain ⟨text, _, _⟩ := localId
  obtain ⟨otherText, _, _⟩ := otherId
  change text = otherText at hlocal
  subst hlocal
  rfl

end Parser

/-! ## The code as a whole -/

/-- The instance id reached from a root by spawning one child after another. -/
def composedId (root : RootId) (spawns : List (Generation × LocalId)) : String :=
  spawns.foldl (fun id spawn => composeSubtreeInstanceId id spawn.1.text spawn.2.text)
    root.engineId

/-- The scope of a composed id. -/
def composedScope (root : RootId) (spawns : List (Generation × LocalId)) : Scope :=
  ⟨root.token, spawns.map fun spawn => (spawn.1, spawn.2.token)⟩

/-- Composing ids is composing scopes. -/
theorem composed_id_eq (root : RootId) (spawns : List (Generation × LocalId)) :
    composedId root spawns = (composedScope root spawns).instanceId := by
  rw [composedScope, Scope.instanceId, List.foldl_map]
  rfl

/-- Engine ids, composed ids and stamps lose nothing. -/
structure LosslessIdentities (parseStr : String → Option Uuid) : Prop where
  lineage : ∀ root spawns, InstanceLineage.parse (composedId root spawns) =
    some ⟨composedId root spawns, spawns.map (·.1.value), spawns.map (·.2.text)⟩
  stamp : ∀ root spawns (generation : Generation),
    parseExecutionStamp (executionStamp (composedId root spawns) generation.text) =
      some (⟨composedId root spawns, spawns.map (·.1.value), spawns.map (·.2.text)⟩,
        generation.value)
  parent : ∀ root spawns (spawn : Generation × LocalId),
    (InstanceLineage.parse (composedId root (spawns ++ [spawn]))).bind InstanceLineage.parent =
      some (composedId root spawns, spawn.1.value)
  noParent : ∀ root, (InstanceLineage.parse (composedId root [])).bind InstanceLineage.parent = none
  origin : ∀ root spawns, Origin.fromEngineId parseStr (composedId root spawns) = .ok root.origin
  idsDistinct : ∀ {root spawns root' spawns'}, composedId root spawns = composedId root' spawns' →
    root = root' ∧ spawns = spawns'
  stampsDistinct : ∀ {root spawns root' spawns'} {generation generation' : Generation},
    executionStamp (composedId root spawns) generation.text =
      executionStamp (composedId root' spawns') generation'.text →
    root = root' ∧ spawns = spawns' ∧ generation = generation'

/-- The stamp of a composed id is the stamp of its scope. -/
theorem parse_composed_stamp (root : RootId) (spawns : List (Generation × LocalId))
    (generation : Generation) :
    parseExecutionStamp (executionStamp (composedId root spawns) generation.text) =
      some (⟨composedId root spawns, spawns.map (·.1.value), spawns.map (·.2.text)⟩,
        generation.value) := by
  have hstamp := parse_stamp_text ⟨composedScope root spawns, generation⟩
  rw [Stamp.text, ← composed_id_eq] at hstamp
  rw [hstamp]
  simp [composedScope, LocalId.token, Function.comp_def]

/-- Composed ids determine the root and the spawns. -/
theorem composed_id_injective {parseStr : String → Option Uuid}
    (hparse : ∀ uuid, parseStr (Uuid.simple uuid) = some uuid) {root root' : RootId}
    {spawns spawns' : List (Generation × LocalId)}
    (h : composedId root spawns = composedId root' spawns') : root = root' ∧ spawns = spawns' := by
  rw [composed_id_eq, composed_id_eq] at h
  obtain ⟨htoken, hspawns⟩ := Scope.mk.inj (instance_id_injective h)
  refine ⟨engine_id_injective hparse (congrArg Token.text htoken), ?_⟩
  have hinjective : Function.Injective fun spawn : Generation × LocalId =>
      (spawn.1, spawn.2.token) := by
    rintro ⟨generation, text, hlength, hhex⟩ ⟨generation', text', hlength', hhex'⟩ heq
    obtain ⟨rfl, hnode⟩ := Prod.mk.inj heq
    cases congrArg Token.text hnode
    rfl
  exact List.map_injective_iff.2 hinjective hspawns

/-- Engine ids, composed ids and stamps are a lossless code, whatever inverts the simple form of
UUIDs. -/
theorem identities_lossless {parseStr : String → Option Uuid}
    (hparse : ∀ uuid, parseStr (Uuid.simple uuid) = some uuid) : LosslessIdentities parseStr where
  lineage root spawns := by
    have hlineage := parse_instance_id (composedScope root spawns)
    rw [← composed_id_eq] at hlineage
    rw [hlineage]
    simp [composedScope, LocalId.token, Function.comp_def]
  stamp := parse_composed_stamp
  parent root spawns spawn := by
    have hparent := parent_instance_id (composedScope root spawns) spawn.1 spawn.2.token
    rw [← composed_id_eq] at hparent
    rw [← hparent, composed_id_eq]
    simp [composedScope, Scope.child]
  noParent root := parent_root root.token
  origin root spawns := by
    rw [composed_id_eq]
    exact from_engine_id_instance_id hparse root _
  idsDistinct h := composed_id_injective hparse h
  stampsDistinct {root spawns root' spawns' generation generation'} h := by
    have hparsed := parse_composed_stamp root spawns generation
    rw [h, parse_composed_stamp root' spawns' generation', Option.some.injEq, Prod.mk.injEq]
      at hparsed
    obtain ⟨hlineage, hvalue⟩ := hparsed
    obtain ⟨hid, -, -⟩ := InstanceLineage.mk.inj hlineage
    obtain ⟨hroot, hspawns⟩ := composed_id_injective hparse hid
    obtain ⟨value, _, _⟩ := generation
    obtain ⟨value', _, _⟩ := generation'
    change value' = value at hvalue
    subst hvalue
    exact ⟨hroot.symm, hspawns.symm, rfl⟩

/-- The number that hexadecimal digits write. -/
def hexNumber (digits : List Char) : Option Nat :=
  digits.foldlM (fun n c => (Json.hexValue c).map (16 * n + ·)) 0

/-- Parse the simple form of a UUID. -/
def parseSimple (text : String) : Option Uuid :=
  if text.toList.length = 32 then (hexNumber text.toList).map (BitVec.ofNat 128) else none

/-- The digits of a number write it, up to the number of digits. -/
theorem hex_number_digits (count n : Nat) : hexNumber (hexDigits count n) = some (n % 16 ^ count) := by
  induction count generalizing n with
  | zero => simp [hexDigits, hexNumber, Nat.mod_one]
  | succ count ih =>
      have hdigit : ∀ digit < 16, Json.hexValue (Nat.digitChar digit) = some digit := by decide
      have hlast := hdigit (n % 16) (Nat.mod_lt _ (by decide))
      have hrest := ih (n / 16)
      have hsplit : n % 16 ^ (count + 1) = 16 * (n / 16 % 16 ^ count) + n % 16 := by
        rw [Nat.pow_succ', Nat.mod_mul]
        omega
      unfold hexNumber at hrest ⊢
      rw [hexDigits, List.foldlM_append, hrest]
      simp [hlast, hsplit]

/-- The parser inverts the simple form. -/
theorem parse_simple_simple (uuid : Uuid) : parseSimple uuid.simple = some uuid := by
  have hlength : ∀ count n, (hexDigits count n).length = count := by
    intro count
    induction count with
    | zero => intro n; rfl
    | succ count ih => intro n; simp [hexDigits, ih]
  have hbound : uuid.toNat % 16 ^ 32 = uuid.toNat := Nat.mod_eq_of_lt uuid.isLt
  rw [parseSimple, Uuid.simple, String.toList_ofList, if_pos (hlength 32 _), hex_number_digits,
    hbound]
  simp

/-- The theorem at the parser of simple forms, and an id that it decodes. -/
theorem simple_forms_lossless : LosslessIdentities parseSimple ∧
    Origin.fromEngineId parseSimple
      "pgdf-42-00000000000000000000000000000007-deadbeef::2::cafebabe::3::12345678" =
        .ok (some ⟨42, 7⟩) :=
  ⟨identities_lossless parse_simple_simple, by decide +kernel⟩

end PgDurable.Instances
