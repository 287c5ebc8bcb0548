import Mathlib.Data.Prod.Lex
import Mathlib.Data.String.Basic
import Mathlib.Order.WithBot
import PgDurable.Library.Keyset
import PgDurable.Monitoring.Cursor

/-!
# Listing instances page by page

`listInstancesPaged` is the paged overload of `df.list_instances`: a query in the order of the
creation times, a row more than the page to see whether rows remain, and a cursor for the last row
of the page. The engine's part of each row, the rendering of timestamps and the collation of ids are
parameters. `pages_list_instances_iff` says when following the cursors lists every instance once.
-/

namespace PgDurable.Monitoring

open Keyset

/-- The columns of `df.instances` that the list reads. -/
structure InstanceRow (τ : Type) where
  id : String
  label : Option String
  status : Option String
  createdAt : Option τ
  completedAt : Option τ
  deriving DecidableEq

/-- What the engine knows about an instance. -/
structure InstanceInfo where
  functionName : String
  executionCount : Int
  output : Option String
  deriving DecidableEq

/-- A row of the list, without its last column. -/
structure ListedInstance (τ : Type) where
  instanceId : String
  label : Option String
  functionName : String
  status : String
  executionCount : Int
  output : Option String
  createdAt : τ
  completedAt : Option τ
  deriving DecidableEq

/-- What the list takes from the database and the engine: `to_char` with the format of the cursor,
the cast of a text to a timestamp, the collation of ids, and the rows of `get_instance_info`. -/
structure Backend (τ κ : Type) where
  toChar : τ → Option String
  cast : String → Option τ
  collate : String → κ
  info : String → Option InstanceInfo

/-- Enforce the configurable upper bound on the page size. -/
def enforceListInstancesLimit (limitCount maxLimit : Int) : Except String Unit :=
  if limitCount < 1 then .error "limit_count must be at least 1"
  else if limitCount > maxLimit then
    .error ("df.list_instances: limit_count (" ++ toString limitCount ++
      ") exceeds pg_durable.list_instances_max_limit (" ++ toString maxLimit ++
      "); request fewer rows, or use the paginated df.list_instances overload " ++
      "(after_cursor/next_cursor) for large result sets")
  else .ok ()

/-- Decode the cursor of a request, if it has one. -/
def requestCursor : Option String → Except String (Option (String × String))
  | none => .ok none
  | some cursor =>
      match decodeCursor cursor with
      | some (timestamp, id) =>
          if cursorTimestampWellFormed timestamp then .ok (some (timestamp, id))
          else .error "df.list_instances: invalid after_cursor"
      | none => .error "df.list_instances: invalid after_cursor"

section Query

variable {τ κ : Type} [LinearOrder τ] [LinearOrder κ] (backend : Backend τ κ)

/-- The filters of a request; a comparison with NULL holds of no row. -/
def matchesFilters (statusFilter labelFilter : Option String) (row : InstanceRow τ) : Bool :=
  row.createdAt.isSome && statusFilter.all (fun status => row.status == some status) &&
    labelFilter.all fun label => row.label == some label

/-- The rows behind a cursor. -/
def behindCursor (timestamp : τ) (id : String) (row : InstanceRow τ) : Bool :=
  match row.createdAt with
  | none => false
  | some createdAt =>
      createdAt ≤ timestamp &&
        (createdAt < timestamp ||
          createdAt = timestamp && backend.collate id < backend.collate row.id)

/-- `ORDER BY created_at DESC`: NULLs come first. -/
def newestFirst : Option τ → WithBot τᵒᵈ
  | none => ⊥
  | some createdAt => (OrderDual.toDual createdAt : τᵒᵈ)

/-- `ORDER BY created_at DESC, id ASC`. -/
def listKey (row : InstanceRow τ) : WithBot τᵒᵈ ×ₗ κ :=
  toLex (newestFirst row.createdAt, backend.collate row.id)

/-- The listing query. A timestamp that cannot be cast fails the query, which gives no rows. -/
def selectInstances (table : List (InstanceRow τ)) (statusFilter labelFilter : Option String)
    (cursor : Option (String × String)) (limit : Nat) : List (InstanceRow τ) :=
  let selected := table.filter (matchesFilters statusFilter labelFilter)
  match cursor with
  | none => (orderBy (listKey backend) selected).take limit
  | some (timestamp, id) =>
      match backend.cast timestamp with
      | none => []
      | some timestamp =>
          (orderBy (listKey backend) (selected.filter (behindCursor backend timestamp id))).take limit

/-- The text of the creation time in the cursor of a row. -/
def cursorText (createdAt : Option τ) : String := (createdAt.bind backend.toChar).getD ""

/-- A row of the list; instances that the engine does not know are skipped. -/
def listed (row : InstanceRow τ) : Option (ListedInstance τ) := do
  let createdAt ← row.createdAt
  let info ← backend.info row.id
  pure ⟨row.id, row.label, info.functionName, row.status.getD "", info.executionCount, info.output,
    createdAt, row.completedAt⟩

/-- The list, newest first, with the cursor of the next page on every row. -/
def listInstancesPaged (table : List (InstanceRow τ)) (maxLimit : Int)
    (statusFilter : Option String) (limitCount : Int) (labelFilter afterCursor : Option String) :
    Except String (List (ListedInstance τ × Option String)) := do
  enforceListInstancesLimit limitCount maxLimit
  let cursor ← requestCursor afterCursor
  let fetched :=
    selectInstances backend table statusFilter labelFilter cursor (limitCount + 1).toNat
  let hasMore := fetched.length > limitCount.toNat
  let userInstances := fetched.take limitCount.toNat
  let nextCursor :=
    if hasMore then
      userInstances.getLast?.map fun row => encodeCursor (cursorText backend row.createdAt) row.id
    else none
  pure (userInstances.filterMap fun row => (listed backend row).map (·, nextCursor))

/-- A client's request for a page: the rows and the cursor that they carry. -/
def requestPage (table : List (InstanceRow τ)) (maxLimit : Int) (statusFilter : Option String)
    (limitCount : Int) (labelFilter : Option String) (afterCursor : Option String) :
    Except String (List (ListedInstance τ) × Option String) :=
  (listInstancesPaged backend table maxLimit statusFilter limitCount labelFilter afterCursor).map
    fun rows => (rows.map (·.1), rows.head?.bind (·.2))

end Query

/-! ## The query and its order -/

section Order

variable {τ κ : Type} [LinearOrder τ] [LinearOrder κ] {backend : Backend τ κ}

/-- The keyset predicate holds of the rows with a greater key. -/
theorem behind_cursor_iff {row : InstanceRow τ} {timestamp : τ}
    (hcreated : row.createdAt = some timestamp) (other : InstanceRow τ) :
    behindCursor backend timestamp row.id other = true ↔
      listKey backend row < listKey backend other := by
  rw [behindCursor, listKey, listKey, Prod.Lex.toLex_lt_toLex, hcreated]
  cases other.createdAt with
  | none => simp [newestFirst]
  | some createdAt =>
      simp only [newestFirst, Bool.and_eq_true, Bool.or_eq_true, decide_eq_true_eq,
        WithBot.coe_lt_coe, OrderDual.toDual_lt_toDual, WithBot.coe_inj, OrderDual.toDual_inj]
      constructor
      · rintro ⟨-, hlt | ⟨hsame, hid⟩⟩
        · exact Or.inl hlt
        · exact Or.inr ⟨hsame.symm, hid⟩
      · rintro (hlt | ⟨hsame, hid⟩)
        · exact ⟨hlt.le, Or.inl hlt⟩
        · exact ⟨hsame.ge, Or.inr ⟨hsame.symm, hid⟩⟩

omit [LinearOrder τ] [LinearOrder κ] in
/-- Different rows have different keys. -/
theorem list_keys_nodup (hcollate : Function.Injective backend.collate)
    {rows : List (InstanceRow τ)} (hids : (rows.map (·.id)).Nodup) :
    (rows.map (listKey backend)).Nodup := by
  refine List.Nodup.of_map (fun key => (ofLex key).2) ?_
  rw [List.map_map]
  have h := hids.map hcollate
  rwa [List.map_map] at h

/-- Behind a row of the ordered selection, the query finds the rows that follow it. -/
theorem order_behind_row (hcollate : Function.Injective backend.collate)
    {rows front rest : List (InstanceRow τ)} {row : InstanceRow τ} {timestamp : τ}
    (hids : (rows.map (·.id)).Nodup) (hcreated : row.createdAt = some timestamp)
    (hsplit : orderBy (listKey backend) rows = front ++ row :: rest) :
    orderBy (listKey backend) (rows.filter (behindCursor backend timestamp row.id)) = rest := by
  have hkeys := list_keys_nodup hcollate hids
  have hlt := order_by_lt hkeys
  rw [hsplit] at hlt
  rw [order_by_filter hkeys, hsplit]
  exact filter_behind _ (behind_cursor_iff hcreated) hlt

omit [LinearOrder τ] [LinearOrder κ] in
/-- What a listed row has of its row. -/
theorem listed_eq_some {row : InstanceRow τ} {instance' : ListedInstance τ}
    (h : listed backend row = some instance') :
    row.id = instance'.instanceId ∧ row.createdAt = some instance'.createdAt := by
  rw [listed] at h
  simp only [Option.bind_eq_bind, Option.bind_eq_some_iff] at h
  obtain ⟨createdAt, hcreated, info, -, hsome⟩ := h
  cases hsome
  exact ⟨rfl, hcreated⟩

end Order

/-! ## Pages -/

section Request

variable {τ κ : Type} [LinearOrder τ] [LinearOrder κ] {backend : Backend τ κ}
  {table : List (InstanceRow τ)} {maxLimit limitCount : Int}
  {statusFilter labelFilter : Option String}

/-- The cursor of a listed row. -/
def cursorOf (backend : Backend τ κ) (row : ListedInstance τ) : String :=
  encodeCursor (cursorText backend (some row.createdAt)) row.instanceId

omit [LinearOrder τ] [LinearOrder κ] in
/-- The last listed row has the last row's cursor. -/
theorem last_cursor {rows : List (InstanceRow τ)} {shown : List (ListedInstance τ)}
    (hlisted : rows.map (listed backend) = shown.map some) :
    (rows.getLast?.map fun row => encodeCursor (cursorText backend row.createdAt) row.id) =
      shown.getLast?.map (cursorOf backend) := by
  have hlast := congrArg List.getLast? hlisted
  rw [List.getLast?_map, List.getLast?_map] at hlast
  cases hrow : rows.getLast? with
  | none =>
      rw [hrow] at hlast
      cases hshown : shown.getLast? with
      | none => rfl
      | some row => rw [hshown] at hlast; cases hlast
  | some row =>
      rw [hrow] at hlast
      cases hshown : shown.getLast? with
      | none => rw [hshown] at hlast; cases hlast
      | some other =>
          rw [hshown] at hlast
          obtain ⟨hid, hcreated⟩ := listed_eq_some (Option.some.inj hlast)
          rw [Option.map_some, Option.map_some, cursorOf, hid, hcreated]

/-- A request whose query finds `remaining` answers their first page. -/
theorem request_page {afterCursor : Option String} {cursor : Option (String × String)}
    {remaining : List (InstanceRow τ)} {rest : List (ListedInstance τ)} (hmin : 1 ≤ limitCount)
    (hmax : limitCount ≤ maxLimit) (hcursor : requestCursor afterCursor = .ok cursor)
    (hselect : ∀ limit, selectInstances backend table statusFilter labelFilter cursor limit =
      remaining.take limit)
    (hlisted : remaining.map (listed backend) = rest.map some) :
    requestPage backend table maxLimit statusFilter limitCount labelFilter afterCursor =
      .ok (page limitCount.toNat (cursorOf backend) rest) := by
  have hlimit : enforceListInstancesLimit limitCount maxLimit = .ok () := by
    rw [enforceListInstancesLimit, if_neg (by omega), if_neg (by omega)]
  have hsize : (limitCount + 1).toNat = limitCount.toNat + 1 := by omega
  have hlength : remaining.length = rest.length := by
    simpa using congrArg List.length hlisted
  have htake : (remaining.take limitCount.toNat).map (listed backend) =
      (rest.take limitCount.toNat).map some := by
    rw [List.map_take, hlisted, List.map_take]
  -- one more row is fetched exactly when more rows remain
  have hmore : (remaining.take (limitCount.toNat + 1)).length > limitCount.toNat ↔
      rest.length > limitCount.toNat := by
    rw [List.length_take, hlength]
    omega
  have hpage : (remaining.take (limitCount.toNat + 1)).take limitCount.toNat =
      remaining.take limitCount.toNat := by
    rw [List.take_take, Nat.min_eq_left (Nat.le_succ _)]
  unfold requestPage listInstancesPaged page
  rw [hlimit, hcursor]
  simp only [bind, Except.bind, pure, Except.pure, Except.map, hsize, hselect, hpage, hmore,
    last_cursor htake]
  generalize hnext : (if rest.length > limitCount.toNat then
    (rest.take limitCount.toNat).getLast?.map (cursorOf backend) else none) = next
  have hrows : (remaining.take limitCount.toNat).filterMap
      (fun row => (listed backend row).map (·, next)) =
      (rest.take limitCount.toNat).map (·, next) := by
    have hmap := congrArg (List.filterMap (Option.map (·, next))) htake
    rw [List.filterMap_map, List.filterMap_map] at hmap
    exact hmap.trans (congrFun List.filterMap_eq_map _)
  rw [hrows, List.map_map]
  have hfirst : ((rest.take limitCount.toNat).map (·, next)).head?.bind (·.2) = next := by
    cases hempty : rest.take limitCount.toNat with
    | nil =>
        have hshort : ¬ rest.length > limitCount.toNat := by
          have hzero := congrArg List.length hempty
          rw [List.length_take, List.length_nil] at hzero
          omega
        rw [← hnext, if_neg hshort]
        rfl
    | cons first shown => rfl
  rw [hfirst]
  simp [Function.comp_def]

end Request

/-! ## Following the cursors -/

/-- The table has its primary key, a `VARCHAR(8)`. -/
structure ValidTable {τ : Type} (table : List (InstanceRow τ)) : Prop where
  ids : (table.map (·.id)).Nodup
  length : ∀ row ∈ table, row.id.length ≤ 8

/-- Ids are collated by a linear order, the creation times of the table come back from their
texts, and the engine knows its instances. -/
structure Backend.Serves {τ κ : Type} (backend : Backend τ κ) (table : List (InstanceRow τ)) :
    Prop where
  collates : Function.Injective backend.collate
  round_trip : ∀ row ∈ table, ∀ createdAt, row.createdAt = some createdAt → ∃ text,
    backend.toChar createdAt = some text ∧ backend.cast text = some createdAt ∧ '|' ∉ text.toList
  knows : ∀ row ∈ table, backend.info row.id ≠ none

/-- The cursor of a row passes the checks of the next request. -/
def CursorAccepted {τ κ : Type} (backend : Backend τ κ) (createdAt : Option τ) (id : String) :
    Prop :=
  cursorTimestampWellFormed (cursorText backend createdAt) = true ∧ id ≠ ""

section Follow

variable {τ κ : Type} [LinearOrder τ] [LinearOrder κ] {backend : Backend τ κ}
  {table : List (InstanceRow τ)} {maxLimit limitCount : Int}
  {statusFilter labelFilter : Option String}

omit [LinearOrder τ] [LinearOrder κ] in
/-- A cursor is read back exactly when it is accepted. -/
theorem request_cursor_of_row {createdAt : Option τ} {id : String} (hid : id.length ≤ 8)
    (hpipe : '|' ∉ (cursorText backend createdAt).toList) :
    (CursorAccepted backend createdAt id →
      requestCursor (some (encodeCursor (cursorText backend createdAt) id)) =
        .ok (some (cursorText backend createdAt, id))) ∧
    (¬ CursorAccepted backend createdAt id → ∀ cursor,
      requestCursor (some (encodeCursor (cursorText backend createdAt) id)) ≠ .ok cursor) := by
  rw [requestCursor, decode_cursor_encode hpipe]
  constructor
  · rintro ⟨hshape, hne⟩
    obtain ⟨hsize, -, htext⟩ := timestamp_fits hshape
    have hbytes := Text.byte_length_le id.toList
    rw [Text.byte_length_to_list, String.length_toList] at hbytes
    have hfits : (encodeCursor (cursorText backend createdAt) id).utf8ByteSize ≤ maxCursorLen := by
      rw [encode_cursor_size, maxCursorLen]
      omega
    rw [if_pos ⟨hfits, htext, hne⟩]
    simp only [hshape, if_true]
  · intro hrefused cursor
    split_ifs with hdecoded
    · have hshape : ¬ cursorTimestampWellFormed (cursorText backend createdAt) = true :=
        fun hshape => hrefused ⟨hshape, hdecoded.2.2⟩
      simp only [hshape]
      exact fun h => by cases h
    · exact fun h => by cases h

/-- Requests read the listed rows in pages. -/
theorem requests_read (hvalid : ValidTable table) (hserves : backend.Serves table)
    (hmin : 1 ≤ limitCount) (hmax : limitCount ≤ maxLimit) {shown : List (ListedInstance τ)}
    (hshown : (orderBy (listKey backend) (table.filter (matchesFilters statusFilter labelFilter))).map
      (listed backend) = shown.map some) :
    Reads (requestPage backend table maxLimit statusFilter limitCount labelFilter) shown
      limitCount.toNat (cursorOf backend)
      fun row => CursorAccepted backend (some row.createdAt) row.instanceId := by
  have hids : ((table.filter (matchesFilters statusFilter labelFilter)).map (·.id)).Nodup :=
    hvalid.ids.sublist (List.filter_sublist.map _)
  have hmem : ∀ row ∈ orderBy (listKey backend)
      (table.filter (matchesFilters statusFilter labelFilter)), row ∈ table := by
    intro row hrow
    exact (List.mem_filter.1 ((order_by_perm _ _).mem_iff.1 hrow)).1
  have htext : ∀ row ∈ table, ∀ createdAt, row.createdAt = some createdAt →
      backend.cast (cursorText backend (some createdAt)) = some createdAt ∧
        '|' ∉ (cursorText backend (some createdAt)).toList := by
    intro row hrow createdAt hcreated
    obtain ⟨text, htext, hcast, hpipe⟩ := hserves.round_trip row hrow createdAt hcreated
    rw [cursorText, Option.bind_some, htext]
    exact ⟨hcast, hpipe⟩
  refine ⟨?_, ?_, ?_⟩
  · exact request_page hmin hmax rfl (fun limit => rfl) hshown
  · intro front other rest hsplit haccepted
    rw [hsplit, List.map_append, List.map_cons] at hshown
    obtain ⟨front', tail, horder, -, htail⟩ := List.map_eq_append_iff.1 hshown
    obtain ⟨row, rest', rfl, hrow, hrest⟩ := List.map_eq_cons_iff.1 htail
    obtain ⟨hid, hcreated⟩ := listed_eq_some hrow
    have hrowmem : row ∈ table := hmem row (by rw [horder]; exact List.mem_append_right _ (.head _))
    obtain ⟨hcast, hpipe⟩ := htext row hrowmem _ hcreated
    have hlength := hvalid.length row hrowmem
    rw [hid] at hlength
    refine request_page hmin hmax ((request_cursor_of_row hlength hpipe).1 haccepted)
      (fun limit => ?_) hrest
    unfold selectInstances
    dsimp only
    rw [hcast]
    dsimp only
    rw [← hid, order_behind_row hserves.collates hids hcreated horder]
  · intro other hother hrefused answer hanswer
    obtain ⟨row, hrowmem, hrow⟩ : ∃ row ∈ table, listed backend row = some other := by
      have hsome : some other ∈ shown.map some := List.mem_map_of_mem hother
      rw [← hshown] at hsome
      obtain ⟨row, hrow, hlisted⟩ := List.mem_map.1 hsome
      exact ⟨row, hmem row hrow, hlisted⟩
    obtain ⟨hid, hcreated⟩ := listed_eq_some hrow
    have hlength := hvalid.length row hrowmem
    rw [hid] at hlength
    have hcursor := (request_cursor_of_row hlength (htext row hrowmem _ hcreated).2).2 hrefused
    have hlimit : enforceListInstancesLimit limitCount maxLimit = .ok () := by
      rw [enforceListInstancesLimit, if_neg (by omega), if_neg (by omega)]
    unfold requestPage listInstancesPaged at hanswer
    rw [hlimit] at hanswer
    unfold cursorOf at hanswer
    cases hrequest : requestCursor (some (encodeCursor (cursorText backend (some other.createdAt))
        other.instanceId)) with
    | ok cursor => exact hcursor cursor hrequest
    | error error =>
        rw [hrequest] at hanswer
        cases hanswer

/-- No row is skipped. -/
theorem exists_shown (hserves : backend.Serves table) :
    ∃ shown : List (ListedInstance τ), (orderBy (listKey backend)
      (table.filter (matchesFilters statusFilter labelFilter))).map (listed backend) =
        shown.map some := by
  have hsome : ∀ row ∈ orderBy (listKey backend)
      (table.filter (matchesFilters statusFilter labelFilter)),
      ∃ instance', listed backend row = some instance' := by
    intro row hrow
    obtain ⟨hmem, hmatches⟩ := List.mem_filter.1 ((order_by_perm _ _).mem_iff.1 hrow)
    rw [matchesFilters, Bool.and_eq_true, Bool.and_eq_true] at hmatches
    obtain ⟨createdAt, hcreated⟩ := Option.isSome_iff_exists.1 hmatches.1.1
    obtain ⟨info, hinfo⟩ := Option.ne_none_iff_exists'.1 (hserves.knows row hmem)
    rw [listed, hcreated, hinfo]
    exact ⟨_, rfl⟩
  generalize orderBy (listKey backend)
    (table.filter (matchesFilters statusFilter labelFilter)) = rows at hsome
  induction rows with
  | nil => exact ⟨[], rfl⟩
  | cons row rows ih =>
      obtain ⟨hrow, hrows⟩ := List.forall_mem_cons.1 hsome
      obtain ⟨instance', hinstance⟩ := hrow
      obtain ⟨shown, hshown⟩ := ih hrows
      exact ⟨instance' :: shown, by rw [List.map_cons, List.map_cons, hinstance, hshown]⟩

/-- Following the cursors lists the matching instances in order, each once, exactly when the cursor
of every row that ends a page before the last one is accepted: its creation time has the shape that
is checked, and its id is not empty. Cursors are read back as they were written. -/
theorem pages_list_instances_iff (hvalid : ValidTable table) (hserves : backend.Serves table)
    (hmin : 1 ≤ limitCount) (hmax : limitCount ≤ maxLimit) :
    ((∃ pages, Follows
        (requestPage backend table maxLimit statusFilter limitCount labelFilter) none pages ∧
        pages.flatten.map some = (orderBy (listKey backend)
          (table.filter (matchesFilters statusFilter labelFilter))).map (listed backend)) ↔
      ∀ count row, (orderBy (listKey backend)
          (table.filter (matchesFilters statusFilter labelFilter)))[(count + 1) *
            limitCount.toNat - 1]? = some row →
        (count + 1) * limitCount.toNat < (orderBy (listKey backend)
          (table.filter (matchesFilters statusFilter labelFilter))).length →
        CursorAccepted backend row.createdAt row.id) ∧
    ∀ createdAtText id : String, '|' ∉ createdAtText.toList → createdAtText ≠ "" → id ≠ "" →
      (encodeCursor createdAtText id).utf8ByteSize ≤ maxCursorLen →
      decodeCursor (encodeCursor createdAtText id) = some (createdAtText, id) := by
  constructor
  · obtain ⟨shown, hshown⟩ := @exists_shown _ _ _ _ _ _ statusFilter labelFilter hserves
    have hreads := requests_read hvalid hserves hmin hmax hshown
    have hsize : 0 < limitCount.toNat := by omega
    generalize orderBy (listKey backend)
      (table.filter (matchesFilters statusFilter labelFilter)) = rows at hshown ⊢
    have hlength : rows.length = shown.length := by simpa using congrArg List.length hshown
    have hrow : ∀ index : Nat, rows[index]?.map (listed backend) = shown[index]?.map some := by
      intro index
      rw [← List.getElem?_map, hshown, List.getElem?_map]
    have hiff := follows_iff hsize hreads
    rw [hshown, hlength]
    have hpages : ∀ pages : List (List (ListedInstance τ)),
        pages.flatten.map some = shown.map some ↔ pages.flatten = shown := by
      intro pages
      exact (List.map_injective_iff.2 (Option.some_injective _)).eq_iff
    simp only [hpages]
    rw [hiff]
    refine forall_congr' fun count => ?_
    have hcount := hrow ((count + 1) * limitCount.toNat - 1)
    cases hfirst : rows[(count + 1) * limitCount.toNat - 1]? with
    | none =>
        rw [hfirst] at hcount
        cases hsecond : shown[(count + 1) * limitCount.toNat - 1]? with
        | none => simp
        | some other => rw [hsecond] at hcount; cases hcount
    | some row =>
        rw [hfirst] at hcount
        cases hsecond : shown[(count + 1) * limitCount.toNat - 1]? with
        | none => rw [hsecond] at hcount; cases hcount
        | some other =>
            rw [hsecond] at hcount
            obtain ⟨hid, hcreated⟩ := listed_eq_some (Option.some.inj hcount)
            simp only [Option.some.injEq, forall_eq', hid, hcreated]
  · intro createdAtText id hpipe htext hid hfits
    rw [decode_cursor_encode hpipe, if_pos ⟨hfits, htext, hid⟩]

end Follow

/-- Two instances of one creation time. -/
def twins (createdAt : Int) : List (InstanceRow Int) :=
  [⟨"aaaaaaaa", none, some "completed", some createdAt, none⟩,
    ⟨"bbbbbbbb", none, some "completed", some createdAt, none⟩]

/-- A backend in which one creation time is written as `text`. -/
def backendAt (createdAt : Int) (text : String) : Backend Int String where
  toChar _ := some text
  cast other := if other = text then some createdAt else none
  collate id := id
  info _ := some ⟨"pg_durable::orchestration::execute-function-graph", 1, none⟩

theorem mem_twins {createdAt : Int} {row : InstanceRow Int} (h : row ∈ twins createdAt) :
    row.createdAt = some createdAt ∧ row.id ∈ ["aaaaaaaa", "bbbbbbbb"] := by
  rcases List.mem_cons.1 h with rfl | h
  · exact ⟨rfl, .head _⟩
  · rw [List.mem_singleton.1 h]
    exact ⟨rfl, .tail _ (.head _)⟩

theorem twins_valid (createdAt : Int) : ValidTable (twins createdAt) := by
  have hshort : ∀ id ∈ ["aaaaaaaa", "bbbbbbbb"], id.length ≤ 8 := by decide
  have hids : ["aaaaaaaa", "bbbbbbbb"].Nodup := by decide
  exact ⟨hids, fun row hrow => hshort row.id (mem_twins hrow).2⟩

theorem backend_at_serves (createdAt : Int) {text : String} (h : '|' ∉ text.toList) :
    (backendAt createdAt text).Serves (twins createdAt) := by
  refine ⟨Function.injective_id, fun row hrow other hother => ⟨text, rfl, ?_, h⟩,
    fun _ _ hnone => by cases hnone⟩
  rw [(mem_twins hrow).1] at hother
  cases hother
  exact if_pos rfl

/-- Two instances of one creation time are listed on a page each. -/
theorem twins_listed :
    ∃ pages, Follows (requestPage (backendAt 757479600000000 "2024-01-02T03:00:00.000000+00")
        (twins 757479600000000) 1000 none 1 none) none pages ∧
      pages.flatten.map some = (orderBy
        (listKey (backendAt 757479600000000 "2024-01-02T03:00:00.000000+00"))
        ((twins 757479600000000).filter (matchesFilters none none))).map
          (listed (backendAt 757479600000000 "2024-01-02T03:00:00.000000+00")) := by
  have hpipe : '|' ∉ ("2024-01-02T03:00:00.000000+00" : String).toList := by decide
  have hmin : (1 : Int) ≤ 1 := by decide
  have hmax : (1 : Int) ≤ 1000 := by decide
  refine (pages_list_instances_iff (twins_valid _) (backend_at_serves _ hpipe) hmin hmax).1.2
    fun count row hrow _ => ?_
  have hmem := (order_by_perm _ _).mem_iff.1 (List.mem_of_getElem? hrow)
  obtain ⟨hcreated, hid⟩ := mem_twins (List.mem_filter.1 hmem).1
  have hshape : cursorTimestampWellFormed "2024-01-02T03:00:00.000000+00" = true := by decide
  have hne : ∀ id ∈ ["aaaaaaaa", "bbbbbbbb"], id ≠ "" := by decide
  exact ⟨by rw [hcreated]; exact hshape, hne _ hid⟩

/-- The cursor of an instance of the year 10000 is refused, so the second page is never listed. -/
theorem far_future_stops_listing :
    ValidTable (twins 252455616000000000) ∧
      (backendAt 252455616000000000 "10000-01-01T00:00:00.000000+00").Serves
        (twins 252455616000000000) ∧
      ¬ ∃ pages, Follows (requestPage
        (backendAt 252455616000000000 "10000-01-01T00:00:00.000000+00")
          (twins 252455616000000000) 1000 none 1 none) none pages := by
  have hvalid := twins_valid 252455616000000000
  have hserves := @backend_at_serves 252455616000000000 "10000-01-01T00:00:00.000000+00" (by decide)
  refine ⟨hvalid, hserves, ?_⟩
  rintro ⟨pages, hfollows⟩
  obtain ⟨shown, hshown⟩ := @exists_shown _ _ _ _ _ _ none none hserves
  have hmin : (1 : Int) ≤ 1 := by decide
  have hmax : (1 : Int) ≤ 1000 := by decide
  have hreads := requests_read hvalid hserves hmin hmax hshown
  have hmore : 1 < shown.length := by
    have hlength := congrArg List.length hshown
    rw [List.length_map, List.length_map, (order_by_perm _ _).length_eq] at hlength
    rw [← hlength]
    decide
  obtain ⟨front, row, rest, hsplit, -, -, hpage⟩ :=
    page_more (cursorOf (backendAt 252455616000000000 "10000-01-01T00:00:00.000000+00"))
      Nat.one_pos hmore
  have hrow : row ∈ shown := by
    rw [hsplit]
    exact List.mem_append_right _ (.head _)
  have hshape : cursorTimestampWellFormed "10000-01-01T00:00:00.000000+00" = false := by decide
  have hrefused := hreads.refused row hrow fun haccepted => by
    have h : cursorTimestampWellFormed "10000-01-01T00:00:00.000000+00" = true := haccepted.1
    rw [hshape] at h
    cases h
  have hfirst := hreads.first
  rw [show (1 : Int).toNat = 1 from rfl, hpage] at hfirst
  cases hfollows with
  | last hlast =>
      rw [hfirst] at hlast
      cases hlast
  | more hnext hrest =>
      rw [hfirst] at hnext
      cases hnext
      cases hrest with
      | last hlast => exact hrefused _ hlast
      | more hmore => exact hrefused _ hmore

end PgDurable.Monitoring
