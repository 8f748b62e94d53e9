import PathAcl.Proofs.Database.Rows

/-! # Columns of arguments
A list of arguments is bound as one array for each column, and a database makes rows of these arrays
side by side. Read as the rows are that a database returns, they are the arguments again, in order and
with their instants in whole microseconds. -/

namespace PathAcl

namespace Instant

/-- An instant in **whole microseconds**, outside a leap second. -/
def WholeMicros (t : Instant) : Prop := 1000 ∣ t.nanos ∧ t.nanos < 1000000000

/-- A database keeps such an instant as it is. -/
theorem toMicros_of_wholeMicros {t : Instant} (h : t.WholeMicros) : t.toMicros = t := by
  obtain ⟨seconds, nanos, inCalendar, nanos_lt⟩ := t
  obtain ⟨⟨micros, rfl⟩, lt⟩ := h
  have small : micros < 1000000 := Nat.lt_of_mul_lt_mul_left (a := 1000) lt
  -- The microseconds since the epoch of the database are whole, so rounding towards zero is exact.
  have whole : ((seconds - millennium) * 1000000000 + (1000 * micros : Nat)).tdiv 1000 =
      (seconds - millennium) * 1000000 + micros := by
    rw [show (seconds - millennium) * 1000000000 + (1000 * micros : Nat) =
      ((seconds - millennium) * 1000000 + micros) * 1000 by omega]
    exact Int.mul_tdiv_cancel _ (by decide)
  have second : millennium + ((seconds - millennium) * 1000000 + micros) / 1000000 = seconds := by
    omega
  have part : (((seconds - millennium) * 1000000 + micros) % 1000000 * 1000).toNat =
      1000 * micros := by
    omega
  simp only [toMicros, whole, second, part]
  rw [ofParts?, dif_pos ⟨inCalendar, nanos_lt⟩]
  rfl

end Instant

/-- The row as a database keeps it. -/
def Permission.toMicros (p : Permission) : Permission := { p with created := p.created.toMicros }

/-- The prolongation as a database keeps it. -/
def Prolongation.toMicros (p : Prolongation) : Prolongation :=
  { p with prolongedUntil := p.prolongedUntil.toMicros, updated := p.updated.toMicros }

namespace Database

/-! ## Rows made of columns -/

/-- The values of an array that is bound; a single value counts as an array of one. -/
def Param.cells : Param → List Cell
  | .bigint n => [.int8 n]
  | .text s => [.text s]
  | .texts ss => ss.map .text
  | .bigints ns => ns.map .int8
  | .ints ns => ns.map .int4
  | .instants ts => ts.map .instant

/-- How many rows columns make: as many as the longest of them has values. -/
def height (columns : List Param) : Nat := (columns.map fun p => p.cells.length).foldr max 0

/-- The **rows that columns make** side by side; a column that is too short goes on with NULL. -/
def unnest (names : List String) (columns : List Param) : List Row :=
  (List.range (height columns)).map fun i =>
    names.zip (columns.map fun p => p.cells.getD i .null)

/-- The rows that the columns of a statement about a storage make, each with the id of the storage. -/
def Statement.rows (names : List String) (s : Statement) : List Row :=
  match s.params with
  | .bigint id :: columns => (unnest names columns).map (("storage_id", .int8 id) :: ·)
  | _ => []

/-- The SQL type of a bound value. -/
def Param.sqlType : Param → String
  | .bigint _ => "bigint"
  | .text _ => "text"
  | .texts _ => "text[]"
  | .bigints _ => "bigint[]"
  | .ints _ => "int[]"
  | .instants _ => "timestamptz[]"

/-- The places of bound values in a text, the first of them with the given number. -/
def placeholders : Nat → List Param → List String
  | _, [] => []
  | i, p :: ps => ("$" ++ toString i ++ "::" ++ p.sqlType) :: placeholders (i + 1) ps

/-- The words that make rows of the values at the given places, with their columns named. -/
def unnestWords (places : List String) (letter : String) (names : List String) : String :=
  "UNNEST(" ++ String.intercalate ", " places ++ ") AS " ++ letter ++
    "(" ++ String.intercalate ", " names ++ ")"

/-- The text of a statement makes rows of all the values that are bound to it after the first, and
gives their columns the names in order. -/
def Statement.Names (s : Statement) (names : List String) : Prop :=
  ∃ before letter after,
    s.sql = before ++ unnestWords (placeholders 2 s.params.tail) letter names ++ after

/-- The words may be looked for in the text of a statement about a storage. -/
theorem names_about {sql : String} (id : StorageId) {columns : List Param}
    {places names : List String} (placed : placeholders 2 columns = places)
    (before letter after : String)
    (text : sql = before ++ unnestWords places letter names ++ after) :
    (about sql id columns).Names names := by
  refine ⟨before, letter, after, ?_⟩
  rw [about, List.tail_cons, placed]
  exact text

section Tabulated

variable {α : Type} {xs : List α} {fs : List (α → Cell)} {columns : List Param}

/-- Columns are **tabulated** from a list if each has the values of one function at its elements. -/
def Tabulated (xs : List α) (fs : List (α → Cell)) (columns : List Param) : Prop :=
  columns.map Param.cells = fs.map fun f => xs.map f

/-- All columns are as long as the list. -/
theorem Tabulated.length_cells (h : Tabulated xs fs columns) :
    ∀ p ∈ columns, p.cells.length = xs.length := by
  intro p hp
  have made : p.cells ∈ fs.map fun f => xs.map f := h ▸ List.mem_map_of_mem hp
  obtain ⟨f, -, same⟩ := List.mem_map.1 made
  rw [← same, List.length_map]

/-- There is a column for every function. -/
theorem Tabulated.length_columns (h : Tabulated xs fs columns) : columns.length = fs.length := by
  simpa only [List.length_map] using congrArg List.length h

/-- They make as many rows as the list has elements. -/
theorem Tabulated.height_eq (h : Tabulated xs fs columns) (some : fs ≠ []) :
    height columns = xs.length := by
  have all := h.length_cells
  have nonempty : columns ≠ [] := by
    rintro rfl
    exact some (List.length_eq_zero_iff.1 h.length_columns.symm)
  clear h
  rw [height]
  induction columns with
  | nil => exact absurd rfl nonempty
  | cons p columns ih =>
      obtain ⟨here, rest⟩ := List.forall_mem_cons.1 all
      rw [List.map_cons, List.foldr_cons, here]
      -- The greatest of no lengths is zero, so a last column is told from the others.
      cases columns with
      | nil => exact Nat.max_zero _
      | cons q columns => rw [ih rest (List.cons_ne_nil q columns), Nat.max_self]

/-- **Columns tabulated from a list** make one row for each of its elements, in order. -/
theorem Tabulated.unnest_eq (h : Tabulated xs fs columns) (some : fs ≠ []) (names : List String) :
    unnest names columns = xs.map fun x => names.zip (fs.map (· x)) := by
  -- All columns are as long as the list, so the row of an index has a value in each of them.
  refine List.ext_getElem ?_ fun i below below' => ?_
  · rw [unnest, List.length_map, List.length_range, List.length_map, h.height_eq some]
  · have inside : i < xs.length := by rwa [List.length_map] at below'
    have cells : (columns.map fun p => p.cells.getD i .null) =
        (columns.map Param.cells).map (·.getD i .null) := by rw [List.map_map]; rfl
    simp only [unnest, List.getElem_map, List.getElem_range]
    rw [cells, h, List.map_map]
    congr 2
    funext f
    simp only [Function.comp_apply, List.getD_eq_getElem?_getD, List.getElem?_map,
      List.getElem?_eq_getElem inside, Option.map_some, Option.getD_some]

/-- Columns of other lengths make rows too, with nothing where one has ended. -/
example : unnest ["path", "days"] [.texts ["a", "b"], .ints [7]] =
    [[("path", .text "a"), ("days", .int4 7)], [("path", .text "b"), ("days", .null)]] := by decide

end Tabulated

/-! ## Arguments read back -/

/-- A statement about a storage **carries** a list: for each of the names it binds a column with one
value for each element, and the rows that these columns make are read as the elements, in order. -/
structure Statement.Carries {α : Type} (s : Statement) (id : StorageId) (names : List String)
    (read : Row → Except StoreError α) (xs : List α) : Prop where
  aligned : ∃ columns, s.params = .bigint id :: columns ∧ columns.length = names.length ∧
    ∀ p ∈ columns, p.cells.length = xs.length
  reads : readAll read (s.rows names) = .ok xs

/-- If every row is read, all are. -/
theorem readAll_map_eq_ok {α β : Type} {read : Row → Except StoreError β} {row : α → Row}
    {value : α → β} {xs : List α} (h : ∀ x ∈ xs, read (row x) = .ok (value x)) :
    readAll read (xs.map row) = .ok (xs.map value) := by
  rw [readAll]
  induction xs with
  | nil => rfl
  | cons x xs ih =>
      obtain ⟨first, rest⟩ := List.forall_mem_cons.1 h
      rw [List.map_cons, List.mapM_cons, first, ih rest]
      rfl

/-- Columns tabulated from a list carry what is read of a row of theirs. -/
theorem Tabulated.carries {α β : Type} {xs : List α} {fs : List (α → Cell)} {columns : List Param}
    (h : Tabulated xs fs columns) {names : List String} (some : fs ≠ [])
    (length : fs.length = names.length) {sql : String} {id : StorageId}
    {read : Row → Except StoreError β} {value : α → β}
    (reads : ∀ x ∈ xs,
      read (("storage_id", .int8 id) :: names.zip (fs.map (· x))) = .ok (value x)) :
    (about sql id columns).Carries id names read (xs.map value) where
  aligned := by
    refine ⟨columns, rfl, h.length_columns.trans length, ?_⟩
    rw [List.length_map]
    exact h.length_cells
  reads := by
    have rows : (about sql id columns).rows names =
        xs.map fun x => ("storage_id", .int8 id) :: names.zip (fs.map (· x)) := by
      change (unnest names columns).map (("storage_id", .int8 id) :: ·) = _
      rw [h.unnest_eq some, List.map_map]
      rfl
    rw [rows]
    exact readAll_map_eq_ok reads

/-! ### Places and keys -/

/-- The columns of places. -/
def placeNames : List String := ["path", "path_type"]

/-- The cells of a place. -/
def placeCells : List (PathRef → Cell) := [fun p => .text p.path, fun p => .text p.type.name]

/-- Reads a place, as the place of a key is read. -/
def placeOfRow (row : Row) : Except StoreError PathRef := do
  let type ← column .text "path_type" row
  let path ← column .text "path" row
  pure ⟨path, ← named PathType.ofName type⟩

/-- The columns of keys. -/
def keyNames : List String := placeNames ++ ["sid_name", "sid_type"]

/-- The cells of a key. -/
def keyCells : List (PermissionKey → Cell) :=
  placeCells.map (· ∘ PermissionKey.place) ++
    [fun k => .text k.sid.name, fun k => .text k.sid.type.name]

/-- The columns of places are tabulated from them. -/
theorem tabulated_places (places : List PathRef) :
    Tabulated places placeCells (placeColumns places) := by
  simp only [Tabulated, placeCells, placeColumns, Param.cells, List.map_cons, List.map_nil,
    List.map_map]
  rfl

/-- The columns of keys are tabulated from them. -/
theorem tabulated_keys (keys : List PermissionKey) :
    Tabulated keys keyCells (keyColumns keys) := by
  simp only [Tabulated, keyCells, placeCells, keyColumns, placeColumns, sidColumns, Param.cells,
    List.map_append, List.map_cons, List.map_nil, List.map_map]
  rfl

/-- A place is read. -/
theorem placeOfRow_cells (id : StorageId) (p : PathRef) :
    placeOfRow (("storage_id", .int8 id) :: placeNames.zip (placeCells.map (· p))) = .ok p := by
  obtain ⟨path, type⟩ := p
  cases type with
  | file => rfl
  | folder => rfl

/-- A key is read, whatever comes after it. -/
theorem keyOfRow_cells (id : StorageId) (k : PermissionKey) (more : Row) :
    keyOfRow (("storage_id", .int8 id) :: (keyNames.zip (keyCells.map (· k)) ++ more)) =
      .ok k := by
  obtain ⟨path, type, name, kind⟩ := k
  cases type with
  | file => cases kind <;> rfl
  | folder => cases kind <;> rfl

/-- **The columns of places** carry them. -/
theorem carries_placeColumns (sql : String) (id : StorageId) (places : List PathRef) :
    (about sql id (placeColumns places)).Carries id placeNames placeOfRow places := by
  have carried : (about sql id (placeColumns places)).Carries id placeNames placeOfRow
      (places.map fun p => p) :=
    (tabulated_places places).carries (List.cons_ne_nil _ _) rfl fun p _ => placeOfRow_cells id p
  rwa [List.map_id'] at carried

/-- **The columns of keys** carry them. -/
theorem carries_keyColumns (sql : String) (id : StorageId) (keys : List PermissionKey) :
    (about sql id (keyColumns keys)).Carries id keyNames keyOfRow keys := by
  have carried : (about sql id (keyColumns keys)).Carries id keyNames keyOfRow
      (keys.map fun k => k) :=
    (tabulated_keys keys).carries (List.cons_ne_nil _ _) rfl fun k _ => keyOfRow_cells id k []
  rwa [List.map_id'] at carried

/-! ### Permission rows -/

/-- The columns of permission rows. -/
def permissionNames : List String := keyNames ++ ["mask", "created"]

/-- The cells of a permission row. -/
def permissionCells : List (Permission → Cell) :=
  keyCells.map (· ∘ Permission.key) ++
    [fun p => .int8 (Int64.ofNat p.mask.bits.toNat), fun p => .instant p.created.toMicros]

/-- The columns of permission rows are tabulated from them. -/
theorem tabulated_permissions (rows : List Permission) :
    Tabulated rows permissionCells (permissionColumns rows) := by
  have keys := tabulated_keys (rows.map Permission.key)
  rw [Tabulated] at keys ⊢
  rw [permissionColumns, List.map_append, keys, permissionCells, List.map_append, List.map_map]
  simp only [Param.cells, List.map_cons, List.map_nil, List.map_map]
  rfl

/-- A column that has a value of its type is read. -/
theorem column_eq_ok {α : Type} {r : Reader α} {name : String} {row : Row} {cell : Cell} {x : α}
    (here : cell? name row = some cell) (value : r.value? cell = some x) :
    column r name row = .ok x := by
  simp only [column, here, Reader.read, value]
  rfl

/-- Where the other columns of a permission row are readable, its mask is what can fail. -/
theorem permissionOfRow_eq {row : Row} {key : PermissionKey} {n : Int64} {created : Instant}
    (named : keyOfRow row = .ok key) (mask : cell? "mask" row = some (.int8 n))
    (dated : cell? "created" row = some (.instant created)) :
    permissionOfRow row =
      (maskOfInt n).map fun m => ⟨key.path, key.type, key.sid, m, created⟩ := by
  have mask : column .int8 "mask" row = .ok n := column_eq_ok mask rfl
  have dated : column .instant "created" row = .ok created := column_eq_ok dated rfl
  rw [permissionOfRow, named, mask, dated]
  change maskOfInt n >>= _ = _
  cases maskOfInt n with
  | error e => rfl
  | ok m => rfl

/-- Every mask fits its column. -/
theorem maskOfInt_ofNat (m : Mask) : maskOfInt (Int64.ofNat m.bits.toNat) = .ok m := by
  have small : m.bits.toNat < UInt32.size := m.bits.toNat_lt_size
  have value : (Int64.ofNat m.bits.toNat).toInt = m.bits.toNat :=
    Int64.toInt_ofNat_of_lt (Nat.lt_trans small (by decide))
  rw [maskOfInt, value, if_pos ⟨Int.natCast_nonneg _, Int.ofNat_lt.2 small⟩, Int.toNat_natCast,
    UInt32.ofNat_toNat]

/-- A permission row is read. -/
theorem permissionOfRow_cells (id : StorageId) (p : Permission) :
    permissionOfRow (("storage_id", .int8 id) :: permissionNames.zip (permissionCells.map (· p))) =
      .ok p.toMicros := by
  have key : keyOfRow (("storage_id", .int8 id) ::
      permissionNames.zip (permissionCells.map (· p))) = .ok p.key :=
    keyOfRow_cells id p.key [("mask", .int8 (Int64.ofNat p.mask.bits.toNat)),
      ("created", .instant p.created.toMicros)]
  rw [permissionOfRow_eq key rfl rfl, maskOfInt_ofNat]
  rfl

/-- A result is **gated** by `p` as a query is: there is an answer if `p`, and else the query fails. -/
def Gated {α : Type} (p : Prop) (result : Except StoreError α) : Prop :=
  ((∃ x, result = .ok x) ↔ p) ∧ (¬ p → ∃ message, result = .error (.query message))

/-- What is made of a gated answer is gated. -/
theorem Gated.map {α β : Type} {p : Prop} {result : Except StoreError α} (h : Gated p result)
    (f : α → β) : Gated p (result.map f) := by
  cases result with
  | ok x =>
      have holds : p := h.1.1 ⟨x, rfl⟩
      exact ⟨iff_of_true ⟨f x, rfl⟩ holds, fun not => absurd holds not⟩
  | error e =>
      have not : ¬ p := fun holds => by
        obtain ⟨x, same⟩ := h.1.2 holds
        cases same
      obtain ⟨message, same⟩ := h.2 not
      cases same
      refine ⟨iff_of_false ?_ not, fun _ => ⟨message, rfl⟩⟩
      rintro ⟨x, same⟩
      cases same

/-- A choice between an answer and a failed query is gated. -/
theorem gated_ite {α : Type} (p : Prop) [Decidable p] (x : α) (message : String) :
    Gated p (if p then .ok x else .error (.query message) : Except StoreError α) := by
  by_cases h : p
  · rw [if_pos h]
    exact ⟨iff_of_true ⟨x, rfl⟩ h, fun not => absurd h not⟩
  · rw [if_neg h]
    refine ⟨iff_of_false ?_ h, fun _ => ⟨message, rfl⟩⟩
    rintro ⟨y, same⟩
    cases same

/-- **A stored mask is read** exactly if it fits 32 bits. -/
theorem gated_permissionOfRow {row : Row} {key : PermissionKey} {n : Int64} {created : Instant}
    (named : keyOfRow row = .ok key) (mask : cell? "mask" row = some (.int8 n))
    (dated : cell? "created" row = some (.instant created)) :
    Gated (0 ≤ n.toInt ∧ n.toInt ≤ 4294967295) (permissionOfRow row) := by
  rw [permissionOfRow_eq named mask dated]
  refine .map ?_ _
  have fits : (0 ≤ n.toInt ∧ n.toInt ≤ 4294967295) = (0 ≤ n.toInt ∧ n.toInt < UInt32.size) :=
    propext (and_congr_right fun _ => Int.lt_add_one_iff.symm)
  rw [fits]
  exact gated_ite _ _ _

/-- **The columns of permission rows** carry them. -/
theorem carries_permissionColumns (sql : String) (id : StorageId) (rows : List Permission) :
    (about sql id (permissionColumns rows)).Carries id permissionNames permissionOfRow
      (rows.map Permission.toMicros) :=
  (tabulated_permissions rows).carries (List.cons_ne_nil _ _) rfl
    fun p _ => permissionOfRow_cells id p

/-! ### Prolongations -/

/-- The columns of prolongations. -/
def prolongationNames : List String := ["path", "user_id", "prolonged_until", "days", "updated"]

/-- The cells of a prolongation. -/
def prolongationCells : List (Prolongation → Cell) :=
  [fun p => .text p.path, fun p => .text p.userId, fun p => .instant p.prolongedUntil.toMicros,
    fun p => .int4 (Int32.ofNat p.days.toNat), fun p => .instant p.updated.toMicros]

/-- The column of days has the days of each prolongation. -/
theorem eq_map_of_daysColumn {records : List Prolongation} {days : List Int32}
    (h : daysColumn records = .ok days) :
    days = records.map fun p => Int32.ofNat p.days.toNat := by
  induction records generalizing days with
  | nil =>
      cases h
      rfl
  | cons p records ih =>
      rw [daysColumn] at h
      split at h
      · cases rest : daysColumn records with
        | error e =>
            rw [rest] at h
            cases h
        | ok more =>
            rw [rest] at h
            cases h
            rw [ih rest, List.map_cons]
      · cases h

/-- The columns of prolongations are tabulated from them. -/
theorem tabulated_prolongations {records : List Prolongation} {days : List Int32}
    (h : daysColumn records = .ok days) :
    Tabulated records prolongationCells (prolongationColumns records days) := by
  obtain rfl := eq_map_of_daysColumn h
  simp only [Tabulated, prolongationCells, prolongationColumns, Param.cells, List.map_cons,
    List.map_nil, List.map_map]
  rfl

/-- The columns of a prolongation other than its days are readable. -/
structure ProlongationCells (row : Row) (p : Prolongation) : Prop where
  storage : cell? "storage_id" row = some (.int8 p.storageId)
  path : cell? "path" row = some (.text p.path)
  user : cell? "user_id" row = some (.text p.userId)
  ends : cell? "prolonged_until" row = some (.instant p.prolongedUntil)
  updated : cell? "updated" row = some (.instant p.updated)

/-- Where the other columns of a prolongation are readable, its days are what can fail. -/
theorem prolongationOfRow_eq {row : Row} {n : Int32} {p : Prolongation}
    (days : cell? "days" row = some (.int4 n)) (cells : ProlongationCells row p) :
    prolongationOfRow row = (daysOfInt n).map fun d => { p with days := d } := by
  have days : column .int4 "days" row = .ok n := column_eq_ok days rfl
  have storage : column .int8 "storage_id" row = .ok p.storageId := column_eq_ok cells.storage rfl
  have path : column .text "path" row = .ok p.path := column_eq_ok cells.path rfl
  have user : column .text "user_id" row = .ok p.userId := column_eq_ok cells.user rfl
  have ends : column .instant "prolonged_until" row = .ok p.prolongedUntil :=
    column_eq_ok cells.ends rfl
  have updated : column .instant "updated" row = .ok p.updated := column_eq_ok cells.updated rfl
  rw [prolongationOfRow, days, storage, path, user, ends, updated]
  change daysOfInt n >>= _ = _
  cases daysOfInt n with
  | error e => rfl
  | ok d => rfl

/-- Days of 31 bits fit their column. -/
theorem daysOfInt_ofNat {d : UInt32} (fits : d.toNat ≤ Int32.maxValue.toInt) :
    daysOfInt (Int32.ofNat d.toNat) = .ok d := by
  have small : d.toNat < 2147483648 := by
    have most : Int32.maxValue.toInt = 2147483647 := rfl
    omega
  have value : (Int32.ofNat d.toNat).toInt = d.toNat := Int32.toInt_ofNat_of_lt small
  rw [daysOfInt, value, if_pos (Int.natCast_nonneg _), Int.toNat_natCast, UInt32.ofNat_toNat]

/-- **Stored days are read** exactly if they are not negative. -/
theorem gated_prolongationOfRow {row : Row} {n : Int32} {p : Prolongation}
    (days : cell? "days" row = some (.int4 n)) (cells : ProlongationCells row p) :
    Gated (0 ≤ n.toInt) (prolongationOfRow row) := by
  rw [prolongationOfRow_eq days cells]
  exact .map (gated_ite _ _ _) _

/-- **The columns of prolongations** of a storage carry them. -/
theorem carries_prolongationColumns (sql : String) {id : StorageId} {records : List Prolongation}
    {days : List Int32} (h : daysColumn records = .ok days)
    (own : ∀ p ∈ records, p.storageId = id) :
    (about sql id (prolongationColumns records days)).Carries id prolongationNames
      prolongationOfRow (records.map Prolongation.toMicros) := by
  refine (tabulated_prolongations h).carries (List.cons_ne_nil _ _) rfl fun p hp => ?_
  have fits := daysColumn_eq_ok_iff.1 ⟨days, h⟩ p hp
  obtain rfl := own p hp
  rw [prolongationOfRow_eq (p := p.toMicros) rfl ⟨rfl, rfl, rfl, rfl, rfl⟩, daysOfInt_ofNat fits]
  rfl

end Database

end PathAcl
