import PathAcl.Database.Dialogue

/-! # Reading returned rows
A column is read by its name and as a value of one type. A column that is missing, is null or holds
a value of another type is a failure of the query; a text that names no path type, sid type or
storage kind is refused as input. -/

namespace PathAcl.Database

/-- The SQL type of a value. -/
def Cell.sqlType : Cell → String
  | .int8 _ => "INT8"
  | .int4 _ => "INT4"
  | .text _ => "TEXT"
  | .instant _ => "TIMESTAMPTZ"
  | .bool _ => "BOOL"
  | .null => "NULL"

/-- A kind of value that a column is read as. -/
structure Reader (α : Type) where
  /-- The SQL type that is asked for. -/
  sqlType : String
  /-- The value of a cell of that type. -/
  value? : Cell → Option α

namespace Reader

/-- Reads 64-bit integers. -/
def int8 : Reader Int64 := ⟨"INT8", fun | .int8 n => some n | _ => none⟩

/-- Reads 32-bit integers. -/
def int4 : Reader Int32 := ⟨"INT4", fun | .int4 n => some n | _ => none⟩

/-- Reads texts. -/
def text : Reader String := ⟨"TEXT", fun | .text s => some s | _ => none⟩

/-- Reads instants. -/
def instant : Reader Instant := ⟨"TIMESTAMPTZ", fun | .instant t => some t | _ => none⟩

/-- Reads truth values. -/
def bool : Reader Bool := ⟨"BOOL", fun | .bool b => some b | _ => none⟩

/-- Why a cell is not read; `column` is how the column is spoken of. -/
def undecodable {α : Type} (r : Reader α) (column : String) (cell : Cell) : String :=
  s!"error occurred while decoding column {column}: " ++
    match cell with
    | .null => "unexpected null; try decoding as an `Option`"
    | _ => s!"mismatched types; {r.sqlType} is not compatible with {cell.sqlType}"

/-- Reads a cell, or says why not. -/
def read {α : Type} (r : Reader α) (column : String) (cell : Cell) : Except String α :=
  match r.value? cell with
  | some x => .ok x
  | none => .error (r.undecodable column cell)

end Reader

/-- A failed query: what it was for, and the cause (`query_error`). -/
def queryFailure (context cause : String) : StoreError := .query s!"{context}: {cause}"

/-- The cell of a column. -/
def cell? (column : String) (row : Row) : Option Cell := row.lookup column

/-- A column by its name in quotes. -/
def quotedColumn (column : String) : String := "\"" ++ column ++ "\""

/-- Reads a column of a row. -/
def column {α : Type} (r : Reader α) (name : String) (row : Row) : Except StoreError α :=
  match cell? name row with
  | none => .error (queryFailure name s!"no column found for name: {name}")
  | some cell => (r.read (quotedColumn name) cell).mapError (queryFailure name)

/-- Reads the first column of a row; `context` says what for. -/
def onlyColumn {α : Type} (r : Reader α) (context : String) : Row → Except StoreError α
  | [] => .error (queryFailure context
      "column index out of bounds: the len is 0, but the index is 0")
  | (_, cell) :: _ => (r.read "0" cell).mapError (queryFailure context)

/-- Reads a text that names something. -/
def named {α : Type} (ofName : String → Except Fault α) (text : String) : Except StoreError α :=
  (ofName text).mapError .ofFault

/-! ## Records -/

/-- Reads a sid (`parse_sid`). -/
def sidOfRow (row : Row) : Except StoreError Sid := do
  let name ← column .text "sid_name" row
  let type ← column .text "sid_type" row
  pure ⟨name, ← named SidType.ofName type⟩

/-- Reads the key of a permission row (`row_to_key`). -/
def keyOfRow (row : Row) : Except StoreError PermissionKey := do
  let type ← column .text "path_type" row
  let path ← column .text "path" row
  let type ← named PathType.ofName type
  let sid ← sidOfRow row
  pure ⟨path, type, sid⟩

/-- A stored mask, which has to fit 32 bits. -/
def maskOfInt (n : Int64) : Except StoreError Mask :=
  if 0 ≤ n.toInt ∧ n.toInt < UInt32.size then .ok ⟨UInt32.ofNat n.toInt.toNat⟩
  else .error (.query s!"stored mask out of range: {n.toInt}")

/-- Reads a permission row (`row_to_permission`). -/
def permissionOfRow (row : Row) : Except StoreError Permission := do
  let key ← keyOfRow row
  let mask ← maskOfInt (← column .int8 "mask" row)
  let created ← column .instant "created" row
  pure ⟨key.path, key.type, key.sid, mask, created⟩

/-- A stored number of days, which must not be negative. -/
def daysOfInt (n : Int32) : Except StoreError UInt32 :=
  if 0 ≤ n.toInt then .ok (UInt32.ofNat n.toInt.toNat)
  else .error (.query s!"stored prolongation days out of range: {n.toInt}")

/-- Reads a prolongation (`row_to_prolongation`). -/
def prolongationOfRow (row : Row) : Except StoreError Prolongation := do
  let days ← column .int4 "days" row
  let storageId ← column .int8 "storage_id" row
  let path ← column .text "path" row
  let userId ← column .text "user_id" row
  let prolongedUntil ← column .instant "prolonged_until" row
  let days ← daysOfInt days
  let updated ← column .instant "updated" row
  pure ⟨storageId, path, userId, prolongedUntil, days, updated⟩

/-- Reads a storage with its kind. -/
def storageOfRow (row : Row) : Except StoreError StorageRef := do
  let id ← column .int8 "id" row
  let kind ← column .text "kind" row
  pure ⟨id, ← named StorageKind.ofName kind⟩

/-- Reads all rows, or fails at the first that cannot be read. -/
def readAll {α : Type} (read : Row → Except StoreError α) (rows : List Row) :
    Except StoreError (List α) := rows.mapM read

/-- Reads the one value of a single-value query; rows after the first do not count. -/
def onlyValue {α : Type} (r : Reader α) (context : String) : List Row → Except StoreError α
  | [] => .error (queryFailure context
      "no rows returned by a query that expected to return at least one row")
  | row :: _ => onlyColumn r context row

end PathAcl.Database
