import PathAcl.Database.Operations
import PathAcl.Proofs.Validity

/-! # Values read and bound
What is read of the rows that the database returns: the one value of a single-value query, and records
whose columns name things. Reading fails as a fault of an argument only at a name of nothing. Of the
values that are bound to a statement only days can be too large. -/

namespace PathAcl.Database

/-! ## Single values -/

/-- The first value of the first row. -/
def firstCell? : List Row → Option Cell
  | ((_, cell) :: _) :: _ => some cell
  | _ => none

/-- The one value of a single-value query is the first value of the first row. -/
theorem onlyValue_eq_ok_iff {α : Type} {r : Reader α} {context : String} {rows : List Row} {x : α} :
    onlyValue r context rows = .ok x ↔
      ∃ cell, firstCell? rows = some cell ∧ r.value? cell = some x := by
  match rows with
  | [] =>
      rw [onlyValue]
      refine iff_of_false nofun ?_
      rintro ⟨_, absent, -⟩
      cases absent
  | [] :: _ =>
      rw [onlyValue, onlyColumn]
      refine iff_of_false nofun ?_
      rintro ⟨_, absent, -⟩
      cases absent
  | ((_, cell) :: _) :: _ =>
      rw [onlyValue, onlyColumn, Reader.read]
      simp only [firstCell?, Option.some.injEq, exists_eq_left']
      cases r.value? cell with
      | none => exact iff_of_false nofun nofun
      | some y => simp only [Except.mapError, Except.ok.injEq, Option.some.injEq]

/-- It is read as a text if it is one. -/
theorem onlyValue_text_eq_ok_iff {context : String} {rows : List Row} {s : String} :
    onlyValue .text context rows = .ok s ↔ firstCell? rows = some (.text s) := by
  rw [onlyValue_eq_ok_iff]
  constructor
  · rintro ⟨cell, first, value⟩
    cases cell with
    | text t =>
        cases value
        exact first
    | _ => cases value
  · exact fun first => ⟨_, first, rfl⟩

/-- It is read as a truth value if it is one. -/
theorem onlyValue_bool_eq_ok_iff {context : String} {rows : List Row} {b : Bool} :
    onlyValue .bool context rows = .ok b ↔ firstCell? rows = some (.bool b) := by
  rw [onlyValue_eq_ok_iff]
  constructor
  · rintro ⟨cell, first, value⟩
    cases cell with
    | bool c =>
        cases value
        exact first
    | _ => cases value
  · exact fun first => ⟨_, first, rfl⟩

/-- A value that is not read fails the query. -/
theorem onlyValue_ne_invalidInput {α : Type} (r : Reader α) (context : String) (rows : List Row)
    (message : String) : onlyValue r context rows ≠ .error (.invalidInput message) := by
  match rows with
  | [] =>
      rw [onlyValue]
      exact nofun
  | [] :: _ =>
      rw [onlyValue, onlyColumn]
      exact nofun
  | ((_, cell) :: _) :: _ =>
      rw [onlyValue, onlyColumn]
      cases r.read "0" cell with
      | error cause => exact nofun
      | ok x => exact nofun

/-! ## Bound days -/

/-- The days of prolongations fit 31 bits, or they are refused. -/
theorem daysColumn_eq_ok_iff {records : List Prolongation} :
    (∃ days, daysColumn records = .ok days) ↔
      ∀ p ∈ records, p.days.toNat ≤ Int32.maxValue.toInt := by
  induction records with
  | nil => exact iff_of_true ⟨[], rfl⟩ fun p hp => absurd hp List.not_mem_nil
  | cons p records ih =>
      rw [List.forall_mem_cons, ← ih, daysColumn]
      by_cases fits : p.days.toNat ≤ Int32.maxValue.toInt
      · rw [if_pos fits]
        cases daysColumn records with
        | error e => exact iff_of_false nofun fun h => nomatch h.2
        | ok days => exact iff_of_true ⟨_, rfl⟩ ⟨fits, days, rfl⟩
      · rw [if_neg fits]
        exact iff_of_false nofun fun h => fits h.1

/-- If they fit, a column of them is written. -/
theorem exists_daysColumn {records : List Prolongation}
    (fit : ∀ p ∈ records, p.days.toNat ≤ Int32.maxValue.toInt) :
    ∃ days, (daysColumn records).mapError StoreError.ofFault = .ok days := by
  obtain ⟨days, fits⟩ := daysColumn_eq_ok_iff.2 fit
  exact ⟨days, Validity.mapError_eq_ok_iff.2 fits⟩

/-! ## Unknown names -/

/-- A text names no path type, no type of a sid or no kind of a storage. -/
inductive UnknownName : Fault → Prop
  | pathType (text : String) : UnknownName (.unknownPathType text)
  | sidType (text : String) : UnknownName (.unknownSidType text)
  | storageKind (text : String) : UnknownName (.unknownStorageKind text)

section Stuck

variable {α β : Type}

/-- Reading is **stuck** at an unknown name. -/
def StuckAt (fault : Fault) (result : Except StoreError α) : Prop :=
  UnknownName fault ∧ result = .error (.ofFault fault)

/-- If it ends in a fault of an argument, that is an unknown name. -/
def OnlyStuckAtNames (result : Except StoreError α) : Prop :=
  ∀ message, result = .error (.invalidInput message) →
    ∃ fault, StuckAt fault result ∧ message = fault.message

/-- What is read is not stuck. -/
theorem onlyStuckAtNames_ok (x : α) : OnlyStuckAtNames (.ok x) := fun _ => nofun

/-- A failed query is not stuck at a name. -/
theorem onlyStuckAtNames_query (message : String) :
    OnlyStuckAtNames (.error (.query message) : Except StoreError α) := fun _ => nofun

/-- Two readings in a row. -/
theorem OnlyStuckAtNames.bind {r : Except StoreError α} {f : α → Except StoreError β}
    (hr : OnlyStuckAtNames r) (hf : ∀ x, OnlyStuckAtNames (f x)) : OnlyStuckAtNames (r >>= f) := by
  cases r with
  | ok x => exact hf x
  | error e =>
      intro message same
      obtain ⟨fault, ⟨unknown, stuck⟩, rfl⟩ := hr message (congrArg Except.error (Except.error.inj same))
      exact ⟨fault, ⟨unknown, congrArg Except.error (Except.error.inj stuck)⟩, rfl⟩

/-- After a reading that is never stuck only the next one can be. -/
theorem stuckAt_bind_iff {fault : Fault} {r : Except StoreError α} {f : α → Except StoreError β}
    (blameless : ∀ message, r ≠ .error (.invalidInput message)) :
    StuckAt fault (r >>= f) ↔ ∃ x, r = .ok x ∧ StuckAt fault (f x) := by
  cases r with
  | ok x =>
      constructor
      · exact fun stuck => ⟨x, rfl, stuck⟩
      · rintro ⟨_, same, stuck⟩
        cases same
        exact stuck
  | error e =>
      refine iff_of_false (fun stuck => ?_) fun ⟨_, same, _⟩ => nomatch same
      exact blameless fault.message (congrArg Except.error (Except.error.inj stuck.2))

/-- What is made of a reading is stuck where the reading is. -/
theorem stuckAt_map_iff {fault : Fault} {r : Except StoreError α} (f : α → β) :
    StuckAt fault (f <$> r) ↔ StuckAt fault r := by
  refine and_congr_right fun _ => ?_
  cases r with
  | ok x => exact iff_of_false nofun nofun
  | error e =>
      exact ⟨fun same => congrArg Except.error (Except.error.inj same),
        fun same => congrArg Except.error (Except.error.inj same)⟩

/-- A column of a wrong type fails the query. -/
theorem onlyStuckAtNames_column (r : Reader α) (name : String) (row : Row) :
    OnlyStuckAtNames (column r name row) := by
  rw [column]
  cases cell? name row with
  | none => exact onlyStuckAtNames_query _
  | some cell =>
      dsimp only
      cases r.read (quotedColumn name) cell with
      | ok x => exact onlyStuckAtNames_ok x
      | error cause => exact onlyStuckAtNames_query _

/-- A text that names something is read, and stuck else. -/
theorem onlyStuckAtNames_named {ofName : String → Except Fault α}
    (unknown : ∀ text fault, ofName text = .error fault → UnknownName fault) (text : String) :
    OnlyStuckAtNames (named ofName text) := by
  rw [named]
  cases h : ofName text with
  | ok x => exact onlyStuckAtNames_ok x
  | error fault =>
      rintro message same
      cases same
      exact ⟨fault, ⟨unknown text fault h, rfl⟩, rfl⟩

end Stuck

/-- No other fault is found in the name of a path type. -/
theorem unknownName_of_pathType (text : String) (fault : Fault)
    (h : PathType.ofName text = .error fault) : UnknownName fault := by
  rw [PathType.ofName] at h
  split at h
  · cases h
  · exact Except.error.inj h ▸ .pathType text

/-- Nor in that of a type of a sid. -/
theorem unknownName_of_sidType (text : String) (fault : Fault)
    (h : SidType.ofName text = .error fault) : UnknownName fault := by
  rw [SidType.ofName] at h
  split at h
  · cases h
  · exact Except.error.inj h ▸ .sidType text

/-- Nor in that of a kind of a storage. -/
theorem unknownName_of_storageKind (text : String) (fault : Fault)
    (h : StorageKind.ofName text = .error fault) : UnknownName fault := by
  rw [StorageKind.ofName] at h
  split at h
  · cases h
  · exact Except.error.inj h ▸ .storageKind text

/-- A key is read, or not, or stuck at a name. -/
theorem onlyStuckAtNames_keyOfRow (row : Row) : OnlyStuckAtNames (keyOfRow row) := by
  refine .bind (onlyStuckAtNames_column _ _ _) fun type => ?_
  refine .bind (onlyStuckAtNames_column _ _ _) fun path => ?_
  refine .bind (onlyStuckAtNames_named unknownName_of_pathType _) fun type => ?_
  refine .bind ?_ fun sid => onlyStuckAtNames_ok _
  refine .bind (onlyStuckAtNames_column _ _ _) fun name => ?_
  refine .bind (onlyStuckAtNames_column _ _ _) fun type => ?_
  exact .bind (onlyStuckAtNames_named unknownName_of_sidType _) fun type => onlyStuckAtNames_ok _

/-- So is a permission row. -/
theorem onlyStuckAtNames_permissionOfRow (row : Row) : OnlyStuckAtNames (permissionOfRow row) := by
  refine .bind (onlyStuckAtNames_keyOfRow row) fun key => ?_
  refine .bind (onlyStuckAtNames_column _ _ _) fun n => .bind ?_ fun mask => ?_
  · rw [maskOfInt]
    split
    · exact onlyStuckAtNames_ok _
    · exact onlyStuckAtNames_query _
  · exact .bind (onlyStuckAtNames_column _ _ _) fun created => onlyStuckAtNames_ok _

/-- So is a storage. -/
theorem onlyStuckAtNames_storageOfRow (row : Row) : OnlyStuckAtNames (storageOfRow row) := by
  refine .bind (onlyStuckAtNames_column _ _ _) fun id => ?_
  refine .bind (onlyStuckAtNames_column _ _ _) fun kind => ?_
  exact .bind (onlyStuckAtNames_named unknownName_of_storageKind _) fun k => onlyStuckAtNames_ok _

/-- So are all rows. -/
theorem onlyStuckAtNames_readAll {α : Type} {read : Row → Except StoreError α}
    (h : ∀ row, OnlyStuckAtNames (read row)) (rows : List Row) :
    OnlyStuckAtNames (readAll read rows) := by
  rw [readAll]
  induction rows with
  | nil => exact onlyStuckAtNames_ok _
  | cons row rows ih =>
      rw [List.mapM_cons]
      exact .bind (h row) fun x => .bind ih fun xs => onlyStuckAtNames_ok _

end PathAcl.Database
