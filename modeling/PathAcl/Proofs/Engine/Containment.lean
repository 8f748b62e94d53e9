import PathAcl.Proofs.Engine.Commutation
import PathAcl.Proofs.Engine.Demands
import PathAcl.Proofs.Engine.Inheritance

/-! # What a batch bears on
A batch of rows that are written or dropped touches the rows it names and no others. So it can change
what is granted in its own storage alone, to sids that it names alone, and on targets alone that one of
its keys reaches. -/

namespace PathAcl

open Memory

/-! ## Rows and masks -/

/-- Two listings decide the same on a target if the same rows of the sids reach it. -/
theorem decidedMask_congr {rows others : List Permission} {target : PathRef} {sids : List Sid}
    (unique : ∀ a ∈ rows, ∀ b ∈ rows, a.key = b.key → a = b)
    (otherUnique : ∀ a ∈ others, ∀ b ∈ others, a.key = b.key → a = b)
    (same : ∀ row, row.sid ∈ sids → row.place.reaches target = true →
      (row ∈ rows ↔ row ∈ others)) :
    decidedMask rows target sids = decidedMask others target sids := by
  have each : ∀ sid ∈ sids, decidingMask rows target sid = decidingMask others target sid := by
    intro sid hsid
    refine decidingMask_congr unique otherUnique fun row e => ?_
    refine and_congr_left fun reaches => same row ?_ reaches
    rw [e]
    exact hsid
  refine Mask.foldl_or_congr fun i => ?_
  constructor
  · rintro ⟨sid, hsid, set⟩
    rw [each sid (List.mem_dedup.1 hsid)] at set
    exact ⟨sid, hsid, set⟩
  · rintro ⟨sid, hsid, set⟩
    rw [← each sid (List.mem_dedup.1 hsid)] at set
    exact ⟨sid, hsid, set⟩

namespace Engine

variable {catalog : Catalog} {maxBatch : Nat} {s : EngineState Memory}

/-! ## Batches -/

/-- A **batch** of rows to be written or dropped. -/
inductive Batch
  | insert (now : Instant) (requests : List GrantRequest)
  | delete (keys : List PermissionKey)

namespace Batch

/-- The batch as a call that names a storage. -/
def call (storage : StorageRef) : Batch → Call
  | insert now requests => .insert now storage requests
  | delete keys => .delete storage keys

/-- The keys in a batch, as the caller spells them. -/
def keys : Batch → List PermissionKey
  | insert _ requests => requests.map GrantRequest.key
  | delete keys => keys

/-- A batch **bears on** what some sids are granted on a place if one of its keys, in normal form, is of
one of the sids and is at the place, or at a folder with the place strictly beneath it. -/
def BearsOn (batch : Batch) (place : PathRef) (sids : List Sid) : Prop :=
  ∃ key ∈ batch.keys, key.sid ∈ sids ∧ ∃ path, Path.normalize key.path = .ok path ∧
    ((path = place.path ∧ key.type = place.type) ∨
      (key.type = .folder ∧
        ∃ rest ≠ [], Path.segments place.path = Path.segments path ++ rest))

/-- A key of a batch that names the key of a row bears on what the row reaches. -/
theorem bearsOn_of_names {batch : Batch} {key : PermissionKey} (hkey : key ∈ batch.keys)
    {row : Permission} (names : key.Names row.key) {place : PathRef} {sids : List Sid}
    (asked : row.sid ∈ sids) (reaches : row.place.reaches place = true) :
    batch.BearsOn place sids := by
  refine ⟨key, hkey, names.sid.symm ▸ asked, row.path, names.path, ?_⟩
  rw [PathRef.reaches, Bool.or_eq_true, beq_iff_eq, Bool.and_eq_true, beq_iff_eq,
    Path.isBeneath_iff] at reaches
  rcases reaches with here | ⟨folder, beneath⟩
  · exact .inl ⟨congrArg PathRef.path here, names.type.trans (congrArg PathRef.type here)⟩
  · exact .inr ⟨names.type.trans folder, beneath⟩

/-- A batch **leaves alone** all rows of a storage that it does not name. -/
def LeavesAlone (batch : Batch) (id : StorageId) (m m' : Memory) : Prop :=
  m' = m ∨ 0 < id ∧ ∀ row, (∀ key ∈ batch.keys, ¬ key.Names row.key) →
    (row ∈ m'.rows id ↔ row ∈ m.rows id)

/-- What is kept of a batch leaves alone the rows whose keys it has not. -/
theorem lastOf_eq_none {rows : List Permission} {key : PermissionKey}
    (apart : ∀ row ∈ rows, row.key ≠ key) : lastOf rows key = none := by
  cases last : lastOf rows key with
  | none => rfl
  | some row =>
      have hrow : row ∈ rows := List.mem_reverse.1 (List.mem_of_find?_eq_some last)
      exact absurd (key_of_lastOf last) (apart row hrow)

/-- Writing rows leaves alone those that are not named. -/
theorem leavesAlone_insert (sound : s.store.Sound) (now : Instant) (storage : StorageRef)
    (requests : List GrantRequest) :
    (insert now requests).LeavesAlone storage.id s.store
      (((engine catalog maxBatch).insert now storage requests).run s).state.store := by
  have wellFormed := sound.wellFormed
  refine state_writeBatch
    (p := fun t : EngineState Memory => (insert now requests).LeavesAlone storage.id s.store t.store)
    (run_upsert s.store storage) (.inl rfl) fun rows written m mapped made => ?_
  have left : m.WellFormed := ((Effect.insert made).sound sound).wellFormed
  obtain ⟨⟨positive, -⟩, -⟩ := upsert_eq_ok_iff.1 made
  refine .inr ⟨positive, fun row alone => ?_⟩
  -- the batch binds the keys of its rows, and each of these is named
  have unbound : lastOf rows row.key = none := by
    refine lastOf_eq_none fun other hother same => ?_
    obtain ⟨r, hr, taken⟩ := (mem_mapM_iff mapped).1 hother
    exact alone r.key (List.mem_map_of_mem hr) (same ▸ Request.names_of_toRow taken)
  rw [left.mem_rows_iff, wellFormed.mem_rows_iff, (wellFormed.upserted made).bound, unbound]
  rfl

/-- Dropping rows leaves alone those that are not named. -/
theorem leavesAlone_delete (sound : s.store.Sound) (storage : StorageRef)
    (keys : List PermissionKey) :
    (delete keys).LeavesAlone storage.id s.store
      (((engine catalog maxBatch).delete storage keys).run s).state.store := by
  have wellFormed := sound.wellFormed
  refine state_writeBatch
    (p := fun t : EngineState Memory => (delete keys).LeavesAlone storage.id s.store t.store)
    (run_delete s.store storage.id) (.inl rfl) fun normal dropped m mapped made => ?_
  have left : m.WellFormed := ((Effect.delete made).sound sound).wellFormed
  obtain ⟨⟨positive, -⟩, -⟩ := delete_eq_ok_iff.1 made
  refine .inr ⟨positive, fun row alone => ?_⟩
  have unnamed : row.key ∉ normal := by
    intro hmem
    obtain ⟨k, hk, taken⟩ := (mem_mapM_iff mapped).1 hmem
    exact alone k hk (Request.names_of_toKey taken)
  rw [left.mem_rows_iff, wellFormed.mem_rows_iff, (wellFormed.deleted made).gone, if_neg unnamed]

/-- **A batch leaves alone** what it does not name. -/
theorem leavesAlone (sound : s.store.Sound) (batch : Batch) (storage : StorageRef) :
    batch.LeavesAlone storage.id s.store
      ((engine catalog maxBatch).afterCall s (batch.call storage)).store := by
  cases batch with
  | insert now requests => exact leavesAlone_insert sound now storage requests
  | delete keys => exact leavesAlone_delete sound storage keys

/-- A batch names the storage it is called for. -/
theorem storageId?_call (batch : Batch) (storage : StorageRef) :
    (batch.call storage).storageId? = some storage.id := by
  cases batch <;> rfl

end Batch

/-! ## Containment -/

/-- The resolver answers by the table alone. -/
theorem answer_resolve_of_store {t : EngineState Memory} (same : t.store = s.store) (id : StorageId)
    (target : PathRef) (sids : List Sid) :
    (((engine catalog maxBatch).resolve id target sids).run t).answer =
      (((engine catalog maxBatch).resolve id target sids).run s).answer :=
  (((engine catalog maxBatch).meets_blind id).resolve target sids t s same).1

/-- In another storage than that of a batch the resolver answers as before: the batch and the question
are each confined to their storage. -/
theorem Batch.answer_resolve_elsewhere (batch : Batch) (storage : StorageRef) {id : StorageId}
    (apart : id ≠ storage.id) (target : PathRef) (sids : List Sid) :
    (((engine catalog maxBatch).resolve id target sids).run
        ((engine catalog maxBatch).afterCall s (batch.call storage))).answer =
      (((engine catalog maxBatch).resolve id target sids).run s).answer := by
  let e := engine catalog maxBatch
  have writing : Action.Confined EngineState.part storage.id (e.act (batch.call storage)) :=
    confined_act (batch.storageId?_call storage)
  have asking : Action.Confined EngineState.part id (e.act (.resolve id target sids)) :=
    confined_act rfl
  have answered := asking.answer_after writing apart s
  rw [state_act] at answered
  exact answered

/-- **A batch changes only what it bears on.** If the resolver answers otherwise after a batch was
written or dropped, then it was asked about the storage of the batch, the target has a normal form, and
some key of the batch is of one of the sids and at the target or at a folder above it. -/
theorem batch_bears_on_of_resolve_ne (reached : Reached catalog maxBatch s) (batch : Batch)
    (storage : StorageRef) {id : StorageId} {target : PathRef} {sids : List Sid}
    (differs :
      (((engine catalog maxBatch).resolve id target sids).run
        ((engine catalog maxBatch).afterCall s (batch.call storage))).answer ≠
      (((engine catalog maxBatch).resolve id target sids).run s).answer) :
    id = storage.id ∧ ∃ place, target.normalize = .ok place ∧ batch.BearsOn place sids := by
  let e := engine catalog maxBatch
  have later : Reached catalog maxBatch (e.afterCall s (batch.call storage)) :=
    reached.after (.call (batch.call storage))
  obtain rfl : id = storage.id := by
    by_contra apart
    exact differs (batch.answer_resolve_elsewhere storage apart target sids)
  refine ⟨rfl, ?_⟩
  have touched : batch.LeavesAlone storage.id s.store (e.afterCall s (batch.call storage)).store :=
    batch.leavesAlone reached.sound storage
  rcases touched with same | ⟨positive, alone⟩
  · exact absurd (answer_resolve_of_store same storage.id target sids) differs
  cases normal : Request.normalRef target with
  | error why =>
      refine absurd ?_ differs
      rw [answer_resolve_malformed normal, answer_resolve_malformed normal]
  | ok place =>
      refine ⟨place, Validity.mapError_eq_ok_iff.1 normal, ?_⟩
      by_contra unborne
      refine differs ?_
      rw [answer_resolve later.sound positive normal, answer_resolve reached.sound positive normal]
      refine congrArg Except.ok (decidedMask_congr (fun a ha b hb => later.sound.eq_of_key ha hb)
        (fun a ha b hb => reached.sound.eq_of_key ha hb) fun row asked reaches => ?_)
      -- a row that reaches the target is named by no key, or the batch would bear on it
      exact alone row fun key hkey names => unborne (Batch.bearsOn_of_names hkey names asked reaches)

/-- A folder is granted: a batch of one item, with blanks and doubled separators in its path. -/
def grantFolder : Batch := .insert .epoch [⟨" /a// ", .folder, .user "v", .read⟩]

/-- The grant changes what the user has at a file in the folder, and the folder is above the file. -/
theorem grantFolder_bears_on_file :
    (((engine .ofStore 10).resolve 1 (.file "a/x") [.group "g", .user "v"]).run
        ((engine .ofStore 10).afterCall furnished (grantFolder.call ⟨1, .s3⟩))).answer ≠
      (((engine .ofStore 10).resolve 1 (.file "a/x") [.group "g", .user "v"]).run
        furnished).answer ∧
      ∃ place, (PathRef.file "a/x").normalize = .ok place ∧
        grantFolder.BearsOn place [.group "g", .user "v"] := by
  have reached : Reached .ofStore 10 furnished := ⟨.default, _, rfl⟩
  have granted : (((engine .ofStore 10).resolve 1 (.file "a/x") [.group "g", .user "v"]).run
      ((engine .ofStore 10).afterCall furnished (grantFolder.call ⟨1, .s3⟩))).answer = .ok .read := by
    rfl
  have before : (((engine .ofStore 10).resolve 1 (.file "a/x") [.group "g", .user "v"]).run
      furnished).answer = .ok .none := by rfl
  have differs : (((engine .ofStore 10).resolve 1 (.file "a/x") [.group "g", .user "v"]).run
        ((engine .ofStore 10).afterCall furnished (grantFolder.call ⟨1, .s3⟩))).answer ≠
      (((engine .ofStore 10).resolve 1 (.file "a/x") [.group "g", .user "v"]).run
        furnished).answer := by
    rw [granted, before]
    intro same
    exact absurd (Except.ok.inj same) (by decide)
  exact ⟨differs, (batch_bears_on_of_resolve_ne reached grantFolder ⟨1, .s3⟩ differs).2⟩

end Engine

end PathAcl
