import PathAcl.Proofs.Engine.Effects
import PathAcl.Proofs.Items
import PathAcl.Proofs.Memory.Points
import PathAcl.Proofs.Time.Instant

/-! # Demands
What callers demand of an engine, and when a demand is valid. The checks that come before everything
else let the valid demands through, and what they hand on is accepted by a store. -/

namespace PathAcl

open Memory (bind_eq_ok_iff)
open Validity

/-! ## Valid items -/

/-- A text that has a normal form. -/
def Path.Normalizable (text : String) : Prop := ∃ path, normalize text = .ok path

/-- A wish for a row is **valid** if such a row may be stored once its path is in normal form. -/
structure GrantRequest.Valid (r : GrantRequest) : Prop where
  path : Path.Normalizable r.path
  sid : checkSid r.sid = .ok ()
  grants : r.mask.isEmpty = false

/-- So is a key if a row may have it. -/
structure PermissionKey.Valid (k : PermissionKey) : Prop where
  path : Path.Normalizable k.path
  sid : checkSid k.sid = .ok ()

/-- A key as a caller spells it **names** a key if that is its normal form. -/
structure PermissionKey.Names (spelled key : PermissionKey) : Prop where
  path : Path.normalize spelled.path = .ok key.path
  type : spelled.type = key.type
  sid : spelled.sid = key.sid

/-- The ends of a move are **valid** if they are of one type and a folder is not moved into itself. -/
structure PathRef.ValidMove (source destination : PathRef) : Prop where
  type : source.type = destination.type
  outside : ∃ p q, Path.normalize source.path = .ok p ∧ Path.normalize destination.path = .ok q ∧
    ¬ (source.type = .folder ∧ Path.isBeneath q p = true)

/-! ## Checks that let them through -/

namespace Request

/-- The sizes that a batch may have. -/
theorem checkSize_eq_ok_iff {limit size : Nat} :
    checkSize limit size = .ok () ↔ 0 < size ∧ size ≤ limit := by
  rw [checkSize]
  by_cases empty : size = 0
  · rw [if_pos empty]
    exact iff_of_false nofun fun h => Nat.ne_of_gt h.1 empty
  · rw [if_neg empty]
    by_cases large : limit < size
    · rw [if_pos large]
      exact iff_of_false nofun fun h => Nat.not_lt.2 h.2 large
    · rw [if_neg large]
      exact iff_of_true rfl ⟨Nat.pos_of_ne_zero empty, Nat.not_lt.1 large⟩

/-- A path that has a normal form is taken, and its normal form may be stored. -/
theorem exists_normalPath {path : String} (h : Path.Normalizable path) :
    ∃ normal, normalPath path = .ok normal ∧ checkPath normal = .ok () := by
  obtain ⟨normal, same⟩ := h
  exact ⟨normal, mapError_eq_ok_iff.2 same, checkPath_eq_ok_iff.2 (Path.check_of_normalize same)⟩

/-- A reference that is taken has a path that may be stored. -/
theorem checkPath_of_normalRef {r place : PathRef} (taken : normalRef r = .ok place) :
    checkPath place.path = .ok () :=
  checkPath_eq_ok_iff.2 (Path.check_of_normalize (Engine.normalRef_eq_ok_iff.1 taken).1)

/-- A reference to a path that has a normal form is taken, and the path may be stored. -/
theorem exists_normalRef {r : PathRef} (h : Path.Normalizable r.path) :
    ∃ normal, normalRef r = .ok normal ∧ checkPath normal.path = .ok () := by
  obtain ⟨path, same⟩ := h
  have taken : normalRef r = .ok ⟨path, r.type⟩ := Engine.normalRef_eq_ok_iff.2 ⟨same, rfl⟩
  exact ⟨_, taken, checkPath_of_normalRef taken⟩

/-- A valid sid is taken. -/
theorem checkSid_eq_ok {sid : Sid} (h : Validity.checkSid sid = .ok ()) : checkSid sid = .ok () :=
  mapError_eq_ok_iff.2 h

/-- A key is taken as the key it names, if its sid is valid. -/
theorem toKey_eq_ok_iff {k key : PermissionKey} :
    toKey k = .ok key ↔ k.Names key ∧ Validity.checkSid k.sid = .ok () := by
  constructor
  · intro taken
    obtain ⟨path, normal, rest⟩ := bind_eq_ok_iff.1 taken
    obtain ⟨_, sid, rest⟩ := bind_eq_ok_iff.1 rest
    cases rest
    exact ⟨⟨mapError_eq_ok_iff.1 normal, rfl, rfl⟩, mapError_eq_ok_iff.1 sid⟩
  · rintro ⟨⟨path, type, sid⟩, accepted⟩
    refine bind_eq_ok_iff.2 ⟨key.path, mapError_eq_ok_iff.2 path, ?_⟩
    refine bind_eq_ok_iff.2 ⟨(), checkSid_eq_ok accepted, ?_⟩
    rw [type, sid]
    rfl

/-- A wish for a row is taken as a row of the key it names, if it grants anything. -/
theorem toRow_eq_ok_iff {now : Instant} {r : GrantRequest} {row : Permission} :
    toRow now r = .ok row ↔ toKey r.key = .ok row.key ∧ r.mask.isEmpty = false ∧
      row.mask = r.mask ∧ row.created = now := by
  constructor
  · intro taken
    obtain ⟨path, normal, rest⟩ := bind_eq_ok_iff.1 taken
    obtain ⟨u, sid, rest⟩ := bind_eq_ok_iff.1 rest
    by_cases empty : r.mask.isEmpty = true
    · rw [if_pos empty] at rest
      cases rest
    · rw [if_neg empty] at rest
      cases rest
      have key : toKey r.key = .ok ⟨path, r.type, r.sid⟩ :=
        bind_eq_ok_iff.2 ⟨path, normal, bind_eq_ok_iff.2 ⟨u, sid, rfl⟩⟩
      exact ⟨key, Bool.eq_false_iff.2 empty, rfl, rfl⟩
  · rintro ⟨taken, grants, mask, created⟩
    obtain ⟨⟨path, type, sid⟩, accepted⟩ := toKey_eq_ok_iff.1 taken
    obtain ⟨_, _, _, _, _⟩ := row
    cases type
    cases sid
    cases mask
    cases created
    refine bind_eq_ok_iff.2 ⟨_, mapError_eq_ok_iff.2 path, ?_⟩
    exact bind_eq_ok_iff.2 ⟨(), checkSid_eq_ok accepted, if_neg (Bool.eq_false_iff.1 grants)⟩

/-- A key that a caller gives names the key that is taken. -/
theorem names_of_toKey {k key : PermissionKey} (taken : toKey k = .ok key) : k.Names key :=
  (toKey_eq_ok_iff.1 taken).1

/-- A wish for a row names the key of the row. -/
theorem names_of_toRow {now : Instant} {r : GrantRequest} {row : Permission}
    (taken : toRow now r = .ok row) : r.key.Names row.key :=
  names_of_toKey (toRow_eq_ok_iff.1 taken).1

/-- A key that is taken is one that a row may have. -/
theorem checkKey_of_toKey {k key : PermissionKey} (taken : toKey k = .ok key) :
    checkKey key = .ok () := by
  obtain ⟨names, sid⟩ := toKey_eq_ok_iff.1 taken
  rw [checkKey, andThen_eq_ok_iff, ← names.sid]
  exact ⟨checkPath_eq_ok_iff.2 (Path.check_of_normalize names.path), sid⟩

/-- A row that is made of a wish may be stored. -/
theorem checkPermission_of_toRow {now : Instant} {r : GrantRequest} {row : Permission}
    (taken : toRow now r = .ok row) : checkPermission row = .ok () := by
  obtain ⟨key, grants, mask, -⟩ := toRow_eq_ok_iff.1 taken
  rw [checkPermission, andThen_eq_ok_iff, mask, grants]
  exact ⟨checkKey_of_toKey key, rfl⟩

/-- A valid key is taken, and a row may have it. -/
theorem exists_toKey {k : PermissionKey} (h : k.Valid) :
    ∃ key, toKey k = .ok key ∧ checkKey key = .ok () := by
  obtain ⟨path, normal⟩ := h.path
  have taken : toKey k = .ok ⟨path, k.type, k.sid⟩ :=
    toKey_eq_ok_iff.2 ⟨⟨normal, rfl, rfl⟩, h.sid⟩
  exact ⟨_, taken, checkKey_of_toKey taken⟩

/-- A valid wish for a row is taken, and the row may be stored. -/
theorem exists_toRow (now : Instant) {r : GrantRequest} (h : r.Valid) :
    ∃ row, toRow now r = .ok row ∧ checkPermission row = .ok () := by
  obtain ⟨key, taken, -⟩ := exists_toKey (k := r.key) ⟨h.path, h.sid⟩
  have made : toRow now r = .ok ⟨key.path, key.type, key.sid, r.mask, now⟩ :=
    toRow_eq_ok_iff.2 ⟨taken, h.grants, rfl, rfl⟩
  exact ⟨_, made, checkPermission_of_toRow made⟩

end Request

namespace Engine

/-- The ends of a valid move are taken, and both may be stored. -/
theorem exists_checkMove {source destination : PathRef} (h : source.ValidMove destination) :
    ∃ p q, checkMove source destination = .ok (p, q) ∧ checkPath p.path = .ok () ∧
      checkPath q.path = .ok () := by
  obtain ⟨type, p, q, hp, hq, outside⟩ := h
  refine ⟨⟨p, source.type⟩, ⟨q, destination.type⟩, ?_, ?_, ?_⟩
  · exact checkMove_eq_ok_iff.2 ⟨type, normalRef_eq_ok_iff.2 ⟨hp, rfl⟩,
      normalRef_eq_ok_iff.2 ⟨hq, rfl⟩, outside⟩
  · exact checkPath_eq_ok_iff.2 (Path.check_of_normalize hp)
  · exact checkPath_eq_ok_iff.2 (Path.check_of_normalize hq)

/-! ## Demands of callers -/

/-- What a caller **demands** of an engine. -/
inductive Demand
  | insert (now : Instant) (storage : StorageRef) (requests : List GrantRequest)
  | delete (storage : StorageRef) (keys : List PermissionKey)
  | load (storage : StorageRef) (places : List PathRef)
  | deleteUnder (storage : StorageRef) (roots : List PathRef)
  | move (storage : StorageRef) (source destination : PathRef)
  | prolong (now : Instant) (storage : StorageRef) (paths : List String) (userId : String)
      (days : UInt32)
  | resolveAll (id : StorageId) (targets : List PathRef) (sids : List Sid)
  | readable (sids : List Sid)

namespace Demand

/-- The step of an engine that meets a demand; what it answers does not matter. -/
def step {σ : Type} (e : Engine σ) : Demand → Step σ Unit
  | insert now storage requests => e.insert now storage requests >>= fun _ => pure ()
  | delete storage keys => e.delete storage keys >>= fun _ => pure ()
  | load storage places => e.load storage places >>= fun _ => pure ()
  | deleteUnder storage roots => e.deleteUnder storage roots >>= fun _ => pure ()
  | move storage source destination => e.move storage source destination >>= fun _ => pure ()
  | prolong now storage paths userId days =>
      e.prolong now storage paths userId days >>= fun _ => pure ()
  | resolveAll id targets sids => e.resolveAll id targets sids >>= fun _ => pure ()
  | readable sids => e.readable sids >>= fun _ => pure ()

/-- The **valid** demands: the storage can exist, a batch is neither empty nor too large, and there is
nothing to object to in its items. -/
inductive Valid (maxBatch : Nat) : Demand → Prop
  | insert {now : Instant} {storage : StorageRef} {requests : List GrantRequest}
      (positive : 0 < storage.id) (size : 0 < requests.length ∧ requests.length ≤ maxBatch)
      (items : ∀ r ∈ requests, r.Valid) : Valid maxBatch (insert now storage requests)
  | delete {storage : StorageRef} {keys : List PermissionKey} (positive : 0 < storage.id)
      (size : 0 < keys.length ∧ keys.length ≤ maxBatch) (items : ∀ k ∈ keys, k.Valid) :
      Valid maxBatch (delete storage keys)
  | load {storage : StorageRef} {places : List PathRef} (positive : 0 < storage.id)
      (size : 0 < places.length ∧ places.length ≤ maxBatch)
      (items : ∀ r ∈ places, Path.Normalizable r.path) : Valid maxBatch (load storage places)
  | deleteUnder {storage : StorageRef} {roots : List PathRef} (positive : 0 < storage.id)
      (size : 0 < roots.length ∧ roots.length ≤ maxBatch)
      (items : ∀ r ∈ roots, Path.Normalizable r.path) : Valid maxBatch (deleteUnder storage roots)
  | move {storage : StorageRef} {source destination : PathRef} (positive : 0 < storage.id)
      (ends : source.ValidMove destination) : Valid maxBatch (move storage source destination)
  | prolong {now : Instant} {storage : StorageRef} {paths : List String} {userId : String}
      {days : UInt32} (positive : 0 < storage.id)
      (size : 0 < paths.length ∧ paths.length ≤ maxBatch)
      (items : ∀ path ∈ paths, Path.Normalizable path) (user : Text.blank userId = false)
      (some_days : days ≠ 0) (reached : ∃ till, now.addDays? days.toNat = some till) :
      Valid maxBatch (prolong now storage paths userId days)
  | resolveAll {id : StorageId} {targets : List PathRef} {sids : List Sid} (positive : 0 < id)
      (items : ∀ r ∈ targets, Path.Normalizable r.path) : Valid maxBatch (resolveAll id targets sids)
  | readable (sids : List Sid) : Valid maxBatch (readable sids)

end Demand

end Engine

end PathAcl
