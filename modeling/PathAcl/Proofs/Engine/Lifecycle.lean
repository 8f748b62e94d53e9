import PathAcl.Proofs.Engine.Demands

/-! # Prolonging paths
A batch of prolongations goes through exactly if every check on its way passes, and then the table takes
in one record for each path. Whatever is known of the checks is told here once: what is written, when a
batch is answered, and when the calendar alone stands in its way. -/

namespace PathAcl.Engine

open Memory

variable {catalog : Catalog} {maxBatch : Nat} {s : EngineState Memory} {now till : Instant}
  {storage : StorageRef} {paths normals : List String} {userId : String} {days : UInt32}

/-- The records of a batch: one for each path. -/
def recordsOf (now : Instant) (storage : StorageRef) (userId : String) (days : UInt32)
    (normals : List String) (till : Instant) : List Prolongation :=
  normals.map fun path => ⟨storage.id, path, userId, till, days, now⟩

/-! ## The checks of a batch -/

/-- The span ends where the calendar says, if it reaches that far. -/
theorem prolongedUntil_eq_ok_iff :
    prolongedUntil now days = .ok till ↔ now.addDays? days.toNat = some till := by
  rw [prolongedUntil]
  cases now.addDays? days.toNat with
  | none => exact iff_of_false nofun nofun
  | some far => simp

/-- The records that a batch **asks for**, once days, user, paths and calendar have passed. -/
def askedRecords (now : Instant) (storage : StorageRef) (paths : List String) (userId : String)
    (days : UInt32) : Except RequestError (List Prolongation) := do
  if days = 0 then .error (.invalidInput "days to prolong must be positive") else pure ()
  if Text.blank userId then .error (.invalidInput "user id cannot be empty") else pure ()
  let normals ← paths.mapM Request.normalPath
  let till ← prolongedUntil now days
  pure (recordsOf now storage userId days normals till)

/-- Which records are asked for. -/
theorem askedRecords_eq_ok_iff {records : List Prolongation} :
    askedRecords now storage paths userId days = .ok records ↔
      (days ≠ 0 ∧ ¬ Text.blank userId = true) ∧ ∃ normals till,
        paths.mapM Request.normalPath = .ok normals ∧ now.addDays? days.toNat = some till ∧
          records = recordsOf now storage userId days normals till := by
  rw [askedRecords]
  by_cases zero : days = 0
  · simp only [if_pos zero]
    exact iff_of_false nofun fun h => h.1.1 zero
  by_cases blank : Text.blank userId = true
  · simp only [if_neg zero, if_pos blank]
    exact iff_of_false nofun fun h => h.1.2 blank
  simp only [if_neg zero, if_neg blank, ← prolongedUntil_eq_ok_iff]
  constructor
  · intro asked
    obtain ⟨normals, normal, asked⟩ := bind_eq_ok_iff.1 asked
    obtain ⟨till, reached, asked⟩ := bind_eq_ok_iff.1 asked
    exact ⟨⟨zero, blank⟩, normals, till, normal, reached, (Except.ok.inj asked).symm⟩
  · rintro ⟨-, normals, till, normal, reached, rfl⟩
    exact bind_eq_ok_iff.2 ⟨normals, normal, bind_eq_ok_iff.2 ⟨till, reached, rfl⟩⟩

/-- Prolonging checks first, then confirms the storage and asks the store for the records. -/
theorem prolong_eq {σ : Type} (e : Engine σ) (now : Instant) (storage : StorageRef)
    (paths : List String) (userId : String) (days : UInt32) :
    e.prolong now storage paths userId days = (do
      .ofExcept (Request.checkSize e.maxBatch paths.length)
      let records ← .ofExcept (askedRecords now storage paths userId days)
      e.confirm storage
      let written ← onStore (e.store.prolong storage.id records)
      .log (.prolonged storage.id written.length days)
      pure written) := by
  refine bind_congr fun _ => ?_
  rw [askedRecords]
  by_cases zero : days = 0
  · simp only [if_pos zero]
    rfl
  by_cases blank : Text.blank userId = true
  · simp only [if_neg zero, if_pos blank]
    rfl
  simp only [if_neg zero, if_neg blank]
  cases paths.mapM Request.normalPath with
  | error why => rfl
  | ok normals => cases prolongedUntil now days <;> rfl

/-- The stores accept the records that are asked for. -/
theorem stored_of_asked {records : List Prolongation}
    (asked : askedRecords now storage paths userId days = .ok records) :
    ∀ record ∈ records, Validity.checkProlongation storage.id record = .ok () := by
  obtain ⟨⟨some_days, user⟩, normals, till, normal, -, rfl⟩ := askedRecords_eq_ok_iff.1 asked
  intro record hrecord
  obtain ⟨path, hpath, rfl⟩ := List.mem_map.1 hrecord
  obtain ⟨text, -, taken⟩ := (mem_mapM_iff normal).1 hpath
  have path_ok := Validity.checkPath_eq_ok_iff.2
    (Path.check_of_normalize (Validity.mapError_eq_ok_iff.1 taken))
  simp only [Validity.checkProlongation, path_ok, user, some_days, ne_eq, not_true_eq_false, if_false]
  rfl

/-! ## Batches that go through -/

/-- A batch of prolongations **goes through** if its size is right, there are days and a user, the paths
have normal forms, the calendar reaches far enough and the storage is the one it is taken for. -/
structure Prolongs (catalog : Catalog) (maxBatch : Nat) (s : EngineState Memory) (now : Instant)
    (storage : StorageRef) (paths : List String) (userId : String) (days : UInt32)
    (normals : List String) (till : Instant) : Prop where
  size : Request.checkSize maxBatch paths.length = .ok ()
  some_days : days ≠ 0
  user : ¬ Text.blank userId = true
  normal : paths.mapM Request.normalPath = .ok normals
  reached : now.addDays? days.toNat = some till
  named : catalog.kindOf s.store storage.id = some storage.kind
  positive : 0 < storage.id

namespace Prolongs

variable (h : Prolongs catalog maxBatch s now storage paths userId days normals till)

include h

/-- A normal form is the one of some path of the batch. -/
theorem mem_normals_iff {path : String} :
    path ∈ normals ↔ ∃ text ∈ paths, Path.normalize text = .ok path := by
  rw [mem_mapM_iff h.normal]
  simp only [Request.normalPath, Validity.mapError_eq_ok_iff]

/-- Its records are asked for. -/
theorem asked : askedRecords now storage paths userId days =
    .ok (recordsOf now storage userId days normals till) :=
  askedRecords_eq_ok_iff.2 ⟨⟨h.some_days, h.user⟩, normals, till, h.normal, h.reached, rfl⟩

/-- What such a batch does: the table takes its records in, and nothing else changes. -/
theorem run :
    let o := ((engine catalog maxBatch).prolong now storage paths userId days).run s
    let records := recordsOf now storage userId days normals till
    o.answer = .ok (Prolongation.keepLast records) ∧
      ∃ m, s.store.prolong storage.id records = .ok (Prolongation.keepLast records, m) ∧
        o.state = ⟨m, s.index⟩ := by
  intro o records
  have size : Request.checkSize (engine catalog maxBatch).maxBatch paths.length = .ok () := h.size
  obtain ⟨confirmed, kept⟩ := @run_confirm catalog maxBatch s storage
  have made := (@prolong_eq_ok_iff s.store _ storage.id records _).2
    ⟨⟨h.positive, stored_of_asked h.asked⟩, rfl, rfl⟩
  obtain ⟨answer, state⟩ := run_prolong s.store storage.id records
  let rest : Step Memory (List Prolongation) := onStore (Memory.store.prolong storage.id records) >>=
    fun written => .log (.prolonged storage.id written.length days) >>= fun _ => pure written
  have passed : o.answer = (rest.run s).answer ∧ o.state = (rest.run s).state := by
    simp only [o, prolong_eq]
    rw [(Action.run_ofExcept_of_ok size).1, (Action.run_ofExcept_of_ok size).2,
      (Action.run_ofExcept_of_ok h.asked).1, (Action.run_ofExcept_of_ok h.asked).2]
    exact Action.run_bind_of_ok (confirmed.2 h.named) kept
  rw [passed.1, passed.2, Action.answer_bind, Action.state_bind, answer_onStore, state_onStore, answer,
    state, made]
  exact ⟨rfl, _, rfl, rfl⟩

end Prolongs

/-- A batch that is answered went through. -/
theorem prolongs_of_answer {written : List Prolongation}
    (answered : (((engine catalog maxBatch).prolong now storage paths userId days).run s).answer =
      .ok written) :
    ∃ normals till, Prolongs catalog maxBatch s now storage paths userId days normals till := by
  rw [prolong_eq] at answered
  obtain ⟨_, size, h⟩ := Action.answer_bind_eq_ok_iff.1 answered
  obtain ⟨records, asked, h⟩ := Action.answer_bind_eq_ok_iff.1 h
  obtain ⟨_, confirmed, h⟩ := Action.answer_bind_eq_ok_iff.1 h
  obtain ⟨stored, wrote, -⟩ := Action.answer_bind_eq_ok_iff.1 h
  obtain ⟨⟨some_days, user⟩, normals, till, normal, reached, -⟩ := askedRecords_eq_ok_iff.1 asked
  have named := (@run_confirm catalog maxBatch s storage).1.1 confirmed
  refine ⟨normals, till, size, some_days, user, normal, reached, named, ?_⟩
  -- the store looks at the id first of all
  rw [answer_onStore, Validity.mapError_eq_ok_iff] at wrote
  obtain ⟨_, checked, -⟩ := Action.answer_bind_eq_ok_iff.1 wrote
  exact Validity.checkStorageId_eq_ok_iff.1 (require_eq_ok_iff.1 checked)

/-- Whoever prolongs one path is answered one record. -/
theorem prolong_singleton {path : String} {written : List Prolongation}
    (answered : (((engine catalog maxBatch).prolong now storage [path] userId days).run s).answer =
      .ok written) : ∃ record, written = [record] := by
  obtain ⟨normals, till, through⟩ := prolongs_of_answer answered
  -- one path has one normal form, so one record is made
  obtain ⟨normal, -, rfl⟩ := mapM_singleton_eq_ok_iff.1 through.normal
  exact ⟨_, Except.ok.inj (answered.symm.trans through.run.1)⟩

/-- A batch to which there is nothing else to object fails just if its days lead out of the calendar. -/
theorem prolong_fails_iff (size : 0 < paths.length ∧ paths.length ≤ maxBatch)
    (items : ∀ path ∈ paths, Path.Normalizable path) (user : Text.blank userId = false)
    (some_days : 0 < days) (named : catalog.kindOf s.store storage.id = some storage.kind)
    (positive : 0 < storage.id) :
    (∃ e, (((engine catalog maxBatch).prolong now storage paths userId days).run s).answer =
        .error e) ↔
      (Calendar.lastDay + 1) * secondsPerDay ≤ now.seconds + days.toNat * secondsPerDay := by
  rw [← Instant.addDays?_eq_none_iff]
  cases reached : now.addDays? days.toNat with
  | some till =>
      obtain ⟨normals, taken, -⟩ :=
        exists_mapM_eq_ok fun path hp => Request.exists_normalPath (items path hp)
      have through : Prolongs catalog maxBatch s now storage paths userId days normals till :=
        ⟨Request.checkSize_eq_ok_iff.2 size, UInt32.pos_iff_ne_zero.1 some_days,
          Bool.eq_false_iff.1 user, taken, reached, named, positive⟩
      rw [through.run.1]
      exact iff_of_false nofun nofun
  | none =>
      refine iff_of_true ?_ rfl
      cases answered :
          (((engine catalog maxBatch).prolong now storage paths userId days).run s).answer with
      | error e => exact ⟨e, rfl⟩
      | ok written =>
          obtain ⟨normals, till, through⟩ := prolongs_of_answer answered
          cases reached.symm.trans through.reached

end PathAcl.Engine
