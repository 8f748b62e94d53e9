import PathAcl.Engine.Listing
import PathAcl.Engine.Requests
import PathAcl.Proofs.Engine.Lifecycle
import PathAcl.Proofs.Engine.Moves
import PathAcl.Proofs.Memory.Points

/-! # Failures
An operation that fails leaves the table as it was. The store goes through all arguments before it
writes, and when it meets a storage of another kind it has not entered a new one; the engine checks the
whole batch before it asks the store, and nothing it does after the store has written can fail. -/

namespace PathAcl

open PathAcl.Action (Answers Atomic answers_log answers_pure)

/-! ## The table -/

namespace Memory

variable {α : Type}

/-- What does what a function of the table says is atomic. -/
theorem atomic_of_does {a : Action Memory StoreError α} {r : Memory → Except StoreError (α × Memory)}
    (does : ∀ m : Memory, m.Does a (r m)) : Atomic id a := by
  intro m e failed
  obtain ⟨answer, state⟩ := does m
  rw [answer] at failed
  cases result : r m with
  | ok both =>
      rw [result] at failed
      cases failed
  | error _ =>
      rw [result] at state
      exact state

/-- A batch of one row is answered with that row. -/
theorem upsert_singleton {m : Memory} {storage : StorageRef} {row : Permission}
    {kept : List Permission} (answered : ((store.upsert storage [row]).run m).answer = .ok kept) :
    kept = [row] := by
  rw [(run_upsert m storage [row]).1] at answered
  obtain ⟨m', made, -⟩ := (map_fst_eq_ok_iff m).1 answered
  exact (upsert_eq_ok_iff.1 made).2.1

/-- Prolongations are answered with the last one of each path. -/
theorem kept_of_prolong {m : Memory} {id : StorageId} {records kept : List Prolongation}
    (answered : ((store.prolong id records).run m).answer = .ok kept) :
    kept = Prolongation.keepLast records := by
  obtain ⟨_, -, rest⟩ := Action.answer_bind_eq_ok_iff.1 answered
  obtain ⟨_, -, rest⟩ := Action.answer_bind_eq_ok_iff.1 rest
  exact (Except.ok.inj rest).symm

/-- **Every call of the store is atomic.** -/
theorem atomic_store (c : Store.Call) : Atomic id (store.act c) := by
  cases c with
  | register storage => exact atomic_of_does fun m => run_register m storage
  | upsert storage rows => exact atomic_of_does fun m => run_upsert m storage rows
  | delete id keys => exact atomic_of_does fun m => run_delete m id keys
  | deleteUnder id roots => exact atomic_of_does fun m => run_deleteUnder m id roots
  | deleteUnderRoot id root => exact atomic_of_does fun m => run_deleteUnder m id [root]
  | relocate id source destination =>
      exact atomic_of_does fun m => run_relocate m id source destination
  | prolong id records => exact atomic_of_does fun m => run_prolong m id records
  | upsertOne storage row =>
      have batch : Atomic id (store.upsert storage [row]) :=
        atomic_of_does fun m => run_upsert m storage [row]
      -- one row is written, so the answer has a last row
      refine batch.before_answer fun m kept answered => ⟨row, ?_⟩
      rw [upsert_singleton answered]
      rfl
  | prolongOne record =>
      have batch : Atomic id (store.prolong record.storageId [record]) :=
        atomic_of_does fun m => run_prolong m record.storageId [record]
      refine batch.before_answer fun m kept answered => ⟨record, ?_⟩
      rw [kept_of_prolong answered]
      rfl
  | nearestProlongation id path =>
      exact .of_keeps fun m => Store.after_nearestProlongation m id path
  | kindOf | load | loadHeld | storagesHolding | prolongationsAt | prolongations | health =>
      exact .of_keeps fun m => rfl

end Memory

/-! ## The engine -/

namespace Engine

open Memory

variable {catalog : Catalog} {maxBatch : Nat} {ε α : Type}

/-- A question to the store is atomic in the table if it is in the store. -/
theorem atomic_asking {a : Action Memory StoreError α} (h : Atomic id a) :
    Atomic EngineState.store (asking a) := fun s e failed => h s.store e failed

/-- So is one on behalf of a request. -/
theorem atomic_onStore {a : Action Memory StoreError α} (h : Atomic id a) :
    Atomic EngineState.store (onStore a) := by
  intro s e failed
  cases answer : (a.run s.store).answer with
  | error e' => exact h s.store e' answer
  | ok x =>
      have answered : ((onStore a).run s).answer = .ok x := by
        rw [answer_onStore, answer]
        rfl
      rw [answered] at failed
      cases failed

/-- A note to the index never fails. -/
theorem answers_noteWrite (id : StorageId) (sids : List Sid) :
    Answers (noteWrite id sids : Step Memory Unit) :=
  fun s => ⟨(), (run_noteWrite s id sids).1⟩

/-- What follows a write never fails: the write is noted and reported. -/
theorem answers_noted (id : StorageId) (sids : List Sid) (event : Event) (x : α) :
    Answers (do noteWrite id sids; .log event; pure x : Step Memory α) :=
  (answers_noteWrite id sids).bind fun _ => (answers_log event).bind fun _ => answers_pure x

/-- The check of a storage leaves the table. -/
theorem store_confirm (storage : StorageRef) (s : EngineState Memory) :
    (((engine catalog maxBatch).confirm storage).run s).state.store = s.store :=
  congrArg EngineState.store (run_confirm storage).2

/-- A batch of writes is atomic if what the store is asked is: all checks are made before, and what is
done afterwards never fails. -/
theorem atomic_writeBatch {β : Type} {storage : StorageRef} {size : Except RequestError Unit}
    {items : Except RequestError β} {write : β → Action Memory StoreError α} {sids : α → List Sid}
    {event : β → α → Event} (h : ∀ b, Atomic id (write b)) :
    Atomic EngineState.store
      ((engine catalog maxBatch).writeBatch storage size items write sids event) := by
  refine .after_keeps (fun _ => rfl) fun _ => .after_keeps (fun _ => rfl) fun b => ?_
  refine .after_keeps (store_confirm storage) fun _ => ?_
  exact (atomic_onStore (h b)).before_answers fun x => answers_noted storage.id _ _ x

/-- Writing rows is atomic. -/
theorem atomic_insert (now : Instant) (storage : StorageRef) (requests : List GrantRequest) :
    Atomic EngineState.store ((engine catalog maxBatch).insert now storage requests) :=
  atomic_writeBatch fun rows => atomic_store (.upsert storage rows)

/-- Dropping rows is atomic. -/
theorem atomic_delete (storage : StorageRef) (keys : List PermissionKey) :
    Atomic EngineState.store ((engine catalog maxBatch).delete storage keys) :=
  atomic_writeBatch fun keys => atomic_store (.delete storage.id keys)

/-- Dropping subtrees is atomic. -/
theorem atomic_deleteUnder (storage : StorageRef) (roots : List PathRef) :
    Atomic EngineState.store ((engine catalog maxBatch).deleteUnder storage roots) :=
  atomic_writeBatch fun roots => atomic_store (.deleteUnder storage.id roots)

/-- Moving rows is atomic. -/
theorem atomic_move (storage : StorageRef) (source destination : PathRef) :
    Atomic EngineState.store ((engine catalog maxBatch).move storage source destination) := by
  refine .after_keeps (fun _ => rfl) fun ends => ?_
  obtain ⟨p, q⟩ := ends
  by_cases same : p = q
  · simp only [if_pos same]
    exact .of_keeps fun _ => rfl
  · simp only [if_neg same]
    refine .after_keeps (store_confirm storage) fun _ => ?_
    refine .before_answers (atomic_onStore (atomic_store (.relocate storage.id p q))) fun moved => ?_
    by_cases some_moved : 0 < moved
    · simp only [if_pos some_moved]
      exact answers_noted storage.id _ _ moved
    · simp only [if_neg some_moved]
      exact (answers_log _).bind fun _ => answers_pure moved

/-- Prolonging paths is atomic. -/
theorem atomic_prolong (now : Instant) (storage : StorageRef) (paths : List String)
    (userId : String) (days : UInt32) :
    Atomic EngineState.store ((engine catalog maxBatch).prolong now storage paths userId days) := by
  refine .after_keeps (fun _ => rfl) fun _ => ?_
  -- the range and the user are looked at before the store is asked
  by_cases zero : days = 0
  · simp only [if_pos zero]
    exact .of_keeps fun _ => rfl
  by_cases blank : Text.blank userId = true
  · simp only [if_neg zero, if_pos blank]
    exact .of_keeps fun _ => rfl
  simp only [if_neg zero, if_neg blank]
  refine .after_keeps (fun _ => rfl) fun paths => .after_keeps (fun _ => rfl) fun till => ?_
  refine .after_keeps (store_confirm storage) fun _ => ?_
  refine .before_answers (atomic_onStore (atomic_store (.prolong storage.id _))) fun written => ?_
  exact (answers_log _).bind fun _ => answers_pure written

/-- Prolonging one path is atomic. -/
theorem atomic_prolongOne (now : Instant) (storage : StorageRef) (path userId : String)
    (days : UInt32) :
    Atomic EngineState.store ((engine catalog maxBatch).prolongOne now storage path userId days) := by
  have batch := @atomic_prolong catalog maxBatch now storage [path] userId days
  -- the one record is picked out of the answer, where it is found
  refine batch.before_answer fun s written answered => ?_
  obtain ⟨record, rfl⟩ := prolong_singleton answered
  exact ⟨record, rfl⟩

/-- **Every call of an engine is atomic** in the table. -/
theorem atomic_act (c : Call) : Atomic EngineState.store ((engine catalog maxBatch).act c) := by
  cases c with
  | register storage => exact atomic_asking (atomic_store (.register storage))
  | insert now storage requests => exact atomic_insert now storage requests
  | delete storage keys => exact atomic_delete storage keys
  | deleteUnder storage roots => exact atomic_deleteUnder storage roots
  | deleteUnderRoot storage root => exact atomic_deleteUnder storage [root]
  | move storage source destination => exact atomic_move storage source destination
  | prolong now storage paths userId days => exact atomic_prolong now storage paths userId days
  | prolongOne now storage path userId days => exact atomic_prolongOne now storage path userId days
  | health | prolongations => exact .of_keeps fun _ => rfl
  | lookup id => exact .of_keeps fun s => congrArg EngineState.store (run_lookup id).2
  | confirm storage => exact .of_keeps (store_confirm storage)
  | load storage places =>
      exact .of_keeps fun s => congrArg EngineState.store (state_load storage places)
  | prolongationOf id path =>
      exact .of_keeps fun s => congrArg EngineState.store (state_prolongationOf id path)
  | resolve id target sids =>
      exact .of_keeps fun s => congrArg EngineState.store (state_resolve id target sids)
  | resolveAll id targets sids =>
      exact .of_keeps fun s => congrArg EngineState.store (state_resolveAll id targets sids)
  | readable sids => exact .of_keeps (store_readable sids)
  | overlay sids base =>
      exact .of_keeps fun s => (store_overlay _ sids base s).trans (store_readable sids s)

/-! ## Requests of callers -/

/-- An **operation** of an engine: a call, or what a request of a caller makes of calls. -/
inductive Operation {σ : Type} (e : Engine σ) :
    ∀ {ε α : Type}, Action (EngineState σ) ε α → Prop
  | call (c : Call) : Operation e (e.act c)
  | load (r : LoadRequest) : Operation e (e.answerLoad r)
  | insert (now : Instant) (r : InsertRequest) : Operation e (e.answerInsert now r)
  | delete (r : DeleteRequest) : Operation e (e.answerDelete r)
  | move (r : MoveRequest) : Operation e (e.answerMove r)
  | deleteAll (now : Instant) (r : DeleteAllRequest) (caller : Except RequestError (List Sid)) :
      Operation e (e.answerDeleteAll now r caller)
  | resolve (r : ResolveRequest) (caller : Except RequestError (List Sid)) :
      Operation e (e.answerResolve r caller)
  | list (caller : Except RequestError (List Sid))
      (base : List Sid → Except RequestError (List ListedStorage)) : Operation e (e.list caller base)

/-- Prolonging in the place of dropping is atomic. -/
theorem atomic_prolongInstead (now : Instant) (storage : StorageRef) (items : List PathRef)
    (days : UInt32) (caller : Except RequestError (List Sid)) :
    Atomic EngineState.store
      ((engine catalog maxBatch).prolongInstead now storage items days caller) := by
  refine .after_keeps (fun _ => rfl) fun user => .after_keeps (fun _ => rfl) fun types => ?_
  refine .before_answers (atomic_prolong now storage _ user.name days) fun written => ?_
  exact (answers_log _).bind fun _ => answers_pure _

/-- Asking for effective masks leaves the table, also if an item is bad. -/
theorem atomic_answerResolve (r : ResolveRequest) (caller : Except RequestError (List Sid)) :
    Atomic EngineState.store ((engine catalog maxBatch).answerResolve r caller) := by
  refine .after_keeps (fun _ => rfl) fun sids => ?_
  refine .after_keeps
    (fun s => congrArg EngineState.store (state_resolveAll r.storageId r.items sids)) fun masks => ?_
  refine .after_keeps (fun _ => rfl) fun _ => .after_keeps (fun _ => rfl) fun items => ?_
  exact .of_keeps fun _ => rfl

/-- Listing leaves the table. -/
theorem atomic_list (caller : Except RequestError (List Sid))
    (base : List Sid → Except RequestError (List ListedStorage)) :
    Atomic EngineState.store ((engine catalog maxBatch).list caller base) := by
  refine .after_keeps (fun _ => rfl) fun sids => .after_keeps (fun _ => rfl) fun base => ?_
  refine .before_answers (atomic_act (.overlay sids base)) fun listed => ?_
  exact (answers_log _).bind fun _ => answers_pure listed

/-- **Every operation of an engine is atomic** in the table. -/
theorem Operation.atomic {a : Action (EngineState Memory) ε α}
    (h : Operation (engine catalog maxBatch) a) : Atomic EngineState.store a := by
  cases h with
  | call c => exact atomic_act c
  | load r => exact (atomic_act (.load r.storage r.items)).before_answers fun _ => answers_pure _
  | insert now r => exact (atomic_insert now r.storage r.items).before_answers fun _ => answers_pure _
  | delete r => exact atomic_delete r.storage r.items
  | move r =>
      exact (atomic_move r.storage r.source r.destination).before_answers fun _ => answers_pure _
  | deleteAll now r caller =>
      unfold answerDeleteAll
      cases r.daysToProlong with
      | none => exact (atomic_deleteUnder r.storage r.items).before_answers fun _ => answers_pure _
      | some days =>
          have prolonging : Atomic EngineState.store ((engine catalog maxBatch).prolongInstead now
            r.storage r.items days caller) := atomic_prolongInstead now r.storage r.items days caller
          exact prolonging.before_answers fun _ => answers_pure _
  | resolve r caller => exact atomic_answerResolve r caller
  | list caller base => exact atomic_list caller base

/-- **Nothing fails halfway.** Whatever operation of an engine over the table fails, in whatever state,
the table is afterwards what it was before; and so it is whatever call of the table itself fails,
with whatever arguments. -/
theorem table_stays_of_error (catalog : Catalog) (maxBatch : Nat) :
    (∀ {ε α : Type} {a : Action (EngineState Memory) ε α}, Operation (engine catalog maxBatch) a →
      ∀ s e, (a.run s).answer = .error e → (a.run s).state.store = s.store) ∧
    ∀ (c : Store.Call) (m : Memory) e, ((Memory.store.act c).run m).answer = .error e →
      Memory.store.after m c = m := by
  refine ⟨fun operation => operation.atomic, fun c m e failed => ?_⟩
  rw [← Store.state_act]
  exact atomic_store c m e failed

/-- A batch of two items, the second of which is bad. -/
def halfBad : Call := .insert .epoch ⟨1, .s3⟩
  [⟨"b", .folder, .user "v", .read⟩, ⟨"b/../a", .file, .user "v", .read⟩]

/-- The batch is refused as a whole, a move to where rows are is too, and so is a write under another
kind: the table keeps its three rows. -/
theorem refused_writes_keep_table :
    (((engine .ofStore 10).act halfBad).run furnished).state.store = furnished.store ∧
      (((engine .ofStore 10).answerMove ⟨⟨1, .s3⟩, .folder "a", .folder "ab"⟩).run
        furnished).state.store = furnished.store ∧
      Memory.store.after furnished.store
        (.upsert ⟨1, .nfs⟩ [⟨"b", .folder, .user "v", .read, .epoch⟩]) = furnished.store ∧
      furnished.store.rowCount 1 = 3 := by
  obtain ⟨operations, calls⟩ := table_stays_of_error .ofStore 10
  refine ⟨?_, ?_, ?_, ?_⟩
  · exact operations (.call halfBad) furnished
      (.invalidPath "b/../a" Path.Malformed.relative.message) (by rfl)
  · exact operations (.move ⟨⟨1, .s3⟩, .folder "a", .folder "ab"⟩) furnished
      (.moveConflict 1 "ab") (by rfl)
  · exact calls (.upsert ⟨1, .nfs⟩ [⟨"b", .folder, .user "v", .read, .epoch⟩]) furnished.store
      (.kindMismatch 1 .s3 .nfs) (by rfl)
  · decide

end Engine

end PathAcl
