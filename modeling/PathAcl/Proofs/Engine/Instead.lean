import PathAcl.Engine.Requests
import PathAcl.Proofs.Database.Discipline
import PathAcl.Proofs.Engine.Revocation
import PathAcl.Proofs.Engine.Lifecycle
import PathAcl.Proofs.Memory.Points
import PathAcl.Proofs.Memory.Prolongations

/-! # Prolonging instead of dropping
A request to drop what lies under some paths may ask to prolong the paths instead. It reads the paths twice:
once to know how each of them is taken, and once to write the records, of which the store keeps one for
each path. Both readings give the same normal forms, so every record finds the type of its path. -/

namespace PathAcl

open Memory (bind_eq_ok_iff)

namespace Engine

variable {σ : Type} {e : Engine σ} {s : EngineState σ} {now : Instant} {storage : StorageRef}
  {items normals : List PathRef} {days : UInt32} {caller : Except RequestError (List Sid)}
  {answer : DeleteAllAnswer} {user : Sid} {types : SortedMap String PathType}
  {records written : List Prolongation}

/-- What a request to drop some items **is answered if it prolongs them instead**, and what is written. -/
structure ProlongedInstead (now : Instant) (storage : StorageRef) (items : List PathRef)
    (days : UInt32) (caller : Except RequestError (List Sid)) (answer : DeleteAllAnswer)
    (written : List Prolongation) : Prop where
  /-- Nothing is dropped. -/
  removed : answer.removed = []
  /-- Each path is listed once, where it first occurs, and as the last item of that path takes it. -/
  prolonged : ∃ normals, items.mapM Request.normalRef = .ok normals ∧
    answer.prolonged.map PathRef.path = (normals.map PathRef.path).eraseDups ∧
      ∀ item ∈ answer.prolonged, normals.reverse.find? (fun n => n.path = item.path) = some item
  /-- A record is written for each listed path, in the name of the first user of the caller. -/
  written : ∃ sids user till, caller = .ok sids ∧ sids.find? (fun sid => sid.type == .user) = some user ∧
    now.addDays? days.toNat = some till ∧
      written = answer.prolonged.map fun item => ⟨storage.id, item.path, user.name, till, days, now⟩

/-! ## The two readings -/

/-- The paths of items are read as the items are. -/
theorem mapM_normalPath (normal : items.mapM Request.normalRef = .ok normals) :
    (items.map PathRef.path).mapM Request.normalPath = .ok (normals.map PathRef.path) := by
  rw [mapM_eq_ok_iff_forall₂] at normal ⊢
  rw [List.forall₂_map_left_iff, List.forall₂_map_right_iff]
  refine normal.imp fun item place taken => ?_
  exact Validity.mapError_eq_ok_iff.2 (normalRef_eq_ok_iff.1 taken).1

/-- Under each path is the type of the last item that names it. -/
theorem find?_typesByPath (typed : typesByPath items = .ok types) :
    ∃ normals, items.mapM Request.normalRef = .ok normals ∧ ∀ path,
      types.find? path = (normals.reverse.find? fun n => n.path = path).map PathRef.type := by
  obtain ⟨normals, normal, made⟩ := bind_eq_ok_iff.1 typed
  obtain rfl := Except.ok.inj made
  refine ⟨normals, normal, fun path => ?_⟩
  rw [SortedMap.find?_foldl_insert_last PathRef.path PathRef.type]
  exact Option.or_none

/-- An item that is made of a path and its type is the last item of the path. -/
theorem find?_reverse_item {path : String} (here : path ∈ normals.map PathRef.path)
    (typed : types.find? path = (normals.reverse.find? fun n => n.path = path).map PathRef.type) :
    normals.reverse.find? (fun n => n.path = path) =
      some ⟨path, (types.find? path).getD .folder⟩ := by
  cases found : normals.reverse.find? (fun n => n.path = path) with
  | none =>
      obtain ⟨n, hn, rfl⟩ := List.mem_map.1 here
      exact absurd (decide_eq_true rfl) (List.find?_eq_none.1 found n (List.mem_reverse.2 hn))
  | some n =>
      have decided := List.find?_some found
      obtain rfl : n.path = path := of_decide_eq_true decided
      rw [typed, found]
      rfl

/-- The first user is found among the sids of a caller who has one. -/
theorem find?_firstUser (found : (caller >>= firstUser) = .ok user) :
    ∃ sids, caller = .ok sids ∧ sids.find? (fun sid => sid.type == .user) = some user := by
  obtain ⟨sids, known, first⟩ := bind_eq_ok_iff.1 found
  refine ⟨sids, known, ?_⟩
  rw [firstUser] at first
  cases h : sids.find? fun sid => sid.type == .user with
  | none =>
      rw [h] at first
      cases first
  | some u =>
      rw [h] at first
      exact congrArg some (Except.ok.inj first)

/-! ## What is asked of the store -/

/-- A request **passes** with a user, types and records if its own checks find them. -/
structure Passes (e : Engine σ) (now : Instant) (storage : StorageRef) (items : List PathRef)
    (days : UInt32) (caller : Except RequestError (List Sid)) (user : Sid)
    (types : SortedMap String PathType) (records : List Prolongation) : Prop where
  found : (caller >>= firstUser) = .ok user
  typed : typesByPath items = .ok types
  size : Request.checkSize e.maxBatch (items.map PathRef.path).length = .ok ()
  asked : askedRecords now storage (items.map PathRef.path) user.name days = .ok records

/-- The answer that is made of the records written. -/
def insteadOf (types : SortedMap String PathType) (written : List Prolongation) : DeleteAllAnswer :=
  ⟨[], written.map fun p => ⟨p.path, (types.find? p.path).getD .folder⟩⟩

/-- An answered request passed. -/
theorem exists_passes
    (answered : ((e.answerDeleteAll now ⟨storage, items, some days⟩ caller).run s).answer =
      .ok answer) :
    ∃ user types records, e.Passes now storage items days caller user types records := by
  obtain ⟨listed, answered, -⟩ := Action.answer_bind_eq_ok_iff.1 answered
  obtain ⟨user, found, answered⟩ := Action.answer_bind_eq_ok_iff.1 answered
  obtain ⟨types, typed, answered⟩ := Action.answer_bind_eq_ok_iff.1 answered
  obtain ⟨written, prolonged, -⟩ := Action.answer_bind_eq_ok_iff.1 answered
  rw [prolong_eq] at prolonged
  obtain ⟨_, size, prolonged⟩ := Action.answer_bind_eq_ok_iff.1 prolonged
  obtain ⟨records, asked, -⟩ := Action.answer_bind_eq_ok_iff.1 prolonged
  exact ⟨user, types, records, found, typed, size, asked⟩

namespace Passes

variable (h : e.Passes now storage items days caller user types records)

include h

/-- What is left to do: the storage is confirmed, and the records are written. -/
theorem answerDeleteAll_eq :
    e.answerDeleteAll now ⟨storage, items, some days⟩ caller = (do
      e.confirm storage
      let written ← onStore (e.store.prolong storage.id records)
      .log (.prolonged storage.id written.length days)
      .log (.prolongedInstead storage.id user.name days)
      pure (insteadOf types written)) := by
  simp only [answerDeleteAll, prolongInstead, prolong_eq, h.found, h.typed, h.size, h.asked,
    Action.ofExcept_ok_bind, bind_assoc, pure_bind]
  rfl

/-- So an answered request has written its records, and done nothing else after the storage was confirmed. -/
theorem run_of_answer
    (answered : ((e.answerDeleteAll now ⟨storage, items, some days⟩ caller).run s).answer =
      .ok answer) :
    let o := (e.store.prolong storage.id records).run ((e.confirm storage).run s).state.store
    ((e.confirm storage).run s).answer = .ok () ∧
      ∃ written, o.answer = .ok written ∧ answer = insteadOf types written ∧
        ((e.answerDeleteAll now ⟨storage, items, some days⟩ caller).run s).state =
          ⟨o.state, ((e.confirm storage).run s).state.index⟩ := by
  intro o
  rw [h.answerDeleteAll_eq] at answered ⊢
  obtain ⟨_, confirmed, answered⟩ := Action.answer_bind_eq_ok_iff.1 answered
  obtain ⟨written, wrote, answered⟩ := Action.answer_bind_eq_ok_iff.1 answered
  refine ⟨confirmed, written, Validity.mapError_eq_ok_iff.1 wrote, ?_, ?_⟩
  · exact (Except.ok.inj answered).symm
  · rw [(Action.run_bind_of_ok confirmed rfl).2, (Action.run_bind_of_ok wrote rfl).2]
    rfl

/-- There is a record to write, for a batch is not empty. -/
theorem some_record : records ≠ [] := by
  obtain ⟨-, normals, till, normal, -, rfl⟩ := askedRecords_eq_ok_iff.1 h.asked
  have length := (mapM_eq_ok_iff_forall₂.1 normal).length_eq
  have positive := (Request.checkSize_eq_ok_iff.1 h.size).1
  intro none
  rw [List.map_eq_nil_iff.1 none, List.length_nil] at length
  omega

/-- **If the last record of each path is written**, the answer is as it should be. -/
theorem prolongedInstead :
    ProlongedInstead now storage items days caller
      (insteadOf types (Prolongation.keepLast records)) (Prolongation.keepLast records) := by
  obtain ⟨normals, normal, typed⟩ := find?_typesByPath h.typed
  obtain ⟨sids, known, first⟩ := find?_firstUser h.found
  obtain ⟨-, paths, till, read, reached, rfl⟩ := askedRecords_eq_ok_iff.1 h.asked
  obtain rfl := Except.ok.inj ((mapM_normalPath normal).symm.trans read)
  -- the records differ in their paths alone, so one is kept for each path
  have kept : Prolongation.keepLast
      (recordsOf now storage user.name days (normals.map PathRef.path) till) =
        (normals.map PathRef.path).eraseDups.map
          fun path => ⟨storage.id, path, user.name, till, days, now⟩ :=
    keepLast_map (fun _ => rfl) _
  rw [kept]
  refine ⟨rfl, ⟨normals, normal, ?_, fun item hitem => ?_⟩, sids, user, till, known, first, reached, ?_⟩
  · simp [insteadOf, Function.comp_def]
  · simp only [insteadOf, List.map_map, List.mem_map, List.mem_eraseDups] at hitem
    obtain ⟨path, here, rfl⟩ := hitem
    exact find?_reverse_item (List.mem_map.2 here) (typed path)
  · simp [insteadOf, Function.comp_def]

end Passes

/-! ## Table and database -/

/-- A table that answers has kept the last record of each path, and its rows are as they were. -/
theorem prolong_in_memory {m : Memory} {id : StorageId}
    (wrote : ((Memory.store.prolong id records).run m).answer = .ok written) :
    written = Prolongation.keepLast records ∧
      ((Memory.store.prolong id records).run m).state.storages = m.storages ∧
      ∀ i path, ((Memory.store.prolong id records).run m).state.record? i path =
        if i = id then (written.find? fun p => p.path = path).or (m.record? i path)
        else m.record? i path := by
  obtain ⟨answer, state⟩ := Memory.run_prolong m id records
  rw [answer, Memory.map_fst_eq_ok_iff m] at wrote
  obtain ⟨m', made, settled⟩ := wrote
  rw [state, settled]
  have kept := made
  obtain ⟨-, rfl, rfl⟩ := Memory.prolong_eq_ok_iff.1 kept
  refine ⟨rfl, rfl, fun i path => ?_⟩
  rw [Prolongation.keepLast, find?_keepLast]
  exact Memory.record?_of_prolong made i path

open Database in
/-- A database that answers was sent one transaction that writes the last record of each path. -/
theorem prolong_in_database {c : Connection} {id : StorageId} (some_record : records ≠ [])
    (wrote : ((Connection.store.prolong id records).run c).answer = .ok written) :
    written = Prolongation.keepLast records ∧ ∃ said column,
      ((Connection.store.prolong id records).run c).state.sent = c.sent ++ said ∧
        daysColumn written = .ok column ∧ Committed said ∧
          said.map Exchange.statement = [beginStatement, about Sql.lock id [],
            about Sql.writeProlongations id (prolongationColumns written column), commitStatement] := by
  have kept_some : Prolongation.keepLast records ≠ [] := mt keepLast_eq_nil_iff.1 some_record
  -- an answer says that the records have passed all checks
  obtain ⟨_, known, rest⟩ := Action.answer_bind_eq_ok_iff.1 wrote
  obtain ⟨_, valid, rest⟩ := Action.answer_bind_eq_ok_iff.1 rest
  rw [if_neg (mt List.isEmpty_iff.1 kept_some)] at rest
  obtain ⟨column, fits, rest⟩ := Action.answer_bind_eq_ok_iff.1 rest
  obtain ⟨_, -, same⟩ := Action.answer_bind_eq_ok_iff.1 rest
  obtain rfl := Except.ok.inj same
  have column_ok := Validity.mapError_eq_ok_iff.1 fits
  have send : (Connection.Write.prolong id records).HasToSend :=
    ⟨Validity.mapError_eq_ok_iff.1 known, Validity.mapError_eq_ok_iff.1 valid, some_record,
      daysColumn_eq_ok_iff.1 ⟨column, column_ok⟩⟩
  -- so it has spoken the dialogue, which is one transaction
  obtain ⟨column', column_ok', speaks⟩ := Connection.Write.speaks_prolong send
  obtain rfl := Except.ok.inj (column_ok.symm.trans column_ok')
  obtain ⟨sent, answers⟩ := speaks c
  obtain ⟨x, result⟩ := answers () (Action.run_bind_of_ok wrote rfl).1
  have state : ((Connection.Write.prolong id records).perform.run c).state =
      ((Connection.store.prolong id records).run c).state := (Action.run_bind_of_ok wrote rfl).2
  have committed := ((framed_prolong id _ column).sealed.committed_iff c.peer).2 ⟨x, result⟩
  refine ⟨rfl, _, column, state ▸ sent, column_ok, committed, ?_⟩
  obtain ⟨left, said, held⟩ : ∃ left said,
      (Database.prolong id (Prolongation.keepLast records) column).hold c.peer =
        ⟨some (.ok x), left, said⟩ := ⟨_, _, congrArg (Spoken.mk · _ _) result⟩
  rw [held]
  obtain ⟨begun, locked, kept, before, after, inside, worked, rfl⟩ := hold_transaction held
  obtain ⟨_, _, _, _, asked, done, rfl⟩ := Dialogue.hold_bind_eq_ok worked
  obtain rfl := Dialogue.sent_of_request asked
  obtain ⟨-, -, rfl⟩ := Spoken.mk.inj done
  rfl

/-! ## Answered requests -/

open Database in
/-- **Prolonging instead of dropping**, over a table and over a database. Whoever is answered loses nothing,
and is told each distinct path once, in the order of the items and with the type that the last item gives
it. A record is written for each of these paths in the name of the first user of the caller, and no
permission row is touched: the table keeps its storages, and the database is sent nothing but questions
for the kind of the storage and one transaction that writes the records. -/
theorem answerDeleteAll_prolongs (catalog : Catalog) (maxBatch : Nat) (now : Instant)
    (storage : StorageRef) (items : List PathRef) (days : UInt32)
    (caller : Except RequestError (List Sid)) (answer : DeleteAllAnswer) :
    (∀ s : EngineState Memory,
      let o := ((Memory.engine catalog maxBatch).answerDeleteAll now ⟨storage, items, some days⟩
        caller).run s
      o.answer = .ok answer →
        ∃ written, ProlongedInstead now storage items days caller answer written ∧
          o.state.store.storages = s.store.storages ∧ ∀ i path,
            o.state.store.record? i path = if i = storage.id then
              (written.find? fun p => p.path = path).or (s.store.record? i path)
            else s.store.record? i path) ∧
    ∀ s : EngineState Connection,
      let o := ((Connection.engine catalog maxBatch).answerDeleteAll now ⟨storage, items, some days⟩
        caller).run s
      o.answer = .ok answer →
        ∃ written, ProlongedInstead now storage items days caller answer written ∧
          ∃ asked said column, o.state.store.sent = s.store.sent ++ (asked ++ said) ∧
            (∀ x ∈ asked, x.statement.sql = Sql.kindOf) ∧
            daysColumn written = .ok column ∧ Committed said ∧
              said.map Exchange.statement = [beginStatement, about Sql.lock storage.id [],
                about Sql.writeProlongations storage.id (prolongationColumns written column),
                commitStatement] := by
  constructor
  · intro s o answered
    obtain ⟨user, types, records, passes⟩ := exists_passes answered
    obtain ⟨-, written, wrote, rfl, state⟩ := passes.run_of_answer answered
    have kept : (((Memory.engine catalog maxBatch).confirm storage).run s).state = s :=
      (run_confirm storage).2
    rw [kept] at wrote state
    obtain ⟨rfl, rows, recorded⟩ := prolong_in_memory wrote
    refine ⟨_, passes.prolongedInstead, ?_⟩
    simp only [o, state]
    exact ⟨rows, recorded⟩
  · intro s o answered
    obtain ⟨user, types, records, passes⟩ := exists_passes answered
    obtain ⟨-, written, wrote, rfl, state⟩ := passes.run_of_answer answered
    obtain ⟨rfl, said, column, sent, fits, committed, statements⟩ :=
      prolong_in_database passes.some_record wrote
    obtain ⟨asked, confirmed, only, -⟩ := @said_confirm catalog maxBatch storage s
    refine ⟨_, passes.prolongedInstead, asked, said, column, ?_, ?_, fits, committed, statements⟩
    · simp only [o, state]
      rw [← List.append_assoc, ← confirmed]
      exact sent
    · exact fun x hx => List.mem_singleton.1 (only x hx)

/-- Three items that name two paths, the first of them as a folder and then as a file. -/
def twicePlaced : List PathRef := [⟨"a/", .folder⟩, ⟨"b", .file⟩, ⟨"/a", .file⟩]

/-- Both are prolonged as files, in a table and in a database. -/
theorem answerDeleteAll_prolongs_twicePlaced :
    let caller := .ok [⟨"g", .group⟩, ⟨"u", .user⟩, ⟨"v", .user⟩]
    let answer : DeleteAllAnswer := ⟨[], [⟨"a", .file⟩, ⟨"b", .file⟩]⟩
    (∃ written, ProlongedInstead .epoch ⟨1, .s3⟩ twicePlaced 30 caller answer written ∧
      (((Memory.engine (.external fun _ => .ok (some .s3)) 10).answerDeleteAll .epoch
        ⟨⟨1, .s3⟩, twicePlaced, some 30⟩ caller).run ⟨∅, none⟩).state.store.storages = ∅) ∧
      ∃ written, ProlongedInstead .epoch ⟨1, .s3⟩ twicePlaced 30 caller answer written := by
  intro caller answer
  obtain ⟨inMemory, inDatabase⟩ := answerDeleteAll_prolongs (.external fun _ => .ok (some .s3)) 10
    .epoch ⟨1, .s3⟩ twicePlaced 30 caller answer
  obtain ⟨written, prolonged, rows, -⟩ := inMemory ⟨∅, none⟩ (by decide +kernel)
  obtain ⟨others, prolongedToo, -⟩ := inDatabase ⟨.plain (.script []), none⟩ (by decide +kernel)
  exact ⟨⟨written, prolonged, rows⟩, others, prolongedToo⟩

end Engine

end PathAcl
