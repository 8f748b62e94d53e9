import PathAcl.Proofs.Database.Writes
import PathAcl.Proofs.Engine.Sessions

/-! # Revocation in a session
Once a batch of rows was written or dropped in the database, listings do not come from answers that
were remembered before and name its storage. This fails in one case: the database returned an unreadable
row, the request failed after the COMMIT, and the index was never told of the write. -/

namespace PathAcl

open Database

namespace Connection

/-- Asking for a kind says nothing else. -/
theorem tells_kindOf (id : StorageId) :
    Tells (fun said _ => ∀ x ∈ said, x.statement.sql ∈ [Sql.kindOf]) (kindOf id) := by
  have only : (Database.kindOf id).SaysOnly [Sql.kindOf] := by
    refine .bind (saysOnly_queryRows (List.mem_singleton_self _) _ _) fun rows => ?_
    cases rows with
    | nil => exact .done _
    | cons row rows => exact .bind (.done _) fun _ => .done _
  have read : Tells (fun said _ => ∀ x ∈ said, x.statement.sql ∈ [Sql.kindOf])
      (reading .storageKind (Database.kindOf id)) :=
    .timed (fun peer _ _ => only.sent peer) fun peer _ _ => only.sent peer
  refine read.bind (fun said e told => told) fun text? => ?_
  cases text? with
  | none => exact .answer fun said told => by rwa [List.append_nil]
  | some text =>
      refine .ofExcept_bind (fun e _ said told => by rwa [List.append_nil]) fun kind _ => ?_
      exact .answer fun said told => by rwa [List.append_nil]

end Connection

namespace Engine

variable {catalog : Catalog} {maxBatch : Nat} {s t u : EngineState Connection}

/-! ## What a write of a batch leaves -/

/-- The index **accounts** for what a write to a storage said: if that was committed, either the index
took note of the write, or an unreadable row was returned and the index is as it was. -/
structure Accounts (id : StorageId) (said : List Exchange) (s t : EngineState Connection) : Prop where
  sent : t.store.sent = s.store.sent ++ said
  missed : Committed said → ReturnedUnreadable said → t.index = s.index
  noted : Committed said → ¬ ReturnedUnreadable said → ∃ sids, t.index = noted s.index id sids

/-- Where nothing is committed there is nothing to account for. -/
theorem accounts_of_not_committed {id : StorageId} {said : List Exchange}
    (sent : t.store.sent = s.store.sent ++ said) (h : ¬ Committed said) : Accounts id said s t :=
  ⟨sent, fun committed => absurd committed h, fun committed => absurd committed h⟩

/-- Whatever was said, it is accounted for. -/
def Accounted (id : StorageId) (s t : EngineState Connection) : Prop := ∃ said, Accounts id said s t

/-- If nothing was said there is nothing to account for. -/
theorem accounted_refl (id : StorageId) (s : EngineState Connection) : Accounted id s s :=
  ⟨[], accounts_of_not_committed (List.append_nil _).symm not_committed_nil⟩

/-- The check of a storage commits nothing, drops no rows and keeps the index. -/
theorem said_confirm (storage : StorageRef) (s : EngineState Connection) :
    ∃ said, (((Connection.engine catalog maxBatch).confirm storage).run s).state.store.sent =
        s.store.sent ++ said ∧ (∀ x ∈ said, x.statement.sql ∈ [Sql.kindOf]) ∧
      (((Connection.engine catalog maxBatch).confirm storage).run s).state.index = s.index := by
  have looked : ∃ said, (((Connection.engine catalog maxBatch).lookup storage.id).run s).state.store.sent =
        s.store.sent ++ said ∧ (∀ x ∈ said, x.statement.sql ∈ [Sql.kindOf]) ∧
      (((Connection.engine catalog maxBatch).lookup storage.id).run s).state.index = s.index := by
    cases catalog with
    | ofStore =>
        obtain ⟨said, sent, only⟩ := Connection.tells_kindOf storage.id s.store
        exact ⟨said, sent, only, rfl⟩
    | external ask =>
        exact ⟨[], (List.append_nil _).symm, fun x hx => absurd hx List.not_mem_nil, rfl⟩
  rw [confirm, Action.state_bind]
  cases (((Connection.engine catalog maxBatch).lookup storage.id).run s).answer with
  | error e => exact looked
  | ok kind? =>
      cases kind? with
      | none => exact looked
      | some kind =>
          by_cases same : kind = storage.kind
          · simp only [if_pos same]
            exact looked
          · simp only [if_neg same]
            exact looked

/-- **A settled write that is noted if it answers** is accounted for. -/
theorem accounts_write {α : Type} {op : Action Connection StoreError α}
    (settled : Connection.Tells Connection.Settled op) (storage : StorageRef) (sids : α → List Sid)
    (event : α → Event) (s : EngineState Connection) :
    Accounted storage.id s
      (((Connection.engine catalog maxBatch).confirm storage >>= fun _ => onStore op >>= fun x =>
        noteWrite storage.id (sids x) >>= fun _ => .log (event x) >>= fun _ => pure x).run s).state := by
  obtain ⟨asked, sent, only, index⟩ := @said_confirm catalog maxBatch storage s
  have uncommitted : ¬ Committed asked := by
    rintro ⟨rows, affected, here⟩
    exact absurd (only _ here) (by decide : Sql.commit ∉ [Sql.kindOf])
  have undropped : ¬ ReturnedUnreadable asked := not_returnedUnreadable only (by decide)
  rw [Action.state_bind]
  generalize (((Connection.engine catalog maxBatch).confirm storage).run s).state = t at sent index
  cases (((Connection.engine catalog maxBatch).confirm storage).run s).answer with
  | error e => exact ⟨asked, accounts_of_not_committed sent uncommitted⟩
  | ok _ =>
      obtain ⟨said, more, told⟩ := settled t.store
      have all : (op.run t.store).state.sent = s.store.sent ++ (asked ++ said) := by
        rw [more, sent, List.append_assoc]
      -- only the write itself can have committed anything or got a row back
      have committed_iff : Committed (asked ++ said) ↔ Committed said :=
        committed_append.trans (or_iff_right uncommitted)
      have unreadable_iff : ReturnedUnreadable (asked ++ said) ↔ ReturnedUnreadable said :=
        returnedUnreadable_append.trans (or_iff_right undropped)
      have answer : ((onStore op).run t).answer = (op.run t.store).answer.mapError .ofStore := rfl
      have state : ((onStore op).run t).state = ⟨(op.run t.store).state, t.index⟩ := rfl
      simp only [Action.state_bind, answer, state]
      cases result : (op.run t.store).answer with
      | error e =>
          rw [result] at told
          refine ⟨asked ++ said, all, fun _ _ => index, fun committed readable => ?_⟩
          exact absurd ((told (committed_iff.1 committed)).1 ⟨e, rfl⟩) (mt unreadable_iff.2 readable)
      | ok x =>
          rw [result] at told
          obtain ⟨put, left⟩ := run_noteWrite ⟨(op.run t.store).state, t.index⟩ storage.id (sids x)
          have passed : (.ok x : Except StoreError _).mapError RequestError.ofStore = .ok x := rfl
          simp only [passed, put, left]
          refine ⟨asked ++ said, all, fun committed unreadable => ?_, fun _ _ => ⟨sids x, ?_⟩⟩
          · obtain ⟨e, same⟩ :=
              (told (committed_iff.1 committed)).2 (unreadable_iff.1 unreadable)
            cases same
          · exact congrArg (noted · storage.id (sids x)) index

/-! ## Batches -/

/-- A request that writes or drops rows of one storage. -/
inductive BatchWrite
  | insert (now : Instant) (storage : StorageRef) (requests : List GrantRequest)
  | delete (storage : StorageRef) (keys : List PermissionKey)
  | deleteUnder (storage : StorageRef) (roots : List PathRef)

namespace BatchWrite

/-- The storage it concerns. -/
def storage : BatchWrite → StorageRef
  | .insert _ storage _ | .delete storage _ | .deleteUnder storage _ => storage

/-- The request as a call of the engine. -/
def call : BatchWrite → Call
  | .insert now storage requests => .insert now storage requests
  | .delete storage keys => .delete storage keys
  | .deleteUnder storage roots => .deleteUnder storage roots

variable (catalog maxBatch) in
/-- The state the request leaves, whether it is answered or fails. -/
def after (w : BatchWrite) (s : EngineState Connection) : EngineState Connection :=
  (Connection.engine catalog maxBatch).afterCall s w.call

end BatchWrite

/-- What was said between two states. -/
def saidBetween (s t : EngineState Connection) : List Exchange :=
  t.store.sent.drop s.store.sent.length

/-- What was said is what was added to the record. -/
theorem saidBetween_eq {said : List Exchange} (sent : t.store.sent = s.store.sent ++ said) :
    saidBetween s t = said := by
  rw [saidBetween, sent, List.drop_left]

/-- Every write of a batch is accounted for. -/
theorem BatchWrite.accounts (w : BatchWrite) (s : EngineState Connection) :
    Accounts w.storage.id (saidBetween s (w.after catalog maxBatch s)) s (w.after catalog maxBatch s) := by
  have accounted : Accounted w.storage.id s (w.after catalog maxBatch s) := by
    cases w with
    | insert now storage requests =>
        refine Action.state_bind_of_keeps rfl (accounted_refl _ s) fun _ _ => ?_
        refine Action.state_bind_of_keeps rfl (accounted_refl _ s) fun rows _ => ?_
        exact accounts_write (Connection.settled_upsert storage rows) storage _ _ s
    | delete storage keys =>
        refine Action.state_bind_of_keeps rfl (accounted_refl _ s) fun _ _ => ?_
        refine Action.state_bind_of_keeps rfl (accounted_refl _ s) fun keys _ => ?_
        exact accounts_write (Connection.settled_delete storage.id keys) storage _ _ s
    | deleteUnder storage roots =>
        refine Action.state_bind_of_keeps rfl (accounted_refl _ s) fun _ _ => ?_
        refine Action.state_bind_of_keeps rfl (accounted_refl _ s) fun roots _ => ?_
        exact accounts_write (Connection.settled_deleteUnder storage.id roots) storage _ _ s
  obtain ⟨said, accounts⟩ := accounted
  rwa [saidBetween_eq accounts.sent]

/-! ## Listings after a write -/

/-- The remembered answer to a question names a storage. -/
def Names (index : Option StorageIndex) (id : StorageId) (question : SidSet) : Prop :=
  ∃ answer, remembered? index question = some answer ∧ ∃ storage ∈ answer.members, storage.id = id

variable (catalog maxBatch) in
/-- From a state on a question is **answered afresh**: whenever it is answered later in the session,
the database gave the answer after that state. -/
def AnsweredAfresh (t : EngineState Connection) (question : SidSet) : Prop :=
  ∀ u, Later catalog maxBatch t u → ∀ sids answer, SortedSet.ofList sids = question →
    (((Connection.engine catalog maxBatch).readable sids).run u).answer = .ok answer →
      Gave (saidBetween t (((Connection.engine catalog maxBatch).readable sids).run u).state)
        question answer

/-- A question whose answer is not remembered is answered afresh from there on. -/
theorem answeredAfresh_of_forgotten {question : SidSet} (some_asked : question.isEmpty = false)
    (forgotten : remembered? t.index question = none) :
    AnsweredAfresh catalog maxBatch t question := by
  rintro u later sids answer rfl answered
  obtain ⟨said, evolves⟩ := later.onward
  have lists := @lists_readable catalog maxBatch sids some_asked u
  rw [answered] at lists
  generalize (((Connection.engine catalog maxBatch).readable sids).run u).state = v at lists ⊢
  cases lists with
  | hit found =>
      -- what is remembered by then was given since
      rw [saidBetween_eq evolves.sent]
      refine (evolves.remembered _ answer found).resolve_left fun before => ?_
      cases forgotten.symm.trans before
  | asked v missed sent given index =>
      have all := (evolves.trans (evolves_remember given sent index)).sent
      rw [saidBetween_eq all]
      exact given.mono fun x hx => List.mem_append_right said hx

/-- A remembered answer is listed without a word to the database. -/
theorem not_answeredAfresh_of_remembered {question : SidSet} {answer : SortedSet StorageRef}
    (some_asked : question.isEmpty = false) (found : remembered? t.index question = some answer) :
    ¬ AnsweredAfresh catalog maxBatch t question := by
  intro afresh
  have same : SortedSet.ofList question.members = question := SortedSet.ofList_members question
  have lists := @lists_readable catalog maxBatch question.members
    (same.symm ▸ some_asked) t
  have given := afresh t .now question.members answer same
  rw [same] at lists
  generalize (((Connection.engine catalog maxBatch).readable question.members).run t).answer = result
    at lists given
  generalize (((Connection.engine catalog maxBatch).readable question.members).run t).state = v
    at lists given
  cases lists with
  | hit again =>
      obtain rfl := Option.some.inj (found.symm.trans again)
      obtain ⟨rows, affected, storages, here, -⟩ := given rfl
      rw [saidBetween, List.drop_length] at here
      exact List.not_mem_nil here
  | failed v missed | asked v missed => cases found.symm.trans missed

/-- **Committed writes revoke.** After a write of a batch that the database committed, whether it was
answered or failed, every question whose remembered answer named its storage is answered afresh; save
that after an unreadable row all of them are still answered from the index. -/
theorem answeredAfresh_iff (met : Met catalog maxBatch s) (w : BatchWrite)
    (committed : Committed (saidBetween s (w.after catalog maxBatch s))) :
    (∀ question, question.isEmpty = false → Names s.index w.storage.id question →
        AnsweredAfresh catalog maxBatch (w.after catalog maxBatch s) question) ↔
      ¬ (ReturnedUnreadable (saidBetween s (w.after catalog maxBatch s)) ∧
        ∃ question, question.isEmpty = false ∧ Names s.index w.storage.id question) := by
  have accounts := @BatchWrite.accounts catalog maxBatch w s
  constructor
  · rintro afresh ⟨unreadable, question, some_asked, names⟩
    have answered := afresh question some_asked names
    obtain ⟨answer, remembered, -⟩ := names
    rw [← accounts.missed committed unreadable] at remembered
    exact not_answeredAfresh_of_remembered some_asked remembered answered
  · intro sound question some_asked names
    have readable := fun unreadable => sound ⟨unreadable, question, some_asked, names⟩
    obtain ⟨sids, index⟩ := accounts.noted committed readable
    refine answeredAfresh_of_forgotten some_asked ?_
    cases found : remembered? (w.after catalog maxBatch s).index question with
    | none => rfl
    | some answer =>
        rw [index] at found
        obtain ⟨before, -, elsewhere⟩ := met.filed.of_noted found
        obtain ⟨named, remembered, storage, here, same⟩ := names
        obtain rfl := Option.some.inj (before.symm.trans remembered)
        exact absurd same (elsewhere storage here)

/-- A session with a database that knows one storage. It has named this storage when it was asked in
which storages a user holds a row, and it will return the given row when it drops one. -/
def droppingSession (returned : Row) : EngineState Connection :=
  (Connection.engine .ofStore 10).after
    ⟨.plain (.script [.answered [[("id", .int8 1), ("kind", .text "S3")]] 0,
      .answered [[("kind", .text "S3")]] 0, .answered [] 0, .answered [] 0,
      .answered [returned] 1]), some ∅⟩
    (.call (.readable [⟨"u", .user⟩]))

/-- Such a session is met before the row is dropped. -/
theorem met_droppingSession (returned : Row) : Met .ofStore 10 (droppingSession returned) :=
  ⟨⟨true, 10, 30⟩, _, .turn _ .now⟩

/-- The key of a row as the database returns it, with the name of the type of its sid. -/
def returnedKey (sidType : String) : Row :=
  [("path", .text "a"), ("path_type", .text "FILE"), ("sid_name", .text "u"),
    ("sid_type", .text sidType)]

/-- The request to drop that row. -/
def dropOne : BatchWrite := .delete ⟨1, .s3⟩ [⟨"a", .file, ⟨"u", .user⟩⟩]

/-- After a row was dropped and returned, the storages of its user are asked for again. -/
theorem answeredAfresh_after_dropOne :
    Met .ofStore 10 (droppingSession (returnedKey "USER")) ∧
      Committed (saidBetween (droppingSession (returnedKey "USER"))
        (dropOne.after .ofStore 10 (droppingSession (returnedKey "USER")))) ∧
      Names (droppingSession (returnedKey "USER")).index 1 (SortedSet.ofList [⟨"u", .user⟩]) ∧
      AnsweredAfresh .ofStore 10 (dropOne.after .ofStore 10 (droppingSession (returnedKey "USER")))
        (SortedSet.ofList [⟨"u", .user⟩]) := by
  have committed : Committed (saidBetween (droppingSession (returnedKey "USER"))
      (dropOne.after .ofStore 10 (droppingSession (returnedKey "USER")))) := ⟨[], 0, by decide +kernel⟩
  have names : Names (droppingSession (returnedKey "USER")).index 1
      (SortedSet.ofList [⟨"u", .user⟩]) :=
    ⟨SortedSet.ofList [⟨1, .s3⟩], rfl, ⟨1, .s3⟩, List.mem_singleton_self _, rfl⟩
  refine ⟨met_droppingSession _, committed, names, ?_⟩
  refine (answeredAfresh_iff (met_droppingSession _) dropOne committed).2 ?_ _ rfl names
  -- the index is no longer what it was, so no unreadable row was returned
  rintro ⟨unreadable, -⟩
  have kept := (dropOne.accounts _).missed committed unreadable
  have forgotten : remembered? (dropOne.after .ofStore 10
      (droppingSession (returnedKey "USER"))).index (SortedSet.ofList [⟨"u", .user⟩]) = none := rfl
  rw [kept] at forgotten
  cases forgotten

/-- After a row was dropped and returned with a sid of no known type, the storages of its user still
come from the index. -/
theorem not_answeredAfresh_of_committed :
    ¬ ∀ (catalog : Catalog) (maxBatch : Nat) (s : EngineState Connection) (w : BatchWrite),
      Met catalog maxBatch s → Committed (saidBetween s (w.after catalog maxBatch s)) →
        ∀ question, question.isEmpty = false → Names s.index w.storage.id question →
          AnsweredAfresh catalog maxBatch (w.after catalog maxBatch s) question := by
  intro h
  have found : remembered? (dropOne.after .ofStore 10
      (droppingSession (returnedKey "ROBOT"))).index (SortedSet.ofList [⟨"u", .user⟩]) =
    some (SortedSet.ofList [⟨1, .s3⟩]) := rfl
  have afresh := h .ofStore 10 _ dropOne (met_droppingSession (returnedKey "ROBOT"))
    ⟨[], 0, by decide +kernel⟩ (SortedSet.ofList [⟨"u", .user⟩]) rfl
    ⟨SortedSet.ofList [⟨1, .s3⟩], rfl, ⟨1, .s3⟩, List.mem_singleton_self _, rfl⟩
  exact not_answeredAfresh_of_remembered rfl found afresh

end Engine

end PathAcl
