import PathAcl.Proofs.Database.Connection
import PathAcl.Proofs.Database.Transactions

/-! # Failed writes
A write that fails has left nothing in the database, with one exception: the rows that a DELETE returns
are read after the COMMIT, and one of them may not be readable. What an operation says on a connection
is told together with how it ends. -/

namespace PathAcl

namespace Database

/-- The texts that drop rows and return their keys. -/
def dropTexts : List String := [Sql.dropRows, Sql.dropUnder]

/-- The database returned, to a statement that drops rows, a row that is not readable as a key. -/
def ReturnedUnreadable (said : List Exchange) : Prop :=
  ∃ statement rows affected, statement.sql ∈ dropTexts ∧
    (⟨statement, some (.answered rows affected)⟩ : Exchange) ∈ said ∧
      ∃ row ∈ rows, ∃ e, keyOfRow row = .error e

/-- Where no rows are dropped none are returned. -/
theorem not_returnedUnreadable {texts : List String} {said : List Exchange}
    (h : ∀ x ∈ said, x.statement.sql ∈ texts) (drops : ∀ sql ∈ texts, sql ∉ dropTexts) :
    ¬ ReturnedUnreadable said :=
  fun ⟨statement, _, _, text, here, _⟩ => drops statement.sql (h _ here) text

/-- Two talks in a row return such a row if one of them does. -/
theorem returnedUnreadable_append {first second : List Exchange} :
    ReturnedUnreadable (first ++ second) ↔ ReturnedUnreadable first ∨ ReturnedUnreadable second := by
  simp only [ReturnedUnreadable, List.mem_append, or_and_right, and_or_left, exists_or]

/-- A transaction that drops rows and answers returned the rows it answers, and no others. -/
theorem returnedUnreadable_iff {id : StorageId} {sql : String} {params : List Param}
    {context : String} (drops : sql ∈ dropTexts) {peer left : Peer}
    {rows : List Row} {sent : List Exchange}
    (h : (transaction id (queryRows (about sql id params) context)).hold peer =
      ⟨some (.ok rows), left, sent⟩) :
    ReturnedUnreadable sent ↔ ∃ row ∈ rows, ∃ e, keyOfRow row = .error e := by
  obtain ⟨begun, locked, kept, before, after, said, worked, rfl⟩ := hold_transaction h
  obtain ⟨affected, rfl⟩ := sent_of_queryRows worked
  constructor
  · rintro ⟨statement, found, n, text, here, bad⟩
    -- the other three statements of the transaction have other texts
    simp only [List.cons_append, List.nil_append, List.mem_cons, List.not_mem_nil, or_false] at here
    rcases here with same | same | same | same
    · cases same
      exact absurd text (by decide : Sql.begin ∉ dropTexts)
    · cases same
      exact absurd text (by decide : Sql.lock ∉ dropTexts)
    · cases same
      exact bad
    · cases same
      exact absurd text (by decide : Sql.commit ∉ dropTexts)
  · intro bad
    refine ⟨about sql id params, rows, affected, drops, ?_, bad⟩
    simp only [List.cons_append, List.nil_append, List.mem_cons, true_or, or_true]

/-- Reading rows fails if one of them is not readable. -/
theorem readAll_eq_error_iff {α : Type} {read : Row → Except StoreError α} {rows : List Row} :
    (∃ e, readAll read rows = .error e) ↔ ∃ row ∈ rows, ∃ e, read row = .error e := by
  rw [readAll]
  induction rows with
  | nil => exact iff_of_false nofun fun h => nomatch h
  | cons row rows ih =>
      rw [List.mapM_cons]
      simp only [List.mem_cons, exists_eq_or_imp]
      cases read row with
      | error e => exact iff_of_true ⟨e, rfl⟩ (.inl ⟨e, rfl⟩)
      | ok x =>
          rw [← ih]
          cases rows.mapM read with
          | error e => exact iff_of_true ⟨e, rfl⟩ (.inr ⟨e, rfl⟩)
          | ok xs => exact iff_of_false nofun (by rintro (h | h) <;> exact nomatch h)

end Database

namespace Connection

open Database

variable {α β : Type}

/-! ## Settled writes -/

/-- A talk is **settled** by how the operation ends: if it committed, the operation fails just if the
database returned an unreadable row. -/
def Settled (said : List Exchange) (result : Except StoreError α) : Prop :=
  Committed said → ((∃ e, result = .error e) ↔ ReturnedUnreadable said)

/-- A talk that commits nothing is settled. -/
theorem settled_of_not_committed {said : List Exchange} {result : Except StoreError α}
    (h : ¬ Committed said) : Settled said result := fun committed => absurd committed h

/-- A faulty argument settles an operation before it says anything. -/
theorem settled_require {check : Except Fault Unit} {a : Action Connection StoreError α}
    (h : Tells Settled a) : Tells Settled (require check >>= fun _ => a) :=
  .ofExcept_bind (fun _ _ => settled_of_not_committed not_committed_nil) fun _ _ => h

/-- A talk in which a dialogue was held: it committed only if there was an answer, and an answer is
that of the dialogue. -/
def Held (d : Dialogue α) (said : List Exchange) (result : Except StoreError α) : Prop :=
  (Committed said → ∃ x, result = .ok x) ∧
    ∀ x, result = .ok x → ∃ peer left, d.hold peer = ⟨some (.ok x), left, said⟩

/-- A framed write holds its dialogue. -/
theorem held_writing {texts : List String} {d : Dialogue α} (framed : Framed texts d)
    (operation : Operation) : Tells (Held d) (writing operation d) := by
  refine .timed (fun peer r h => ⟨fun committed => ?_, fun x same => ?_⟩) fun peer e h =>
    ⟨fun committed => ?_, fun x same => ?_⟩
  · obtain ⟨x, answered⟩ := (framed.sealed.committed_iff peer).1 committed
    exact ⟨x, Option.some.inj (h.symm.trans answered)⟩
  · exact ⟨peer, (d.hold peer).peer, by rw [← same, ← h]⟩
  · obtain ⟨x, answered⟩ := (framed.sealed.committed_iff peer).1 committed
    cases h.symm.trans answered
  · cases same

/-- What a framed write answers is made into an answer or a failure without another word. The write is
settled if it then fails just where the database returned an unreadable row. -/
theorem settled_writing_bind {texts : List String} {d : Dialogue α} (framed : Framed texts d)
    {operation : Operation} {f : α → Action Connection StoreError β}
    (finish : ∀ x, Tells (fun later result => later = [] ∧
      ∀ peer left said, d.hold peer = ⟨some (.ok x), left, said⟩ →
        ((∃ e, result = .error e) ↔ ReturnedUnreadable said)) (f x)) :
    Tells Settled (writing operation d >>= f) := by
  refine (held_writing framed operation).bind (fun said e held => ?_) fun x => (finish x).mono ?_
  · refine settled_of_not_committed fun committed => ?_
    obtain ⟨x, same⟩ := held.1 committed
    cases same
  · rintro later result ⟨rfl, ends⟩ said ⟨-, spoken⟩ -
    obtain ⟨peer, left, answered⟩ := spoken x rfl
    rw [List.append_nil]
    exact ends peer left said answered

/-- An answered write that drops no rows got none back. -/
theorem not_returnedUnreadable_of_hold {texts : List String} {d : Dialogue α}
    (framed : Framed texts d) (drops : ∀ sql ∈ frameTexts ++ texts, sql ∉ dropTexts)
    {peer left : Peer} {x : α} {said : List Exchange}
    (h : d.hold peer = ⟨some (.ok x), left, said⟩) : ¬ ReturnedUnreadable said := by
  have sent := framed.within.sent peer
  rw [h] at sent
  exact not_returnedUnreadable sent drops

/-- A framed write that drops no rows is settled if it always answers in the end. -/
theorem settled_writing_answer {texts : List String} {d : Dialogue α} (framed : Framed texts d)
    (drops : ∀ sql ∈ frameTexts ++ texts, sql ∉ dropTexts) {operation : Operation}
    {f : α → Action Connection StoreError β}
    (answers : ∀ x, Tells (fun later result => later = [] ∧ ∃ y, result = .ok y) (f x)) :
    Tells Settled (writing operation d >>= f) := by
  refine settled_writing_bind framed fun x => (answers x).mono ?_
  rintro later result ⟨nothing, y, rfl⟩
  refine ⟨nothing, fun peer left said h => iff_of_false nofun ?_⟩
  exact not_returnedUnreadable_of_hold framed drops h

/-- Making a storage known is settled. -/
theorem settled_register (storage : StorageRef) : Tells Settled (register storage) := by
  refine settled_require ((held_writing (framed_register storage) _).mono ?_)
  rintro said result ⟨answers, spoken⟩ committed
  obtain ⟨x, rfl⟩ := answers committed
  obtain ⟨peer, left, h⟩ := spoken x rfl
  refine iff_of_false nofun ?_
  exact not_returnedUnreadable_of_hold (framed_register storage) (by decide) h

/-- Writing rows is settled. -/
theorem settled_upsert (storage : StorageRef) (rows : List Permission) :
    Tells Settled (upsert storage rows) := by
  refine settled_require (settled_require ?_)
  exact settled_writing_answer (framed_upsert storage _) (by decide) fun _ => .answer ⟨rfl, _, rfl⟩

/-- Dropping rows is settled. -/
theorem settled_delete (id : StorageId) (keys : List PermissionKey) :
    Tells Settled (delete id keys) := by
  refine settled_require (settled_require (.ite _ ?_ ?_))
  · exact .answer (settled_of_not_committed not_committed_nil)
  refine settled_writing_bind (framed_delete id keys) fun rows => .ofExcept ⟨rfl, ?_⟩
  intro peer left said h
  have drops : Sql.dropRows ∈ dropTexts := List.mem_cons_self
  rw [returnedUnreadable_iff drops h, readAll_eq_error_iff]

/-- Dropping subtrees is settled. -/
theorem settled_deleteUnder (id : StorageId) (roots : List PathRef) :
    Tells Settled (deleteUnder id roots) := by
  refine settled_require (settled_require (.ite _ ?_ ?_))
  · exact .answer (settled_of_not_committed not_committed_nil)
  refine settled_writing_bind (framed_deleteUnder id roots) fun rows =>
    .log_bind (.ofExcept ⟨rfl, ?_⟩)
  intro peer left said h
  have drops : Sql.dropUnder ∈ dropTexts := List.mem_cons_of_mem _ List.mem_cons_self
  rw [returnedUnreadable_iff drops h, readAll_eq_error_iff]

/-- Moving rows is settled. -/
theorem settled_relocate (id : StorageId) (source destination : PathRef) :
    Tells Settled (relocate id source destination) := by
  refine settled_require (settled_require (settled_require ?_))
  exact settled_writing_answer (framed_relocate id source destination) (by decide)
    fun moved => .log_bind (.answer ⟨rfl, _, rfl⟩)

/-- Writing prolongations is settled. -/
theorem settled_prolong (id : StorageId) (records : List Prolongation) :
    Tells Settled (prolong id records) := by
  refine settled_require (settled_require (.ite _ ?_ ?_))
  · exact .answer (settled_of_not_committed not_committed_nil)
  refine .ofExcept_bind (fun _ _ => settled_of_not_committed not_committed_nil) fun days _ => ?_
  exact settled_writing_answer (framed_prolong id _ days) (by decide) fun _ => .answer ⟨rfl, _, rfl⟩

/-- Whatever an operation answers, it is settled by whether it answers. -/
theorem settled_discard {a : Action Connection StoreError α} (h : Tells Settled a) :
    Tells Settled (a >>= fun _ => pure ()) := by
  refine h.bind (fun said e told committed => ?_) fun x => .answer fun said told => ?_
  · exact iff_of_true ⟨e, rfl⟩ ((told committed).1 ⟨e, rfl⟩)
  · rw [List.append_nil]
    exact fun committed => iff_of_false nofun fun h => nomatch (told committed).2 h

/-! ## The writes of a store -/

/-- A **write**, with its arguments. -/
inductive Write
  | register (storage : StorageRef)
  | upsert (storage : StorageRef) (rows : List Permission)
  | delete (id : StorageId) (keys : List PermissionKey)
  | deleteUnder (id : StorageId) (roots : List PathRef)
  | relocate (id : StorageId) (source destination : PathRef)
  | prolong (id : StorageId) (records : List Prolongation)

namespace Write

/-- Carries a write out, whatever it answers. -/
def perform : Write → Action Connection StoreError Unit
  | .register storage => Connection.register storage
  | .upsert storage rows => Connection.upsert storage rows >>= fun _ => pure ()
  | .delete id keys => Connection.delete id keys >>= fun _ => pure ()
  | .deleteUnder id roots => Connection.deleteUnder id roots >>= fun _ => pure ()
  | .relocate id source destination =>
      Connection.relocate id source destination >>= fun _ => pure ()
  | .prolong id records => Connection.prolong id records >>= fun _ => pure ()

/-- What a write says on a connection. -/
def said (w : Write) (c : Connection) : List Exchange :=
  (w.perform.run c).state.sent.drop c.sent.length

/-- A write fails on a connection. -/
def Fails (w : Write) (c : Connection) : Prop := ∃ e, (w.perform.run c).answer = .error e

/-- Every write is settled. -/
theorem settled : (w : Write) → Tells Settled w.perform
  | .register storage => settled_register storage
  | .upsert storage rows => settled_discard (settled_upsert storage rows)
  | .delete id keys => settled_discard (settled_delete id keys)
  | .deleteUnder id roots => settled_discard (settled_deleteUnder id roots)
  | .relocate id source destination => settled_discard (settled_relocate id source destination)
  | .prolong id records => settled_discard (settled_prolong id records)

/-- **A failed write committed** just if the database returned a row that is not readable as a key for
one that it dropped, and the COMMIT was carried out before this was seen. -/
theorem fails_and_committed_iff (w : Write) (c : Connection) :
    w.Fails c ∧ Committed (w.said c) ↔ ReturnedUnreadable (w.said c) ∧ Committed (w.said c) := by
  obtain ⟨said, sent, told⟩ := w.settled c
  have same : w.said c = said := by rw [Write.said, sent, List.drop_left]
  rw [same, Fails]
  exact and_congr_left told

/-- A failed write may have committed: here the database returns a row whose sid is of no known type. -/
theorem not_fails_imp_not_committed :
    ¬ ∀ (w : Write) (c : Connection), w.Fails c → ¬ Committed (w.said c) := by
  intro h
  let row : Row := [("path", .text "a"), ("path_type", .text "FILE"), ("sid_name", .text "u"),
    ("sid_type", .text "ROBOT")]
  let replies : List Reply :=
    [.answered [] 0, .answered [] 0, .answered [row] 1, .answered [] 0]
  refine h (.delete 1 [⟨"a", .file, ⟨"u", .user⟩⟩]) (.plain (.script replies)) ⟨_, rfl⟩ ?_
  exact ⟨[], 0, by decide⟩

end Write

end Connection

end PathAcl
