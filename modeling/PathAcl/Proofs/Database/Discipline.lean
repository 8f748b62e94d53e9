import PathAcl.Proofs.Database.Rows
import PathAcl.Proofs.Database.Transcripts
import PathAcl.Proofs.Database.Writes
import PathAcl.Proofs.Validity

/-! # The discipline of writes
A write that has something to send is one transaction on its storage. It reads two kinds of rows: the
kind a storage is known under, and whether the destination of a move is occupied. Whatever else the
database returns does not change what is sent, and what it refuses ends the transaction. -/

namespace PathAcl

namespace Connection

open Database

variable {α β : Type}

/-! ## Saying nothing, and saying one dialogue -/

/-- An operation is **quiet** if it says nothing. -/
def Quiet (a : Action Connection StoreError α) : Prop := ∀ c, (a.run c).state.sent = c.sent

namespace Quiet

/-- An answer is quiet. -/
theorem answer (x : α) : Quiet (pure x) := fun _ => rfl

/-- A computation is quiet. -/
theorem ofExcept (r : Except StoreError α) : Quiet (.ofExcept r) := fun _ => rfl

/-- A report is quiet. -/
theorem log (e : Event) : Quiet (.log e) := fun _ => rfl

/-- Two quiet operations in a row are quiet. -/
theorem bind {a : Action Connection StoreError α} {f : α → Action Connection StoreError β}
    (ha : Quiet a) (hf : ∀ x, Quiet (f x)) : Quiet (a >>= f) := by
  intro c
  rw [Action.state_bind]
  cases (a.run c).answer with
  | error e => exact ha c
  | ok x => exact (hf x _).trans (ha c)

/-- A check in front is quiet, and nothing follows if it fails. -/
theorem require {check : Except Fault Unit} {a : Action Connection StoreError α}
    (h : check = .ok () → Quiet a) : Quiet (require check >>= fun _ => a) := by
  cases check with
  | error e => exact fun _ => rfl
  | ok x => exact h rfl

/-- With an empty list there is an answer at once. -/
theorem unlessEmpty {γ : Type} {xs : List γ} {x : α} {a : Action Connection StoreError α}
    (h : xs ≠ [] → Quiet a) : Quiet (if xs.isEmpty then pure x else a) := by
  cases xs with
  | nil => exact answer x
  | cons y ys => exact h (List.cons_ne_nil y ys)

end Quiet

/-- An operation **speaks** a dialogue if it holds it with its peer and says nothing else, and if it
answers only when the dialogue does. -/
def Speaks (d : Dialogue α) (a : Action Connection StoreError β) : Prop :=
  ∀ c, (a.run c).state.sent = c.sent ++ (d.hold c.peer).sent ∧
    ∀ y, (a.run c).answer = .ok y → ∃ x, (d.hold c.peer).result = some (.ok x)

namespace Speaks

variable {d : Dialogue α} {a : Action Connection StoreError β}

/-- A write speaks its dialogue. -/
theorem writing (operation : Operation) (d : Dialogue α) :
    Speaks d (Connection.writing operation d) := by
  intro c
  have held : ((hold d).run c).answer = .ok (d.hold c.peer).result := rfl
  rw [Connection.writing, timed, Action.state_bind, Action.answer_bind, held]
  cases (d.hold c.peer).result with
  | none => exact ⟨rfl, fun _ same => by cases same⟩
  | some r =>
      cases r with
      | error e => exact ⟨rfl, fun _ same => by cases same⟩
      | ok x => exact ⟨rfl, fun _ _ => ⟨x, rfl⟩⟩

/-- Checks that pass may stand in front. -/
theorem require {check : Except Fault Unit} (passes : check = .ok ()) (h : Speaks d a) :
    Speaks d (Connection.require check >>= fun _ => a) := by
  rw [passes]
  exact h

/-- So may a computation that gives an answer. -/
theorem ofExcept_bind {γ : Type} {r : Except StoreError γ} {x : γ}
    {f : γ → Action Connection StoreError β} (answers : r = .ok x) (h : Speaks d (f x)) :
    Speaks d (.ofExcept r >>= f) := by
  rw [answers]
  exact h

/-- So may the question whether a list is empty, if it is not. -/
theorem unlessEmpty {γ : Type} {xs : List γ} {b : Action Connection StoreError β} (some : xs ≠ [])
    (h : Speaks d a) : Speaks d (if xs.isEmpty then b else a) := by
  cases xs with
  | nil => exact absurd rfl some
  | cons y ys => exact h

/-- A quiet operation may follow. -/
theorem bind {γ : Type} {f : β → Action Connection StoreError γ} (h : Speaks d a)
    (quiet : ∀ x, Quiet (f x)) : Speaks d (a >>= f) := by
  intro c
  obtain ⟨sent, answers⟩ := h c
  rw [Action.state_bind, Action.answer_bind]
  cases answered : (a.run c).answer with
  | error e => exact ⟨sent, nofun⟩
  | ok y => exact ⟨(quiet y _).trans sent, fun _ _ => answers y answered⟩

end Speaks

/-! ## What a write sends and what it expects -/

/-- The rows say that a storage is known under a kind. -/
def SaysKind (kind : StorageKind) (rows : List Row) : Prop :=
  ∃ text, firstCell? rows = some (.text text) ∧ StorageKind.ofName text = .ok kind

namespace Write

/-- The storage of a write. -/
def storageId : Write → StorageId
  | .register storage => storage.id
  | .upsert storage _ => storage.id
  | .delete id _ => id
  | .deleteUnder id _ => id
  | .relocate id _ _ => id
  | .prolong id _ => id

/-- A write **has something to send**: its arguments are valid, and where it is for a list of them the
list is not empty. The days of a prolongation matter only if no later one is for its path. -/
def HasToSend : Write → Prop
  | .register storage => Validity.checkStorageId storage.id = .ok ()
  | .upsert storage rows => Validity.checkStorageId storage.id = .ok () ∧
      Validity.checkAll Validity.checkPermission rows = .ok ()
  | .delete id keys => Validity.checkStorageId id = .ok () ∧
      Validity.checkAll Validity.checkKey keys = .ok () ∧ keys ≠ []
  | .deleteUnder id roots => Validity.checkStorageId id = .ok () ∧
      Validity.checkAll (fun r => Validity.checkPath r.path) roots = .ok () ∧ roots ≠ []
  | .relocate id source destination => Validity.checkStorageId id = .ok () ∧
      Validity.checkPath source.path = .ok () ∧ Validity.checkPath destination.path = .ok ()
  | .prolong id records => Validity.checkStorageId id = .ok () ∧
      Validity.checkAll (Validity.checkProlongation id) records = .ok () ∧ records ≠ [] ∧
        ∀ p ∈ Prolongation.keepLast records, p.days.toNat ≤ Int32.maxValue.toInt

/-- The rows that a write **expects** a statement to return: the kind of its storage where it asks for
that, and that the destination is not occupied. All rows are expected of any other statement. -/
def Expects : Write → Statement → List Row → Prop
  | .register storage, s, rows | .upsert storage _, s, rows =>
      s.sql = Sql.kindOf → SaysKind storage.kind rows
  | .relocate _ _ _, s, rows =>
      s.sql = Sql.folderOccupied ∨ s.sql = Sql.fileOccupied →
        firstCell? rows = some (.bool false)
  | _, _, _ => True

/-- The statements of the frame of a transaction return what is expected of them. -/
theorem expects_of_frame (w : Write) (s : Statement) (rows : List Row) (h : s.sql ∈ frameTexts) :
    w.Expects s rows := by
  have ne : ∀ {text : String}, text ∉ frameTexts → s.sql ≠ text := by
    rintro text other rfl
    exact other h
  cases w with
  | register storage => exact fun same => absurd same (ne (by decide))
  | upsert storage rows => exact fun same => absurd same (ne (by decide))
  | delete id keys => trivial
  | deleteUnder id roots => trivial
  | relocate id source destination =>
      rintro (same | same)
      · exact absurd same (ne (by decide))
      · exact absurd same (ne (by decide))
  | prolong id records => trivial

/-! ## What is sent -/

/-- **A write that has nothing to send is quiet.** -/
theorem quiet_of_not_hasToSend (w : Write) (h : ¬ w.HasToSend) : Quiet w.perform := by
  cases w with
  | register storage => exact .require fun id => absurd id h
  | upsert storage rows =>
      refine .bind ?_ fun _ => .answer _
      exact .require fun id => .require fun valid => absurd ⟨id, valid⟩ h
  | delete id keys =>
      refine .bind ?_ fun _ => .answer _
      exact .require fun known => .require fun valid => .unlessEmpty fun some =>
        absurd ⟨known, valid, some⟩ h
  | deleteUnder id roots =>
      refine .bind ?_ fun _ => .answer _
      exact .require fun known => .require fun valid => .unlessEmpty fun some =>
        absurd ⟨known, valid, some⟩ h
  | relocate id source destination =>
      refine .bind ?_ fun _ => .answer _
      exact .require fun known => .require fun valid => .require fun free =>
        absurd ⟨known, valid, free⟩ h
  | prolong id records =>
      refine .bind ?_ fun _ => .answer _
      refine .require fun known => .require fun valid => .unlessEmpty fun some => ?_
      have none : ¬ ∃ days, daysColumn (Prolongation.keepLast records) = .ok days := by
        rw [daysColumn_eq_ok_iff]
        exact fun fit => h ⟨known, valid, mt keepLast_eq_nil_iff.2 some, fit⟩
      cases days : daysColumn (Prolongation.keepLast records) with
      | ok days => exact absurd ⟨_, days⟩ none
      | error e => exact fun _ => rfl

end Write

/-! ## What the work of a write heeds -/

/-- A statement about a storage is no COMMIT, which is about nothing. -/
theorem about_ne_commitStatement (sql : String) (id : StorageId) (params : List Param) :
    about sql id params ≠ commitStatement := by
  intro same
  cases congrArg Statement.params same

section Work

variable {expects : Statement → List Row → Prop} {sql : String} {id : StorageId}
  {params : List Param} {context : String}

/-- A statement of which all rows are expected may come first. -/
theorem heeds_step {f : List Row × Nat → Dialogue β} (all : ∀ s rows, s.sql = sql → expects s rows)
    (rest : ∀ x, (f x).Heeds (Halts expects)) :
    (queryRequest (about sql id params) context >>= f).Heeds (Halts expects) :=
  heeds_queryRequest (about_ne_commitStatement sql id params)
    (fun x unexpected => absurd (all _ x.1 rfl) unexpected) rest

/-- The rows of a query are compared with what is expected of them: the answer is the one that they
give, or there is none. -/
theorem heeds_check {f : List Row → Dialogue β} {good : List Row → Prop}
    (expected : ∀ s rows, s.sql = sql → good rows → expects s rows)
    (passes : ∀ rows, good rows → (f rows).Heeds (Halts expects))
    (fails : ∀ rows, ¬ good rows → ∃ e, f rows = .done (.error e)) :
    (queryRows (about sql id params) context >>= f).Heeds (Halts expects) := by
  refine heeds_queryRows (about_ne_commitStatement sql id params) (fun rows unexpected => ?_)
    fun rows => ?_
  · exact fails rows fun is_good => unexpected (expected _ rows rfl is_good)
  · by_cases is_good : good rows
    · exact passes rows is_good
    · obtain ⟨e, failed⟩ := fails rows is_good
      rw [failed]
      exact .done _

/-- **Making a storage known** heeds the kind it is known under. -/
theorem heeds_makeKnown {storage : StorageRef}
    (kind : ∀ s rows, expects s rows ↔ (s.sql = Sql.kindOf → SaysKind storage.kind rows)) :
    (makeKnown storage).Heeds (Halts expects) := by
  have add : Sql.addStorage ≠ Sql.kindOf := by decide
  refine heeds_step (fun s rows text => (kind s rows).2 fun same => ?_) fun _ => ?_
  · exact absurd (text.symm.trans same) add
  refine heeds_check (fun s rows _ told => (kind s rows).2 fun _ => told) (fun rows told => ?_)
    fun rows other => ?_
  · obtain ⟨text, first, known⟩ := told
    have named : named StorageKind.ofName text = .ok storage.kind := by rw [named, known]; rfl
    rw [onlyValue_text_eq_ok_iff.2 first, Dialogue.ofExcept_ok_bind, named,
      Dialogue.ofExcept_ok_bind, if_pos rfl]
    exact .done _
  · cases read : onlyValue .text kindContext rows with
    | error e => exact ⟨e, rfl⟩
    | ok text =>
        rw [Dialogue.ofExcept_ok_bind, named]
        cases known : StorageKind.ofName text with
        | error e => exact ⟨_, rfl⟩
        | ok registered =>
            have differs : registered ≠ storage.kind := by
              rintro rfl
              exact other ⟨text, onlyValue_text_eq_ok_iff.1 read, known⟩
            rw [Except.mapError, Dialogue.ofExcept_ok_bind, if_neg differs]
            exact ⟨_, rfl⟩

end Work

namespace Write

/-- Writing rows that may be stored speaks the transaction that writes them. -/
theorem speaks_upsert {storage : StorageRef} {rows : List Permission}
    (h : (upsert storage rows).HasToSend) :
    Speaks (Database.upsert storage (Permission.keepLast rows)) (upsert storage rows).perform := by
  obtain ⟨known, valid⟩ := h
  exact .bind (.require known (.require valid (.bind (.writing _ _) .answer))) .answer

/-- Dropping rows speaks the transaction that drops them. -/
theorem speaks_delete {id : StorageId} {keys : List PermissionKey}
    (h : (delete id keys).HasToSend) :
    Speaks (Database.delete id keys) (delete id keys).perform := by
  obtain ⟨known, valid, some⟩ := h
  exact .bind (.require known (.require valid (.unlessEmpty some
    (.bind (.writing _ _) fun _ => .ofExcept _)))) .answer

/-- So does dropping subtrees. -/
theorem speaks_deleteUnder {id : StorageId} {roots : List PathRef}
    (h : (deleteUnder id roots).HasToSend) :
    Speaks (Database.deleteUnder id roots) (deleteUnder id roots).perform := by
  obtain ⟨known, valid, some⟩ := h
  exact .bind (.require known (.require valid (.unlessEmpty some
    (.bind (.writing _ _) fun _ => .bind (.log _) fun _ => .ofExcept _)))) .answer

/-- Writing prolongations speaks the transaction that writes them, with their days in a column. -/
theorem speaks_prolong {id : StorageId} {records : List Prolongation}
    (h : (prolong id records).HasToSend) :
    ∃ days, daysColumn (Prolongation.keepLast records) = .ok days ∧
      Speaks (Database.prolong id (Prolongation.keepLast records) days)
        (prolong id records).perform := by
  obtain ⟨known, valid, some, fit⟩ := h
  obtain ⟨days, column⟩ := exists_daysColumn fit
  refine ⟨days, Validity.mapError_eq_ok_iff.1 column, ?_⟩
  exact .bind (.require known (.require valid (.unlessEmpty (mt keepLast_eq_nil_iff.1 some)
    (.ofExcept_bind column (.bind (.writing _ _) .answer))))) .answer

/-- **A write that has something to send** speaks one transaction on its storage, whose work heeds what
the write expects. -/
theorem exists_speaks_of_hasToSend (w : Write) (h : w.HasToSend) :
    ∃ (α : Type) (work : Dialogue α), work.Heeds (Halts w.Expects) ∧
      Speaks (transaction w.storageId work) w.perform := by
  cases w with
  | register storage =>
      exact ⟨_, _, heeds_makeKnown fun _ _ => .rfl, .require h (.writing _ _)⟩
  | upsert storage rows =>
      refine ⟨_, _, ?_, speaks_upsert h⟩
      refine .bind (heeds_makeKnown fun _ _ => .rfl) fun _ => ?_
      split
      · exact .done _
      · have writes : Sql.writeRows ≠ Sql.kindOf := by decide
        refine heeds_step (fun s rows text same => ?_) fun _ => .done _
        exact absurd (text.symm.trans same) writes
  | delete id keys =>
      refine ⟨_, _, ?_, speaks_delete h⟩
      exact heeds_step (fun _ _ _ => trivial) fun _ => .done _
  | deleteUnder id roots =>
      refine ⟨_, _, ?_, speaks_deleteUnder h⟩
      exact heeds_step (fun _ _ _ => trivial) fun _ => .done _
  | relocate id source destination =>
      obtain ⟨known, valid, free⟩ := h
      refine ⟨_, _, ?_, .bind (.require known (.require valid (.require free
        (.bind (.writing _ _) fun _ => .bind (.log _) fun _ => .answer _)))) fun _ => .answer _⟩
      refine @heeds_check _ _ _ _ _ _ _ (fun rows => firstCell? rows = some (.bool false))
        (fun s rows _ empty _ => empty) (fun rows empty => ?_) fun rows taken => ?_
      · rw [onlyValue_bool_eq_ok_iff.2 empty, Dialogue.ofExcept_ok_bind]
        refine heeds_step (fun s rows text occupied => ?_) fun _ => .done _
        -- the statement that moves rows does not ask whether a place is occupied
        rw [text] at occupied
        exfalso
        revert occupied
        cases source.type <;> decide
      · cases read : onlyValue .bool "failed to check move destination" rows with
        | error e => exact ⟨e, rfl⟩
        | ok occupied =>
            cases occupied with
            | true => exact ⟨_, rfl⟩
            | false => exact absurd (onlyValue_bool_eq_ok_iff.1 read) taken
  | prolong id records =>
      obtain ⟨days, -, speaks⟩ := speaks_prolong h
      refine ⟨_, _, ?_, speaks⟩
      exact heeds_step (fun _ _ _ => trivial) fun _ => .done _

/-- **The discipline of writes.** With whatever replies a write meets, it says nothing if it has nothing
to send; otherwise it says one transaction on its storage, in a disciplined way. -/
theorem disciplined_or_quiet (w : Write) (c : Connection) (replies : List Reply) :
    (w.HasToSend ∧ Disciplined (Halts w.Expects) w.storageId (w.said { c with peer := .script replies })
        (∃ y, (w.perform.run { c with peer := .script replies }).answer = .ok y)) ∨
      ¬ w.HasToSend ∧ w.said { c with peer := .script replies } = [] := by
  by_cases h : w.HasToSend
  · obtain ⟨α, work, heeds, speaks⟩ := w.exists_speaks_of_hasToSend h
    obtain ⟨sent, answers⟩ := speaks { c with peer := .script replies }
    obtain ⟨result, ended, transcript⟩ := transcript_transaction w.storageId work replies
    have orderly := transcript.disciplined heeds w.expects_of_frame
    refine .inl ⟨h, ?_⟩
    have said : w.said { c with peer := .script replies } =
        ((transaction w.storageId work).hold (.script replies)).sent := by
      rw [Write.said, sent, List.drop_left]
    rw [said]
    refine ⟨orderly.begins, orderly.stops, orderly.once, ?_⟩
    rintro ⟨y, answered⟩
    obtain ⟨x, same⟩ := answers y answered
    exact orderly.keeps ⟨x, Option.some.inj (ended.symm.trans same)⟩
  · refine .inr ⟨h, ?_⟩
    rw [Write.said, w.quiet_of_not_hasToSend h, List.drop_length]

end Write

end Connection

end PathAcl
