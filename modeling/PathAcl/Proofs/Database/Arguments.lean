import PathAcl.Proofs.Database.Columns
import PathAcl.Proofs.Database.Discipline

/-! # What the writes bind
A write for a list of arguments sends one statement that carries them: the last row of each key, the
last prolongation of each path, and the keys and roots that are to be dropped just as they were given. -/

namespace PathAcl

namespace Database

/-! ## Statements other than those of the frame -/

/-- A transaction says what its work says, and the statements of its frame. -/
theorem says_transaction {α : Type} {p : Statement → Prop} (frame : ∀ s, s.sql ∈ frameTexts → p s)
    (id : StorageId) {work : Dialogue α} (h : work.Says p) : (transaction id work).Says p := by
  refine .bind (.request (frame _ (by decide)) _) fun _ => .orRollback ?_ (frame _ (by decide))
  refine .bind (.request (frame _ (by decide : Sql.lock ∈ frameTexts)) _) fun _ => .bind h fun _ => ?_
  exact .bind (.request (frame _ (by decide)) _) fun _ => .done _

/-- The one statement with the given text is `only`. -/
def IsOnly (only s : Statement) : Prop := s.sql = only.sql → s = only

/-- A statement with another text is not looked at. -/
theorem isOnly_of_mem {only s : Statement} {texts : List String} (other : only.sql ∉ texts)
    (here : s.sql ∈ texts) : IsOnly only s := fun same => absurd (same ▸ here) other

/-- A transaction whose work is one query says that query, and else only its frame. -/
theorem says_transaction_query {id : StorageId} {s : Statement} {context : String} {α : Type}
    {f : List Row × Nat → Dialogue α} (ends : ∀ x, ∃ y, f x = .done (.ok y))
    (other : s.sql ∉ frameTexts) :
    (transaction id (queryRequest s context >>= f)).Says (IsOnly s) := by
  -- No statement of the frame has the text of the query.
  refine says_transaction (fun s => isOnly_of_mem other) id ?_
  refine .bind (.request (fun _ => rfl) _) fun x => ?_
  obtain ⟨y, same⟩ := ends x
  rw [same]
  exact .done _

/-- It says it to a peer that goes along. -/
theorem exists_sent_transaction_query (id : StorageId) (s : Statement) (context : String)
    {α : Type} (f : List Row × Nat → Dialogue α) :
    ∃ x ∈ ((transaction id (queryRequest s context >>= f)).hold (.script [])).sent,
      x.statement = s := by
  -- The peer answers every statement without rows, which lets begin and lock pass.
  obtain ⟨later, told⟩ : ∃ later,
      ((transaction id (queryRequest s context >>= f)).hold (.script [])).sent =
        carriedOut beginStatement ([], 0) :: carriedOut (about Sql.lock id []) ([], 0) ::
          carriedOut s ([], 0) :: later := ⟨_, rfl⟩
  refine ⟨carriedOut s ([], 0), ?_, rfl⟩
  rw [told]
  simp only [List.mem_cons, true_or, or_true]

/-- A transaction that writes rows says one statement that writes them. -/
theorem says_upsert (storage : StorageRef) (rows : List Permission) :
    (upsert storage rows).Says
      (IsOnly (about Sql.writeRows storage.id (permissionColumns rows))) := by
  have known : (makeKnown storage).SaysOnly [Sql.addStorage, Sql.kindOf] :=
    saysOnly_makeKnown (by simp) (by simp) storage
  refine says_transaction (fun s => isOnly_of_mem (by decide : Sql.writeRows ∉ frameTexts)) _ ?_
  refine .bind (known.mono fun s => isOnly_of_mem ?_) fun _ => ?_
  · exact (by decide : Sql.writeRows ∉ [Sql.addStorage, Sql.kindOf])
  · split
    · exact .done _
    · exact .bind (.request (fun _ => rfl) _) fun _ => .done _

/-- It says it to a peer that goes along and knows the storage under its kind. -/
theorem exists_sent_upsert (storage : StorageRef) {rows : List Permission} (some : rows ≠ []) :
    ∃ peer, ∃ x ∈ ((upsert storage rows).hold peer).sent, x.statement.sql = Sql.writeRows := by
  obtain ⟨id, kind⟩ := storage
  -- Before rows are written the kind of the storage is asked for, so the fourth reply names it.
  let plain : Reply := .answered [] 0
  let known : List Row := [[("kind", .text kind.name)]]
  let peer : Peer := .script [plain, plain, plain, .answered known 0]
  let written : Exchange := carriedOut (about Sql.writeRows id (permissionColumns rows)) ([], 0)
  have told : ((upsert ⟨id, kind⟩ rows).hold peer).sent =
      [carriedOut beginStatement ([], 0), carriedOut (about Sql.lock id []) ([], 0),
        carriedOut (about Sql.addStorage id [.text kind.name]) ([], 0),
        carriedOut (about Sql.kindOf id []) (known, 0), written,
        carriedOut commitStatement ([], 0)] := by
    cases rows with
    | nil => exact absurd rfl some
    | cons row rows => cases kind <;> rfl
  refine ⟨peer, written, ?_, rfl⟩
  rw [told]
  simp only [List.mem_cons, true_or, or_true]

end Database

namespace Connection

open Database

namespace Write

/-! ## Carried arguments -/

/-- A write **carries** a list: it has a statement that names its columns and that it sends if it has
something to send and the list is not empty; and whoever replies, that statement carries the list. -/
structure Carries {α : Type} (w : Write) (sql : String) (names : List String)
    (read : Row → Except StoreError α) (xs : List α) : Prop where
  sent : w.HasToSend → xs ≠ [] → ∃ c, ∃ x ∈ w.said c, x.statement.sql = sql
  carried : ∀ c, ∀ x ∈ w.said c, x.statement.sql = sql →
    x.statement.Names names ∧ x.statement.Carries w.storageId names read xs

/-- What a write that speaks a dialogue says is what is said in the dialogue. -/
theorem said_of_speaks {α : Type} {w : Write} {d : Dialogue α} (speaks : Speaks d w.perform)
    (c : Connection) : w.said c = (d.hold c.peer).sent := by
  rw [said, (speaks c).1, List.drop_left]

/-- A write carries what the one statement with the text carries, in the dialogue that it speaks. -/
theorem carries_of_speaks {α : Type} {w : Write} {names : List String} {sql : String}
    {read : Row → Except StoreError α} {xs : List α}
    (speaks : w.HasToSend → ∃ (β : Type) (d : Dialogue β) (params : List Param),
      Speaks d w.perform ∧ d.Says (IsOnly (about sql w.storageId params)) ∧
      ((about sql w.storageId params).Names names ∧
        (about sql w.storageId params).Carries w.storageId names read xs) ∧
      (xs ≠ [] → ∃ peer, ∃ x ∈ (d.hold peer).sent, x.statement.sql = sql)) :
    w.Carries sql names read xs where
  sent := by
    intro h some
    obtain ⟨β, d, params, spoken, -, -, sent⟩ := speaks h
    obtain ⟨peer, x, hx, text⟩ := sent some
    refine ⟨.plain peer, x, ?_, text⟩
    rw [said_of_speaks spoken]
    exact hx
  carried := by
    intro c x hx text
    by_cases h : w.HasToSend
    · obtain ⟨β, d, params, spoken, only, carries, -⟩ := speaks h
      rw [said_of_speaks spoken] at hx
      rw [only.sent _ x hx text]
      exact carries
    · -- A write that has nothing to send says nothing.
      rw [said, w.quiet_of_not_hasToSend h, List.drop_length] at hx
      exact absurd hx List.not_mem_nil

/-- A write whose work is one query carries what the query does. -/
theorem carries_of_query {α : Type} {w : Write} {names : List String} {sql : String}
    {read : Row → Except StoreError α} {xs : List α} (other : sql ∉ frameTexts)
    (speaks : w.HasToSend → ∃ (β : Type) (params : List Param) (context : String)
      (f : List Row × Nat → Dialogue β), (∀ x, ∃ y, f x = .done (.ok y)) ∧
        Speaks (transaction w.storageId (queryRequest (about sql w.storageId params) context >>= f))
          w.perform ∧
        (about sql w.storageId params).Names names ∧
          (about sql w.storageId params).Carries w.storageId names read xs) :
    w.Carries sql names read xs := by
  refine carries_of_speaks fun h => ?_
  obtain ⟨β, params, context, f, ends, spoken, carried⟩ := speaks h
  refine ⟨_, _, params, spoken, says_transaction_query ends other, carried, fun _ => ?_⟩
  obtain ⟨x, hx, same⟩ := exists_sent_transaction_query w.storageId
    (about sql w.storageId params) context f
  exact ⟨_, x, hx, congrArg Statement.sql same⟩

/-- Dropping rows carries their keys. -/
theorem carries_delete (id : StorageId) (keys : List PermissionKey) :
    (delete id keys).Carries Sql.dropRows keyNames keyOfRow keys := by
  refine carries_of_query (by decide) fun h => ⟨_, keyColumns keys, _, _, fun x => ⟨_, rfl⟩,
    speaks_delete h, ?_, carries_keyColumns Sql.dropRows id keys⟩
  have placed : placeholders 2 (keyColumns keys) =
      ["$2::text[]", "$3::text[]", "$4::text[]", "$5::text[]"] := rfl
  exact names_about id placed "DELETE FROM path_permissions p USING " "d"
    (" WHERE p.storage_id = $1 AND p.path = d.path AND p.path_type = d.path_type " ++
      "AND p.sid_name = d.sid_name AND p.sid_type = d.sid_type " ++
      "RETURNING p.path, p.path_type, p.sid_name, p.sid_type") (by decide +kernel)

/-- Dropping subtrees carries their roots. -/
theorem carries_deleteUnder (id : StorageId) (roots : List PathRef) :
    (deleteUnder id roots).Carries Sql.dropUnder placeNames placeOfRow roots := by
  refine carries_of_query (by decide) fun h => ⟨_, placeColumns roots, _, _, fun x => ⟨_, rfl⟩,
    speaks_deleteUnder h, ?_, carries_placeColumns Sql.dropUnder id roots⟩
  have placed : placeholders 2 (placeColumns roots) = ["$2::text[]", "$3::text[]"] := rfl
  exact names_about id placed "DELETE FROM path_permissions p USING " "r"
    (" WHERE p.storage_id = $1 AND ( (r.path_type = 'FOLDER' AND (p.path = r.path " ++
      "OR left(p.path, char_length(r.path) + 1) = (r.path || '/'))) " ++
      "OR (r.path_type = 'FILE' AND p.path = r.path AND p.path_type = 'FILE') ) " ++
      "RETURNING p.path, p.path_type, p.sid_name, p.sid_type") (by decide +kernel)

/-- Writing prolongations carries the last prolongation of each path. -/
theorem carries_prolong (id : StorageId) (records : List Prolongation) :
    (prolong id records).Carries Sql.writeProlongations prolongationNames prolongationOfRow
      ((Prolongation.keepLast records).map Prolongation.toMicros) := by
  refine carries_of_query (by decide) fun h => ?_
  obtain ⟨days, column, spoken⟩ := speaks_prolong h
  -- The id is bound once for all of them, so each has to be of that storage.
  have own : ∀ p ∈ Prolongation.keepLast records, p.storageId = id := by
    intro p hp
    have accepted := Validity.checkAll_eq_ok_iff.1 h.2.1 p (mem_of_mem_keepLast hp)
    exact Validity.storageId_of_checkProlongation accepted
  refine ⟨_, prolongationColumns (Prolongation.keepLast records) days, _, _, fun x => ⟨_, rfl⟩,
    spoken, ?_, carries_prolongationColumns Sql.writeProlongations column own⟩
  have placed : placeholders 2 (prolongationColumns (Prolongation.keepLast records) days) =
      ["$2::text[]", "$3::text[]", "$4::timestamptz[]", "$5::int[]", "$6::timestamptz[]"] := rfl
  exact names_about id placed
    ("INSERT INTO path_prolongations (storage_id, path, user_id, prolonged_until, days, updated) " ++
      "SELECT $1, u.path, u.user_id, u.prolonged_until, u.days, u.updated FROM ") "u"
    (" ON CONFLICT (storage_id, path) DO UPDATE SET user_id = EXCLUDED.user_id, " ++
      "prolonged_until = EXCLUDED.prolonged_until, days = EXCLUDED.days, " ++
      "updated = EXCLUDED.updated") (by decide +kernel)

/-- Writing rows carries the last row of each key. -/
theorem carries_upsert (storage : StorageRef) (rows : List Permission) :
    (upsert storage rows).Carries Sql.writeRows permissionNames permissionOfRow
      ((Permission.keepLast rows).map Permission.toMicros) := by
  have placed : placeholders 2 (permissionColumns (Permission.keepLast rows)) =
      ["$2::text[]", "$3::text[]", "$4::text[]", "$5::text[]", "$6::bigint[]",
        "$7::timestamptz[]"] := rfl
  have named : (about Sql.writeRows storage.id
      (permissionColumns (Permission.keepLast rows))).Names permissionNames :=
    names_about storage.id placed
      ("INSERT INTO path_permissions " ++
        "(storage_id, path, path_type, sid_name, sid_type, mask, created) " ++
        "SELECT $1, u.path, u.path_type, u.sid_name, u.sid_type, u.mask, u.created FROM ") "u"
      (" ON CONFLICT (storage_id, path, path_type, sid_name, sid_type) " ++
        "DO UPDATE SET mask = EXCLUDED.mask, created = EXCLUDED.created") (by decide +kernel)
  refine carries_of_speaks fun h => ⟨_, _, permissionColumns (Permission.keepLast rows),
    speaks_upsert h, says_upsert storage _,
    ⟨named, carries_permissionColumns Sql.writeRows storage.id _⟩, fun some => ?_⟩
  exact exists_sent_upsert storage (mt (congrArg (List.map Permission.toMicros)) some)

end Write

/-! ## Arguments read back -/

/-- **The columns of a write are its arguments.** Rows, prolongations, keys and roots are bound in columns
of one length, and what is read of the rows that these make is the arguments: the last row of each key
and the last prolongation of each path, with instants in whole microseconds, which keeps instants that
are so already; and keys and roots just as they were given. A stored mask is read exactly if it fits 32
bits, and stored days exactly if they are not negative; else the query fails. -/
theorem columns_read_back :
    (∀ storage rows, (Write.upsert storage rows).Carries Sql.writeRows permissionNames
      permissionOfRow ((Permission.keepLast rows).map Permission.toMicros)) ∧
    (∀ id records, (Write.prolong id records).Carries Sql.writeProlongations prolongationNames
      prolongationOfRow ((Prolongation.keepLast records).map Prolongation.toMicros)) ∧
    (∀ id keys, (Write.delete id keys).Carries Sql.dropRows keyNames keyOfRow keys) ∧
    (∀ id roots, (Write.deleteUnder id roots).Carries Sql.dropUnder placeNames placeOfRow roots) ∧
    (∀ t : Instant, t.WholeMicros → t.toMicros = t) ∧
    (∀ row key n created, keyOfRow row = .ok key → cell? "mask" row = some (.int8 n) →
      cell? "created" row = some (.instant created) →
      Gated (0 ≤ n.toInt ∧ n.toInt ≤ 4294967295) (permissionOfRow row)) ∧
    (∀ row n p, cell? "days" row = some (.int4 n) → ProlongationCells row p →
      Gated (0 ≤ n.toInt) (prolongationOfRow row)) :=
  ⟨Write.carries_upsert, Write.carries_prolong, Write.carries_delete, Write.carries_deleteUnder,
    fun _ => Instant.toMicros_of_wholeMicros, fun _ _ _ _ => gated_permissionOfRow,
    fun _ _ _ => gated_prolongationOfRow⟩

end Connection

end PathAcl
