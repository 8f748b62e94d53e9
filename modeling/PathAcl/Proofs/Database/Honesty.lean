import PathAcl.Proofs.Database.Blame

/-! # Honest operations
An operation on a connection whose arguments are valid fails with a fault of an argument just where the
database misnamed something, and in that fault. -/

namespace PathAcl.Connection

open Database

variable {α β δ : Type}

/-! ## Honest operations -/

/-- A talk is **honest** about how an operation ends: it ends in a fault of an argument just if something
was misnamed, and in that fault. -/
def Honest (said : List Exchange) (result : Except StoreError α) : Prop :=
  ∀ message, result = .error (.invalidInput message) ↔
    ∃ fault, Misnames fault said ∧ message = fault.message

/-- A dialogue is held, and what it answers is read. It is honest if both together end in a fault of an
argument just where something was misnamed. -/
theorem honest_timed_bind {operation : Operation} {limit : Connection → Span}
    {measures : QueryStatus → List Measure} {d : Dialogue δ} {decode : δ → Except StoreError β}
    {f : δ → Action Connection StoreError β}
    (ends : ∀ peer message, ((d.hold peer).result = some (.error (.invalidInput message)) ∨
        ∃ x, (d.hold peer).result = some (.ok x) ∧ decode x = .error (.invalidInput message)) ↔
      ∃ fault, Misnames fault (d.hold peer).sent ∧ message = fault.message)
    (finish : ∀ x, Tells (fun said result => said = [] ∧ result = decode x) (f x)) :
    Tells Honest (timed operation limit measures d >>= f) := by
  have held : Tells (fun said result => ∃ peer, said = (d.hold peer).sent ∧
      ((d.hold peer).result = some result ∨
        (d.hold peer).result = none ∧ ∃ name span, result = .error (.timeout name span)))
      (timed operation limit measures d) :=
    .timedOut (fun peer r ended => ⟨peer, rfl, .inl ended⟩)
      fun peer span unanswered => ⟨peer, rfl, .inr ⟨unanswered, _, span, rfl⟩⟩
  refine held.bind ?_ fun x => (finish x).mono ?_
  · rintro said e ⟨peer, rfl, ended | ⟨unanswered, name, span, timeout⟩⟩ message
    · rw [← ends peer message, ended]
      constructor
      · intro same
        exact .inl (congrArg some (congrArg Except.error (Except.error.inj same)))
      · rintro (same | ⟨x, same, -⟩)
        · exact congrArg Except.error (Except.error.inj (Option.some.inj same))
        · cases same
    · rw [← ends peer message, unanswered]
      cases timeout
      refine iff_of_false nofun ?_
      rintro (same | ⟨x, same, -⟩) <;> cases same
  · rintro later result ⟨rfl, rfl⟩ said ⟨peer, rfl, ended | ⟨-, name, span, timeout⟩⟩ message
    · rw [List.append_nil, ← ends peer message, ended]
      constructor
      · exact fun stuck => .inr ⟨x, rfl, stuck⟩
      · rintro (same | ⟨y, same, stuck⟩)
        · cases same
        · cases same
          exact stuck
    · cases timeout

/-- Rows that a dialogue answers are read after it. -/
theorem honest_reading {operation : Operation} {limit : Connection → Span}
    {measures : QueryStatus → List Measure} {d : Dialogue δ} {decode : δ → Except StoreError β}
    {f : δ → Action Connection StoreError β} (blameless : d.Blames fun _ _ => False)
    (only : ∀ x, OnlyStuckAtNames (decode x))
    (misnames : ∀ peer fault, Misnames fault (d.hold peer).sent ↔
      ∃ x, (d.hold peer).result = some (.ok x) ∧ StuckAt fault (decode x))
    (finish : ∀ x, Tells (fun said result => said = [] ∧ result = decode x) (f x)) :
    Tells Honest (timed operation limit measures d >>= f) := by
  refine honest_timed_bind (fun peer message => ?_) finish
  constructor
  · rintro (blamed | ⟨x, answered, stuck⟩)
    · obtain ⟨_, ⟨_, _, never⟩, _⟩ := (blameless.result_iff (fun _ _ => nofun) peer message).1 blamed
      exact never.elim
    · obtain ⟨fault, at_name, rfl⟩ := only x message stuck
      exact ⟨fault, (misnames peer fault).2 ⟨x, answered, at_name⟩, rfl⟩
  · rintro ⟨fault, misnamed, rfl⟩
    obtain ⟨x, answered, -, stuck⟩ := (misnames peer fault).1 misnamed
    exact .inr ⟨x, answered, stuck⟩

/-- A dialogue that drops no rows reads what it is told itself, and after it nothing fails. -/
theorem honest_spoken {operation : Operation} {limit : Connection → Span}
    {measures : QueryStatus → List Measure} {d : Dialogue δ} {answer : δ → β}
    {f : δ → Action Connection StoreError β} {texts : List String} (blames : d.Blames MisnamedIn)
    (within : d.SaysOnly texts) (drops : ∀ sql ∈ texts, sql ∉ dropTexts)
    (finish : ∀ x, Tells (fun said result => said = [] ∧ result = .ok (answer x)) (f x)) :
    Tells Honest (timed operation limit measures d >>= f) := by
  refine honest_timed_bind (fun peer message => ?_) finish
  have answered : ∀ fault x, MisnamedIn fault x →
      ∃ rows affected, x.reply = some (.answered rows affected) :=
    fun _ _ ⟨rows, affected, reply, _⟩ => ⟨rows, affected, reply⟩
  rw [blames.result_iff answered]
  simp only [misnames_iff_of_not_drops (within.sent peer) drops, reduceCtorEq, and_false,
    exists_false, or_false]

/-! ## The operations of the database -/

/-- A check that passes is left out. -/
theorem honest_require {check : Except Fault Unit} {a : Action Connection StoreError α}
    (passes : check = .ok ()) (h : Tells Honest a) : Tells Honest (require check >>= fun _ => a) := by
  rw [passes]
  exact h

/-- An answer without a word is honest. -/
theorem honest_answer (x : α) : Tells Honest (pure x) := by
  refine .answer fun message => iff_of_false nofun ?_
  rintro ⟨fault, misnamed, -⟩
  exact not_misnames_nil fault misnamed

/-- Loading rows is honest. -/
theorem honest_load {id : StorageId} (known : Validity.checkStorageId id = .ok ())
    (places : List PathRef) : Tells Honest (load id places) := by
  refine honest_require known (.ite _ (honest_answer _) ?_)
  refine honest_reading (blames_queryRows (fun _ _ => not_false) _)
    (onlyStuckAtNames_readAll onlyStuckAtNames_permissionOfRow) ?_ fun rows => .ofExcept ⟨rfl, rfl⟩
  have kept : Sql.rowsAt ∉ dropTexts := by decide
  exact misnames_queryRows kept fun fault rows => misnamed_grants_iff (.inl rfl)

/-- So is looking for the rows of sids. -/
theorem honest_loadHeld {id : StorageId} (known : Validity.checkStorageId id = .ok ())
    (places : List PathRef) (sids : List Sid) : Tells Honest (loadHeld id places sids) := by
  refine honest_require known (.ite _ (honest_answer _) ?_)
  refine honest_reading (blames_queryRows (fun _ _ => not_false) _)
    (onlyStuckAtNames_readAll onlyStuckAtNames_permissionOfRow) ?_ fun rows => .ofExcept ⟨rfl, rfl⟩
  have kept : Sql.rowsHeld ∉ dropTexts := by decide
  exact misnames_queryRows kept fun fault rows => misnamed_grants_iff (.inr rfl)

/-- So is listing storages. -/
theorem honest_storagesHolding (sids : List Sid) : Tells Honest (storagesHolding sids) := by
  refine .ite _ (honest_answer _) ?_
  refine honest_reading (blames_queryRows (fun _ _ => not_false) _)
    (onlyStuckAtNames_readAll onlyStuckAtNames_storageOfRow) ?_ fun rows => .ofExcept ⟨rfl, rfl⟩
  have kept : Sql.storagesHolding ∉ dropTexts := by decide
  exact misnames_queryRows kept fun fault rows => misnamed_storages_iff

/-- So is dropping rows. -/
theorem honest_delete {id : StorageId} (known : Validity.checkStorageId id = .ok ())
    {keys : List PermissionKey} (valid : Validity.checkAll Validity.checkKey keys = .ok ()) :
    Tells Honest (delete id keys) := by
  refine honest_require known (honest_require valid (.ite _ (honest_answer _) ?_))
  refine honest_reading ?_ (onlyStuckAtNames_readAll onlyStuckAtNames_keyOfRow) ?_
    fun rows => .ofExcept ⟨rfl, rfl⟩
  · exact blames_transaction (fun _ _ _ => not_false) (blames_queryRows (fun _ _ => not_false) _)
  · exact misnames_dropping List.mem_cons_self rfl (framed_delete id keys)

/-- So is dropping subtrees. -/
theorem honest_deleteUnder {id : StorageId} (known : Validity.checkStorageId id = .ok ())
    {roots : List PathRef}
    (valid : Validity.checkAll (fun r => Validity.checkPath r.path) roots = .ok ()) :
    Tells Honest (deleteUnder id roots) := by
  refine honest_require known (honest_require valid (.ite _ (honest_answer _) ?_))
  refine honest_reading ?_ (onlyStuckAtNames_readAll onlyStuckAtNames_keyOfRow) ?_
    fun rows => .log_bind (.ofExcept ⟨rfl, rfl⟩)
  · exact blames_transaction (fun _ _ _ => not_false) (blames_queryRows (fun _ _ => not_false) _)
  · exact misnames_dropping (List.mem_cons_of_mem _ List.mem_cons_self) rfl
      (framed_deleteUnder id roots)

/-- So is moving rows. -/
theorem honest_relocate {id : StorageId} {source destination : PathRef}
    (known : Validity.checkStorageId id = .ok ())
    (from_valid : Validity.checkPath source.path = .ok ())
    (to_valid : Validity.checkPath destination.path = .ok ()) :
    Tells Honest (relocate id source destination) := by
  refine honest_require known (honest_require from_valid (honest_require to_valid ?_))
  refine honest_spoken ?_ (framed_relocate id source destination).within (by decide)
    fun moved => .log_bind (.answer ⟨rfl, rfl⟩)
  refine blames_transaction frame_unread ?_
  -- neither the question whether the place is occupied nor the move is read for names
  refine .bind (blames_queryRows (unread_about ?_) _) fun rows =>
    .bind (.done (onlyValue_ne_invalidInput _ _ _)) fun occupied => ?_
  · cases destination.type <;> decide
  split
  · exact .done fun _ same => by cases same
  · refine .bind (blames_queryRequest (unread_about ?_) _) fun _ => .done fun _ same => by cases same
    cases source.type <;> decide

/-- So is writing prolongations, whose days fit their column. -/
theorem honest_prolong {id : StorageId} (known : Validity.checkStorageId id = .ok ())
    {records : List Prolongation}
    (valid : Validity.checkAll (Validity.checkProlongation id) records = .ok ())
    (fit : ∀ p ∈ records, p.days.toNat ≤ Int32.maxValue.toInt) :
    Tells Honest (prolong id records) := by
  have fit_kept : ∀ p ∈ Prolongation.keepLast records, p.days.toNat ≤ Int32.maxValue.toInt :=
    fun p hp => fit p (mem_of_mem_keepLast hp)
  obtain ⟨days, column⟩ := exists_daysColumn fit_kept
  refine honest_require known (honest_require valid (.ite _ (honest_answer _) ?_))
  rw [column]
  refine honest_spoken ?_ (framed_prolong id _ days).within (by decide) fun _ => .answer ⟨rfl, rfl⟩
  refine blames_transaction frame_unread ?_
  have writes : Sql.writeProlongations ∉ readTexts := by decide
  exact .bind (blames_queryRequest (unread writes) _) fun _ => .done fun _ => nofun

/-- So is writing rows. -/
theorem honest_upsert {storage : StorageRef} (known : Validity.checkStorageId storage.id = .ok ())
    {rows : List Permission} (valid : Validity.checkAll Validity.checkPermission rows = .ok ()) :
    Tells Honest (upsert storage rows) := by
  refine honest_require known (honest_require valid ?_)
  refine honest_spoken ?_ (framed_upsert storage _).within (by decide) fun _ => .answer ⟨rfl, rfl⟩
  refine blames_transaction frame_unread (.bind (blames_makeKnown storage) fun _ => ?_)
  split
  · exact .done fun _ => nofun
  · have writes : Sql.writeRows ∉ readTexts := by decide
    exact .bind (blames_queryRequest (unread writes) _) fun _ => .done fun _ => nofun

/-- The text of a kind, if the storage is known. -/
def kindText : List Row → Except StoreError (Option String)
  | [] => .ok none
  | row :: _ => some <$> onlyColumn .text kindContext row

/-- The dialogue for a kind answers its text. -/
theorem kindOf_eq (id : StorageId) : Database.kindOf id =
    queryRows (about Sql.kindOf id []) kindContext >>= fun rows => .done (kindText rows) := by
  have map_ofExcept : ∀ r : Except StoreError String,
      some <$> Dialogue.ofExcept r = .done (some <$> r) := by
    rintro (e | text) <;> rfl
  refine congrArg (queryRows (about Sql.kindOf id []) kindContext >>= ·) (funext fun rows => ?_)
  cases rows with
  | nil => rfl
  | cons row rows => exact map_ofExcept _

/-- What cannot be read as a text fails the query. -/
theorem kindText_ne_invalidInput (rows : List Row) (message : String) :
    kindText rows ≠ .error (.invalidInput message) := by
  cases rows with
  | nil => exact nofun
  | cons row rows =>
      have read := onlyValue_ne_invalidInput .text kindContext (row :: rows) message
      rw [onlyValue] at read
      rw [kindText]
      intro same
      cases column : onlyColumn .text kindContext row with
      | ok text => rw [column] at same; cases same
      | error e =>
          rw [column] at same read
          exact read (congrArg Except.error (Except.error.inj same))

/-- The text of a kind is the first value. -/
theorem kindText_eq_ok_some_iff {rows : List Row} {text : String} :
    kindText rows = .ok (some text) ↔ firstCell? rows = some (.text text) := by
  cases rows with
  | nil => exact iff_of_false (fun same => by cases same) fun same => by cases same
  | cons row rows =>
      rw [← @onlyValue_text_eq_ok_iff kindContext, onlyValue, kindText]
      cases onlyColumn .text kindContext row with
      | error e => exact iff_of_false (fun same => by cases same) fun same => by cases same
      | ok found => exact ⟨fun same => by cases same; rfl, fun same => by cases same; rfl⟩

/-- The kind of a known storage. -/
def kindOfText : Option String → Except StoreError (Option StorageKind)
  | none => .ok none
  | some text => some <$> named StorageKind.ofName text

/-- Reading a kind is stuck where its rows are misnamed. -/
theorem misnamed_kindOf_iff (fault : Fault) (rows : List Row) :
    Misnamed fault Sql.kindOf rows ↔ StuckAt fault (kindText rows >>= kindOfText) := by
  rw [misnamed_kind_iff, stuckAt_bind_iff (kindText_ne_invalidInput rows)]
  constructor
  · rintro ⟨text, first, stuck⟩
    exact ⟨some text, kindText_eq_ok_some_iff.2 first, (stuckAt_map_iff some).2 stuck⟩
  · rintro ⟨text?, told, stuck⟩
    cases text? with
    | none => cases stuck.2
    | some text => exact ⟨text, kindText_eq_ok_some_iff.1 told, (stuckAt_map_iff some).1 stuck⟩

/-- So is asking for a kind. -/
theorem honest_kindOf (id : StorageId) : Tells Honest (kindOf id) := by
  refine @honest_reading _ _ _ _ _ _ kindOfText _ ?_ ?_ ?_ ?_
  · rw [kindOf_eq]
    exact .bind (blames_queryRows (fun _ _ => not_false) _) fun rows =>
      .done (kindText_ne_invalidInput rows)
  · rintro (_ | text)
    · exact onlyStuckAtNames_ok none
    · exact .bind (onlyStuckAtNames_named unknownName_of_storageKind text) fun kind =>
        onlyStuckAtNames_ok (some kind)
  · intro peer fault
    have kept : Sql.kindOf ∉ dropTexts := by decide
    rw [kindOf_eq, Dialogue.hold_bind_done,
      misnames_queryRows kept fun fault rows => misnamed_kindOf_iff fault rows]
    simp only [stuckAt_bind_iff (kindText_ne_invalidInput _)]
    generalize ((queryRows _ _).hold peer).result = asked
    match asked with
    | none => exact iff_of_false (fun ⟨_, never, _⟩ => nomatch never) fun ⟨_, never, _⟩ => nomatch never
    | some (.error e) =>
        exact iff_of_false (fun ⟨_, never, _⟩ => nomatch never) fun ⟨_, never, _⟩ => nomatch never
    | some (.ok rows) =>
        constructor
        · rintro ⟨_, same, text?, told, stuck⟩
          cases same
          exact ⟨text?, congrArg some told, stuck⟩
        · rintro ⟨text?, told, stuck⟩
          exact ⟨rows, rfl, text?, Option.some.inj told, stuck⟩
  · rintro (_ | text)
    · exact .answer ⟨rfl, rfl⟩
    · have map_ofExcept : ∀ r : Except StoreError StorageKind,
          (some <$> Action.ofExcept r : Action Connection StoreError _) = .ofExcept (some <$> r) := by
        rintro (e | kind) <;> rfl
      dsimp only
      rw [map_ofExcept]
      exact .ofExcept ⟨rfl, rfl⟩

end PathAcl.Connection
