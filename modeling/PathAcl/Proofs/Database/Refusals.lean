import PathAcl.Proofs.Database.Connection
import PathAcl.Proofs.Store.Checks

/-! # What the database refuses
Before an operation has sent anything it can fail for what is checked of its arguments only: a dialogue
begins with a statement, and if no statement reaches the peer then the failure is one of the connection.
What the database misnames later is not refused: something was sent before. -/

namespace PathAcl.Connection

open Database
open PathAcl.Action

variable {α β δ : Type}

/-- On a connection a refusal is told by the answer, and by the silence before it. -/
abbrev Refuses (check : Except Fault Unit) (a : Action Connection StoreError α) : Prop :=
  Action.Refuses (fun c c' => c'.sent = c.sent) check a

/-- A check is made first. -/
theorem refuses_require {check rest : Except Fault Unit} {a : Action Connection StoreError α}
    (h : Refuses rest a) :
    Refuses (check >>= fun _ => rest) (require check >>= fun _ => a) :=
  .after_check (fun _ => rfl) fun _ => h

/-- After a single check nothing more is refused. -/
theorem refuses_checked {check : Except Fault Unit} {a : Action Connection StoreError α}
    (h : Refuses (.ok ()) a) : Refuses check (require check >>= fun _ => a) :=
  .after_last_check (fun _ => rfl) h

/-- A dialogue **opens** with a statement if it begins by sending one, and blames no argument if a closed
pool refuses it. -/
def Opens (d : Dialogue δ) : Prop :=
  ∃ statement next e, d = .ask statement next ∧ next (.refused closedCause) = .done (.error e) ∧
    ∀ message, e ≠ .invalidInput message

/-- A request opens a dialogue if its failure blames no argument. -/
theorem opens_request (statement : Statement) {failure : String → StoreError}
    (other : ∀ message, failure closedCause ≠ .invalidInput message) :
    Opens (.request statement failure) :=
  ⟨statement, _, failure closedCause, rfl, rfl, other⟩

/-- What is said later does not change how a dialogue opens. -/
theorem Opens.bind {d : Dialogue δ} (h : Opens d) (f : δ → Dialogue α) : Opens (d >>= f) := by
  obtain ⟨statement, next, e, rfl, closed, other⟩ := h
  refine ⟨statement, fun r => (next r).andThen f, e, rfl, ?_, other⟩
  exact congrArg (Dialogue.andThen · f) closed

/-- The question for rows opens a dialogue. -/
theorem opens_queryRows (statement : Statement) (context : String) :
    Opens (queryRows statement context) := by
  refine .bind (opens_request statement ?_) _
  intro message same
  cases same

/-- So does a transaction. -/
theorem opens_transaction (id : StorageId) (work : Dialogue δ) : Opens (transaction id work) := by
  refine .bind (opens_request ⟨Sql.begin, []⟩ ?_) _
  intro message same
  cases same

/-- If nothing reaches the peer, an opened dialogue ends in a failure that blames no argument. -/
theorem Opens.unheard {d : Dialogue δ} (h : Opens d) {peer : Peer} {r : Except StoreError δ}
    (ended : (d.hold peer).result = some r) (silent : (d.hold peer).sent = []) :
    ∃ e, r = .error e ∧ ∀ message, e ≠ .invalidInput message := by
  obtain ⟨statement, next, e, rfl, closed, other⟩ := h
  -- A peer that answers or is silent was sent the statement; only a closed pool hears nothing.
  cases peer with
  | script replies => cases replies <;> cases silent
  | closed =>
      rw [Dialogue.hold, closed] at ended
      exact ⟨e, (Option.some.inj ended).symm, other⟩
  | silent => cases ended

/-- What blames no argument before it has said something refuses nothing. -/
theorem refuses_of_tells {a : Action Connection StoreError α} (told : Tells (fun said result =>
      said = [] → ∀ message, result ≠ .error (.invalidInput message)) a) : Refuses (.ok ()) a := by
  intro c message
  refine iff_of_false ?_ (not_refused_ok message)
  rintro ⟨failed, same⟩
  obtain ⟨said, sent, quiet⟩ := told c
  have silent : said = [] := List.append_right_eq_self.1 (sent.symm.trans same)
  exact quiet silent message failed

section Timed

variable {operation : Operation} {limit : Connection → Span} {measures : QueryStatus → List Measure}
  {d : Dialogue δ}

/-- A dialogue that opens ends in a failure that blames no argument if nothing is said. -/
theorem tells_unheard (opens : Opens d) : Tells (fun said result => said = [] →
      ∃ e, result = .error e ∧ ∀ message, e ≠ .invalidInput message)
    (timed operation limit measures d) := by
  refine .timedOut (fun _ _ ended silent => opens.unheard ended silent) fun _ _ _ _ => ⟨_, rfl, ?_⟩
  intro message same
  cases same

/-- So it refuses nothing. -/
theorem refuses_timed (opens : Opens d) : Refuses (.ok ()) (timed operation limit measures d) := by
  refine refuses_of_tells ((tells_unheard opens).mono fun said result unheard silent message same => ?_)
  obtain ⟨e, failed, other⟩ := unheard silent
  exact other message (Except.error.inj (failed.symm.trans same))

/-- Nor does what is made of its answer: an answer is given only after something was said. -/
theorem refuses_timed_bind {f : δ → Action Connection StoreError α} (opens : Opens d)
    (appends : ∀ x, Appends (f x)) : Refuses (.ok ()) (timed operation limit measures d >>= f) := by
  refine refuses_of_tells ((tells_unheard opens).bind ?_ fun x => (appends x).mono ?_)
  · intro said e unheard silent message same
    obtain ⟨e', failed, other⟩ := unheard silent
    exact other message ((Except.error.inj failed).symm.trans (Except.error.inj same))
  · intro later result _ said answered silent
    obtain ⟨e, never, -⟩ := answered (List.append_eq_nil_iff.1 silent).1
    cases never

end Timed

/-- A choice that refuses nothing. -/
theorem refuses_ite {a b : Action Connection StoreError α} {check : Except Fault Unit} (c : Prop)
    [Decidable c] (ha : c → Refuses check a) (hb : ¬ c → Refuses check b) :
    Refuses check (if c then a else b) := by
  by_cases h : c
  · rw [if_pos h]
    exact ha h
  · rw [if_neg h]
    exact hb h

/-- An answer without a word refuses nothing. -/
theorem refuses_answer (x : α) : Refuses (.ok ()) (pure x : Action Connection StoreError α) :=
  (harmless_of_answers (answers_pure x)).refuses

/-- Writing rows. -/
theorem refuses_upsert (storage : StorageRef) (rows : List Permission) :
    Refuses (Store.Call.upsert storage rows).check (store.upsert storage rows) :=
  refuses_require (refuses_checked
    (refuses_timed_bind (opens_transaction _ _) fun _ => appends_answer _))

/-- Dropping rows. -/
theorem refuses_delete (id : StorageId) (keys : List PermissionKey) :
    Refuses (Store.Call.delete id keys).check (store.delete id keys) :=
  refuses_require (refuses_checked (refuses_ite _ (fun _ => refuses_answer _) fun _ =>
    refuses_timed_bind (opens_transaction _ _) fun _ => appends_ofExcept _))

/-- Dropping subtrees. -/
theorem refuses_deleteUnder (id : StorageId) (roots : List PathRef) :
    Refuses (Store.Call.deleteUnder id roots).check (store.deleteUnder id roots) :=
  refuses_require (refuses_checked (refuses_ite _ (fun _ => refuses_answer _) fun _ =>
    refuses_timed_bind (opens_transaction _ _) fun _ =>
      .bind (appends_log _) fun _ => appends_ofExcept _))

/-- Moving rows. -/
theorem refuses_relocate (id : StorageId) (source destination : PathRef) :
    Refuses (Store.Call.relocate id source destination).check
      (store.relocate id source destination) :=
  refuses_require (refuses_require (refuses_checked (refuses_timed_bind (opens_transaction _ _)
    fun _ => .bind (appends_log _) fun _ => appends_answer _)))

/-- Writing prolongations: the days are checked last, and only of the records that are kept. -/
theorem refuses_prolong (id : StorageId) (records : List Prolongation) :
    Refuses ((Store.Call.prolong id records).check >>= fun _ =>
      (Store.Call.prolong id records).checkDays) (store.prolong id records) := by
  rw [Store.Call.check, bind_assoc]
  refine refuses_require (refuses_require (refuses_ite _ (fun none => ?_) fun _ => ?_))
  · have days : (Store.Call.prolong id records).checkDays = .ok () := by
      rw [Store.Call.checkDays, Store.Call.prolongs, List.isEmpty_iff.1 none]
      rfl
    rw [days]
    exact refuses_answer _
  · exact .after_check (fun _ => rfl) fun days =>
      refuses_timed_bind (opens_transaction _ _) fun _ => appends_answer _

/-- Questions for rows about a storage. -/
theorem refuses_reading {id : StorageId} {c : Prop} [Decidable c] {x : α} {operation : Operation}
    {d : Dialogue δ} {decode : δ → Except StoreError α} (opens : Opens d) :
    Refuses (Validity.checkStorageId id) (do
      require (Validity.checkStorageId id)
      if c then pure x else reading operation d >>= fun rows => .ofExcept (decode rows)) :=
  refuses_checked (refuses_ite _ (fun _ => refuses_answer _) fun _ =>
    refuses_timed_bind opens fun _ => appends_ofExcept _)

/-- Looking for prolongations of paths. -/
theorem refuses_prolongationsAt (id : StorageId) (paths : List String) :
    Refuses (Validity.checkStorageId id) (store.prolongationsAt id paths) :=
  refuses_reading (opens_queryRows _ _)

/-- Naming the kind of a storage. -/
theorem refuses_kindOf (id : StorageId) : Refuses (.ok ()) (store.kindOf id) := by
  refine refuses_timed_bind ((opens_queryRows _ _).bind _) fun text? => ?_
  split
  · exact appends_answer _
  · exact .bind (appends_ofExcept _) fun _ => appends_answer _

/-- Listing storages. -/
theorem refuses_storagesHolding (sids : List Sid) : Refuses (.ok ()) (store.storagesHolding sids) :=
  refuses_ite _ (fun _ => refuses_answer _) fun _ =>
    refuses_timed_bind (opens_queryRows _ _) fun _ => appends_ofExcept _

/-- Asking after the health. -/
theorem refuses_health : Refuses (.ok ()) store.health := by
  refine refuses_timed_bind (.bind (opens_request ⟨Sql.ping, []⟩ ?_) _) fun _ =>
    .bind appends_get fun _ => appends_answer _
  intro message same
  cases same

/-- A call that writes no prolongation has no days to check. -/
theorem refuses_without_days {c : Store.Call} {a : Action Connection StoreError α}
    (none : c.prolongs = []) (h : Refuses c.check a) :
    Refuses (c.check >>= fun _ => c.checkDays) a := by
  have plain : (c.check >>= fun _ => c.checkDays) = c.check := by
    rw [Store.Call.checkDays, none]
    cases c.check <;> rfl
  rw [plain]
  exact h

/-- **The database refuses** a call by what is checked of it, and by the days it would write. -/
theorem refuses_act (c : Store.Call) :
    Refuses (c.check >>= fun _ => c.checkDays) (store.act c) := by
  cases c with
  -- The calls that write prolongations are the two that may have days to check.
  | prolong id records => exact refuses_prolong id records
  | prolongOne record =>
      exact Store.refuses_prolongOne (refuses_prolong record.storageId [record])
  | register storage =>
      exact refuses_without_days rfl (refuses_checked (refuses_timed (opens_transaction _ _)))
  | upsert storage rows => exact refuses_without_days rfl (refuses_upsert storage rows)
  | upsertOne storage row =>
      exact refuses_without_days rfl (Store.refuses_upsertOne (refuses_upsert storage [row]))
  | delete id keys => exact refuses_without_days rfl (refuses_delete id keys)
  | deleteUnder id roots => exact refuses_without_days rfl (refuses_deleteUnder id roots)
  | deleteUnderRoot id root => exact refuses_without_days rfl (refuses_deleteUnder id [root])
  | relocate id source destination =>
      exact refuses_without_days rfl (refuses_relocate id source destination)
  | load id places => exact refuses_without_days rfl (refuses_reading (opens_queryRows _ _))
  | loadHeld id places sids =>
      exact refuses_without_days rfl (refuses_reading (opens_queryRows _ _))
  | prolongationsAt id paths => exact refuses_without_days rfl (refuses_prolongationsAt id paths)
  | nearestProlongation id path =>
      exact refuses_without_days rfl
        (Store.refuses_nearestProlongation (refuses_prolongationsAt id _))
  | prolongations id =>
      exact refuses_without_days rfl (refuses_checked
        (refuses_timed_bind (opens_queryRows _ _) fun _ => appends_ofExcept _))
  | kindOf id => exact refuses_without_days rfl (refuses_kindOf id)
  | storagesHolding sids => exact refuses_without_days rfl (refuses_storagesHolding sids)
  | health => exact refuses_without_days rfl refuses_health

end PathAcl.Connection
