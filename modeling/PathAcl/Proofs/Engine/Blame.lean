import PathAcl.Proofs.Database.Honesty
import PathAcl.Proofs.Engine.Demands
import PathAcl.Proofs.Engine.Revocation

/-! # Blame in answers
A valid request is not to blame for a failure. An engine over a database blames it nevertheless in one
case: the database returned a name of nothing where a name is read. -/

namespace PathAcl

open Database

/-! ## Whose failure it is -/

/-- A failure of the **backend**: of the store, or of what it knows of the storage. -/
inductive RequestError.OfBackend : RequestError → Prop
  | storageNotFound (id : StorageId) : OfBackend (.storageNotFound id)
  | kindMismatch (id : StorageId) (actual requested : StorageKind) :
      OfBackend (.kindMismatch id actual requested)
  | moveConflict (id : StorageId) (destination : String) : OfBackend (.moveConflict id destination)
  | storage (error : StoreError) : OfBackend (.storage error)

/-- A failure of the store stays one unless it is a fault of an argument. -/
theorem RequestError.ofStore_cases (e : StoreError) :
    (∃ message, e = .invalidInput message) ∨ (ofStore e).OfBackend := by
  cases e with
  | invalidInput message => exact .inl ⟨message, rfl⟩
  | storageNotFound id => exact .inr (.storageNotFound id)
  | kindMismatch id registered requested => exact .inr (.kindMismatch id registered requested)
  | destinationOccupied id path => exact .inr (.moveConflict id path)
  | connection message => exact .inr (.storage _)
  | query message => exact .inr (.storage _)
  | transaction message => exact .inr (.storage _)
  | timeout operation limit => exact .inr (.storage _)
  | healthCheck message => exact .inr (.storage _)
  | internal message => exact .inr (.storage _)

/-- A catalog is **blameless** if it fails for reasons of the backend alone. -/
def Catalog.Blameless (c : Catalog) : Prop :=
  ∀ ask, c = .external ask → ∀ id err, ask id = .error err → err.OfBackend

namespace Engine

variable {α β : Type} {catalog : Catalog} {maxBatch : Nat} {s t : EngineState Connection}

/-! ## Candid steps -/

/-- A talk is **candid** about how a step ends: it fails for no reason of the backend just if something
was misnamed, and then with that fault. -/
def CandidTalk (said : List Exchange) (result : Except RequestError α) : Prop :=
  ∀ err, (result = .error err ∧ ¬ err.OfBackend) ↔
    ∃ fault, Misnames fault said ∧ err = .invalidInput fault.message

/-- A step is **candid** if what it says is so. -/
def Candid (a : Step Connection α) : Prop :=
  ∀ s, ∃ said, (a.run s).state.store.sent = s.store.sent ++ said ∧ CandidTalk said (a.run s).answer

/-- A step is **mild** if it says nothing and fails only for a reason of the backend. -/
def Mild (a : Step Connection α) : Prop :=
  ∀ s, (a.run s).state.store.sent = s.store.sent ∧
    ∀ err, (a.run s).answer = .error err → err.OfBackend

/-- An answer is mild. -/
theorem mild_answer (x : α) : Mild (pure x) := fun _ => ⟨rfl, nofun⟩

/-- So is a failure of the backend. -/
theorem mild_fail {err : RequestError} (backend : err.OfBackend) :
    Mild (.fail err : Step Connection α) :=
  fun _ => ⟨rfl, fun _ same => Except.error.inj same ▸ backend⟩

/-- So is a computation that fails for no other reason. -/
theorem mild_ofExcept {r : Except RequestError α} (backend : ∀ err, r = .error err → err.OfBackend) :
    Mild (.ofExcept r) :=
  fun _ => ⟨rfl, backend⟩

/-- So is a report. -/
theorem mild_log (event : Event) : Mild (.log event) := fun _ => ⟨rfl, nofun⟩

/-- So is a note to the index. -/
theorem mild_noteWrite (id : StorageId) (sids : List Sid) : Mild (noteWrite id sids) := by
  intro s
  obtain ⟨answer, state⟩ := run_noteWrite s id sids
  rw [answer, state]
  exact ⟨rfl, nofun⟩

/-- So is putting an answer into the index. -/
theorem mild_remember (question : SidSet) (answer : SortedSet StorageRef) (asked : UInt64) :
    Mild (remember question answer asked) := by
  intro s
  obtain ⟨put, left⟩ := run_remember question answer asked s
  rw [put, left]
  exact ⟨rfl, nofun⟩

/-- Two mild steps in a row are mild. -/
theorem Mild.bind {a : Step Connection α} {f : α → Step Connection β} (ha : Mild a)
    (hf : ∀ x, Mild (f x)) : Mild (a >>= f) := by
  intro s
  obtain ⟨sent, fails⟩ := ha s
  rw [Action.state_bind, Action.answer_bind]
  cases answered : (a.run s).answer with
  | error e =>
      refine ⟨sent, fun err same => ?_⟩
      cases same
      exact fails e answered
  | ok x =>
      obtain ⟨more, later⟩ := hf x (a.run s).state
      exact ⟨more.trans sent, later⟩

/-- A talk without a word is candid about an answer and about a failure of the backend. -/
theorem candidTalk_nil {result : Except RequestError α}
    (h : ∀ err, result = .error err → err.OfBackend) : CandidTalk [] result := by
  intro err
  refine iff_of_false (fun ⟨same, other⟩ => other (h err same)) ?_
  rintro ⟨fault, misnamed, -⟩
  exact not_misnames_nil fault misnamed

/-- A mild step is candid. -/
theorem Mild.candid {a : Step Connection α} (h : Mild a) : Candid a :=
  fun s => ⟨[], (h s).1.trans (List.append_nil _).symm, candidTalk_nil (h s).2⟩

/-- If there is an answer nothing was misnamed. -/
theorem CandidTalk.not_misnames {said : List Exchange} {x : α} (h : CandidTalk said (.ok x))
    (fault : Fault) : ¬ Misnames fault said :=
  fun misnamed => nomatch ((h _).2 ⟨fault, misnamed, rfl⟩).1

/-- Of a failure it does not matter what would have been answered. -/
theorem CandidTalk.of_error {said : List Exchange} {e : RequestError}
    (h : CandidTalk said (.error e : Except RequestError α)) :
    CandidTalk said (.error e : Except RequestError β) := by
  intro err
  have same : (.error e : Except RequestError β) = .error err ↔
      (.error e : Except RequestError α) = .error err := by
    rw [Except.error.injEq, Except.error.injEq]
  rw [same]
  exact h err

/-- **An honest operation of the store makes a candid step.** -/
theorem candid_onStore {op : Action Connection StoreError α}
    (h : Connection.Tells Connection.Honest op) : Candid (onStore op) := by
  intro s
  obtain ⟨said, sent, honest⟩ := h s.store
  refine ⟨said, sent, fun err => ?_⟩
  have answer : ((onStore op).run s).answer =
    (op.run s.store).answer.mapError RequestError.ofStore := rfl
  rw [answer]
  cases result : (op.run s.store).answer with
  | ok x =>
      rw [result] at honest
      refine iff_of_false nofun ?_
      rintro ⟨fault, misnamed, -⟩
      exact nomatch (honest fault.message).2 ⟨fault, misnamed, rfl⟩
  | error e =>
      rw [result] at honest
      -- a fault of an argument is passed on as it is, every other failure as one of the backend
      rcases RequestError.ofStore_cases e with ⟨message, rfl⟩ | backend
      · constructor
        · rintro ⟨same, -⟩
          cases same
          obtain ⟨fault, misnamed, rfl⟩ := (honest message).1 rfl
          exact ⟨fault, misnamed, rfl⟩
        · rintro ⟨fault, misnamed, rfl⟩
          have same := (honest fault.message).2 ⟨fault, misnamed, rfl⟩
          cases same
          exact ⟨rfl, nofun⟩
      · refine iff_of_false (fun ⟨same, other⟩ => other ?_) ?_
        · cases same
          exact backend
        · rintro ⟨fault, misnamed, -⟩
          have same := (honest fault.message).2 ⟨fault, misnamed, rfl⟩
          cases same
          cases backend

/-- After a candid step there may be mild ones. -/
theorem Candid.bind {a : Step Connection α} {f : α → Step Connection β} (ha : Candid a)
    (hf : ∀ x, Mild (f x)) : Candid (a >>= f) := by
  intro s
  obtain ⟨said, sent, candid⟩ := ha s
  rw [Action.state_bind, Action.answer_bind]
  cases answered : (a.run s).answer with
  | error e =>
      rw [answered] at candid
      exact ⟨said, sent, candid.of_error⟩
  | ok x =>
      rw [answered] at candid
      -- there was an answer, so nothing was misnamed; what follows says nothing more
      obtain ⟨more, fails⟩ := hf x (a.run s).state
      refine ⟨said, more.trans sent, fun err => ?_⟩
      refine iff_of_false (fun ⟨same, other⟩ => other (fails err same)) ?_
      rintro ⟨fault, misnamed, -⟩
      exact candid.not_misnames fault misnamed

/-- What a step answers does not matter. -/
theorem Candid.met {a : Step Connection α} (h : Candid a) : Candid (a >>= fun _ => pure ()) :=
  h.bind fun _ => mild_answer ()

/-- A computation that gives an answer is left out. -/
theorem Candid.ofExcept_bind {r : Except RequestError α} {f : α → Step Connection β} {x : α}
    (passes : r = .ok x) (h : Candid (f x)) : Candid (.ofExcept r >>= f) := by
  intro s
  obtain ⟨answer, state⟩ := @Action.run_ofExcept_of_ok _ _ _ _ r f s x passes
  rw [answer, state]
  exact h s

/-- A look at the state before a candid step. -/
theorem Candid.look_bind {a : Step Connection α} {f : α → Step Connection β}
    (looks : ∀ s, ∃ x, (a.run s).answer = .ok x ∧ (a.run s).state = s) (h : ∀ x, Candid (f x)) :
    Candid (a >>= f) := by
  intro s
  obtain ⟨x, answered, kept⟩ := looks s
  obtain ⟨answer, state⟩ := @Action.run_bind_of_ok _ _ _ _ a f s s x answered kept
  rw [answer, state]
  exact h x s

/-! ## The check of a storage -/

/-- What the check of a storage said does not matter for what is dropped after it. -/
theorem misnames_append_iff {fault : Fault} {asked said : List Exchange}
    (only : ∀ x ∈ asked, x.statement.sql ∈ [Sql.kindOf]) :
    Misnames fault (asked ++ said) ↔ Misnames fault asked ∨ Misnames fault said := by
  have uncommitted : ¬ Committed asked := by
    rintro ⟨rows, affected, here⟩
    exact absurd (only _ here) (by decide : Sql.commit ∉ [Sql.kindOf])
  have undropped : ∀ sql ∈ [Sql.kindOf], sql ∉ dropTexts := by decide
  have committed_iff : Committed (asked ++ said) ↔ Committed said :=
    committed_append.trans (or_iff_right uncommitted)
  simp only [Misnames, committed_iff, List.mem_append, or_and_right, exists_or]
  refine or_congr_left (exists_congr fun x => and_congr_right fun here => and_congr_right fun _ => ?_)
  have kept := undropped _ (only x here)
  exact iff_of_true (absurd · kept) (absurd · kept)

/-- **The check of a storage is candid** if the catalog is blameless. -/
theorem candid_confirm (blameless : catalog.Blameless) (storage : StorageRef) :
    Candid ((Connection.engine catalog maxBatch).confirm storage) := by
  have lookup : Candid ((Connection.engine catalog maxBatch).lookup storage.id) := by
    cases catalog with
    | ofStore => exact candid_onStore (Connection.honest_kindOf storage.id)
    | external ask => exact (mild_ofExcept (blameless ask rfl storage.id)).candid
  refine lookup.bind fun kind? => ?_
  cases kind? with
  | none => exact mild_fail (.storageNotFound _)
  | some kind =>
      by_cases same : kind = storage.kind
      · simp only [if_pos same]
        exact mild_answer _
      · simp only [if_neg same]
        exact mild_fail (.kindMismatch _ _ _)

/-- It may come before any candid step. -/
theorem Candid.confirm_bind (blameless : catalog.Blameless) {storage : StorageRef}
    {a : Step Connection α} (h : Candid a) :
    Candid ((Connection.engine catalog maxBatch).confirm storage >>= fun _ => a) := by
  intro s
  obtain ⟨asked, sent, only, -⟩ := @said_confirm catalog maxBatch storage s
  obtain ⟨same, again, candid⟩ := @candid_confirm catalog maxBatch blameless storage s
  obtain rfl : asked = same := List.append_cancel_left (sent.symm.trans again)
  rw [Action.state_bind, Action.answer_bind]
  cases answered : (((Connection.engine catalog maxBatch).confirm storage).run s).answer with
  | error e =>
      rw [answered] at candid
      exact ⟨asked, sent, candid.of_error⟩
  | ok x =>
      rw [answered] at candid
      obtain ⟨said, more, candid_after⟩ :=
        h (((Connection.engine catalog maxBatch).confirm storage).run s).state
      -- the check passed, so what is misnamed was said after it
      refine ⟨asked ++ said, by rw [more, sent, List.append_assoc], fun err => ?_⟩
      rw [candid_after err]
      refine exists_congr fun fault => and_congr_left' ?_
      rw [misnames_append_iff only, or_iff_right (candid.not_misnames fault)]

/-! ## Valid demands -/

/-- After an honest operation an engine notes, reports and answers. -/
theorem candid_noted {op : Action Connection StoreError α} {id : StorageId} {sids : α → List Sid}
    {event : α → Event} (h : Connection.Tells Connection.Honest op) :
    Candid (onStore op >>= fun x => noteWrite id (sids x) >>= fun _ => .log (event x) >>= fun _ =>
      pure x) :=
  (candid_onStore h).bind fun _ => (mild_noteWrite _ _).bind fun _ => (mild_log _).bind fun _ =>
    mild_answer _

/-- Or it reports and answers. -/
theorem candid_reported {op : Action Connection StoreError α} {event : α → Event} {f : α → β}
    (h : Connection.Tells Connection.Honest op) :
    Candid (onStore op >>= fun x => .log (event x) >>= fun _ => pure (f x)) :=
  (candid_onStore h).bind fun _ => (mild_log _).bind fun _ => mild_answer _

/-- Effective masks are candid. -/
theorem candid_effectiveOf {id : StorageId} (positive : 0 < id) (targets : SortedSet PathRef)
    (sids : List Sid) : Candid ((Connection.engine catalog maxBatch).effectiveOf id targets sids) := by
  rw [effectiveOf]
  split
  · exact (mild_answer _).candid
  · exact candid_reported
      (Connection.honest_loadHeld (Validity.checkStorageId_eq_ok_iff.2 positive) _ _)

/-- Listing is candid. -/
theorem candid_readable (sids : List Sid) :
    Candid ((Connection.engine catalog maxBatch).readable sids) := by
  rw [readable]
  split
  · exact (mild_answer _).candid
  · refine .look_bind (fun s => ⟨_, run_consult _ s⟩) fun answer? => ?_
    cases answer? with
    | some answer => exact (mild_answer _).candid
    | none =>
        refine .look_bind (fun s => ⟨_, rfl, rfl⟩) fun asked => ?_
        refine Candid.bind ?_ fun answer => (mild_remember _ _ _).bind fun _ => mild_answer _
        exact (candid_onStore (Connection.honest_storagesHolding _)).bind fun _ => mild_answer _

/-- **A batch that passes its checks** is met candidly if what is done with its items is candid, given
that they may be handed to a store. -/
theorem candid_batch (blameless : catalog.Blameless) {γ δ : Type} {items : List γ}
    {read : γ → Except RequestError δ} {p : δ → Prop}
    {storage : StorageRef} {f : List δ → Step Connection α}
    (size : 0 < items.length ∧ items.length ≤ maxBatch)
    (each : ∀ x ∈ items, ∃ y, read x = .ok y ∧ p y) (act : ∀ ys, (∀ y ∈ ys, p y) → Candid (f ys)) :
    Candid (.ofExcept (Request.checkSize maxBatch items.length) >>= fun _ =>
      .ofExcept (items.mapM read) >>= fun ys =>
        (Connection.engine catalog maxBatch).confirm storage >>= fun _ => f ys) := by
  obtain ⟨ys, taken, fit⟩ := exists_mapM_eq_ok each
  refine .ofExcept_bind (Request.checkSize_eq_ok_iff.2 size) (.ofExcept_bind taken ?_)
  exact .confirm_bind blameless (act ys fit)

/-- A valid move is candid. -/
theorem candid_move (blameless : catalog.Blameless) {storage : StorageRef} (positive : 0 < storage.id)
    {source destination : PathRef} (ends : source.ValidMove destination) :
    Candid ((Connection.engine catalog maxBatch).move storage source destination) := by
  obtain ⟨p, q, taken, from_stored, to_stored⟩ := exists_checkMove ends
  refine .ofExcept_bind taken ?_
  by_cases same : p = q
  · simp only [if_pos same]
    exact ((mild_log _).bind fun _ => mild_answer _).candid
  · simp only [if_neg same]
    have moves := @Connection.honest_relocate _ p q
      (Validity.checkStorageId_eq_ok_iff.2 positive) from_stored to_stored
    refine .confirm_bind blameless ((candid_onStore moves).bind fun moved => ?_)
    split
    · exact (mild_noteWrite _ _).bind fun _ => (mild_log _).bind fun _ => mild_answer _
    · exact (mild_log _).bind fun _ => mild_answer _

/-- So are valid prolongations. -/
theorem candid_prolong (blameless : catalog.Blameless) {now till : Instant} {storage : StorageRef}
    (positive : 0 < storage.id)
    {paths : List String} (size : 0 < paths.length ∧ paths.length ≤ maxBatch)
    (items : ∀ path ∈ paths, Path.Normalizable path) {userId : String}
    (user : Text.blank userId = false) {days : UInt32} (some_days : days ≠ 0)
    (reached : now.addDays? days.toNat = some till) :
    Candid ((Connection.engine catalog maxBatch).prolong now storage paths userId days) := by
  obtain ⟨normal, taken, stored⟩ :=
    exists_mapM_eq_ok fun path hp => Request.exists_normalPath (items path hp)
  have until_then : prolongedUntil now days = .ok till := by rw [prolongedUntil, reached]
  refine .ofExcept_bind (Request.checkSize_eq_ok_iff.2 size) ?_
  simp only [if_neg some_days, user, Bool.false_eq_true, if_false]
  refine .ofExcept_bind taken (.ofExcept_bind until_then ?_)
  refine .confirm_bind blameless (candid_reported ?_)
  refine Connection.honest_prolong (Validity.checkStorageId_eq_ok_iff.2 positive)
    (Validity.checkAll_eq_ok_iff.2 ?_) ?_
  · refine List.forall_mem_map.2 fun path hp => ?_
    simp only [Validity.checkProlongation, stored path hp, user, some_days, ne_eq,
      not_true_eq_false, if_false, Bool.false_eq_true]
    rfl
  · -- the calendar ends before the days are too many for their column
    exact List.forall_mem_map.2 fun path hp => Instant.le_of_addDays? reached

/-- **Every valid demand is met candidly** if the catalog is blameless. -/
theorem Demand.Valid.candid {d : Demand} (h : d.Valid maxBatch) (blameless : catalog.Blameless) :
    Candid (d.step (Connection.engine catalog maxBatch)) := by
  have known : ∀ {id : StorageId}, 0 < id → Validity.checkStorageId id = .ok () :=
    Validity.checkStorageId_eq_ok_iff.2
  cases h with
  | @insert now storage requests positive size items =>
      refine .met (candid_batch blameless size (fun r hr => Request.exists_toRow now (items r hr)) ?_)
      exact fun rows fit => candid_noted
        (Connection.honest_upsert (known positive) (Validity.checkAll_eq_ok_iff.2 fit))
  | delete positive size items =>
      refine .met (candid_batch blameless size (fun k hk => Request.exists_toKey (items k hk)) ?_)
      exact fun keys fit => candid_noted
        (Connection.honest_delete (known positive) (Validity.checkAll_eq_ok_iff.2 fit))
  | load positive size items =>
      refine .met (candid_batch blameless size (fun r hr => Request.exists_normalRef (items r hr)) ?_)
      exact fun places _ => candid_reported (Connection.honest_load (known positive) _)
  | deleteUnder positive size items =>
      refine .met (candid_batch blameless size (fun r hr => Request.exists_normalRef (items r hr)) ?_)
      exact fun roots fit => candid_noted
        (Connection.honest_deleteUnder (known positive) (Validity.checkAll_eq_ok_iff.2 fit))
  | move positive ends => exact (candid_move blameless positive ends).met
  | prolong positive size items user some_days reached =>
      obtain ⟨till, reached⟩ := reached
      exact (candid_prolong blameless positive size items user some_days reached).met
  | @resolveAll id targets sids positive items =>
      obtain ⟨places, taken, -⟩ :=
        exists_mapM_eq_ok fun r hr => Request.exists_normalRef (items r hr)
      exact .met (.ofExcept_bind taken (candid_effectiveOf positive _ sids))
  | readable sids => exact (candid_readable sids).met

variable (catalog maxBatch) in
/-- The state a demand leaves, whether it is met or not. -/
def Demand.after (d : Demand) (s : EngineState Connection) : EngineState Connection :=
  ((d.step (Connection.engine catalog maxBatch)).run s).state

/-- **Whom a failure is blamed on.** A valid demand fails for no reason of the backend just if the
database returned a name of nothing where a name is read; the caller is then told of that name as of a
fault in the demand. The catalog is the store's own, or one that blames nobody itself. -/
theorem blamed_iff (blameless : catalog.Blameless) {d : Demand} (valid : d.Valid maxBatch)
    (s : EngineState Connection) (err : RequestError) :
    (((d.step (Connection.engine catalog maxBatch)).run s).answer = .error err ∧ ¬ err.OfBackend) ↔
      ∃ fault, Misnames fault (saidBetween s (d.after catalog maxBatch s)) ∧
        err = .invalidInput fault.message := by
  obtain ⟨said, sent, candid⟩ := @Demand.Valid.candid catalog maxBatch d valid blameless s
  rw [Demand.after, saidBetween_eq sent]
  exact candid err

/-- A demand to write one row. -/
def grantOne : Demand := .insert .epoch ⟨1, .s3⟩ [⟨"a", .file, ⟨"u", .user⟩, ⟨1⟩⟩]

/-- It is valid. -/
theorem valid_grantOne : grantOne.Valid 10 :=
  .insert (by decide) (by decide) <| List.forall_mem_singleton.2
    ⟨⟨"a", by decide +kernel⟩, by decide +kernel, by decide⟩

/-- A database that keeps the storage under a kind of the given name. -/
def keptAs (name : String) : EngineState Connection :=
  ⟨.plain (.script [.answered [[("kind", .text name)]] 0]), none⟩

/-- If the kind of the storage is kept under an unknown name, the valid demand is to blame. -/
theorem grantOne_blamed : Catalog.Blameless .ofStore ∧ grantOne.Valid 10 ∧
    ((grantOne.step (Connection.engine .ofStore 10)).run (keptAs "XX")).answer =
      .error (.invalidInput "unknown storage kind: XX") := by
  have own : Catalog.Blameless .ofStore := nofun
  have asked : (⟨about Sql.kindOf 1 [], some (.answered [[("kind", .text "XX")]] 0)⟩ : Exchange) ∈
      saidBetween (keptAs "XX") (grantOne.after .ofStore 10 (keptAs "XX")) := by decide +kernel
  have misnames : Misnames (.unknownStorageKind "XX")
      (saidBetween (keptAs "XX") (grantOne.after .ofStore 10 (keptAs "XX"))) := by
    refine ⟨_, asked, ⟨_, 0, rfl, misnamed_kind_iff.2 ⟨"XX", rfl, ?_⟩⟩, fun dropped => ?_⟩
    · exact ⟨.storageKind "XX", rfl⟩
    · exact absurd dropped (by decide)
  exact ⟨own, valid_grantOne, ((blamed_iff own valid_grantOne (keptAs "XX") _).2 ⟨_, misnames, rfl⟩).1⟩

/-- So not every failure of a valid demand is one of the backend. -/
theorem not_ofBackend_of_valid : ¬ ∀ (catalog : Catalog) (maxBatch : Nat) (d : Demand)
    (s : EngineState Connection) (err : RequestError), catalog.Blameless → d.Valid maxBatch →
      ((d.step (Connection.engine catalog maxBatch)).run s).answer = .error err → err.OfBackend := by
  intro h
  have backend := h .ofStore 10 grantOne (keptAs "XX")
    (.invalidInput "unknown storage kind: XX") nofun valid_grantOne rfl
  cases backend

end Engine

end PathAcl
