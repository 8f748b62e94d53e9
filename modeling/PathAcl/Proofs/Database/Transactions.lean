import PathAcl.Database.Operations

/-! # Transactions
A transaction asks for its COMMIT after everything else, and gives an answer exactly if the COMMIT was
carried out. This is told of the dialogue, as a tree of statements and replies, and so holds for
whatever replies a peer gives. -/

namespace PathAcl.Database

/-- The statement that ends a transaction and keeps what it did. -/
def commitStatement : Statement := ⟨Sql.commit, []⟩

/-- Among the statements a COMMIT was carried out. -/
def Committed (sent : List Exchange) : Prop :=
  ∃ rows affected, (⟨commitStatement, some (.answered rows affected)⟩ : Exchange) ∈ sent

/-- Nothing was said, so nothing was committed. -/
theorem not_committed_nil : ¬ Committed [] := fun ⟨_, _, h⟩ => List.not_mem_nil h

/-- A statement other than a COMMIT commits nothing. -/
theorem committed_cons_of_ne {x : Exchange} (other : x.statement ≠ commitStatement)
    {sent : List Exchange} : Committed (x :: sent) ↔ Committed sent := by
  constructor
  · rintro ⟨rows, affected, h⟩
    rcases List.mem_cons.1 h with rfl | h
    · exact absurd rfl other
    · exact ⟨rows, affected, h⟩
  · rintro ⟨rows, affected, h⟩
    exact ⟨rows, affected, List.mem_cons_of_mem x h⟩

/-- A COMMIT that is refused commits nothing. -/
theorem committed_cons_refused {cause : String} {sent : List Exchange} :
    Committed (⟨commitStatement, some (.refused cause)⟩ :: sent) ↔ Committed sent := by
  constructor
  · rintro ⟨rows, affected, h⟩
    rcases List.mem_cons.1 h with h | h
    · cases h
    · exact ⟨rows, affected, h⟩
  · rintro ⟨rows, affected, h⟩
    exact ⟨rows, affected, List.mem_cons_of_mem _ h⟩

/-- Two talks in a row commit if one of them does. -/
theorem committed_append {first second : List Exchange} :
    Committed (first ++ second) ↔ Committed first ∨ Committed second := by
  simp only [Committed, List.mem_append, exists_or]

/-! ## Talks with a peer -/

/-- Goes on from an answer and the peer that is left; what is said comes after what was said. -/
def Spoken.andThen {α β : Type} (s : Spoken α) (f : α → Peer → Spoken β) : Spoken β :=
  match s.result with
  | none => ⟨none, s.peer, s.sent⟩
  | some (.error e) => ⟨some (.error e), s.peer, s.sent⟩
  | some (.ok x) => ⟨(f x s.peer).result, (f x s.peer).peer, s.sent ++ (f x s.peer).sent⟩

/-- An exchange in front stays in front. -/
theorem Spoken.andThen_after {α β : Type} (x : Exchange) (s : Spoken α)
    (f : α → Peer → Spoken β) : (s.after x).andThen f = (s.andThen f).after x := by
  obtain ⟨result, peer, sent⟩ := s
  match result with
  | none => rfl
  | some (.error e) => rfl
  | some (.ok y) => rfl

namespace Dialogue

variable {α β : Type}

/-- A script answers with its first reply, and with plain success when it has run out. -/
theorem hold_ask_script (s : Statement) (next : Reply → Dialogue α) (replies : List Reply) :
    (ask s next).hold (.script replies) =
      ((next (replies.headD (.answered [] 0))).hold (.script replies.tail)).after
        ⟨s, some (replies.headD (.answered [] 0))⟩ := by
  cases replies <;> rfl

/-- Two dialogues in a row: the second begins with the answer of the first and the peer it left. -/
theorem hold_bind (d : Dialogue α) (f : α → Dialogue β) (peer : Peer) :
    (d >>= f).hold peer = (d.hold peer).andThen fun x left => (f x).hold left := by
  induction d generalizing peer with
  | done result => cases result <;> rfl
  | ask s next ih =>
      cases peer with
      | script replies =>
          rw [hold_ask_script, Spoken.andThen_after, ← ih]
          exact hold_ask_script ..
      | closed => exact ih _ _
      | silent => rfl
  | tell s next ih =>
      cases peer with
      | script replies =>
          rw [hold, Spoken.andThen_after, ← ih]
          rfl
      | closed => exact ih _
      | silent => exact ih _

/-- Two dialogues in a row answer if the first does and then the second, and say what both say. -/
theorem hold_bind_eq_ok {d : Dialogue α} {f : α → Dialogue β} {peer left : Peer} {y : β}
    {sent : List Exchange} (h : (d >>= f).hold peer = ⟨some (.ok y), left, sent⟩) :
    ∃ x between first second, d.hold peer = ⟨some (.ok x), between, first⟩ ∧
      (f x).hold between = ⟨some (.ok y), left, second⟩ ∧ sent = first ++ second := by
  rw [hold_bind] at h
  generalize d.hold peer = spoken at h ⊢
  obtain ⟨result, between, first⟩ := spoken
  match result with
  | none => cases h
  | some (.error e) => cases h
  | some (.ok x) =>
      obtain ⟨answered, rfl, rfl⟩ := Spoken.mk.inj h
      exact ⟨x, between, first, _, rfl, congrArg (Spoken.mk · _ _) answered, rfl⟩

/-- A request that is answered is all that was said. -/
theorem sent_of_request {s : Statement} {failure : String → StoreError} {peer left : Peer}
    {answer : List Row × Nat} {sent : List Exchange}
    (h : (request s failure).hold peer = ⟨some (.ok answer), left, sent⟩) :
    sent = [⟨s, some (.answered answer.1 answer.2)⟩] := by
  cases peer with
  | closed => cases h
  | silent => cases h
  | script replies =>
      rw [request, hold_ask_script] at h
      cases hr : replies.headD (.answered [] 0) with
      | answered rows affected =>
          rw [hr] at h
          obtain ⟨same, -, rfl⟩ := Spoken.mk.inj h
          cases same
          rfl
      | refused cause =>
          rw [hr] at h
          cases h

/-- A dialogue that answers takes nothing back. -/
theorem hold_of_hold_orRollback {d : Dialogue α} {peer left : Peer} {x : α} {sent : List Exchange}
    (h : d.orRollback.hold peer = ⟨some (.ok x), left, sent⟩) :
    d.hold peer = ⟨some (.ok x), left, sent⟩ := by
  induction d generalizing peer sent with
  | done result =>
      cases result with
      | error e => cases peer <;> cases h
      | ok y => exact h
  | ask s next ih =>
      cases peer with
      | script replies =>
          rw [orRollback, hold_ask_script] at h
          rw [hold_ask_script]
          obtain ⟨answered, rfl, rfl⟩ := Spoken.mk.inj h
          rw [ih _ (congrArg (Spoken.mk · _ _) answered)]
          rfl
      | closed => exact ih _ h
      | silent => cases h
  | tell s next ih =>
      cases peer with
      | script replies =>
          obtain ⟨answered, rfl, rfl⟩ := Spoken.mk.inj h
          rw [hold, ih (congrArg (Spoken.mk · _ _) answered)]
          rfl
      | closed => exact ih h
      | silent => exact ih h

/-- Every statement of a dialogue, whatever the replies, has a property. -/
inductive Says (p : Statement → Prop) : Dialogue α → Prop
  | done (result : Except StoreError α) : Says p (done result)
  | ask {s : Statement} {next : Reply → Dialogue α} (here : p s) (rest : ∀ r, Says p (next r)) :
      Says p (ask s next)
  | tell {s : Statement} {next : Dialogue α} (here : p s) (rest : Says p next) : Says p (tell s next)

/-- What is sent in a dialogue has the property of its statements. -/
theorem Says.sent {p : Statement → Prop} {d : Dialogue α} (h : d.Says p) (peer : Peer) :
    ∀ x ∈ (d.hold peer).sent, p x.statement := by
  induction h generalizing peer with
  | done result => cases peer <;> exact fun x hx => absurd hx List.not_mem_nil
  | @ask s next here _ ih =>
      cases peer with
      | script replies =>
          rw [hold_ask_script]
          exact List.forall_mem_cons.2 ⟨here, ih _ _⟩
      | closed => exact ih _ _
      | silent => exact fun x hx => absurd hx List.not_mem_nil
  | @tell s next here _ ih =>
      cases peer with
      | script replies => exact List.forall_mem_cons.2 ⟨here, ih _⟩
      | closed => exact ih _
      | silent => exact ih _

/-- A dialogue that says less says no more. -/
theorem Says.mono {p q : Statement → Prop} {d : Dialogue α} (h : d.Says p) (le : ∀ s, p s → q s) :
    d.Says q := by
  induction h with
  | done result => exact .done result
  | ask here _ ih => exact .ask (le _ here) ih
  | tell here _ ih => exact .tell (le _ here) ih

/-- A request says its statement. -/
theorem Says.request {p : Statement → Prop} {s : Statement} (h : p s)
    (failure : String → StoreError) : (request s failure).Says p := by
  refine .ask h fun r => ?_
  cases r with
  | answered rows affected => exact .done _
  | refused cause => exact .done _

/-- Two dialogues in a row say what both say. -/
theorem Says.bind {p : Statement → Prop} {d : Dialogue α} {f : α → Dialogue β} (hd : d.Says p)
    (hf : ∀ x, (f x).Says p) : (d >>= f).Says p := by
  induction hd with
  | done result =>
      cases result with
      | error e => exact .done _
      | ok x => exact hf x
  | ask here _ ih => exact .ask here ih
  | tell here _ ih => exact .tell here ih

/-- A dialogue that is taken back on failure may also say ROLLBACK. -/
theorem Says.orRollback {p : Statement → Prop} {d : Dialogue α} (h : d.Says p)
    (back : p rollbackStatement) : d.orRollback.Says p := by
  induction h with
  | done result =>
      cases result with
      | error e => exact .tell back (.done _)
      | ok x => exact .done _
  | ask here _ ih => exact .ask here ih
  | tell here _ ih => exact .tell here ih

/-- A dialogue says only statements with the given texts. -/
def SaysOnly (texts : List String) (d : Dialogue α) : Prop := d.Says fun s => s.sql ∈ texts

/-! ## Sealed dialogues -/

/-- A dialogue is **sealed** if it answers right after a COMMIT that is carried out, and else fails. -/
inductive Sealed : Dialogue α → Prop
  | failed (e : StoreError) : Sealed (done (.error e))
  | ask {s : Statement} {next : Reply → Dialogue α} (other : s ≠ commitStatement)
      (rest : ∀ r, Sealed (next r)) : Sealed (ask s next)
  | tell {s : Statement} {next : Dialogue α} (other : s ≠ commitStatement) (rest : Sealed next) :
      Sealed (tell s next)
  | commit {next : Reply → Dialogue α}
      (kept : ∀ rows affected, ∃ x, next (.answered rows affected) = done (.ok x))
      (refused : ∀ cause, Sealed (next (.refused cause))) : Sealed (ask commitStatement next)

/-- **A sealed dialogue commits exactly if it answers**, whoever the peer is. -/
theorem Sealed.committed_iff {d : Dialogue α} (h : d.Sealed) (peer : Peer) :
    Committed (d.hold peer).sent ↔ ∃ x, (d.hold peer).result = some (.ok x) := by
  induction h generalizing peer with
  | failed e => exact iff_of_false not_committed_nil nofun
  | @ask s next other _ ih =>
      cases peer with
      | script replies =>
          rw [hold_ask_script]
          exact (committed_cons_of_ne other).trans (ih _ _)
      | closed => exact ih _ _
      | silent => exact iff_of_false not_committed_nil nofun
  | @tell s next other _ ih =>
      cases peer with
      | script replies => exact (committed_cons_of_ne other).trans (ih _)
      | closed => exact ih _
      | silent => exact ih _
  | @commit next kept _ ih =>
      cases peer with
      | script replies =>
          rw [hold_ask_script]
          cases replies.headD (.answered [] 0) with
          | answered rows affected =>
              obtain ⟨x, answered⟩ := kept rows affected
              rw [answered]
              exact iff_of_true ⟨rows, affected, List.mem_cons_self⟩ ⟨x, rfl⟩
          | refused cause => exact committed_cons_refused.trans (ih cause _)
      | closed => exact ih closedCause _
      | silent => exact iff_of_false not_committed_nil nofun

/-- A request that is no COMMIT may stand in front of a sealed dialogue. -/
theorem Sealed.request_bind {s : Statement} (other : s ≠ commitStatement)
    (failure : String → StoreError) {f : List Row × Nat → Dialogue β} (hf : ∀ x, (f x).Sealed) :
    (request s failure >>= f).Sealed := by
  refine .ask other fun r => ?_
  cases r with
  | answered rows affected => exact hf (rows, affected)
  | refused cause => exact .failed _

/-- So may any dialogue that asks for no COMMIT. -/
theorem Sealed.bind {texts : List String} {d : Dialogue α} {f : α → Dialogue β}
    (hd : d.SaysOnly texts) (other : Sql.commit ∉ texts) (hf : ∀ x, (f x).Sealed) :
    (d >>= f).Sealed := by
  have ne : ∀ {s : Statement}, s.sql ∈ texts → s ≠ commitStatement := by
    rintro s here rfl
    exact other here
  induction hd with
  | done result =>
      cases result with
      | error e => exact .failed e
      | ok x => exact hf x
  | ask here _ ih => exact .ask (ne here) ih
  | tell here _ ih => exact .tell (ne here) ih

/-- A COMMIT and an answer are sealed. -/
theorem Sealed.commit_pure (failure : String → StoreError) (x : α) :
    (request commitStatement failure >>= fun _ => pure x).Sealed :=
  .commit (fun _ _ => ⟨x, rfl⟩) fun _ => .failed _

/-- A sealed dialogue stays sealed if it is taken back on failure. -/
theorem Sealed.orRollback {d : Dialogue α} (h : d.Sealed) : d.orRollback.Sealed := by
  have other : rollbackStatement ≠ commitStatement := by decide
  induction h with
  | failed e => exact .tell other (.failed e)
  | ask first _ ih => exact .ask first ih
  | tell first _ ih => exact .tell first ih
  | commit kept _ ih =>
      refine .commit (fun rows affected => ?_) ih
      obtain ⟨x, answered⟩ := kept rows affected
      exact ⟨x, by rw [answered]; rfl⟩

end Dialogue

/-! ## What the writes say -/

variable {texts : List String}

/-- A request says its text. -/
theorem saysOnly_request {sql : String} (h : sql ∈ texts) (params : List Param)
    (failure : String → StoreError) : (Dialogue.request ⟨sql, params⟩ failure).SaysOnly texts :=
  .request (p := fun s => s.sql ∈ texts) h failure

/-- So does a query. -/
theorem saysOnly_queryRequest {sql : String} (h : sql ∈ texts) (params : List Param)
    (context : String) : (queryRequest ⟨sql, params⟩ context).SaysOnly texts :=
  saysOnly_request h params _

/-- So does a query for rows. -/
theorem saysOnly_queryRows {sql : String} (h : sql ∈ texts) (params : List Param)
    (context : String) : (queryRows ⟨sql, params⟩ context).SaysOnly texts :=
  .bind (saysOnly_queryRequest h params context) fun _ => .done _

/-- Making a storage known adds it and reads its kind. -/
theorem saysOnly_makeKnown (add : Sql.addStorage ∈ texts) (kind : Sql.kindOf ∈ texts)
    (storage : StorageRef) : (makeKnown storage).SaysOnly texts := by
  refine .bind (saysOnly_queryRequest add _ _) fun _ => ?_
  refine .bind (saysOnly_queryRows kind _ _) fun _ => ?_
  refine .bind (.done _) fun text => .bind (.done _) fun registered => ?_
  split
  · exact .done _
  · exact .done _

/-- The texts of every transaction. -/
def frameTexts : List String := [Sql.begin, Sql.lock, Sql.commit, Dialogue.rollbackStatement.sql]

/-- A transaction says what its work says, inside the frame of a transaction. -/
theorem saysOnly_transaction {α : Type} (id : StorageId) {work : Dialogue α}
    (h : work.SaysOnly texts) : (transaction id work).SaysOnly (frameTexts ++ texts) := by
  have frame : ∀ {sql : String}, sql ∈ frameTexts → sql ∈ frameTexts ++ texts :=
    fun h => List.mem_append_left texts h
  refine .bind (saysOnly_request (frame (by decide)) _ _) fun _ => .orRollback ?_ (frame (by decide))
  refine .bind (saysOnly_request (frame (by decide)) _ _) fun _ => ?_
  refine .bind (h.mono fun _ => List.mem_append_right frameTexts) fun _ => ?_
  exact .bind (saysOnly_request (frame (by decide)) _ _) fun _ => .done _

/-- **A transaction is sealed** if its work asks for no COMMIT. -/
theorem sealed_transaction {α : Type} (id : StorageId) {work : Dialogue α}
    (h : work.SaysOnly texts) (other : Sql.commit ∉ texts) : (transaction id work).Sealed := by
  refine .request_bind (by decide) _ fun _ => .orRollback ?_
  refine .request_bind (fun same => ?_) _ fun _ => ?_
  · cases congrArg Statement.params same
  exact .bind h other fun x => .commit_pure _ x

/-- A write is **framed** by a transaction: it is sealed, and says in the frame only the given texts. -/
structure Framed {α : Type} (texts : List String) (d : Dialogue α) : Prop where
  sealed : d.Sealed
  within : d.SaysOnly (frameTexts ++ texts)

/-- A transaction frames its work. -/
theorem framed_transaction {α : Type} (id : StorageId) {work : Dialogue α}
    (h : work.SaysOnly texts) (other : Sql.commit ∉ texts) : Framed texts (transaction id work) :=
  ⟨sealed_transaction id h other, saysOnly_transaction id h⟩

/-- Making a storage known is framed. -/
theorem framed_register (storage : StorageRef) :
    Framed [Sql.addStorage, Sql.kindOf] (register storage) :=
  framed_transaction storage.id (saysOnly_makeKnown (by simp) (by simp) storage) (by decide)

/-- Writing rows is framed. -/
theorem framed_upsert (storage : StorageRef) (rows : List Permission) :
    Framed [Sql.addStorage, Sql.kindOf, Sql.writeRows] (upsert storage rows) := by
  refine framed_transaction storage.id ?_ (by decide)
  refine .bind (saysOnly_makeKnown (by simp) (by simp) storage) fun _ => ?_
  split
  · exact .done _
  · exact .bind (saysOnly_queryRequest (by simp) _ _) fun _ => .done _

/-- Dropping rows is framed. -/
theorem framed_delete (id : StorageId) (keys : List PermissionKey) :
    Framed [Sql.dropRows] (delete id keys) :=
  framed_transaction id (saysOnly_queryRows (List.mem_singleton_self _) _ _) (by decide)

/-- Dropping subtrees is framed. -/
theorem framed_deleteUnder (id : StorageId) (roots : List PathRef) :
    Framed [Sql.dropUnder] (deleteUnder id roots) :=
  framed_transaction id (saysOnly_queryRows (List.mem_singleton_self _) _ _) (by decide)

/-- Moving rows is framed. -/
theorem framed_relocate (id : StorageId) (source destination : PathRef) :
    Framed [Sql.folderOccupied, Sql.fileOccupied, Sql.moveFolder, Sql.moveFile]
      (relocate id source destination) := by
  refine framed_transaction id ?_ (by decide)
  refine .bind (saysOnly_queryRows ?_ _ _) fun rows => .bind (.done _) fun occupied => ?_
  · cases destination.type <;> simp
  split
  · exact .done _
  · refine .bind (saysOnly_queryRequest ?_ _ _) fun _ => .done _
    cases source.type <;> simp

/-- Writing prolongations is framed. -/
theorem framed_prolong (id : StorageId) (records : List Prolongation) (days : List Int32) :
    Framed [Sql.writeProlongations] (prolong id records days) := by
  refine framed_transaction id ?_ (by decide)
  exact .bind (saysOnly_queryRequest (List.mem_singleton_self _) _ _) fun _ => .done _

/-! ## Answered transactions -/

/-- What an answered query says. -/
theorem sent_of_queryRows {s : Statement} {context : String} {peer left : Peer} {rows : List Row}
    {sent : List Exchange}
    (h : (queryRows s context).hold peer = ⟨some (.ok rows), left, sent⟩) :
    ∃ affected, sent = [⟨s, some (.answered rows affected)⟩] := by
  obtain ⟨⟨_, affected⟩, _, first, _, asked, done, rfl⟩ := Dialogue.hold_bind_eq_ok h
  obtain ⟨same, -, rfl⟩ := Spoken.mk.inj done
  cases same
  rw [Dialogue.sent_of_request asked]
  exact ⟨affected, rfl⟩

/-- **A transaction that answers** began, took the lock, did its work and committed, and said nothing
else; its answer is that of the work. -/
theorem hold_transaction {α : Type} {id : StorageId} {work : Dialogue α} {peer left : Peer} {x : α}
    {sent : List Exchange} (h : (transaction id work).hold peer = ⟨some (.ok x), left, sent⟩) :
    ∃ begun locked kept before after said, work.hold before = ⟨some (.ok x), after, said⟩ ∧
      sent = ⟨⟨Sql.begin, []⟩, begun⟩ :: ⟨about Sql.lock id [], locked⟩ ::
        (said ++ [⟨commitStatement, kept⟩]) := by
  obtain ⟨_, _, _, _, begun, inside, rfl⟩ := Dialogue.hold_bind_eq_ok h
  obtain ⟨_, before, _, _, locked, unlocked, rfl⟩ :=
    Dialogue.hold_bind_eq_ok (Dialogue.hold_of_hold_orRollback inside)
  obtain ⟨_, after, said, _, worked, done, rfl⟩ := Dialogue.hold_bind_eq_ok unlocked
  obtain ⟨_, _, _, _, kept, answered, rfl⟩ := Dialogue.hold_bind_eq_ok done
  obtain ⟨same, -, rfl⟩ := Spoken.mk.inj answered
  cases same
  obtain rfl := Dialogue.sent_of_request begun
  obtain rfl := Dialogue.sent_of_request locked
  obtain rfl := Dialogue.sent_of_request kept
  exact ⟨_, _, _, before, after, said, worked, rfl⟩

end PathAcl.Database
