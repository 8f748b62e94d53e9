import PathAcl.Proofs.Database.Rows
import PathAcl.Proofs.Database.Transcripts
import PathAcl.Proofs.Database.Writes
import PathAcl.Proofs.Validity

/-! # Blame
An operation that fails with a fault of its arguments blames its caller. If its arguments are valid this
happens in one case: the database returned a name of nothing, and reading got stuck at it. What a DELETE
returns is read only after the COMMIT was carried out. -/

namespace PathAcl

namespace Database

/-- The texts of the statements whose rows are read for names. -/
def readTexts : List String :=
  [Sql.kindOf, Sql.dropRows, Sql.dropUnder, Sql.rowsAt, Sql.rowsHeld, Sql.storagesHolding]

/-- The rows that a statement returned are **misnamed**: reading them is stuck at an unknown name. -/
inductive Misnamed (fault : Fault) (sql : String) (rows : List Row) : Prop
  | kind {text : String} (asked : sql = Sql.kindOf) (first : firstCell? rows = some (.text text))
      (stuck : StuckAt fault (named StorageKind.ofName text))
  | keys (dropped : sql ∈ dropTexts) (stuck : StuckAt fault (readAll keyOfRow rows))
  | grants (asked : sql = Sql.rowsAt ∨ sql = Sql.rowsHeld)
      (stuck : StuckAt fault (readAll permissionOfRow rows))
  | storages (asked : sql = Sql.storagesHolding) (stuck : StuckAt fault (readAll storageOfRow rows))

/-- Only rows that are read for names are misnamed. -/
theorem Misnamed.mem_readTexts {fault : Fault} {sql : String} {rows : List Row}
    (h : Misnamed fault sql rows) : sql ∈ readTexts := by
  cases h with
  | kind asked _ _ => simp [readTexts, asked]
  | keys dropped _ =>
      rcases List.mem_cons.1 dropped with rfl | dropped
      · simp [readTexts]
      · rw [List.mem_singleton.1 dropped]
        simp [readTexts]
  | grants asked _ => rcases asked with rfl | rfl <;> simp [readTexts]
  | storages asked _ => simp [readTexts, asked]

/-- Rows that name a kind. -/
theorem misnamed_kind_iff {fault : Fault} {rows : List Row} :
    Misnamed fault Sql.kindOf rows ↔ ∃ text, firstCell? rows = some (.text text) ∧
      StuckAt fault (named StorageKind.ofName text) := by
  constructor
  · intro h
    cases h with
    | kind _ first stuck => exact ⟨_, first, stuck⟩
    | keys dropped _ => exact absurd dropped (by decide)
    | grants asked _ => exact absurd asked (by decide)
    | storages asked _ => exact absurd asked (by decide)
  · rintro ⟨text, first, stuck⟩
    exact .kind rfl first stuck

/-- Rows that were dropped. -/
theorem misnamed_keys_iff {fault : Fault} {sql : String} {rows : List Row}
    (dropped : sql ∈ dropTexts) :
    Misnamed fault sql rows ↔ StuckAt fault (readAll keyOfRow rows) := by
  have other : ∀ {text : String}, text ∉ dropTexts → sql ≠ text := by
    rintro text not_dropped rfl
    exact not_dropped dropped
  refine ⟨fun h => ?_, .keys dropped⟩
  cases h with
  | kind asked _ _ => exact absurd asked (other (by decide))
  | keys _ stuck => exact stuck
  | grants asked _ =>
      rcases asked with asked | asked
      · exact absurd asked (other (by decide))
      · exact absurd asked (other (by decide))
  | storages asked _ => exact absurd asked (other (by decide))

/-- Rows that grant something. -/
theorem misnamed_grants_iff {fault : Fault} {sql : String} {rows : List Row}
    (asked : sql = Sql.rowsAt ∨ sql = Sql.rowsHeld) :
    Misnamed fault sql rows ↔ StuckAt fault (readAll permissionOfRow rows) := by
  refine ⟨fun h => ?_, .grants asked⟩
  cases h with
  | kind same _ _ => rcases asked with rfl | rfl <;> exact absurd same (by decide)
  | keys dropped _ => rcases asked with rfl | rfl <;> exact absurd dropped (by decide)
  | grants _ stuck => exact stuck
  | storages same _ => rcases asked with rfl | rfl <;> exact absurd same (by decide)

/-- Rows that are storages. -/
theorem misnamed_storages_iff {fault : Fault} {rows : List Row} :
    Misnamed fault Sql.storagesHolding rows ↔ StuckAt fault (readAll storageOfRow rows) := by
  refine ⟨fun h => ?_, .storages rfl⟩
  cases h with
  | kind asked _ _ => exact absurd asked (by decide)
  | keys dropped _ => exact absurd dropped (by decide)
  | grants asked _ => exact absurd asked (by decide)
  | storages _ stuck => exact stuck

/-- A statement was carried out and returned misnamed rows. -/
def MisnamedIn (fault : Fault) (x : Exchange) : Prop :=
  ∃ rows affected, x.reply = some (.answered rows affected) ∧ Misnamed fault x.statement.sql rows

/-- In a talk the database **misnames** something that is read: among what it returned are misnamed rows,
and if they were dropped that was committed. -/
def Misnames (fault : Fault) (said : List Exchange) : Prop :=
  ∃ x ∈ said, MisnamedIn fault x ∧ (x.statement.sql ∈ dropTexts → Committed said)

/-- Where nothing was said nothing is misnamed. -/
theorem not_misnames_nil (fault : Fault) : ¬ Misnames fault [] :=
  fun ⟨_, here, _⟩ => List.not_mem_nil here

/-- Where no rows are dropped it does not matter what was committed. -/
theorem misnames_iff_of_not_drops {fault : Fault} {texts : List String} {said : List Exchange}
    (h : ∀ x ∈ said, x.statement.sql ∈ texts) (drops : ∀ sql ∈ texts, sql ∉ dropTexts) :
    Misnames fault said ↔ ∃ x ∈ said, MisnamedIn fault x := by
  refine exists_congr fun x => and_congr_right fun here => and_iff_left fun dropped => ?_
  exact absurd dropped (drops _ (h x here))

/-! ## Dialogues that end at a misnamed row -/

namespace Dialogue

variable {α β : Type} {bad : Fault → Exchange → Prop}

/-- A dialogue is **caught** in a fault: it ends in it, and waits for no reply before. -/
inductive Caught (fault : Fault) : Dialogue α → Prop
  | done : Caught fault (done (.error (.ofFault fault)))
  | tell {s : Statement} {next : Dialogue α} (rest : Caught fault next) : Caught fault (tell s next)

/-- A caught dialogue ends in the fault, whoever the peer is. -/
theorem Caught.hold {fault : Fault} {d : Dialogue α} (h : d.Caught fault) (peer : Peer) :
    (d.hold peer).result = some (.error (.ofFault fault)) ∧
      ∀ x ∈ (d.hold peer).sent, x.reply = none := by
  induction h with
  | done => cases peer <;> exact ⟨rfl, fun x hx => absurd hx List.not_mem_nil⟩
  | tell _ ih =>
      cases peer with
      | script replies => exact ⟨ih.1, List.forall_mem_cons.2 ⟨rfl, ih.2⟩⟩
      | closed => exact ih
      | silent => exact ih

/-- A dialogue **blames** its caller only for what is bad: an exchange that is bad for a fault is the
last but for a ROLLBACK, and the dialogue ends in that fault; no other end is a fault of an argument. -/
inductive Blames (bad : Fault → Exchange → Prop) : Dialogue α → Prop
  | done {result : Except StoreError α}
      (blameless : ∀ message, result ≠ .error (.invalidInput message)) : Blames bad (done result)
  | ask {s : Statement} {next : Reply → Dialogue α}
      (caught : ∀ r fault, bad fault ⟨s, some r⟩ → Caught fault (next r))
      (rest : ∀ r, (∀ fault, ¬ bad fault ⟨s, some r⟩) → Blames bad (next r)) : Blames bad (ask s next)
  | tell {s : Statement} {next : Dialogue α} (rest : Blames bad next) : Blames bad (tell s next)

/-- **A dialogue ends in a fault of an argument** just if an exchange was bad for it. -/
theorem Blames.result_iff {d : Dialogue α} (h : d.Blames bad)
    (answered : ∀ fault x, bad fault x → ∃ rows affected, x.reply = some (.answered rows affected))
    (peer : Peer) (message : String) :
    (d.hold peer).result = some (.error (.invalidInput message)) ↔
      ∃ fault, (∃ x ∈ (d.hold peer).sent, bad fault x) ∧ message = fault.message := by
  have none_said : ∀ {result : Option (Except StoreError α)},
      result ≠ some (.error (.invalidInput message)) →
      (result = some (.error (.invalidInput message)) ↔
        ∃ fault, (∃ x ∈ ([] : List Exchange), bad fault x) ∧ message = fault.message) := by
    intro result other
    refine iff_of_false other ?_
    rintro ⟨fault, ⟨x, hx, -⟩, -⟩
    exact List.not_mem_nil hx
  have unawaited : ∀ s fault, ¬ bad fault ⟨s, none⟩ := by
    intro s fault is_bad
    obtain ⟨rows, affected, same⟩ := answered _ _ is_bad
    cases same
  induction h generalizing peer with
  | done blameless =>
      cases peer <;> exact none_said fun same => blameless message (Option.some.inj same)
  | @ask s next caught rest ih =>
      cases peer with
      | closed =>
          have refused : ∀ fault, ¬ bad fault ⟨s, some (.refused closedCause)⟩ := by
            intro fault is_bad
            obtain ⟨rows, affected, same⟩ := answered _ _ is_bad
            cases same
          exact ih _ refused _
      | silent => exact none_said nofun
      | script replies =>
          rw [hold_ask_script]
          generalize replies.headD (.answered [] 0) = r
          by_cases caught_at : ∃ fault, bad fault ⟨s, some r⟩
          · -- the reply is the last but for a ROLLBACK, which is bad for nothing
            obtain ⟨fault, is_bad⟩ := caught_at
            obtain ⟨ended, later⟩ := (caught r fault is_bad).hold (.script replies.tail)
            rw [Spoken.after, ended]
            have alone : ∀ {other x}, x ∈ ((next r).hold (.script replies.tail)).sent →
                ¬ bad other x := by
              intro other x here is_bad
              obtain ⟨rows, affected, reply⟩ := answered _ _ is_bad
              cases (later x here).symm.trans reply
            constructor
            · intro same
              cases same
              exact ⟨fault, ⟨_, List.mem_cons_self, is_bad⟩, rfl⟩
            · rintro ⟨other, ⟨x, here, other_bad⟩, rfl⟩
              rcases List.mem_cons.1 here with rfl | here
              · exact ended.symm.trans ((caught r other other_bad).hold _).1
              · exact absurd other_bad (alone here)
          · have good : ∀ fault, ¬ bad fault ⟨s, some r⟩ := fun fault is_bad => caught_at ⟨fault, is_bad⟩
            refine (ih r good (.script replies.tail)).trans
              (exists_congr fun fault => and_congr_left' ?_)
            rw [Spoken.after]
            simp only [List.mem_cons, exists_eq_or_imp, good fault, false_or]
  | @tell s next rest ih =>
      cases peer with
      | script replies =>
          refine (ih (.script replies)).trans (exists_congr fun fault => and_congr_left' ?_)
          rw [hold, Spoken.after]
          simp only [List.mem_cons, exists_eq_or_imp, unawaited s fault, false_or]
      | closed => exact ih _
      | silent => exact ih _

/-- A caught dialogue stays so, whatever was to follow. -/
theorem Caught.bind {fault : Fault} {d : Dialogue α} (h : d.Caught fault) (f : α → Dialogue β) :
    (d >>= f).Caught fault := by
  induction h with
  | done => exact .done
  | tell _ ih => exact .tell ih

/-- It is also caught if it is taken back. -/
theorem Caught.orRollback {fault : Fault} {d : Dialogue α} (h : d.Caught fault) :
    d.orRollback.Caught fault := by
  induction h with
  | done => exact .tell .done
  | tell _ ih => exact .tell ih

/-- Two dialogues in a row blame for what both blame for. -/
theorem Blames.bind {d : Dialogue α} {f : α → Dialogue β} (hd : d.Blames bad)
    (hf : ∀ x, (f x).Blames bad) : (d >>= f).Blames bad := by
  induction hd with
  | @done result blameless =>
      cases result with
      | error e => exact .done fun message same => by cases same; exact blameless message rfl
      | ok x => exact hf x
  | ask caught _ ih => exact .ask (fun r fault is_bad => (caught r fault is_bad).bind f) ih
  | tell _ ih => exact .tell ih

/-- A dialogue that is taken back on failure blames for the same. -/
theorem Blames.orRollback {d : Dialogue α} (h : d.Blames bad) : d.orRollback.Blames bad := by
  induction h with
  | @done result blameless =>
      cases result with
      | error e => exact .tell (.done blameless)
      | ok x => exact .done blameless
  | ask caught _ ih => exact .ask (fun r fault is_bad => (caught r fault is_bad).orRollback) ih
  | tell _ ih => exact .tell ih

/-- A request blames nobody if its statement is never bad and a refusal is no fault of an argument. -/
theorem Blames.request {s : Statement} {failure : String → StoreError}
    (free : ∀ fault reply, ¬ bad fault ⟨s, reply⟩)
    (worded : ∀ cause message, failure cause ≠ .invalidInput message) :
    (request s failure).Blames bad := by
  refine .ask (fun r fault is_bad => absurd is_bad (free _ _)) fun r _ => ?_
  cases r with
  | answered rows affected => exact .done fun message => nofun
  | refused cause => exact .done fun message same => worded cause message (Except.error.inj same)

end Dialogue

section Blames

variable {α : Type} {bad : Fault → Exchange → Prop} {s : Statement}

/-- A query for rows blames nobody if its statement is never bad. -/
theorem blames_queryRequest (free : ∀ fault reply, ¬ bad fault ⟨s, reply⟩) (context : String) :
    (queryRequest s context).Blames bad := .request free fun _ _ => nofun

/-- So does one for rows alone. -/
theorem blames_queryRows (free : ∀ fault reply, ¬ bad fault ⟨s, reply⟩) (context : String) :
    (queryRows s context).Blames bad :=
  .bind (blames_queryRequest free context) fun _ => .done fun _ => nofun

/-- A transaction blames for what its work blames for, if its frame is never bad. -/
theorem blames_transaction {id : StorageId} {work : Dialogue α}
    (frame : ∀ fault x, x.statement.sql ∈ frameTexts → ¬ bad fault x) (h : work.Blames bad) :
    (transaction id work).Blames bad := by
  have free : ∀ {s : Statement} fault reply, s.sql ∈ frameTexts → ¬ bad fault ⟨s, reply⟩ :=
    fun fault reply text => frame fault _ text
  refine .bind (.request (fun _ _ => free _ _ (by decide)) fun _ _ => nofun) fun _ => .orRollback ?_
  refine .bind (.request (fun _ _ => free _ _ (by decide : Sql.lock ∈ frameTexts)) fun _ _ => nofun)
    fun _ => .bind h fun x => ?_
  exact .bind (.request (fun _ _ => free _ _ (by decide)) fun _ _ => nofun) fun _ =>
    .done fun _ => nofun

end Blames

/-! ## Rows that are read in a dialogue -/

/-- A statement whose rows are not read for names misnames nothing. -/
theorem unread {s : Statement} (h : s.sql ∉ readTexts) (fault : Fault) (reply : Option Reply) :
    ¬ MisnamedIn fault ⟨s, reply⟩ :=
  fun ⟨_, _, _, misnamed⟩ => h misnamed.mem_readTexts

/-- Nor does such a statement about a storage. -/
theorem unread_about {sql : String} {id : StorageId} {params : List Param} (h : sql ∉ readTexts)
    (fault : Fault) (reply : Option Reply) : ¬ MisnamedIn fault ⟨about sql id params, reply⟩ :=
  unread h fault reply

/-- Nor does the frame of a transaction. -/
theorem frame_unread (fault : Fault) (x : Exchange) (h : x.statement.sql ∈ frameTexts) :
    ¬ MisnamedIn fault x := by
  have apart : ∀ sql ∈ frameTexts, sql ∉ readTexts := by decide
  exact unread (apart _ h) fault x.reply

/-- A query whose misnamed rows catch what follows. -/
theorem blames_queryRows_bind {β : Type} {s : Statement} {context : String}
    {f : List Row → Dialogue β}
    (caught : ∀ fault rows, Misnamed fault s.sql rows → (f rows).Caught fault)
    (rest : ∀ rows, (∀ fault, ¬ Misnamed fault s.sql rows) → (f rows).Blames MisnamedIn) :
    (queryRows s context >>= f).Blames MisnamedIn := by
  rw [queryRows, Dialogue.bind_bind]
  refine .ask (fun r fault is_bad => ?_) fun r good => ?_
  · obtain ⟨rows, affected, reply, misnamed⟩ := is_bad
    cases reply
    exact caught fault rows misnamed
  · cases r with
    | answered rows affected =>
        exact rest rows fun fault misnamed => good fault ⟨rows, affected, rfl, misnamed⟩
    | refused cause => exact .done fun _ same => by cases same

/-- **Making a storage known** blames for a kind that is none. -/
theorem blames_makeKnown (storage : StorageRef) : (makeKnown storage).Blames MisnamedIn := by
  refine .bind (blames_queryRequest (unread (by decide : Sql.addStorage ∉ readTexts)) _) fun _ => ?_
  refine blames_queryRows_bind (fun fault rows misnamed => ?_) fun rows good => ?_
  · obtain ⟨text, first, -, stuck⟩ := misnamed_kind_iff.1 misnamed
    rw [onlyValue_text_eq_ok_iff.2 first, Dialogue.ofExcept_ok_bind, stuck]
    exact .done
  · cases read : onlyValue .text kindContext rows with
    | error e =>
        exact .done fun message same => onlyValue_ne_invalidInput _ _ _ message
          (read.trans (congrArg Except.error (Except.error.inj same)))
    | ok text =>
        rw [Dialogue.ofExcept_ok_bind]
        have only := onlyStuckAtNames_named unknownName_of_storageKind text
        cases known : named StorageKind.ofName text with
        | error e =>
            refine .done fun message same => ?_
            have blamed := known.trans (congrArg Except.error (Except.error.inj same))
            obtain ⟨fault, stuck, -⟩ := only message blamed
            exact good fault (misnamed_kind_iff.2 ⟨text, onlyValue_text_eq_ok_iff.1 read, stuck⟩)
        | ok registered =>
            rw [Dialogue.ofExcept_ok_bind]
            split
            · exact .done fun _ => nofun
            · exact .done fun _ => nofun

/-! ## Rows that are read after a dialogue -/

section Read

variable {β : Type} {s : Statement} {context : String}

/-- A query is carried out, refused, or never answered. -/
theorem hold_queryRows (s : Statement) (context : String) (peer : Peer) :
    (∃ rows affected left, (queryRows s context).hold peer =
        ⟨some (.ok rows), left, [⟨s, some (.answered rows affected)⟩]⟩) ∨
      ((∀ rows, ((queryRows s context).hold peer).result ≠ some (.ok rows)) ∧
        ∀ x ∈ ((queryRows s context).hold peer).sent, ∃ cause, x.reply = some (.refused cause)) := by
  cases peer with
  | closed => exact .inr ⟨fun rows => nofun, fun x hx => absurd hx List.not_mem_nil⟩
  | silent => exact .inr ⟨fun rows => nofun, fun x hx => absurd hx List.not_mem_nil⟩
  | script replies =>
      rcases Dialogue.hold_request_script s (queryFailure context) replies with
        ⟨answer, left, held⟩ | ⟨cause, left, held⟩
      · exact .inl ⟨answer.1, answer.2, _, Dialogue.hold_bind_of_ok held rfl⟩
      · have failed : (queryRows s context).hold (.script replies) = _ :=
          Dialogue.hold_bind_of_error _ held
        rw [failed]
        exact .inr ⟨fun rows => nofun, List.forall_mem_singleton.2 ⟨cause, rfl⟩⟩

/-- A refusal misnames nothing. -/
theorem not_misnames_of_refused {fault : Fault} {said : List Exchange}
    (h : ∀ x ∈ said, ∃ cause, x.reply = some (.refused cause)) : ¬ Misnames fault said := by
  rintro ⟨x, here, ⟨rows, affected, reply, -⟩, -⟩
  obtain ⟨cause, refused⟩ := h x here
  cases reply.symm.trans refused

/-- What a query said misnames something if reading its rows is stuck at it. -/
theorem misnames_queryRows {decode : List Row → Except StoreError β} (kept : s.sql ∉ dropTexts)
    (read : ∀ fault rows, Misnamed fault s.sql rows ↔ StuckAt fault (decode rows)) (peer : Peer)
    (fault : Fault) : Misnames fault ((queryRows s context).hold peer).sent ↔
      ∃ rows, ((queryRows s context).hold peer).result = some (.ok rows) ∧
        StuckAt fault (decode rows) := by
  rcases hold_queryRows s context peer with ⟨rows, affected, left, held⟩ | ⟨failed, refused⟩
  · rw [held]
    constructor
    · rintro ⟨x, here, ⟨_, _, reply, misnamed⟩, -⟩
      rw [List.mem_singleton.1 here] at reply misnamed
      cases reply
      exact ⟨rows, rfl, (read fault rows).1 misnamed⟩
    · rintro ⟨_, same, stuck⟩
      cases same
      refine ⟨_, List.mem_singleton_self _, ⟨rows, affected, rfl, (read fault rows).2 stuck⟩, ?_⟩
      exact fun dropped => absurd dropped kept
  · refine iff_of_false (not_misnames_of_refused refused) ?_
    rintro ⟨rows, answered, -⟩
    exact failed rows answered

/-- So does a transaction that drops rows, if it answers. -/
theorem misnames_dropping {id : StorageId} {sql : String} {params : List Param}
    (dropped : sql ∈ dropTexts) {d : Dialogue (List Row)}
    (same : d = transaction id (queryRows (about sql id params) context)) (framed : Framed [sql] d)
    (peer : Peer) (fault : Fault) : Misnames fault (d.hold peer).sent ↔
      ∃ rows, (d.hold peer).result = some (.ok rows) ∧ StuckAt fault (readAll keyOfRow rows) := by
  have sent : ∀ rows, (d.hold peer).result = some (.ok rows) → ∃ begun locked kept affected,
      (d.hold peer).sent = [⟨⟨Sql.begin, []⟩, begun⟩, ⟨about Sql.lock id [], locked⟩,
        ⟨about sql id params, some (.answered rows affected)⟩, ⟨commitStatement, kept⟩] := by
    intro rows answered
    have held : d.hold peer = ⟨some (.ok rows), (d.hold peer).peer, (d.hold peer).sent⟩ := by
      rw [← answered]
    subst same
    obtain ⟨begun, locked, kept, before, after, said, worked, all⟩ := hold_transaction held
    obtain ⟨affected, rfl⟩ := sent_of_queryRows worked
    exact ⟨begun, locked, kept, affected, all⟩
  constructor
  · rintro ⟨x, here, ⟨rows, affected, reply, misnamed⟩, committed⟩
    -- only the statement that drops rows is read, so the transaction was committed and answered
    have read : x.statement.sql ∉ frameTexts := fun text =>
      absurd misnamed.mem_readTexts
        ((by decide : ∀ sql ∈ frameTexts, sql ∉ readTexts) _ text)
    have drops : x.statement.sql = sql := by
      rcases List.mem_append.1 (framed.within.sent peer x here) with text | text
      · exact absurd text read
      · exact List.mem_singleton.1 text
    obtain ⟨rows', answered⟩ := (framed.sealed.committed_iff peer).1 (committed (drops ▸ dropped))
    obtain ⟨begun, locked, kept, count, all⟩ := sent rows' answered
    refine ⟨rows', answered, ?_⟩
    rw [all] at here
    simp only [List.mem_cons, List.not_mem_nil, or_false] at here
    rcases here with rfl | rfl | rfl | rfl
    · exact absurd (by decide : Sql.begin ∈ frameTexts) read
    · exact absurd (by decide : Sql.lock ∈ frameTexts) read
    · cases reply
      exact (misnamed_keys_iff dropped).1 misnamed
    · exact absurd (by decide : Sql.commit ∈ frameTexts) read
  · rintro ⟨rows, answered, stuck⟩
    obtain ⟨begun, locked, kept, affected, all⟩ := sent rows answered
    have committed := (framed.sealed.committed_iff peer).2 ⟨rows, answered⟩
    rw [all] at committed ⊢
    refine ⟨⟨about sql id params, some (.answered rows affected)⟩, by simp, ?_, fun _ => committed⟩
    exact ⟨rows, affected, rfl, (misnamed_keys_iff dropped).2 stuck⟩

end Read

end Database

end PathAcl
