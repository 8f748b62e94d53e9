import PathAcl.Proofs.Database.Transactions

/-! # Transcripts of transactions
A script always replies, so a dialogue that is held with one comes to an end, and a transaction comes to
one of five ends. What is said on the way can be read off its **transcript**. A transaction stops at the
first reply that its work does not put up with, whatever comes next in the script. -/

namespace PathAcl.Database

/-- The statement that begins a transaction. -/
def beginStatement : Statement := ⟨Sql.begin, []⟩

/-- A statement that was carried out, with its rows and its count. -/
def carriedOut (s : Statement) (answer : List Row × Nat) : Exchange :=
  ⟨s, some (.answered answer.1 answer.2)⟩

/-- A statement that was refused. -/
def refused (s : Statement) (cause : String) : Exchange := ⟨s, some (.refused cause)⟩

/-- A transaction is taken back; nobody waits for the reply. -/
def takenBack : Exchange := ⟨Dialogue.rollbackStatement, none⟩

namespace Dialogue

variable {α β : Type}

/-! ## Talks with a script -/

/-- A dialogue with a script comes to an end, and the script goes on. -/
theorem exists_hold_script (d : Dialogue α) (replies : List Reply) :
    ∃ result left said, d.hold (.script replies) = ⟨some result, .script left, said⟩ := by
  induction d generalizing replies with
  | done result => exact ⟨result, replies, [], rfl⟩
  | ask s next ih =>
      obtain ⟨result, left, said, h⟩ := ih (replies.headD (.answered [] 0)) replies.tail
      rw [hold_ask_script, h]
      exact ⟨result, left, _, rfl⟩
  | tell s next ih =>
      obtain ⟨result, left, said, h⟩ := ih replies
      rw [hold, h]
      exact ⟨result, left, _, rfl⟩

/-- Two dialogues in a row, if the first gives an answer. -/
theorem hold_bind_of_ok {d : Dialogue α} {f : α → Dialogue β} {peer between left : Peer} {x : α}
    {result : Option (Except StoreError β)} {first second : List Exchange}
    (answered : d.hold peer = ⟨some (.ok x), between, first⟩)
    (goes : (f x).hold between = ⟨result, left, second⟩) :
    (d >>= f).hold peer = ⟨result, left, first ++ second⟩ := by
  rw [hold_bind, answered, Spoken.andThen]
  dsimp only
  rw [goes]

/-- Two dialogues in a row, if the first fails. -/
theorem hold_bind_of_error {d : Dialogue α} (f : α → Dialogue β) {peer left : Peer}
    {e : StoreError} {said : List Exchange} (failed : d.hold peer = ⟨some (.error e), left, said⟩) :
    (d >>= f).hold peer = ⟨some (.error e), left, said⟩ := by
  rw [hold_bind, failed, Spoken.andThen]

/-- A computation after a dialogue says nothing. -/
theorem hold_bind_done (d : Dialogue α) (g : α → Except StoreError β) (peer : Peer) :
    (d >>= fun x => done (g x)).hold peer =
      ⟨(d.hold peer).result.map (· >>= g), (d.hold peer).peer, (d.hold peer).sent⟩ := by
  rw [hold_bind]
  generalize d.hold peer = spoken
  obtain ⟨result, left, said⟩ := spoken
  match result with
  | none => rfl
  | some (.error e) => rfl
  | some (.ok x) => cases left <;> exact congrArg (Spoken.mk _ _) (List.append_nil said)

/-- A request is carried out or refused. -/
theorem hold_request_script (s : Statement) (failure : String → StoreError) (replies : List Reply) :
    (∃ answer left, (request s failure).hold (.script replies) =
      ⟨some (.ok answer), .script left, [carriedOut s answer]⟩) ∨
    ∃ cause left, (request s failure).hold (.script replies) =
      ⟨some (.error (failure cause)), .script left, [refused s cause]⟩ := by
  rw [request, hold_ask_script]
  cases replies.headD (.answered [] 0) with
  | answered rows affected => exact .inl ⟨(rows, affected), _, rfl⟩
  | refused cause => exact .inr ⟨cause, _, rfl⟩

/-- What a transaction says last, by how it ends. -/
def closing : Except StoreError α → List Exchange
  | .ok _ => []
  | .error _ => [takenBack]

/-- A dialogue that is taken back on failure says so last. -/
theorem hold_orRollback_script {d : Dialogue α} {replies : List Reply}
    {result : Except StoreError α} {left : Peer} {said : List Exchange}
    (h : d.hold (.script replies) = ⟨some result, left, said⟩) :
    d.orRollback.hold (.script replies) = ⟨some result, left, said ++ closing result⟩ := by
  induction d generalizing replies said with
  | done result =>
      cases h
      cases result with
      | ok x => rfl
      | error e => rfl
  | ask s next ih =>
      rw [hold_ask_script] at h
      rw [orRollback, hold_ask_script]
      obtain ⟨answered, rfl, rfl⟩ := Spoken.mk.inj h
      rw [ih _ (congrArg (Spoken.mk · _ _) answered)]
      rfl
  | tell s next ih =>
      obtain ⟨answered, rfl, rfl⟩ := Spoken.mk.inj h
      rw [orRollback, hold, ih (congrArg (Spoken.mk · _ _) answered)]
      rfl

/-- A computation that gives an answer may be left out. -/
theorem ofExcept_ok_bind (x : α) (f : α → Dialogue β) : ofExcept (.ok x) >>= f = f x := rfl

/-- Three dialogues in a row. -/
theorem bind_bind {γ : Type} (d : Dialogue α) (f : α → Dialogue β) (g : β → Dialogue γ) :
    d >>= f >>= g = d >>= fun x => f x >>= g := by
  induction d with
  | done result => cases result <;> rfl
  | ask s next ih => exact congrArg (ask s) (funext ih)
  | tell s next ih => exact congrArg (tell s) ih

/-! ## Heeding replies -/

/-- A dialogue **heeds** the exchanges that are to end it: after one of them it fails at once. It leaves
the COMMIT to the transaction that it is the work of. -/
inductive Heeds (halts : Exchange → Prop) : Dialogue α → Prop
  | done (result : Except StoreError α) : Heeds halts (done result)
  | ask {s : Statement} {next : Reply → Dialogue α} (other : s ≠ commitStatement)
      (stops : ∀ r, halts ⟨s, some r⟩ → ∃ e, next r = done (.error e))
      (rest : ∀ r, Heeds halts (next r)) : Heeds halts (ask s next)

/-- Two dialogues in a row heed what both heed. -/
theorem Heeds.bind {halts : Exchange → Prop} {d : Dialogue α} {f : α → Dialogue β}
    (hd : d.Heeds halts) (hf : ∀ x, (f x).Heeds halts) : (d >>= f).Heeds halts := by
  induction hd with
  | done result =>
      cases result with
      | error e => exact .done _
      | ok x => exact hf x
  | @ask s next other stops _ ih =>
      refine .ask other (fun r halt => ?_) ih
      obtain ⟨e, failed⟩ := stops r halt
      exact ⟨e, congrArg (andThen · f) failed⟩

/-- A dialogue that heeds asks for no COMMIT. -/
theorem Heeds.says_other {halts : Exchange → Prop} {d : Dialogue α} (h : d.Heeds halts) :
    d.Says (· ≠ commitStatement) := by
  induction h with
  | done result => exact .done result
  | ask other _ _ ih => exact .ask other ih

end Dialogue

/-- An exchange **halts** its dialogue if the database refused the statement or returned rows that are
not those that are expected of it. -/
def Halts (expects : Statement → List Row → Prop) (x : Exchange) : Prop :=
  (∃ cause, x.reply = some (.refused cause)) ∨
    ∃ rows affected, x.reply = some (.answered rows affected) ∧ ¬ expects x.statement rows

section Halting

variable {expects : Statement → List Row → Prop}

/-- An answer halts if its rows are not expected. -/
theorem halts_carriedOut_iff {s : Statement} {answer : List Row × Nat} :
    Halts expects (carriedOut s answer) ↔ ¬ expects s answer.1 := by
  constructor
  · rintro (⟨cause, same⟩ | ⟨_, _, same, unexpected⟩)
    · cases same
    · cases same
      exact unexpected
  · exact fun unexpected => .inr ⟨_, _, rfl, unexpected⟩

/-- What nobody waits for does not halt. -/
theorem not_halts_takenBack : ¬ Halts expects takenBack := by
  rintro (⟨_, same⟩ | ⟨_, _, same, -⟩) <;> cases same

/-- A query heeds its reply if what follows fails for rows that are not expected. -/
theorem heeds_queryRequest {β : Type} {s : Statement} {context : String}
    {f : List Row × Nat → Dialogue β} (other : s ≠ commitStatement)
    (fails : ∀ x, ¬ expects s x.1 → ∃ e, f x = .done (.error e))
    (rest : ∀ x, (f x).Heeds (Halts expects)) :
    (queryRequest s context >>= f).Heeds (Halts expects) := by
  refine .ask other (fun r halt => ?_) fun r => ?_
  · cases r with
    | answered rows affected => exact fails (rows, affected) (halts_carriedOut_iff.1 halt)
    | refused cause => exact ⟨_, rfl⟩
  · cases r with
    | answered rows affected => exact rest (rows, affected)
    | refused cause => exact .done _

/-- So does a query for rows. -/
theorem heeds_queryRows {β : Type} {s : Statement} {context : String} {f : List Row → Dialogue β}
    (other : s ≠ commitStatement)
    (fails : ∀ rows, ¬ expects s rows → ∃ e, f rows = .done (.error e))
    (rest : ∀ rows, (f rows).Heeds (Halts expects)) :
    (queryRows s context >>= f).Heeds (Halts expects) := by
  rw [queryRows, Dialogue.bind_bind]
  exact heeds_queryRequest other (fun x => fails x.1) fun x => rest x.1

end Halting

/-- What is said **stops** at whatever halts it, with the given words and no others. -/
def StopsWith (halts : Exchange → Prop) (words said : List Exchange) : Prop :=
  ∀ x after, x :: after <:+ said → halts x → after = words

section StopsWith

variable {halts : Exchange → Prop} {words said : List Exchange}

/-- One more exchange in front. -/
theorem stopsWith_cons {x : Exchange} :
    StopsWith halts words (x :: said) ↔ (halts x → said = words) ∧ StopsWith halts words said := by
  constructor
  · intro h
    refine ⟨h x said List.suffix_rfl, fun y after here => ?_⟩
    exact h y after (here.trans (List.suffix_cons x said))
  · rintro ⟨first, rest⟩ y after here halt
    rcases List.suffix_cons_iff.1 here with same | here
    · cases same
      exact first halt
    · exact rest y after here halt

/-- Where nothing halts nothing has to stop. -/
theorem stopsWith_of_forall_not (h : ∀ x ∈ said, ¬ halts x) : StopsWith halts words said :=
  fun x _ here halt => absurd halt (h x (here.subset List.mem_cons_self))

/-- Before words that stop as they should there may be others that do not halt. -/
theorem StopsWith.append_of_forall_not {more : List Exchange} (h : ∀ x ∈ said, ¬ halts x)
    (stops : StopsWith halts words more) : StopsWith halts words (said ++ more) := by
  induction said with
  | nil => exact stops
  | cons x said ih =>
      obtain ⟨first, rest⟩ := List.forall_mem_cons.1 h
      exact stopsWith_cons.2 ⟨fun halt => absurd halt first, ih rest⟩

/-- What stops with nothing stops with the words that are added to it, if these do not halt. -/
theorem StopsWith.append_words (stops : StopsWith halts [] said) (h : ∀ x ∈ words, ¬ halts x) :
    StopsWith halts words (said ++ words) := by
  induction said with
  | nil => exact stopsWith_of_forall_not h
  | cons x said ih =>
      obtain ⟨first, rest⟩ := stopsWith_cons.1 stops
      exact stopsWith_cons.2 ⟨fun halt => congrArg (· ++ words) (first halt), ih rest⟩

end StopsWith

/-- **A dialogue that heeds** says nothing after an exchange that halts it, and answers only if there
was none. -/
theorem Dialogue.Heeds.stops {α : Type} {halts : Exchange → Prop} {d : Dialogue α}
    (h : d.Heeds halts) {replies : List Reply} {result : Except StoreError α} {left : Peer}
    {said : List Exchange} (held : d.hold (.script replies) = ⟨some result, left, said⟩) :
    StopsWith halts [] said ∧ ∀ answer, result = .ok answer → ∀ x ∈ said, ¬ halts x := by
  induction h generalizing replies said with
  | done r =>
      cases held
      exact ⟨stopsWith_of_forall_not fun x hx => absurd hx List.not_mem_nil,
        fun _ _ x hx => absurd hx List.not_mem_nil⟩
  | @ask s next _ stops _ ih =>
      rw [hold_ask_script] at held
      generalize replies.headD (.answered [] 0) = r at held
      obtain ⟨answered, rfl, rfl⟩ := Spoken.mk.inj held
      have later := ih r (congrArg (Spoken.mk · _ _) answered)
      -- after a reply that halts the dialogue is done, and has failed
      have ended : halts ⟨s, some r⟩ →
          ((next r).hold (.script replies.tail)).sent = [] ∧ ∃ e, result = .error e := by
        intro halt
        obtain ⟨e, failed⟩ := stops r halt
        rw [failed] at answered ⊢
        exact ⟨rfl, e, (Option.some.inj answered).symm⟩
      refine ⟨stopsWith_cons.2 ⟨fun halt => (ended halt).1, later.1⟩, fun answer same => ?_⟩
      refine List.forall_mem_cons.2 ⟨fun halt => ?_, later.2 answer same⟩
      obtain ⟨-, e, failed⟩ := ended halt
      cases same.symm.trans failed

/-! ## Transactions -/

/-- The **transcript** of a transaction held with a script: what is said, and how it ends. -/
inductive Transcript {α : Type} (id : StorageId) (work : Dialogue α) :
    List Exchange → Except StoreError α → Prop
  /-- It does not begin. -/
  | unbegun (cause : String) (e : StoreError) :
      Transcript id work [refused beginStatement cause] (.error e)
  /-- It does not get the lock. -/
  | unlocked (begun : List Row × Nat) (cause : String) (e : StoreError) :
      Transcript id work
        [carriedOut beginStatement begun, refused (about Sql.lock id []) cause, takenBack] (.error e)
  /-- Its work fails. -/
  | undone (begun locked : List Row × Nat) {replies : List Reply} {left : Peer}
      {said : List Exchange} {e : StoreError}
      (failed : work.hold (.script replies) = ⟨some (.error e), left, said⟩) :
      Transcript id work
        (carriedOut beginStatement begun :: carriedOut (about Sql.lock id []) locked ::
          (said ++ [takenBack])) (.error e)
  /-- It is not committed. -/
  | uncommitted (begun locked : List Row × Nat) {replies : List Reply} {left : Peer}
      {said : List Exchange} {x : α} (cause : String) (e : StoreError)
      (worked : work.hold (.script replies) = ⟨some (.ok x), left, said⟩) :
      Transcript id work
        (carriedOut beginStatement begun :: carriedOut (about Sql.lock id []) locked ::
          (said ++ [refused commitStatement cause, takenBack])) (.error e)
  /-- It is committed. -/
  | committed (begun locked kept : List Row × Nat) {replies : List Reply} {left : Peer}
      {said : List Exchange} {x : α}
      (worked : work.hold (.script replies) = ⟨some (.ok x), left, said⟩) :
      Transcript id work
        (carriedOut beginStatement begun :: carriedOut (about Sql.lock id []) locked ::
          (said ++ [carriedOut commitStatement kept])) (.ok x)

/-- **A transaction that is held with a script** has one of these transcripts. -/
theorem transcript_transaction {α : Type} (id : StorageId) (work : Dialogue α)
    (replies : List Reply) :
    ∃ result, ((transaction id work).hold (.script replies)).result = some result ∧
      Transcript id work ((transaction id work).hold (.script replies)).sent result := by
  have told : ∀ {result : Except StoreError α} {left : Peer} {said : List Exchange},
      (transaction id work).hold (.script replies) = ⟨some result, left, said⟩ →
      Transcript id work said result →
      ∃ result, ((transaction id work).hold (.script replies)).result = some result ∧
        Transcript id work ((transaction id work).hold (.script replies)).sent result := by
    intro result left said held told
    rw [held]
    exact ⟨result, rfl, told⟩
  rcases Dialogue.hold_request_script beginStatement
      (fun cause => .transaction s!"failed to begin transaction: {cause}") replies with
    ⟨begun, left, opened⟩ | ⟨cause, left, unbegun⟩
  · rcases Dialogue.hold_request_script (about Sql.lock id [])
        (fun cause => .transaction s!"failed to lock storage {id.toInt}: {cause}") left with
      ⟨locked, left, inside⟩ | ⟨cause, left, unlocked⟩
    · obtain ⟨result, left', said, worked⟩ := work.exists_hold_script left
      cases result with
      | error e =>
          refine told (Dialogue.hold_bind_of_ok opened (Dialogue.hold_orRollback_script
            (Dialogue.hold_bind_of_ok inside (Dialogue.hold_bind_of_error _ worked)))) ?_
          exact .undone begun locked worked
      | ok x =>
          rcases Dialogue.hold_request_script commitStatement
              (fun cause => .transaction s!"failed to commit transaction: {cause}") left' with
            ⟨kept, left, committed⟩ | ⟨cause, left, uncommitted⟩
          · refine told (Dialogue.hold_bind_of_ok opened (Dialogue.hold_orRollback_script
              (Dialogue.hold_bind_of_ok inside (Dialogue.hold_bind_of_ok worked
                (Dialogue.hold_bind_of_ok committed rfl))))) ?_
            rw [Dialogue.closing, List.append_nil, List.append_nil]
            exact .committed begun locked kept worked
          · refine told (Dialogue.hold_bind_of_ok opened (Dialogue.hold_orRollback_script
              (Dialogue.hold_bind_of_ok inside (Dialogue.hold_bind_of_ok worked
                (Dialogue.hold_bind_of_error _ uncommitted))))) ?_
            rw [Dialogue.closing, List.append_assoc, List.append_assoc]
            exact .uncommitted begun locked cause _ worked
    · refine told (Dialogue.hold_bind_of_ok opened (Dialogue.hold_orRollback_script
        (Dialogue.hold_bind_of_error _ unlocked))) ?_
      exact .unlocked begun cause _
  · exact told (Dialogue.hold_bind_of_error _ unbegun) (.unbegun cause _)

/-! ## Disciplined transactions -/

/-- How often a COMMIT is asked for. -/
def commits (said : List Exchange) : Nat := said.countP fun x => x.statement = commitStatement

/-- Statements other than a COMMIT do not count. -/
theorem commits_append_of_ne {said more : List Exchange}
    (h : ∀ x ∈ said, x.statement ≠ commitStatement) : commits (said ++ more) = commits more := by
  have none : commits said = 0 := List.countP_eq_zero.2 fun x hx => by simpa using h x hx
  rw [commits, List.countP_append]
  exact (congrArg (· + commits more) none).trans (Nat.zero_add _)

/-- What is said is **disciplined**: a transaction begins, takes the lock of its storage before anything
else, stops at whatever halts it with nothing but a ROLLBACK, asks for at most one COMMIT, and gives an
answer only if that was carried out. -/
structure Disciplined (halts : Exchange → Prop) (id : StorageId) (said : List Exchange)
    (answers : Prop) : Prop where
  /-- The first statement is BEGIN; if it is refused nothing follows, and else the lock is next. -/
  begins : (∃ cause, said = [refused beginStatement cause]) ∨
    ∃ begun reply later,
      said = carriedOut beginStatement begun :: ⟨about Sql.lock id [], some reply⟩ :: later
  /-- After an exchange that halts it there is a ROLLBACK and nothing else. -/
  stops : StopsWith halts [takenBack] said.tail
  /-- There is at most one COMMIT. -/
  once : commits said ≤ 1
  /-- There is an answer only after a COMMIT that is carried out. -/
  keeps : answers → Committed said

namespace Transcript

variable {α : Type} {id : StorageId} {work : Dialogue α} {said : List Exchange}
  {result : Except StoreError α}

/-- It begins with BEGIN and then takes the lock. -/
theorem begins (h : Transcript id work said result) :
    (∃ cause, said = [refused beginStatement cause]) ∨
      ∃ begun reply later,
        said = carriedOut beginStatement begun :: ⟨about Sql.lock id [], some reply⟩ :: later := by
  cases h with
  | unbegun cause e => exact .inl ⟨cause, rfl⟩
  | unlocked begun cause e => exact .inr ⟨begun, _, _, rfl⟩
  | undone begun locked failed => exact .inr ⟨begun, _, _, rfl⟩
  | uncommitted begun locked cause e worked => exact .inr ⟨begun, _, _, rfl⟩
  | committed begun locked kept worked => exact .inr ⟨begun, _, _, rfl⟩

/-- It stops at whatever halts it, if its work heeds that and its frame is always as expected. -/
theorem stops {expects : Statement → List Row → Prop} (heeds : work.Heeds (Halts expects))
    (frame : ∀ s rows, s.sql ∈ frameTexts → expects s rows) (h : Transcript id work said result) :
    StopsWith (Halts expects) [takenBack] said.tail := by
  have goes : ∀ {s : Statement} (answer : List Row × Nat), s.sql ∈ frameTexts →
      ¬ Halts expects (carriedOut s answer) :=
    fun answer text halt => halts_carriedOut_iff.1 halt (frame _ _ text)
  have locked : ∀ answer, ¬ Halts expects (carriedOut (about Sql.lock id []) answer) :=
    fun answer => goes answer (by decide : Sql.lock ∈ frameTexts)
  have back : ∀ x ∈ [takenBack], ¬ Halts expects x :=
    List.forall_mem_singleton.2 not_halts_takenBack
  cases h with
  | unbegun cause e => exact stopsWith_of_forall_not nofun
  | unlocked begun cause e => exact stopsWith_cons.2 ⟨fun _ => rfl, stopsWith_of_forall_not back⟩
  | undone begun answer failed =>
      refine stopsWith_cons.2 ⟨fun halt => absurd halt (locked answer), ?_⟩
      exact (heeds.stops failed).1.append_words back
  | uncommitted begun answer cause e worked =>
      refine stopsWith_cons.2 ⟨fun halt => absurd halt (locked answer), ?_⟩
      refine .append_of_forall_not ((heeds.stops worked).2 _ rfl) ?_
      exact stopsWith_cons.2 ⟨fun _ => rfl, stopsWith_of_forall_not back⟩
  | committed begun answer kept worked =>
      refine stopsWith_cons.2 ⟨fun halt => absurd halt (locked answer), ?_⟩
      refine .append_of_forall_not ((heeds.stops worked).2 _ rfl) ?_
      exact stopsWith_of_forall_not (List.forall_mem_singleton.2 (goes kept (by decide)))

/-- It asks for one COMMIT at most, if its work asks for none. -/
theorem commits_le_one (other : work.Says (· ≠ commitStatement))
    (h : Transcript id work said result) : commits said ≤ 1 := by
  have opened : ∀ {reply lock : Option Reply} {later : List Exchange},
      commits (⟨beginStatement, reply⟩ :: ⟨about Sql.lock id [], lock⟩ :: later) = commits later := by
    intro reply lock later
    refine @commits_append_of_ne [⟨beginStatement, reply⟩, ⟨about Sql.lock id [], lock⟩] later ?_
    refine List.forall_mem_cons.2 ⟨?_, List.forall_mem_singleton.2 fun same => ?_⟩
    · exact (by decide : beginStatement ≠ commitStatement)
    · cases congrArg Statement.params same
  have inside : ∀ {replies : List Reply} {said more : List Exchange} {left : Peer}
      {result : Except StoreError α}, work.hold (.script replies) = ⟨some result, left, said⟩ →
      commits (said ++ more) = commits more := by
    intro replies said more left result held
    have sent := other.sent (.script replies)
    rw [held] at sent
    exact commits_append_of_ne sent
  cases h with
  | unbegun cause e => exact List.countP_le_length
  | unlocked begun cause e =>
      rw [carriedOut, refused, opened]
      exact List.countP_le_length
  | undone begun locked failed =>
      rw [carriedOut, carriedOut, opened, inside failed]
      exact List.countP_le_length
  | uncommitted begun locked cause e worked =>
      rw [carriedOut, carriedOut, opened, inside worked]
      exact (by decide : 1 ≤ 1)
  | committed begun locked kept worked =>
      rw [carriedOut, carriedOut, opened, inside worked]
      exact List.countP_le_length

/-- If it answers it committed. -/
theorem committed_of_ok {x : α} (h : Transcript id work said (.ok x)) : Committed said := by
  cases h with
  | committed begun locked kept worked =>
      refine ⟨kept.1, kept.2, List.mem_cons_of_mem _ (List.mem_cons_of_mem _ ?_)⟩
      exact List.mem_append_right _ List.mem_cons_self

/-- **The transcript of a transaction is disciplined** if its work heeds what halts it. -/
theorem disciplined {expects : Statement → List Row → Prop} (heeds : work.Heeds (Halts expects))
    (frame : ∀ s rows, s.sql ∈ frameTexts → expects s rows) (h : Transcript id work said result) :
    Disciplined (Halts expects) id said (∃ x, result = .ok x) where
  begins := h.begins
  stops := h.stops heeds frame
  once := h.commits_le_one heeds.says_other
  keeps := by
    rintro ⟨x, rfl⟩
    exact h.committed_of_ok

end Transcript

end PathAcl.Database
