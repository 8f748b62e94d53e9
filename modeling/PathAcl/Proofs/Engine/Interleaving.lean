import Mathlib.Logic.Function.Basic
import PathAcl.Proofs.Engine.Listings
import PathAcl.WriterLocks

/-! # Readers and writers at once
Any number of readers and writers use one engine at once, and a step of one may come between two steps of
another. A reader looks its question up, counts the writes so far, asks the store, and puts the answer
into the index. A writer, once the locks let it in, has the store write, then takes note of the write and
leaves. Between a write and its note the index may remember an answer that is out of date, but only to a
question that names a sid the write touched, and the note strikes it. -/

namespace PathAcl

namespace WriterLocks

variable {g : WriterLocks} {id : StorageId}

/-- A writer is let in if the storage is not locked, and locks it. -/
theorem enter?_eq_some_iff {entered : WriterLocks} :
    g.enter? id = some entered ↔
      id ∉ g.held.members ∧ entered = ⟨g.held.add id, g.tracked.add id⟩ := by
  rw [enter?, ← SortedSet.contains_iff]
  by_cases locked : g.held.contains id = true
  · rw [if_pos locked]
    exact iff_of_false nofun fun both => both.1 locked
  · rw [if_neg locked]
    exact ⟨fun h => ⟨locked, (Option.some.inj h).symm⟩, fun both => congrArg some both.2.symm⟩

/-- A writer that is there may leave, and unlocks the storage. -/
theorem leave?_eq_of_mem (here : id ∈ g.held.members) :
    g.leave? id = some { g with held := g.held.erase id } := by
  rw [leave?, if_pos ((SortedSet.contains_iff _).2 here)]

end WriterLocks

namespace Engine

open PathAcl.Action (state_bind_of_keeps)
open Memory

variable {catalog : Catalog} {maxBatch : Nat} {s : EngineState Memory}

/-! ## Writers -/

/-- A **write** that an engine asks of the store once the checks of a request have passed. A move is
asked for between places of one type alone. -/
inductive Write
  | upsert (storage : StorageRef) (rows : List Permission)
  | delete (id : StorageId) (keys : List PermissionKey)
  | deleteUnder (id : StorageId) (roots : List PathRef)
  | relocate (id : StorageId) (source destination : PathRef)
      (type : destination.type = source.type)

namespace Write

/-- The storage that is written to. -/
def target : Write → StorageId
  | .upsert storage _ => storage.id
  | .delete id _ | .deleteUnder id _ | .relocate id _ _ _ => id

/-- Has the store write. Answers the sids that the write is to be noted with; a move that moves nothing
is not noted. -/
def act {σ : Type} (e : Engine σ) : Write → Step σ (Option (List Sid))
  | .upsert storage rows => do
      let written ← onStore (e.store.upsert storage rows)
      pure (some (distinctSids (written.map Permission.sid)))
  | .delete id keys => do
      let dropped ← onStore (e.store.delete id keys)
      pure (some (distinctSids (dropped.map PermissionKey.sid)))
  | .deleteUnder id roots => do
      let dropped ← onStore (e.store.deleteUnder id roots)
      pure (some (distinctSids (dropped.map PermissionKey.sid)))
  | .relocate id source destination _ => do
      let moved ← onStore (e.store.relocate id source destination)
      pure (if 0 < moved then some [] else none)

/-- The steps of a writer that nobody interrupts: it has the store write and takes note at once. -/
def steps {σ : Type} (e : Engine σ) (what : Write) : Step σ Unit := do
  match ← what.act e with
  | some sids => noteWrite what.target sids
  | none => pure ()

variable (catalog maxBatch) in
/-- A state is **left by a writer** that nobody interrupted, unless it was not even let write. -/
def Leaves (s t : EngineState Memory) : Prop :=
  t = s ∨ ∃ what : Write, t = ((what.steps (engine catalog maxBatch)).run s).state

/-- What an operation does once its checks have passed is what the steps of a writer do. -/
theorem leaves_of_checked {α β : Type} {a : Action Memory StoreError α} {f : α → Step Memory β}
    (what : Write) {sids : α → Option (List Sid)}
    (act : what.act (engine catalog maxBatch) = onStore a >>= fun x => pure (sids x))
    (rest : ∀ x t, ((f x).run t).state =
      ⟨t.store, (sids x).elim t.index fun sids => noted t.index what.target sids⟩) :
    Leaves catalog maxBatch s ((onStore a >>= f).run s).state := by
  refine .inr ⟨what, ?_⟩
  rw [steps, act, Action.state_bind, Action.state_bind, Action.answer_bind, Action.state_bind]
  cases ((onStore a).run s).answer with
  | error failure => rfl
  | ok x =>
      simp only [Action.run_pure, rest]
      cases sids x with
      | none => rfl
      | some sids => exact (run_noteWrite _ what.target sids).2.symm

/-- Writing rows. -/
theorem leaves_insert (now : Instant) (storage : StorageRef) (requests : List GrantRequest) :
    Leaves catalog maxBatch s (((engine catalog maxBatch).insert now storage requests).run s).state :=
  state_writeBatch_of_checked (.inl rfl) fun rows _ =>
    leaves_of_checked (.upsert storage rows) rfl fun _ _ => state_noteWrite_bind fun _ => rfl

/-- Dropping rows. -/
theorem leaves_delete (storage : StorageRef) (keys : List PermissionKey) :
    Leaves catalog maxBatch s (((engine catalog maxBatch).delete storage keys).run s).state :=
  state_writeBatch_of_checked (.inl rfl) fun keys _ =>
    leaves_of_checked (.delete storage.id keys) rfl fun _ _ => state_noteWrite_bind fun _ => rfl

/-- Dropping subtrees. -/
theorem leaves_deleteUnder (storage : StorageRef) (roots : List PathRef) :
    Leaves catalog maxBatch s (((engine catalog maxBatch).deleteUnder storage roots).run s).state :=
  state_writeBatch_of_checked (.inl rfl) fun roots _ =>
    leaves_of_checked (.deleteUnder storage.id roots) rfl fun _ _ => state_noteWrite_bind fun _ => rfl

/-- Moving rows. -/
theorem leaves_move (storage : StorageRef) (source destination : PathRef) :
    Leaves catalog maxBatch s
      (((engine catalog maxBatch).move storage source destination).run s).state := by
  refine state_bind_of_keeps rfl (.inl rfl) fun ends checked => ?_
  obtain ⟨p, q⟩ := ends
  by_cases same : p = q
  · simp only [if_pos same]
    exact .inl rfl
  · simp only [if_neg same]
    refine state_bind_of_keeps (run_confirm storage).2 (.inl rfl) fun _ _ => ?_
    refine leaves_of_checked (.relocate storage.id p q (type_of_checkMove checked)) rfl fun moved t => ?_
    by_cases some_moved : 0 < moved
    · simp only [if_pos some_moved]
      exact state_noteWrite_bind fun _ => rfl
    · simp only [if_neg some_moved]
      rfl

end Write

/-- A change of the table **touches** no other sids than these: the answers to questions that name none of
them are as before. -/
structure Touches (sids : List Sid) (m m' : Memory) : Prop where
  sound : m'.Sound
  stable : ∀ question : SidSet, (∀ sid ∈ question.members, sid ∉ sids) →
    holding m' question = holding m question

/-- What having the store write comes to: it fails and changes nothing, or the table changes and the sids
that this touches are told. -/
inductive Wrote (s : EngineState Memory) :
    Except RequestError (Option (List Sid)) → EngineState Memory → Prop
  | failed (e : RequestError) : Wrote s (.error e) s
  | done {sids : Option (List Sid)} {m : Memory} (touches : Touches (sids.getD []) s.store m) :
      Wrote s (.ok sids) ⟨m, s.index⟩

/-- An operation on the table is written if all it may leave is. -/
theorem wrote_onStore_bind {α : Type} {a : Action Memory StoreError α}
    {r : Except StoreError (α × Memory)} {sids : α → Option (List Sid)}
    (does : s.store.Does a r)
    (done : ∀ x m, r = .ok (x, m) → Touches ((sids x).getD []) s.store m) :
    Wrote s ((onStore a >>= fun x => pure (sids x)).run s).answer
      ((onStore a >>= fun x => pure (sids x)).run s).state := by
  rw [Action.answer_bind, Action.state_bind, answer_onStore, state_onStore, does.1, does.2]
  cases r with
  | error e => exact .failed _
  | ok both => exact .done (done both.1 both.2 rfl)

/-- **What a write comes to.** -/
theorem wrote_act (sound : s.store.Sound) (what : Write) :
    Wrote s ((what.act (engine catalog maxBatch)).run s).answer
      ((what.act (engine catalog maxBatch)).run s).state := by
  cases what with
  | upsert storage rows =>
      refine wrote_onStore_bind (run_upsert s.store storage rows) fun written m upsert => ?_
      have left : m.Sound := (Effect.insert upsert).sound sound
      exact ⟨left, fun question => holding_upsert sound upsert left⟩
  | delete id keys =>
      refine wrote_onStore_bind (run_delete s.store id keys) fun dropped m delete => ?_
      have left : m.Sound := (Effect.delete delete).sound sound
      exact ⟨left, fun question => holding_delete sound delete left⟩
  | deleteUnder id roots =>
      refine wrote_onStore_bind (run_deleteUnder s.store id roots) fun dropped m delete => ?_
      have left : m.Sound := (Effect.deleteUnder delete).sound sound
      exact ⟨left, fun question => holding_deleteUnder sound delete left⟩
  | relocate id source destination type =>
      refine wrote_onStore_bind (run_relocate s.store id source destination) fun moved m relocate => ?_
      have left : m.Sound := (Effect.move relocate type).sound sound
      exact ⟨left, fun question _ => holding_relocate sound relocate left type question⟩

/-- A **writer** between two steps: it has nothing to do, or has yet to take note of what it wrote. -/
inductive Writer
  | idle
  | wrote (id : StorageId) (sids : List Sid)

/-- The storage on which a writer has a write left to be noted. -/
def Writer.on : Writer → Option StorageId
  | .idle => none
  | .wrote id _ => some id

/-- A question is **unsettled** as long as a writer that touched one of its sids has not taken note. -/
def Unsettled (writers : Nat → Writer) (question : SidSet) : Prop :=
  ∃ w id sids, writers w = .wrote id sids ∧ ∃ sid ∈ question.members, sid ∈ sids

/-- An answer is **fair** if it is what the table answers, or its question is unsettled. -/
def Fair (m : Memory) (writers : Nat → Writer) (question : SidSet) (answer : SortedSet StorageRef) :
    Prop :=
  answer = holding m question ∨ Unsettled writers question

/-! ## Readers -/

/-- A **reader** between two steps. -/
inductive Reader
  | done (answer : SortedSet StorageRef)
  | wants (question : SidSet)
  | missed (question : SidSet)
  | counted (question : SidSet) (seen : UInt64)
  | asked (question : SidSet) (seen : UInt64) (answer : SortedSet StorageRef)

namespace Reader

/-- The next step of a reader. -/
def act {σ : Type} (e : Engine σ) : Reader → Step σ Reader
  | .done answer => pure (.done answer)
  | .wants question => do
      match ← consult question with
      | some answer => pure (.done answer)
      | none => pure (.missed question)
  | .missed question => do pure (.counted question (← writesSeen))
  | .counted question seen => do pure (.asked question seen (← e.askReadable question))
  | .asked question seen answer => do
      remember question answer seen
      pure (.done answer)

/-- **A reader that nobody interrupts lists the storages that can be read**: its steps make up the
operation of the engine. -/
theorem steps_eq_readable {σ : Type} (e : Engine σ) (sids : List Sid)
    (some_asked : (SortedSet.ofList sids).isEmpty = false) (s : EngineState σ) :
    let steps : Step σ Reader := do
      (← (← (← (wants (SortedSet.ofList sids)).act e).act e).act e).act e
    (steps.run s).answer = ((e.readable sids).run s).answer.map done ∧
      (steps.run s).state = ((e.readable sids).run s).state := by
  intro steps
  simp only [steps, readable, some_asked, Bool.false_eq_true, if_false]
  generalize SortedSet.ofList sids = question
  simp only [act, Action.answer_bind, Action.state_bind, (run_consult question s).1,
    (run_consult question s).2]
  cases remembered? s.index question with
  | some answer => exact ⟨rfl, rfl⟩
  | none =>
      have counted : ((writesSeen : Step σ UInt64).run s).answer =
        .ok (s.index.elim 0 StorageIndex.writes) := rfl
      have kept : ((writesSeen : Step σ UInt64).run s).state = s := rfl
      simp only [Action.run_pure, Action.answer_bind, Action.state_bind, counted, kept]
      cases ((e.askReadable question).run s).answer with
      | error failure => exact ⟨rfl, rfl⟩
      | ok answer =>
          simp only [Action.answer_bind, Action.state_bind, Action.run_pure,
            (run_remember question answer _ _).1]
          exact ⟨rfl, trivial⟩

/-- A reader is **safe**, so many notes after it counted, if the count has gone on by as many since, and
if none came, its answer is fair. -/
def Safe (s : EngineState Memory) (writers : Nat → Writer) (since : Nat) : Reader → Prop
  | .counted _ seen => ∀ x, s.index = some x → x.writes = seen + .ofNat since
  | .asked question seen answer => ∀ x, s.index = some x →
      x.writes = seen + .ofNat since ∧ (since = 0 → Fair s.store writers question answer)
  | .done _ | .wants _ | .missed _ => True

/-- A safe reader stays safe if the notes that came are counted on, and unless one came, fair answers
stay fair. -/
theorem Safe.later {reader : Reader} {writers writers' : Nat → Writer} {t : EngineState Memory}
    {since : Nat} (h : reader.Safe s writers since) {notes : Nat}
    (later : ∀ y, t.index = some y → ∃ x, s.index = some x ∧ y.writes = x.writes + .ofNat notes ∧
      (notes = 0 → ∀ question answer, Fair s.store writers question answer →
        Fair t.store writers' question answer)) :
    reader.Safe t writers' (since + notes) := by
  cases reader with
  | done | wants | missed => trivial
  | counted question seen =>
      intro y hy
      obtain ⟨x, hx, counted, -⟩ := later y hy
      rw [counted, h x hx, UInt64.ofNat_add, UInt64.add_assoc]
  | asked question seen answer =>
      intro y hy
      obtain ⟨x, hx, counted, fair⟩ := later y hy
      obtain ⟨from_seen, current⟩ := h x hx
      constructor
      · rw [counted, from_seen, UInt64.ofNat_add, UInt64.add_assoc]
      · intro none_came
        obtain ⟨none_before, none_now⟩ := Nat.add_eq_zero_iff.1 none_came
        exact fair none_now _ _ (current none_before)

/-- A safe reader stays safe while the count stays and fair answers stay fair. -/
theorem Safe.kept {reader : Reader} {writers writers' : Nat → Writer} {t : EngineState Memory}
    {since : Nat} (h : reader.Safe s writers since)
    (kept : ∀ y, t.index = some y → ∃ x, s.index = some x ∧ y.writes = x.writes ∧
      ∀ question answer, Fair s.store writers question answer →
        Fair t.store writers' question answer) :
    reader.Safe t writers' since := by
  have later : reader.Safe t writers' (since + 0) := h.later fun y index => by
    obtain ⟨x, before, counted, fair⟩ := kept y index
    exact ⟨x, before, counted.trans (UInt64.add_zero _).symm, fun _ => fair⟩
  exact later

/-- The count comes back to a number only after all others. -/
theorem eq_zero_of_eq_add_ofNat {seen : UInt64} {since : Nat} (back : seen = seen + .ofNat since)
    (few : since < UInt64.size) : since = 0 := by
  have same := congrArg UInt64.toNat back
  have low := seen.toNat_lt
  rw [UInt64.toNat_add, UInt64.toNat_ofNat_of_lt' few] at same
  simp only [UInt64.size] at few
  omega

end Reader

/-- What the next step of a reader can do. -/
inductive Reads (s : EngineState Memory) : Reader → Reader → EngineState Memory → Prop
  | rest (answer : SortedSet StorageRef) : Reads s (.done answer) (.done answer) s
  | hit {question : SidSet} {answer : SortedSet StorageRef}
      (found : remembered? s.index question = some answer) : Reads s (.wants question) (.done answer) s
  | miss {question : SidSet} (missed : remembered? s.index question = none) :
      Reads s (.wants question) (.missed question) s
  | count (question : SidSet) :
      Reads s (.missed question) (.counted question (s.index.elim 0 StorageIndex.writes)) s
  | ask (question : SidSet) (seen : UInt64) :
      Reads s (.counted question seen) (.asked question seen (holding s.store question)) s
  | put (question : SidSet) (seen : UInt64) (answer : SortedSet StorageRef) :
      Reads s (.asked question seen answer) (.done answer)
        ⟨s.store, s.index.map fun x => (x.remember question answer seen).2⟩

/-- **What a step of a reader does.** -/
theorem reads_act (reader : Reader) :
    ∃ next, ((reader.act (engine catalog maxBatch)).run s).answer = .ok next ∧
      Reads s reader next ((reader.act (engine catalog maxBatch)).run s).state := by
  cases reader with
  | done answer => exact ⟨_, rfl, .rest answer⟩
  | wants question =>
      simp only [Reader.act, Action.answer_bind, Action.state_bind, (run_consult question s).1,
        (run_consult question s).2]
      cases found : remembered? s.index question with
      | some answer => exact ⟨_, rfl, .hit found⟩
      | none => exact ⟨_, rfl, .miss found⟩
  | missed question => exact ⟨_, rfl, .count question⟩
  | counted question seen => exact ⟨_, rfl, .ask question seen⟩
  | asked question seen answer =>
      simp only [Reader.act, Action.answer_bind, Action.state_bind,
        (run_remember question answer seen s).1, (run_remember question answer seen s).2]
      exact ⟨_, rfl, .put question seen answer⟩

/-! ## Traffic -/

/-- The **traffic** at an engine: what it keeps, the locks of the writers, and where each reader and each
writer is. -/
structure Traffic where
  state : EngineState Memory
  locks : WriterLocks
  readers : Nat → Reader
  writers : Nat → Writer

namespace Traffic

/-- An **act** in the traffic: the next step of a reader or a writer, or the loss of an entry of the
index. -/
inductive Act
  | want (reader : Nat) (question : SidSet)
  | read (reader : Nat)
  | write (writer : Nat) (what : Write)
  | note (writer : Nat)
  | lose (question : SidSet)

/-- The traffic before anybody has come. -/
def start (s : EngineState Memory) : Traffic := ⟨s, ∅, fun _ => .done ∅, fun _ => .idle⟩

variable (catalog maxBatch) in
/-- The traffic after an act. A reader or writer that is busy takes up nothing else, and a writer waits as
long as the locks do not let it in. -/
def after (t : Traffic) : Act → Traffic
  | .want r question =>
      match t.readers r with
      | .done _ => { t with readers := Function.update t.readers r (.wants question) }
      | _ => t
  | .read r =>
      let o := ((t.readers r).act (engine catalog maxBatch)).run t.state
      match o.answer with
      | .ok next => { t with state := o.state, readers := Function.update t.readers r next }
      | .error _ => { t with state := o.state, readers := Function.update t.readers r (.done ∅) }
  | .write w what =>
      match t.writers w, t.locks.enter? what.target with
      | .idle, some locks =>
          let o := (what.act (engine catalog maxBatch)).run t.state
          match o.answer with
          | .ok (some sids) =>
              { t with
                state := o.state
                locks := locks
                writers := Function.update t.writers w (.wrote what.target sids) }
          -- a write that failed or moved nothing is over at once
          | _ => { t with state := o.state, locks := (locks.leave? what.target).getD locks }
      | _, _ => t
  | .note w =>
      match t.writers w with
      | .wrote id sids =>
          { t with
            state := ((noteWrite id sids : Step Memory Unit).run t.state).state
            locks := (t.locks.leave? id).getD t.locks
            writers := Function.update t.writers w .idle }
      | .idle => t
  | .lose question => { t with state := lose t.state question }

variable (catalog maxBatch) in
/-- The traffic after some acts. -/
def afterAll (t : Traffic) (acts : List Act) : Traffic := acts.foldl (after catalog maxBatch) t

/-- What every act keeps, all acts keep. -/
theorem afterAll_induction {p : Traffic → Prop} (step : ∀ t act, p t → p (t.after catalog maxBatch act))
    {t : Traffic} (start : p t) (acts : List Act) : p (t.afterAll catalog maxBatch acts) :=
  List.foldlRecOn acts (after catalog maxBatch) start fun t before act _ => step t act before

/-! ### Pace -/

/-- After one more act, how many notes came since each reader last counted: none for a reader that counts
now, one more for all when a writer takes note. -/
def notesAfter (t : Traffic) (notes : Nat → Nat) : Act → Nat → Nat
  | .read r =>
      match t.readers r with
      | .missed _ => Function.update notes r 0
      | _ => notes
  | .note w =>
      match t.writers w with
      | .wrote _ _ => fun r => notes r + 1
      | .idle => notes
  | _ => notes

variable (catalog maxBatch) in
/-- Acts are **timely** if every reader puts its answer in before 2⁶⁴ notes came since it counted. After
that many the count is the same again. -/
def Timely (t : Traffic) (notes : Nat → Nat) : List Act → Prop
  | [] => True
  | act :: acts =>
      (∀ r question seen answer, act = .read r → t.readers r = .asked question seen answer →
        notes r < UInt64.size) ∧
      Timely (t.after catalog maxBatch act) (t.notesAfter notes act) acts

variable {t : Traffic} {notes : Nat → Nat}

/-- No act lets more than one note come. -/
theorem notesAfter_le (act : Act) (r : Nat) : t.notesAfter notes act r ≤ notes r + 1 := by
  cases act with
  | want | write | lose => exact Nat.le_succ _
  | read v =>
      rw [notesAfter]
      cases t.readers v with
      | missed question =>
          by_cases here : r = v
          · simp only [here, Function.update_self, Nat.zero_le]
          · simp only [Function.update_of_ne here, Nat.le_succ]
      | done | wants | counted | asked => exact Nat.le_succ _
  | note w =>
      rw [notesAfter]
      cases t.writers w with
      | idle => exact Nat.le_succ _
      | wrote id sids => exact Nat.le_refl _

/-- Fewer than 2⁶⁴ acts are timely. -/
theorem timely_of_length {acts : List Act} (few : ∀ r, notes r + acts.length < UInt64.size) :
    Timely catalog maxBatch t notes acts := by
  induction acts generalizing t notes with
  | nil => trivial
  | cons act acts ih =>
      rw [List.length_cons] at few
      refine ⟨fun r _ _ _ _ _ => ?_, ih fun r => ?_⟩
      · have bound := few r
        omega
      · have bound := few r
        have step : t.notesAfter notes act r ≤ notes r + 1 := notesAfter_le act r
        omega

/-! ### Order -/

/-- Traffic is **orderly**, so many notes after each reader counted, if the table is sound, the answers
that the index remembers are registered and fair, and all readers are safe. -/
structure Orderly (t : Traffic) (notes : Nat → Nat) : Prop where
  sound : t.state.store.Sound
  filed : Filed t.state
  fair : ∀ question answer, remembered? t.state.index question = some answer →
    Fair t.state.store t.writers question answer
  safe : ∀ r, (t.readers r).Safe t.state t.writers (notes r)

/-- A reader that becomes a safe one leaves all readers safe. -/
theorem safe_update {s : EngineState Memory} {writers : Nat → Writer} {readers : Nat → Reader}
    (h : ∀ i, (readers i).Safe s writers (notes i)) (r : Nat) {next : Reader}
    (safe : next.Safe s writers (notes r)) :
    ∀ i, (Function.update readers r next i).Safe s writers (notes i) :=
  (Function.forall_update_iff readers fun i reader => reader.Safe s writers (notes i)).2
    ⟨safe, fun i _ => h i⟩

/-- A question stays unsettled if an idle writer writes. -/
theorem unsettled_wrote {writers : Nat → Writer} {w : Nat} (idle : writers w = .idle)
    {question : SidSet} (next : Writer) (h : Unsettled writers question) :
    Unsettled (Function.update writers w next) question := by
  obtain ⟨v, id, sids, wrote, meets⟩ := h
  have apart : v ≠ w := by
    rintro rfl
    rw [idle] at wrote
    cases wrote
  exact ⟨v, id, sids, (Function.update_of_ne apart _ _).trans wrote, meets⟩

/-- After a write that touches some sids, fair answers are fair again, if a question that names one of
them is unsettled now. -/
theorem fair_of_touches {m m' : Memory} {sids : List Sid} {writers writers' : Nat → Writer}
    (touches : Touches sids m m') {question : SidSet} {answer : SortedSet StorageRef}
    (met : (∃ sid ∈ question.members, sid ∈ sids) → Unsettled writers' question)
    (stay : Unsettled writers question → Unsettled writers' question)
    (h : Fair m writers question answer) : Fair m' writers' question answer := by
  by_cases meets : ∃ sid ∈ question.members, sid ∈ sids
  · exact .inr (met meets)
  · have same := touches.stable question fun sid asked touched => meets ⟨sid, asked, touched⟩
    exact h.imp (fun current => current.trans same.symm) stay

/-- A reader that counts starts to see the notes come. -/
theorem Orderly.count (h : t.Orderly notes) (r : Nat) (question : SidSet) :
    Orderly ⟨t.state, t.locks, Function.update t.readers r
      (.counted question (t.state.index.elim 0 StorageIndex.writes)), t.writers⟩
      (Function.update notes r 0) := by
  refine ⟨h.sound, h.filed, h.fair, fun i => ?_⟩
  by_cases here : i = r
  · subst here
    simp only [Function.update_self]
    intro x index
    rw [index]
    exact (UInt64.add_zero x.writes).symm
  · simp only [Function.update_of_ne here]
    exact h.safe i

/-- **Reading keeps traffic orderly**: what a reader puts in in time is fair, for it is refused if a write
was noted since it counted. -/
theorem Orderly.read (h : t.Orderly notes) {r : Nat} {next : Reader} {s : EngineState Memory}
    (reads : Reads t.state (t.readers r) next s)
    (inTime : ∀ question seen answer, t.readers r = .asked question seen answer →
      notes r < UInt64.size) :
    Orderly { t with state := s, readers := Function.update t.readers r next }
      (t.notesAfter notes (.read r)) := by
  have safe := h.safe r
  rw [notesAfter]
  generalize t.readers r = reader at reads safe inTime
  cases reads with
  | rest | hit | miss => exact ⟨h.sound, h.filed, h.fair, safe_update h.safe r trivial⟩
  | count question => exact h.count r question
  | ask question seen =>
      have asked : (Reader.asked question seen (holding t.state.store question)).Safe t.state
          t.writers (notes r) := fun x index => ⟨safe x index, fun _ => .inl rfl⟩
      exact ⟨h.sound, h.filed, h.fair, safe_update h.safe r asked⟩
  | put question seen answer =>
      refine ⟨h.sound, h.filed.remember _ _ _ _, fun q found remembered => ?_, ?_⟩
      · rcases remembered?_of_remember remembered with ⟨rfl, rfl, x, index, current⟩ | before
        · -- the count is what the reader saw, so no note came
          obtain ⟨counted, fair⟩ := safe x index
          rw [current] at counted
          exact fair (Reader.eq_zero_of_eq_add_ofNat counted (inTime _ _ _ rfl))
        · exact h.fair q found before
      · refine safe_update (fun i => (h.safe i).kept fun y index => ?_) r trivial
        obtain ⟨x, before, rfl⟩ := Option.map_eq_some_iff.1 index
        exact ⟨x, before, StorageIndex.writes_remember (x := x) question answer seen,
          fun _ _ fair => fair⟩

/-- A change of the table that leaves fair answers fair keeps traffic orderly, whichever writers have to
take note of it. -/
theorem Orderly.change (h : t.Orderly notes) {m : Memory} {writers : Nat → Writer} (sound : m.Sound)
    (fair : ∀ question answer, Fair t.state.store t.writers question answer →
      Fair m writers question answer) (locks : WriterLocks) :
    Orderly ⟨⟨m, t.state.index⟩, locks, t.readers, writers⟩ notes := by
  refine ⟨sound, h.filed, fun q answer found => fair q answer (h.fair q answer found), fun r => ?_⟩
  exact (h.safe r).kept fun x index => ⟨x, index, rfl, fair⟩

/-- **Writing keeps traffic orderly**: answers that are out of date now are unsettled. -/
theorem Orderly.write (h : t.Orderly notes) {w : Nat} (idle : t.writers w = .idle) (id : StorageId)
    {sids : List Sid} {m : Memory} (touches : Touches sids t.state.store m) (locks : WriterLocks) :
    Orderly ⟨⟨m, t.state.index⟩, locks, t.readers,
      Function.update t.writers w (.wrote id sids)⟩ notes := by
  refine h.change touches.sound (fun question answer => ?_) locks
  exact fair_of_touches touches (fun meets => ⟨w, id, sids, Function.update_self .., meets⟩)
    (unsettled_wrote idle _)

/-- A write that touches no sid keeps traffic orderly, if nobody takes note of it. -/
theorem Orderly.writeUnnoted (h : t.Orderly notes) {m : Memory}
    (touches : Touches [] t.state.store m) (locks : WriterLocks) :
    Orderly ⟨⟨m, t.state.index⟩, locks, t.readers, t.writers⟩ notes := by
  refine h.change touches.sound (fun question answer => ?_) locks
  exact fair_of_touches touches (fun ⟨_, _, touched⟩ => absurd touched List.not_mem_nil) id

/-- **Taking note keeps traffic orderly**: what is still remembered names no sid that the write touched,
and all readers that counted before are behind by one more. -/
theorem Orderly.note (h : t.Orderly notes) {w : Nat} {id : StorageId} {sids : List Sid}
    (wrote : t.writers w = .wrote id sids) (locks : WriterLocks) :
    Orderly ⟨⟨t.state.store, noted t.state.index id sids⟩, locks, t.readers,
      Function.update t.writers w .idle⟩ fun r => notes r + 1 := by
  refine ⟨h.sound, h.filed.noted _ id sids, fun q answer found => ?_, fun r => ?_⟩
  · obtain ⟨before, untouched, -⟩ := h.filed.of_noted found
    refine (h.fair q answer before).imp_right fun ⟨v, id', sids', wrote', sid, asked, touched⟩ => ?_
    -- it is another writer that leaves the question unsettled
    have apart : v ≠ w := by
      rintro rfl
      rw [wrote] at wrote'
      cases wrote'
      exact untouched sid asked touched
    exact ⟨v, id', sids', (Function.update_of_ne apart _ _).trans wrote', sid, asked, touched⟩
  · refine (h.safe r).later fun y index => ?_
    obtain ⟨x, before, rfl⟩ := Option.map_eq_some_iff.1 index
    have counted := StorageIndex.writes_noteWrite (x := x) id sids
    exact ⟨x, before, counted, fun none_came => absurd none_came Nat.one_ne_zero⟩

/-- Losing an entry keeps traffic orderly. -/
theorem Orderly.lose (h : t.Orderly notes) (question : SidSet) :
    Orderly { t with state := Engine.lose t.state question } notes := by
  refine ⟨h.sound, h.filed.lose question, fun q answer found => ?_, fun r => ?_⟩
  · exact h.fair q answer (remembered?_of_lose found)
  · refine (h.safe r).kept fun y index => ?_
    obtain ⟨x, before, rfl⟩ := Option.map_eq_some_iff.1 index
    exact ⟨x, before, rfl, fun _ _ fair => fair⟩

/-- **Every act that is in time keeps traffic orderly.** -/
theorem Orderly.after (h : t.Orderly notes) {act : Act}
    (inTime : ∀ r question seen answer, act = .read r → t.readers r = .asked question seen answer →
      notes r < UInt64.size) :
    (t.after catalog maxBatch act).Orderly (t.notesAfter notes act) := by
  cases act with
  | want r question =>
      rw [Traffic.after]
      split
      · exact ⟨h.sound, h.filed, h.fair, safe_update h.safe r trivial⟩
      · exact h
  | read r =>
      obtain ⟨next, answer, reads⟩ := @reads_act catalog maxBatch t.state (t.readers r)
      simp only [Traffic.after, answer]
      exact h.read reads fun question seen answer => inTime r question seen answer rfl
  | write w what =>
      rw [Traffic.after]
      split
      · next locks idle entered =>
          have wrote := @wrote_act catalog maxBatch t.state h.sound what
          generalize ((what.act (engine catalog maxBatch)).run t.state) = o at wrote ⊢
          obtain ⟨answer, state, reports⟩ := o
          cases wrote with
          | failed e => exact ⟨h.sound, h.filed, h.fair, h.safe⟩
          | @done sids m touches =>
              cases sids with
              | none => exact h.writeUnnoted touches _
              | some sids => exact h.write idle _ touches _
      · exact h
  | note w =>
      rw [Traffic.after, notesAfter]
      split
      · next id sids wrote =>
          rw [(run_noteWrite t.state id sids).2]
          exact h.note wrote _
      · exact h
  | lose question => exact h.lose question

/-- **Timely acts keep traffic orderly.** -/
theorem Orderly.afterAll {acts : List Act} (h : t.Orderly notes)
    (timely : Timely catalog maxBatch t notes acts) :
    ∃ later, (t.afterAll catalog maxBatch acts).Orderly later := by
  induction acts generalizing t notes with
  | nil => exact ⟨notes, h⟩
  | cons act acts ih => exact ih (h.after timely.1) timely.2

/-- Traffic at a coherent engine starts orderly. -/
theorem orderly_start (h : Coherent s) : (start s).Orderly notes :=
  ⟨h.sound, fun x index => (h.agrees x index).registered, fun q answer found => by
    obtain ⟨x, index, found⟩ := Option.bind_eq_some_iff.1 found
    exact .inl ((h.agrees x index).holds q answer found), fun _ => trivial⟩

/-! ## Exclusion -/

/-- Locks **guard** the writers if they hold just the storages on which a write is left to be noted, and
there is one writer at most on each. -/
structure Guards (locks : WriterLocks) (writers : Nat → Writer) : Prop where
  held : ∀ id, id ∈ locks.held.members ↔ ∃ w, (writers w).on = some id
  alone : ∀ v w id, (writers v).on = some id → (writers w).on = some id → v = w

section Guards

variable {locks entered : WriterLocks} {writers : Nat → Writer} {w : Nat} {id : StorageId}

/-- Where a writer is once one of them moved on. -/
theorem on_update (next : Writer) (v : Nat) :
    (Function.update writers w next v).on = if v = w then next.on else (writers v).on := by
  by_cases e : v = w
  · rw [if_pos e, e, Function.update_self]
  · rw [if_neg e, Function.update_of_ne e]

/-- A writer that is let in is alone on its storage. -/
theorem Guards.enter (h : Guards locks writers) (idle : writers w = .idle)
    (enter : locks.enter? id = some entered) (sids : List Sid) :
    Guards entered (Function.update writers w (.wrote id sids)) := by
  obtain ⟨free, rfl⟩ := WriterLocks.enter?_eq_some_iff.1 enter
  have nobody : ∀ v, (writers v).on ≠ some id := fun v on => free ((h.held id).2 ⟨v, on⟩)
  refine ⟨fun j => ?_, fun u v j hu hv => ?_⟩
  · simp only [SortedSet.mem_members_add, h.held, on_update]
    constructor
    · rintro (rfl | ⟨v, on⟩)
      · exact ⟨w, if_pos rfl⟩
      · refine ⟨v, (if_neg ?_).trans on⟩
        rintro rfl
        rw [idle] at on
        cases on
    · rintro ⟨v, on⟩
      split at on
      · exact .inl (Option.some.inj on).symm
      · exact .inr ⟨v, on⟩
  · rw [on_update] at hu hv
    split at hu <;> split at hv
    · next e e' => exact e.trans e'.symm
    · obtain rfl := Option.some.inj hu
      exact absurd hv (nobody v)
    · obtain rfl := Option.some.inj hv
      exact absurd hu (nobody u)
    · exact h.alone u v j hu hv

/-- A writer that takes note may leave, and then nobody is on its storage. -/
theorem Guards.leave (h : Guards locks writers) (on : (writers w).on = some id) :
    ∃ left, locks.leave? id = some left ∧ Guards left (Function.update writers w .idle) := by
  refine ⟨_, WriterLocks.leave?_eq_of_mem ((h.held id).2 ⟨w, on⟩), fun j => ?_, fun u v j hu hv => ?_⟩
  · simp only [SortedSet.mem_members_erase, h.held, on_update]
    constructor
    · rintro ⟨apart, v, on'⟩
      refine ⟨v, (if_neg ?_).trans on'⟩
      rintro rfl
      exact apart (Option.some.inj (on'.symm.trans on))
    · rintro ⟨v, on'⟩
      split at on'
      · cases on'
      · next e =>
          refine ⟨?_, v, on'⟩
          rintro rfl
          exact e (h.alone v w _ on' on)
  · rw [on_update] at hu hv
    split at hu
    · cases hu
    · split at hv
      · cases hv
      · exact h.alone u v j hu hv

/-- A writer that is let in and has nothing to note leaves the locks as it found them. -/
theorem Guards.pass (h : Guards locks writers) (idle : writers w = .idle)
    (enter : locks.enter? id = some entered) :
    ∃ left, entered.leave? id = some left ∧ Guards left writers := by
  have on : (Function.update writers w (.wrote id []) w).on = some id := by
    rw [Function.update_self]
    rfl
  obtain ⟨left, leave, guards⟩ := (h.enter idle enter []).leave on
  rw [Function.update_idem, ← idle, Function.update_eq_self] at guards
  exact ⟨left, leave, guards⟩

end Guards

/-- **Every act keeps the writers guarded.** -/
theorem guards_after (h : Guards t.locks t.writers) (act : Act) :
    Guards (t.after catalog maxBatch act).locks (t.after catalog maxBatch act).writers := by
  cases act with
  | want r question =>
      rw [Traffic.after]
      split <;> exact h
  | read r =>
      rw [Traffic.after]
      split <;> exact h
  | write w what =>
      rw [Traffic.after]
      split
      · next locks idle enter =>
          dsimp only
          split
          · exact h.enter idle enter _
          · obtain ⟨left, leave, guards⟩ := h.pass idle enter
            rw [leave]
            exact guards
      · exact h
  | note w =>
      rw [Traffic.after]
      split
      · next id sids wrote =>
          obtain ⟨left, leave, guards⟩ := h.leave (show (t.writers w).on = some id by rw [wrote]; rfl)
          rw [leave]
          exact guards
      · exact h
  | lose question => exact h

/-- **Two writes to one storage are never left to be noted at once**, whatever readers and writers do. -/
theorem guards_afterAll (s : EngineState Memory) (acts : List Act) :
    Guards ((start s).afterAll catalog maxBatch acts).locks
      ((start s).afterAll catalog maxBatch acts).writers := by
  have begins : Guards (start s).locks (start s).writers := by
    refine ⟨fun id => ?_, fun _ _ _ on => nomatch on⟩
    exact iff_of_false List.not_mem_nil fun ⟨_, on⟩ => nomatch on
  exact afterAll_induction (p := fun t => Guards t.locks t.writers)
    (fun _ act before => guards_after before act) begins acts

/-! ## Quiet traffic -/

variable (catalog maxBatch) in
/-- Readers and writers that nobody interrupts do what an engine does that lists and writes. -/
structure StepsOfEngine : Prop where
  readable : ∀ (sids : List Sid) (s : EngineState Memory), (SortedSet.ofList sids).isEmpty = false →
    let e := engine catalog maxBatch
    let steps : Step Memory Reader := do
      (← (← (← (Reader.wants (SortedSet.ofList sids)).act e).act e).act e).act e
    (steps.run s).answer = ((e.readable sids).run s).answer.map Reader.done ∧
      (steps.run s).state = ((e.readable sids).run s).state
  insert : ∀ (s : EngineState Memory) now storage requests,
    Write.Leaves catalog maxBatch s
      (((engine catalog maxBatch).insert now storage requests).run s).state
  delete : ∀ (s : EngineState Memory) storage keys,
    Write.Leaves catalog maxBatch s (((engine catalog maxBatch).delete storage keys).run s).state
  deleteUnder : ∀ (s : EngineState Memory) storage roots,
    Write.Leaves catalog maxBatch s (((engine catalog maxBatch).deleteUnder storage roots).run s).state
  move : ∀ (s : EngineState Memory) storage source destination,
    Write.Leaves catalog maxBatch s
      (((engine catalog maxBatch).move storage source destination).run s).state

/-- **Readers and writers at once.** What each of them does on its own is what the engine does, and two
writes to one storage are never left to be noted at once. Whatever readers and writers did before, one
between the other: when no write is left to be noted, each answer that the index remembers is what the
store answers now. Only readers that dawdle for 2⁶⁴ notes are left out. -/
theorem remembered_of_allNoted (reached : Reached catalog maxBatch s) {acts : List Act}
    (timely : Timely catalog maxBatch (start s) (fun _ => 0) acts) :
    let t := (start s).afterAll catalog maxBatch acts
    StepsOfEngine catalog maxBatch ∧
      (∀ v w id, (t.writers v).on = some id → (t.writers w).on = some id → v = w) ∧
      ((∀ w, t.writers w = .idle) → ∀ question answer,
        remembered? t.state.index question = some answer →
          (((engine catalog maxBatch).askReadable question).run t.state).answer = .ok answer) := by
  intro t
  refine ⟨⟨fun sids s => Reader.steps_eq_readable _ sids (s := s), fun _ => Write.leaves_insert,
    fun _ => Write.leaves_delete, fun _ => Write.leaves_deleteUnder, fun _ => Write.leaves_move⟩,
    (guards_afterAll s acts).alone, fun allNoted question answer found => ?_⟩
  obtain ⟨notes, orderly⟩ := (orderly_start reached.coherent).afterAll timely
  rcases orderly.fair question answer found with rfl | ⟨w, id, sids, wrote, -⟩
  · rfl
  · rw [allNoted w] at wrote
    cases wrote

/-- The storages of a user are asked for. -/
def wantOne (r : Nat) : Act := .want r (SortedSet.ofList [⟨"u", .user⟩])

/-- Two readers race with a writer. The first one asked before the write, the second one before the note,
so neither puts its answer in; the first one starts over. -/
def race : List Act :=
  [wantOne 0, .read 0, .read 0, .read 0,
    .write 0 (.upsert ⟨1, .s3⟩ [⟨"a", .file, ⟨"u", .user⟩, .read, .epoch⟩]),
    wantOne 1, .read 1, .read 1, .read 1, .note 0, .read 0, .read 1,
    wantOne 0, .read 0, .read 0, .read 0, .read 0]

/-- After the race the index remembers the storage that the writer wrote to, and so the store answers. -/
theorem remembered_after_race :
    Reached .ofStore 10 ⟨∅, some ∅⟩ ∧
      Timely .ofStore 10 (start ⟨∅, some ∅⟩) (fun _ => 0) race ∧
      remembered? ((start ⟨∅, some ∅⟩).afterAll .ofStore 10 race).state.index
        (SortedSet.ofList [⟨"u", .user⟩]) = some (SortedSet.ofList [⟨1, .s3⟩]) ∧
      (((engine .ofStore 10).askReadable (SortedSet.ofList [⟨"u", .user⟩])).run
        ((start ⟨∅, some ∅⟩).afterAll .ofStore 10 race).state).answer =
          .ok (SortedSet.ofList [⟨1, .s3⟩]) := by
  have reached : Reached .ofStore 10 ⟨∅, some ∅⟩ := ⟨⟨true, 10, 30⟩, [], rfl⟩
  have timely : Timely .ofStore 10 (start ⟨∅, some ∅⟩) (fun _ => 0) race :=
    timely_of_length fun _ => by decide
  have idle : ((start ⟨∅, some ∅⟩).afterAll .ofStore 10 race).writers = fun _ => .idle :=
    (Function.update_idem _ _ _).trans (Function.update_eq_self 0 fun _ => Writer.idle)
  have found : remembered? ((start ⟨∅, some ∅⟩).afterAll .ofStore 10 race).state.index
      (SortedSet.ofList [⟨"u", .user⟩]) = some (SortedSet.ofList [⟨1, .s3⟩]) := rfl
  obtain ⟨-, -, current⟩ := remembered_of_allNoted reached timely
  exact ⟨reached, timely, found, current (congrFun idle) _ _ found⟩

end Traffic

end Engine

end PathAcl
