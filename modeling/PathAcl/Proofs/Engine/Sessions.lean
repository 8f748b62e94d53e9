import PathAcl.Proofs.Database.Connection
import PathAcl.Proofs.Database.Transactions
import PathAcl.Proofs.Engine.Walks
import PathAcl.Settings

/-! # Sessions over a database
A session of an engine over a database: its calls in any order, entries that the index loses on the way,
and whatever peer is at the other end. The record of what was said only grows, and an answer that the
index remembers was given by the database at some point of it. -/

namespace PathAcl

open Database

/-- The engine over a database. -/
def Connection.engine (catalog : Catalog) (maxBatch : Nat) : Engine Connection :=
  ⟨store, catalog, maxBatch⟩

namespace Database

/-- The statement that asks in which storages the sids of a question hold a row. -/
def holdingStatement (question : SidSet) : Statement :=
  ⟨Sql.storagesHolding, sidColumns (distinct question.members)⟩

/-- In a talk the database **gave** an answer to a question: it returned rows that name just the
storages of the answer. -/
def Gave (said : List Exchange) (question : SidSet) (answer : SortedSet StorageRef) : Prop :=
  ∃ rows affected storages,
    (⟨holdingStatement question, some (.answered rows affected)⟩ : Exchange) ∈ said ∧
      readAll storageOfRow rows = .ok storages ∧ answer = SortedSet.ofList storages

/-- An answer that was given in a part of a talk was given in the talk. -/
theorem Gave.mono {first second : List Exchange} {question : SidSet} {answer : SortedSet StorageRef}
    (h : Gave first question answer) (le : ∀ x ∈ first, x ∈ second) :
    Gave second question answer := by
  obtain ⟨rows, affected, storages, here, read, same⟩ := h
  exact ⟨rows, affected, storages, le _ here, read, same⟩

end Database

namespace Connection

/-- The storages that are answered for a question are those that the database gave. -/
theorem tells_storagesHolding {question : SidSet} (some_asked : question.isEmpty = false) :
    Tells (fun said result => ∀ storages, result = .ok storages →
      Gave said question (SortedSet.ofList storages)) (storagesHolding question.members) := by
  -- the dialogue answers the rows that its one statement returned
  have asked : Tells (fun said result => ∀ rows, result = .ok rows →
      ∃ affected, (⟨holdingStatement question, some (.answered rows affected)⟩ : Exchange) ∈ said)
      (reading .storagesHolding (Database.storagesHolding question.members)) := by
    refine .timed (fun peer r h rows same => ?_) fun peer e h rows same => by cases same
    have spoken : (Database.storagesHolding question.members).hold peer =
        ⟨some (.ok rows), ((Database.storagesHolding question.members).hold peer).peer,
          ((Database.storagesHolding question.members).hold peer).sent⟩ := by rw [← same, ← h]
    obtain ⟨affected, sent⟩ := sent_of_queryRows spoken
    exact ⟨affected, sent ▸ List.mem_singleton_self _⟩
  have members : ¬ question.members.isEmpty = true := by
    rw [SortedSet.members, SortedMap.keys, List.isEmpty_map]
    exact ne_true_of_eq_false some_asked
  rw [storagesHolding, if_neg members]
  refine asked.bind (fun said e _ storages same => by cases same) fun rows => .ofExcept ?_
  intro said told storages read
  obtain ⟨affected, here⟩ := told rows rfl
  exact ⟨rows, affected, storages, by rwa [List.append_nil], read, rfl⟩

end Connection

namespace Engine

variable {catalog : Catalog} {maxBatch : Nat} {s t u : EngineState Connection}

/-! ## What was said and remembered on the way -/

/-- A state **evolves** into another one in a talk: the talk was added to the record, and an answer
remembered at the end was remembered at the beginning or given in the talk. -/
structure Evolves (said : List Exchange) (s t : EngineState Connection) : Prop where
  sent : t.store.sent = s.store.sent ++ said
  filed : Filed s → Filed t
  remembered : ∀ q answer, remembered? t.index q = some answer →
    remembered? s.index q = some answer ∨ Gave said q answer

/-- A state from which nothing else is remembered evolves in whatever is said. -/
theorem evolves_of_index {said : List Exchange} (sent : t.store.sent = s.store.sent ++ said)
    (index : t.index = s.index) : Evolves said s t :=
  ⟨sent, fun h x hx => h x (index ▸ hx), fun _ _ h => .inl (index ▸ h)⟩

/-- Evolving twice is evolving in both talks. -/
theorem Evolves.trans {first second : List Exchange} (hs : Evolves first s t)
    (ht : Evolves second t u) : Evolves (first ++ second) s u := by
  refine ⟨?_, ht.filed ∘ hs.filed, fun q answer h => ?_⟩
  · rw [ht.sent, hs.sent, List.append_assoc]
  · rcases ht.remembered q answer h with h | given
    · exact (hs.remembered q answer h).imp_right fun given =>
        given.mono fun x hx => List.mem_append_left second hx
    · exact .inr (given.mono fun x hx => List.mem_append_right first hx)

/-- To evolve in some talk. -/
def Onward (s t : EngineState Connection) : Prop := ∃ said, Evolves said s t

instance : IsPreorder (EngineState Connection) Onward where
  refl _ := ⟨[], evolves_of_index (List.append_nil _).symm rfl⟩
  trans _ _ _ := fun ⟨_, first⟩ ⟨_, second⟩ => ⟨_, first.trans second⟩

/-- Taking note of a write evolves the state without a word. -/
theorem evolves_noteWrite (id : StorageId) (sids : List Sid) (s : EngineState Connection) :
    Evolves [] s ⟨s.store, noted s.index id sids⟩ := by
  refine ⟨(List.append_nil _).symm, fun h => h.noted s.store id sids, fun q answer hq => .inl ?_⟩
  obtain ⟨x, index, hq⟩ := Option.bind_eq_some_iff.1 hq
  obtain ⟨old, before, rfl⟩ := Option.map_eq_some_iff.1 index
  rw [StorageIndex.answer?_noteWrite] at hq
  refine Option.bind_eq_some_iff.2 ⟨old, before, ?_⟩
  split at hq
  · cases hq
  · exact hq

/-- Losing an entry evolves the state without a word. -/
theorem evolves_lose (question : SidSet) (s : EngineState Connection) :
    Evolves [] s (lose s question) :=
  ⟨(List.append_nil _).symm, fun h => h.lose question, fun _ _ hq => .inl (remembered?_of_lose hq)⟩

/-- Putting an answer into the index evolves the state in any talk in which it was given. -/
theorem evolves_remember {said : List Exchange} {question : SidSet} {answer : SortedSet StorageRef}
    {asked : UInt64} (given : Gave said question answer) (sent : t.store.sent = s.store.sent ++ said)
    (index : t.index = s.index.map fun x => (x.remember question answer asked).2) :
    Evolves said s t := by
  refine ⟨sent, fun h x hx => ?_, fun q found hq => ?_⟩
  · exact h.remember s.store question answer asked x (index ▸ hx)
  · rw [index] at hq
    rcases remembered?_of_remember hq with ⟨rfl, rfl, -⟩ | before
    · exact .inr given
    · exact .inl before

/-! ## Listing -/

/-- Listing for a question that names sids: it is answered from the index, or asked and, if answered,
put into the index. -/
inductive Lists (question : SidSet) (s : EngineState Connection) :
    Except RequestError (SortedSet StorageRef) → EngineState Connection → Prop
  | hit {answer : SortedSet StorageRef} (found : remembered? s.index question = some answer) :
      Lists question s (.ok answer) s
  | failed {said : List Exchange} {e : RequestError} (t : EngineState Connection)
      (missed : remembered? s.index question = none) (sent : t.store.sent = s.store.sent ++ said)
      (index : t.index = s.index) : Lists question s (.error e) t
  | asked {said : List Exchange} {answer : SortedSet StorageRef} {seen : UInt64}
      (t : EngineState Connection) (missed : remembered? s.index question = none)
      (sent : t.store.sent = s.store.sent ++ said) (given : Gave said question answer)
      (index : t.index = s.index.map fun x => (x.remember question answer seen).2) :
      Lists question s (.ok answer) t

/-- Asking the database which storages can be read keeps the index. -/
theorem run_askReadable (question : SidSet) (s : EngineState Connection) :
    (((Connection.engine catalog maxBatch).askReadable question).run s).answer =
        (((Connection.storagesHolding question.members).run s.store).answer.mapError .ofStore).map
          SortedSet.ofList ∧
      (((Connection.engine catalog maxBatch).askReadable question).run s).state =
        ⟨((Connection.storagesHolding question.members).run s.store).state, s.index⟩ := by
  have answer : ((onStore (Connection.storagesHolding question.members)).run s).answer =
    ((Connection.storagesHolding question.members).run s.store).answer.mapError .ofStore := rfl
  rw [askReadable, Action.answer_bind, Action.state_bind]
  rw [show (Connection.engine catalog maxBatch).store.storagesHolding question.members =
    Connection.storagesHolding question.members from rfl, answer]
  cases ((Connection.storagesHolding question.members).run s.store).answer <;> exact ⟨rfl, rfl⟩

/-- **What listing does.** -/
theorem lists_readable (sids : List Sid) (some_asked : (SortedSet.ofList sids).isEmpty = false)
    (s : EngineState Connection) :
    Lists (SortedSet.ofList sids) s (((Connection.engine catalog maxBatch).readable sids).run s).answer
      (((Connection.engine catalog maxBatch).readable sids).run s).state := by
  simp only [readable, some_asked, Bool.false_eq_true, if_false]
  generalize SortedSet.ofList sids = question at some_asked ⊢
  rw [Action.answer_bind, Action.state_bind, (run_consult question s).1, (run_consult question s).2]
  cases missed : remembered? s.index question with
  | some answer => exact .hit missed
  | none =>
      obtain ⟨said, sent, told⟩ := Connection.tells_storagesHolding some_asked s.store
      obtain ⟨answer, state⟩ := @run_askReadable catalog maxBatch question s
      -- the writes are counted in this state, so none comes between the question and the answer
      have counted : (writesSeen.run s).answer = .ok (s.index.elim 0 StorageIndex.writes) := rfl
      have kept : (writesSeen.run s).state = s := rfl
      simp only [Action.answer_bind, Action.state_bind, counted, kept, answer, state]
      cases result : ((Connection.storagesHolding question.members).run s.store).answer with
      | error e => exact .failed _ missed sent rfl
      | ok storages =>
          rw [result] at told
          obtain ⟨put, left⟩ := run_remember question (SortedSet.ofList storages)
            (s.index.elim 0 StorageIndex.writes)
            ⟨((Connection.storagesHolding question.members).run s.store).state, s.index⟩
          have passed : ((.ok storages : Except StoreError _).mapError RequestError.ofStore).map
            SortedSet.ofList = .ok (SortedSet.ofList storages) := rfl
          simp only [passed, put, left, Action.run_pure]
          exact .asked _ missed sent (told storages rfl) rfl

/-! ## Sessions -/

/-- Listing evolves the state. -/
theorem onward_readable (sids : List Sid) :
    Action.Along Onward ((Connection.engine catalog maxBatch).readable sids) := by
  intro s
  by_cases none_asked : (SortedSet.ofList sids).isEmpty = true
  · simp only [readable, none_asked, if_true]
    exact refl_of Onward s
  have lists := @lists_readable catalog maxBatch sids (eq_false_of_ne_true none_asked) s
  generalize (((Connection.engine catalog maxBatch).readable sids).run s).answer = result at lists
  generalize (((Connection.engine catalog maxBatch).readable sids).run s).state = left at lists ⊢
  cases lists with
  | hit found => exact refl_of Onward s
  | failed t missed sent index => exact ⟨_, evolves_of_index sent index⟩
  | asked t missed sent given index => exact ⟨_, evolves_remember given sent index⟩

/-- An engine over a database goes onward with all it does. -/
theorem follows_onward : (Connection.engine catalog maxBatch).Follows Onward where
  asks := Connection.appends_store.mono fun a appends s => by
    obtain ⟨said, sent, -⟩ := appends s.store
    exact ⟨said, evolves_of_index sent rfl⟩
  notes id sids s := by
    rw [(run_noteWrite s id sids).2]
    exact ⟨[], evolves_noteWrite id sids s⟩
  lists := onward_readable

variable (catalog maxBatch) in
/-- A state comes **later** in a session: after turns of the engine, whatever peers are at the other
end meanwhile. -/
inductive Later (s : EngineState Connection) : EngineState Connection → Prop
  | now : Later s s
  | turn {t : EngineState Connection} (turn : Turn) (earlier : Later s t) :
      Later s ((Connection.engine catalog maxBatch).after t turn)
  | meet {t : EngineState Connection} (peer : Peer) (earlier : Later s t) :
      Later s { t with store := { t.store with peer } }

/-- **Whatever comes later** evolved from before. -/
theorem Later.onward (h : Later catalog maxBatch s t) : Onward s t := by
  induction h with
  | now => exact refl_of Onward s
  | turn turn _ ih =>
      refine IsTrans.trans _ _ _ ih ?_
      cases turn with
      | call c => exact follows_onward.afterCall _ c
      | lose question => exact ⟨[], evolves_lose question _⟩
  | meet peer _ ih =>
      refine IsTrans.trans _ _ _ ih ⟨[], evolves_of_index ?_ rfl⟩
      exact (List.append_nil _).symm

variable (catalog maxBatch) in
/-- A state is **met** in a session that begins on some connection, with an index that remembers
nothing, if one is kept. -/
def Met (s : EngineState Connection) : Prop :=
  ∃ (settings : IndexSettings) (c : Connection), Later catalog maxBatch ⟨c, settings.start⟩ s

/-- What is remembered in a session is registered. -/
theorem Met.filed (h : Met catalog maxBatch s) : Filed s := by
  obtain ⟨settings, c, later⟩ := h
  obtain ⟨said, evolves⟩ := later.onward
  refine evolves.filed fun x hx => ?_
  rw [IndexSettings.start] at hx
  split at hx
  · obtain rfl := Option.some.inj hx
    exact StorageIndex.registered_empty
  · cases hx

end Engine

end PathAcl
