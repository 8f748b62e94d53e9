import PathAcl.Proofs.Engine.Calls
import PathAcl.Proofs.Index.Registration
import PathAcl.Proofs.Store.Calls

/-! # Walks through an engine
What holds from state to state along every question to the store, every note to the index and every
listing holds along every call of an engine, since a call consists of nothing else. -/

namespace PathAcl.Engine

open PathAcl.Action (Along)

variable {σ ε α : Type} (e : Engine σ) (R : EngineState σ → EngineState σ → Prop)

/-! ## The index of a state -/

/-- The answer that an index remembers, if one is kept. -/
def remembered? (index : Option StorageIndex) (question : SidSet) : Option (SortedSet StorageRef) :=
  index.bind fun x => x.answer? question

/-- What a write makes of an index, if one is kept. -/
def noted (index : Option StorageIndex) (id : StorageId) (sids : List Sid) : Option StorageIndex :=
  index.map fun x => (x.noteWrite id sids).2

/-- A note to the index changes the index alone. -/
theorem run_noteWrite (s : EngineState σ) (id : StorageId) (sids : List Sid) :
    ((noteWrite id sids : Step σ Unit).run s).answer = .ok () ∧
      ((noteWrite id sids : Step σ Unit).run s).state = ⟨s.store, noted s.index id sids⟩ := by
  obtain ⟨store, index⟩ := s
  cases index <;> exact ⟨rfl, rfl⟩

/-- Looking an answer up keeps the state. -/
theorem run_consult (question : SidSet) (s : EngineState σ) :
    ((consult question).run s).answer = .ok (remembered? s.index question) ∧
      ((consult question).run s).state = s := by
  obtain ⟨store, index⟩ := s
  cases index <;> exact ⟨rfl, rfl⟩

/-- Putting an answer in changes the index alone. -/
theorem run_remember (question : SidSet) (answer : SortedSet StorageRef) (asked : UInt64)
    (s : EngineState σ) : ((remember question answer asked).run s).answer = .ok () ∧
      ((remember question answer asked).run s).state =
        ⟨s.store, s.index.map fun x => (x.remember question answer asked).2⟩ := by
  obtain ⟨store, index⟩ := s
  cases index <;> exact ⟨rfl, rfl⟩

/-- What is remembered after an entry was lost was remembered before. -/
theorem remembered?_of_lose {s : EngineState σ} {question q : SidSet} {answer : SortedSet StorageRef}
    (h : remembered? (lose s question).index q = some answer) :
    remembered? s.index q = some answer := by
  obtain ⟨x, kept, h⟩ := Option.bind_eq_some_iff.1 h
  obtain ⟨old, before, rfl⟩ := Option.map_eq_some_iff.1 kept
  exact Option.bind_eq_some_iff.2 ⟨old, before, StorageIndex.answer?_of_lost h⟩

/-- What is remembered after an answer was put in is that answer, and then no write came since its
question, or was remembered before. -/
theorem remembered?_of_remember {index : Option StorageIndex} {question q : SidSet}
    {answer found : SortedSet StorageRef} {asked : UInt64}
    (h : remembered? (index.map fun x => (x.remember question answer asked).2) q = some found) :
    (q = question ∧ found = answer ∧ ∃ x, index = some x ∧ x.writes = asked) ∨
      remembered? index q = some found := by
  obtain ⟨x, kept, h⟩ := Option.bind_eq_some_iff.1 h
  obtain ⟨old, before, rfl⟩ := Option.map_eq_some_iff.1 kept
  rw [StorageIndex.answer?_remember] at h
  by_cases e : q = question
  · rw [if_pos e] at h
    by_cases current : old.writes = asked
    · rw [if_pos current] at h
      exact .inl ⟨e, (Option.some.inj h).symm, old, before, current⟩
    · rw [if_neg current] at h
      cases h
  · rw [if_neg e] at h
    exact .inr (Option.bind_eq_some_iff.2 ⟨old, before, h⟩)

/-- The answers that a state remembers are registered. -/
def Filed (s : EngineState σ) : Prop := ∀ x, s.index = some x → x.Registered

namespace Filed

variable {s : EngineState σ} (h : Filed s) (store : σ)

include h

/-- What is remembered after a note was remembered before, asks for none of the touched sids, and does
not name the storage. -/
theorem of_noted {id : StorageId} {sids : List Sid} {q : SidSet} {answer : SortedSet StorageRef}
    (found : remembered? (noted s.index id sids) q = some answer) :
    remembered? s.index q = some answer ∧ (∀ sid ∈ q.members, sid ∉ sids) ∧
      ∀ storage ∈ answer.members, storage.id ≠ id := by
  obtain ⟨x, kept, found⟩ := Option.bind_eq_some_iff.1 found
  obtain ⟨old, before, rfl⟩ := Option.map_eq_some_iff.1 kept
  obtain ⟨was, -, untouched, elsewhere⟩ := (h old before).of_noteWrite found
  exact ⟨Option.bind_eq_some_iff.2 ⟨old, before, was⟩, untouched, elsewhere⟩

/-- A note leaves the answers registered. -/
theorem noted (id : StorageId) (sids : List Sid) : Filed ⟨store, noted s.index id sids⟩ := by
  intro x kept
  obtain ⟨old, before, rfl⟩ := Option.map_eq_some_iff.1 kept
  exact (h old before).noteWrite id sids

/-- An answer that is put in is registered. -/
theorem remember (question : SidSet) (answer : SortedSet StorageRef) (asked : UInt64) :
    Filed ⟨store, s.index.map fun x => (x.remember question answer asked).2⟩ := by
  intro x kept
  obtain ⟨old, before, rfl⟩ := Option.map_eq_some_iff.1 kept
  exact (h old before).remember question answer asked

/-- A lost entry leaves the others registered. -/
theorem lose (question : SidSet) : Filed (lose s question) := by
  intro x kept
  obtain ⟨old, before, rfl⟩ := Option.map_eq_some_iff.1 kept
  exact (h old before).lose question

end Filed

/-! ## What an engine follows -/

/-- An engine **follows** a relation of states if what its calls consist of goes along it. -/
structure Follows : Prop where
  asks : e.store.Each fun a => Along R (asking a)
  notes : ∀ id sids, Along R (noteWrite id sids : Step σ Unit)
  lists : ∀ sids, Along R (e.readable sids)

namespace Follows

variable {e R} (h : e.Follows R) [IsPreorder (EngineState σ) R]

include h

/-- An engine meets at every storage what it follows. -/
theorem meets (i : StorageId) : e.Meets i fun {ε α} (a : Action (EngineState σ) ε α) => Along R a :=
  ⟨Along.closed, h.asks.at i, h.notes i⟩

/-- **Every call of an engine goes along** what the engine follows. -/
theorem afterCall (s : EngineState σ) (c : Call) : R s (e.afterCall s c) := by
  cases named : c.storageId? with
  | some i =>
      have along := (h.meets i).act named s
      rw [state_act] at along
      exact along
  | none =>
      cases c with
      | health => exact h.asks.health s
      | readable sids => exact h.lists sids s
      | overlay sids base =>
          rw [Engine.afterCall]
          exact Along.closed.bind (h.lists sids) (fun _ => Along.closed.answer _) s
      | _ => cases named

end Follows

end PathAcl.Engine
