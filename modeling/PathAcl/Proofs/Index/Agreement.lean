import PathAcl.Proofs.Index.Registration

/-! # Agreement of the index
The index **agrees** with what the store would answer if every answer it remembers is the answer of
the store, and is listed under each sid of its question and each storage it names. The directories may
list more than that. A write that is noted with the sids it touched strikes every answer it may have
changed, so agreement carries over to the answers after the write. -/

namespace PathAcl.StorageIndex

variable {x : StorageIndex} {truth truth' : SidSet → SortedSet StorageRef}

/-- An index **agrees** with the answers of a store: what it remembers is true, and is listed where a
write that may change it will look. -/
structure Agrees (x : StorageIndex) (truth : SidSet → SortedSet StorageRef) : Prop where
  holds : ∀ q answer, x.answer? q = some answer → answer = truth q
  bySid : ∀ q answer, x.answer? q = some answer → ∀ sid ∈ q.members,
    q ∈ (x.bySid.listed sid).members
  byStorage : ∀ q answer, x.answer? q = some answer → ∀ storage ∈ answer.members,
    q ∈ (x.byStorage.listed storage.id).members

/-- An index agrees if its answers are registered and true. -/
theorem Registered.agrees (h : x.Registered)
    (holds : ∀ q answer, x.answer? q = some answer → answer = truth q) : x.Agrees truth :=
  ⟨holds, h.bySid, h.byStorage⟩

/-- The answers of an index that agrees are registered. -/
theorem Agrees.registered (h : x.Agrees truth) : x.Registered := ⟨h.bySid, h.byStorage⟩

/-- An index that remembers nothing agrees with everything. -/
theorem agrees_empty : Agrees ∅ truth := registered_empty.agrees fun _ _ h => (nomatch h)

/-- Remembering less keeps agreement. -/
theorem Agrees.lose (h : x.Agrees truth) (question : SidSet) :
    { x with answers := x.answers.erase question }.Agrees truth :=
  (h.registered.lose question).agrees fun q answer hq => h.holds q answer (answer?_of_lost hq)

/-- Remembering a true answer keeps agreement, if no write came since its question. -/
theorem Agrees.remember (h : x.Agrees truth) (question : SidSet) :
    (x.remember question (truth question) x.writes).2.Agrees truth := by
  refine (h.registered.remember question _ _).agrees fun q answer hq => ?_
  rw [answer?_remember] at hq
  by_cases e : q = question
  · rw [if_pos e, if_pos rfl] at hq
    rw [e, Option.some.inj hq]
  · rw [if_neg e] at hq
    exact h.holds q answer hq

/-- **Noting a write keeps agreement**: if the answers to questions that name none of the touched sids
are as before, those that are still remembered are true of the new answers. -/
theorem Agrees.noteWrite (h : x.Agrees truth) (id : StorageId) (sids : List Sid)
    (stable : ∀ q : SidSet, (∀ sid ∈ q.members, sid ∉ sids) → truth' q = truth q) :
    (x.noteWrite id sids).2.Agrees truth' := by
  refine (h.registered.noteWrite id sids).agrees fun q answer hq => ?_
  obtain ⟨old, -, untouched, -⟩ := h.registered.of_noteWrite hq
  rw [stable q untouched]
  exact h.holds q answer old

end PathAcl.StorageIndex
